import Wormhole.Codec.Leaves
import Wormhole.Derive.Named

/-!
# `Derive.Hygiene` — which fields' variables get in each other's way

Of the collisions between a field's name and a name that is generated for another field, some do not compile.
Of what compiles, the code is hygienic exactly if no field `len_n` stands before a field `n`, and in a struct
variant no field `field_bytes_n` behind a field `n`.
-/

namespace Wormhole
namespace Derive

open LittleEndian Codec

variable {ι : Type}

/-! ## What does not compile -/

section Check

variable [DecidableEq ι] {dataIdent offsetIdent : String} {env env' : Scope Place (Slot ι)}

theorem borrow_eq {place : Place} {t : VarTy ι} {u : Unit} (h : borrow env place t = some u) :
    env.lookup place = some ⟨t, true⟩ := by
  unfold borrow at h
  split at h
  · assumption
  · cases h

theorem check_eq {s : Stmt ι} {new : Scope Place (Slot ι)} (h : check s env = some new) :
    ∃ t, typeOf s env = some t ∧
      new = (.var s.binds, ⟨t, true⟩) :: s.moves.map fun (place, t) => (place, ⟨t, false⟩) := by
  obtain ⟨t, ht, hnew⟩ := Option.bind_eq_some_iff.mp h
  exact ⟨t, ht, (Option.some.inj hnew).symm⟩

/-- The places that the compiler knows something new about after a statement. -/
def Stmt.changes (s : Stmt ι) : List Place := .var s.binds :: s.moves.map Prod.fst

theorem check_places {s : Stmt ι} {new : Scope Place (Slot ι)} (h : Returns (check s env) new) :
    ∀ e ∈ new, e.1 ∈ s.changes := by
  obtain ⟨t, -, rfl⟩ := check_eq h
  intro e he
  rcases List.mem_cons.mp he with rfl | he
  · exact List.mem_cons_self
  · obtain ⟨m, hm, rfl⟩ := List.mem_map.mp he
    exact List.mem_cons_of_mem _ (List.mem_map_of_mem hm)

omit [DecidableEq ι] in
theorem changes_deserialize {f : NamedField ι} {self : Bool} {s : Stmt ι} {x : String}
    (hs : s ∈ (forField f self dataIdent offsetIdent).2) (hx : Place.var x ∈ s.changes) :
    x = f.identFieldLen ∨ x = offsetIdent ∨ x = f.identFieldBytes ∨ x = f.identField := by
  simp only [forField, List.mem_cons, List.not_mem_nil, or_false] at hs
  rcases hs with rfl | rfl | rfl | rfl | rfl
  · exact .inl (Place.var.inj (List.mem_singleton.mp hx))
  · exact .inr (.inl (Place.var.inj (List.mem_singleton.mp hx)))
  · exact .inr (.inr (.inl (Place.var.inj (List.mem_singleton.mp hx))))
  · exact .inr (.inl (Place.var.inj (List.mem_singleton.mp hx)))
  · exact .inr (.inr (.inr (Place.var.inj (List.mem_singleton.mp hx))))

/-- The bytes of a field stay in their variable, unless a later field's value has the same name. -/
theorem lookup_identFieldBytes {fields : List (NamedField ι)} {self : Bool} (hoffset : NotGenerated offsetIdent)
    (hrun : Returns (Scope.run check (deserialize fields self dataIdent offsetIdent) env) env') {g : NamedField ι}
    (hg : g ∈ fields) (hdistinct : (fields.map NamedField.name).Nodup)
    (hnone : ∀ h ∈ fields, h.name ≠ "bytes_" ++ g.name) :
    env'.lookup (.var g.identFieldBytes) = some ⟨.sliceU8, true⟩ := by
  obtain ⟨before, after, rfl⟩ := List.append_of_mem hg
  have hsplit : deserialize (before ++ g :: after) self dataIdent offsetIdent =
      (deserialize before self dataIdent offsetIdent ++
        [.letLen g.identFieldLen dataIdent offsetIdent, .advanceHeader offsetIdent]) ++
      .letBytes g.identFieldBytes dataIdent offsetIdent g.identFieldLen ::
        ([.advance offsetIdent g.identFieldLen, .letField g.identField g.ty g.identFieldBytes] ++
          deserialize after self dataIdent offsetIdent) := by
    simp [deserialize, forField]
  rw [hsplit] at hrun
  obtain ⟨mid, -, hrun⟩ := Scope.returns_run_append.mp hrun
  obtain ⟨new, hnew, hrun⟩ := Scope.returns_run_cons.mp hrun
  obtain ⟨t, ht, rfl⟩ := check_eq hnew
  have hslice : t = .sliceU8 := by
    obtain ⟨-, -, ht⟩ := Option.bind_eq_some_iff.mp ht
    obtain ⟨-, -, ht⟩ := Option.bind_eq_some_iff.mp ht
    obtain ⟨-, -, ht⟩ := Option.bind_eq_some_iff.mp ht
    exact (Option.some.inj ht).symm
  subst hslice
  rw [Scope.lookup_of_run check_places hrun]
  · exact List.lookup_cons_self
  · intro hmem
    obtain ⟨s, hs, hplace⟩ := List.mem_flatMap.mp hmem
    rcases List.mem_append.mp hs with hs | hs
    · -- what is left of the code for the field itself
      simp only [List.mem_cons, List.not_mem_nil, or_false] at hs
      rcases hs with rfl | rfl
      · exact g.identFieldBytes_ne hoffset (Place.var.inj (List.mem_singleton.mp hplace))
      · exact g.identField_ne_identFieldBytes_self (Place.var.inj (List.mem_singleton.mp hplace)).symm
    · obtain ⟨h, hh, hs⟩ := List.mem_flatMap.mp hs
      have hne : h.name ≠ g.name := by
        rw [List.map_append] at hdistinct
        obtain ⟨hg, -⟩ := List.nodup_cons.mp (List.nodup_append.mp hdistinct).2.1
        intro heq
        rw [← heq] at hg
        exact hg (List.mem_map_of_mem hh)
      rcases changes_deserialize hs hplace with heq | heq | heq | heq
      · exact NamedField.identFieldLen_ne_identFieldBytes heq.symm
      · exact g.identFieldBytes_ne hoffset heq
      · exact hne (NamedField.identFieldBytes_inj.mp heq).symm
      · exact hnone h (by simp [hh]) (NamedField.identField_eq_identFieldBytes.mp heq.symm)

/-- **A field `bytes_n` before a field `n` does not compile**: the bytes of `n` are not a value for it. -/
theorem noBytesBefore_of_check {fields : List (NamedField ι)} {self : Bool} (hoffset : NotGenerated offsetIdent)
    (hrun : Returns (Scope.run check (deserialize fields self dataIdent offsetIdent) env) env')
    (hself : checkSelf fields env') (hdistinct : (fields.map NamedField.name).Nodup) : NoBytesBefore fields := by
  induction fields generalizing env with
  | nil => exact .nil
  | cons f fields ih =>
    obtain ⟨hf, hdistinct'⟩ := List.nodup_cons.mp hdistinct
    obtain ⟨hself_f, hself'⟩ := List.forall_mem_cons.mp hself
    obtain ⟨mid, -, hrest⟩ := Scope.returns_run_append.mp hrun
    refine List.pairwise_cons.mpr ⟨fun g hg heq => ?_, ih hrest hself' hdistinct'⟩
    have hnone : ∀ h ∈ fields, h.name ≠ "bytes_" ++ g.name := by
      intro h hh hheq
      exact hf (heq.trans hheq.symm ▸ List.mem_map_of_mem hh)
    have hslice := lookup_identFieldBytes hoffset hrest hg hdistinct' hnone
    rw [← NamedField.identField_eq_identFieldBytes.mpr heq, borrow_eq hself_f] at hslice
    cases hslice

/-- **A field of a variant is not called `buffer`**: it would be the arm's own buffer, which moves away before its
    length is written. -/
theorem ne_buffer_of_check {fields : List (NamedField ι)} (live : Bool)
    (hrun : Returns (Scope.run check (serialize fields false dataIdent offsetIdent) env) env')
    (hbuffer : env.lookup (.var "buffer") = some ⟨.ty .vecU8, live⟩) : ∀ f ∈ fields, f.name ≠ "buffer" := by
  induction fields generalizing env live with
  | nil => nofun
  | cons f fields ih =>
    obtain ⟨mid, hfield, hrest⟩ := Scope.returns_run_append.mp hrun
    obtain ⟨new, hbytes, hfield⟩ := Scope.returns_run_cons.mp hfield
    obtain ⟨new₁, hlen, hfield⟩ := Scope.returns_run_cons.mp hfield
    obtain ⟨new₂, hextend, hfield⟩ := Scope.returns_run_cons.mp hfield
    obtain ⟨t, ht, rfl⟩ := check_eq hbytes
    obtain ⟨t₁, ht₁, -⟩ := check_eq hlen
    obtain ⟨t₂, ht₂, rfl⟩ := check_eq hextend
    obtain rfl : mid = _ := returns_pure.mp hfield
    refine List.forall_mem_cons.mpr ⟨?_, ih true hrest ?_⟩
    · intro hname
      -- the field has the type of the buffer, and is moved
      obtain ⟨_, haccess, -⟩ := Option.bind_eq_some_iff.mp ht
      have hty := borrow_eq haccess
      have hplace : (if false = true then Place.selfField f.name else Place.var f.name) = .var "buffer" := by
        rw [hname]
        rfl
      rw [hplace, hbuffer] at hty
      simp only [Option.some.injEq, Slot.mk.injEq, VarTy.ty.injEq] at hty
      obtain ⟨hvec, -⟩ := hty
      obtain ⟨_, -, ht₁⟩ := Option.bind_eq_some_iff.mp ht₁
      obtain ⟨_, hlive, -⟩ := Option.bind_eq_some_iff.mp ht₁
      have hlookup := borrow_eq hlive
      obtain ⟨name, T⟩ := f
      obtain rfl : name = "buffer" := hname
      obtain rfl : FieldTy.vecU8 = T := hvec
      cases hlookup
    · obtain ⟨_, -, ht₂⟩ := Option.bind_eq_some_iff.mp ht₂
      obtain ⟨_, -, ht₂⟩ := Option.bind_eq_some_iff.mp ht₂
      obtain rfl := Option.some.inj ht₂
      exact List.lookup_cons_self

/-- **A field of a variant is not called `ctx`**: it is no context. -/
theorem ne_ctx_of_check {fields : List (NamedField ι)} {T : FieldTy ι} {live : Bool}
    (hrun : Returns (Scope.run check (serialize fields false dataIdent offsetIdent) env) env')
    (hctx : env.lookup (.var "ctx") = some ⟨.ty T, live⟩) : fields = [] := by
  cases fields with
  | nil => rfl
  | cons f fields =>
    obtain ⟨mid, hfield, -⟩ := Scope.returns_run_append.mp hrun
    obtain ⟨new, hbytes, -⟩ := Scope.returns_run_cons.mp hfield
    obtain ⟨t, ht, -⟩ := check_eq hbytes
    obtain ⟨-, -, ht⟩ := Option.bind_eq_some_iff.mp ht
    obtain ⟨_, hborrow, -⟩ := Option.bind_eq_some_iff.mp ht
    rw [borrow_eq hborrow] at hctx
    cases hctx

omit [DecidableEq ι] in
/-- The pattern binds every field. -/
theorem lookup_pattern {fields : List (NamedField ι)} {f : NamedField ι} (hf : f ∈ fields)
    (env : Scope Place (Slot ι)) : ∃ T : FieldTy ι,
      ((fields.map fun field => (Place.var field.name, (⟨.ty field.ty, true⟩ : Slot ι))) ++ env).lookup
        (.var f.name) = some ⟨.ty T, true⟩ := by
  induction fields with
  | nil => cases hf
  | cons g fields ih =>
    rw [List.map_cons, List.cons_append, List.lookup_cons]
    split
    · exact ⟨g.ty, rfl⟩
    · rename_i hne
      rcases List.mem_cons.mp hf with rfl | hf
      · simp at hne
      · exact ih hf

/-- What the compiler says of the names of a variant's fields. -/
theorem reserved_of_check {fields : List (NamedField ι)}
    (h : (Scope.run check (serialize fields false dataIdent offsetIdent) (immaterializeArmScope fields)).isSome) :
    (∀ f ∈ fields, f.name ≠ "buffer") ∧ ∀ f ∈ fields, f.name ≠ "ctx" := by
  obtain ⟨env', hrun⟩ := Option.isSome_iff_exists.mp h
  refine ⟨ne_buffer_of_check true hrun List.lookup_cons_self, fun f hf hctx => ?_⟩
  obtain ⟨T, hT⟩ : ∃ T : FieldTy ι, (immaterializeArmScope fields).lookup (.var "ctx") = some ⟨.ty T, true⟩ := by
    obtain ⟨T, hT⟩ := lookup_pattern hf (declare "buffer" (.ty .vecU8) ++ declare "ctx" .context)
    refine ⟨T, ?_⟩
    rw [hctx] at hT
    unfold immaterializeArmScope
    rw [List.append_assoc, List.append_assoc]
    exact hT
  rw [ne_ctx_of_check hrun hT] at hf
  cases hf

end Check

/-! ## Hygiene -/

section Hygiene

variable [DecidableEq ι] (fields : List (NamedField ι))

/-- The value of a field, once decoded, is not replaced by the code for a later field. -/
def KeepsValues (self : Bool) (dataIdent offsetIdent : String) : Prop :=
  fields.Pairwise fun earlier later =>
    ∀ s ∈ (forField later self dataIdent offsetIdent).2, s.binds ≠ earlier.identField

/-- A field, until it is encoded, is not replaced by the code for an earlier field. -/
def KeepsFields (self : Bool) (dataIdent offsetIdent : String) : Prop :=
  fields.Pairwise fun earlier later =>
    ∀ s ∈ (forField earlier self dataIdent offsetIdent).1, Place.var s.binds ≠ access self later.name

/-- No variable of a struct's field replaces one that is still needed, and the struct is encoded and decoded as
    its fields by position are, whatever the implementations of their types. -/
structure StructHygienic : Prop where
  keepsValues : KeepsValues fields true "data" "offset"
  keepsFields : KeepsFields fields true "data" "offset"
  immaterialize : ∀ (p : Platform) (others : Others ι) (values : Vals p others fields),
    structImmaterialize p others fields values =
      Gen.ofRes ((deriveStructNamed (fieldsCodec p others fields)).immaterialize values)
  rematerialize : ∀ (p : Platform) (others : Others ι) (bytes : Bytes),
    structRematerialize p others fields bytes =
      Gen.ofRes ((deriveStructNamed (fieldsCodec p others fields)).rematerialize bytes)

/-- The same for a struct variant. -/
structure VariantHygienic : Prop where
  keepsValues : KeepsValues fields false "payload_data" "payload_offset"
  keepsFields : KeepsFields fields false "payload_data" "payload_offset"
  immaterialize : ∀ (p : Platform) (others : Others ι) (values : Vals p others fields),
    armImmaterialize p others fields values =
      Gen.ofRes ((fieldsArm (fieldsCodec p others fields)).serialize values)
  rematerialize : ∀ (p : Platform) (others : Others ι) (data : Bytes) (offset : Nat) (payload : Bytes),
    armRematerialize p others fields data offset payload =
      Gen.ofRes ((fieldsArm (fieldsCodec p others fields)).deserialize payload)

variable {fields} {self : Bool} {dataIdent offsetIdent : String}

omit [DecidableEq ι] in
theorem KeepsValues.noLenBefore (h : KeepsValues fields self dataIdent offsetIdent) : NoLenBefore fields := by
  refine h.imp fun {f g} hkeeps heq => ?_
  apply hkeeps (.letLen g.identFieldLen dataIdent offsetIdent)
  · exact List.mem_cons_self
  · exact (NamedField.identField_eq_identFieldLen.mpr heq).symm

omit [DecidableEq ι] in
theorem KeepsFields.noFieldBytesAfter (h : KeepsFields fields false dataIdent offsetIdent) :
    NoFieldBytesAfter fields := by
  refine h.imp fun {f g} hkeeps heq => ?_
  apply hkeeps (.letFieldBytes f.identFieldBytes f.ty (access false f.name))
  · exact List.mem_cons_self
  · exact congrArg Place.var heq.symm

omit [DecidableEq ι] in
theorem keepsValues (hoffset : NotGenerated offsetIdent) (hdistinct : (fields.map NamedField.name).Nodup)
    (hlen : NoLenBefore fields) (hbytes : NoBytesBefore fields) :
    KeepsValues fields self dataIdent offsetIdent := by
  have hnames : fields.Pairwise fun f g => f.name ≠ g.name := List.pairwise_map.mp hdistinct
  refine ((hlen.and hbytes).and hnames).imp fun {f g} hfg s hs heq => ?_
  obtain ⟨⟨hlen, hbytes⟩, hname⟩ := hfg
  have hchanges : Place.var f.identField ∈ s.changes := heq ▸ List.mem_cons_self
  rcases changes_deserialize hs hchanges with heq | heq | heq | heq
  · exact hlen (NamedField.identField_eq_identFieldLen.mp heq)
  · exact f.identField_ne hoffset heq
  · exact hbytes (NamedField.identField_eq_identFieldBytes.mp heq)
  · exact hname (NamedField.identField_inj.mp heq)

omit [DecidableEq ι] in
theorem Encodable.keepsFields (h : Encodable self fields) : KeepsFields fields self dataIdent offsetIdent := by
  obtain ⟨hlater, hbuffer⟩ := h
  refine hlater.imp_of_mem fun {f g} _ hg hne s hs heq => ?_
  simp only [forField, List.mem_cons, List.not_mem_nil, or_false] at hs
  rcases hs with rfl | rfl | rfl
  · exact hne heq.symm
  · exact hbuffer g hg heq.symm
  · exact hbuffer g hg heq.symm

/-- **What compiles is hygienic exactly if no field `len_n` is declared before a field `n`** and, in a struct
    variant, no field `field_bytes_n` after a field `n`. -/
theorem hygienic_iff (fields : List (NamedField ι)) :
    (StructCompiles fields → (StructHygienic fields ↔ NoLenBefore fields)) ∧
      (VariantCompiles fields → (VariantHygienic fields ↔ NoLenBefore fields ∧ NoFieldBytesAfter fields)) := by
  constructor
  · rintro ⟨hdistinct, -, env, hrun, hself⟩
    have hbytes := noBytesBefore_of_check notGenerated_offset hrun hself hdistinct
    constructor
    · exact fun h => h.keepsValues.noLenBefore
    · intro hlen
      exact {
        keepsValues := keepsValues notGenerated_offset hdistinct hlen hbytes
        keepsFields := (encodable_self fields).keepsFields
        immaterialize := fun p others values => structImmaterialize_eq hdistinct values
        rematerialize := fun p others bytes => structRematerialize_eq hdistinct hlen hbytes bytes }
  · rintro ⟨hdistinct, hserialize, env, hrun, hself⟩
    have hbytes := noBytesBefore_of_check notGenerated_payload_offset hrun hself hdistinct
    obtain ⟨hbuffer, hctx⟩ := reserved_of_check hserialize
    constructor
    · exact fun h => ⟨h.keepsValues.noLenBefore, h.keepsFields.noFieldBytesAfter⟩
    · rintro ⟨hlen, hafter⟩
      exact {
        keepsValues := keepsValues notGenerated_payload_offset hdistinct hlen hbytes
        keepsFields := (encodable_arm hafter hbuffer).keepsFields
        immaterialize := fun p others values => armImmaterialize_eq hdistinct hafter hbuffer hctx values
        rematerialize := fun p others data offset payload =>
          armRematerialize_eq hdistinct hlen hbytes data offset payload }

end Hygiene

/-! ## A length for a value -/

section Replaced

variable [DecidableEq ι] {p : Platform} {others : Others ι} {env env' : Scope Place (Var p others)}
  {dataIdent offsetIdent : String}

theorem returns_ofRes {α : Type} {r : Res α} {a : α} : Returns (Gen.ofRes r) a ↔ r = .ok a := Option.some_inj

theorem returns_letLen {x : String} {v : Var p others}
    (h : Returns (eval (.letLen x dataIdent offsetIdent) env) v) :
    ∃ length, length < p.usizeSize ∧ v = ⟨.ty .usize, ofUsize length⟩ := by
  obtain ⟨bytes, -, h⟩ := returns_bind.mp h
  obtain ⟨start, -, h⟩ := returns_bind.mp h
  obtain ⟨headerEnd, -, h⟩ := returns_bind.mp h
  split at h
  · cases returns_ofRes.mp h
  · obtain ⟨header, -, h⟩ := returns_bind.mp h
    obtain ⟨length, hlength, h⟩ := returns_bind.mp h
    exact ⟨length, tryIntoUsize_lt (returns_ofRes.mp hlength), returns_pure.mp h⟩

/-- A slice up to a sum that wraps around does not exist. -/
theorem length_slice {bytes b : Bytes} {start length stop : Nat} (hstart : start < p.usizeSize)
    (hlength : length < p.usizeSize) (hstop : p.usizeAdd start length = .ok stop)
    (h : slice bytes start stop = .ok b) : b.length = length := by
  unfold slice at h
  split at h
  · rename_i hle
    cases h
    have hsum : stop = start + length := by
      by_cases hlt : start + length < p.usizeSize
      · rw [Platform.usizeAdd_of_lt hlt] at hstop
        exact (Res.ok.inj hstop).symm
      · rw [Platform.usizeAdd_wraps hstart hlength (Nat.not_lt.mp hlt)] at hstop
        split at hstop
        · cases hstop
        · have := Res.ok.inj hstop
          omega
    rw [List.length_take, List.length_drop]
    omega
  · cases h

theorem returns_letBytes {x len : String} {v : Var p others}
    (h : Returns (eval (.letBytes x dataIdent offsetIdent len) env) v) :
    ∃ length fieldBytes, use env (.var len) (.ty .usize) = pure length ∧ v = ⟨.sliceU8, fieldBytes⟩ ∧
      List.length fieldBytes = usizeToNat length := by
  obtain ⟨bytes, -, h⟩ := returns_bind.mp h
  obtain ⟨start, -, h⟩ := returns_bind.mp h
  obtain ⟨length, hlength, h⟩ := returns_bind.mp h
  obtain ⟨stop, hstop, h⟩ := returns_bind.mp h
  split at h
  · cases returns_ofRes.mp h
  · obtain ⟨fieldBytes, hslice, h⟩ := returns_bind.mp h
    refine ⟨length, fieldBytes, hlength, returns_pure.mp h, ?_⟩
    exact length_slice (BitVec.isLt _) (BitVec.isLt _) (returns_ofRes.mp hstop) (returns_ofRes.mp hslice)

theorem returns_letField {x bytes : String} {T : FieldTy ι} {v : Var p others}
    (h : Returns (eval (.letField x T bytes) env) v) :
    ∃ fieldBytes value, use env (.var bytes) .sliceU8 = pure fieldBytes ∧
      (T.codec p others).rematerialize fieldBytes = .ok value := by
  obtain ⟨_, -, h⟩ := returns_bind.mp h
  obtain ⟨fieldBytes, hbytes, h⟩ := returns_bind.mp h
  obtain ⟨value, hvalue, -⟩ := returns_bind.mp h
  exact ⟨fieldBytes, value, hbytes, returns_ofRes.mp hvalue⟩

theorem pure_inj {α : Type} {a b : α} (h : (pure a : Gen α) = pure b) : b = a :=
  (Res.ok.inj (Option.some.inj h)).symm

/-- A variable behind one other. -/
theorem use_behind {x y : String} (h : x ≠ y) (t : VarTy ι) (v : t.Val p others) (w : Var p others) :
    use ((.var y, w) :: (.var x, ⟨t, v⟩) :: env) (.var x) t = pure v :=
  (use_bindVar_ne h w.2 _).trans (use_bindVar_self x t v env)

theorem lookup_of_use {place : Place} {t : VarTy ι} {v : t.Val p others} (h : Returns (use env place t) v) :
    env.lookup place = some ⟨t, v⟩ := by
  cases hlookup : env.lookup place with
  | none =>
    have hstuck : use env place t = none := by
      unfold use
      rw [hlookup]
    rw [hstuck] at h
    cases h
  | some w =>
    obtain ⟨t', v'⟩ := w
    by_cases heq : t' = t
    · subst heq
      rw [use_of_lookup hlookup] at h
      rw [returns_pure.mp h]
    · have hstuck : use env place t = none := by
        unfold use
        rw [hlookup]
        exact dif_neg heq
      rw [hstuck] at h
      cases h

/-- The length of a field is that of the bytes it is decoded from. -/
theorem returns_deserialize_field {g : NamedField ι} {self : Bool} (hoffset : NotGenerated offsetIdent)
    (h : Returns (Scope.run step (forField g self dataIdent offsetIdent).2 env) env') :
    ∃ fieldBytes value, (g.ty.codec p others).rematerialize fieldBytes = .ok value ∧
      env'.lookup (.var g.identFieldLen) = some ⟨.ty .usize, ofUsize fieldBytes.length⟩ := by
  simp only [forField, run_cons] at h
  obtain ⟨_, hlen, h⟩ := returns_bind.mp h
  obtain ⟨start, -, h⟩ := returns_bind.mp h
  obtain ⟨_, hb, h⟩ := returns_bind.mp h
  obtain ⟨stop, -, h⟩ := returns_bind.mp h
  obtain ⟨value, hvalue, h⟩ := returns_bind.mp h
  obtain rfl : env' = _ := returns_pure.mp h
  obtain ⟨length, hlt, rfl⟩ := returns_letLen hlen
  obtain ⟨length', fieldBytes, huse, rfl, hlength⟩ := returns_letBytes hb
  obtain ⟨fieldBytes', v, huse', hv⟩ := returns_letField hvalue
  -- the length and the bytes are those that have just been bound
  have hread := (use_behind (g.identFieldLen_ne hoffset) (.ty .usize) (ofUsize length) start).symm.trans huse
  obtain rfl : length' = ofUsize length := pure_inj hread
  have hread' := (use_behind (g.identFieldBytes_ne hoffset) .sliceU8 fieldBytes stop).symm.trans huse'
  obtain rfl : fieldBytes' = fieldBytes := pure_inj hread'
  rw [usizeToNat_ofUsize hlt] at hlength
  refine ⟨fieldBytes', v, hv, ?_⟩
  rw [hlength]
  have hnew : ∀ e ∈ ([(.var g.identField, value), (.var offsetIdent, stop),
      (.var g.identFieldBytes, ⟨.sliceU8, fieldBytes'⟩), (.var offsetIdent, start)] : Scope Place (Var p others)),
      e.1 ≠ .var g.identFieldLen := by
    simp only [List.forall_mem_cons, ne_eq, Place.var.injEq]
    exact ⟨g.identField_ne_identFieldLen_self, (g.identFieldLen_ne hoffset).symm,
      NamedField.identFieldLen_ne_identFieldBytes.symm, (g.identFieldLen_ne hoffset).symm, nofun⟩
  exact (Scope.lookup_append_of_notMem hnew _).trans List.lookup_cons_self

/-- What `construct` gives a field is what the field's variable holds. -/
theorem lookup_of_construct {fields : List (NamedField ι)} (hdistinct : (fields.map NamedField.name).Nodup)
    {values : Vals p others fields} (h : Returns (construct fields env) values) {f : NamedField ι} (hf : f ∈ fields)
    {w : Var p others} (hw : env.lookup (.var f.identField) = some w) :
    (bindFields .var fields values).lookup (.var f.name) = some w := by
  induction fields with
  | nil => cases hf
  | cons g fields ih =>
    obtain ⟨hg, hdistinct⟩ := List.nodup_cons.mp hdistinct
    obtain ⟨value, hvalue, h⟩ := returns_bind.mp h
    obtain ⟨rest, hrest, h⟩ := returns_bind.mp h
    obtain rfl : values = (value, rest) := returns_pure.mp h
    rcases List.mem_cons.mp hf with rfl | hf
    · rw [lookup_of_use hvalue] at hw
      exact List.lookup_cons_self.trans hw
    · have hne : ∀ e ∈ ([(.var g.name, ⟨.ty g.ty, value⟩)] : Scope Place (Var p others)), e.1 ≠ .var f.name := by
        intro e he heq
        rw [List.mem_singleton.mp he] at heq
        exact hg (Place.var.inj heq ▸ List.mem_map_of_mem hf)
      exact (Scope.lookup_append_of_notMem hne _).trans (ih hdistinct hrest hf)

/-- **Where a field `len_n` stands before a field `n`, every decoded value of it is the length of the bytes that
    `n` was decoded from.** -/
theorem value_replaced {before after : List (NamedField ι)} {f g : NamedField ι}
    (hdistinct : ((before ++ g :: after).map NamedField.name).Nodup) (hf : f ∈ before)
    (hname : f.name = "len_" ++ g.name) {bytes : Bytes} {values : Vals p others (before ++ g :: after)}
    (h : structRematerialize p others (before ++ g :: after) bytes = some (.ok values)) :
    ∃ fieldBytes value, (g.ty.codec p others).rematerialize fieldBytes = .ok value ∧
      (bindFields .var (before ++ g :: after) values).lookup (.var f.name) =
        some ⟨.ty .usize, ofUsize fieldBytes.length⟩ := by
  have h : Returns (structRematerialize p others (before ++ g :: after) bytes) values := h
  unfold structRematerialize at h
  obtain ⟨env, hrun, h⟩ := returns_bind.mp h
  obtain ⟨_, -, h⟩ := returns_bind.mp h
  obtain ⟨_, -, h⟩ := returns_bind.mp h
  have hconstruct : Returns (construct (before ++ g :: after) env) values := by
    split at h
    · cases returns_ofRes.mp h
    · exact h
  rw [deserialize, List.flatMap_append, List.flatMap_cons] at hrun
  obtain ⟨_, -, hrun⟩ := Scope.returns_run_append.mp hrun
  obtain ⟨env₁, hfield, hafter⟩ := Scope.returns_run_append.mp hrun
  obtain ⟨fieldBytes, value, hvalue, hlen⟩ := returns_deserialize_field notGenerated_offset hfield
  refine ⟨fieldBytes, value, hvalue, ?_⟩
  apply lookup_of_construct hdistinct hconstruct (List.mem_append_left _ hf)
  rw [NamedField.identField_eq_identFieldLen.mpr hname, ← hlen]
  apply Scope.lookup_of_run step_places hafter
  -- no later field binds the length of `g` again
  rw [List.map_append, List.map_cons] at hdistinct
  obtain ⟨-, hg, hfg⟩ := List.nodup_append.mp hdistinct
  intro hmem
  obtain ⟨s, hs, hplace⟩ := List.mem_flatMap.mp hmem
  obtain ⟨h, hh, hs⟩ := List.mem_flatMap.mp hs
  have hchanges : Place.var g.identFieldLen ∈ s.changes := List.mem_singleton.mp hplace ▸ List.mem_cons_self
  rcases changes_deserialize hs hchanges with heq | heq | heq | heq
  · exact (List.nodup_cons.mp hg).1 (String.append_right_inj _ |>.mp heq ▸ List.mem_map_of_mem hh)
  · exact g.identFieldLen_ne notGenerated_offset heq
  · exact NamedField.identFieldLen_ne_identFieldBytes heq
  · have hlater := NamedField.identField_eq_identFieldLen.mp heq.symm
    exact hfg _ (List.mem_map_of_mem hf) _ (List.mem_cons_of_mem _ (List.mem_map_of_mem hh)) (hname.trans hlater.symm)

end Replaced

/-- `struct S { len_x: usize, x: u32 }`. -/
def lenX : List (NamedField Unit) := [⟨"len_x", .usize⟩, ⟨"x", .other ()⟩]

/-- `u32`. -/
def u32 : Others Unit where
  Val _ := BitVec 32
  codec _ := leBytes 4

theorem lenX_compiles : StructCompiles lenX := by
  refine ⟨by decide, by decide +kernel, ?_⟩
  refine ⟨_, rfl, ?_⟩
  unfold checkSelf
  decide +kernel

/-- Whatever `len_x` was, it is decoded as the length of an encoded `u32`. -/
theorem lenX_replaced {bytes : Bytes} {values : Vals (Target.sixtyFour true).toPlatform u32 lenX}
    (h : structRematerialize (Target.sixtyFour true).toPlatform u32 lenX bytes = some (.ok values)) :
    values.1 = 4#64 := by
  let f : NamedField Unit := ⟨"len_x", .usize⟩
  let g : NamedField Unit := ⟨"x", .other ()⟩
  have hrun : structRematerialize (Target.sixtyFour true).toPlatform u32 ([f] ++ g :: []) bytes = some (.ok values) := h
  have hdistinct : (([f] ++ g :: []).map NamedField.name).Nodup := by decide
  obtain ⟨fieldBytes, value, hvalue, hlookup⟩ := value_replaced hdistinct List.mem_cons_self rfl hrun
  have hbytes : fieldBytes = LittleEndian.toLeBytes 4 (BitVec.toNat value) :=
    leBytes_rematerialize_eq_ok.mp hvalue
  have hlength : fieldBytes.length = 4 := by rw [hbytes, LittleEndian.length_toLeBytes]
  rw [hlength] at hlookup
  have hvar : (⟨.ty .usize, values.1⟩ : Var (Target.sixtyFour true).toPlatform u32) = ⟨.ty .usize, ofUsize 4⟩ :=
    Option.some.inj hlookup
  exact eq_of_heq (Sigma.mk.inj hvar).2

/-- `V { x: u32, field_bytes_x: Vec<u8> }`, a variant. -/
def fieldBytesX : List (NamedField Unit) := [⟨"x", .other ()⟩, ⟨"field_bytes_x", .vecU8⟩]

theorem fieldBytesX_compiles : VariantCompiles fieldBytesX := by
  refine ⟨by decide, by decide +kernel, ?_⟩
  refine ⟨_, rfl, ?_⟩
  unfold checkSelf
  decide +kernel

/-- **`S { len_x: 7, x: 5 }` is encoded and comes back as `S { len_x: 4, x: 5 }`**: the four bytes of `x` are
    counted in the variable that holds `len_x`. Of `V { x: 5, field_bytes_x: [1] }` the bytes of `x` are encoded in
    place of `field_bytes_x`. -/
theorem lenX_misread :
    StructCompiles lenX ∧ ¬ StructHygienic lenX ∧ (∃ bytes : Bytes,
      structImmaterialize (Target.sixtyFour true).toPlatform u32 lenX (7#64, 5#32, ()) = some (.ok bytes) ∧
      structRematerialize (Target.sixtyFour true).toPlatform u32 lenX bytes = some (.ok (4#64, 5#32, ()))) ∧
      (∀ bytes values, structRematerialize (Target.sixtyFour true).toPlatform u32 lenX bytes = some (.ok values) →
        values.1 = 4#64) ∧
      VariantCompiles fieldBytesX ∧ ¬ VariantHygienic fieldBytesX ∧
      armImmaterialize (Target.sixtyFour true).toPlatform u32 fieldBytesX (5#32, [1], ()) =
        some (.ok (block [5, 0, 0, 0] ++ block (block [5, 0, 0, 0]))) := by
  refine ⟨lenX_compiles, ?_, ⟨block [7, 0, 0, 0, 0, 0, 0, 0] ++ block [5, 0, 0, 0], rfl, rfl⟩,
    fun _ _ => lenX_replaced, fieldBytesX_compiles, ?_, rfl⟩
  · intro h
    have := h.keepsValues.noLenBefore
    revert this
    unfold NoLenBefore
    decide
  · intro h
    have := h.keepsFields.noFieldBytesAfter
    revert this
    unfold NoFieldBytesAfter
    decide

end Derive
end Wormhole
