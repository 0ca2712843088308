import Wormhole.Derive.Generated

/-!
# `Derive.Running` — what the generated code does

The macro generates the same code for a list of fields in four places, with variables of different names. What the
code should do is said without names: `fieldsCodec`, the fields by position. Where no variable is bound again while
it is still needed, the code does just that.
-/

namespace Wormhole
namespace Derive

open LittleEndian Codec

variable {ι : Type}

/-! ## Names -/

/-- The name is not one that is generated for a field. -/
def NotGenerated (x : String) : Prop := ∀ s, "field_" ++ s ≠ x

theorem notGenerated_data : NotGenerated "data" := fun s h => by
  have := congrArg String.toList h
  simp at this

theorem notGenerated_offset : NotGenerated "offset" := fun s h => by
  have := congrArg String.toList h
  simp at this

theorem notGenerated_payload_data : NotGenerated "payload_data" := fun s h => by
  have := congrArg String.toList h
  simp at this

theorem notGenerated_payload_offset : NotGenerated "payload_offset" := fun s h => by
  have := congrArg String.toList h
  simp at this

theorem notGenerated_ctx : NotGenerated "ctx" := fun s h => by
  have := congrArg String.toList h
  simp at this

theorem notGenerated_buffer : NotGenerated "buffer" := fun s h => by
  have := congrArg String.toList h
  simp at this

section Run

variable [DecidableEq ι] {p : Platform} {others : Others ι}

/-- The code does what the other computation does, and the results match. -/
def Simulates {α β : Type} (x : Gen α) (r : Res β) (Q : β → α → Prop) : Prop :=
  match r with
  | .ok b => ∃ a, x = some (.ok a) ∧ Q b a
  | .err e => x = some (.err e)
  | .panic reason => x = some (.panic reason)

namespace Simulates

variable {α β γ δ : Type}

theorem ofRes (r : Res α) : Simulates (Gen.ofRes r) r (fun b a => a = b ∧ r = .ok b) := by
  cases r with
  | ok a => exact ⟨a, rfl, rfl, rfl⟩
  | err e => rfl
  | panic reason => rfl

theorem pure {a : α} {b : β} {Q : β → α → Prop} (h : Q b a) : Simulates (Pure.pure a : Gen α) (.ok b) Q :=
  ⟨a, rfl, h⟩

theorem bind_returns {x : Gen α} {r : Res β} {Q : β → α → Prop} {f : α → Gen γ} {g : β → Res δ}
    {Q' : δ → γ → Prop} (hx : Simulates x r Q) (hf : ∀ b a, Returns x a → Q b a → Simulates (f a) (g b) Q') :
    Simulates (x >>= f) (r >>= g) Q' := by
  cases r with
  | ok b =>
    obtain ⟨a, rfl, hab⟩ := hx
    exact hf b a rfl hab
  | err e =>
    obtain rfl : x = some (.err e) := hx
    exact (rfl : (some (.err e) : Gen γ) = some (.err e))
  | panic reason =>
    obtain rfl : x = some (.panic reason) := hx
    exact (rfl : (some (.panic reason) : Gen γ) = some (.panic reason))

theorem bind {x : Gen α} {r : Res β} {Q : β → α → Prop} {f : α → Gen γ} {g : β → Res δ} {Q' : δ → γ → Prop}
    (hx : Simulates x r Q) (hf : ∀ b a, Q b a → Simulates (f a) (g b) Q') : Simulates (x >>= f) (r >>= g) Q' :=
  hx.bind_returns fun b a _ hab => hf b a hab

theorem pure_bind {x : Gen α} {a : α} {f : α → Gen γ} {r : Res β} {Q : β → γ → Prop} (hx : x = Pure.pure a)
    (h : Simulates (f a) r Q) : Simulates (x >>= f) r Q := by
  rw [hx]
  exact h

theorem map {x : Gen α} {r : Res β} {Q : β → α → Prop} {f : α → γ} {Q' : β → γ → Prop} (hx : Simulates x r Q)
    (hf : ∀ b a, Q b a → Q' b (f a)) : Simulates (x >>= fun a => Pure.pure (f a)) r Q' := by
  have h := hx.bind (f := fun a => (Pure.pure (f a) : Gen γ)) (g := Res.ok) fun b a hab => Simulates.pure (hf b a hab)
  rw [Res.bind_ok] at h
  exact h

/-- The other computation may wrap its result up. -/
theorem map_right {x : Gen α} {r : Res β} {Q : β → α → Prop} {g : β → δ} {Q' : δ → α → Prop} (hx : Simulates x r Q)
    (hg : ∀ b a, Returns x a → Q b a → Q' (g b) a) : Simulates x (r >>= fun b => .ok (g b)) Q' := by
  cases r with
  | ok b =>
    obtain ⟨a, hxa, hab⟩ := hx
    exact ⟨a, hxa, hg b a hxa hab⟩
  | err e => exact hx
  | panic reason => exact hx

theorem eq {x : Gen α} {r : Res α} (h : Simulates x r (fun b a => a = b)) : x = Gen.ofRes r := by
  cases r with
  | ok b =>
    obtain ⟨a, rfl, rfl⟩ := h
    rfl
  | err e => exact h
  | panic reason => exact h

end Simulates

/-! ## Variables -/

theorem use_of_lookup {env : Scope Place (Var p others)} {place : Place} {t : VarTy ι} {v : t.Val p others}
    (h : env.lookup place = some ⟨t, v⟩) : use env place t = pure v := by
  unfold use
  rw [h]
  exact dif_pos rfl

theorem use_congr {env env' : Scope Place (Var p others)} {place : Place} {t : VarTy ι}
    (h : env'.lookup place = env.lookup place) : use env' place t = use env place t := by
  unfold use
  rw [h]

@[simp] theorem use_bindVar_self (x : String) (t : VarTy ι) (v : t.Val p others) (env : Scope Place (Var p others)) :
    use (bindVar x t v ++ env) (.var x) t = pure v :=
  use_of_lookup List.lookup_cons_self

theorem use_bindVar_of_ne {x : String} {place : Place} (h : place ≠ .var x) {t t' : VarTy ι} (v : t.Val p others)
    (env : Scope Place (Var p others)) : use (bindVar x t v ++ env) place t' = use env place t' := by
  apply use_congr
  exact Scope.lookup_append_of_notMem (fun e he => List.mem_singleton.mp he ▸ h.symm) env

theorem use_bindVar_ne {x y : String} (h : y ≠ x) {t t' : VarTy ι} (v : t.Val p others)
    (env : Scope Place (Var p others)) : use (bindVar x t v ++ env) (.var y) t' = use env (.var y) t' :=
  use_bindVar_of_ne (fun heq => h (Place.var.inj heq)) v env

/-- A statement puts in scope what it binds. -/
theorem step_places {s : Stmt ι} {env new : Scope Place (Var p others)} (h : Returns (step s env) new) :
    ∀ e ∈ new, e.1 ∈ [Place.var s.binds] := by
  obtain ⟨v, -, hnew⟩ := returns_bind.mp h
  rw [returns_pure.mp hnew]
  rintro e he
  rw [List.mem_singleton.mp he]
  exact List.mem_singleton_self _

/-- **Code leaves alone what it does not bind.** -/
theorem use_of_run {ss : List (Stmt ι)} {env env' : Scope Place (Var p others)}
    (h : Returns (Scope.run step ss env) env') {place : Place} (hplace : ∀ s ∈ ss, place ≠ .var s.binds)
    (t : VarTy ι) : use env' place t = use env place t := by
  apply use_congr
  apply Scope.lookup_of_run step_places h
  intro hmem
  obtain ⟨s, hs, hplaces⟩ := List.mem_flatMap.mp hmem
  exact hplace s hs (List.mem_singleton.mp hplaces)

/-! ## Decoding -/

theorem usizeAdd_lt {a b c : Nat} (h : p.usizeAdd a b = .ok c) : c < p.usizeSize := by
  unfold Platform.usizeAdd at h
  split at h
  · cases h
    assumption
  · split at h
    · cases h
    · cases h
      exact Nat.mod_lt _ (Nat.two_pow_pos _)

theorem tryIntoUsize_lt {e : DecodeError} {b : Bytes} {n : Nat} (h : tryIntoUsize e p b = .ok n) :
    n < p.usizeSize := by
  obtain ⟨value, -, hvalue⟩ := Res.bind_eq_ok.mp h
  split at hvalue
  · cases hvalue
    assumption
  · cases hvalue

omit [DecidableEq ι] in
theorem usizeToNat_ofUsize {n : Nat} (h : n < p.usizeSize) :
    usizeToNat (ofUsize n : (VarTy.ty (.usize : FieldTy ι)).Val p others) = n := by
  unfold usizeToNat ofUsize
  rw [BitVec.toNat_ofNat]
  exact Nat.mod_eq_of_lt h

/-- The names that the code for all fields shares. -/
structure Idents (dataIdent offsetIdent : String) : Prop where
  data : NotGenerated dataIdent
  offset : NotGenerated offsetIdent
  data_ne : dataIdent ≠ offsetIdent
  ctx_ne : "ctx" ≠ offsetIdent

theorem structIdents : Idents "data" "offset" :=
  ⟨notGenerated_data, notGenerated_offset, by decide, by decide⟩

theorem armIdents : Idents "payload_data" "payload_offset" :=
  ⟨notGenerated_payload_data, notGenerated_payload_offset, by decide, by decide⟩

/-- The variables that the code for all fields shares: the bytes to decode and how far it has come. -/
structure Ready (dataIdent offsetIdent : String) (bytes : Bytes) (n : Nat) (env : Scope Place (Var p others)) : Prop where
  data : use env (.var dataIdent) .sliceU8 = pure bytes
  offset : use env (.var offsetIdent) (.ty .usize) = pure (ofUsize n)
  lt : n < p.usizeSize
  ctx : use env (.var "ctx") .context = pure ()

variable {dataIdent offsetIdent : String} {bytes : Bytes} {n : Nat} {env : Scope Place (Var p others)}

theorem Ready.bindVar (h : Ready dataIdent offsetIdent bytes n env) {x : String}
    (hdata : dataIdent ≠ x) (hoffset : offsetIdent ≠ x) (hctx : "ctx" ≠ x) (t : VarTy ι) (v : t.Val p others) :
    Ready dataIdent offsetIdent bytes n (bindVar x t v ++ env) where
  data := by rw [use_bindVar_ne hdata, h.data]
  offset := by rw [use_bindVar_ne hoffset, h.offset]
  lt := h.lt
  ctx := by rw [use_bindVar_ne hctx, h.ctx]

theorem Ready.advance (h : Ready dataIdent offsetIdent bytes n env) (hidents : Idents dataIdent offsetIdent) {n' : Nat}
    (hlt : n' < p.usizeSize) :
    Ready dataIdent offsetIdent bytes n' (Derive.bindVar offsetIdent (.ty .usize) (ofUsize n') ++ env) where
  data := by rw [use_bindVar_ne hidents.data_ne, h.data]
  offset := use_bindVar_self _ _ _ _
  lt := hlt
  ctx := by rw [use_bindVar_ne hidents.ctx_ne, h.ctx]

theorem run_cons (s : Stmt ι) (ss : List (Stmt ι)) :
    Scope.run step (s :: ss) env = (eval s env >>= fun v => Scope.run step ss ((.var s.binds, v) :: env)) := by
  show (step s env >>= _) = _
  unfold step
  rw [bind_assoc]
  rfl

@[simp] theorem gen_pure_bind {α β : Type} (a : α) (f : α → Gen β) : ((pure a : Gen α) >>= f) = f a := rfl

@[simp] theorem gen_ok_bind {α β : Type} (a : α) (f : α → Gen β) : (Gen.ofRes (.ok a) >>= f) = f a := rfl

/-- The first half of `readBlock`: the length in the header. -/
def headerLength (p : Platform) (bytes : Bytes) (n : Nat) : Res Nat := do
  let headerEnd ← p.usizeAdd n 8
  if bytes.length < headerEnd then .err (.shortFieldLength headerEnd bytes.length) else
  let header ← slice bytes n headerEnd
  tryIntoUsize .fieldLengthExceedsUsize p header

/-- The second half: the bytes, and where they end. -/
def blockBytes (p : Platform) (bytes : Bytes) (start length : Nat) : Res (Bytes × Nat) := do
  let stop ← p.usizeAdd start length
  if bytes.length < stop then .err (.shortFieldData stop bytes.length) else
  let fieldBytes ← slice bytes start stop
  .ok (fieldBytes, stop)

theorem readBlock_field (p : Platform) (bytes : Bytes) (n : Nat) : readBlock p .field bytes n =
    (do let length ← headerLength p bytes n
        let start ← p.usizeAdd n 8
        blockBytes p bytes start length) := by
  unfold readBlock headerLength
  cases p.usizeAdd n 8 with
  | ok headerEnd =>
    simp only [Res.ok_bind]
    split
    · rfl
    · cases slice bytes n headerEnd with
      | ok header =>
        simp only [Res.ok_bind]
        rfl
      | err e => rfl
      | panic reason => rfl
  | err e => rfl
  | panic reason => rfl

theorem Ready.letLen (h : Ready dataIdent offsetIdent bytes n env) (x : String) :
    Simulates (eval (.letLen x dataIdent offsetIdent) env) (headerLength p bytes n)
      (fun length v => v = ⟨.ty .usize, ofUsize length⟩ ∧ length < p.usizeSize) := by
  unfold eval headerLength
  simp only [h.data, h.offset, gen_pure_bind, usizeToNat_ofUsize h.lt]
  refine (Simulates.ofRes _).bind ?_
  rintro headerEnd _ ⟨rfl, -⟩
  split
  · rfl
  · refine (Simulates.ofRes _).bind ?_
    rintro header _ ⟨rfl, -⟩
    apply (Simulates.ofRes _).map
    rintro length _ ⟨rfl, hlength⟩
    exact ⟨rfl, tryIntoUsize_lt hlength⟩

theorem Ready.letBytes (h : Ready dataIdent offsetIdent bytes n env) {len : String} {length : Nat}
    (hlen : use env (.var len) (.ty .usize) = pure (ofUsize length)) (hlt : length < p.usizeSize) (x : String) :
    Simulates (eval (.letBytes x dataIdent offsetIdent len) env) (blockBytes p bytes n length)
      (fun r v => v = ⟨.sliceU8, r.1⟩ ∧ p.usizeAdd n length = .ok r.2) := by
  unfold eval blockBytes
  simp only [h.data, h.offset, hlen, gen_pure_bind, usizeToNat_ofUsize h.lt, usizeToNat_ofUsize hlt]
  refine (Simulates.ofRes _).bind ?_
  rintro stop _ ⟨rfl, hstop⟩
  split
  · rfl
  · refine (Simulates.ofRes _).bind ?_
    rintro fieldBytes _ ⟨rfl, -⟩
    exact Simulates.pure ⟨rfl, hstop⟩

theorem Ready.advanceHeader (h : Ready dataIdent offsetIdent bytes n env) :
    Simulates (eval (.advanceHeader offsetIdent) env) (p.usizeAdd n 8)
      (fun start v => v = ⟨.ty .usize, ofUsize start⟩ ∧ start < p.usizeSize) := by
  unfold eval
  simp only [h.offset, gen_pure_bind, usizeToNat_ofUsize h.lt]
  apply (Simulates.ofRes _).map
  rintro start _ ⟨rfl, hstart⟩
  exact ⟨rfl, usizeAdd_lt hstart⟩

theorem Ready.advance_eq (h : Ready dataIdent offsetIdent bytes n env) {len : String} {length stop : Nat}
    (hlen : use env (.var len) (.ty .usize) = pure (ofUsize length)) (hlt : length < p.usizeSize)
    (hstop : p.usizeAdd n length = .ok stop) :
    eval (.advance offsetIdent len) env = pure ⟨.ty .usize, ofUsize stop⟩ := by
  unfold eval
  simp only [h.offset, hlen, gen_pure_bind, usizeToNat_ofUsize h.lt, usizeToNat_ofUsize hlt, hstop, gen_ok_bind]

theorem Ready.letField (h : Ready dataIdent offsetIdent bytes n env) {fieldBytes : String} {b : Bytes}
    (hbytes : use env (.var fieldBytes) .sliceU8 = pure b) (x : String) (T : FieldTy ι) :
    Simulates (eval (.letField x T fieldBytes) env) ((T.codec p others).rematerialize b)
      (fun field v => v = ⟨.ty T, field⟩) := by
  unfold eval
  simp only [h.ctx, hbytes]
  apply (Simulates.ofRes _).map
  rintro field _ ⟨rfl, -⟩
  rfl

/-- The variables that the code to decode a field has of its own. -/
structure DecodeIdents where
  len : String
  bytes : String
  value : String

/-- The code to decode a field. -/
def DecodeIdents.stmts (d : DecodeIdents) (T : FieldTy ι) (dataIdent offsetIdent : String) : List (Stmt ι) :=
  [.letLen d.len dataIdent offsetIdent,
   .advanceHeader offsetIdent,
   .letBytes d.bytes dataIdent offsetIdent d.len,
   .advance offsetIdent d.len,
   .letField d.value T d.bytes]

/-- The variable is none of those that the code for all fields shares. -/
structure Private (dataIdent offsetIdent x : String) : Prop where
  data : dataIdent ≠ x
  offset : offsetIdent ≠ x
  ctx : "ctx" ≠ x

structure DecodeIdents.Private (d : DecodeIdents) (dataIdent offsetIdent : String) : Prop where
  len : Derive.Private dataIdent offsetIdent d.len
  bytes : Derive.Private dataIdent offsetIdent d.bytes
  value : Derive.Private dataIdent offsetIdent d.value
  len_ne_bytes : d.len ≠ d.bytes

theorem Ready.bindPrivate (h : Ready dataIdent offsetIdent bytes n env) {x : String}
    (hx : Private dataIdent offsetIdent x) (t : VarTy ι) (v : t.Val p others) :
    Ready dataIdent offsetIdent bytes n (Derive.bindVar x t v ++ env) :=
  h.bindVar hx.data hx.offset hx.ctx t v

/-- **The code for a field reads its block**, decodes it, and leaves the value in the field's variable. -/
theorem run_decode_field (hidents : Idents dataIdent offsetIdent) {d : DecodeIdents}
    (hd : d.Private dataIdent offsetIdent) (h : Ready dataIdent offsetIdent bytes n env) (T : FieldTy ι) :
    Simulates (Scope.run step (d.stmts T dataIdent offsetIdent) env)
      (do let (fieldBytes, next) ← readBlock p .field bytes n
          let field ← (T.codec p others).rematerialize fieldBytes
          .ok (field, next))
      (fun r env' => Ready dataIdent offsetIdent bytes r.2 env' ∧ use env' (.var d.value) (.ty T) = pure r.1) := by
  have hassoc : (do
      let (fieldBytes, next) ← readBlock p .field bytes n
      let field ← (T.codec p others).rematerialize fieldBytes
      .ok (field, next)) = (do
      let length ← headerLength p bytes n
      let start ← p.usizeAdd n 8
      let (fieldBytes, next) ← blockBytes p bytes start length
      let field ← (T.codec p others).rematerialize fieldBytes
      Res.ok (field, next)) := by
    rw [readBlock_field]
    simp only [Res.bind_assoc]
  rw [hassoc]
  simp only [DecodeIdents.stmts, run_cons]
  -- `let field_len: usize = ..`
  refine (h.letLen _).bind ?_
  rintro length _ ⟨rfl, hlength⟩
  replace h := h.bindPrivate hd.len (.ty .usize) (ofUsize length)
  -- `offset += 8`
  refine h.advanceHeader.bind ?_
  rintro start _ ⟨rfl, hstart⟩
  replace h := h.advance hidents hstart
  -- `let field_bytes = &data[..]`
  have hlength' : use (bindVar offsetIdent (.ty .usize) (ofUsize start) ++
      (bindVar d.len (.ty .usize) (ofUsize length) ++ env)) (.var d.len) (.ty .usize) = pure (ofUsize length) := by
    rw [use_bindVar_ne hd.len.offset.symm, use_bindVar_self]
  refine (h.letBytes hlength' hlength _).bind ?_
  rintro ⟨fieldBytes, stop⟩ _ ⟨rfl, hstop⟩
  replace h := h.bindPrivate hd.bytes .sliceU8 fieldBytes
  -- `offset += field_len`
  refine Simulates.pure_bind (h.advance_eq ?_ hlength hstop) ?_
  · exact (use_bindVar_ne hd.len_ne_bytes _ _).trans hlength'
  replace h := h.advance hidents (usizeAdd_lt hstop)
  -- `let field = <..>::rematerialize(ctx, field_bytes)`
  have hfieldBytes : use (bindVar offsetIdent (.ty .usize) (ofUsize stop) ++
      (bindVar d.bytes .sliceU8 fieldBytes ++
        (bindVar offsetIdent (.ty .usize) (ofUsize start) ++
          (bindVar d.len (.ty .usize) (ofUsize length) ++ env)))) (.var d.bytes) .sliceU8 = pure fieldBytes := by
    rw [use_bindVar_ne hd.bytes.offset.symm]
    exact use_bindVar_self _ _ _ _
  refine (h.letField hfieldBytes _ _).bind ?_
  rintro field _ rfl
  apply Simulates.pure
  constructor
  · exact h.bindPrivate hd.value (.ty T) field
  · exact use_bindVar_self d.value (.ty T) field _

/-! ## All fields -/

variable (p others) in
/-- The fields by position. -/
def fieldsCodec : (fields : List (NamedField ι)) → FieldsCodec (Vals p others fields)
  | [] => .nil
  | field :: fields => .cons p .field (field.ty.codec p others) (fieldsCodec fields)

/-- The code to decode the fields from the `i`-th on, with variables that depend on a field and its position. -/
def decodeFields (idents : Nat → NamedField ι → DecodeIdents) (dataIdent offsetIdent : String) :
    Nat → List (NamedField ι) → List (Stmt ι)
  | _, [] => []
  | i, f :: fields =>
    (idents i f).stmts f.ty dataIdent offsetIdent ++ decodeFields idents dataIdent offsetIdent (i + 1) fields

/-- The value made from the fields' variables. -/
def constructFields (idents : Nat → NamedField ι → DecodeIdents) :
    Nat → (fields : List (NamedField ι)) → Scope Place (Var p others) → Gen (Vals p others fields)
  | _, [], _ => pure ()
  | i, field :: fields, env => do
    let value ← use env (.var (idents i field).value) (.ty field.ty)
    let values ← constructFields idents (i + 1) fields env
    pure (value, values)

/-- No variable that holds a value is bound by the code for the fields after it. -/
def ValuesStay (idents : Nat → NamedField ι → DecodeIdents) (dataIdent offsetIdent : String) :
    Nat → List (NamedField ι) → Prop
  | _, [] => True
  | i, f :: fields =>
    (∀ s ∈ decodeFields idents dataIdent offsetIdent (i + 1) fields, (idents i f).value ≠ s.binds) ∧
      ValuesStay idents dataIdent offsetIdent (i + 1) fields

section

variable {idents : Nat → NamedField ι → DecodeIdents} {fields : List (NamedField ι)} {i : Nat}

/-- **The code for the fields does what the fields by position do**, if no variable that holds a value is bound
    again. -/
theorem run_decodeFields (hidents : Idents dataIdent offsetIdent)
    (hprivate : ∀ i f, (idents i f).Private dataIdent offsetIdent)
    (hstay : ValuesStay idents dataIdent offsetIdent i fields) (h : Ready dataIdent offsetIdent bytes n env) :
    Simulates (Scope.run step (decodeFields idents dataIdent offsetIdent i fields) env)
      ((fieldsCodec p others fields).deserialize bytes n)
      (fun r env' => Ready dataIdent offsetIdent bytes r.2 env' ∧ constructFields idents i fields env' = pure r.1) := by
  induction fields generalizing i n env with
  | nil => exact Simulates.pure ⟨h, rfl⟩
  | cons f fields ih =>
    obtain ⟨hkept, hstay⟩ := hstay
    have hassoc : (fieldsCodec p others (f :: fields)).deserialize bytes n =
        ((do let (fieldBytes, next) ← readBlock p .field bytes n
             let field ← (f.ty.codec p others).rematerialize fieldBytes
             .ok (field, next)) >>= fun r => do
          let (fields, stop) ← (fieldsCodec p others fields).deserialize bytes r.2
          .ok ((r.1, fields), stop)) := by
      simp only [Res.bind_assoc, Res.ok_bind]
      rfl
    rw [hassoc]
    unfold decodeFields
    rw [Scope.run_append]
    refine (run_decode_field hidents (hprivate i f) h f.ty).bind ?_
    rintro ⟨field, next⟩ env₁ ⟨hready, hfield⟩
    apply (ih hstay hready).map_right
    rintro ⟨values, stop⟩ env₂ hrun ⟨hready₂, hvalues⟩
    refine ⟨hready₂, ?_⟩
    -- the variable of this field is not bound again
    have hvalue := use_of_run hrun (fun s hs heq => hkept s hs (Place.var.inj heq)) (.ty f.ty)
    simp only [constructFields, hvalue, hfield, hvalues]
    rfl

omit [DecidableEq ι] in
/-- What the code to decode the fields binds. -/
theorem binds_decodeFields {s : Stmt ι} (hs : s ∈ decodeFields idents dataIdent offsetIdent i fields) :
    s.binds = offsetIdent ∨ ∃ j, i ≤ j ∧ ∃ f ∈ fields,
      s.binds = (idents j f).len ∨ s.binds = (idents j f).bytes ∨ s.binds = (idents j f).value := by
  induction fields generalizing i with
  | nil => cases hs
  | cons f fields ih =>
    rcases List.mem_append.mp hs with hs | hs
    · simp only [DecodeIdents.stmts, List.mem_cons, List.not_mem_nil, or_false] at hs
      rcases hs with rfl | rfl | rfl | rfl | rfl
      · exact .inr ⟨i, Nat.le_refl i, f, List.mem_cons_self, .inl rfl⟩
      · exact .inl rfl
      · exact .inr ⟨i, Nat.le_refl i, f, List.mem_cons_self, .inr (.inl rfl)⟩
      · exact .inl rfl
      · exact .inr ⟨i, Nat.le_refl i, f, List.mem_cons_self, .inr (.inr rfl)⟩
    · refine (ih hs).imp_right ?_
      rintro ⟨j, hj, g, hg, hbinds⟩
      exact ⟨j, Nat.le_of_succ_le hj, g, List.mem_cons_of_mem f hg, hbinds⟩

/-- **Code that ends with the check of a struct decodes it as its fields by position are decoded.** -/
theorem run_decodeStruct (hprivate : ∀ i f, (idents i f).Private "data" "offset")
    (hstay : ValuesStay idents "data" "offset" i fields) (h : Ready "data" "offset" bytes 0 env) :
    (do let env ← Scope.run step (decodeFields idents "data" "offset" i fields) env
        let data ← use env (.var "data") .sliceU8
        let offset ← use env (.var "offset") (.ty .usize)
        if List.length data ≠ usizeToNat offset then
          Gen.ofRes (.err (.notConsumed (List.length data) (usizeToNat offset)))
        else constructFields idents i fields env) =
      Gen.ofRes ((deriveStructNamed (fieldsCodec p others fields)).rematerialize bytes) := by
  apply Simulates.eq
  refine (run_decodeFields structIdents hprivate hstay h).bind ?_
  rintro ⟨values, stop⟩ env ⟨hready, hvalues⟩
  simp only [hready.data, hready.offset]
  show Simulates (if bytes.length ≠ usizeToNat (ofUsize stop) then _ else _) (if bytes.length ≠ stop then _ else _) _
  rw [usizeToNat_ofUsize hready.lt]
  split
  · rfl
  · rw [hvalues]
    exact Simulates.pure rfl

/-- **Code that ends with the check of a variant decodes it as its fields by position are decoded.** -/
theorem run_decodeArm (hprivate : ∀ i f, (idents i f).Private "payload_data" "payload_offset")
    (hstay : ValuesStay idents "payload_data" "payload_offset" i fields)
    (h : Ready "payload_data" "payload_offset" bytes 0 env) :
    (do let env ← Scope.run step (decodeFields idents "payload_data" "payload_offset" i fields) env
        let payloadOffset ← use env (.var "payload_offset") (.ty .usize)
        let payload ← use env (.var "payload_data") .sliceU8
        if usizeToNat payloadOffset ≠ List.length payload then
          Gen.ofRes (.err (.payloadNotConsumed (List.length payload) (usizeToNat payloadOffset)))
        else constructFields idents i fields env) =
      Gen.ofRes ((fieldsArm (fieldsCodec p others fields)).deserialize bytes) := by
  apply Simulates.eq
  refine (run_decodeFields armIdents hprivate hstay h).bind ?_
  rintro ⟨values, stop⟩ env ⟨hready, hvalues⟩
  simp only [hready.data, hready.offset]
  show Simulates (if usizeToNat (ofUsize stop) ≠ bytes.length then _ else _)
    (if stop ≠ bytes.length then _ else _) _
  rw [usizeToNat_ofUsize hready.lt]
  split
  · rfl
  · rw [hvalues]
    exact Simulates.pure rfl

end

/-! ## Encoding -/

/-- The variables that the code for all fields shares: the buffer. -/
structure ReadyToEncode (buffer : Bytes) (env : Scope Place (Var p others)) : Prop where
  buffer : use env (.var "buffer") (.ty .vecU8) = pure buffer
  ctx : use env (.var "ctx") .context = pure ()

theorem ReadyToEncode.set {buffer : Bytes} (h : ReadyToEncode buffer env) (buffer' : Bytes) :
    ReadyToEncode buffer' (bindVar "buffer" (.ty .vecU8) buffer' ++ env) where
  buffer := use_bindVar_self _ _ _ _
  ctx := (use_bindVar_ne (by decide) _ _).trans h.ctx

theorem ReadyToEncode.extendLen_eq {buffer b : Bytes} (h : ReadyToEncode buffer env) {x : String}
    (hx : use env (.var x) (.ty .vecU8) = pure b) :
    eval (.extendLen x) env = pure ⟨.ty .vecU8, List.append buffer (toLeBytes 8 b.length)⟩ := by
  unfold eval
  simp only [hx, h.buffer]
  rfl

theorem ReadyToEncode.extendBytes_eq {buffer b : Bytes} (h : ReadyToEncode buffer env) {x : String}
    (hx : use env (.var x) (.ty .vecU8) = pure b) :
    eval (.extendBytes x) env = pure ⟨.ty .vecU8, List.append buffer b⟩ := by
  unfold eval
  simp only [hx, h.buffer]
  rfl

/-- The variable that the code to encode a field has of its own, and where it takes the field from. -/
structure EncodeIdents where
  bytes : String
  access : Place

/-- The code to encode a field. -/
def EncodeIdents.stmts (d : EncodeIdents) (T : FieldTy ι) : List (Stmt ι) :=
  [.letFieldBytes d.bytes T d.access, .extendLen d.bytes, .extendBytes d.bytes]

structure EncodeIdents.Private (d : EncodeIdents) : Prop where
  buffer : "buffer" ≠ d.bytes
  ctx : "ctx" ≠ d.bytes

/-- **The code for a field encodes the field's own value.** -/
theorem run_encode_field {buffer : Bytes} (h : ReadyToEncode buffer env) {d : EncodeIdents} (hd : d.Private)
    (T : FieldTy ι) {value : T.Val p others} (hvalue : use env d.access (.ty T) = pure value) :
    Simulates (Scope.run step (d.stmts T) env)
      (do let fieldBytes ← (T.codec p others).immaterialize value
          .ok (buffer ++ toLeBytes 8 fieldBytes.length ++ fieldBytes))
      (fun buffer env' => ReadyToEncode buffer env') := by
  simp only [EncodeIdents.stmts, run_cons]
  -- `let field_bytes = <..>::immaterialize(.., ctx)`
  have hbytes : Simulates (eval (.letFieldBytes d.bytes T d.access) env)
      ((T.codec p others).immaterialize value) (fun fieldBytes v => v = ⟨.ty .vecU8, fieldBytes⟩) := by
    unfold eval
    simp only [hvalue, h.ctx]
    apply (Simulates.ofRes _).map
    rintro fieldBytes _ ⟨rfl, -⟩
    rfl
  refine hbytes.bind ?_
  rintro fieldBytes _ rfl
  have h1 : ReadyToEncode buffer (bindVar d.bytes (.ty .vecU8) fieldBytes ++ env) :=
    ⟨(use_bindVar_ne hd.buffer _ _).trans h.buffer, (use_bindVar_ne hd.ctx _ _).trans h.ctx⟩
  have hb1 : use (bindVar d.bytes (.ty .vecU8) fieldBytes ++ env) (.var d.bytes) (.ty .vecU8) = pure fieldBytes :=
    use_bindVar_self _ _ _ _
  -- `buffer.extend_from_slice(&(field_bytes.len() as u64).to_le_bytes())`
  refine Simulates.pure_bind (h1.extendLen_eq hb1) ?_
  have h2 := h1.set (List.append buffer (toLeBytes 8 fieldBytes.length))
  -- `buffer.extend_from_slice(&field_bytes)`
  refine Simulates.pure_bind (h2.extendBytes_eq (b := fieldBytes) ?_) ?_
  · exact (use_bindVar_ne hd.buffer.symm _ _).trans hb1
  · exact Simulates.pure (h2.set _)

/-! ## Encoding all fields -/

/-- The code to encode the fields from the `i`-th on. -/
def encodeFields (idents : Nat → NamedField ι → EncodeIdents) : Nat → List (NamedField ι) → List (Stmt ι)
  | _, [] => []
  | i, f :: fields => (idents i f).stmts f.ty ++ encodeFields idents (i + 1) fields

/-- Where the code takes the fields from. -/
def accesses (idents : Nat → NamedField ι → EncodeIdents) : Nat → List (NamedField ι) → List Place
  | _, [] => []
  | i, f :: fields => (idents i f).access :: accesses idents (i + 1) fields

/-- The fields are where the code takes them from. -/
def Holds (idents : Nat → NamedField ι → EncodeIdents) :
    Nat → (fields : List (NamedField ι)) → Vals p others fields → Scope Place (Var p others) → Prop
  | _, [], _, _ => True
  | i, f :: fields, values, env =>
    use env (idents i f).access (.ty f.ty) = pure values.1 ∧ Holds idents (i + 1) fields values.2 env

/-- No variable that still holds a field to encode is bound by the code for the fields before it. -/
def FieldsStay (idents : Nat → NamedField ι → EncodeIdents) : Nat → List (NamedField ι) → Prop
  | _, [] => True
  | i, f :: fields =>
    (∀ place ∈ accesses idents (i + 1) fields, place ≠ .var (idents i f).bytes ∧ place ≠ .var "buffer") ∧
      FieldsStay idents (i + 1) fields

/-- The fields of a value, each where the code takes it from. -/
def bindAccesses (idents : Nat → NamedField ι → EncodeIdents) :
    Nat → (fields : List (NamedField ι)) → Vals p others fields → Scope Place (Var p others)
  | _, [], _ => []
  | i, f :: fields, values => ((idents i f).access, ⟨.ty f.ty, values.1⟩) :: bindAccesses idents (i + 1) fields values.2

section

variable {idents : Nat → NamedField ι → EncodeIdents} {fields : List (NamedField ι)} {i : Nat}
  {values : Vals p others fields}

omit [DecidableEq ι] in
theorem mem_accesses {place : Place} (h : place ∈ accesses idents i fields) :
    ∃ j, i ≤ j ∧ ∃ f ∈ fields, place = (idents j f).access := by
  induction fields generalizing i with
  | nil => cases h
  | cons f fields ih =>
    rcases List.mem_cons.mp h with rfl | h
    · exact ⟨i, Nat.le_refl i, f, List.mem_cons_self, rfl⟩
    · obtain ⟨j, hj, g, hg, heq⟩ := ih h
      exact ⟨j, Nat.le_of_succ_le hj, g, List.mem_cons_of_mem f hg, heq⟩

theorem Holds.congr {env env' : Scope Place (Var p others)} (h : Holds idents i fields values env)
    (hkept : ∀ place ∈ accesses idents i fields, ∀ t, use env' place t = use env place t) :
    Holds idents i fields values env' := by
  induction fields generalizing i with
  | nil => trivial
  | cons f fields ih =>
    unfold accesses at hkept
    rw [List.forall_mem_cons] at hkept
    exact ⟨(hkept.1 _).trans h.1, ih h.2 hkept.2⟩

/-- **The code for the fields does what the fields by position do**, if no variable that holds a field is bound
    again before it is encoded. -/
theorem run_encodeFields (hprivate : ∀ i f, (idents i f).Private) (hstay : FieldsStay idents i fields)
    {buffer : Bytes} (h : ReadyToEncode buffer env) (hholds : Holds idents i fields values env) :
    Simulates (Scope.run step (encodeFields idents i fields) env)
      ((fieldsCodec p others fields).serialize values buffer)
      (fun buffer env' => ReadyToEncode buffer env') := by
  induction fields generalizing i buffer env with
  | nil => exact Simulates.pure h
  | cons f fields ih =>
    obtain ⟨hlater, hstay⟩ := hstay
    have hassoc : (fieldsCodec p others (f :: fields)).serialize values buffer =
        ((do let fieldBytes ← (f.ty.codec p others).immaterialize values.1
             .ok (buffer ++ toLeBytes 8 fieldBytes.length ++ fieldBytes)) >>= fun buffer =>
          (fieldsCodec p others fields).serialize values.2 buffer) := by
      simp only [Res.bind_assoc, Res.ok_bind]
      rfl
    rw [hassoc]
    unfold encodeFields
    rw [Scope.run_append]
    refine (run_encode_field h (hprivate i f) f.ty hholds.1).bind_returns ?_
    intro buffer₁ env₁ hrun hready
    -- the fields that come later are where they were
    have hlaterHolds : Holds idents (i + 1) fields values.2 env₁ := by
      refine hholds.2.congr fun place hplace t => use_of_run hrun ?_ t
      intro s hs
      simp only [EncodeIdents.stmts, List.mem_cons, List.not_mem_nil, or_false] at hs
      rcases hs with rfl | rfl | rfl
      · exact (hlater place hplace).1
      · exact (hlater place hplace).2
      · exact (hlater place hplace).2
    exact ih hstay hready hlaterHolds

/-- What is not bound by the fields is what it was. -/
theorem use_bindAccesses_ne {place : Place} (h : place ∉ accesses idents i fields) (t : VarTy ι)
    (env : Scope Place (Var p others)) : use (bindAccesses idents i fields values ++ env) place t = use env place t := by
  apply use_congr
  apply Scope.lookup_append_of_notMem
  induction fields generalizing i with
  | nil => nofun
  | cons f fields ih =>
    unfold accesses at h
    rw [List.mem_cons, not_or] at h
    exact List.forall_mem_cons.mpr ⟨fun heq => h.1 heq.symm, ih h.2⟩

/-- Where the fields are bound, they can be used. -/
theorem holds_bindAccesses (hdistinct : (accesses idents i fields).Nodup) (env : Scope Place (Var p others)) :
    Holds idents i fields values (bindAccesses idents i fields values ++ env) := by
  induction fields generalizing i with
  | nil => trivial
  | cons f fields ih =>
    obtain ⟨hf, hdistinct⟩ := List.nodup_cons.mp hdistinct
    refine ⟨use_of_lookup List.lookup_cons_self, (ih hdistinct).congr fun place hplace t => use_congr ?_⟩
    have hne : ∀ e ∈ ([((idents i f).access, ⟨.ty f.ty, values.1⟩)] : Scope Place (Var p others)), e.1 ≠ place := by
      intro e he heq
      rw [List.mem_singleton.mp he] at heq
      obtain rfl : (idents i f).access = place := heq
      exact hf hplace
    exact Scope.lookup_append_of_notMem hne _

/-- **Code that ends with the buffer encodes as the fields by position do.** -/
theorem run_encode (hprivate : ∀ i f, (idents i f).Private) (hstay : FieldsStay idents i fields)
    (h : ReadyToEncode [] env) (hholds : Holds idents i fields values env) :
    (do let env ← Scope.run step (encodeFields idents i fields) env
        use env (.var "buffer") (.ty .vecU8)) = Gen.ofRes ((fieldsCodec p others fields).serialize values []) := by
  apply Simulates.eq
  rw [← Res.bind_ok ((fieldsCodec p others fields).serialize values [])]
  refine (run_encodeFields hprivate hstay h hholds).bind ?_
  intro buffer env hready
  rw [hready.buffer]
  exact Simulates.pure rfl

end

end Run

end Derive
end Wormhole
