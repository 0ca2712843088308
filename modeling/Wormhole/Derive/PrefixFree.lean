import Wormhole.Codec.Canonical
import Wormhole.Derive.Named

/-!
# `Derive.PrefixFree` — no accepted string continues another one

What a tuple, a derived struct or a derived enum accepts is a fixed number of blocks, one for each field, or the
name and the payload of a variant. This is so whatever the decoders of the fields are, also if they do not give
the same answer twice: two implementations of one shape are compared here. It is so for any names of the fields
too, also where the code that is generated for them mixes their values up.
-/

namespace Wormhole
namespace Derive

open LittleEndian Codec

/-! ## Shapes -/

/-- What prefix-freeness depends on: the number of fields, or the variants with their numbers of fields (`none`
    for a unit variant). -/
inductive Shape where
  | tuple (arity : Nat)
  | struct (arity : Nat)
  | structUnit
  | enum (variants : List (String × Option Nat))

/-- A list of so many fields, with any implementations of their types. -/
inductive FieldList (p : Platform) (style : BlockStyle) : Nat → (α : Type) → FieldsCodec α → Prop where
  | nil : FieldList p style 0 Unit .nil
  | cons {arity : Nat} {α β : Type} {G : FieldsCodec β} (T : ContextTransmaterializable α)
      (rest : FieldList p style arity β G) : FieldList p style (arity + 1) (α × β) (.cons p style T G)

/-- The arms of a variant. -/
inductive VariantArm (p : Platform) : Option Nat → (α : Type) → ArmCodec α → Prop where
  | unit : VariantArm p none Unit unitArm
  | fields {arity : Nat} {α : Type} {F : FieldsCodec α} (h : FieldList p .field arity α F) :
      VariantArm p (some arity) α (fieldsArm F)
  /-- What the generated code makes of fields of any names. -/
  | generated {ι : Type} [DecidableEq ι] {others : Others ι} {fields : List (NamedField ι)}
      {A : ArmCodec (Vals p others fields)} (h : ∀ data offset payload,
        armRematerialize p others fields data offset payload = Gen.ofRes (A.deserialize payload)) :
      VariantArm p (some fields.length) (Vals p others fields) A

inductive VariantList (p : Platform) : List (String × Option Nat) → (α : Type) → VariantsCodec α → Prop where
  | nil : VariantList p [] Empty .nil
  | cons {name : String} {arity : Option Nat} {variants : List (String × Option Nat)} {α β : Type} {A : ArmCodec α}
      {V : VariantsCodec β} (arm : VariantArm p arity α A) (rest : VariantList p variants β V) :
      VariantList p ((name, arity) :: variants) (α ⊕ β) (.cons name A V)

/-- The implementations of a shape. -/
inductive Shaped (p : Platform) : Shape → (α : Type) → ContextTransmaterializable α → Prop where
  | tuple {arity : Nat} {α : Type} {F : FieldsCodec α} (h : FieldList p .util arity α F) :
      Shaped p (.tuple arity) α (Codec.tuple F)
  | structNamed {arity : Nat} {α : Type} {F : FieldsCodec α} (h : FieldList p .field arity α F) :
      Shaped p (.struct arity) α (deriveStructNamed F)
  | structTuple {arity : Nat} {α : Type} {F : FieldsCodec α} (h : FieldList p .field arity α F) :
      Shaped p (.struct arity) α (deriveStructTuple F)
  /-- What the generated code makes of fields of any names. -/
  | structGenerated {ι : Type} [DecidableEq ι] {others : Others ι} {fields : List (NamedField ι)}
      {T : ContextTransmaterializable (Vals p others fields)} (h : ∀ data,
        structRematerialize p others fields data = Gen.ofRes (T.rematerialize data)) :
      Shaped p (.struct fields.length) (Vals p others fields) T
  | structUnit : Shaped p .structUnit Unit deriveStructUnit
  | enum {variants : List (String × Option Nat)} {α : Type} {V : VariantsCodec α} (h : VariantList p variants α V) :
      Shaped p (.enum variants) α (deriveEnum p V)
  | enumEmpty (enumName : String) : Shaped p (.enum []) Empty (deriveEnumEmpty enumName)

/-- How many blocks a value of the shape is. -/
def Shape.blocks : Shape → Nat
  | .tuple arity | .struct arity => arity
  | .structUnit => 0
  | .enum _ => 2

/-! ## What is accepted is blocks -/

section Accepted

variable {p : Platform} {style : BlockStyle} {α : Type} {data : Bytes}

/-- **The offset walk takes one block for each field.** -/
theorem FieldList.blocks {arity : Nat} {F : FieldsCodec α} (h : FieldList p style arity α F)
    (hle : data.length ≤ p.isizeMax) {offset stop : Nat} (hoff : offset ≤ data.length) {v : α}
    (hok : F.deserialize data offset = .ok (v, stop)) :
    stop ≤ data.length ∧ ∃ bs : List Bytes, bs.length = arity ∧ data.drop offset = Codec.blocks bs ++ data.drop stop := by
  induction h generalizing offset stop with
  | nil =>
    obtain rfl : offset = stop := (Prod.mk.inj (Res.ok.inj hok)).2
    exact ⟨hoff, [], rfl, rfl⟩
  | cons T rest ih =>
    obtain ⟨b, hblock, -, hrest⟩ := (cons_deserialize_eq_ok (p.lt_usizeSize hle) hoff).mp hok
    obtain ⟨hstop, bs, hlen, hdrop⟩ := ih hblock.2 hrest
    refine ⟨hstop, b :: bs, congrArg (· + 1) hlen, ?_⟩
    rw [hblock.1, hdrop, blocks_cons, List.append_assoc]

theorem FieldList.all_blocks {arity : Nat} {F : FieldsCodec α} (h : FieldList p style arity α F)
    (hle : data.length ≤ p.isizeMax) {v : α} (hok : F.deserialize data 0 = .ok (v, data.length)) :
    ∃ bs : List Bytes, bs.length = arity ∧ data = Codec.blocks bs := by
  obtain ⟨-, bs, hlen, hdrop⟩ := h.blocks hle (Nat.zero_le _) hok
  rw [List.drop_zero, List.drop_length, List.append_nil] at hdrop
  exact ⟨bs, hlen, hdrop⟩

/-- What ends as well as another computation has that one's result. -/
theorem Simulates.of_returns {β γ : Type} {x : Gen γ} {r : Res β} {Q : β → γ → Prop} (h : Simulates x r Q) {a : γ}
    (hx : Returns x a) : ∃ b, r = .ok b ∧ Q b a := by
  obtain rfl : x = some (.ok a) := hx
  cases r with
  | ok b =>
    obtain ⟨a', ha', hab⟩ := h
    cases ha'
    exact ⟨b, rfl, hab⟩
  | err e => cases h
  | panic reason => cases h

section Generated

variable {ι : Type} [DecidableEq ι] {others : Others ι} {dataIdent offsetIdent : String} {fields : List (NamedField ι)}

/-- **The generated code takes one block for each field, whatever the fields are called.** -/
theorem blocks_of_run (hidents : Idents dataIdent offsetIdent) (hle : data.length ≤ p.isizeMax) {self : Bool}
    {offset : Nat} (hoff : offset ≤ data.length) {env env' : Scope Place (Var p others)}
    (h : Ready dataIdent offsetIdent data offset env)
    (hrun : Returns (Scope.run step (deserialize fields self dataIdent offsetIdent) env) env') :
    ∃ stop, stop ≤ data.length ∧ Ready dataIdent offsetIdent data stop env' ∧
      ∃ bs : List Bytes, bs.length = fields.length ∧ data.drop offset = Codec.blocks bs ++ data.drop stop := by
  induction fields generalizing offset env with
  | nil =>
    obtain rfl := returns_pure.mp hrun
    exact ⟨offset, hoff, h, [], rfl, rfl⟩
  | cons f fields ih =>
    obtain ⟨mid, hfield, hfields⟩ := Scope.returns_run_append.mp hrun
    obtain ⟨⟨value, next⟩, hok, hready, -⟩ := 
      (run_decode_field hidents (f.private_decodeIdents hidents) h f.ty).of_returns hfield
    obtain ⟨⟨b, stop⟩, hread, hok⟩ := Res.bind_eq_ok.mp hok
    obtain ⟨v, -, hnext⟩ := Res.wrap_eq_ok.mp hok
    obtain ⟨rfl, rfl⟩ := Prod.mk.inj hnext
    obtain ⟨hblock, rfl⟩ := (readBlock_eq_ok (p.lt_usizeSize hle) hoff).mp hread
    obtain ⟨stop, hstop, hready, bs, hlen, hdrop⟩ := ih hblock.2 hready hfields
    refine ⟨stop, hstop, hready, b :: bs, congrArg (· + 1) hlen, ?_⟩
    rw [hblock.1, hdrop, blocks_cons, List.append_assoc]

/-- The check at the end of the code. -/
theorem all_blocks_of_run (hidents : Idents dataIdent offsetIdent) (hle : data.length ≤ p.isizeMax) {self : Bool}
    {env env' : Scope Place (Var p others)} (h : Ready dataIdent offsetIdent data 0 env)
    (hrun : Returns (Scope.run step (deserialize fields self dataIdent offsetIdent) env) env')
    (hall : ∀ offset, Ready dataIdent offsetIdent data offset env' → offset = data.length) :
    ∃ bs : List Bytes, bs.length = fields.length ∧ data = Codec.blocks bs := by
  obtain ⟨stop, -, hready, bs, hlen, hdrop⟩ := blocks_of_run hidents hle (Nat.zero_le _) h hrun
  rw [hall stop hready, List.drop_zero, List.drop_length, List.append_nil] at hdrop
  exact ⟨bs, hlen, hdrop⟩

theorem structRematerialize_blocks (hle : data.length ≤ p.isizeMax) {values : Vals p others fields}
    (hok : Returns (structRematerialize p others fields data) values) :
    ∃ bs : List Bytes, bs.length = fields.length ∧ data = Codec.blocks bs := by
  obtain ⟨env, hrun, hend⟩ := returns_bind.mp hok
  apply all_blocks_of_run structIdents hle ⟨rfl, rfl, Nat.two_pow_pos _, rfl⟩ hrun
  intro offset hready
  rw [hready.data, hready.offset] at hend
  change Returns (if data.length ≠ usizeToNat (ofUsize offset) then _ else _) _ at hend
  rw [usizeToNat_ofUsize hready.lt] at hend
  split at hend
  · cases hend
  · rename_i hne
    exact (not_not.mp hne).symm

theorem armRematerialize_blocks (hle : data.length ≤ p.isizeMax) {whole : Bytes} {at_ : Nat}
    {values : Vals p others fields} (hok : Returns (armRematerialize p others fields whole at_ data) values) :
    ∃ bs : List Bytes, bs.length = fields.length ∧ data = Codec.blocks bs := by
  obtain ⟨env, hrun, hend⟩ := returns_bind.mp hok
  apply all_blocks_of_run armIdents hle ⟨rfl, rfl, Nat.two_pow_pos _, rfl⟩ hrun
  intro offset hready
  rw [hready.data, hready.offset] at hend
  change Returns (if usizeToNat (ofUsize offset) ≠ data.length then _ else _) _ at hend
  rw [usizeToNat_ofUsize hready.lt] at hend
  split at hend
  · cases hend
  · rename_i hne
    exact not_not.mp hne

end Generated

theorem VariantArm.blocks {arity : Option Nat} {A : ArmCodec α} (h : VariantArm p arity α A)
    (hle : data.length ≤ p.isizeMax) {v : α} (hok : A.deserialize data = .ok v) :
    ∃ bs : List Bytes, bs.length = arity.getD 0 ∧ data = Codec.blocks bs := by
  cases h with
  | unit => exact ⟨[], rfl, unitArm_deserialize_eq_ok.mp hok⟩
  | fields h => exact h.all_blocks hle (fieldsArm_deserialize_eq_ok.mp hok)
  | generated h => exact armRematerialize_blocks hle ((h [] 0 data).trans (congrArg Gen.ofRes hok))

/-- The arm that a name selects. -/
theorem VariantList.blocks {variants : List (String × Option Nat)} {V : VariantsCodec α}
    (h : VariantList p variants α V) {name : String} (hle : data.length ≤ p.isizeMax) {v : α}
    (hok : V.deserialize name data = .ok v) :
    ∃ arity, (name, arity) ∈ variants ∧ ∃ bs : List Bytes, bs.length = arity.getD 0 ∧ data = Codec.blocks bs := by
  induction h with
  | nil => exact v.elim
  | @cons name' arity _ _ _ _ _ arm _ ih =>
    simp only [VariantsCodec.cons] at hok
    split at hok
    · rename_i hname
      obtain ⟨w, hw, -⟩ := Res.wrap_eq_ok.mp hok
      rw [hname]
      exact ⟨arity, List.mem_cons_self, arm.blocks hle hw⟩
    · obtain ⟨w, hw, -⟩ := Res.wrap_eq_ok.mp hok
      obtain ⟨arity', hmem, hblocks⟩ := ih hw
      exact ⟨arity', List.mem_cons_of_mem _ hmem, hblocks⟩

/-- What `derive_enum` accepts: a name, and a payload of exactly the fields of its variant. -/
theorem enum_blocks {variants : List (String × Option Nat)} {V : VariantsCodec α} (h : VariantList p variants α V)
    (hle : data.length ≤ p.isizeMax) {v : α} (hok : (deriveEnum p V).rematerialize data = .ok v) :
    ∃ name arity bs, (name, arity) ∈ variants ∧ List.length bs = arity.getD 0 ∧
      data = block (asBytes name) ++ block (Codec.blocks bs) := by
  obtain ⟨name, payload, hname, hpayload, hlen, hvalue⟩ := (deriveEnum_rematerialize_eq_ok (p.lt_usizeSize hle)).mp hok
  obtain ⟨arity, hmem, bs, harity, rfl⟩ := h.blocks (by omega) hvalue
  refine ⟨name, arity, bs, hmem, harity, ?_⟩
  have hdata := hname.1
  rw [List.drop_zero, Nat.zero_add, hpayload.1, ← hlen, List.drop_length, List.append_nil] at hdata
  exact hdata

/-- **What is accepted is as many blocks as the shape says.** -/
theorem Shaped.blocks {shape : Shape} {T : ContextTransmaterializable α} (h : Shaped p shape α T)
    (hle : data.length ≤ p.isizeMax) {v : α} (hok : T.rematerialize data = .ok v) :
    ∃ bs : List Bytes, bs.length = shape.blocks ∧ data = Codec.blocks bs := by
  cases h with
  | tuple h => exact h.all_blocks hle (tuple_rematerialize_eq_ok.mp hok)
  | structNamed h => exact h.all_blocks hle (deriveStructNamed_rematerialize_eq_ok.mp hok)
  | structTuple h => exact h.all_blocks hle (deriveStructNamed_rematerialize_eq_ok.mp hok)
  | structGenerated h => exact structRematerialize_blocks hle ((h data).trans (congrArg Gen.ofRes hok))
  | structUnit => exact ⟨[], rfl, deriveStructUnit_rematerialize_eq_ok.mp hok⟩
  | enum h =>
    obtain ⟨name, arity, bs, -, -, hdata⟩ := enum_blocks h hle hok
    refine ⟨[asBytes name, Codec.blocks bs], rfl, ?_⟩
    rw [hdata, blocks_cons, blocks_cons, blocks_nil, List.append_nil]
  | enumEmpty enumName => exact v.elim

/-! ## Prefixes -/

/-- As many blocks do not continue one another. -/
theorem blocks_append_inj {as bs : List Bytes} {rest : Bytes} (hlen : as.length = bs.length)
    (ha : ∀ a ∈ as, a.length < 256 ^ 8) (hb : ∀ b ∈ bs, b.length < 256 ^ 8)
    (h : Codec.blocks as ++ rest = Codec.blocks bs) : rest = [] := by
  induction as generalizing bs with
  | nil =>
    obtain rfl := List.length_eq_zero_iff.mp hlen.symm
    exact h
  | cons a as ih =>
    cases bs with
    | nil => cases hlen
    | cons b bs =>
      rw [List.forall_mem_cons] at ha hb
      rw [blocks_cons, blocks_cons, List.append_assoc] at h
      obtain ⟨rfl, hrest⟩ := block_append_inj ha.1 hb.1 h
      exact ih (Nat.succ.inj hlen) ha.2 hb.2 hrest

/-- **Two accepted strings of a shape, one of which continues the other, are the same.** -/
theorem Shaped.eq_of_prefix {shape : Shape} {β : Type} {T : ContextTransmaterializable α}
    {U : ContextTransmaterializable β} (hT : Shaped p shape α T) (hU : Shaped p shape β U) {a b : Bytes}
    (ha : a.length ≤ p.isizeMax) (hb : b.length ≤ p.isizeMax) {v : α} {w : β} (hv : T.rematerialize a = .ok v)
    (hw : U.rematerialize b = .ok w) (h : a <+: b) : a = b := by
  obtain ⟨as, hlenA, rfl⟩ := hT.blocks ha hv
  obtain ⟨bs, hlenB, rfl⟩ := hU.blocks hb hw
  obtain ⟨rest, hrest⟩ := h
  have hmax := p.isizeMax_lt
  have hsmallA : ∀ c ∈ as, c.length < 256 ^ 8 := fun c hc =>
    Nat.lt_of_le_of_lt ((length_le_of_mem_blocks hc).trans ha) hmax
  have hsmallB : ∀ c ∈ bs, c.length < 256 ^ 8 := fun c hc =>
    Nat.lt_of_le_of_lt ((length_le_of_mem_blocks hc).trans hb) hmax
  obtain rfl := blocks_append_inj (hlenA.trans hlenB.symm) hsmallA hsmallB hrest
  rw [← hrest, List.append_nil]

/-- **Tuples and derived types are prefix-free.** Of a string that is accepted, no proper prefix and no proper
    extension is accepted, not even by other decoders of the fields; and an accepted enum is a name and a payload
    as long as its header says, which is the blocks of the variant's fields and nothing else. -/
theorem prefix_free {shape : Shape} {T : ContextTransmaterializable α} (hT : Shaped p shape α T) (b : p.Slice)
    {v : α} (hok : T.rematerialize b.1 = .ok v) :
    (∀ (b' : p.Slice) (β : Type) (U : ContextTransmaterializable β), Shaped p shape β U → b'.1 ≠ b.1 →
        b'.1 <+: b.1 ∨ b.1 <+: b'.1 → ∀ w, U.rematerialize b'.1 ≠ .ok w) ∧
      ∀ variants, shape = .enum variants → ∃ name arity bs, (name, arity) ∈ variants ∧
        List.length bs = arity.getD 0 ∧ b.1 = block (asBytes name) ++ block (Codec.blocks bs) ∧
        headerAt b.1 (8 + (asBytes name).length) = (Codec.blocks bs).length := by
  constructor
  · rintro b' β U hU hne (hbegins | hbegins) w hw
    · exact hne (hU.eq_of_prefix hT b'.2 b.2 hw hok hbegins)
    · exact hne (hT.eq_of_prefix hU b.2 b'.2 hok hw hbegins).symm
  · rintro variants rfl
    cases hT with
    | enum h =>
      obtain ⟨name, arity, bs, hmem, harity, hb⟩ := enum_blocks h b.2 hok
      have hdrop : b.1.drop (8 + (asBytes name).length) = block (Codec.blocks bs) ++ [] := by
        rw [hb, List.append_nil]
        exact List.drop_left' (length_block _)
      have hlen := congrArg List.length hb
      simp only [List.length_append, length_block] at hlen
      have hmax := p.isizeMax_lt
      have hle := b.2
      exact ⟨name, arity, bs, hmem, harity, hb, headerAt_of_drop hdrop (by omega)⟩
    | enumEmpty enumName => exact v.elim

end Accepted

/-- A unit variant, and one of a byte. -/
def unitOrByte : VariantsCodec (Unit ⊕ (BitVec 8 × Unit) ⊕ Empty) :=
  .cons "A" unitArm (.cons "B" (fieldsArm (.cons (Target.sixtyFour true).toPlatform .field (leBytes 1) .nil)) .nil)

/-- The second variant is accepted, and none of its prefixes and extensions is. -/
theorem prefix_free_unit_or_byte :
    (deriveEnum (Target.sixtyFour true).toPlatform unitOrByte).rematerialize
        (block (asBytes "B") ++ block (block [5])) = .ok (.inr (.inl (5#8, ()))) ∧
      ∀ b' : (Target.sixtyFour true).toPlatform.Slice, b'.1 ≠ block (asBytes "B") ++ block (block [5]) →
        b'.1 <+: block (asBytes "B") ++ block (block [5]) ∨ block (asBytes "B") ++ block (block [5]) <+: b'.1 →
        ∀ w, (deriveEnum (Target.sixtyFour true).toPlatform unitOrByte).rematerialize b'.1 ≠ .ok w := by
  have hvariants : VariantList (Target.sixtyFour true).toPlatform [("A", none), ("B", some 1)] _ unitOrByte :=
    .cons .unit (.cons (.fields (.cons _ .nil)) .nil)
  have hle : (block (asBytes "B") ++ block (block [5])).length ≤ (Target.sixtyFour true).toPlatform.isizeMax := by
    decide +kernel
  have hok : (deriveEnum (Target.sixtyFour true).toPlatform unitOrByte).rematerialize
      (block (asBytes "B") ++ block (block [5])) = .ok (.inr (.inl (5#8, ()))) := by
    decide +kernel
  refine ⟨hok, ?_⟩
  intro b' hne hbegins
  exact (prefix_free (.enum hvariants) ⟨_, hle⟩ hok).1 b' _ _ (.enum hvariants) hne hbegins

end Derive
end Wormhole
