import Wormhole.Derive.Running

/-!
# `Derive.Positional` — the code for fields without names

`derive_struct` (tuple fields) and `derive_enum` (tuple variants) number the variables of the fields. The names never
clash, and the code does what the fields by position do. The names that the list of fields has here are not used.
-/

namespace Wormhole
namespace Derive

open LittleEndian Codec

variable {ι : Type}

/-! ## The code -/

/-- `format_ident!("field{}_len", i)`, `format_ident!("field{}_bytes", i)` and `format_ident!("field{}_value", i)`. -/
def tupleDecodeIdents (i : Nat) (_ : NamedField ι) : DecodeIdents where
  len := "field" ++ (toString i ++ "_len")
  bytes := "field" ++ (toString i ++ "_bytes")
  value := "field" ++ (toString i ++ "_value")

/-- `format_ident!("field_bytes_{}", i)`, and `self.i`. -/
def tupleStructEncodeIdents (i : Nat) (_ : NamedField ι) : EncodeIdents where
  bytes := "field_bytes_" ++ toString i
  access := .selfField (toString i)

/-- `format_ident!("field_bytes_{}", i)`, and `format_ident!("field{}", i)`, which the pattern binds. -/
def tupleVariantEncodeIdents (i : Nat) (_ : NamedField ι) : EncodeIdents where
  bytes := "field_bytes_" ++ toString i
  access := .var ("field" ++ toString i)

variable [DecidableEq ι] (p : Platform) (others : Others ι) (fields : List (NamedField ι))

/-- `immaterialize` of a tuple struct. -/
def tupleStructImmaterialize (values : Vals p others fields) : Gen Bytes := do
  let scope := bindVar "buffer" (.ty .vecU8) [] ++ bindVar "ctx" .context () ++
    bindAccesses tupleStructEncodeIdents 0 fields values
  let env ← Scope.run step (encodeFields tupleStructEncodeIdents 0 fields) scope
  use env (.var "buffer") (.ty .vecU8)

/-- `rematerialize` of a tuple struct. -/
def tupleStructRematerialize (data : Bytes) : Gen (Vals p others fields) := do
  let scope := bindVar "offset" (.ty .usize) (ofUsize 0) ++ bindVar "data" .sliceU8 data ++ bindVar "ctx" .context ()
  let env ← Scope.run step (decodeFields tupleDecodeIdents "data" "offset" 0 fields) scope
  let data ← use env (.var "data") .sliceU8
  let offset ← use env (.var "offset") (.ty .usize)
  if List.length data ≠ usizeToNat offset then
    Gen.ofRes (.err (.notConsumed (List.length data) (usizeToNat offset)))
  else constructFields tupleDecodeIdents 0 fields env

/-- The arm of a tuple variant in `immaterialize` of an enum: the payload. -/
def tupleArmImmaterialize (values : Vals p others fields) : Gen Bytes := do
  let scope := bindVar "buffer" (.ty .vecU8) [] ++ (bindAccesses tupleVariantEncodeIdents 0 fields values ++
    (bindVar "buffer" (.ty .vecU8) [] ++ bindVar "ctx" .context ()))
  let env ← Scope.run step (encodeFields tupleVariantEncodeIdents 0 fields) scope
  use env (.var "buffer") (.ty .vecU8)

/-- The arm of a tuple variant in `rematerialize` of an enum, from the payload; `data` and `offset` are those of the
    whole enum. -/
def tupleArmRematerialize (data : Bytes) (offset : Nat) (payload : Bytes) : Gen (Vals p others fields) := do
  let scope := bindVar "payload_offset" (.ty .usize) (ofUsize 0) ++ bindVar "payload_data" .sliceU8 payload ++
    bindVar "offset" (.ty .usize) (ofUsize offset) ++ bindVar "data" .sliceU8 data ++ bindVar "ctx" .context ()
  let env ← Scope.run step (decodeFields tupleDecodeIdents "payload_data" "payload_offset" 0 fields) scope
  let payloadOffset ← use env (.var "payload_offset") (.ty .usize)
  let payload ← use env (.var "payload_data") .sliceU8
  if usizeToNat payloadOffset ≠ List.length payload then
    Gen.ofRes (.err (.payloadNotConsumed (List.length payload) (usizeToNat payloadOffset)))
  else constructFields tupleDecodeIdents 0 fields env

variable {p others fields} {dataIdent offsetIdent : String}

/-! ## The names -/

theorem toString_inj {m n : Nat} (h : toString m = toString n) : m = n := by
  have hdigits := congrArg (fun s => Nat.ofDigitChars 10 s.toList 0) h
  simp only [Nat.toString_eq_repr, Nat.toList_repr] at hdigits
  rw [Nat.ofDigitChars_toDigits (by decide) (by decide), Nat.ofDigitChars_toDigits (by decide) (by decide)] at hdigits
  exact hdigits

/-- Names with different last letters differ. -/
theorem field_ne_of_getLast {a b s t : String} {c d : Char} (hs : s.toList.getLast? = some c)
    (ht : t.toList.getLast? = some d) (h : c ≠ d) : "field" ++ (a ++ s) ≠ "field" ++ (b ++ t) := by
  intro heq
  have hlast := congrArg (fun x => x.toList.getLast?) heq
  simp only [String.toList_append, List.getLast?_append, hs, ht, Option.some_or] at hlast
  exact h (Option.some.inj hlast)

theorem ne_field {x : String} (hx : x.toList.head? ≠ some 'f') (s : String) : x ≠ "field" ++ s := by
  rintro rfl
  apply hx
  rw [String.toList_append]
  rfl

omit [DecidableEq ι] in
theorem private_tupleDecodeIdents (hdata : dataIdent.toList.head? ≠ some 'f')
    (hoffset : offsetIdent.toList.head? ≠ some 'f') (i : Nat) (f : NamedField ι) :
    (tupleDecodeIdents i f).Private dataIdent offsetIdent where
  len := ⟨ne_field hdata _, ne_field hoffset _, ne_field (by decide) _⟩
  bytes := ⟨ne_field hdata _, ne_field hoffset _, ne_field (by decide) _⟩
  value := ⟨ne_field hdata _, ne_field hoffset _, ne_field (by decide) _⟩
  len_ne_bytes := field_ne_of_getLast rfl rfl (by decide)

omit [DecidableEq ι] in
/-- The numbers keep the values. -/
theorem valuesStay_tuple (hoffset : offsetIdent.toList.head? ≠ some 'f') (i : Nat) :
    ValuesStay tupleDecodeIdents dataIdent offsetIdent i fields := by
  induction fields generalizing i with
  | nil => trivial
  | cons f fields ih =>
    refine ⟨fun s hs heq => ?_, ih (i + 1)⟩
    rcases binds_decodeFields hs with hs | ⟨j, hj, g, -, hs | hs | hs⟩
    · exact ne_field hoffset _ (heq.trans hs).symm
    · exact field_ne_of_getLast rfl rfl (by decide) (heq.trans hs)
    · exact field_ne_of_getLast rfl rfl (by decide) (heq.trans hs)
    · have hij := toString_inj ((String.append_left_inj _).mp ((String.append_right_inj _).mp (heq.trans hs)))
      omega

theorem fieldBytes_eq (i : Nat) : "field_bytes_" ++ toString i = "field" ++ ("_bytes_" ++ toString i) := by
  rw [← String.append_assoc]
  rfl

theorem ne_fieldBytes {x : String} (hx : x.toList.head? ≠ some 'f') (i : Nat) : x ≠ "field_bytes_" ++ toString i := by
  rw [fieldBytes_eq]
  exact ne_field hx _

/-- A number has no underscore. -/
theorem field_ne_fieldBytes (i j : Nat) : "field" ++ toString i ≠ "field_bytes_" ++ toString j := by
  rw [fieldBytes_eq]
  intro heq
  have hdigits := congrArg String.toList ((String.append_right_inj _).mp heq)
  rw [Nat.toString_eq_repr, Nat.toList_repr, String.toList_append] at hdigits
  have hmem : '_' ∈ Nat.toDigits 10 i := hdigits ▸ List.mem_cons_self
  exact Nat.underscore_not_in_toDigits hmem

omit [DecidableEq ι] in
theorem private_tupleStructEncodeIdents (i : Nat) (f : NamedField ι) : (tupleStructEncodeIdents i f).Private where
  buffer := ne_fieldBytes (by decide) i
  ctx := ne_fieldBytes (by decide) i

omit [DecidableEq ι] in
theorem private_tupleVariantEncodeIdents (i : Nat) (f : NamedField ι) : (tupleVariantEncodeIdents i f).Private where
  buffer := ne_fieldBytes (by decide) i
  ctx := ne_fieldBytes (by decide) i

omit [DecidableEq ι] in
theorem fieldsStay_tupleStruct (i : Nat) : FieldsStay tupleStructEncodeIdents i fields := by
  induction fields generalizing i with
  | nil => trivial
  | cons f fields ih =>
    refine ⟨fun place hplace => ?_, ih (i + 1)⟩
    obtain ⟨j, -, g, -, rfl⟩ := mem_accesses hplace
    exact ⟨nofun, nofun⟩

omit [DecidableEq ι] in
theorem fieldsStay_tupleVariant (i : Nat) : FieldsStay tupleVariantEncodeIdents i fields := by
  induction fields generalizing i with
  | nil => trivial
  | cons f fields ih =>
    refine ⟨fun place hplace => ?_, ih (i + 1)⟩
    obtain ⟨j, -, g, -, rfl⟩ := mem_accesses hplace
    constructor
    · exact fun heq => field_ne_fieldBytes j i (Place.var.inj heq)
    · exact fun heq => ne_field (by decide) _ (Place.var.inj heq).symm

omit [DecidableEq ι] in
/-- Fields at different positions are at different places. -/
theorem nodup_accesses_of_inj {idents : Nat → NamedField ι → EncodeIdents}
    (hinj : ∀ {i j f g}, (idents i f).access = (idents j g).access → i = j) (i : Nat) :
    (accesses idents i fields).Nodup := by
  induction fields generalizing i with
  | nil => exact List.nodup_nil
  | cons f fields ih =>
    refine List.nodup_cons.mpr ⟨fun hmem => ?_, ih (i + 1)⟩
    obtain ⟨j, hj, g, -, heq⟩ := mem_accesses hmem
    have := hinj heq
    omega

/-! ## What the code does -/

/-- **A tuple struct is decoded as its fields by position are.** -/
theorem tupleStructRematerialize_eq (bytes : Bytes) : tupleStructRematerialize p others fields bytes =
    Gen.ofRes ((deriveStructTuple (fieldsCodec p others fields)).rematerialize bytes) :=
  run_decodeStruct (private_tupleDecodeIdents (by decide) (by decide)) (valuesStay_tuple (by decide) 0)
    ⟨rfl, rfl, Nat.two_pow_pos _, rfl⟩

/-- **A tuple variant is decoded as its fields by position are.** -/
theorem tupleArmRematerialize_eq (data : Bytes) (offset : Nat) (payload : Bytes) :
    tupleArmRematerialize p others fields data offset payload =
      Gen.ofRes ((fieldsArm (fieldsCodec p others fields)).deserialize payload) :=
  run_decodeArm (private_tupleDecodeIdents (by decide) (by decide)) (valuesStay_tuple (by decide) 0)
    ⟨rfl, rfl, Nat.two_pow_pos _, rfl⟩

/-- **A tuple struct is encoded as its fields by position are.** -/
theorem tupleStructImmaterialize_eq (values : Vals p others fields) :
    tupleStructImmaterialize p others fields values =
      Gen.ofRes ((deriveStructTuple (fieldsCodec p others fields)).immaterialize values) := by
  have hdistinct : (accesses tupleStructEncodeIdents 0 fields).Nodup :=
    nodup_accesses_of_inj (fun heq => toString_inj (Place.selfField.inj heq)) 0
  have hholds : Holds tupleStructEncodeIdents 0 fields values (bindVar "buffer" (.ty .vecU8) [] ++
      bindVar "ctx" .context () ++ bindAccesses tupleStructEncodeIdents 0 fields values) := by
    have h : Holds _ 0 fields values _ := holds_bindAccesses hdistinct []
    rw [List.append_nil] at h
    refine h.congr fun place hplace t => use_congr ?_
    obtain ⟨j, -, f, -, rfl⟩ := mem_accesses hplace
    rfl
  exact run_encode private_tupleStructEncodeIdents (fieldsStay_tupleStruct 0) ⟨rfl, rfl⟩ hholds

/-- **A tuple variant is encoded as its fields by position are.** -/
theorem tupleArmImmaterialize_eq (values : Vals p others fields) :
    tupleArmImmaterialize p others fields values =
      Gen.ofRes ((fieldsArm (fieldsCodec p others fields)).serialize values) := by
  have hdistinct : (accesses tupleVariantEncodeIdents 0 fields).Nodup :=
    nodup_accesses_of_inj
      (fun heq => toString_inj ((String.append_right_inj _).mp (Place.var.inj heq))) 0
  have hnot : ∀ {x : String}, x.toList.head? ≠ some 'f' →
      Place.var x ∉ accesses tupleVariantEncodeIdents 0 fields := by
    intro x hx hmem
    obtain ⟨j, -, f, -, heq⟩ := mem_accesses hmem
    exact ne_field hx _ (Place.var.inj heq)
  let outer : Scope Place (Var p others) := bindVar "buffer" (.ty .vecU8) [] ++ bindVar "ctx" .context ()
  have hready : ReadyToEncode [] (bindVar "buffer" (.ty .vecU8) [] ++
      (bindAccesses tupleVariantEncodeIdents 0 fields values ++ outer)) := by
    refine ⟨rfl, ?_⟩
    exact (use_bindVar_ne (by decide) _ _).trans ((use_bindAccesses_ne (hnot (by decide)) _ _).trans rfl)
  have hholds : Holds tupleVariantEncodeIdents 0 fields values (bindVar "buffer" (.ty .vecU8) [] ++
      (bindAccesses tupleVariantEncodeIdents 0 fields values ++ outer)) := by
    refine (holds_bindAccesses hdistinct outer).congr fun place hplace t => use_bindVar_of_ne (fun heq => ?_) _ _
    exact hnot (by decide) (heq ▸ hplace)
  exact run_encode private_tupleVariantEncodeIdents (fieldsStay_tupleVariant 0) hready hholds

end Derive
end Wormhole
