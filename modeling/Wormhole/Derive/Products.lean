import Wormhole.Codec.Language
import Wormhole.Codec.Tuples
import Wormhole.Derive.Named
import Wormhole.Derive.Positional

/-!
# `Derive.Products` — one codec behind all product types

Tuples, structs with and without names, and the payloads of both kinds of variants: the same list of components is
encoded to the same bytes by all of them, and they decode the same bytes to the same values.
-/

namespace Wormhole
namespace Derive

open LittleEndian Codec

variable {ι : Type}

section Products

variable (p : Platform) (others : Others ι)

/-- The elements of a tuple by position. -/
def elemsCodec : (fields : List (NamedField ι)) → FieldsCodec (Vals p others fields)
  | [] => .nil
  | field :: fields => .cons p .util (field.ty.codec p others) (elemsCodec fields)

/-- The implementation for the tuple of the components, where there is one. -/
def tupleImpl : (fields : List (NamedField ι)) → Option (ContextTransmaterializable (Vals p others fields))
  | [f0] => some (tuple1 p (f0.ty.codec p others))
  | [f0, f1] => some (tuple2 p (f0.ty.codec p others) (f1.ty.codec p others))
  | [f0, f1, f2] => some (tuple3 p (f0.ty.codec p others) (f1.ty.codec p others) (f2.ty.codec p others))
  | [f0, f1, f2, f3] =>
    some (tuple4 p
      (f0.ty.codec p others) (f1.ty.codec p others) (f2.ty.codec p others) (f3.ty.codec p others))
  | [f0, f1, f2, f3, f4] =>
    some (tuple5 p
      (f0.ty.codec p others) (f1.ty.codec p others) (f2.ty.codec p others) (f3.ty.codec p others)
      (f4.ty.codec p others))
  | [f0, f1, f2, f3, f4, f5] =>
    some (tuple6 p
      (f0.ty.codec p others) (f1.ty.codec p others) (f2.ty.codec p others) (f3.ty.codec p others)
      (f4.ty.codec p others) (f5.ty.codec p others))
  | [f0, f1, f2, f3, f4, f5, f6] =>
    some (tuple7 p
      (f0.ty.codec p others) (f1.ty.codec p others) (f2.ty.codec p others) (f3.ty.codec p others)
      (f4.ty.codec p others) (f5.ty.codec p others) (f6.ty.codec p others))
  | [f0, f1, f2, f3, f4, f5, f6, f7] =>
    some (tuple8 p
      (f0.ty.codec p others) (f1.ty.codec p others) (f2.ty.codec p others) (f3.ty.codec p others)
      (f4.ty.codec p others) (f5.ty.codec p others) (f6.ty.codec p others) (f7.ty.codec p others))
  | [f0, f1, f2, f3, f4, f5, f6, f7, f8] =>
    some (tuple9 p
      (f0.ty.codec p others) (f1.ty.codec p others) (f2.ty.codec p others) (f3.ty.codec p others)
      (f4.ty.codec p others) (f5.ty.codec p others) (f6.ty.codec p others) (f7.ty.codec p others)
      (f8.ty.codec p others))
  | [f0, f1, f2, f3, f4, f5, f6, f7, f8, f9] =>
    some (tuple10 p
      (f0.ty.codec p others) (f1.ty.codec p others) (f2.ty.codec p others) (f3.ty.codec p others)
      (f4.ty.codec p others) (f5.ty.codec p others) (f6.ty.codec p others) (f7.ty.codec p others)
      (f8.ty.codec p others) (f9.ty.codec p others))
  | [f0, f1, f2, f3, f4, f5, f6, f7, f8, f9, f10] =>
    some (tuple11 p
      (f0.ty.codec p others) (f1.ty.codec p others) (f2.ty.codec p others) (f3.ty.codec p others)
      (f4.ty.codec p others) (f5.ty.codec p others) (f6.ty.codec p others) (f7.ty.codec p others)
      (f8.ty.codec p others) (f9.ty.codec p others) (f10.ty.codec p others))
  | [f0, f1, f2, f3, f4, f5, f6, f7, f8, f9, f10, f11] =>
    some (tuple12 p
      (f0.ty.codec p others) (f1.ty.codec p others) (f2.ty.codec p others) (f3.ty.codec p others)
      (f4.ty.codec p others) (f5.ty.codec p others) (f6.ty.codec p others) (f7.ty.codec p others)
      (f8.ty.codec p others) (f9.ty.codec p others) (f10.ty.codec p others) (f11.ty.codec p others))
  | _ => none

/-! ## The twelve tuples are one -/

/-- Encode the elements one after the other. -/
def extendElems : (fields : List (NamedField ι)) → Vals p others fields → Bytes → Res Bytes
  | [], _, buffer => .ok buffer
  | field :: fields, elems, buffer => do
    let buffer ← extendElem (field.ty.codec p others) elems.1 buffer
    extendElems fields elems.2 buffer

/-- Decode the elements one after the other, and then go on. -/
def readElems {β : Type} (data : Bytes) :
    (fields : List (NamedField ι)) → (Vals p others fields → Nat → Res β) → Nat → Res β
  | [], k, offset => k () offset
  | field :: fields, k, offset => do
    let (elem, offset) ← readElem p (field.ty.codec p others) data offset
    readElems data fields (fun elems => k (elem, elems)) offset

theorem extendElems_eq (fields : List (NamedField ι)) (elems : Vals p others fields) (buffer : Bytes) :
    extendElems p others fields elems buffer = (elemsCodec p others fields).serialize elems buffer := by
  induction fields generalizing buffer with
  | nil => rfl
  | cons field fields ih =>
    simp only [extendElems, extendElem, Res.bind_assoc, Res.ok_bind, ih]
    rfl

theorem readElems_eq {β : Type} (data : Bytes) (fields : List (NamedField ι))
    (k : Vals p others fields → Nat → Res β) (offset : Nat) :
    readElems p others data fields k offset =
      (do let (elems, stop) ← (elemsCodec p others fields).deserialize data offset
          k elems stop) := by
  induction fields generalizing offset with
  | nil => rfl
  | cons field fields ih =>
    simp only [readElems, readElem_eq, ih, Res.bind_assoc, Res.ok_bind]
    show _ = ((readBlock p .util data offset >>= fun block =>
      (field.ty.codec p others).rematerialize block.1 >>= fun elem =>
        (elemsCodec p others fields).deserialize data block.2 >>= fun rest => .ok ((elem, rest.1), rest.2)) >>=
      fun all => k all.1 all.2)
    simp only [Res.bind_assoc, Res.ok_bind]

/-- The elements one after the other, and the check at the end. -/
def walkElems (fields : List (NamedField ι)) : ContextTransmaterializable (Vals p others fields) where
  immaterialize elems := extendElems p others fields elems []
  rematerialize data := readElems p others data fields (fun elems offset => do
    requireBufferSize data offset
    .ok elems) 0

theorem walkElems_eq (fields : List (NamedField ι)) :
    walkElems p others fields = tuple (elemsCodec p others fields) := by
  unfold walkElems tuple
  simp only [extendElems_eq, readElems_eq]

/-- **Each of the twelve implementations is the walk over its elements**, and no other tuple has one. -/
theorem tupleImpl_eq (fields : List (NamedField ι)) : tupleImpl p others fields =
    if 1 ≤ fields.length ∧ fields.length ≤ 12 then some (tuple (elemsCodec p others fields)) else none := by
  rw [← walkElems_eq]
  match fields with
  | [] => rfl
  | [_] | [_, _] | [_, _, _] | [_, _, _, _] | [_, _, _, _, _] | [_, _, _, _, _, _] | [_, _, _, _, _, _, _]
  | [_, _, _, _, _, _, _, _] | [_, _, _, _, _, _, _, _, _] | [_, _, _, _, _, _, _, _, _, _] | [_, _, _, _, _, _, _, _, _, _, _]
  | [_, _, _, _, _, _, _, _, _, _, _, _] => rfl
  | _ :: _ :: _ :: _ :: _ :: _ :: _ :: _ :: _ :: _ :: _ :: _ :: _ :: _ =>
    rw [if_neg]
    · rfl
    · simp only [List.length_cons]
      omega

/-! ## One codec -/

theorem extend_elemsCodec (fields : List (NamedField ι)) :
    (elemsCodec p others fields).serialize = (fieldsCodec p others fields).serialize := by
  induction fields with
  | nil => rfl
  | cons field fields ih =>
    unfold elemsCodec fieldsCodec
    simp only [FieldsCodec.cons, ih]
    rfl

/-- The error texts differ, what is read does not. -/
theorem elemsCodec_deserialize_eq_ok {fields : List (NamedField ι)} {data : Bytes} (hlt : data.length < p.usizeSize)
    {offset : Nat} (hoff : offset ≤ data.length) {values : Vals p others fields} {stop : Nat} :
    (elemsCodec p others fields).deserialize data offset = .ok (values, stop) ↔
      (fieldsCodec p others fields).deserialize data offset = .ok (values, stop) := by
  induction fields generalizing offset with
  | nil => exact Iff.rfl
  | cons field fields ih =>
    refine (cons_deserialize_eq_ok hlt hoff).trans (Iff.trans ?_ (cons_deserialize_eq_ok hlt hoff).symm)
    refine exists_congr fun b => and_congr_right fun hblock => and_congr_right fun _ => ?_
    exact ih hblock.2

/-- Code that encodes and decodes as an implementation does: to the same outcome, and from the same byte strings to
    the same values. -/
structure SameCodec {α : Type} (T : ContextTransmaterializable α) (immaterialize : α → Gen Bytes)
    (rematerialize : Bytes → Gen α) : Prop where
  immaterialize_eq : ∀ value, immaterialize value = Gen.ofRes (T.immaterialize value)
  rematerialize_eq_ok : ∀ (data : p.Slice) value,
    rematerialize data.1 = some (.ok value) ↔ T.rematerialize data.1 = .ok value

variable {p others} [DecidableEq ι] {fields : List (NamedField ι)}

omit [DecidableEq ι] in
/-- What encodes as the fields by position do, and decodes them and checks that nothing is left. -/
theorem sameCodec_of {immaterialize : Vals p others fields → Gen Bytes}
    {rematerialize : Bytes → Gen (Vals p others fields)} {decode : Bytes → Res (Vals p others fields)}
    (hdecode : ∀ {data values}, decode data = .ok values ↔
      (fieldsCodec p others fields).deserialize data 0 = .ok (values, data.length))
    (himm : ∀ values, immaterialize values = Gen.ofRes ((fieldsCodec p others fields).serialize values []))
    (hre : ∀ data, rematerialize data = Gen.ofRes (decode data)) :
    SameCodec p (tuple (elemsCodec p others fields)) immaterialize rematerialize where
  immaterialize_eq values := by
    rw [himm, ← extend_elemsCodec]
    rfl
  rematerialize_eq_ok data values := by
    rw [tuple_rematerialize_eq_ok, elemsCodec_deserialize_eq_ok p others (p.lt_usizeSize data.2) (Nat.zero_le _),
      ← hdecode, hre]
    exact Option.some_inj

/-- The names of the fields of a struct do not clash. -/
structure NonClashing (fields : List (NamedField ι)) : Prop where
  distinct : (fields.map NamedField.name).Nodup
  noLenBefore : NoLenBefore fields
  noBytesBefore : NoBytesBefore fields

/-- The names of the fields of a variant do not clash: they are variables of the code, too. -/
structure NonClashingVariant (fields : List (NamedField ι)) : Prop extends NonClashing fields where
  noFieldBytesAfter : NoFieldBytesAfter fields
  ne_buffer : ∀ field ∈ fields, field.name ≠ "buffer"
  ne_ctx : ∀ field ∈ fields, field.name ≠ "ctx"

/-- **One codec behind all product types.** A tuple of 1 to 12 components, a struct and a tuple struct with these
    components, and the payloads of such variants are encoded to the same bytes, and the same byte strings are
    decoded to the same values of the components. -/
theorem one_codec (hpos : 1 ≤ fields.length) (hle : fields.length ≤ 12) :
    ∃ T, tupleImpl p others fields = some T ∧
      (NonClashing fields → SameCodec p T (structImmaterialize p others fields) (structRematerialize p others fields)) ∧
      SameCodec p T (tupleStructImmaterialize p others fields) (tupleStructRematerialize p others fields) ∧
      (NonClashingVariant fields → ∀ data offset,
        SameCodec p T (armImmaterialize p others fields) (armRematerialize p others fields data offset)) ∧
      ∀ data offset,
        SameCodec p T (tupleArmImmaterialize p others fields) (tupleArmRematerialize p others fields data offset) := by
  refine ⟨tuple (elemsCodec p others fields), ?_, ?_, ?_, ?_, ?_⟩
  · rw [tupleImpl_eq, if_pos ⟨hpos, hle⟩]
  · intro h
    exact sameCodec_of deriveStructNamed_rematerialize_eq_ok (structImmaterialize_eq h.distinct)
      (structRematerialize_eq h.distinct h.noLenBefore h.noBytesBefore)
  · exact sameCodec_of deriveStructNamed_rematerialize_eq_ok tupleStructImmaterialize_eq tupleStructRematerialize_eq
  · intro h data offset
    exact sameCodec_of fieldsArm_deserialize_eq_ok (armImmaterialize_eq h.distinct h.noFieldBytesAfter h.ne_buffer h.ne_ctx)
      (armRematerialize_eq h.distinct h.noLenBefore h.noBytesBefore data offset)
  · intro data offset
    exact sameCodec_of fieldsArm_deserialize_eq_ok tupleArmImmaterialize_eq (tupleArmRematerialize_eq data offset)

end Products

/-- A `usize` and a `Vec<u8>`. -/
def sizeAndBytes : List (NamedField Empty) := [⟨"a", .usize⟩, ⟨"b", .vecU8⟩]

def noOthers : Others Empty where
  Val := Empty.elim
  codec := Empty.rec

/-- A pair and a struct of its components. -/
theorem one_codec_size_and_bytes :
    ∃ T, tupleImpl (Target.sixtyFour true).toPlatform noOthers sizeAndBytes = some T ∧
      SameCodec (Target.sixtyFour true).toPlatform T
        (structImmaterialize (Target.sixtyFour true).toPlatform noOthers sizeAndBytes)
        (structRematerialize (Target.sixtyFour true).toPlatform noOthers sizeAndBytes) ∧
      SameCodec (Target.sixtyFour true).toPlatform T
        (armImmaterialize (Target.sixtyFour true).toPlatform noOthers sizeAndBytes)
        (armRematerialize (Target.sixtyFour true).toPlatform noOthers sizeAndBytes [] 0) := by
  have hstruct : NonClashing sizeAndBytes :=
    ⟨by decide, by unfold NoLenBefore; decide, by unfold NoBytesBefore; decide⟩
  have hvariant : NonClashingVariant sizeAndBytes :=
    ⟨hstruct, by unfold NoFieldBytesAfter; decide, by decide, by decide⟩
  obtain ⟨T, hT, hsame, -, harm, -⟩ :=
    @one_codec Empty (Target.sixtyFour true).toPlatform noOthers _ sizeAndBytes (by decide) (by decide)
  exact ⟨T, hT, hsame hstruct, harm hvariant [] 0⟩

end Derive
end Wormhole
