import Wormhole.Codec.Impls

/-!
# `Codec.Universe` — tuples, derived types, and the types of the wire

Tuples (`default_impl_tupl.rs`, arities 1 to 12) and the output of the derive macro
(`derive_wormhole_serializable.rs`) all walk a list of fields, each written as a block. The twelve tuple
impls, `derive_struct` and the payload arms of `derive_enum` are that walk with different error texts and
a different last check, so the walk is one definition (`FieldsCodec`) and each of them an instance.

`Ty` is the universe of types built from these implementations, `Ty.Val` the values of a type on a
target, and `Ty.codec` the implementation that trait selection picks. Fields are identified by position;
field names only name the local variables of the generated code.
-/

namespace Wormhole
namespace Codec

open LittleEndian

/-! ## Field lists -/

/-- The code for a list of fields: append them to a buffer; read them from an offset on. -/
structure FieldsCodec (α : Type) where
  serialize : α → Bytes → Res Bytes
  deserialize : Bytes → Nat → Res (α × Nat)

/-- No (more) fields. -/
def FieldsCodec.nil : FieldsCodec Unit where
  serialize _ buffer := .ok buffer
  deserialize _ offset := .ok ((), offset)

/-- The code for one field (`for_field`, or one element of a tuple), then the rest. -/
def FieldsCodec.cons (p : Platform) (style : BlockStyle) {α β : Type}
    (T : ContextTransmaterializable α) (rest : FieldsCodec β) : FieldsCodec (α × β) where
  serialize v buffer := do
    let fieldBytes ← T.immaterialize v.1
    rest.serialize v.2 (buffer ++ toLeBytes 8 fieldBytes.length ++ fieldBytes)
  deserialize data offset := do
    let (fieldBytes, next) ← readBlock p style data offset
    let field ← T.rematerialize fieldBytes
    let (fields, stop) ← rest.deserialize data next
    .ok ((field, fields), stop)

/-- `impl ContextTransmaterializable for (T0, ..)`. -/
def tuple {α : Type} (F : FieldsCodec α) : ContextTransmaterializable α where
  immaterialize v := F.serialize v []
  rematerialize data := do
    let (fields, offset) ← F.deserialize data 0
    requireBufferSize data offset
    .ok fields

/-- `derive_struct`, named fields. -/
def deriveStructNamed {α : Type} (F : FieldsCodec α) : ContextTransmaterializable α where
  immaterialize v := F.serialize v []
  rematerialize data := do
    let (fields, offset) ← F.deserialize data 0
    if data.length ≠ offset then .err (.notConsumed data.length offset) else .ok fields

/-- `derive_struct`, tuple fields: the same code with positions for names. -/
def deriveStructTuple {α : Type} (F : FieldsCodec α) : ContextTransmaterializable α :=
  deriveStructNamed F

/-- `derive_struct`, unit struct. -/
def deriveStructUnit : ContextTransmaterializable Unit where
  immaterialize _ := .ok []
  rematerialize data := if data.length ≠ 0 then .err (.unitStructData data.length) else .ok ()

/-! ## Enums -/

/-- The arms that `derive_enum` generates for one variant: the payload of a value, and the value of a
    payload. -/
structure ArmCodec (α : Type) where
  serialize : α → Res Bytes
  deserialize : Bytes → Res α

/-- A unit variant. -/
def unitArm : ArmCodec Unit where
  serialize _ := .ok []
  deserialize payload :=
    if payload.length ≠ 0 then .err (.unitVariantPayload payload.length) else .ok ()

/-- A tuple or struct variant. -/
def fieldsArm {α : Type} (F : FieldsCodec α) : ArmCodec α where
  serialize v := F.serialize v []
  deserialize payload := do
    let (fields, offset) ← F.deserialize payload 0
    if offset ≠ payload.length then .err (.payloadNotConsumed payload.length offset) else .ok fields

/-- The `match` over the variants: `(case, bytes)` of a value, and the arm that a name selects. -/
structure VariantsCodec (α : Type) where
  serialize : α → Res (String × Bytes)
  deserialize : String → Bytes → Res α

/-- No (more) variants. -/
def VariantsCodec.nil : VariantsCodec Empty where
  serialize v := v.elim
  deserialize name _ := .err (.unknownVariant name)

/-- The arm of one variant, then the rest of the `match`. -/
def VariantsCodec.cons {α β : Type} (variantName : String) (arm : ArmCodec α)
    (rest : VariantsCodec β) : VariantsCodec (α ⊕ β) where
  serialize
    | .inl v => do
        let bytes ← arm.serialize v
        .ok (variantName, bytes)
    | .inr w => rest.serialize w
  deserialize name payload :=
    if name = variantName then do
      let v ← arm.deserialize payload
      .ok (.inl v)
    else do
      let w ← rest.deserialize name payload
      .ok (.inr w)

/-- `derive_enum`: variant name and payload, each a block. -/
def deriveEnum (p : Platform) {α : Type} (V : VariantsCodec α) : ContextTransmaterializable α where
  immaterialize v := do
    let (case, bytes) ← V.serialize v
    .ok (toLeBytes 8 (asBytes case).length ++ asBytes case ++ toLeBytes 8 bytes.length ++ bytes)
  rematerialize data := do
    let (variantNameBytes, offset) ← readBlock p .variantName data 0
    let variantName ← fromUtf8 variantNameBytes
    let (payloadData, offset) ← readBlock p .payload data offset
    let result ← V.deserialize variantName payloadData
    if data.length ≠ offset then .err (.notConsumed data.length offset) else .ok result

/-- `derive_enum` on an enum without variants. -/
def deriveEnumEmpty (enumName : String) : ContextTransmaterializable Empty where
  immaterialize v := v.elim
  rematerialize _ := .err (.uninhabited enumName)

/-! ## The universe -/

/-- The number types of `impl_context_transmaterializable_for_integer!` and `.._for_float!`. -/
inductive Num where
  | u8 | u16 | u32 | u64 | u128 | i8 | i16 | i32 | i64 | i128 | f32 | f64
  deriving DecidableEq, Repr

/-- `std::mem::size_of`. -/
def Num.sizeOf : Num → Nat
  | .u8 | .i8 => 1
  | .u16 | .i16 => 2
  | .u32 | .i32 | .f32 => 4
  | .u64 | .i64 | .f64 => 8
  | .u128 | .i128 => 16

mutual

/-- The types of the wire. `bytes` is `Vec<u8>`, whose impl is specialised; `vec` is the default impl of
    `Vec<T>` for the other element types. -/
inductive Ty where
  | num (k : Num)
  | usize
  | isize
  | bool
  | unit
  | string
  | bytes
  | vec (t : Ty)
  | option (t : Ty)
  | result (t e : Ty)
  | tuple (ts : Tys)
  | structNamed (ts : Tys)
  | structTuple (ts : Tys)
  | structUnit
  | enum (name : String) (vs : Variants)

/-- The types of a list of fields. -/
inductive Tys where
  | nil
  | cons (t : Ty) (ts : Tys)

/-- The variants of an enum. -/
inductive Variants where
  | nil
  | cons (name : String) (fields : VariantFields) (vs : Variants)

/-- The fields of a variant. -/
inductive VariantFields where
  | unit
  | tuple (ts : Tys)
  | named (ts : Tys)

end

/-- A platform with the memory layout that the compiler picked for each type. -/
structure Target extends Platform where
  sizeOf : Ty → Nat

/-- A 64-bit target. The sizes of the leaves and of vectors are those of the platform; the compiler is
    free in the layout of the others, and one size stands for all of them. -/
def Target.sixtyFour (overflowChecks : Bool) : Target where
  bits := 64
  sixteen_le := by decide
  le_sixtyFour := by decide
  overflowChecks := overflowChecks
  sizeOf
    | .num k => k.sizeOf
    | .usize | .isize => 8
    | .bool => 1
    | .unit | .structUnit => 0
    | .string | .bytes | .vec _ => 24
    | _ => 64

def Tys.length : Tys → Nat
  | .nil       => 0
  | .cons _ ts => ts.length + 1

def Variants.names : Variants → List String
  | .nil            => []
  | .cons name _ vs => name :: vs.names

mutual

/-- What the compiler requires of a type: tuples have an impl for arities 1 to 12, and the variants of an
    enum have different names. -/
def Ty.Compiles : Ty → Prop
  | .num _ | .usize | .isize | .bool | .unit | .string | .bytes | .structUnit => True
  | .vec t => t.Compiles
  | .option t => t.Compiles
  | .result t e => t.Compiles ∧ e.Compiles
  | .tuple ts => (1 ≤ ts.length ∧ ts.length ≤ 12) ∧ ts.Compile
  | .structNamed ts => ts.Compile
  | .structTuple ts => ts.Compile
  | .enum _ vs => vs.names.Nodup ∧ vs.Compile

def Tys.Compile : Tys → Prop
  | .nil => True
  | .cons t ts => t.Compiles ∧ ts.Compile

def Variants.Compile : Variants → Prop
  | .nil => True
  | .cons _ fields vs => fields.Compile ∧ vs.Compile

def VariantFields.Compile : VariantFields → Prop
  | .unit => True
  | .tuple ts => ts.Compile
  | .named ts => ts.Compile

end

/-- A type that compiles. -/
structure WireTy where
  ty : Ty
  compiles : ty.Compiles

mutual

/-- The values of a type on a target. Numbers are bit patterns. -/
def Ty.Val (tgt : Target) : Ty → Type
  | .num k => BitVec (8 * k.sizeOf)
  | .usize => BitVec tgt.bits
  | .isize => BitVec tgt.bits
  | .bool => Bool
  | .unit => Unit
  | .string => String
  | .bytes => Bytes
  | .vec t => RVec tgt.toPlatform (tgt.sizeOf t) (t.Val tgt)
  | .option t => Option (t.Val tgt)
  | .result t e => Except (e.Val tgt) (t.Val tgt)
  | .tuple ts => ts.Vals tgt
  | .structNamed ts => ts.Vals tgt
  | .structTuple ts => ts.Vals tgt
  | .structUnit => Unit
  | .enum _ vs => vs.Vals tgt

def Tys.Vals (tgt : Target) : Tys → Type
  | .nil => Unit
  | .cons t ts => t.Val tgt × ts.Vals tgt

def Variants.Vals (tgt : Target) : Variants → Type
  | .nil => Empty
  | .cons _ fields vs => fields.Vals tgt ⊕ vs.Vals tgt

def VariantFields.Vals (tgt : Target) : VariantFields → Type
  | .unit => Unit
  | .tuple ts => ts.Vals tgt
  | .named ts => ts.Vals tgt

end

mutual

/-- The implementation of `ContextTransmaterializable` for a type. -/
def Ty.codec (tgt : Target) : (t : Ty) → ContextTransmaterializable (t.Val tgt)
  | .num k => leBytes k.sizeOf
  | .usize => Codec.usize tgt.toPlatform
  | .isize => Codec.isize tgt.toPlatform
  | .bool => Codec.bool
  | .unit => Codec.unit
  | .string => Codec.string tgt.toPlatform
  | .bytes => vecU8 tgt.toPlatform
  | .vec t => Codec.vec tgt.toPlatform (tgt.sizeOf t) (t.codec tgt)
  | .option t => Codec.option tgt.toPlatform (t.codec tgt)
  | .result t e => Codec.result tgt.toPlatform (t.codec tgt) (e.codec tgt)
  | .tuple ts => Codec.tuple (ts.codec tgt .util)
  | .structNamed ts => deriveStructNamed (ts.codec tgt .field)
  | .structTuple ts => deriveStructTuple (ts.codec tgt .field)
  | .structUnit => deriveStructUnit
  | .enum name .nil => deriveEnumEmpty name
  | .enum _ (.cons name fields vs) =>
      deriveEnum tgt.toPlatform (.cons name (fields.codec tgt) (vs.codec tgt))

def Tys.codec (tgt : Target) (style : BlockStyle) : (ts : Tys) → FieldsCodec (ts.Vals tgt)
  | .nil => .nil
  | .cons t ts => .cons tgt.toPlatform style (t.codec tgt) (ts.codec tgt style)

def Variants.codec (tgt : Target) : (vs : Variants) → VariantsCodec (vs.Vals tgt)
  | .nil => .nil
  | .cons name fields vs => .cons name (fields.codec tgt) (vs.codec tgt)

def VariantFields.codec (tgt : Target) : (fields : VariantFields) → ArmCodec (fields.Vals tgt)
  | .unit => unitArm
  | .tuple ts => fieldsArm (ts.codec tgt .field)
  | .named ts => fieldsArm (ts.codec tgt .field)

end

end Codec
end Wormhole
