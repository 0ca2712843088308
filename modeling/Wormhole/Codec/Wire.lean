import Wormhole.Codec.Universe

/-!
# `Codec.Wire` — the wire format as a total function

What the encoders are for: the byte string of a value, with no buffers, capacities or machine integers
in sight. `Ty.wire` is the format; `RoundTrip` shows that the implementations write and read it.
-/

namespace Wormhole
namespace Codec

open LittleEndian

/-- Elements or fields one after the other, each as a block. -/
def blocks (bs : List Bytes) : Bytes := bs.flatMap block

@[simp] theorem blocks_nil : blocks [] = [] := rfl
@[simp] theorem blocks_cons (b : Bytes) (bs : List Bytes) : blocks (b :: bs) = block b ++ blocks bs := rfl

/-- Every block carries a header of eight bytes. -/
theorem length_blocks (bs : List Bytes) : 8 * bs.length ≤ (blocks bs).length := by
  induction bs with
  | nil => simp
  | cons b bs ih => simp only [blocks_cons, List.length_append, length_block, List.length_cons]; omega

theorem length_le_of_mem_blocks {b : Bytes} {bs : List Bytes} (h : b ∈ bs) :
    b.length ≤ (blocks bs).length := by
  induction bs with
  | nil => exact absurd h (by simp)
  | cons c bs ih =>
    simp only [blocks_cons, List.length_append, length_block]
    rcases List.mem_cons.mp h with rfl | h
    · omega
    · have := ih h; omega

def boolWire : Bool → Bytes
  | true  => [1]
  | false => [0]

/-- `Vec<T>`: the number of elements, then the elements. -/
def vecWire {p : Platform} {size : Nat} {α : Type} (enc : α → Bytes) (v : RVec p size α) : Bytes :=
  toLeBytes 8 v.elems.length ++ blocks (v.elems.map enc)

/-- Elements that are nothing leave their headers. -/
theorem length_vecWire_nil {p : Platform} {size : Nat} {α : Type} (v : RVec p size α) :
    (vecWire (fun _ => []) v).length = 8 + 8 * v.elems.length := by
  have hblocks (es : List α) : (blocks (es.map fun _ => [])).length = 8 * es.length := by
    induction es with
    | nil => rfl
    | cons e es ih =>
      rw [List.map_cons, blocks_cons, List.length_append, ih, length_block, List.length_cons, List.length_nil]
      omega
  unfold vecWire
  rw [List.length_append, length_toLeBytes, hblocks]

/-- `Option<T>`: a discriminant, and the value as a block. -/
def optionWire {α : Type} (enc : α → Bytes) : Option α → Bytes
  | none   => [0]
  | some v => 1 :: block (enc v)

/-- `Result<T, E>`: a discriminant, and the value or error as a block. -/
def resultWire {α ε : Type} (enc : α → Bytes) (encErr : ε → Bytes) : Except ε α → Bytes
  | .ok v    => 0 :: block (enc v)
  | .error e => 1 :: block (encErr e)

/-- A variant: its name and its payload, each as a block. -/
def variantWire (variant : String × Bytes) : Bytes := block (asBytes variant.1) ++ block variant.2

/-- The name and payload of a value, from those of its variant. -/
def sumWire {α β : Type} (name : String) (enc : α → Bytes) (encRest : β → String × Bytes) : α ⊕ β → String × Bytes
  | .inl v => (name, enc v)
  | .inr w => encRest w

mutual

/-- The encoding of a value. -/
def Ty.wire (tgt : Target) : (t : Ty) → t.Val tgt → Bytes
  | .num k, v => toLeBytes k.sizeOf (BitVec.toNat v)
  | .usize, v => toLeBytes 8 (BitVec.toNat v)
  | .isize, v => toLeBytes 8 (BitVec.signExtend 64 v).toNat
  | .bool, v => boolWire v
  | .unit, _ => []
  | .string, s => block (asBytes s)
  | .bytes, v => block v
  | .vec t, v => vecWire (t.wire tgt) v
  | .option t, v => optionWire (t.wire tgt) v
  | .result t e, v => resultWire (t.wire tgt) (e.wire tgt) v
  | .tuple ts, v => ts.wire tgt v
  | .structNamed ts, v => ts.wire tgt v
  | .structTuple ts, v => ts.wire tgt v
  | .structUnit, _ => []
  | .enum _ vs, v => variantWire (vs.wire tgt v)

/-- The encoding of a list of fields. -/
def Tys.wire (tgt : Target) : (ts : Tys) → ts.Vals tgt → Bytes
  | .nil, _ => []
  | .cons t ts, v => block (t.wire tgt v.1) ++ ts.wire tgt v.2

/-- The name and the payload of a variant. -/
def Variants.wire (tgt : Target) : (vs : Variants) → vs.Vals tgt → String × Bytes
  | .nil, v => v.elim
  | .cons name fields _, .inl v => (name, fields.wire tgt v)
  | .cons _ _ vs, .inr w => vs.wire tgt w

/-- The payload of a variant. -/
def VariantFields.wire (tgt : Target) : (fields : VariantFields) → fields.Vals tgt → Bytes
  | .unit, _ => []
  | .tuple ts, v => ts.wire tgt v
  | .named ts, v => ts.wire tgt v

end

theorem Variants.wire_cons (tgt : Target) (name : String) (fields : VariantFields) (vs : Variants) :
    (Variants.cons name fields vs).wire tgt = sumWire name (fields.wire tgt) (vs.wire tgt) := by
  funext v
  cases v <;> rfl

end Codec
end Wormhole
