import Wormhole.Codec.Block

/-!
# `Codec.Grammar` — what the decoders do to arbitrary bytes, as a grammar

For every type three byte languages, defined on the bytes alone, with no decoder and no machine
arithmetic: the strings that are accepted, and the two kinds of strings that a decoder cannot cope with.
A string is *overlong* (a fault of kind `offset`) when, after a run of accepted blocks, there stands a
length header that fits `usize` although the end of its block does not, or a block that is itself
overlong. It is *oversized* (kind `capacity`) when a count, or the growth to hold one element more, asks for
more than `isize::MAX` bytes.

`language` is what an implementation really does; `Codec.Language` shows constructor by constructor that
it is the grammar, and `Codec.Overflow` puts these together for the universe.
-/

namespace Wormhole
namespace Codec

open LittleEndian

/-! ## Grammars -/

/-- The accepted and the faulty byte strings of a type. -/
structure Grammar where
  accepts : Bytes → Prop
  faults : Fault → Bytes → Prop

/-- A list of fields reads from an offset to an offset. -/
structure FieldsGrammar where
  reads : Bytes → Nat → Nat → Prop
  faults : Fault → Bytes → Nat → Prop

/-- The payloads that go with a variant name. -/
structure VariantsGrammar where
  accepts : String → Bytes → Prop
  faults : Fault → String → Bytes → Prop

/-- What an implementation does with bytes: it succeeds, or it panics. -/
def ContextTransmaterializable.language {α : Type} (T : ContextTransmaterializable α) : Grammar where
  accepts b := ∃ v, T.rematerialize b = .ok v
  faults k b := (T.rematerialize b).Faults k

/-- What the decoder of fields reads from an offset, and where it panics. -/
def FieldsCodec.language {α : Type} (F : FieldsCodec α) : FieldsGrammar where
  reads data offset stop := ∃ v, F.deserialize data offset = .ok (v, stop)
  faults k data offset := (F.deserialize data offset).Faults k

def ArmCodec.language {α : Type} (A : ArmCodec α) : Grammar where
  accepts b := ∃ v, A.deserialize b = .ok v
  faults k b := (A.deserialize b).Faults k

/-- What the arms of an enum accept under a name, and where they panic. -/
def VariantsCodec.language {α : Type} (V : VariantsCodec α) : VariantsGrammar where
  accepts name b := ∃ v, V.deserialize name b = .ok v
  faults k name b := (V.deserialize name b).Faults k

/-- `g` and `h` agree on byte strings of at most `n` bytes. -/
def Grammar.Same (n : Nat) (g h : Grammar) : Prop :=
  ∀ b, b.length ≤ n → (g.accepts b ↔ h.accepts b) ∧ ∀ k, g.faults k b ↔ h.faults k b

/-- Equality of two grammars of fields, on data of at most `n` bytes. -/
def FieldsGrammar.Same (n : Nat) (g h : FieldsGrammar) : Prop :=
  ∀ data offset, data.length ≤ n → offset ≤ data.length →
    (∀ stop, g.reads data offset stop ↔ h.reads data offset stop) ∧
      ∀ k, g.faults k data offset ↔ h.faults k data offset

def VariantsGrammar.Same (n : Nat) (g h : VariantsGrammar) : Prop :=
  ∀ name b, b.length ≤ n →
    (g.accepts name b ↔ h.accepts name b) ∧ ∀ k, g.faults k name b ↔ h.faults k name b

/-! ## The constructors -/

/-- A type without length headers: the encodings of its values, and no faults. -/
def leafGrammar {α : Type} (enc : α → Bytes) : Grammar where
  accepts b := ∃ v, b = enc v
  faults _ _ := False

/-- `Vec<u8>` and `String`. -/
def wholeGrammar (usizeSize : Nat) (valid : Bytes → Prop) : Grammar where
  accepts b := ∃ bytes, b = block bytes ∧ valid bytes
  faults k b := k = .offset ∧ HeaderOverflows usizeSize b 0

/-- The header of `Vec<T>`: a count that fits `usize`. -/
def CountHeader (usizeSize : Nat) (data : Bytes) : Prop :=
  8 ≤ data.length ∧ headerAt data 0 < usizeSize

/-- Accepted elements that a vector which was made for `count` elements has, or finds, room for. -/
def Elements (isizeMax size count : Nat) (g : Grammar) (bs : List Bytes) : Prop :=
  capacityAfter size count 0 bs.length * size ≤ isizeMax ∧ ∀ b ∈ bs, g.accepts b

/-- What goes wrong in the block at `offset` of a vector that needs the given capacity to hold its element. -/
def BadElement (usizeSize isizeMax size : Nat) (g : Grammar) (k : Fault) (data : Bytes)
    (offset capacity : Nat) : Prop :=
  k = .offset ∧ HeaderOverflows usizeSize data offset ∨
    ∃ b, BlockAt data offset b ∧
      (g.faults k b ∨ g.accepts b ∧ k = .capacity ∧ isizeMax < capacity * size)

/-- `Vec<T>` with elements of `size` bytes. The count header only has to fit `usize` and the allocator. -/
def vecGrammar (usizeSize isizeMax size : Nat) (g : Grammar) : Grammar where
  accepts data := CountHeader usizeSize data ∧ headerAt data 0 * size ≤ isizeMax ∧
    ∃ bs, data.drop 8 = blocks bs ∧ Elements isizeMax size (headerAt data 0) g bs
  faults k data := CountHeader usizeSize data ∧
    (k = .capacity ∧ isizeMax < headerAt data 0 * size ∨
      headerAt data 0 * size ≤ isizeMax ∧
        ∃ bs rest, data.drop 8 = blocks bs ++ rest ∧ Elements isizeMax size (headerAt data 0) g bs ∧
          BadElement usizeSize isizeMax size g k data (8 + (blocks bs).length)
            (capacityAfter size (headerAt data 0) 0 (bs.length + 1)))

/-- Behind a discriminant: a block that fills the rest of the buffer, its header taken modulo `usize`. -/
def TaggedBlock (usizeSize : Nat) (data : Bytes) : Prop :=
  9 ≤ data.length ∧ data.length = 9 + headerAt data 1 % usizeSize

/-- Behind a discriminant: a header whose block ends beyond `usize`. -/
def TaggedOverflows (usizeSize : Nat) (data : Bytes) : Prop :=
  9 ≤ data.length ∧ usizeSize ≤ 9 + headerAt data 1 % usizeSize

/-- `Option<T>`. -/
def optionGrammar (usizeSize : Nat) (g : Grammar) : Grammar where
  accepts data :=
    data = [0] ∨ data[0]? = some 1 ∧ TaggedBlock usizeSize data ∧ g.accepts (data.drop 9)
  faults k data := data[0]? = some 1 ∧
    (k = .offset ∧ TaggedOverflows usizeSize data ∨
      TaggedBlock usizeSize data ∧ g.faults k (data.drop 9))

/-- `Result<T, E>`. The length is read before the discriminant is looked at. -/
def resultGrammar (usizeSize : Nat) (g e : Grammar) : Grammar where
  accepts data := TaggedBlock usizeSize data ∧
    (data[0]? = some 0 ∧ g.accepts (data.drop 9) ∨ data[0]? = some 1 ∧ e.accepts (data.drop 9))
  faults k data :=
    k = .offset ∧ TaggedOverflows usizeSize data ∨
      TaggedBlock usizeSize data ∧
        (data[0]? = some 0 ∧ g.faults k (data.drop 9) ∨ data[0]? = some 1 ∧ e.faults k (data.drop 9))

def FieldsGrammar.nil : FieldsGrammar where
  reads _ offset stop := stop = offset
  faults _ _ _ := False

/-- A field and those behind it. A fault of a later field counts only if this one is accepted. -/
def FieldsGrammar.cons (usizeSize : Nat) (g : Grammar) (rest : FieldsGrammar) : FieldsGrammar where
  reads data offset stop := ∃ b, BlockAt data offset b ∧ g.accepts b ∧
    rest.reads data (offset + 8 + b.length) stop
  faults k data offset :=
    k = .offset ∧ HeaderOverflows usizeSize data offset ∨
      ∃ b, BlockAt data offset b ∧
        (g.faults k b ∨ g.accepts b ∧ rest.faults k data (offset + 8 + b.length))

/-- A list of fields that is the whole buffer. -/
def fieldsGrammar (F : FieldsGrammar) : Grammar where
  accepts data := F.reads data 0 data.length
  faults k data := F.faults k data 0

def VariantsGrammar.nil : VariantsGrammar where
  accepts _ _ := False
  faults _ _ _ := False

/-- The first variant with the name decides. -/
def VariantsGrammar.cons (variantName : String) (g : Grammar) (rest : VariantsGrammar) :
    VariantsGrammar where
  accepts name b := if name = variantName then g.accepts b else rest.accepts name b
  faults k name b := if name = variantName then g.faults k b else rest.faults k name b

/-- A variant name and a payload, each a block. -/
def enumGrammar (usizeSize : Nat) (V : VariantsGrammar) : Grammar where
  accepts data := ∃ name payload, BlockAt data 0 (asBytes name) ∧
    BlockAt data (8 + (asBytes name).length) payload ∧
    data.length = 8 + (asBytes name).length + 8 + payload.length ∧ V.accepts name payload
  faults k data :=
    k = .offset ∧ HeaderOverflows usizeSize data 0 ∨
      ∃ name, BlockAt data 0 (asBytes name) ∧
        (k = .offset ∧ HeaderOverflows usizeSize data (8 + (asBytes name).length) ∨
          ∃ payload, BlockAt data (8 + (asBytes name).length) payload ∧ V.faults k name payload)

/-! ## The universe -/

/-- `b` is the UTF-8 encoding of a string. -/
def IsUtf8 (b : Bytes) : Prop := ∃ s, b = asBytes s

mutual

/-- The grammar of a type. -/
def Ty.grammar (tgt : Target) : Ty → Grammar
  | .num k => leafGrammar (Ty.wire tgt (.num k))
  | .usize => leafGrammar (Ty.wire tgt .usize)
  | .isize => leafGrammar (Ty.wire tgt .isize)
  | .bool => leafGrammar boolWire
  | .unit => leafGrammar fun _ : Unit => []
  | .string => wholeGrammar tgt.usizeSize IsUtf8
  | .bytes => wholeGrammar tgt.usizeSize fun _ => True
  | .vec t => vecGrammar tgt.usizeSize tgt.isizeMax (tgt.sizeOf t) (t.grammar tgt)
  | .option t => optionGrammar tgt.usizeSize (t.grammar tgt)
  | .result t e => resultGrammar tgt.usizeSize (t.grammar tgt) (e.grammar tgt)
  | .tuple ts => fieldsGrammar (ts.grammar tgt)
  | .structNamed ts => fieldsGrammar (ts.grammar tgt)
  | .structTuple ts => fieldsGrammar (ts.grammar tgt)
  | .structUnit => leafGrammar fun _ : Unit => []
  | .enum _ .nil => leafGrammar (Empty.elim : Empty → Bytes)
  | .enum _ (.cons name fields vs) =>
      enumGrammar tgt.usizeSize (.cons name (fields.grammar tgt) (vs.grammar tgt))

def Tys.grammar (tgt : Target) : Tys → FieldsGrammar
  | .nil => .nil
  | .cons t ts => .cons tgt.usizeSize (t.grammar tgt) (ts.grammar tgt)

def Variants.grammar (tgt : Target) : Variants → VariantsGrammar
  | .nil => .nil
  | .cons name fields vs => .cons name (fields.grammar tgt) (vs.grammar tgt)

def VariantFields.grammar (tgt : Target) : VariantFields → Grammar
  | .unit => leafGrammar fun _ : Unit => []
  | .tuple ts => fieldsGrammar (ts.grammar tgt)
  | .named ts => fieldsGrammar (ts.grammar tgt)

end

/-- A decoder of the type cannot cope with the bytes: the end of some block it has to look at is not a
    `usize`. -/
def Ty.Overlong (tgt : Target) (t : Ty) (b : Bytes) : Prop := (t.grammar tgt).faults .offset b

/-- Some capacity that the bytes ask for, by a count or by one element more than a vector has room for, is larger
    than `isize::MAX` bytes. -/
def Ty.Oversized (tgt : Target) (t : Ty) (b : Bytes) : Prop := (t.grammar tgt).faults .capacity b

end Codec
end Wormhole
