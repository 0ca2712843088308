import Wormhole.Codec.Language
import Wormhole.Codec.RoundTrip
import Wormhole.Codec.Overflow

/-!
# `Codec.Canonical` — which accepted byte strings are encodings

On a 64-bit target every header, discriminant and length of an accepted string is determined by the value
it decodes to, except one: the count header of `Vec<T>`, which the decoder uses as a capacity and never
compares with the number of elements. `CountsExact` says that these headers are right, at every depth, and
an accepted string is the encoding of its value exactly then.
-/

namespace Wormhole
namespace Codec

open LittleEndian

/-! ## Exact counts -/

/-- `Vec<T>`: the count header is the number of elements that follow. -/
def vecExact (exact : Bytes → Prop) (data : Bytes) : Prop :=
  ∃ bs, data = toLeBytes 8 bs.length ++ blocks bs ∧ ∀ b ∈ bs, exact b

/-- A `Some` is exact if it is an encoded block, with a length that is that of the rest, and its inner bytes are
    exact. A `None` is the one byte 0. -/
def optionExact (exact : Bytes → Prop) (data : Bytes) : Prop :=
  data = [0] ∨ ∃ inner, data = 1 :: block inner ∧ exact inner

/-- As `optionExact`, with a byte for each of the two sides and no side without a payload. -/
def resultExact (exact exactErr : Bytes → Prop) (data : Bytes) : Prop :=
  ∃ inner, data = 0 :: block inner ∧ exact inner ∨ data = 1 :: block inner ∧ exactErr inner

/-- One field at `offset`, then the rest. -/
def consExact (exact : Bytes → Prop) (rest : Bytes → Nat → Prop) (data : Bytes) (offset : Nat) : Prop :=
  ∃ b, BlockAt data offset b ∧ exact b ∧ rest data (offset + 8 + b.length)

/-- A variant is two blocks, and of these only the payload can be inexact. -/
def enumExact (exact : String → Bytes → Prop) (data : Bytes) : Prop :=
  ∃ name payload, BlockAt data 0 (asBytes name) ∧ BlockAt data (8 + (asBytes name).length) payload ∧
    exact name payload

mutual

/-- Every count header of a `Vec<T>` in the bytes is the number of its elements. -/
def Ty.CountsExact : Ty → Bytes → Prop
  | .num _, _ | .usize, _ | .isize, _ | .bool, _ | .unit, _ | .string, _ | .bytes, _ | .structUnit, _ => True
  | .vec t, data => vecExact t.CountsExact data
  | .option t, data => optionExact t.CountsExact data
  | .result t e, data => resultExact t.CountsExact e.CountsExact data
  | .tuple ts, data => ts.CountsExact data 0
  | .structNamed ts, data => ts.CountsExact data 0
  | .structTuple ts, data => ts.CountsExact data 0
  | .enum _ vs, data => enumExact vs.CountsExact data

def Tys.CountsExact : Tys → Bytes → Nat → Prop
  | .nil, _, _ => True
  | .cons t ts, data, offset => consExact t.CountsExact ts.CountsExact data offset

def Variants.CountsExact : Variants → String → Bytes → Prop
  | .nil, _, _ => True
  | .cons name fields vs, name', payload =>
      if name' = name then fields.CountsExact payload else vs.CountsExact name' payload

def VariantFields.CountsExact : VariantFields → Bytes → Prop
  | .unit, _ => True
  | .tuple ts, payload => ts.CountsExact payload 0
  | .named ts, payload => ts.CountsExact payload 0

end

/-! ## Blocks are determined by their bytes -/

/-- A block determines its payload, whatever the length in its header came to: the header is eight bytes. -/
theorem block_inj {a b : Bytes} (h : block a = block b) : a = b := by
  have := congrArg (List.drop 8) h
  rwa [block, block, List.drop_left' (length_toLeBytes 8 _), List.drop_left' (length_toLeBytes 8 _)] at this

/-- The length in the header says where the payload ends, as long as it fits the header. -/
theorem block_append_inj {a b as bs : Bytes} (ha : a.length < 256 ^ 8) (hb : b.length < 256 ^ 8)
    (h : block a ++ as = block b ++ bs) : a = b ∧ as = bs := by
  rw [block, block, List.append_assoc, List.append_assoc] at h
  obtain ⟨hhead, hrest⟩ := List.append_inj h (by simp)
  have hlen := toLeBytes_inj ha hb hhead
  exact List.append_inj hrest hlen

/-- The elements of a vector can be read off their blocks: there is one way to cut a string into blocks. -/
theorem blocks_inj {as bs : List Bytes} (ha : ∀ a ∈ as, a.length < 256 ^ 8)
    (hb : ∀ b ∈ bs, b.length < 256 ^ 8) (h : blocks as = blocks bs) : as = bs := by
  induction as generalizing bs with
  | nil => exact (blocks_eq_nil h.symm).symm
  | cons a as ih =>
    cases bs with
    | nil => exact absurd (blocks_eq_nil h) (by simp)
    | cons b bs =>
      rw [List.forall_mem_cons] at ha hb
      obtain ⟨rfl, hrest⟩ := block_append_inj ha.1 hb.1 h
      rw [ih ha.2 hb.2 hrest]

/-- The decoders have no choice: at an offset stands at most one block. -/
theorem blockAt_unique {data a b : Bytes} {offset n : Nat} (hn : data.length ≤ n) (hmax : n < 256 ^ 8)
    (ha : BlockAt data offset a) (hb : BlockAt data offset b) : a = b := by
  have ha' := ha.2
  have hb' := hb.2
  exact (block_append_inj (by omega) (by omega) (ha.1.symm.trans hb.1)).1

theorem Platform.isizeMax_lt (p : Platform) : p.isizeMax < 256 ^ 8 := by
  have := p.isizeMax_add_lt
  have := p.usizeSize_le
  omega

/-! ## Accepted strings and encodings -/

section Canonical

variable {p : Platform} {α β : Type}

/-- An accepted string is the encoding of its value exactly if it satisfies `exact`. -/
def Canonical (p : Platform) (T : ContextTransmaterializable α) (enc : α → Bytes)
    (exact : Bytes → Prop) : Prop :=
  ∀ {b v}, b.length ≤ p.isizeMax → T.rematerialize b = .ok v → (enc v = b ↔ exact b)

/-- `Canonical` of the fields from an offset on. What follows the fields is left over on both sides. -/
def FieldsCanonical (p : Platform) (F : FieldsCodec α) (enc : α → Bytes)
    (exact : Bytes → Nat → Prop) : Prop :=
  ∀ {data offset v stop}, data.length ≤ p.isizeMax → offset ≤ data.length →
    F.deserialize data offset = .ok (v, stop) →
    stop ≤ data.length ∧ (enc v ++ data.drop stop = data.drop offset ↔ exact data offset)

/-- `Canonical` of the payload of a variant. -/
def ArmCanonical (p : Platform) (A : ArmCodec α) (enc : α → Bytes) (exact : Bytes → Prop) : Prop :=
  ∀ {b v}, b.length ≤ p.isizeMax → A.deserialize b = .ok v → (enc v = b ↔ exact b)

/-- `Canonical` of the variants behind the name, which is compared as well. -/
def VariantsCanonical (p : Platform) (V : VariantsCodec α) (enc : α → String × Bytes)
    (exact : String → Bytes → Prop) : Prop :=
  ∀ {name b v}, b.length ≤ p.isizeMax → V.deserialize name b = .ok v →
    (enc v = (name, b) ↔ exact name b)

variable {T : ContextTransmaterializable α} {enc : α → Bytes} {exact : Bytes → Prop}
  {E : ContextTransmaterializable β} {encErr : β → Bytes} {exactErr : Bytes → Prop}

/-- A leaf accepts the encodings of its values only. -/
theorem canonical_leaf (h : ∀ {b v}, b.length < p.usizeSize → (T.rematerialize b = .ok v ↔ b = enc v)) :
    Canonical p T enc fun _ => True := fun hle hok => by
  have := p.isizeMax_add_lt
  exact iff_of_true ((h (by omega)).mp hok).symm trivial

/-- Element by element: the encodings are the blocks that were read exactly if each block is exact. -/
theorem map_eq_of_decodes (hT : Canonical p T enc exact) {bs : List Bytes} {es : List α}
    (hmax : ∀ b ∈ bs, b.length ≤ p.isizeMax) (hdec : Decodes T bs es) :
    es.map enc = bs ↔ ∀ b ∈ bs, exact b := by
  induction hdec with
  | nil => simp
  | cons he _ ih =>
    rw [List.forall_mem_cons] at hmax
    rw [List.map_cons, List.cons_eq_cons, List.forall_mem_cons, hT hmax.1 he, ih hmax.2]

/-- A vector is its encoding exactly if the count is the number of the elements, and each of them is exact.
    Nothing in the decoder compares the count with the elements: it ends where the data end. -/
theorem vec_canonical {size : Nat} (hT : Canonical p T enc exact) :
    Canonical p (vec p size T) (vecWire enc) (vecExact exact) := by
  intro data v hle hok
  obtain ⟨hhead, -, -, bs, hbs, hdec⟩ := (vec_rematerialize_eq_ok (p.lt_usizeSize hle)).mp hok
  have hmax := p.isizeMax_lt
  have hdata : data = toLeBytes 8 (headerAt data 0) ++ blocks bs := by
    rw [← hbs]; exact drop_eq_header_append data 0 (by have := hhead.1; omega)
  have hlen : (blocks bs).length + 8 = data.length := by
    rw [← hbs, List.length_drop]; have := hhead.1; omega
  have hsmall : ∀ cs : List Bytes, (blocks cs).length ≤ data.length → ∀ c ∈ cs, c.length ≤ p.isizeMax :=
    fun cs hcs c hc => by have := length_le_of_mem_blocks hc; omega
  have hunique : ∀ {cs : List Bytes}, blocks cs = blocks bs → cs = bs := fun {cs} h => by
    refine blocks_inj (fun c hc => ?_) (fun c hc => ?_) h
    · have := hsmall cs (by rw [h]; omega) c hc; omega
    · have := hsmall bs (by omega) c hc; omega
  have hmap := map_eq_of_decodes hT (hsmall bs (by omega)) hdec
  rw [vecWire, vecExact]
  constructor
  · intro h
    obtain ⟨hcount, hblocks⟩ := List.append_inj (h.trans hdata) (by simp)
    have hmapped := hunique hblocks
    refine ⟨bs, ?_, hmap.mp hmapped⟩
    rw [← h, hmapped, ← hmapped, List.length_map]
  · rintro ⟨cs, hcs, hexact⟩
    obtain ⟨hcount, hblocks⟩ := List.append_inj (hcs.symm.trans hdata) (by simp)
    obtain rfl := hunique hblocks
    rw [hmap.mpr hexact, hcs, hdec.length_eq]

/-- On a 64-bit target the cast of the header is exact, so the block behind a discriminant is determined. -/
theorem eq_cons_block (h64 : p.bits = 64) {data : Bytes} {d : UInt8} (hd : data[0]? = some d)
    (hblock : TaggedBlock p.usizeSize data) : data = d :: block (data.drop 9) := by
  obtain ⟨h9, hlen⟩ := hblock
  have hsize : p.usizeSize = 256 ^ 8 := by rw [Platform.usizeSize, h64]; norm_num
  have hhead : headerAt data 1 < 256 ^ 8 := by
    have := fromLeBytes_lt ((data.drop 1).take 8)
    rwa [length_take_drop_eight data 1 (by omega)] at this
  rw [hsize, Nat.mod_eq_of_lt hhead] at hlen
  cases data with
  | nil => simp at h9
  | cons x rest =>
    obtain rfl := Option.some.inj hd
    have hcount : ((x :: rest).drop 9).length = headerAt (x :: rest) 1 := by rw [List.length_drop]; omega
    rw [block, hcount]
    congr 1
    exact drop_eq_header_append (x :: rest) 1 (by omega)

/-- What `Option` and `Result` share: a byte in front of one block. -/
theorem tagged_wire_eq_iff {data w : Bytes} {d : UInt8} (hdata : data = d :: block (data.drop 9))
    (hw : w = data.drop 9 ↔ exact (data.drop 9)) :
    d :: block w = data ↔ ∃ inner, data = d :: block inner ∧ exact inner := by
  constructor
  · intro h
    exact ⟨data.drop 9, hdata, hw.mp (block_inj (List.cons.inj (h.trans hdata)).2)⟩
  · rintro ⟨inner, hin, hexact⟩
    have hdrop : inner = data.drop 9 := block_inj (List.cons.inj (hin.symm.trans hdata)).2
    rw [hw.mpr (hdrop ▸ hexact)]
    exact hdata.symm

/-- With 64 bits the length is read without loss, so a `Some` has the header of its encoding. -/
theorem option_canonical (h64 : p.bits = 64) (hT : Canonical p T enc exact) :
    Canonical p (option p T) (optionWire enc) (optionExact exact) := by
  intro data v hle hok
  rcases (option_rematerialize_eq_ok (p.lt_usizeSize hle)).mp hok with ⟨rfl, rfl⟩ | ⟨hone, hblock, w, hw, rfl⟩
  · exact iff_of_true rfl (.inl rfl)
  · have hne : data ≠ [0] := by rintro rfl; simp at hone
    rw [optionExact, or_iff_right hne]
    exact tagged_wire_eq_iff (eq_cons_block h64 hone hblock) (hT (by rw [List.length_drop]; omega) hw)

theorem result_canonical (h64 : p.bits = 64) (hT : Canonical p T enc exact)
    (hE : Canonical p E encErr exactErr) :
    Canonical p (result p T E) (resultWire enc encErr) (resultExact exact exactErr) := by
  intro data v hle hok
  have hdrop : (data.drop 9).length ≤ p.isizeMax := by rw [List.length_drop]; omega
  obtain ⟨hblock, ⟨htag, w, hw, rfl⟩ | ⟨htag, e, he, rfl⟩⟩ := (result_rematerialize_eq_ok (p.lt_usizeSize hle)).mp hok
  · have hne : ∀ {inner}, data ≠ 1 :: block inner := by rintro inner rfl; simp at htag
    refine (tagged_wire_eq_iff (eq_cons_block h64 htag hblock) (hT hdrop hw)).trans ?_
    exact exists_congr fun inner => (or_iff_left fun h => hne h.1).symm
  · have hne : ∀ {inner}, data ≠ 0 :: block inner := by rintro inner rfl; simp at htag
    refine (tagged_wire_eq_iff (eq_cons_block h64 htag hblock) (hE hdrop he)).trans ?_
    exact exists_congr fun inner => (or_iff_right fun h => hne h.1).symm

/-! ## Field lists and enums -/

theorem nil_canonical : FieldsCanonical p .nil (fun _ => []) fun _ _ => True := by
  intro data offset v stop _ hoff hok
  obtain rfl : offset = stop := (Prod.mk.inj (Res.ok.inj hok)).2
  exact ⟨hoff, iff_of_true rfl trivial⟩

/-- The next field is a block, and the rest starts where it ends. Here the encodings are compared together
    with what is left over, and `block_append_inj` takes them apart. -/
theorem cons_canonical {style : BlockStyle} {G : FieldsCodec β} {encRest : β → Bytes}
    {exactRest : Bytes → Nat → Prop} (hT : Canonical p T enc exact)
    (hG : FieldsCanonical p G encRest exactRest) :
    FieldsCanonical p (.cons p style T G) (fun v => block (enc v.1) ++ encRest v.2)
      (consExact exact exactRest) := by
  intro data offset v stop hle hoff hok
  obtain ⟨b, hblock, hb, hrest⟩ := (cons_deserialize_eq_ok (p.lt_usizeSize hle) hoff).mp hok
  have hmax := p.isizeMax_lt
  have hend := hblock.2
  obtain ⟨hstop, hrest⟩ := hG hle hend hrest
  have hfield := hT (hblock.length_le hle) hb
  refine ⟨hstop, ?_⟩
  rw [List.append_assoc]
  constructor
  · intro h
    have hlen := congrArg List.length h
    simp only [List.length_append, length_block, List.length_drop] at hlen
    obtain ⟨h1, h2⟩ := block_append_inj (by omega) (by omega) (h.trans hblock.1)
    exact ⟨b, hblock, hfield.mp h1, hrest.mp h2⟩
  · rintro ⟨b', hblock', hexact, hexactRest⟩
    obtain rfl := blockAt_unique hle hmax hblock hblock'
    rw [hfield.mpr hexact, hrest.mpr hexactRest]
    exact hblock.1.symm

/-- Once the whole string is read nothing is left over. -/
theorem fields_canonical {F : FieldsCodec α} {exactAt : Bytes → Nat → Prop}
    (hF : FieldsCanonical p F enc exactAt) {data : Bytes} {v : α} (hle : data.length ≤ p.isizeMax)
    (hok : F.deserialize data 0 = .ok (v, data.length)) : enc v = data ↔ exactAt data 0 := by
  have := (hF hle (Nat.zero_le _) hok).2
  rwa [List.drop_length, List.append_nil, List.drop_zero] at this

/-- A type without values accepts nothing. -/
theorem empty_canonical (T : ContextTransmaterializable Empty) {enc : Empty → Bytes} :
    Canonical p T enc exact := by
  intro _ v
  exact v.elim

theorem variantsNil_canonical {V : VariantsCodec Empty} {enc : Empty → String × Bytes}
    {exact : String → Bytes → Prop} : VariantsCanonical p V enc exact := by
  intro _ _ v
  exact v.elim

/-- One variant more. The names need not differ: the decoder takes the first arm with the name, and so does
    the condition. -/
theorem variantsCons_canonical {name : String} {A : ArmCodec α} {V : VariantsCodec β}
    {encRest : β → String × Bytes} {exactRest : String → Bytes → Prop} (hA : ArmCanonical p A enc exact)
    (hV : VariantsCanonical p V encRest exactRest) :
    VariantsCanonical p (.cons name A V) (sumWire name enc encRest)
      (fun name' payload => if name' = name then exact payload else exactRest name' payload) := by
  intro name' b v hle hok
  by_cases heq : name' = name
  · subst heq
    simp only [VariantsCodec.cons, if_true, Res.wrap_eq_ok] at hok ⊢
    obtain ⟨w, hw, rfl⟩ := hok
    rw [← hA hle hw]
    simp [sumWire]
  · simp only [VariantsCodec.cons, if_neg heq, Res.wrap_eq_ok] at hok ⊢
    obtain ⟨w, hw, rfl⟩ := hok
    exact hV hle hw

/-- A string can be read off its UTF-8 bytes. -/
theorem asBytes_inj {s t : String} (h : asBytes s = asBytes t) : s = t := by
  have := congrArg fromUtf8 h
  rw [fromUtf8_eq_ok.mpr rfl, fromUtf8_eq_ok.mpr rfl] at this
  exact Res.ok.inj this

/-- An enum is its encoding exactly if the payload is that of its variant. -/
theorem enum_canonical {V : VariantsCodec α} {encV : α → String × Bytes}
    {exactV : String → Bytes → Prop} (hV : VariantsCanonical p V encV exactV) :
    Canonical p (deriveEnum p V) (fun v => variantWire (encV v)) (enumExact exactV) := by
  intro data v hle hok
  obtain ⟨name, payload, hname, hpayload, hlen, hv⟩ := (deriveEnum_rematerialize_eq_ok (p.lt_usizeSize hle)).mp hok
  have hmax := p.isizeMax_lt
  have hwire : data = block (asBytes name) ++ block payload := by
    have h1 := hname.1
    have h2 := hpayload.1
    rw [Nat.zero_add, List.drop_zero] at h1
    rw [← hlen, List.drop_length, List.append_nil] at h2
    rw [h1, h2]
  have hiff := hV (hpayload.length_le hle) hv
  constructor
  · intro h
    have hlen' := congrArg List.length h
    simp only [variantWire, List.length_append, length_block] at hlen'
    obtain ⟨h1, h2⟩ := block_append_inj (by omega) (by omega) (h.trans hwire)
    exact ⟨name, payload, hname, hpayload, hiff.mp (Prod.ext (asBytes_inj h1) (block_inj h2))⟩
  · rintro ⟨name', payload', hname', hpayload', hexact⟩
    obtain rfl := asBytes_inj (blockAt_unique hle hmax hname hname')
    obtain rfl := blockAt_unique hle hmax hpayload hpayload'
    show variantWire (encV v) = data
    rw [hiff.mpr hexact, hwire, variantWire]

end Canonical

/-! ## The universe -/

mutual

/-- **An accepted string is the encoding of its value exactly if its counts are.** -/
theorem Ty.canonical (tgt : Target) (h64 : tgt.bits = 64) : ∀ t : Ty,
    Canonical tgt.toPlatform (t.codec tgt) (t.wire tgt) t.CountsExact
  | .num _ => canonical_leaf fun _ => leBytes_rematerialize_eq_ok
  | .usize => canonical_leaf fun _ => usize_rematerialize_eq_ok
  | .isize => canonical_leaf fun _ => isize_rematerialize_eq_ok
  | .bool => canonical_leaf fun _ => bool_rematerialize_eq_ok
  | .unit => canonical_leaf fun _ => unit_rematerialize_eq_ok
  | .string => canonical_leaf string_rematerialize_eq_ok
  | .bytes => canonical_leaf vecU8_rematerialize_eq_ok
  | .vec t => vec_canonical (Ty.canonical tgt h64 t)
  | .option t => option_canonical h64 (Ty.canonical tgt h64 t)
  | .result t e => result_canonical h64 (Ty.canonical tgt h64 t) (Ty.canonical tgt h64 e)
  | .tuple ts => fun hle hok =>
      fields_canonical (Tys.canonical tgt h64 .util ts) hle (tuple_rematerialize_eq_ok.mp hok)
  | .structNamed ts => fun hle hok =>
      fields_canonical (Tys.canonical tgt h64 .field ts) hle
        (deriveStructNamed_rematerialize_eq_ok.mp hok)
  | .structTuple ts => fun hle hok =>
      fields_canonical (Tys.canonical tgt h64 .field ts) hle
        (deriveStructNamed_rematerialize_eq_ok.mp hok)
  | .structUnit => canonical_leaf fun _ => deriveStructUnit_rematerialize_eq_ok
  | .enum name .nil => empty_canonical (deriveEnumEmpty name)
  | .enum _ (.cons name fields vs) => enum_canonical (Variants.canonical tgt h64 (.cons name fields vs))

/-- Field by field. -/
theorem Tys.canonical (tgt : Target) (h64 : tgt.bits = 64) (style : BlockStyle) : ∀ ts : Tys,
    FieldsCanonical tgt.toPlatform (ts.codec tgt style) (ts.wire tgt) ts.CountsExact
  | .nil => nil_canonical
  | .cons t ts => cons_canonical (Ty.canonical tgt h64 t) (Tys.canonical tgt h64 style ts)

/-- Variant by variant. -/
theorem Variants.canonical (tgt : Target) (h64 : tgt.bits = 64) : ∀ vs : Variants,
    VariantsCanonical tgt.toPlatform (vs.codec tgt) (vs.wire tgt) vs.CountsExact
  | .nil => variantsNil_canonical
  | .cons name fields vs => by
      rw [Variants.wire_cons]
      exact variantsCons_canonical (VariantFields.canonical tgt h64 fields) (Variants.canonical tgt h64 vs)

theorem VariantFields.canonical (tgt : Target) (h64 : tgt.bits = 64) : ∀ fields : VariantFields,
    ArmCanonical tgt.toPlatform (fields.codec tgt) (fields.wire tgt) fields.CountsExact
  | .unit => fun _ hok => iff_of_true (unitArm_deserialize_eq_ok.mp hok).symm trivial
  | .tuple ts => fun hle hok =>
      fields_canonical (Tys.canonical tgt h64 .field ts) hle (fieldsArm_deserialize_eq_ok.mp hok)
  | .named ts => fun hle hok =>
      fields_canonical (Tys.canonical tgt h64 .field ts) hle (fieldsArm_deserialize_eq_ok.mp hok)

end

/-- **When decoding is canonical.** On a 64-bit target, re-encoding what a string decodes to gives the
    string back if and only if the string is not accepted at all, or all its counts are exact. -/
theorem immaterialize_rematerialize_iff (tgt : Target) (h64 : tgt.bits = 64) (t : WireTy) (b : tgt.Slice) :
    (∀ v, (t.ty.codec tgt).rematerialize b.1 = .ok v → (t.ty.codec tgt).immaterialize v = .ok b.1) ↔
      ((t.ty.grammar tgt).accepts b.1 → t.ty.CountsExact b.1) := by
  have himpl := t.ty.implements tgt t.compiles
  have hacc := (((t.ty.describes tgt).1 b.1 b.2).1)
  constructor
  · intro h ha
    obtain ⟨v, hv⟩ := hacc.mpr ha
    exact (t.ty.canonical tgt h64 b.2 hv).mp (himpl.sound (h v hv)).symm
  · intro h v hv
    have hwire := (t.ty.canonical tgt h64 b.2 hv).mpr (h (hacc.mp ⟨v, hv⟩))
    have := himpl.complete (v := v) (hwire ▸ b.2)
    rwa [hwire] at this

theorem immaterialize_rematerialize_iff_sixtyFour :
    (∀ v, ((Ty.vec (.num .u16)).codec (.sixtyFour true)).rematerialize [1, 0, 0, 0, 0, 0, 0, 0] = .ok v →
        ((Ty.vec (.num .u16)).codec (.sixtyFour true)).immaterialize v = .ok [1, 0, 0, 0, 0, 0, 0, 0]) ↔
      (((Ty.vec (.num .u16)).grammar (.sixtyFour true)).accepts [1, 0, 0, 0, 0, 0, 0, 0] →
        (Ty.vec (.num .u16)).CountsExact [1, 0, 0, 0, 0, 0, 0, 0]) :=
  immaterialize_rematerialize_iff (.sixtyFour true) rfl ⟨.vec (.num .u16), trivial⟩
    ⟨[1, 0, 0, 0, 0, 0, 0, 0], by decide⟩

/-- The header of the buffer counts five elements; there are none. -/
theorem count_not_checked :
    ∃ v, ((Ty.vec (.num .u16)).codec (.sixtyFour true)).rematerialize [5, 0, 0, 0, 0, 0, 0, 0] = .ok v ∧
      ((Ty.vec (.num .u16)).codec (.sixtyFour true)).immaterialize v ≠ .ok [5, 0, 0, 0, 0, 0, 0, 0] := by
  refine ⟨⟨[], by simp⟩, rfl, ?_⟩
  rw [show ((Ty.vec (.num .u16)).codec (.sixtyFour true)).immaterialize ⟨[], by simp⟩
    = .ok [0, 0, 0, 0, 0, 0, 0, 0] from rfl]
  decide

end Codec
end Wormhole
