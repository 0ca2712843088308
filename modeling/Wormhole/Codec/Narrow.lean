import Wormhole.Codec.Canonical

/-!
# `Codec.Narrow` — the same bytes on a narrow and on a wide target

Two peers whose `usize` have different widths decode the same bytes. Where a length is converted with a
check, the narrow one rejects what it cannot represent. Behind the discriminants of `Option<T>` and
`Result<T, E>` the length is cast, so that the narrow peer reads the header modulo `2^bits` and the wide
one does not. `Ty.Portable` says that these headers have no higher bits and that the vectors fit the wide
target, at every depth; a string that the narrow target accepts means the same on the wide one exactly then.
-/

namespace Wormhole
namespace Codec

open LittleEndian

/-! ## The same value on two targets -/

/-- The same `Result`. -/
def SameResult {α α' ε ε' : Type} (R : α → α' → Prop) (S : ε → ε' → Prop) : Except ε α → Except ε' α' → Prop
  | .ok v, .ok w => R v w
  | .error e, .error f => S e f
  | _, _ => False

mutual

/-- The same value: the same numbers, and the same elements and fields in the same order. -/
def Ty.Same (tgt tgt' : Target) : (t : Ty) → t.Val tgt → t.Val tgt' → Prop
  | .num _, v, w => BitVec.toNat v = BitVec.toNat w
  | .usize, v, w => BitVec.toNat v = BitVec.toNat w
  | .isize, v, w => BitVec.toInt v = BitVec.toInt w
  | .bool, v, w => (v : Bool) = w
  | .unit, _, _ => True
  | .string, v, w => (v : String) = w
  | .bytes, v, w => (v : Bytes) = w
  | .vec t, v, w => List.Forall₂ (t.Same tgt tgt') v.elems w.elems
  | .option t, v, w => Option.Rel (t.Same tgt tgt') v w
  | .result t e, v, w => SameResult (t.Same tgt tgt') (e.Same tgt tgt') v w
  | .tuple ts, v, w => ts.Same tgt tgt' v w
  | .structNamed ts, v, w => ts.Same tgt tgt' v w
  | .structTuple ts, v, w => ts.Same tgt tgt' v w
  | .structUnit, _, _ => True
  | .enum _ vs, v, w => vs.Same tgt tgt' v w

def Tys.Same (tgt tgt' : Target) : (ts : Tys) → ts.Vals tgt → ts.Vals tgt' → Prop
  | .nil, _, _ => True
  | .cons t ts, v, w => t.Same tgt tgt' v.1 w.1 ∧ ts.Same tgt tgt' v.2 w.2

def Variants.Same (tgt tgt' : Target) : (vs : Variants) → vs.Vals tgt → vs.Vals tgt' → Prop
  | .nil, _, _ => True
  | .cons _ fields vs, v, w => Sum.LiftRel (fields.Same tgt tgt') (vs.Same tgt tgt') v w

def VariantFields.Same (tgt tgt' : Target) : (fields : VariantFields) → fields.Vals tgt → fields.Vals tgt' → Prop
  | .unit, _, _ => True
  | .tuple ts, v, w => ts.Same tgt tgt' v w
  | .named ts, v, w => ts.Same tgt tgt' v w

end

/-! ## Portable bytes -/

/-- `Vec<T>`: the count and the elements fit a vector of the wide target, which grows from the count. -/
def vecPortable (isizeMax size : Nat) (portable : Bytes → Prop) (data : Bytes) : Prop :=
  headerAt data 0 * size ≤ isizeMax ∧
    ∃ bs, data.drop 8 = blocks bs ∧ capacityAfter size (headerAt data 0) 0 bs.length * size ≤ isizeMax ∧
      ∀ b ∈ bs, portable b

/-- `Option<T>`: the header has no bits beyond the narrow `usize`. -/
def optionPortable (usizeSize : Nat) (portable : Bytes → Prop) (data : Bytes) : Prop :=
  data = [0] ∨ headerAt data 1 < usizeSize ∧ portable (data.drop 9)

/-- `Result<T, E>`: the header has no bits beyond the narrow `usize`, on either side. -/
def resultPortable (usizeSize : Nat) (portable portableErr : Bytes → Prop) (data : Bytes) : Prop :=
  headerAt data 1 < usizeSize ∧
    (data[0]? = some 0 ∧ portable (data.drop 9) ∨ data[0]? = some 1 ∧ portableErr (data.drop 9))

mutual

/-- Every length header behind a discriminant fits the narrow `usize`, and every vector the wide target. -/
def Ty.Portable (narrow wide : Target) : Ty → Bytes → Prop
  | .num _, _ | .usize, _ | .isize, _ | .bool, _ | .unit, _ | .string, _ | .bytes, _ | .structUnit, _ => True
  | .vec t, data => vecPortable wide.isizeMax (wide.sizeOf t) (t.Portable narrow wide) data
  | .option t, data => optionPortable narrow.usizeSize (t.Portable narrow wide) data
  | .result t e, data => resultPortable narrow.usizeSize (t.Portable narrow wide) (e.Portable narrow wide) data
  | .tuple ts, data => ts.Portable narrow wide data 0
  | .structNamed ts, data => ts.Portable narrow wide data 0
  | .structTuple ts, data => ts.Portable narrow wide data 0
  | .enum _ vs, data => enumExact (vs.Portable narrow wide) data

def Tys.Portable (narrow wide : Target) : Tys → Bytes → Nat → Prop
  | .nil, _, _ => True
  | .cons t ts, data, offset => consExact (t.Portable narrow wide) (ts.Portable narrow wide) data offset

def Variants.Portable (narrow wide : Target) : Variants → String → Bytes → Prop
  | .nil, _, _ => True
  | .cons name fields vs, name', payload =>
      if name' = name then fields.Portable narrow wide payload else vs.Portable narrow wide name' payload

def VariantFields.Portable (narrow wide : Target) : VariantFields → Bytes → Prop
  | .unit, _ => True
  | .tuple ts, payload => ts.Portable narrow wide payload 0
  | .named ts, payload => ts.Portable narrow wide payload 0

end

/-! ## Two implementations of a type -/

section Narrows

variable {p q : Platform} {α α' β β' : Type}

/-- What the narrow `f` decodes the wide `f'` decodes to the same value, exactly if the bytes are `portable`. -/
def Narrows (p : Platform) (f : Bytes → Res α) (f' : Bytes → Res α') (R : α → α' → Prop)
    (portable : Bytes → Prop) : Prop :=
  ∀ {b v}, b.length < p.usizeSize → f b = .ok v → ((∃ w, f' b = .ok w ∧ R v w) ↔ portable b)

/-- `Narrows` of the fields from an offset on: the wide decoder stops where the narrow one does. -/
def FieldsNarrow (p : Platform) (F : FieldsCodec α) (F' : FieldsCodec α') (R : α → α' → Prop)
    (portable : Bytes → Nat → Prop) : Prop :=
  ∀ {data offset v stop}, data.length < p.usizeSize → offset ≤ data.length →
    F.deserialize data offset = .ok (v, stop) →
    ((∃ w, F'.deserialize data offset = .ok (w, stop) ∧ R v w) ↔ portable data offset)

/-- `Narrows` of the arms under each name. -/
def VariantsNarrow (p : Platform) (V : VariantsCodec α) (V' : VariantsCodec α') (R : α → α' → Prop)
    (portable : String → Bytes → Prop) : Prop :=
  ∀ name, Narrows p (V.deserialize name) (V'.deserialize name) R (portable name)

variable {T : ContextTransmaterializable α} {T' : ContextTransmaterializable α'} {R : α → α' → Prop}
  {portable : Bytes → Prop} {E : ContextTransmaterializable β} {E' : ContextTransmaterializable β'}
  {S : β → β' → Prop} {portableErr : Bytes → Prop}

/-- A type without lengths that are cast: the encoding of a value is one of the same value on the wide target. -/
theorem narrows_leaf {f : Bytes → Res α} {f' : Bytes → Res α'} {enc : α → Bytes} {enc' : α' → Bytes}
    (hf : ∀ {b v}, b.length < p.usizeSize → (f b = .ok v ↔ b = enc v))
    (hf' : ∀ {b w}, b.length < q.usizeSize → (f' b = .ok w ↔ b = enc' w))
    (hpq : p.usizeSize ≤ q.usizeSize) (hsame : ∀ v, ∃ w, enc' w = enc v ∧ R v w) :
    Narrows p f f' R fun _ => True := by
  intro b v hlt hok
  obtain ⟨w, hw, hR⟩ := hsame v
  refine iff_of_true ⟨w, (hf' (by omega)).mpr ?_, hR⟩ trivial
  rw [hw]
  exact (hf hlt).mp hok

/-! ## Vectors -/

/-- The elements of a vector, one by one. -/
theorem decodes_iff (hT : Narrows p T.rematerialize T'.rematerialize R portable) {bs : List Bytes} {es : List α}
    (hlt : ∀ b ∈ bs, b.length < p.usizeSize) (hdec : Decodes T bs es) :
    (∃ es', Decodes T' bs es' ∧ List.Forall₂ R es es') ↔ ∀ b ∈ bs, portable b := by
  induction hdec with
  | nil => exact iff_of_true ⟨[], .nil, .nil⟩ (by simp)
  | @cons b e bs es he _ ih =>
    rw [List.forall_mem_cons] at hlt
    rw [List.forall_mem_cons, ← hT hlt.1 he, ← ih hlt.2]
    constructor
    · rintro ⟨_, hdec', hR⟩
      cases hdec' with
      | cons he' hes' =>
        cases hR with
        | cons h hs => exact ⟨⟨_, he', h⟩, _, hes', hs⟩
    · rintro ⟨⟨w, hw, hR⟩, ws, hws, hRs⟩
      exact ⟨w :: ws, .cons hw hws, .cons hR hRs⟩

/-- The narrow decoder has accepted the elements, each of which the wide one reads in the same place. What is
    left is whether the wide one can hold them: its elements may be larger. -/
theorem vec_narrows {size size' : Nat} (hpq : p.usizeSize ≤ q.usizeSize)
    (hT : Narrows p T.rematerialize T'.rematerialize R portable) :
    Narrows p (vec p size T).rematerialize (vec q size' T').rematerialize (fun v w => List.Forall₂ R v.elems w.elems)
      (vecPortable q.isizeMax size' portable) := by
  intro data v hlt hok
  obtain ⟨hhead, -, -, bs, hbs, hdec⟩ := (vec_rematerialize_eq_ok hlt).mp hok
  have hmax := p.usizeSize_le
  have hlen : (blocks bs).length ≤ data.length := by
    rw [← hbs, List.length_drop]
    exact Nat.sub_le _ _
  have hsmall : ∀ cs : List Bytes, blocks cs = blocks bs → ∀ c ∈ cs, c.length < p.usizeSize := by
    intro cs hcs c hc
    have := length_le_of_mem_blocks hc
    rw [hcs] at this
    omega
  have hunique : ∀ cs : List Bytes, blocks cs = blocks bs → cs = bs := by
    intro cs hcs
    refine blocks_inj (fun c hc => ?_) (fun c hc => ?_) hcs
    · exact Nat.lt_of_lt_of_le (hsmall cs hcs c hc) hmax
    · exact Nat.lt_of_lt_of_le (hsmall bs rfl c hc) hmax
  have hiff := decodes_iff hT (hsmall bs rfl) hdec
  simp only [vec_rematerialize_eq_ok (show data.length < q.usizeSize by omega)]
  constructor
  · rintro ⟨w, ⟨-, hcap, hfits, cs, hcs, hdec'⟩, hR⟩
    obtain rfl := hunique cs (hcs.symm.trans hbs)
    exact ⟨hcap, cs, hcs, hdec'.length_eq ▸ hfits, hiff.mp ⟨w.elems, hdec', hR⟩⟩
  · rintro ⟨hcap, cs, hcs, hfits, hportable⟩
    obtain rfl := hunique cs (hcs.symm.trans hbs)
    obtain ⟨es', hdec', hR⟩ := hiff.mpr hportable
    have hcount : CountHeader q.usizeSize data := ⟨hhead.1, Nat.lt_of_lt_of_le hhead.2 hpq⟩
    rw [hdec'.length_eq] at hfits
    exact ⟨⟨es', mul_size_le_of_capacityAfter hfits⟩, ⟨hcount, hcap, hfits, cs, hcs, hdec'⟩, hR⟩

/-! ## Discriminants -/

/-- On a 64-bit target the header is not reduced, so that it is the length exactly if it was not reduced on
    the narrow target either. -/
theorem tagged_iff (h64 : q.bits = 64) {data : Bytes} (hlt : data.length < p.usizeSize)
    (h : TaggedBlock p.usizeSize data) :
    TaggedBlock q.usizeSize data ↔ headerAt data 1 < p.usizeSize := by
  obtain ⟨h9, hlen⟩ := h
  have hsize : q.usizeSize = 256 ^ 8 := by rw [Platform.usizeSize, h64]; norm_num
  have hhead : headerAt data 1 < 256 ^ 8 := by
    have := fromLeBytes_lt ((data.drop 1).take 8)
    rwa [length_take_drop_eight data 1 (by omega)] at this
  rw [TaggedBlock, hsize, Nat.mod_eq_of_lt hhead, and_iff_right h9]
  constructor
  · omega
  · intro hfit
    rwa [Nat.mod_eq_of_lt hfit] at hlen

/-- The narrow decoder compares the length of the rest with the low bits of the header, the wide one with the
    whole of it. They agree if there are no others. -/
theorem option_narrows (h64 : q.bits = 64) (hpq : p.usizeSize ≤ q.usizeSize)
    (hT : Narrows p T.rematerialize T'.rematerialize R portable) :
    Narrows p (option p T).rematerialize (option q T').rematerialize (Option.Rel R)
      (optionPortable p.usizeSize portable) := by
  intro data v hlt hok
  simp only [option_rematerialize_eq_ok (show data.length < q.usizeSize by omega)]
  obtain ⟨rfl, rfl⟩ | ⟨hone, hblock, v, hv, rfl⟩ := (option_rematerialize_eq_ok hlt).mp hok
  · exact iff_of_true ⟨none, .inl ⟨rfl, rfl⟩, .none⟩ (.inl rfl)
  · have hne : data ≠ [0] := by
      rintro rfl
      cases hone
    have hinner := hT (show (data.drop 9).length < p.usizeSize by rw [List.length_drop]; omega) hv
    rw [optionPortable, or_iff_right hne, ← tagged_iff h64 hlt hblock, ← hinner]
    constructor
    · rintro ⟨_, ⟨h, -⟩ | ⟨-, hblock', w, hw, rfl⟩, hR⟩
      · exact absurd h hne
      · cases hR with
        | some hR => exact ⟨hblock', w, hw, hR⟩
    · rintro ⟨hblock', w, hw, hR⟩
      exact ⟨some w, .inr ⟨hone, hblock', w, hw, rfl⟩, .some hR⟩

theorem result_narrows (h64 : q.bits = 64) (hpq : p.usizeSize ≤ q.usizeSize)
    (hT : Narrows p T.rematerialize T'.rematerialize R portable)
    (hE : Narrows p E.rematerialize E'.rematerialize S portableErr) :
    Narrows p (result p T E).rematerialize (result q T' E').rematerialize (SameResult R S)
      (resultPortable p.usizeSize portable portableErr) := by
  intro data v hlt hok
  have hdrop : (data.drop 9).length < p.usizeSize := by rw [List.length_drop]; omega
  simp only [result_rematerialize_eq_ok (show data.length < q.usizeSize by omega)]
  obtain ⟨hblock, ⟨htag, v, hv, rfl⟩ | ⟨htag, e, he, rfl⟩⟩ := (result_rematerialize_eq_ok hlt).mp hok
  · have hne : data[0]? ≠ some 1 := by rw [htag]; decide
    rw [resultPortable, or_iff_left fun h => hne h.1, and_iff_right htag, ← tagged_iff h64 hlt hblock,
      ← hT hdrop hv]
    constructor
    · rintro ⟨_, ⟨hblock', ⟨-, w, hw, rfl⟩ | ⟨h, -⟩⟩, hR⟩
      · exact ⟨hblock', w, hw, hR⟩
      · exact absurd h hne
    · rintro ⟨hblock', w, hw, hR⟩
      exact ⟨.ok w, ⟨hblock', .inl ⟨htag, w, hw, rfl⟩⟩, hR⟩
  · have hne : data[0]? ≠ some 0 := by rw [htag]; decide
    rw [resultPortable, or_iff_right fun h => hne h.1, and_iff_right htag, ← tagged_iff h64 hlt hblock,
      ← hE hdrop he]
    constructor
    · rintro ⟨_, ⟨hblock', ⟨h, -⟩ | ⟨-, f, hf, rfl⟩⟩, hS⟩
      · exact absurd h hne
      · exact ⟨hblock', f, hf, hS⟩
    · rintro ⟨hblock', f, hf, hS⟩
      exact ⟨.error f, ⟨hblock', .inr ⟨htag, f, hf, rfl⟩⟩, hS⟩

/-! ## Field lists and enums -/

theorem nil_narrow : FieldsNarrow p .nil .nil (fun _ _ => True) fun _ _ => True := by
  intro data offset v stop _ _ hok
  exact iff_of_true ⟨(), hok, trivial⟩ trivial

/-- Blocks between fields are read without loss, so both decoders put the next field at the same place. -/
theorem cons_narrow {style : BlockStyle} {G : FieldsCodec β} {G' : FieldsCodec β'}
    {portableRest : Bytes → Nat → Prop} (hpq : p.usizeSize ≤ q.usizeSize)
    (hT : Narrows p T.rematerialize T'.rematerialize R portable)
    (hG : FieldsNarrow p G G' S portableRest) :
    FieldsNarrow p (.cons p style T G) (.cons q style T' G') (fun v w => R v.1 w.1 ∧ S v.2 w.2)
      (consExact portable portableRest) := by
  intro data offset v stop hlt hoff hok
  simp only [cons_deserialize_eq_ok (show data.length < q.usizeSize by omega) hoff]
  obtain ⟨b, hblock, hb, hrest⟩ := (cons_deserialize_eq_ok hlt hoff).mp hok
  have hfield := hT (Nat.lt_of_le_of_lt (hblock.length_le (Nat.le_refl _)) hlt) hb
  have hfields := hG hlt hblock.2 hrest
  have hunique : ∀ {b'}, BlockAt data offset b' → b' = b := fun hblock' =>
    blockAt_unique (Nat.le_refl _) (Nat.lt_of_lt_of_le hlt p.usizeSize_le) hblock' hblock
  constructor
  · rintro ⟨w, ⟨b', hblock', hb', hrest'⟩, hR, hS⟩
    obtain rfl := hunique hblock'
    exact ⟨b', hblock', hfield.mp ⟨w.1, hb', hR⟩, hfields.mp ⟨w.2, hrest', hS⟩⟩
  · rintro ⟨b', hblock', hportable, hportableRest⟩
    obtain rfl := hunique hblock'
    obtain ⟨w, hw, hR⟩ := hfield.mpr hportable
    obtain ⟨ws, hws, hS⟩ := hfields.mpr hportableRest
    exact ⟨(w, ws), ⟨b', hblock', hw, hws⟩, hR, hS⟩

/-- A list of fields that is the whole buffer. -/
theorem fields_narrows {F : FieldsCodec α} {F' : FieldsCodec α'} {f : Bytes → Res α} {f' : Bytes → Res α'}
    {portableAt : Bytes → Nat → Prop} (hF : FieldsNarrow p F F' R portableAt)
    (hf : ∀ {data v}, f data = .ok v ↔ F.deserialize data 0 = .ok (v, data.length))
    (hf' : ∀ {data w}, f' data = .ok w ↔ F'.deserialize data 0 = .ok (w, data.length)) :
    Narrows p f f' R fun data => portableAt data 0 := by
  intro data v hlt hok
  simp only [hf']
  exact hF hlt (Nat.zero_le _) (hf.mp hok)

theorem empty_narrows {f' : Bytes → Res α'} {R : Empty → α' → Prop} (T : ContextTransmaterializable Empty) :
    Narrows p T.rematerialize f' R portable := by
  intro _ v
  exact v.elim

theorem variantsNil_narrow {V : VariantsCodec Empty} {V' : VariantsCodec α'} {R : Empty → α' → Prop}
    {portable : String → Bytes → Prop} : VariantsNarrow p V V' R portable := by
  intro _ _ v
  exact v.elim

/-- Both decoders take the same arm, as they read the same name. -/
theorem variantsCons_narrow {name : String} {A : ArmCodec α} {A' : ArmCodec α'} {V : VariantsCodec β}
    {V' : VariantsCodec β'} {portableRest : String → Bytes → Prop} (hA : Narrows p A.deserialize A'.deserialize R portable)
    (hV : VariantsNarrow p V V' S portableRest) :
    VariantsNarrow p (.cons name A V) (.cons name A' V') (Sum.LiftRel R S)
      (fun name' payload => if name' = name then portable payload else portableRest name' payload) := by
  intro name' b v hlt hok
  by_cases heq : name' = name
  · subst heq
    simp only [VariantsCodec.cons, if_true, Res.wrap_eq_ok] at hok ⊢
    obtain ⟨v, hv, rfl⟩ := hok
    rw [← hA hlt hv]
    constructor
    · rintro ⟨_, ⟨w, hw, rfl⟩, hR⟩
      exact ⟨w, hw, Sum.liftRel_inl_inl.mp hR⟩
    · rintro ⟨w, hw, hR⟩
      exact ⟨.inl w, ⟨w, hw, rfl⟩, .inl hR⟩
  · simp only [VariantsCodec.cons, if_neg heq, Res.wrap_eq_ok] at hok ⊢
    obtain ⟨v, hv, rfl⟩ := hok
    rw [← hV name' hlt hv]
    constructor
    · rintro ⟨_, ⟨w, hw, rfl⟩, hS⟩
      exact ⟨w, hw, Sum.liftRel_inr_inr.mp hS⟩
    · rintro ⟨w, hw, hS⟩
      exact ⟨.inr w, ⟨w, hw, rfl⟩, .inr hS⟩

/-- The headers of a variant are read without loss. Only its payload can be narrow. -/
theorem enum_narrows {V : VariantsCodec α} {V' : VariantsCodec α'} {portableV : String → Bytes → Prop}
    (hpq : p.usizeSize ≤ q.usizeSize) (hV : VariantsNarrow p V V' R portableV) :
    Narrows p (deriveEnum p V).rematerialize (deriveEnum q V').rematerialize R (enumExact portableV) := by
  intro data v hlt hok
  simp only [deriveEnum_rematerialize_eq_ok (show data.length < q.usizeSize by omega)]
  obtain ⟨name, payload, hname, hpayload, hlen, hv⟩ := (deriveEnum_rematerialize_eq_ok hlt).mp hok
  have hmax : data.length < 256 ^ 8 := Nat.lt_of_lt_of_le hlt p.usizeSize_le
  have hiff := hV name (Nat.lt_of_le_of_lt (hpayload.length_le (Nat.le_refl _)) hlt) hv
  constructor
  · rintro ⟨w, ⟨name', payload', hname', hpayload', -, hw⟩, hR⟩
    obtain rfl := asBytes_inj (blockAt_unique (Nat.le_refl _) hmax hname hname')
    obtain rfl := blockAt_unique (Nat.le_refl _) hmax hpayload hpayload'
    exact ⟨name, payload, hname, hpayload, hiff.mp ⟨w, hw, hR⟩⟩
  · rintro ⟨name', payload', hname', hpayload', hportable⟩
    obtain rfl := asBytes_inj (blockAt_unique (Nat.le_refl _) hmax hname hname')
    obtain rfl := blockAt_unique (Nat.le_refl _) hmax hpayload hpayload'
    obtain ⟨w, hw, hR⟩ := hiff.mpr hportable
    exact ⟨w, ⟨name, payload, hname, hpayload, hlen, hw⟩, hR⟩

end Narrows

/-! ## The universe -/

section Universe

variable {narrow wide : Target}

/-- A `u64` that fits the narrow `usize` fits the wide one. -/
theorem usize_same (hpq : narrow.usizeSize ≤ wide.usizeSize) (v : BitVec narrow.bits) :
    ∃ w : BitVec wide.bits, toLeBytes 8 w.toNat = toLeBytes 8 v.toNat ∧ v.toNat = w.toNat := by
  have hv : (BitVec.ofNat wide.bits v.toNat).toNat = v.toNat := by
    rw [BitVec.toNat_ofNat]
    exact Nat.mod_eq_of_lt (Nat.lt_of_lt_of_le v.isLt hpq)
  exact ⟨.ofNat wide.bits v.toNat, by rw [hv], hv.symm⟩

/-- A sign that was extended to 64 bits from the narrow width is one of the wide width too. -/
theorem isize_same (h64 : wide.bits = 64) (v : BitVec narrow.bits) :
    ∃ w : BitVec wide.bits, toLeBytes 8 (w.signExtend 64).toNat = toLeBytes 8 (v.signExtend 64).toNat ∧
      v.toInt = w.toInt := by
  have hv : (v.signExtend wide.bits).toInt = v.toInt :=
    BitVec.toInt_signExtend_of_le (h64 ▸ narrow.le_sixtyFour)
  have hsign : (v.signExtend wide.bits).signExtend 64 = v.signExtend 64 := by
    apply BitVec.eq_of_toInt_eq
    rw [BitVec.toInt_signExtend_of_le wide.le_sixtyFour, BitVec.toInt_signExtend_of_le narrow.le_sixtyFour, hv]
  exact ⟨v.signExtend wide.bits, by rw [hsign], hv.symm⟩

theorem usizeSize_le_of_sixtyFour (h64 : wide.bits = 64) : narrow.usizeSize ≤ wide.usizeSize := by
  rw [Platform.usizeSize, Platform.usizeSize, h64]
  exact Nat.pow_le_pow_right (by decide) narrow.le_sixtyFour

mutual

/-- **What a narrow target decodes a 64-bit target decodes to the same value, exactly if it is portable.** -/
theorem Ty.narrows (h64 : wide.bits = 64) : ∀ t : Ty,
    Narrows narrow.toPlatform (t.codec narrow).rematerialize (t.codec wide).rematerialize (t.Same narrow wide)
      (t.Portable narrow wide)
  | .num k => narrows_leaf (R := Ty.Same narrow wide (.num k)) (fun _ => leBytes_rematerialize_eq_ok)
      (fun _ => leBytes_rematerialize_eq_ok) (usizeSize_le_of_sixtyFour h64) fun v => ⟨v, rfl, rfl⟩
  | .usize => narrows_leaf (fun _ => usize_rematerialize_eq_ok) (fun _ => usize_rematerialize_eq_ok)
      (usizeSize_le_of_sixtyFour h64) (usize_same (usizeSize_le_of_sixtyFour h64))
  | .isize => narrows_leaf (fun _ => isize_rematerialize_eq_ok) (fun _ => isize_rematerialize_eq_ok)
      (usizeSize_le_of_sixtyFour h64) (isize_same h64)
  | .bool => narrows_leaf (fun _ => bool_rematerialize_eq_ok) (fun _ => bool_rematerialize_eq_ok)
      (usizeSize_le_of_sixtyFour h64) fun v => ⟨v, rfl, rfl⟩
  | .unit => narrows_leaf (fun _ => unit_rematerialize_eq_ok) (fun _ => unit_rematerialize_eq_ok)
      (usizeSize_le_of_sixtyFour h64) fun v => ⟨v, rfl, trivial⟩
  | .string => narrows_leaf string_rematerialize_eq_ok string_rematerialize_eq_ok
      (usizeSize_le_of_sixtyFour h64) fun v => ⟨v, rfl, rfl⟩
  | .bytes => narrows_leaf vecU8_rematerialize_eq_ok vecU8_rematerialize_eq_ok
      (usizeSize_le_of_sixtyFour h64) fun v => ⟨v, rfl, rfl⟩
  | .vec t => vec_narrows (usizeSize_le_of_sixtyFour h64) (Ty.narrows h64 t)
  | .option t => option_narrows h64 (usizeSize_le_of_sixtyFour h64) (Ty.narrows h64 t)
  | .result t e => result_narrows h64 (usizeSize_le_of_sixtyFour h64) (Ty.narrows h64 t) (Ty.narrows h64 e)
  | .tuple ts => fields_narrows (Tys.narrow h64 .util ts) tuple_rematerialize_eq_ok tuple_rematerialize_eq_ok
  | .structNamed ts => fields_narrows (Tys.narrow h64 .field ts) deriveStructNamed_rematerialize_eq_ok
      deriveStructNamed_rematerialize_eq_ok
  | .structTuple ts => fields_narrows (Tys.narrow h64 .field ts) deriveStructNamed_rematerialize_eq_ok
      deriveStructNamed_rematerialize_eq_ok
  | .structUnit => narrows_leaf (fun _ => deriveStructUnit_rematerialize_eq_ok)
      (fun _ => deriveStructUnit_rematerialize_eq_ok) (usizeSize_le_of_sixtyFour h64) fun v => ⟨v, rfl, trivial⟩
  | .enum name .nil => empty_narrows (deriveEnumEmpty name)
  | .enum _ (.cons name fields vs) =>
      enum_narrows (usizeSize_le_of_sixtyFour h64) (Variants.narrow h64 (.cons name fields vs))

/-- Field by field. -/
theorem Tys.narrow (h64 : wide.bits = 64) (style : BlockStyle) : ∀ ts : Tys,
    FieldsNarrow narrow.toPlatform (ts.codec narrow style) (ts.codec wide style) (ts.Same narrow wide)
      (ts.Portable narrow wide)
  | .nil => nil_narrow
  | .cons t ts => cons_narrow (usizeSize_le_of_sixtyFour h64) (Ty.narrows h64 t) (Tys.narrow h64 style ts)

/-- Variant by variant. -/
theorem Variants.narrow (h64 : wide.bits = 64) : ∀ vs : Variants,
    VariantsNarrow narrow.toPlatform (vs.codec narrow) (vs.codec wide) (vs.Same narrow wide)
      (vs.Portable narrow wide)
  | .nil => variantsNil_narrow
  | .cons _ fields vs => variantsCons_narrow (VariantFields.narrows h64 fields) (Variants.narrow h64 vs)

theorem VariantFields.narrows (h64 : wide.bits = 64) : ∀ fields : VariantFields,
    Narrows narrow.toPlatform (fields.codec narrow).deserialize (fields.codec wide).deserialize
      (fields.Same narrow wide) (fields.Portable narrow wide)
  | .unit => fun _ hok => iff_of_true ⟨(), hok, trivial⟩ trivial
  | .tuple ts => fields_narrows (Tys.narrow h64 .field ts) fieldsArm_deserialize_eq_ok fieldsArm_deserialize_eq_ok
  | .named ts => fields_narrows (Tys.narrow h64 .field ts) fieldsArm_deserialize_eq_ok fieldsArm_deserialize_eq_ok

end

end Universe

/-- **When decoding is platform independent.** For every type and every byte string below 2^32 bytes: what a
    32-bit target decodes, a 64-bit target decodes to the same value, if and only if the bytes are portable. -/
theorem narrow_decodes_iff (narrow wide : Target) (h32 : narrow.bits = 32) (h64 : wide.bits = 64) (t : WireTy)
    (b : Bytes) (hb : b.length < 2 ^ 32) (v : t.ty.Val narrow) (hv : (t.ty.codec narrow).rematerialize b = .ok v) :
    (∃ w, (t.ty.codec wide).rematerialize b = .ok w ∧ t.ty.Same narrow wide v w) ↔ t.ty.Portable narrow wide b := by
  have hlt : b.length < narrow.usizeSize := by rwa [Platform.usizeSize, h32]
  exact t.ty.narrows h64 hlt hv

/-- A 32-bit target, such as wasm32. -/
def Target.thirtyTwo (overflowChecks : Bool) : Target where
  bits := 32
  sixteen_le := by decide
  le_sixtyFour := by decide
  overflowChecks := overflowChecks
  sizeOf
    | .num k => k.sizeOf
    | .usize | .isize => 4
    | .bool => 1
    | .unit | .structUnit => 0
    | .string | .bytes | .vec _ => 12
    | _ => 32

/-- `Some(true)`, except that the length header says `2^32 + 1`. -/
def highHeader : Bytes := [1, 1, 0, 0, 0, 1, 0, 0, 0, 1]

/-- A 32-bit peer decodes it, and a 64-bit peer does not. -/
theorem narrow_accepts_more :
    ((Ty.option .bool).codec (.thirtyTwo true)).rematerialize highHeader = .ok (some true) ∧
      ((Ty.option .bool).codec (.sixtyFour true)).rematerialize highHeader =
        .err (.bufferSizeMismatch (9 + (2 ^ 32 + 1)) 10) :=
  ⟨rfl, rfl⟩

/-- `Some(true)`. -/
def someTrue : Bytes := [1, 1, 0, 0, 0, 0, 0, 0, 0, 1]

/-- `Some(true)` is portable, and the bytes that only a 32-bit peer takes for it are not. -/
theorem narrow_decodes_iff_someTrue :
    (∃ w, ((Ty.option .bool).codec (.sixtyFour true)).rematerialize someTrue = .ok w ∧
        (Ty.option .bool).Same (.thirtyTwo true) (.sixtyFour true) (some true) w) ∧
      ¬ (Ty.option .bool).Portable (.thirtyTwo true) (.sixtyFour true) highHeader := by
  have hiff (b : Bytes) := narrow_decodes_iff (.thirtyTwo true) (.sixtyFour true) rfl rfl ⟨.option .bool, trivial⟩ b
  constructor
  · refine (hiff someTrue (by decide) (some true) rfl).mpr (Or.inr ⟨?_, trivial⟩)
    decide
  · intro hportable
    have hrejects : ((Ty.option .bool).codec (.sixtyFour true)).rematerialize highHeader =
        .err (.bufferSizeMismatch (9 + (2 ^ 32 + 1)) 10) := rfl
    obtain ⟨w, hw, -⟩ := (hiff highHeader (by decide) (some true) rfl).mpr hportable
    rw [hrejects] at hw
    cases hw

end Codec
end Wormhole
