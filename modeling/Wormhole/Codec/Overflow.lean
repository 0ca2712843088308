import Wormhole.Codec.Language

/-!
# `Codec.Overflow` — when a decoder leaves `usize`

The grammar of a type follows its decoder: exactly in a build with overflow checks, and in a release build
up to the places where a wrapped sum happens to end in an error. So a byte string makes some build panic
on its offsets if and only if it is overlong, and every other call returns unless it asks for a capacity
beyond `isize::MAX` bytes.
-/

namespace Wormhole
namespace Codec

open LittleEndian

/-! ## Comparing grammars -/

/-- `g` accepts what `h` accepts, and has no faults but those of `h`. -/
def Grammar.Le (n : Nat) (g h : Grammar) : Prop :=
  ∀ b, b.length ≤ n → (g.accepts b ↔ h.accepts b) ∧ ∀ k, g.faults k b → h.faults k b

/-- `Grammar.Le` for fields, from every offset and for every end. -/
def FieldsGrammar.Le (n : Nat) (g h : FieldsGrammar) : Prop :=
  ∀ data offset, data.length ≤ n → offset ≤ data.length →
    (∀ stop, g.reads data offset stop ↔ h.reads data offset stop) ∧
      ∀ k, g.faults k data offset → h.faults k data offset

/-- `Grammar.Le` for the variants of an enum, under every name. -/
def VariantsGrammar.Le (n : Nat) (g h : VariantsGrammar) : Prop :=
  ∀ name b, b.length ≤ n →
    (g.accepts name b ↔ h.accepts name b) ∧ ∀ k, g.faults k name b → h.faults k name b

/-- `h` describes the code `g` of a build: every fault of the code is one of `h`, and with overflow checks
    every fault of `h` is one of the code. -/
def Grammar.Describes (checks : Bool) (n : Nat) (g h : Grammar) : Prop :=
  g.Le n h ∧ (checks = true → h.Le n g)

/-- `Grammar.Describes` for fields. -/
def FieldsGrammar.Describes (checks : Bool) (n : Nat) (g h : FieldsGrammar) : Prop :=
  g.Le n h ∧ (checks = true → h.Le n g)

def VariantsGrammar.Describes (checks : Bool) (n : Nat) (g h : VariantsGrammar) : Prop :=
  g.Le n h ∧ (checks = true → h.Le n g)

section Compare

variable {checks : Bool} {n : Nat}

/-- Code that is the same as `g` is described by what describes `g`. -/
theorem Grammar.Same.describes {f g h : Grammar} (hfg : f.Same n g)
    (hgh : g.Describes checks n h) : f.Describes checks n h :=
  ⟨fun b hb => ⟨(hfg b hb).1.trans (hgh.1 b hb).1, fun k hk => (hgh.1 b hb).2 k (((hfg b hb).2 k).mp hk)⟩,
    fun hc b hb => ⟨((hfg b hb).1.trans (hgh.1 b hb).1).symm,
      fun k hk => ((hfg b hb).2 k).mpr ((hgh.2 hc b hb).2 k hk)⟩⟩

theorem FieldsGrammar.Same.describes {f g h : FieldsGrammar} (hfg : f.Same n g)
    (hgh : g.Describes checks n h) : f.Describes checks n h :=
  ⟨fun b o hb ho => ⟨fun s => ((hfg b o hb ho).1 s).trans ((hgh.1 b o hb ho).1 s),
      fun k hk => (hgh.1 b o hb ho).2 k (((hfg b o hb ho).2 k).mp hk)⟩,
    fun hc b o hb ho => ⟨fun s => (((hfg b o hb ho).1 s).trans ((hgh.1 b o hb ho).1 s)).symm,
      fun k hk => ((hfg b o hb ho).2 k).mpr ((hgh.2 hc b o hb ho).2 k hk)⟩⟩

theorem VariantsGrammar.Same.describes {f g h : VariantsGrammar} (hfg : f.Same n g)
    (hgh : g.Describes checks n h) : f.Describes checks n h :=
  ⟨fun s b hb => ⟨(hfg s b hb).1.trans (hgh.1 s b hb).1,
      fun k hk => (hgh.1 s b hb).2 k (((hfg s b hb).2 k).mp hk)⟩,
    fun hc s b hb => ⟨((hfg s b hb).1.trans (hgh.1 s b hb).1).symm,
      fun k hk => ((hfg s b hb).2 k).mpr ((hgh.2 hc s b hb).2 k hk)⟩⟩

theorem Grammar.Describes.refl (g : Grammar) : g.Describes checks n g :=
  ⟨fun _ _ => ⟨Iff.rfl, fun _ => id⟩, fun _ _ _ => ⟨Iff.rfl, fun _ => id⟩⟩

end Compare

/-! ## The constructors are monotone -/

section Mono

variable {n : Nat} {g h g' h' : Grammar} {F G : FieldsGrammar} {V W : VariantsGrammar}

theorem BlockAt.length_le {data b : Bytes} {offset : Nat} (hb : BlockAt data offset b)
    (hle : data.length ≤ n) : b.length ≤ n := by
  have := hb.2; omega

/-- The elements of a vector are accepted by both grammars or by none. -/
theorem elements_congr {isizeMax size count : Nat} {data rest : Bytes} {bs : List Bytes} (hgh : g.Le n h)
    (hle : data.length ≤ n) (hbs : data.drop 8 = blocks bs ++ rest) :
    Elements isizeMax size count g bs ↔ Elements isizeMax size count h bs := by
  have hmem : ∀ b ∈ bs, b.length ≤ n := fun b hb => by
    have h1 := length_le_of_mem_blocks hb
    have h2 := congrArg List.length hbs
    simp only [List.length_drop, List.length_append] at h2
    omega
  exact and_congr_right fun _ => forall₂_congr fun b hb => (hgh b (hmem b hb)).1

/-- An element that stops the loop of `g` with a panic stops that of `h` with the same one: both have read
    the same elements by then, and filled the buffer alike. -/
theorem badElement_mono {usizeSize isizeMax size : Nat} {k : Fault} {data : Bytes} {offset capacity : Nat}
    (hgh : g.Le n h) (hle : data.length ≤ n)
    (hbad : BadElement usizeSize isizeMax size g k data offset capacity) :
    BadElement usizeSize isizeMax size h k data offset capacity := by
  rcases hbad with hbad | ⟨b, hblock, hbad | ⟨hacc, hfull⟩⟩
  · exact .inl hbad
  · exact .inr ⟨b, hblock, .inl ((hgh b (hblock.length_le hle)).2 k hbad)⟩
  · exact .inr ⟨b, hblock, .inr ⟨(hgh b (hblock.length_le hle)).1.mp hacc, hfull⟩⟩

/-- The grammar of a vector is monotone in that of its elements. The same holds of all the other forms: a
    fault of the whole is a fault of a part, at a place that acceptance alone determines. -/
theorem vecGrammar_mono (usizeSize isizeMax size : Nat) (hgh : g.Le n h) :
    (vecGrammar usizeSize isizeMax size g).Le n (vecGrammar usizeSize isizeMax size h) := by
  intro data hle
  constructor
  · refine and_congr_right fun _ => and_congr_right fun _ => exists_congr fun bs => and_congr_right ?_
    exact fun hbs => elements_congr hgh hle (by rw [hbs, List.append_nil])
  · rintro k ⟨hhead, hbig | ⟨hcap, bs, rest, hbs, hels, hbad⟩⟩
    · exact ⟨hhead, .inl hbig⟩
    · exact ⟨hhead, .inr ⟨hcap, bs, rest, hbs, (elements_congr hgh hle hbs).mp hels,
        badElement_mono hgh hle hbad⟩⟩

theorem drop_nine_length_le {data : Bytes} (hle : data.length ≤ n) : (data.drop 9).length ≤ n := by
  rw [List.length_drop]; omega

/-- The payload is shorter than the whole, so the bound on the length goes on to it. -/
theorem optionGrammar_mono (usizeSize : Nat) (hgh : g.Le n h) :
    (optionGrammar usizeSize g).Le n (optionGrammar usizeSize h) := by
  intro data hle
  have hinner := hgh _ (drop_nine_length_le hle)
  refine ⟨or_congr_right (and_congr_right fun _ => and_congr_right fun _ => hinner.1), ?_⟩
  rintro k ⟨hone, hover | ⟨hblock, hbad⟩⟩
  · exact ⟨hone, .inl hover⟩
  · exact ⟨hone, .inr ⟨hblock, hinner.2 k hbad⟩⟩

theorem resultGrammar_mono (usizeSize : Nat) (hgh : g.Le n h) (hgh' : g'.Le n h') :
    (resultGrammar usizeSize g g').Le n (resultGrammar usizeSize h h') := by
  intro data hle
  have hinner := hgh _ (drop_nine_length_le hle)
  have hinner' := hgh' _ (drop_nine_length_le hle)
  refine ⟨and_congr_right fun _ => or_congr (and_congr_right fun _ => hinner.1)
    (and_congr_right fun _ => hinner'.1), ?_⟩
  rintro k (hover | ⟨hblock, ⟨htag, hbad⟩ | ⟨htag, hbad⟩⟩)
  · exact .inl hover
  · exact .inr ⟨hblock, .inl ⟨htag, hinner.2 k hbad⟩⟩
  · exact .inr ⟨hblock, .inr ⟨htag, hinner'.2 k hbad⟩⟩

/-- The second field is read at the end of the first, which both grammars put at the same place. -/
theorem consGrammar_mono (usizeSize : Nat) (hgh : g.Le n h) (hFG : F.Le n G) :
    (FieldsGrammar.cons usizeSize g F).Le n (.cons usizeSize h G) := by
  intro data offset hle hoff
  constructor
  · intro stop
    refine exists_congr fun b => and_congr_right fun hblock => ?_
    exact and_congr (hgh b (hblock.length_le hle)).1 ((hFG data _ hle hblock.2).1 stop)
  · rintro k (hover | ⟨b, hblock, hbad | ⟨hacc, hbad⟩⟩)
    · exact .inl hover
    · exact .inr ⟨b, hblock, .inl ((hgh b (hblock.length_le hle)).2 k hbad)⟩
    · exact .inr ⟨b, hblock, .inr ⟨(hgh b (hblock.length_le hle)).1.mp hacc,
        (hFG data _ hle hblock.2).2 k hbad⟩⟩

theorem fieldsGrammar_mono (hFG : F.Le n G) : (fieldsGrammar F).Le n (fieldsGrammar G) :=
  fun data hle => ⟨(hFG data 0 hle (Nat.zero_le _)).1 _, (hFG data 0 hle (Nat.zero_le _)).2⟩

theorem consVariants_mono (name : String) (hgh : g.Le n h) (hVW : V.Le n W) :
    (VariantsGrammar.cons name g V).Le n (.cons name h W) := by
  intro name' b hle
  by_cases heq : name' = name
  · simpa only [VariantsGrammar.cons, if_pos heq] using hgh b hle
  · simpa only [VariantsGrammar.cons, if_neg heq] using hVW name' b hle

/-- The name and the payload are found without the variants. -/
theorem enumGrammar_mono (usizeSize : Nat) (hVW : V.Le n W) :
    (enumGrammar usizeSize V).Le n (enumGrammar usizeSize W) := by
  intro data hle
  constructor
  · refine exists_congr fun name => exists_congr fun payload => and_congr_right fun _ => ?_
    exact and_congr_right fun hp => and_congr_right fun _ => (hVW name payload (hp.length_le hle)).1
  · rintro k (hover | ⟨name, hname, hover | ⟨payload, hp, hbad⟩⟩)
    · exact .inl hover
    · exact .inr ⟨name, hname, .inl hover⟩
    · exact .inr ⟨name, hname, .inr ⟨payload, hp, (hVW name payload (hp.length_le hle)).2 k hbad⟩⟩

end Mono

/-! ## The universe -/

/-- `Vec<u8>` and `String`: a build without overflow checks returns an error instead of a fault. -/
theorem describes_whole {p : Platform} {α : Type} {T : ContextTransmaterializable α}
    {f : Bytes → Res α} {valid : Bytes → Prop} (hT : ∀ data, T.rematerialize data = readWhole p data f)
    (hf : ∀ b, (∃ v, f b = .ok v) ↔ valid b) (hfault : ∀ k b, ¬ (f b).Faults k) :
    T.language.Describes p.overflowChecks p.isizeMax (wholeGrammar p.usizeSize valid) := by
  have hacc : ∀ b : Bytes, b.length ≤ p.isizeMax →
      (T.language.accepts b ↔ (wholeGrammar p.usizeSize valid).accepts b) := fun b hle => by
    have hlt : b.length < p.usizeSize := by have := p.isizeMax_add_lt; omega
    show (∃ v, T.rematerialize b = .ok v) ↔ _
    simp only [hT, readWhole_eq_ok hlt, wholeGrammar, ← hf]
    exact ⟨fun ⟨v, bytes, hb, hv⟩ => ⟨bytes, hb, v, hv⟩, fun ⟨bytes, hb, v, hv⟩ => ⟨v, bytes, hb, hv⟩⟩
  have hbad : ∀ (b : Bytes) k, b.length ≤ p.isizeMax → (T.language.faults k b ↔
      p.overflowChecks = true ∧ (wholeGrammar p.usizeSize valid).faults k b) := fun b k hle => by
    show (T.rematerialize b).Faults k ↔ _
    rw [hT]
    exact readWhole_faults hle (hfault k)
  exact ⟨fun b hle => ⟨hacc b hle, fun k hk => ((hbad b k hle).mp hk).2⟩,
    fun hc b hle => ⟨(hacc b hle).symm, fun k hk => (hbad b k hle).mpr ⟨hc, hk⟩⟩⟩

mutual

/-- **The grammar of a type describes its decoder.** -/
theorem Ty.describes (tgt : Target) : ∀ t : Ty,
    (t.codec tgt).language.Describes tgt.overflowChecks tgt.isizeMax (t.grammar tgt)
  | .num k => (same_leaf leBytes_rematerialize_eq_ok (fun _ => leBytes_no_fault k.sizeOf) _).describes
      (.refl _)
  | .usize => (same_leaf usize_rematerialize_eq_ok (fun _ => usize_no_fault) _).describes (.refl _)
  | .isize => (same_leaf isize_rematerialize_eq_ok (fun _ => isize_no_fault) _).describes (.refl _)
  | .bool => (same_leaf bool_rematerialize_eq_ok (fun _ => bool_no_fault) _).describes (.refl _)
  | .unit => (same_leaf unit_rematerialize_eq_ok (fun _ => unit_no_fault) _).describes (.refl _)
  | .string => describes_whole (string_rematerialize _)
      (fun _ => exists_congr fun _ => fromUtf8_eq_ok) (fun _ => fromUtf8_no_fault)
  | .bytes => describes_whole (vecU8_rematerialize _) (fun b => iff_of_true ⟨b, rfl⟩ trivial)
      (fun _ _ => id)
  | .vec t =>
      have ih := Ty.describes tgt t
      (same_vec (t.codec tgt)).describes
        ⟨vecGrammar_mono _ _ _ ih.1, fun hc => vecGrammar_mono _ _ _ (ih.2 hc)⟩
  | .option t =>
      have ih := Ty.describes tgt t
      (same_option (t.codec tgt)).describes
        ⟨optionGrammar_mono _ ih.1, fun hc => optionGrammar_mono _ (ih.2 hc)⟩
  | .result t e =>
      have ih := Ty.describes tgt t
      have ih' := Ty.describes tgt e
      (same_result (t.codec tgt) (e.codec tgt)).describes
        ⟨resultGrammar_mono _ ih.1 ih'.1, fun hc => resultGrammar_mono _ (ih.2 hc) (ih'.2 hc)⟩
  | .tuple ts =>
      have ih := Tys.describe tgt .util ts
      (same_tuple (ts.codec tgt .util) _).describes
        ⟨fieldsGrammar_mono ih.1, fun hc => fieldsGrammar_mono (ih.2 hc)⟩
  | .structNamed ts =>
      have ih := Tys.describe tgt .field ts
      (same_deriveStructNamed (ts.codec tgt .field) _).describes
        ⟨fieldsGrammar_mono ih.1, fun hc => fieldsGrammar_mono (ih.2 hc)⟩
  | .structTuple ts =>
      have ih := Tys.describe tgt .field ts
      (same_deriveStructNamed (ts.codec tgt .field) _).describes
        ⟨fieldsGrammar_mono ih.1, fun hc => fieldsGrammar_mono (ih.2 hc)⟩
  | .structUnit => (same_deriveStructUnit _).describes (.refl _)
  | .enum name .nil => (same_deriveEnumEmpty name _).describes (.refl _)
  | .enum _ (.cons name fields vs) =>
      have ih := Variants.describe tgt (.cons name fields vs)
      (same_deriveEnum ((Variants.cons name fields vs).codec tgt)).describes
        ⟨enumGrammar_mono _ ih.1, fun hc => enumGrammar_mono _ (ih.2 hc)⟩

/-- Field by field. Here the overflow of `offset + 8 + len` counts, which release builds wrap. -/
theorem Tys.describe (tgt : Target) (style : BlockStyle) : ∀ ts : Tys,
    (ts.codec tgt style).language.Describes tgt.overflowChecks tgt.isizeMax (ts.grammar tgt)
  | .nil => (same_nil _).describes ⟨fun _ _ _ _ => ⟨fun _ => Iff.rfl, fun _ => id⟩,
      fun _ _ _ _ _ => ⟨fun _ => Iff.rfl, fun _ => id⟩⟩
  | .cons t ts =>
      have ih := Ty.describes tgt t
      have ih' := Tys.describe tgt style ts
      (same_cons (t.codec tgt) (ts.codec tgt style)).describes
        ⟨consGrammar_mono _ ih.1 ih'.1, fun hc => consGrammar_mono _ (ih.2 hc) (ih'.2 hc)⟩

/-- Variant by variant. -/
theorem Variants.describe (tgt : Target) : ∀ vs : Variants,
    (vs.codec tgt).language.Describes tgt.overflowChecks tgt.isizeMax (vs.grammar tgt)
  | .nil => (same_variantsNil _).describes ⟨fun _ _ _ => ⟨Iff.rfl, fun _ => id⟩,
      fun _ _ _ _ => ⟨Iff.rfl, fun _ => id⟩⟩
  | .cons name fields vs =>
      have ih := VariantFields.describe tgt fields
      have ih' := Variants.describe tgt vs
      (same_variantsCons name (fields.codec tgt) (vs.codec tgt) _).describes
        ⟨consVariants_mono name ih.1 ih'.1, fun hc => consVariants_mono name (ih.2 hc) (ih'.2 hc)⟩

theorem VariantFields.describe (tgt : Target) : ∀ fields : VariantFields,
    (fields.codec tgt).language.Describes tgt.overflowChecks tgt.isizeMax (fields.grammar tgt)
  | .unit => (same_unitArm _).describes (.refl _)
  | .tuple ts =>
      have ih := Tys.describe tgt .field ts
      (same_fieldsArm (ts.codec tgt .field) _).describes
        ⟨fieldsGrammar_mono ih.1, fun hc => fieldsGrammar_mono (ih.2 hc)⟩
  | .named ts =>
      have ih := Tys.describe tgt .field ts
      (same_fieldsArm (ts.codec tgt .field) _).describes
        ⟨fieldsGrammar_mono ih.1, fun hc => fieldsGrammar_mono (ih.2 hc)⟩

end

/-! ## Builds -/

/-- The same target in a build with or without overflow checks. -/
def Target.withChecks (tgt : Target) (checks : Bool) : Target :=
  { tgt with overflowChecks := checks }

mutual

/-- The grammar does not depend on the build. -/
theorem Ty.grammar_withChecks (tgt : Target) (checks : Bool) : ∀ t : Ty,
    t.grammar (tgt.withChecks checks) = t.grammar tgt
  | .num _ | .usize | .isize | .bool | .unit | .string | .bytes | .structUnit => rfl
  | .vec t => congrArg (vecGrammar _ _ _) (Ty.grammar_withChecks tgt checks t)
  | .option t => congrArg (optionGrammar _) (Ty.grammar_withChecks tgt checks t)
  | .result t e => congrArg₂ (resultGrammar _) (Ty.grammar_withChecks tgt checks t)
      (Ty.grammar_withChecks tgt checks e)
  | .tuple ts | .structNamed ts | .structTuple ts =>
      congrArg fieldsGrammar (Tys.grammar_withChecks tgt checks ts)
  | .enum _ .nil => rfl
  | .enum _ (.cons name fields vs) =>
      congrArg (enumGrammar _) (Variants.grammar_withChecks tgt checks (.cons name fields vs))

/-- The grammar says nothing of the build: overflow checks are in the code and in `Describes` only. -/
theorem Tys.grammar_withChecks (tgt : Target) (checks : Bool) : ∀ ts : Tys,
    ts.grammar (tgt.withChecks checks) = ts.grammar tgt
  | .nil => rfl
  | .cons t ts => congrArg₂ (FieldsGrammar.cons _) (Ty.grammar_withChecks tgt checks t)
      (Tys.grammar_withChecks tgt checks ts)

theorem Variants.grammar_withChecks (tgt : Target) (checks : Bool) : ∀ vs : Variants,
    vs.grammar (tgt.withChecks checks) = vs.grammar tgt
  | .nil => rfl
  | .cons name fields vs => congrArg₂ (VariantsGrammar.cons name)
      (VariantFields.grammar_withChecks tgt checks fields) (Variants.grammar_withChecks tgt checks vs)

theorem VariantFields.grammar_withChecks (tgt : Target) (checks : Bool) : ∀ fields : VariantFields,
    fields.grammar (tgt.withChecks checks) = fields.grammar tgt
  | .unit => rfl
  | .tuple ts | .named ts => congrArg fieldsGrammar (Tys.grammar_withChecks tgt checks ts)

end

/-- Some build runs into a fault exactly where the grammar has one. -/
theorem no_fault_iff (tgt : Target) (t : Ty) (b : tgt.Slice) (k : Fault) :
    (∀ checks, ¬ ((t.codec (tgt.withChecks checks)).rematerialize b.1).Faults k) ↔
      ¬ (t.grammar tgt).faults k b.1 := by
  have hdesc := fun checks => t.grammar_withChecks tgt checks ▸ t.describes (tgt.withChecks checks)
  constructor
  · exact fun h hk => h true (((hdesc true).2 rfl b.1 b.2).2 k hk)
  · exact fun h checks hk => h (((hdesc checks).1 b.1 b.2).2 k hk)

/-- **Decoding hostile bytes.** On a slice of the target, no build leaves `usize` in its offset arithmetic
    or slices out of range if and only if the bytes are not overlong; and every build returns `Ok` or `Err`
    if and only if they are not oversized either. -/
theorem rematerialize_panics_iff (tgt : Target) (t : Ty) (b : tgt.Slice) :
    ((∀ checks, ¬ ((t.codec (tgt.withChecks checks)).rematerialize b.1).Faults .offset) ↔
        ¬ t.Overlong tgt b.1) ∧
      ((∀ checks reason, (t.codec (tgt.withChecks checks)).rematerialize b.1 ≠ .panic reason) ↔
        ¬ t.Overlong tgt b.1 ∧ ¬ t.Oversized tgt b.1) := by
  have hoff := no_fault_iff tgt t b .offset
  have hcap := no_fault_iff tgt t b .capacity
  refine ⟨hoff, ?_⟩
  simp only [Res.returns_iff]
  constructor
  · exact fun h => ⟨hoff.mp fun checks => h checks _, hcap.mp fun checks => h checks _⟩
  · rintro ⟨h, h'⟩ checks k
    cases k with
    | offset => exact hoff.mpr h checks
    | capacity => exact hcap.mpr h' checks

/-- Eight bytes `0xFF` announce `u64::MAX` more. `Vec<u8>` adds 8 to that; a 1-tuple does too, and in a
    release build slices backwards. -/
theorem hostile_headers_panic :
    ((Ty.codec (.sixtyFour true) .bytes).rematerialize (List.replicate 8 0xFF)) = .panic .addOverflow ∧
      ((Ty.codec (.sixtyFour false) (.tuple (.cons .bool .nil))).rematerialize (List.replicate 8 0xFF))
        = .panic .sliceIndex :=
  ⟨rfl, rfl⟩

end Codec
end Wormhole
