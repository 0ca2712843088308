import Mathlib.Data.List.Forall2
import Wormhole.Codec.Leaves
import Wormhole.Codec.Grammar

/-!
# `Codec.Language` — what the decoders do to arbitrary bytes

For each implementation, the byte strings it accepts and those that make it panic in its offset
arithmetic, in terms of the same two languages of its parameters.
-/

namespace Wormhole
namespace Codec

open LittleEndian

variable {p : Platform} {α β : Type} {k : Fault}

/-! ## Leaves -/

/-- An implementation that accepts exactly the encodings and never panics. -/
theorem same_leaf {T : ContextTransmaterializable α} {enc : α → Bytes}
    (hok : ∀ {b v}, T.rematerialize b = .ok v ↔ b = enc v)
    (hfault : ∀ k b, ¬ (T.rematerialize b).Faults k) (n : Nat) :
    T.language.Same n (leafGrammar enc) := by
  intro b _
  exact ⟨exists_congr fun _ => hok, fun k => iff_of_false (hfault k b) id⟩

theorem requireBufferSize_no_fault (b : Bytes) (n : Nat) : ¬ (requireBufferSize b n).Faults k := by
  unfold requireBufferSize; split <;> exact id

/-- Behind a check of the whole length, the slice of the whole buffer is in range. -/
theorem fixedSize_no_fault {b : Bytes} {size : Nat} {f : Bytes → Res α}
    (hf : ∀ bytes, bytes.length = size → ¬ (f bytes).Faults k) :
    ¬ (do requireBufferSize b size
          let bytes ← slice b 0 size
          f bytes).Faults k := by
  intro h
  rcases Res.faults_bind.mp h with h | ⟨_, hlen, h⟩
  · exact requireBufferSize_no_fault _ _ h
  · obtain rfl := requireBufferSize_eq_ok.mp hlen
    rw [slice_all] at h
    exact hf b rfl h

theorem leBytes_no_fault (size : Nat) (b : Bytes) : ¬ ((leBytes size).rematerialize b).Faults k :=
  fixedSize_no_fault fun _ _ => id

theorem usize_no_fault (b : Bytes) : ¬ ((usize p).rematerialize b).Faults k := by
  refine fixedSize_no_fault fun bytes hlen => ?_
  rw [u64FromLeBytes_of_length hlen, Res.ok_bind]
  unfold u64ToUsize
  split <;> exact id

theorem isize_no_fault (b : Bytes) : ¬ ((isize p).rematerialize b).Faults k := by
  refine fixedSize_no_fault fun bytes hlen => ?_
  rw [u64FromLeBytes_of_length hlen, Res.ok_bind]
  unfold i64ToIsize
  split <;> exact id

theorem bool_no_fault (b : Bytes) : ¬ (bool.rematerialize b).Faults k := by
  intro h
  rcases Res.faults_bind.mp h with h | ⟨_, hlen, h⟩
  · exact requireBufferSize_no_fault _ _ h
  · obtain ⟨x, rfl⟩ := List.length_eq_one_iff.mp (requireBufferSize_eq_ok.mp hlen)
    revert h
    simp only [show index [x] 0 = .ok x from rfl, Res.ok_bind]
    split
    · exact id
    · split <;> exact id

theorem unit_no_fault (b : Bytes) : ¬ (unit.rematerialize b).Faults k := by
  intro h
  rcases Res.faults_bind.mp h with h | ⟨_, -, h⟩
  · exact requireBufferSize_no_fault _ _ h
  · exact h

theorem fromUtf8_no_fault (b : Bytes) : ¬ (fromUtf8 b).Faults k := by
  unfold fromUtf8; split <;> exact id

/-! ## `Vec<u8>` and `String` -/

/-- In a release build the wrapped sum is not the length of the buffer, so only a build with overflow
    checks panics. -/
theorem readWhole_faults {data : Bytes} {f : Bytes → Res α} (hle : data.length ≤ p.isizeMax)
    (hf : ∀ bytes, ¬ (f bytes).Faults k) :
    (readWhole p data f).Faults k ↔
      p.overflowChecks = true ∧ k = .offset ∧ HeaderOverflows p.usizeSize data 0 := by
  have hmax := p.isizeMax_add_lt
  obtain ⟨e, he⟩ := readWhole_eq (p := p) data f (by omega)
  rw [he, HeaderOverflows]
  by_cases hhead : 8 ≤ data.length ∧ headerAt data 0 < p.usizeSize
  · rw [if_pos hhead]
    by_cases hover : p.usizeSize ≤ 8 + headerAt data 0
    · cases hchk : p.overflowChecks with
      | true => simp [hover, hhead, Panic.fault, eq_comm]
      | false => simp [hover]
    · rw [if_neg hover]
      have hrest : ¬ (if data.length = 8 + headerAt data 0 then f (data.drop 8) else .err e).Faults k := by
        split
        · exact hf _
        · exact id
      exact iff_of_false hrest fun h => hover (by simpa using h.2.2.2.2)
  · rw [if_neg hhead]
    exact iff_of_false id fun h => hhead ⟨by simpa using h.2.2.1, h.2.2.2.1⟩

/-! ## `Vec<T>` -/

section Vec

variable {size : Nat} {T : ContextTransmaterializable α} {data : Bytes} {fuel offset : Nat}

/-- The elements that an implementation decodes from a list of blocks. -/
abbrev Decodes (T : ContextTransmaterializable α) : List Bytes → List α → Prop :=
  List.Forall₂ fun b v => T.rematerialize b = .ok v

/-- A vector can be built from the blocks exactly if each of them is accepted. -/
theorem exists_decodes {bs : List Bytes} :
    (∃ es, Decodes T bs es) ↔ ∀ b ∈ bs, T.language.accepts b := by
  induction bs with
  | nil => exact iff_of_true ⟨[], .nil⟩ (by simp)
  | cons b bs ih =>
    simp only [List.forall_mem_cons, ← ih]
    constructor
    · rintro ⟨_, h⟩
      cases h with
      | cons hb hbs => exact ⟨⟨_, hb⟩, _, hbs⟩
    · rintro ⟨⟨e, he⟩, es, hes⟩
      exact ⟨e :: es, .cons he hes⟩

/-- Every block has a header, so no blocks means no elements. -/
theorem blocks_eq_nil {bs : List Bytes} (h : blocks bs = []) : bs = [] := by
  have := length_blocks bs
  rw [h] at this
  exact List.eq_nil_of_length_eq_zero (by simpa using this)

/-- **What the element loop of `Vec<T>` accepts**: a run of blocks to the end of the buffer, each of them
    an element. Fuel for every remaining byte is enough. -/
theorem vecLoop_eq_ok (hlt : data.length < p.usizeSize) (hoff : offset ≤ data.length)
    (hfuel : data.length ≤ offset + fuel) {v w : Buffer p size α} {stop : Nat} :
    vecLoop p size T data fuel offset v = .ok (stop, w) ↔
      stop = data.length ∧ ∃ bs es, data.drop offset = blocks bs ∧ Decodes T bs es ∧ w.Filled v es := by
  have hend : ∀ {o : Nat} {v w : Buffer p size α}, o = data.length →
      ((.ok (o, v) : Res _) = .ok (stop, w) ↔
        stop = data.length ∧ ∃ bs es, data.drop o = blocks bs ∧ Decodes T bs es ∧ w.Filled v es) := by
    rintro o v w rfl
    simp only [List.drop_length, Res.ok.injEq, Prod.mk.injEq]
    constructor
    · rintro ⟨rfl, rfl⟩
      exact ⟨rfl, [], [], rfl, .nil, Buffer.filled_nil.mpr rfl⟩
    · rintro ⟨rfl, bs, es, hbs, hdec, hw⟩
      obtain rfl := blocks_eq_nil hbs.symm
      cases hdec
      exact ⟨rfl, (Buffer.filled_nil.mp hw).symm⟩
  induction fuel generalizing offset v with
  | zero => exact hend (by omega)
  | succ fuel ih =>
    unfold vecLoop
    by_cases hmore : offset < data.length
    · rw [if_pos hmore]
      constructor
      · intro h
        -- one round: the block, the element, and the push; the rest is the rest of the loop
        obtain ⟨⟨b, next⟩, hread, h⟩ := Res.bind_eq_ok.mp h
        obtain ⟨e, he, h⟩ := Res.bind_eq_ok.mp h
        obtain ⟨v', hpush, h⟩ := Res.bind_eq_ok.mp h
        obtain ⟨hblock, rfl⟩ := (readBlock_eq_ok hlt hoff).mp hread
        obtain ⟨rfl, bs, es, hbs, hdec, hw⟩ := (ih hblock.2 (by omega)).mp h
        refine ⟨rfl, b :: bs, e :: es, ?_, .cons he hdec, (Buffer.filled_cons hpush).mpr hw⟩
        rw [hblock.1, hbs, blocks_cons]
      · rintro ⟨rfl, bs, es, hbs, hdec, hw⟩
        cases hdec with
        | nil =>
          have := congrArg List.length hbs
          rw [List.length_drop] at this
          simp at this
          omega
        | @cons b e bs es he hdec =>
          -- the vector comes to be as full as `w`, so there is room for this element
          obtain ⟨hblock, hrest⟩ := blockAt_of_drop hbs hoff
          obtain ⟨v', hpush⟩ := hw.exists_push
          rw [readBlock_of_blockAt hlt hblock]
          simp only [Res.ok_bind, he, hpush]
          exact (ih hblock.2 (by omega)).mpr ⟨rfl, bs, es, hrest, hdec, (Buffer.filled_cons hpush).mp hw⟩
    · rw [if_neg hmore]
      exact hend (by omega)

/-- **Where the element loop panics**: after a run of elements that fit the vector, at a header that
    overflows, an element that panics, or an element for which the vector cannot grow. -/
theorem vecLoop_faults (hle : data.length ≤ p.isizeMax) (hoff : offset ≤ data.length)
    (hfuel : data.length ≤ offset + fuel) {v : Buffer p size α} :
    (vecLoop p size T data fuel offset v).Faults k ↔
      ∃ bs es rest, data.drop offset = blocks bs ++ rest ∧ Decodes T bs es ∧
        capacityAfter size v.capacity v.elems.length es.length * size ≤ p.isizeMax ∧
        BadElement p.usizeSize p.isizeMax size T.language k data (offset + (blocks bs).length)
          (capacityAfter size v.capacity v.elems.length (es.length + 1)) := by
  -- at the end of the buffer there is nothing left to go wrong
  have hend : ∀ {o : Nat} {bs : List Bytes} {capacity : Nat}, data.length ≤ o →
      ¬ BadElement p.usizeSize p.isizeMax size T.language k data (o + (blocks bs).length) capacity := by
    rintro o bs capacity ho (⟨-, h⟩ | ⟨b, h, -⟩)
    · have := h.1; omega
    · have := h.2; omega
  induction fuel generalizing offset v with
  | zero =>
    refine iff_of_false id ?_
    rintro ⟨bs, es, rest, -, -, -, h⟩
    exact hend (by omega) h
  | succ fuel ih =>
    unfold vecLoop
    by_cases hmore : offset < data.length
    · rw [if_pos hmore]
      constructor
      · intro h
        have hhere : capacityAfter size v.capacity v.elems.length ([] : List α).length * size ≤ p.isizeMax := v.fits
        rcases Res.faults_bind.mp h with h | ⟨⟨b, next⟩, hread, h⟩
        · exact ⟨[], [], data.drop offset, rfl, .nil, hhere, .inl ((readBlock_faults hle hoff).mp h)⟩
        · obtain ⟨hblock, rfl⟩ := (readBlock_eq_ok (p.lt_usizeSize hle) hoff).mp hread
          rcases Res.faults_bind.mp h with h | ⟨e, he, h⟩
          · exact ⟨[], [], data.drop offset, rfl, .nil, hhere, .inr ⟨b, hblock, .inl h⟩⟩
          · rcases Res.faults_bind.mp h with h | ⟨v', hpush, h⟩
            · have hfull := Buffer.push_faults.mp h
              exact ⟨[], [], data.drop offset, rfl, .nil, hhere, .inr ⟨b, hblock, .inr ⟨⟨e, he⟩, hfull⟩⟩⟩
            · obtain ⟨bs, es, rest, hbs, hdec, hfits, h⟩ := (ih hblock.2 (by omega)).mp h
              rw [Buffer.capacityAfter_push hpush] at hfits h
              refine ⟨b :: bs, e :: es, rest, ?_, .cons he hdec, hfits, ?_⟩
              · rw [hblock.1, hbs, blocks_cons, List.append_assoc]
              · rwa [blocks_cons, List.length_append, length_block, ← Nat.add_assoc, ← Nat.add_assoc]
      · rintro ⟨bs, es, rest, hbs, hdec, hfits, h⟩
        cases hdec with
        | nil =>
          rw [Res.faults_bind]
          rcases h with h | ⟨b, hblock, h⟩
          · exact .inl ((readBlock_faults hle hoff).mpr h)
          · refine .inr ⟨_, (readBlock_eq_ok (p.lt_usizeSize hle) hoff).mpr ⟨hblock, rfl⟩, Res.faults_bind.mpr ?_⟩
            rcases h with h | ⟨⟨e, he⟩, hfull⟩
            · exact .inl h
            · exact .inr ⟨e, he, Res.faults_bind.mpr (.inl (Buffer.push_faults.mpr hfull))⟩
        | @cons b e bs es he hdec =>
          rw [blocks_cons, List.append_assoc] at hbs
          obtain ⟨hblock, hrest⟩ := blockAt_of_drop hbs hoff
          obtain ⟨v', hpush⟩ := Buffer.exists_push_of_le hfits e
          rw [(readBlock_eq_ok (p.lt_usizeSize hle) hoff).mpr ⟨hblock, rfl⟩]
          simp only [Res.ok_bind, he, hpush]
          rw [blocks_cons, List.length_append, length_block, ← Nat.add_assoc, ← Nat.add_assoc] at h
          refine (ih hblock.2 (by omega)).mpr ⟨bs, es, rest, hrest, hdec, ?_, ?_⟩
          · rwa [Buffer.capacityAfter_push hpush]
          · rwa [Buffer.capacityAfter_push hpush]
    · rw [if_neg hmore]
      refine iff_of_false id ?_
      rintro ⟨bs, es, rest, -, -, -, h⟩
      exact hend (by omega) h

/-- The steps of `Vec<T>::rematerialize` before the loop: the count header, then the capacity. -/
theorem vec_rematerialize (p : Platform) (size : Nat) (T : ContextTransmaterializable α) (data : Bytes) :
    (∃ e, ¬ CountHeader p.usizeSize data ∧ (vec p size T).rematerialize data = .err e) ∨
      CountHeader p.usizeSize data ∧ (vec p size T).rematerialize data = (do
        let buffer ← Buffer.withCapacity p size α (headerAt data 0)
        let (offset, buffer) ← vecLoop p size T data data.length 8 buffer
        requireBufferSize data offset
        .ok buffer.toRVec) := by
  by_cases h8 : 8 ≤ data.length
  · have hslice : slice data 0 8 = .ok ((data.drop 0).take 8) := slice_of_le (by omega) h8
    have hlen := length_take_drop_eight data 0 (by omega)
    have hread : usizeFromU64LeBytes p ((data.drop 0).take 8) = u64ToUsize p (headerAt data 0) :=
      if_pos hlen
    simp only [vec, requireMinBufferSize_of_le h8, hslice, hread, Res.ok_bind, u64ToUsize]
    by_cases hfit : headerAt data 0 < p.usizeSize
    · right
      exact ⟨⟨h8, hfit⟩, by simp only [if_pos hfit, Res.ok_bind]⟩
    · left
      exact ⟨_, fun h => hfit h.2, by simp only [if_neg hfit, Res.err_bind]; rfl⟩
  · left
    refine ⟨.bufferSizeMismatch 8 data.length, fun h => h8 h.1, ?_⟩
    simp only [vec, requireMinBufferSize, Nat.lt_of_not_le h8, if_true, Res.err_bind]

/-- **What `Vec<T>` accepts.** The count in the header is not among the conditions on the elements, but the
    vector grows from it. -/
theorem vec_rematerialize_eq_ok (hlt : data.length < p.usizeSize) {v : RVec p size α} :
    (vec p size T).rematerialize data = .ok v ↔
      CountHeader p.usizeSize data ∧ headerAt data 0 * size ≤ p.isizeMax ∧
        capacityAfter size (headerAt data 0) 0 v.elems.length * size ≤ p.isizeMax ∧
        ∃ bs, data.drop 8 = blocks bs ∧ Decodes T bs v.elems := by
  rcases vec_rematerialize p size T data with
    ⟨e, hhead, heq⟩ | ⟨hhead, heq⟩
  · rw [heq]
    exact iff_of_false (by simp) fun h => hhead h.1
  · rw [heq, and_iff_right hhead]
    by_cases hcap : headerAt data 0 * size ≤ p.isizeMax
    · have hloop (stop : Nat) (w : Buffer p size α) :
          vecLoop p size T data data.length 8 ⟨[], headerAt data 0, Or.inr (Nat.zero_le _), hcap⟩ = .ok (stop, w) ↔ _ :=
        vecLoop_eq_ok hlt hhead.1 (by omega)
      rw [Buffer.withCapacity_of_le hcap, Res.ok_bind, and_iff_right hcap, Res.bind_eq_ok]
      constructor
      · rintro ⟨⟨stop, w⟩, hrun, h⟩
        obtain ⟨-, bs, es, hbs, hdec, hw⟩ := (hloop stop w).mp hrun
        obtain ⟨_, -, h⟩ := Res.bind_eq_ok.mp h
        obtain rfl := Res.ok.inj h
        obtain rfl : w.elems = es := hw.elems
        exact ⟨hw.capacity ▸ w.fits, bs, hbs, hdec⟩
      · rintro ⟨hfits, bs, hbs, hdec⟩
        refine ⟨(data.length, ⟨v.elems, _, length_le_capacityAfter _ _ _, hfits⟩),
          (hloop _ _).mpr ⟨rfl, bs, v.elems, hbs, hdec, rfl, rfl⟩, ?_⟩
        simp only [requireBufferSize_of_eq rfl, Res.ok_bind]
        rfl
    · rw [Buffer.withCapacity_of_gt (Nat.lt_of_not_le hcap)]
      exact iff_of_false (by simp) fun h => hcap h.1

/-- The two panics of a vector: the allocation for the announced count, and, once that is made, whatever
    stands behind the elements that were read, with the buffer as full as they left it. -/
theorem vec_faults (hle : data.length ≤ p.isizeMax) :
    ((vec p size T).rematerialize data).Faults k ↔
      CountHeader p.usizeSize data ∧
        (k = .capacity ∧ p.isizeMax < headerAt data 0 * size ∨
          headerAt data 0 * size ≤ p.isizeMax ∧
            ∃ bs es rest, data.drop 8 = blocks bs ++ rest ∧ Decodes T bs es ∧
              capacityAfter size (headerAt data 0) 0 es.length * size ≤ p.isizeMax ∧
              BadElement p.usizeSize p.isizeMax size T.language k data (8 + (blocks bs).length)
                (capacityAfter size (headerAt data 0) 0 (es.length + 1))) := by
  rcases vec_rematerialize p size T data with
    ⟨e, hhead, heq⟩ | ⟨hhead, heq⟩
  · rw [heq]
    exact iff_of_false id fun h => hhead h.1
  · rw [heq, and_iff_right hhead]
    by_cases hcap : headerAt data 0 * size ≤ p.isizeMax
    · have hloop := vecLoop_faults (k := k) (T := T) hle hhead.1
        (show data.length ≤ 8 + data.length by omega)
        (v := (⟨[], headerAt data 0, Or.inr (Nat.zero_le _), hcap⟩ : Buffer p size α))
      simp only [List.length_nil] at hloop
      rw [Buffer.withCapacity_of_le hcap, Res.ok_bind, and_iff_right hcap,
        or_iff_right fun h => Nat.not_lt.mpr hcap h.2, Res.faults_bind, hloop]
      -- the last check of the source comes after the loop and never panics
      refine or_iff_left ?_
      rintro ⟨⟨stop, w⟩, -, h⟩
      exact requireBufferSize_no_fault _ _ (Res.wrap_faults.mp h)
    · rw [Buffer.withCapacity_of_gt (Nat.lt_of_not_le hcap), or_iff_left fun h => hcap h.1]
      exact ⟨fun h => ⟨h.symm, Nat.lt_of_not_le hcap⟩, fun h => h.1.symm⟩

/-- The grammar of a vector describes the loop of its decoder, accepted strings and panics alike. -/
theorem same_vec (T : ContextTransmaterializable α) :
    (vec p size T).language.Same p.isizeMax
      (vecGrammar p.usizeSize p.isizeMax size T.language) := by
  intro data hle
  constructor
  · show (∃ v, (vec p size T).rematerialize data = .ok v) ↔ _
    simp only [vec_rematerialize_eq_ok (p.lt_usizeSize hle), vecGrammar, Elements, ← exists_decodes]
    constructor
    · rintro ⟨v, hhead, hcap, hfits, bs, hbs, hdec⟩
      exact ⟨hhead, hcap, bs, hbs, hdec.length_eq ▸ hfits, v.elems, hdec⟩
    · rintro ⟨hhead, hcap, bs, hbs, hfits, es, hdec⟩
      rw [hdec.length_eq] at hfits
      exact ⟨⟨es, mul_size_le_of_capacityAfter hfits⟩, hhead, hcap, hfits, bs, hbs, hdec⟩
  · intro k
    show ((vec p size T).rematerialize data).Faults k ↔ _
    simp only [vec_faults hle, vecGrammar, Elements, ← exists_decodes]
    refine and_congr_right fun _ => or_congr_right (and_congr_right fun _ => ?_)
    constructor
    · rintro ⟨bs, es, rest, hbs, hdec, hfits, h⟩
      exact ⟨bs, rest, hbs, ⟨hdec.length_eq ▸ hfits, es, hdec⟩, hdec.length_eq ▸ h⟩
    · rintro ⟨bs, rest, hbs, ⟨hfits, es, hdec⟩, h⟩
      exact ⟨bs, es, rest, hbs, hdec, hdec.length_eq ▸ hfits, hdec.length_eq ▸ h⟩

end Vec

/-! ## `Option<T>` and `Result<T, E>` -/

section Tagged

variable {data : Bytes}

/-- A tagged payload is read if the header says the length of the rest, read modulo the size of `usize`. -/
theorem readTagged_eq_ok {f : Bytes → Res α} (hlt : data.length < p.usizeSize) (h9 : 9 ≤ data.length)
    {v : α} :
    readTagged p data f = .ok v ↔ TaggedBlock p.usizeSize data ∧ f (data.drop 9) = .ok v := by
  obtain ⟨e, he⟩ := readTagged_eq (p := p) data f hlt h9
  rw [he, TaggedBlock, and_iff_right h9]
  by_cases heq : data.length = 9 + p.asUsize (headerAt data 1)
  · rw [if_neg (by omega), if_pos heq]
    exact (and_iff_right heq).symm
  · rw [if_neg heq]
    refine iff_of_false ?_ fun h => heq h.1
    split <;> simp

/-- The sum `9 + length` overflows, or the payload is read and its own decoder panics. -/
theorem readTagged_faults {f : Bytes → Res α} (hle : data.length ≤ p.isizeMax) (h9 : 9 ≤ data.length) :
    (readTagged p data f).Faults k ↔
      k = .offset ∧ TaggedOverflows p.usizeSize data ∨
        TaggedBlock p.usizeSize data ∧ (f (data.drop 9)).Faults k := by
  have hmax := p.isizeMax_add_lt
  obtain ⟨e, he⟩ := readTagged_eq (p := p) data f (by omega) h9
  rw [he, TaggedBlock, TaggedOverflows, and_iff_right h9, and_iff_right h9]
  by_cases hover : p.usizeSize ≤ 9 + p.asUsize (headerAt data 1)
  · have hne : data.length ≠ 9 + headerAt data 1 % p.usizeSize := fun h => by
      rw [Platform.asUsize] at hover; omega
    rw [if_pos hover, Res.add_or_slice_faults, or_iff_left fun h => hne h.1]
    exact (and_iff_left hover).symm
  · rw [if_neg hover, or_iff_right fun h => hover h.2]
    by_cases heq : data.length = 9 + p.asUsize (headerAt data 1)
    · rw [if_pos heq]
      exact (and_iff_right heq).symm
    · rw [if_neg heq]
      exact iff_of_false id fun h => heq h.1

theorem option_rematerialize_nil {T : ContextTransmaterializable α} :
    (option p T).rematerialize [] = .err (.bufferSizeMismatch 1 0) := rfl

/-- `Option<T>` by the first byte of the buffer. -/
theorem option_rematerialize_cons {T : ContextTransmaterializable α} (d : UInt8) (rest : Bytes) :
    (option p T).rematerialize (d :: rest) =
      if d = 0 then (if rest = [] then .ok none else .err (.bufferSizeMismatch 1 (rest.length + 1)))
      else if d = 1 then
        if 9 ≤ (d :: rest).length then readTagged p (d :: rest) fun inner => do
          let value ← T.rematerialize inner
          .ok (some value)
        else .err (.bufferSizeMismatch 9 (rest.length + 1))
      else .err (.invalidOptionDiscriminant d) := by
  have h1 : requireMinBufferSize (d :: rest) 1 = .ok () := requireMinBufferSize_of_le (by simp)
  have hindex : index (d :: rest) 0 = .ok d := rfl
  simp only [option, h1, hindex, Res.ok_bind]
  by_cases h0 : d = 0
  · cases rest <;> simp [h0, requireBufferSize]
  · by_cases hd : d = 1
    · simp only [if_neg h0, if_pos hd]
      by_cases h9 : 9 ≤ (d :: rest).length
      · rw [if_pos h9, requireMinBufferSize_of_le h9]
        rfl
      · rw [if_neg h9, requireMinBufferSize, if_pos (by omega)]
        rfl
    · simp only [if_neg h0, if_neg hd]

theorem ne_zero_singleton {rest : Bytes} {d : UInt8} (h : d ≠ 0) : d :: rest ≠ [0] :=
  fun heq => h (List.cons.inj heq).1

/-- `Some` hands the rest to the inner decoder. `None` is one byte, and a longer string is no `None`. -/
theorem option_rematerialize_eq_ok {T : ContextTransmaterializable α} (hlt : data.length < p.usizeSize)
    {v : Option α} :
    (option p T).rematerialize data = .ok v ↔
      data = [0] ∧ v = none ∨
        data[0]? = some 1 ∧ TaggedBlock p.usizeSize data ∧
          ∃ w, T.rematerialize (data.drop 9) = .ok w ∧ v = some w := by
  cases data with
  | nil => rw [option_rematerialize_nil]; exact iff_of_false (by simp) (by simp)
  | cons d rest =>
    rw [option_rematerialize_cons, List.getElem?_cons_zero]
    by_cases h0 : d = 0
    · by_cases hrest : rest = [] <;> simp [h0, hrest, eq_comm]
    · rw [if_neg h0, or_iff_right fun h => ne_zero_singleton h0 h.1]
      by_cases hd : d = 1
      · rw [if_pos hd, and_iff_right (congrArg some hd)]
        by_cases h9 : 9 ≤ (d :: rest).length
        · rw [if_pos h9, readTagged_eq_ok hlt h9, Res.wrap_eq_ok]
        · rw [if_neg h9]
          exact iff_of_false (by simp) fun h => h9 h.1.1
      · rw [if_neg hd]
        exact iff_of_false (by simp) fun h => hd (Option.some.inj h.1)

/-- Only a `Some` can panic. -/
theorem option_faults {T : ContextTransmaterializable α} (hle : data.length ≤ p.isizeMax) :
    ((option p T).rematerialize data).Faults k ↔
      data[0]? = some 1 ∧
        (k = .offset ∧ TaggedOverflows p.usizeSize data ∨
          TaggedBlock p.usizeSize data ∧ (T.rematerialize (data.drop 9)).Faults k) := by
  cases data with
  | nil => rw [option_rematerialize_nil]; exact iff_of_false id (by simp)
  | cons d rest =>
    rw [option_rematerialize_cons, List.getElem?_cons_zero]
    by_cases h0 : d = 0
    · rw [if_pos h0]
      refine iff_of_false ?_ fun h => ?_
      · split <;> exact id
      · exact absurd (h0.symm.trans (Option.some.inj h.1)) (by decide)
    · rw [if_neg h0]
      by_cases hd : d = 1
      · rw [if_pos hd, and_iff_right (congrArg some hd)]
        by_cases h9 : 9 ≤ (d :: rest).length
        · rw [if_pos h9, readTagged_faults hle h9, Res.wrap_faults]
        · rw [if_neg h9]
          exact iff_of_false id fun h => h9 (h.elim (fun h => h.2.1) fun h => h.1.1)
      · rw [if_neg hd]
        exact iff_of_false id fun h => hd (Option.some.inj h.1)

/-- The grammar of an option describes its decoder. -/
theorem same_option (T : ContextTransmaterializable α) :
    (option p T).language.Same p.isizeMax (optionGrammar p.usizeSize T.language) := by
  intro data hle
  refine ⟨?_, fun k => option_faults hle⟩
  show (∃ v, (option p T).rematerialize data = .ok v) ↔ _
  simp only [option_rematerialize_eq_ok (p.lt_usizeSize hle), optionGrammar]
  constructor
  · rintro ⟨v, ⟨h, -⟩ | ⟨h1, hblock, w, hw, -⟩⟩
    · exact .inl h
    · exact .inr ⟨h1, hblock, w, hw⟩
  · rintro (h | ⟨h1, hblock, w, hw⟩)
    · exact ⟨none, .inl ⟨h, rfl⟩⟩
    · exact ⟨some w, .inr ⟨h1, hblock, w, hw, rfl⟩⟩

/-- `Result<T, E>` by the first byte of the buffer; the discriminant is only looked at after the length. -/
theorem result_rematerialize_cons {T : ContextTransmaterializable α} {E : ContextTransmaterializable β}
    (d : UInt8) (rest : Bytes) :
    (result p T E).rematerialize (d :: rest) =
      if 9 ≤ (d :: rest).length then readTagged p (d :: rest) fun inner =>
        if d = 0 then do
          let value ← T.rematerialize inner
          .ok (.ok value)
        else if d = 1 then do
          let error ← E.rematerialize inner
          .ok (.error error)
        else .err (.invalidResultDiscriminant d)
      else .err (.bufferSizeMismatch 9 (rest.length + 1)) := by
  have hindex : index (d :: rest) 0 = .ok d := rfl
  by_cases h9 : 9 ≤ (d :: rest).length
  · rw [if_pos h9]
    simp only [result, requireMinBufferSize_of_le h9, hindex, Res.ok_bind]
    rfl
  · rw [if_neg h9]
    simp only [result, requireMinBufferSize, Nat.lt_of_not_le h9, if_true, Res.err_bind]
    rfl

theorem result_rematerialize_nil {T : ContextTransmaterializable α} {E : ContextTransmaterializable β} :
    (result p T E).rematerialize [] = .err (.bufferSizeMismatch 9 0) := rfl

/-- Both sides are a block behind their byte. There is no third discriminant. -/
theorem result_rematerialize_eq_ok {T : ContextTransmaterializable α} {E : ContextTransmaterializable β}
    (hlt : data.length < p.usizeSize) {v : Except β α} :
    (result p T E).rematerialize data = .ok v ↔
      TaggedBlock p.usizeSize data ∧
        (data[0]? = some 0 ∧ (∃ w, T.rematerialize (data.drop 9) = .ok w ∧ v = .ok w) ∨
          data[0]? = some 1 ∧ ∃ e, E.rematerialize (data.drop 9) = .ok e ∧ v = .error e) := by
  cases data with
  | nil => rw [result_rematerialize_nil]; exact iff_of_false (by simp) (by simp)
  | cons d rest =>
    rw [result_rematerialize_cons, List.getElem?_cons_zero]
    by_cases h9 : 9 ≤ (d :: rest).length
    · rw [if_pos h9, readTagged_eq_ok hlt h9]
      refine and_congr_right fun _ => ?_
      by_cases h0 : d = 0
      · simp [h0, Res.wrap_eq_ok]
      · by_cases hd : d = 1 <;> simp [h0, hd, Res.wrap_eq_ok]
    · rw [if_neg h9]
      exact iff_of_false (by simp) fun h => h9 h.1.1

/-- The length is read before the discriminant is looked at, so it may overflow behind any first byte. -/
theorem result_faults {T : ContextTransmaterializable α} {E : ContextTransmaterializable β}
    (hle : data.length ≤ p.isizeMax) :
    ((result p T E).rematerialize data).Faults k ↔
      k = .offset ∧ TaggedOverflows p.usizeSize data ∨
        TaggedBlock p.usizeSize data ∧
          (data[0]? = some 0 ∧ (T.rematerialize (data.drop 9)).Faults k ∨
            data[0]? = some 1 ∧ (E.rematerialize (data.drop 9)).Faults k) := by
  cases data with
  | nil => rw [result_rematerialize_nil]; exact iff_of_false id (by simp [TaggedOverflows])
  | cons d rest =>
    rw [result_rematerialize_cons, List.getElem?_cons_zero]
    by_cases h9 : 9 ≤ (d :: rest).length
    · rw [if_pos h9, readTagged_faults hle h9]
      refine or_congr_right (and_congr_right fun _ => ?_)
      by_cases h0 : d = 0
      · simp [h0, Res.wrap_faults]
      · by_cases hd : d = 1 <;> simp [h0, hd, Res.wrap_faults]
    · rw [if_neg h9]
      exact iff_of_false id fun h => h9 (h.elim (fun h => h.2.1) fun h => h.1.1)

/-- The grammar of a result describes its decoder. -/
theorem same_result (T : ContextTransmaterializable α) (E : ContextTransmaterializable β) :
    (result p T E).language.Same p.isizeMax (resultGrammar p.usizeSize T.language E.language) := by
  intro data hle
  refine ⟨?_, fun k => result_faults hle⟩
  show (∃ v, (result p T E).rematerialize data = .ok v) ↔ _
  simp only [result_rematerialize_eq_ok (p.lt_usizeSize hle), resultGrammar]
  constructor
  · rintro ⟨v, hblock, ⟨h, w, hw, -⟩ | ⟨h, e, he, -⟩⟩
    · exact ⟨hblock, .inl ⟨h, w, hw⟩⟩
    · exact ⟨hblock, .inr ⟨h, e, he⟩⟩
  · rintro ⟨hblock, ⟨h, w, hw⟩ | ⟨h, e, he⟩⟩
    · exact ⟨.ok w, hblock, .inl ⟨h, w, hw, rfl⟩⟩
    · exact ⟨.error e, hblock, .inr ⟨h, e, he, rfl⟩⟩

end Tagged

/-! ## Field lists -/

section Fields

variable {style : BlockStyle} {T : ContextTransmaterializable α} {G : FieldsCodec β} {data : Bytes}
  {offset : Nat}

/-- A field is a block that its own decoder accepts, and the next one starts where it ends. -/
theorem cons_deserialize_eq_ok (hlt : data.length < p.usizeSize) (hoff : offset ≤ data.length)
    {v : α × β} {stop : Nat} :
    (FieldsCodec.cons p style T G).deserialize data offset = .ok (v, stop) ↔
      ∃ b, BlockAt data offset b ∧ T.rematerialize b = .ok v.1 ∧
        G.deserialize data (offset + 8 + b.length) = .ok (v.2, stop) := by
  simp only [FieldsCodec.cons]
  constructor
  · intro h
    obtain ⟨⟨b, next⟩, hread, h⟩ := Res.bind_eq_ok.mp h
    obtain ⟨hblock, rfl⟩ := (readBlock_eq_ok hlt hoff).mp hread
    obtain ⟨field, hfield, h⟩ := Res.bind_eq_ok.mp h
    obtain ⟨⟨fields, stop'⟩, hfields, h⟩ := Res.bind_eq_ok.mp h
    cases h
    exact ⟨b, hblock, hfield, hfields⟩
  · rintro ⟨b, hblock, hfield, hfields⟩
    rw [(readBlock_eq_ok hlt hoff).mpr ⟨hblock, rfl⟩]
    simp only [Res.ok_bind, hfield, hfields]

/-- The offset overflows at the header of the field, or the field panics, or it is accepted and a later one
    panics: the fields are read from left to right, and the first that fails ends the decoder. -/
theorem cons_faults (hle : data.length ≤ p.isizeMax) (hoff : offset ≤ data.length) :
    ((FieldsCodec.cons p style T G).deserialize data offset).Faults k ↔
      k = .offset ∧ HeaderOverflows p.usizeSize data offset ∨
        ∃ b, BlockAt data offset b ∧ ((T.rematerialize b).Faults k ∨
          T.language.accepts b ∧ (G.deserialize data (offset + 8 + b.length)).Faults k) := by
  simp only [FieldsCodec.cons]
  rw [Res.faults_bind, readBlock_faults hle hoff]
  refine or_congr_right ?_
  constructor
  · rintro ⟨⟨b, next⟩, hread, h⟩
    obtain ⟨hblock, rfl⟩ := (readBlock_eq_ok (p.lt_usizeSize hle) hoff).mp hread
    refine ⟨b, hblock, ?_⟩
    rcases Res.faults_bind.mp h with h | ⟨field, hfield, h⟩
    · exact .inl h
    · exact .inr ⟨⟨field, hfield⟩, Res.wrap_faults.mp h⟩
  · rintro ⟨b, hblock, h⟩
    refine ⟨_, (readBlock_eq_ok (p.lt_usizeSize hle) hoff).mpr ⟨hblock, rfl⟩, ?_⟩
    rcases h with h | ⟨⟨field, hfield⟩, h⟩
    · exact Res.faults_bind.mpr (.inl h)
    · exact Res.faults_bind.mpr (.inr ⟨field, hfield, Res.wrap_faults.mpr h⟩)

theorem same_nil (n : Nat) : FieldsCodec.nil.language.Same n .nil := by
  intro data offset _ _
  refine ⟨fun stop => ?_, fun k => iff_of_false id id⟩
  simp [FieldsCodec.language, FieldsCodec.nil, FieldsGrammar.nil, eq_comm]

/-- The grammar of a list of fields describes its decoder, from every offset. -/
theorem same_cons (T : ContextTransmaterializable α) (G : FieldsCodec β) :
    (FieldsCodec.cons p style T G).language.Same p.isizeMax
      (.cons p.usizeSize T.language G.language) := by
  intro data offset hle hoff
  refine ⟨fun stop => ?_, fun k => cons_faults hle hoff⟩
  show (∃ v, (FieldsCodec.cons p style T G).deserialize data offset = .ok (v, stop)) ↔ _
  simp only [cons_deserialize_eq_ok (p.lt_usizeSize hle) hoff]
  constructor
  · rintro ⟨v, b, hblock, hfield, hfields⟩
    exact ⟨b, hblock, ⟨v.1, hfield⟩, v.2, hfields⟩
  · rintro ⟨b, hblock, ⟨field, hfield⟩, fields, hfields⟩
    exact ⟨(field, fields), b, hblock, hfield, hfields⟩

/-- The three ways the source checks that a list of fields is the whole buffer. -/
theorem checkedFields_eq_ok {F : FieldsCodec α} {check : Nat → Res Unit} {v : α}
    (hcheck : ∀ n u, check n = .ok u ↔ n = data.length) :
    (do let (fields, offset) ← F.deserialize data 0
        check offset
        .ok fields) = .ok v ↔ F.deserialize data 0 = .ok (v, data.length) := by
  constructor
  · intro h
    obtain ⟨⟨fields, stop⟩, hfields, h⟩ := Res.bind_eq_ok.mp h
    obtain ⟨_, hend, h⟩ := Res.bind_eq_ok.mp h
    cases h
    rw [hfields, (hcheck _ _).mp hend]
  · intro h
    rw [h]
    simp only [Res.ok_bind, (hcheck _ ()).mpr rfl]

/-- The comparison of the end with the length of the data adds no panic. -/
theorem checkedFields_faults {F : FieldsCodec α} (check : Nat → Res Unit)
    (hcheck : ∀ n, ¬ (check n).Faults k) :
    (do let (fields, offset) ← F.deserialize data 0
        check offset
        .ok fields).Faults k ↔ (F.deserialize data 0).Faults k := by
  rw [Res.faults_bind]
  refine or_iff_left ?_
  rintro ⟨⟨fields, stop⟩, -, h⟩
  exact hcheck _ (Res.wrap_faults.mp h)

/-- The check of the derive macro: an error unless the whole buffer was consumed. -/
def consumed (data : Bytes) (offset : Nat) (e : DecodeError) : Res Unit :=
  if data.length ≠ offset then .err e else .ok ()

/-- Nothing may be left over. -/
theorem consumed_eq_ok {n : Nat} {e : DecodeError} {u : Unit} :
    consumed data n e = .ok u ↔ n = data.length := by
  by_cases h : n = data.length
  · simp [consumed, h]
  · simp [consumed, h, Ne.symm h]

theorem consumed_no_fault (data : Bytes) (n : Nat) (e : DecodeError) :
    ¬ (consumed data n e).Faults k := by
  unfold consumed; split <;> exact id

/-- The generated decoder of a struct, with the test at its end by name. -/
theorem deriveStructNamed_rematerialize (F : FieldsCodec α) (data : Bytes) :
    (deriveStructNamed F).rematerialize data = (do
      let (fields, offset) ← F.deserialize data 0
      consumed data offset (.notConsumed data.length offset)
      .ok fields) := by
  simp only [deriveStructNamed, consumed]
  congr 1
  funext ⟨fields, offset⟩
  split <;> rfl

/-- The generated arm of a variant with fields, with the test at its end by name. -/
theorem fieldsArm_deserialize (F : FieldsCodec α) (data : Bytes) :
    (fieldsArm F).deserialize data = (do
      let (fields, offset) ← F.deserialize data 0
      consumed data offset (.payloadNotConsumed data.length offset)
      .ok fields) := by
  simp only [fieldsArm, consumed, ne_comm]
  congr 1
  funext ⟨fields, offset⟩
  split <;> rfl

/-- A tuple is accepted if its fields take all of the data. -/
theorem tuple_rematerialize_eq_ok {F : FieldsCodec α} {v : α} :
    (tuple F).rematerialize data = .ok v ↔ F.deserialize data 0 = .ok (v, data.length) :=
  checkedFields_eq_ok fun _ _ => requireBufferSize_eq_ok.trans eq_comm

/-- So is a struct: only the error of the test differs. -/
theorem deriveStructNamed_rematerialize_eq_ok {F : FieldsCodec α} {v : α} :
    (deriveStructNamed F).rematerialize data = .ok v ↔ F.deserialize data 0 = .ok (v, data.length) := by
  rw [deriveStructNamed_rematerialize]
  exact checkedFields_eq_ok fun _ _ => consumed_eq_ok

theorem fieldsArm_deserialize_eq_ok {F : FieldsCodec α} {v : α} :
    (fieldsArm F).deserialize data = .ok v ↔ F.deserialize data 0 = .ok (v, data.length) := by
  rw [fieldsArm_deserialize]
  exact checkedFields_eq_ok fun _ _ => consumed_eq_ok

/-- The three forms of fields have one grammar. -/
theorem same_tuple (F : FieldsCodec α) (n : Nat) :
    (tuple F).language.Same n (fieldsGrammar F.language) := fun data _ =>
  ⟨exists_congr fun _ => tuple_rematerialize_eq_ok,
    fun _ => checkedFields_faults (requireBufferSize data) fun _ => requireBufferSize_no_fault _ _⟩

theorem same_deriveStructNamed (F : FieldsCodec α) (n : Nat) :
    (deriveStructNamed F).language.Same n (fieldsGrammar F.language) := fun data _ => by
  refine ⟨exists_congr fun _ => deriveStructNamed_rematerialize_eq_ok, fun k => ?_⟩
  show ((deriveStructNamed F).rematerialize data).Faults k ↔ _
  rw [deriveStructNamed_rematerialize]
  exact checkedFields_faults (fun n => consumed data n (.notConsumed data.length n))
    fun _ => consumed_no_fault _ _ _

theorem same_fieldsArm (F : FieldsCodec α) (n : Nat) :
    (fieldsArm F).language.Same n (fieldsGrammar F.language) := fun data _ => by
  refine ⟨exists_congr fun _ => fieldsArm_deserialize_eq_ok, fun k => ?_⟩
  show ((fieldsArm F).deserialize data).Faults k ↔ _
  rw [fieldsArm_deserialize]
  exact checkedFields_faults (fun n => consumed data n (.payloadNotConsumed data.length n))
    fun _ => consumed_no_fault _ _ _

end Fields

theorem deriveStructUnit_rematerialize_eq_ok {data : Bytes} {v : Unit} :
    deriveStructUnit.rematerialize data = .ok v ↔ data = [] := by
  cases data <;> simp [deriveStructUnit]

theorem same_deriveStructUnit (n : Nat) :
    deriveStructUnit.language.Same n (leafGrammar fun _ : Unit => []) :=
  same_leaf deriveStructUnit_rematerialize_eq_ok
    (fun k b => by simp only [deriveStructUnit]; split <;> exact id) n

/-! ## Enums -/

section Enums

variable {A : ArmCodec α} {V : VariantsCodec β} {data : Bytes}

/-- A variant without fields has an empty payload. -/
theorem unitArm_deserialize_eq_ok {v : Unit} : unitArm.deserialize data = .ok v ↔ data = [] := by
  cases data <;> simp [unitArm]

theorem same_unitArm (n : Nat) : unitArm.language.Same n (leafGrammar fun _ : Unit => []) :=
  fun b _ => ⟨exists_congr fun _ => unitArm_deserialize_eq_ok,
    fun _ => iff_of_false (by simp only [ArmCodec.language, unitArm]; split <;> exact id) id⟩

theorem same_variantsNil (n : Nat) : VariantsCodec.nil.language.Same n .nil :=
  fun _ _ _ => ⟨iff_of_false (by rintro ⟨v, -⟩; exact v.elim) id, fun _ => iff_of_false id id⟩

/-- The arms are tried in order, and the first with the name decides. -/
theorem same_variantsCons (name : String) (A : ArmCodec α) (V : VariantsCodec β) (n : Nat) :
    (VariantsCodec.cons name A V).language.Same n (.cons name A.language V.language) := by
  intro name' b _
  by_cases h : name' = name
  · simp only [VariantsCodec.language, VariantsCodec.cons, VariantsGrammar.cons, if_pos h]
    refine ⟨?_, fun k => Res.wrap_faults⟩
    simp only [Res.wrap_eq_ok, ArmCodec.language]
    exact ⟨fun ⟨_, v, hv, _⟩ => ⟨v, hv⟩, fun ⟨v, hv⟩ => ⟨_, v, hv, rfl⟩⟩
  · simp only [VariantsCodec.language, VariantsCodec.cons, VariantsGrammar.cons, if_neg h]
    refine ⟨?_, fun k => Res.wrap_faults⟩
    simp only [Res.wrap_eq_ok]
    exact ⟨fun ⟨_, v, hv, _⟩ => ⟨v, hv⟩, fun ⟨v, hv⟩ => ⟨_, v, hv, rfl⟩⟩

/-- The generated decoder of an enum: the name, the payload, the arm, and the test that nothing is left over. -/
theorem deriveEnum_rematerialize (p : Platform) (V : VariantsCodec β) (data : Bytes) :
    (deriveEnum p V).rematerialize data = (do
      let (variantNameBytes, offset) ← readBlock p .variantName data 0
      let variantName ← fromUtf8 variantNameBytes
      let (payloadData, offset) ← readBlock p .payload data offset
      let result ← V.deserialize variantName payloadData
      consumed data offset (.notConsumed data.length offset)
      .ok result) := by
  simp only [deriveEnum, consumed]
  congr 1; funext ⟨_, _⟩
  congr 1; funext _
  congr 1; funext ⟨_, _⟩
  congr 1; funext _
  split <;> rfl

/-- A variant is two blocks and nothing behind them. The first is the name in UTF-8, and the payload is that
    of the arm with this name. -/
theorem deriveEnum_rematerialize_eq_ok (hlt : data.length < p.usizeSize) {v : β} :
    (deriveEnum p V).rematerialize data = .ok v ↔
      ∃ name payload, BlockAt data 0 (asBytes name) ∧
        BlockAt data (8 + (asBytes name).length) payload ∧
        data.length = 8 + (asBytes name).length + 8 + payload.length ∧
        V.deserialize name payload = .ok v := by
  rw [deriveEnum_rematerialize]
  constructor
  · intro h
    obtain ⟨⟨b, next⟩, hread, h⟩ := Res.bind_eq_ok.mp h
    obtain ⟨hname, rfl⟩ := (readBlock_eq_ok hlt (Nat.zero_le _)).mp hread
    obtain ⟨name, hutf8, h⟩ := Res.bind_eq_ok.mp h
    obtain rfl := fromUtf8_eq_ok.mp hutf8
    obtain ⟨⟨payload, next⟩, hread, h⟩ := Res.bind_eq_ok.mp h
    obtain ⟨hpayload, rfl⟩ := (readBlock_eq_ok hlt hname.2).mp hread
    obtain ⟨w, hw, h⟩ := Res.bind_eq_ok.mp h
    obtain ⟨_, hend, h⟩ := Res.bind_eq_ok.mp h
    cases h
    rw [Nat.zero_add] at hpayload
    refine ⟨name, payload, hname, hpayload, ?_, hw⟩
    have := consumed_eq_ok.mp hend
    omega
  · rintro ⟨name, payload, hname, hpayload, hlen, hv⟩
    have hread : readBlock p .variantName data 0 = .ok _ :=
      (readBlock_eq_ok hlt (Nat.zero_le _)).mpr ⟨hname, rfl⟩
    have hread' : readBlock p .payload data (8 + (asBytes name).length) = .ok _ :=
      (readBlock_eq_ok hlt (by omega)).mpr ⟨hpayload, rfl⟩
    simp only [hread, Res.ok_bind, fromUtf8_eq_ok.mpr rfl, Nat.zero_add, hread', hv]
    rw [consumed_eq_ok (u := ()).mpr hlen.symm, Res.ok_bind]

/-- The offsets of the two blocks may overflow, the second only if the first is a name. The name itself is
    looked up after both are read. -/
theorem deriveEnum_faults (hle : data.length ≤ p.isizeMax) :
    ((deriveEnum p V).rematerialize data).Faults k ↔
      k = .offset ∧ HeaderOverflows p.usizeSize data 0 ∨
        ∃ name, BlockAt data 0 (asBytes name) ∧
          (k = .offset ∧ HeaderOverflows p.usizeSize data (8 + (asBytes name).length) ∨
            ∃ payload, BlockAt data (8 + (asBytes name).length) payload ∧
              (V.deserialize name payload).Faults k) := by
  rw [deriveEnum_rematerialize, Res.faults_bind, readBlock_faults hle (Nat.zero_le _)]
  refine or_congr_right ?_
  constructor
  · rintro ⟨⟨b, next⟩, hread, h⟩
    obtain ⟨hname, rfl⟩ := (readBlock_eq_ok (p.lt_usizeSize hle) (Nat.zero_le _)).mp hread
    rcases Res.faults_bind.mp h with h | ⟨name, hutf8, h⟩
    · exact absurd h (fromUtf8_no_fault b)
    · obtain rfl := fromUtf8_eq_ok.mp hutf8
      rw [Nat.zero_add] at h
      refine ⟨name, hname, ?_⟩
      have hoff : 8 + (asBytes name).length ≤ data.length := by have := hname.2; omega
      rcases Res.faults_bind.mp h with h | ⟨⟨payload, next⟩, hread, h⟩
      · exact .inl ((readBlock_faults hle hoff).mp h)
      · obtain ⟨hpayload, rfl⟩ := (readBlock_eq_ok (p.lt_usizeSize hle) hoff).mp hread
        refine .inr ⟨payload, hpayload, ?_⟩
        rcases Res.faults_bind.mp h with h | ⟨w, -, h⟩
        · exact h
        · exact absurd (Res.wrap_faults.mp h) (consumed_no_fault _ _ _)
  · rintro ⟨name, hname, h⟩
    have hoff : 8 + (asBytes name).length ≤ data.length := by have := hname.2; omega
    refine ⟨_, (readBlock_eq_ok (p.lt_usizeSize hle) (Nat.zero_le _)).mpr ⟨hname, rfl⟩, ?_⟩
    simp only [fromUtf8_eq_ok.mpr rfl, Res.ok_bind, Nat.zero_add]
    rw [Res.faults_bind]
    rcases h with h | ⟨payload, hpayload, h⟩
    · exact .inl ((readBlock_faults hle hoff).mpr h)
    · refine .inr ⟨_, (readBlock_eq_ok (p.lt_usizeSize hle) hoff).mpr ⟨hpayload, rfl⟩, ?_⟩
      exact Res.faults_bind.mpr (.inl h)

/-- The grammar of an enum describes its decoder. -/
theorem same_deriveEnum (V : VariantsCodec β) :
    (deriveEnum p V).language.Same p.isizeMax (enumGrammar p.usizeSize V.language) := by
  intro data hle
  refine ⟨?_, fun k => deriveEnum_faults hle⟩
  show (∃ v, (deriveEnum p V).rematerialize data = .ok v) ↔ _
  simp only [deriveEnum_rematerialize_eq_ok (p.lt_usizeSize hle)]
  constructor
  · rintro ⟨v, name, payload, hname, hpayload, hlen, hv⟩
    exact ⟨name, payload, hname, hpayload, hlen, v, hv⟩
  · rintro ⟨name, payload, hname, hpayload, hlen, v, hv⟩
    exact ⟨v, name, payload, hname, hpayload, hlen, hv⟩

theorem same_deriveEnumEmpty (name : String) (n : Nat) :
    (deriveEnumEmpty name).language.Same n (leafGrammar (Empty.elim : Empty → Bytes)) :=
  fun _ _ => ⟨iff_of_false (fun ⟨v, _⟩ => v.elim) (fun ⟨v, _⟩ => v.elim), fun _ => iff_of_false id id⟩

end Enums

end Codec
end Wormhole
