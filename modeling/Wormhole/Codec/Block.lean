import Wormhole.Codec.Wire

/-!
# `Codec.Block` — one specification for reading a block

`readBlock` is the step that every decoder of a list repeats. On a slice of the target it has four
outcomes, fixed by the header alone: an error (no room for the header, a header beyond `usize`, or data
that is cut short), the block, or — when the header lies just below `usize::MAX`, so that
`offset + length` leaves `usize` — a panic. Callers use `readBlock_eq_ok` and `readBlock_eq_panic` and
never unfold the function.
-/

namespace Wormhole
namespace Codec

open LittleEndian

/-! ## Slices -/

/-- A slice is there exactly if its ends are in order and inside. -/
theorem slice_eq_ok {data s : Bytes} {a b : Nat} :
    slice data a b = .ok s ↔ a ≤ b ∧ b ≤ data.length ∧ (data.drop a).take (b - a) = s := by
  unfold slice
  split
  · rename_i h; simp [h]
  · rename_i h
    constructor
    · intro hs; cases hs
    · rintro ⟨h1, h2, -⟩; exact absurd ⟨h1, h2⟩ h

theorem slice_of_le {data : Bytes} {a b : Nat} (hab : a ≤ b) (hb : b ≤ data.length) :
    slice data a b = .ok ((data.drop a).take (b - a)) := if_pos ⟨hab, hb⟩

/-- The slice between two points of a concatenation. -/
theorem slice_append (xs ys zs : Bytes) {a b : Nat} (ha : a = xs.length)
    (hb : b = xs.length + ys.length) : slice (xs ++ (ys ++ zs)) a b = .ok ys := by
  subst ha hb
  rw [slice_of_le (by omega) (by simp only [List.length_append]; omega), List.drop_left,
    Nat.add_sub_cancel_left, List.take_left]

/-- A slice of a `drop` that is known to start with `ys`. -/
theorem slice_of_drop {data ys zs : Bytes} {a b : Nat} (h : data.drop a = ys ++ zs)
    (hb : b = a + ys.length) (hle : b ≤ data.length) : slice data a b = .ok ys := by
  subst hb
  rw [slice_of_le (by omega) hle, h, Nat.add_sub_cancel_left, List.take_left]

/-! ## Buffer size checks -/

@[simp] theorem requireBufferSize_eq_ok {b : Bytes} {n : Nat} {u : Unit} :
    requireBufferSize b n = .ok u ↔ b.length = n := by
  by_cases h : b.length = n <;> simp [requireBufferSize, h]

@[simp] theorem requireMinBufferSize_eq_ok {b : Bytes} {n : Nat} {u : Unit} :
    requireMinBufferSize b n = .ok u ↔ n ≤ b.length := by
  by_cases h : b.length < n
  · simp [requireMinBufferSize, h]
  · simp [requireMinBufferSize, h, Nat.le_of_not_lt h]

theorem requireBufferSize_of_eq {b : Bytes} {n : Nat} (h : b.length = n) :
    requireBufferSize b n = .ok () := requireBufferSize_eq_ok.mpr h

theorem requireMinBufferSize_of_le {b : Bytes} {n : Nat} (h : n ≤ b.length) :
    requireMinBufferSize b n = .ok () := requireMinBufferSize_eq_ok.mpr h

/-- The whole buffer as a slice. -/
theorem slice_all (b : Bytes) : slice b 0 b.length = .ok b := by
  rw [slice_of_le (Nat.zero_le _) (Nat.le_refl _), List.drop_zero, Nat.sub_zero, List.take_length]

theorem u64FromLeBytes_of_length {b : Bytes} (h : b.length = 8) :
    u64FromLeBytes b = .ok (fromLeBytes b) := if_pos h

/-! ## Headers -/

/-- The number in the eight bytes at `offset`. -/
def headerAt (data : Bytes) (offset : Nat) : Nat := fromLeBytes ((data.drop offset).take 8)

/-- The header at `offset` is below `usizeSize`, but the end of the block it announces is not. -/
def HeaderOverflows (usizeSize : Nat) (data : Bytes) (offset : Nat) : Prop :=
  offset + 8 ≤ data.length ∧ headerAt data offset < usizeSize ∧
    usizeSize ≤ offset + 8 + headerAt data offset

/-- The block `b` stands at `offset` in full. -/
def BlockAt (data : Bytes) (offset : Nat) (b : Bytes) : Prop :=
  data.drop offset = block b ++ data.drop (offset + 8 + b.length) ∧
    offset + 8 + b.length ≤ data.length

/-- The header of a block is the length of its payload, if that fits eight bytes. -/
theorem headerAt_of_drop {data b rest : Bytes} {offset : Nat} (h : data.drop offset = block b ++ rest)
    (hb : b.length < 256 ^ 8) : headerAt data offset = b.length := by
  have htake : (data.drop offset).take 8 = toLeBytes 8 b.length := by
    rw [h, block, List.append_assoc]
    exact List.take_left' (length_toLeBytes 8 _)
  rw [headerAt, htake, fromLeBytes_toLeBytes_of_lt hb]

theorem length_take_drop_eight (data : Bytes) (offset : Nat) (h : offset + 8 ≤ data.length) :
    ((data.drop offset).take 8).length = 8 := by
  rw [List.length_take, List.length_drop]; omega

/-- The eight bytes at `offset` spell the header. -/
theorem drop_eq_header_append (data : Bytes) (offset : Nat) (h : offset + 8 ≤ data.length) :
    data.drop offset = toLeBytes 8 (headerAt data offset) ++ data.drop (offset + 8) := by
  rw [headerAt, toLeBytes_fromLeBytes_of_length (length_take_drop_eight data offset h), ← List.drop_drop]
  exact (List.take_append_drop 8 _).symm

/-- Where an encoded block stands it is found, and what follows it starts at its end. -/
theorem blockAt_of_drop {data b rest : Bytes} {offset : Nat} (h : data.drop offset = block b ++ rest)
    (hoff : offset ≤ data.length) :
    BlockAt data offset b ∧ data.drop (offset + 8 + b.length) = rest := by
  have hrest : data.drop (offset + 8 + b.length) = rest := by
    rw [Nat.add_assoc, ← List.drop_drop, h]
    exact List.drop_left' (length_block b)
  have hlen := congrArg List.length h
  simp only [List.length_drop, List.length_append, length_block] at hlen
  exact ⟨⟨by rw [h, hrest], by omega⟩, hrest⟩

/-! ## `readBlock` -/

section ReadBlock

variable {p : Platform} {style : BlockStyle} {data : Bytes} {offset : Nat}

/-- **The steps of `readBlock`**, once the header is there. -/
theorem readBlock_of_header (style : BlockStyle) (hlt : data.length < p.usizeSize) (h8 : offset + 8 ≤ data.length) :
    ∃ e, readBlock p style data offset =
      if headerAt data offset < p.usizeSize then do
        let stop ← p.usizeAdd (offset + 8) (headerAt data offset)
        if data.length < stop then .err (style.cut stop data.length) else
        let bytes ← slice data (offset + 8) stop
        .ok (bytes, stop)
      else .err e := by
  have hadd : p.usizeAdd offset 8 = .ok (offset + 8) := Platform.usizeAdd_of_lt (by omega)
  have hslice : slice data offset (offset + 8) = .ok ((data.drop offset).take 8) := by
    rw [slice_of_le (by omega) h8, Nat.add_sub_cancel_left]
  obtain ⟨e, he⟩ := style.readLength_eq p _ (length_take_drop_eight data offset h8)
  refine ⟨e, ?_⟩
  rw [show fromLeBytes ((data.drop offset).take 8) = headerAt data offset from rfl] at he
  simp only [readBlock, hadd, Res.ok_bind, if_neg (Nat.not_lt.mpr h8), hslice, he]
  by_cases hfit : headerAt data offset < p.usizeSize
  · simp only [if_pos hfit, Res.ok_bind]
  · simp only [if_neg hfit, Res.err_bind]

/-- A block that stands at `offset` in full is read. -/
theorem readBlock_of_blockAt (hlt : data.length < p.usizeSize) {b : Bytes} (h : BlockAt data offset b) :
    readBlock p style data offset = .ok (b, offset + 8 + b.length) := by
  obtain ⟨hdrop, hle⟩ := h
  have h8 : offset + 8 ≤ data.length := by omega
  have hlen : b.length < p.usizeSize := by omega
  have hhead := headerAt_of_drop hdrop (Nat.lt_of_lt_of_le hlen p.usizeSize_le)
  have hsum : p.usizeAdd (offset + 8) b.length = .ok (offset + 8 + b.length) :=
    Platform.usizeAdd_of_lt (by omega)
  have hdrop8 : data.drop (offset + 8) = b ++ data.drop (offset + 8 + b.length) := by
    have := drop_eq_header_append data offset h8
    rw [hdrop, hhead, block, List.append_assoc] at this
    exact (List.append_cancel_left this).symm
  have hslice : slice data (offset + 8) (offset + 8 + b.length) = .ok b :=
    slice_of_drop hdrop8 rfl hle
  obtain ⟨e, he⟩ := readBlock_of_header style hlt h8
  rw [he]
  simp only [hhead, if_pos hlen, hsum, Res.ok_bind, if_neg (Nat.not_lt.mpr hle), hslice]

/-- Without eight bytes for the header the reader reports how many it needed and how many there were. -/
theorem readBlock_short (hlt : offset + 8 < p.usizeSize) (h8 : data.length < offset + 8) :
    readBlock p style data offset = .err (style.short (offset + 8) data.length) := by
  simp only [readBlock, Platform.usizeAdd_of_lt hlt, Res.ok_bind, if_pos h8]

/-- Without room for a header there is no block, not even where the end of the header wraps. -/
theorem readBlock_ne_ok (hlt : data.length < p.usizeSize) (hoff : offset ≤ data.length)
    (h8 : data.length < offset + 8) {b : Bytes} {next : Nat} : readBlock p style data offset ≠ .ok (b, next) := by
  have hroom := p.sixteen_lt
  by_cases hfit : offset + 8 < p.usizeSize
  · rw [readBlock_short hfit h8]
    nofun
  · have hwrap := Platform.usizeAdd_wraps (p := p) (a := offset) (b := 8) (by omega) (by omega) (by omega)
    have hcut : ¬ data.length < offset + 8 - p.usizeSize := by omega
    have hslice : slice data offset (offset + 8 - p.usizeSize) = .panic .sliceIndex := if_neg (by omega)
    rw [readBlock, hwrap]
    cases p.overflowChecks with
    | true => nofun
    | false =>
      simp only [Bool.false_eq_true, if_false, Res.ok_bind, if_neg hcut, hslice, Res.panic_bind]
      nofun

/-- **The block is read** exactly when it stands at `offset` in full. -/
theorem readBlock_eq_ok (hlt : data.length < p.usizeSize) (hoff : offset ≤ data.length) {b : Bytes}
    {next : Nat} :
    readBlock p style data offset = .ok (b, next) ↔
      BlockAt data offset b ∧ next = offset + 8 + b.length := by
  by_cases h8 : offset + 8 ≤ data.length
  · obtain ⟨e, he⟩ := readBlock_of_header (p := p) style hlt h8
    rw [he]
    constructor
    · intro h
      split at h
      · rename_i hfit
        obtain ⟨stop, hstop, h⟩ := Res.bind_eq_ok.mp h
        split at h
        · cases h
        · rename_i hcut
          obtain ⟨bytes, hbytes, h⟩ := Res.bind_eq_ok.mp h
          cases h
          obtain ⟨hstart, hend, hb⟩ := slice_eq_ok.mp hbytes
          have hsum : next = offset + 8 + headerAt data offset := by
            by_cases hover : p.usizeSize ≤ offset + 8 + headerAt data offset
            · -- a wrapped sum would end before the block starts
              rw [Platform.usizeAdd_wraps (by omega) hfit hover] at hstop
              split at hstop
              · cases hstop
              · have := Res.ok.inj hstop
                omega
            · rw [Platform.usizeAdd_of_lt (by omega)] at hstop
              exact (Res.ok.inj hstop).symm
          have hlen : b.length = headerAt data offset := by
            rw [← hb, List.length_take, List.length_drop]; omega
          obtain rfl : next = offset + 8 + b.length := by omega
          refine ⟨⟨?_, hend⟩, rfl⟩
          rw [drop_eq_header_append data offset h8, ← hlen, block, List.append_assoc]
          congr 1
          rw [Nat.add_sub_cancel_left] at hb
          conv_lhs => rw [← List.take_append_drop b.length (data.drop (offset + 8))]
          rw [hb, List.drop_drop]
      · cases h
    · rintro ⟨hblock, rfl⟩
      rw [← he]
      exact readBlock_of_blockAt hlt hblock
  · refine iff_of_false (readBlock_ne_ok hlt hoff (by omega)) ?_
    rintro ⟨⟨-, hend⟩, -⟩
    omega

/-- **The read panics** exactly when the header overflows: on the addition in a build with overflow
    checks, on the slice otherwise. -/
theorem readBlock_eq_panic (hle : data.length ≤ p.isizeMax) (hoff : offset ≤ data.length) {k : Panic} :
    readBlock p style data offset = .panic k ↔
      HeaderOverflows p.usizeSize data offset ∧
        k = if p.overflowChecks then .addOverflow else .sliceIndex := by
  have hmax := p.isizeMax_add_lt
  by_cases h8 : offset + 8 ≤ data.length
  · obtain ⟨e, he⟩ := readBlock_of_header (p := p) style (by omega) h8
    rw [he]
    by_cases hfit : headerAt data offset < p.usizeSize
    · simp only [if_pos hfit]
      by_cases hover : p.usizeSize ≤ offset + 8 + headerAt data offset
      · have hsum : p.usizeAdd (offset + 8) (headerAt data offset) =
            if p.overflowChecks then .panic .addOverflow
            else .ok (offset + 8 + headerAt data offset - p.usizeSize) := by
          rw [Platform.usizeAdd, if_neg (Nat.not_lt.mpr hover),
            Nat.mod_eq_sub_mod (by omega), Nat.mod_eq_of_lt (by omega)]
        rw [hsum]
        cases hchk : p.overflowChecks with
        | true => simp [HeaderOverflows, h8, hfit, hover, eq_comm]
        | false =>
          have hslice : slice data (offset + 8) (offset + 8 + headerAt data offset - p.usizeSize)
              = .panic .sliceIndex := if_neg (by omega)
          have hcut : ¬ data.length < offset + 8 + headerAt data offset - p.usizeSize := by omega
          simp [HeaderOverflows, h8, hfit, hover, hslice, hcut, eq_comm]
      · have hsum : p.usizeAdd (offset + 8) (headerAt data offset)
            = .ok (offset + 8 + headerAt data offset) := Platform.usizeAdd_of_lt (by omega)
        simp only [hsum, Res.ok_bind, HeaderOverflows, hover, and_false, false_and, iff_false]
        split
        · simp
        · rename_i hcut
          rw [slice_of_le (by omega) (by omega)]
          simp
    · simp [HeaderOverflows, hfit]
  · rw [readBlock_short (by omega) (by omega)]
    simp [HeaderOverflows, h8]

/-- The only panic of a reader is the sum of the offset and the length. -/
theorem readBlock_faults (hle : data.length ≤ p.isizeMax) (hoff : offset ≤ data.length) {k : Fault} :
    (readBlock p style data offset).Faults k ↔
      k = .offset ∧ HeaderOverflows p.usizeSize data offset := by
  constructor
  · intro h
    cases hread : readBlock p style data offset with
    | ok x => rw [hread] at h; exact absurd h id
    | err e => rw [hread] at h; exact absurd h id
    | panic reason =>
      obtain ⟨hover, rfl⟩ := (readBlock_eq_panic hle hoff).mp hread
      rw [hread, Res.add_or_slice_faults] at h
      exact ⟨h, hover⟩
  · rintro ⟨rfl, hover⟩
    rw [(readBlock_eq_panic hle hoff).mpr ⟨hover, rfl⟩, Res.add_or_slice_faults]

end ReadBlock

/-- The block that an encoder wrote after `pre`. -/
theorem blockAt_append (pre b post : Bytes) : BlockAt (pre ++ (block b ++ post)) pre.length b := by
  have hlen : pre.length + 8 + b.length = (pre ++ block b).length := by simp [Nat.add_assoc]
  refine ⟨?_, by simp only [List.length_append, length_block]; omega⟩
  rw [hlen, List.drop_left, ← List.append_assoc, List.drop_left]

/-- An encoded block is read back in any surroundings, and the reader stops behind it. -/
theorem readBlock_block {p : Platform} (style : BlockStyle) (pre b post : Bytes)
    (hlt : (pre ++ (block b ++ post)).length < p.usizeSize) :
    readBlock p style (pre ++ (block b ++ post)) pre.length = .ok (b, (pre ++ block b).length) := by
  rw [readBlock_of_blockAt hlt (blockAt_append pre b post)]
  simp [Nat.add_assoc]

/-! ## A block that fills the buffer -/

/-- `Vec<u8>` and `String`: the buffer is one block and nothing else. -/
def readWhole (p : Platform) {α : Type} (data : Bytes) (f : Bytes → Res α) : Res α := do
  requireMinBufferSize data 8
  let header ← slice data 0 8
  let length ← usizeFromU64LeBytes p header
  let stop ← p.usizeAdd 8 length
  requireBufferSize data stop
  let bytes ← slice data 8 stop
  f bytes

/-- Byte vectors and strings are read alike and differ in what they make of the bytes. -/
theorem vecU8_rematerialize (p : Platform) (data : Bytes) :
    (vecU8 p).rematerialize data = readWhole p data .ok := by
  simp only [vecU8, readWhole, Res.bind_ok]

theorem string_rematerialize (p : Platform) (data : Bytes) :
    (string p).rematerialize data = readWhole p data fromUtf8 := rfl

/-- `Option<T>` and `Result<T, E>` behind the discriminant: a block that fills the rest of the buffer,
    its length cast with `as usize`. -/
def readTagged (p : Platform) {α : Type} (data : Bytes) (f : Bytes → Res α) : Res α := do
  let lengthBytes ← slice data 1 9
  let length ← u64FromLeBytes lengthBytes
  let length := p.asUsize length
  let stop ← p.usizeAdd 9 length
  requireMinBufferSize data stop
  let innerData ← slice data 9 stop
  requireBufferSize data stop
  f innerData

section Fill

variable {p : Platform} {α : Type} {data : Bytes} {f : Bytes → Res α}

/-- The rest of a buffer as a slice. -/
theorem slice_rest {a : Nat} (h : a ≤ data.length) : slice data a data.length = .ok (data.drop a) := by
  rw [slice_of_le h (Nat.le_refl _), List.take_of_length_le (by rw [List.length_drop])]

/-- **`Vec<u8>` and `String`.** Where the sum leaves `usize`, a build with overflow checks panics; without
    them the wrapped sum is below 8, hence not the length of the buffer, and the call is an error. -/
theorem readWhole_eq (data : Bytes) (f : Bytes → Res α) (hlt : data.length < p.usizeSize) :
    ∃ e, readWhole p data f =
      if 8 ≤ data.length ∧ headerAt data 0 < p.usizeSize then
        if p.usizeSize ≤ 8 + headerAt data 0 then
          if p.overflowChecks then .panic .addOverflow else .err e
        else if data.length = 8 + headerAt data 0 then f (data.drop 8) else .err e
      else .err e := by
  by_cases h8 : 8 ≤ data.length
  · have hslice : slice data 0 8 = .ok ((data.drop 0).take 8) := slice_of_le (by omega) h8
    have hlen := length_take_drop_eight data 0 (by omega)
    by_cases hfit : headerAt data 0 < p.usizeSize
    · have hread : usizeFromU64LeBytes p ((data.drop 0).take 8) = .ok (headerAt data 0) := by
        rw [usizeFromU64LeBytes, if_pos hlen]
        exact if_pos hfit
      simp only [readWhole, requireMinBufferSize_of_le h8, hslice, hread, Res.ok_bind, h8, hfit,
        and_self, if_true]
      by_cases hover : p.usizeSize ≤ 8 + headerAt data 0
      · rw [Platform.usizeAdd_wraps (by omega) hfit hover]
        cases p.overflowChecks with
        | true => exact ⟨.tryFromSlice, by simp [hover]⟩
        | false =>
          -- the wrapped sum is below 8, and no buffer that got here is that short
          have hne : data.length ≠ 8 + headerAt data 0 - p.usizeSize := by omega
          refine ⟨.bufferSizeMismatch (8 + headerAt data 0 - p.usizeSize) data.length, ?_⟩
          simp only [Bool.false_eq_true, if_false, Res.ok_bind, requireBufferSize, if_pos hne,
            Res.err_bind, if_pos hover]
      · rw [Platform.usizeAdd_of_lt (by omega)]
        by_cases heq : data.length = 8 + headerAt data 0
        · refine ⟨.tryFromSlice, ?_⟩
          rw [Res.ok_bind, requireBufferSize_of_eq heq, ← heq, slice_rest h8]
          simp only [Res.ok_bind, if_true]
          rw [if_neg (by omega)]
        · refine ⟨.bufferSizeMismatch (8 + headerAt data 0) data.length, ?_⟩
          simp only [Res.ok_bind, requireBufferSize, ne_eq, heq, not_false_iff, if_true, Res.err_bind,
            hover, if_false]
    · refine ⟨.exceedsUsize (headerAt data 0), ?_⟩
      have hread : usizeFromU64LeBytes p ((data.drop 0).take 8)
          = .err (.exceedsUsize (headerAt data 0)) := by
        rw [usizeFromU64LeBytes, if_pos hlen]
        exact if_neg hfit
      simp only [readWhole, requireMinBufferSize_of_le h8, hslice, hread, Res.ok_bind, Res.err_bind,
        hfit, and_false, if_false]
  · refine ⟨.bufferSizeMismatch 8 data.length, ?_⟩
    simp only [readWhole, requireMinBufferSize, Nat.lt_of_not_le h8, if_true, Res.err_bind, h8,
      false_and, if_false]

/-- **`Option<T>` and `Result<T, E>`.** Where the sum leaves `usize` the call panics: on the addition in a
    build with overflow checks, on the slice without. -/
theorem readTagged_eq (data : Bytes) (f : Bytes → Res α) (hlt : data.length < p.usizeSize) (h9 : 9 ≤ data.length) :
    ∃ e, readTagged p data f =
      if p.usizeSize ≤ 9 + p.asUsize (headerAt data 1) then
        .panic (if p.overflowChecks then .addOverflow else .sliceIndex)
      else if data.length = 9 + p.asUsize (headerAt data 1) then f (data.drop 9) else .err e := by
  have hslice : slice data 1 9 = .ok ((data.drop 1).take 8) := slice_of_le (by omega) h9
  have hread : u64FromLeBytes ((data.drop 1).take 8) = .ok (headerAt data 1) :=
    u64FromLeBytes_of_length (length_take_drop_eight data 1 (by omega))
  have hfit := p.asUsize_lt (headerAt data 1)
  simp only [readTagged, hslice, hread, Res.ok_bind]
  generalize p.asUsize (headerAt data 1) = length at hfit ⊢
  by_cases hover : p.usizeSize ≤ 9 + length
  · refine ⟨.tryFromSlice, ?_⟩
    rw [Platform.usizeAdd_wraps (by omega) hfit hover, if_pos hover]
    cases p.overflowChecks with
    | true => rfl
    | false =>
      have hmin : requireMinBufferSize data (9 + length - p.usizeSize) = .ok () :=
        requireMinBufferSize_of_le (by omega)
      have hslice : slice data 9 (9 + length - p.usizeSize) = .panic .sliceIndex := if_neg (by omega)
      simp only [Bool.false_eq_true, if_false, Res.ok_bind, hmin, hslice, Res.panic_bind]
  · rw [Platform.usizeAdd_of_lt (by omega)]
    simp only [Res.ok_bind, if_neg hover]
    by_cases heq : data.length = 9 + length
    · refine ⟨.tryFromSlice, ?_⟩
      rw [requireMinBufferSize_of_le (by omega), requireBufferSize_of_eq heq, ← heq, slice_rest h9]
      simp only [Res.ok_bind, if_true]
    · refine ⟨.bufferSizeMismatch (9 + length) data.length, ?_⟩
      by_cases hmin : 9 + length ≤ data.length
      · simp only [requireMinBufferSize_of_le hmin, slice_of_le (Nat.le_add_right 9 length) hmin,
          requireBufferSize, Res.ok_bind, ne_eq, heq, not_false_iff, if_true, Res.err_bind, if_false]
      · simp only [requireMinBufferSize, Nat.lt_of_not_le hmin, if_true, Res.err_bind, heq, if_false]

/-- The block has to take all of the data. -/
theorem readWhole_eq_ok (hlt : data.length < p.usizeSize) {v : α} :
    readWhole p data f = .ok v ↔ ∃ bytes, data = block bytes ∧ f bytes = .ok v := by
  obtain ⟨e, he⟩ := readWhole_eq data f hlt
  rw [he]
  constructor
  · intro h
    split at h
    · split at h
      · split at h <;> cases h
      · split at h
        · rename_i hlen
          refine ⟨_, ?_, h⟩
          have hcount : (data.drop 8).length = headerAt data 0 := by rw [List.length_drop]; omega
          rw [block, hcount]
          exact drop_eq_header_append data 0 (by omega)
        · cases h
    · cases h
  · rintro ⟨bytes, rfl, h⟩
    rw [length_block] at hlt
    have hhead : headerAt (block bytes) 0 = bytes.length :=
      headerAt_of_drop (show (block bytes).drop 0 = block bytes ++ [] by simp) (by have := p.usizeSize_le; omega)
    have hdrop : (block bytes).drop 8 = bytes := List.drop_left' (length_toLeBytes 8 _)
    rw [hhead, if_pos ⟨by simp, by omega⟩, if_neg (by omega), if_pos (length_block _), hdrop, h]

end Fill

end Codec
end Wormhole
