import Wormhole.Codec.Platform

/-!
# `Codec.Impls` — the hand-written `ContextTransmaterializable` implementations

`transmaterialization/default_implementations.rs`, one definition per `impl` block. An implementation is
a value of `ContextTransmaterializable α`; generic impls take the implementations of their parameters as
arguments, as the trait bounds do. The context argument is only used by references and reply ports,
which travel through the portal and are not part of this file.

Reading "an 8-byte length, then that many bytes" at an offset is written out in the source wherever it
occurs; here it is `readBlock`, with the error texts of the place as a `BlockStyle`.

A vector that is read grows as it is filled, and so may panic. Of the buffer that an encoder writes to,
the capacity it starts with is checked; how far `extend_from_slice` then grows it is left to `Vec`.
-/

namespace Wormhole
namespace Codec

open LittleEndian

/-- The trait: encode a value, decode a byte slice. -/
structure ContextTransmaterializable (α : Type) where
  immaterialize : α → Res Bytes
  rematerialize : Bytes → Res α

/-! ## Length-prefixed blocks -/

/-- How one place of the source reads a length header: the error before the header, the conversion of
    the eight header bytes, and the error before the data. -/
structure BlockStyle where
  short : Nat → Nat → DecodeError
  readLength : Platform → Bytes → Res Nat
  cut : Nat → Nat → DecodeError
  /-- Every place converts with a check that the length fits `usize`. -/
  readLength_eq : ∀ p bytes, bytes.length = 8 →
    ∃ e, readLength p bytes =
      if fromLeBytes bytes < p.usizeSize then .ok (fromLeBytes bytes) else .err e

/-- `u64::from_le_bytes(..).try_into().map_err(..)?`, the conversion in the derive macro's output. -/
def tryIntoUsize (e : DecodeError) (p : Platform) (bytes : Bytes) : Res Nat := do
  let value ← u64FromLeBytes bytes
  if value < p.usizeSize then .ok value else .err e

theorem tryIntoUsize_eq (e : DecodeError) (p : Platform) (bytes : Bytes) (h : bytes.length = 8) :
    ∃ e', tryIntoUsize e p bytes =
      if fromLeBytes bytes < p.usizeSize then .ok (fromLeBytes bytes) else .err e' :=
  ⟨e, by simp [tryIntoUsize, u64FromLeBytes, h]⟩

/-- Tuples and `Vec<T>`: `require_min_buffer_size` and `usize_from_u64_le_bytes`. -/
def BlockStyle.util : BlockStyle where
  short := .bufferSizeMismatch
  readLength := usizeFromU64LeBytes
  cut := .bufferSizeMismatch
  readLength_eq p bytes h :=
    ⟨.exceedsUsize (fromLeBytes bytes), by simp [usizeFromU64LeBytes, u64ToUsize, h]⟩

/-- A field in the derive macro's output. -/
def BlockStyle.field : BlockStyle where
  short := .shortFieldLength
  readLength := tryIntoUsize .fieldLengthExceedsUsize
  cut := .shortFieldData
  readLength_eq := tryIntoUsize_eq _

/-- The variant name of a derived enum. -/
def BlockStyle.variantName : BlockStyle where
  short := .shortVariantNameLength
  readLength := tryIntoUsize .variantNameLengthExceedsUsize
  cut := .shortVariantName
  readLength_eq := tryIntoUsize_eq _

/-- The payload of a derived enum. -/
def BlockStyle.payload : BlockStyle where
  short := .shortPayloadLength
  readLength := tryIntoUsize .payloadLengthExceedsUsize
  cut := .shortPayloadData
  readLength_eq := tryIntoUsize_eq _

/-- Read a block at `offset`: the bytes of the block and the offset after it. -/
def readBlock (p : Platform) (style : BlockStyle) (data : Bytes) (offset : Nat) :
    Res (Bytes × Nat) := do
  let headerEnd ← p.usizeAdd offset 8
  if data.length < headerEnd then .err (style.short headerEnd data.length) else
  let header ← slice data offset headerEnd
  let length ← style.readLength p header
  let start ← p.usizeAdd offset 8
  let stop ← p.usizeAdd start length
  if data.length < stop then .err (style.cut stop data.length) else
  let bytes ← slice data start stop
  .ok (bytes, stop)

/-- A block as the encoders write it. -/
def block (bytes : Bytes) : Bytes := toLeBytes 8 bytes.length ++ bytes

@[simp] theorem length_block (bytes : Bytes) : (block bytes).length = 8 + bytes.length := by
  simp [block]

/-! ## `Vec<T>` -/

/-- A Rust vector whose elements have `size` bytes each: it occupies at most `isize::MAX` bytes. -/
structure RVec (p : Platform) (size : Nat) (α : Type) where
  elems : List α
  fits : elems.length * size ≤ p.isizeMax

namespace RVec

variable {p : Platform} {size : Nat} {α : Type}

@[ext] theorem ext {v w : RVec p size α} (h : v.elems = w.elems) : v = w := by
  cases v; cases w; cases h; rfl

end RVec

/-- The smallest capacity that is allocated, for elements of `size` bytes. -/
def minNonZeroCap (size : Nat) : Nat := if size = 1 then 8 else if size ≤ 1024 then 4 else 1

/-- The capacity of a vector once there is room for `needed` elements: `RawVec` doubles what it has. Elements
    without a size need no room. -/
def grownCapacity (size capacity needed : Nat) : Nat :=
  if size = 0 ∨ needed ≤ capacity then capacity else max (minNonZeroCap size) (max (2 * capacity) needed)

theorem le_grownCapacity (size capacity needed : Nat) : capacity ≤ grownCapacity size capacity needed := by
  unfold grownCapacity
  split <;> omega

theorem needed_le_grownCapacity (size capacity needed : Nat) :
    size = 0 ∨ needed ≤ grownCapacity size capacity needed := by
  unfold grownCapacity
  split
  · assumption
  · omega

/-- A Rust vector that is being filled, with its capacity: what is allocated for it. -/
structure Buffer (p : Platform) (size : Nat) (α : Type) where
  elems : List α
  capacity : Nat
  room : size = 0 ∨ elems.length ≤ capacity
  fits : capacity * size ≤ p.isizeMax

namespace Buffer

variable {p : Platform} {size : Nat} {α : Type}

@[ext] theorem ext {v w : Buffer p size α} (h : v.elems = w.elems) (hcap : v.capacity = w.capacity) : v = w := by
  cases v; cases w; cases h; cases hcap; rfl

/-- The vector, whose capacity is no part of its value. -/
def toRVec (v : Buffer p size α) : RVec p size α where
  elems := v.elems
  fits := by
    obtain hsize | hroom := v.room
    · exact le_of_eq_of_le (Nat.mul_eq_zero.mpr (Or.inr hsize)) (Nat.zero_le _)
    · exact le_trans (Nat.mul_le_mul_right size hroom) v.fits

/-- `Vec::with_capacity(capacity)`: panics if that is more than `isize::MAX` bytes. -/
def withCapacity (p : Platform) (size : Nat) (α : Type) (capacity : Nat) : Res (Buffer p size α) :=
  if h : capacity * size ≤ p.isizeMax then .ok ⟨[], capacity, Or.inr (Nat.zero_le _), h⟩
  else .panic .capacityOverflow

/-- The capacity once there is one more element. -/
def nextCapacity (v : Buffer p size α) : Nat := grownCapacity size v.capacity (v.elems.length + 1)

/-- `v.push(x)`: a full vector grows, and panics if that takes more than `isize::MAX` bytes. -/
def push (v : Buffer p size α) (x : α) : Res (Buffer p size α) :=
  if h : v.nextCapacity * size ≤ p.isizeMax then
    .ok ⟨v.elems ++ [x], v.nextCapacity,
      (needed_le_grownCapacity size v.capacity _).imp_right fun h => by rwa [List.length_append], h⟩
  else .panic .capacityOverflow

theorem withCapacity_of_le {capacity : Nat} (h : capacity * size ≤ p.isizeMax) :
    withCapacity p size α capacity = .ok ⟨[], capacity, Or.inr (Nat.zero_le _), h⟩ := dif_pos h

theorem withCapacity_of_gt {capacity : Nat} (h : p.isizeMax < capacity * size) :
    withCapacity p size α capacity = .panic .capacityOverflow := dif_neg (Nat.not_le.mpr h)

theorem elems_of_withCapacity {capacity : Nat} {v : Buffer p size α} (h : withCapacity p size α capacity = .ok v) :
    v.elems = [] := by
  unfold withCapacity at h
  split at h
  · obtain rfl := Res.ok.inj h
    rfl
  · cases h

theorem push_eq_ok {v w : Buffer p size α} {x : α} :
    v.push x = .ok w ↔ w.elems = v.elems ++ [x] ∧ w.capacity = v.nextCapacity := by
  unfold push
  by_cases h : v.nextCapacity * size ≤ p.isizeMax
  · simp only [dif_pos h, Res.ok.injEq]
    constructor
    · rintro rfl
      exact ⟨rfl, rfl⟩
    · rintro ⟨hw, hcap⟩
      exact ext hw.symm hcap.symm
  · simp only [dif_neg h, reduceCtorEq, false_iff, not_and]
    rintro - hcap
    exact h (hcap ▸ w.fits)

theorem push_faults {v : Buffer p size α} {x : α} {k : Fault} :
    (v.push x).Faults k ↔ k = .capacity ∧ p.isizeMax < v.nextCapacity * size := by
  unfold push
  split
  · rename_i h
    exact iff_of_false id fun hk => absurd hk.2 (Nat.not_lt.mpr h)
  · rename_i h
    exact ⟨fun hk => ⟨hk.symm, Nat.lt_of_not_le h⟩, fun hk => hk.1.symm⟩

end Buffer

/-- The capacity of a vector of `length` elements after `n` more. -/
def capacityAfter (size capacity length : Nat) : Nat → Nat
  | 0 => capacity
  | n + 1 => capacityAfter size (grownCapacity size capacity (length + 1)) (length + 1) n

theorem le_capacityAfter (size capacity length n : Nat) : capacity ≤ capacityAfter size capacity length n := by
  induction n generalizing capacity length with
  | zero => exact Nat.le_refl _
  | succ n ih => exact (le_grownCapacity size capacity _).trans (ih _ _)

/-- One more element at the end. -/
theorem capacityAfter_succ (size capacity length n : Nat) :
    capacityAfter size capacity length (n + 1) =
      grownCapacity size (capacityAfter size capacity length n) (length + n + 1) := by
  induction n generalizing capacity length with
  | zero => rfl
  | succ n ih =>
    rw [capacityAfter, ih, Nat.add_right_comm length 1 n]
    rfl

/-- There is room for what was pushed onto an empty vector. -/
theorem length_le_capacityAfter (size capacity n : Nat) : size = 0 ∨ n ≤ capacityAfter size capacity 0 n := by
  cases n with
  | zero => exact Or.inr (Nat.zero_le _)
  | succ n =>
    rw [capacityAfter_succ, Nat.zero_add]
    exact needed_le_grownCapacity _ _ _

/-- The elements take no more than what was allocated for them. -/
theorem mul_size_le_of_capacityAfter {size capacity n bound : Nat}
    (h : capacityAfter size capacity 0 n * size ≤ bound) : n * size ≤ bound := by
  obtain hsize | hroom := length_le_capacityAfter size capacity n
  · rw [hsize, Nat.mul_zero]
    exact Nat.zero_le _
  · exact le_trans (Nat.mul_le_mul_right size hroom) h

/-- **A vector that has room does not grow.** -/
theorem capacityAfter_eq_self {size capacity length n : Nat} (h : length + n ≤ capacity) :
    capacityAfter size capacity length n = capacity := by
  induction n generalizing length with
  | zero => rfl
  | succ n ih =>
    have hroom : grownCapacity size capacity (length + 1) = capacity := if_pos (Or.inr (by omega))
    rw [capacityAfter, hroom]
    exact ih (by omega)

namespace Buffer

variable {p : Platform} {size : Nat} {α : Type} {v w v' : Buffer p size α} {x : α} {xs : List α}

/-- `w` is what `v` becomes when elements are pushed. -/
structure Filled (w v : Buffer p size α) (xs : List α) : Prop where
  elems : w.elems = v.elems ++ xs
  capacity : w.capacity = capacityAfter size v.capacity v.elems.length xs.length

theorem filled_nil : w.Filled v [] ↔ w = v := by
  constructor
  · intro h
    exact ext (h.elems.trans (List.append_nil _)) h.capacity
  · rintro rfl
    exact ⟨(List.append_nil _).symm, rfl⟩

theorem capacityAfter_push (hpush : v.push x = .ok v') (n : Nat) :
    capacityAfter size v'.capacity v'.elems.length n = capacityAfter size v.capacity v.elems.length (n + 1) := by
  obtain ⟨helems, hcapacity⟩ := push_eq_ok.mp hpush
  rw [helems, hcapacity, List.length_append]
  rfl

theorem filled_cons (hpush : v.push x = .ok v') : w.Filled v (x :: xs) ↔ w.Filled v' xs := by
  have helems : v.elems ++ x :: xs = v'.elems ++ xs := by
    rw [(push_eq_ok.mp hpush).1, List.append_assoc]
    rfl
  constructor
  · intro h
    exact ⟨h.elems.trans helems, h.capacity.trans (capacityAfter_push hpush _).symm⟩
  · intro h
    exact ⟨h.elems.trans helems.symm, h.capacity.trans (capacityAfter_push hpush _)⟩

/-- There is room for the next element if there is room for more of them. -/
theorem exists_push_of_le {n : Nat}
    (h : capacityAfter size v.capacity v.elems.length (n + 1) * size ≤ p.isizeMax) (x : α) :
    ∃ v', v.push x = .ok v' := by
  have hfits : v.nextCapacity * size ≤ p.isizeMax :=
    le_trans (Nat.mul_le_mul_right size (le_capacityAfter _ _ _ n)) h
  exact ⟨_, dif_pos hfits⟩

theorem Filled.exists_push (h : w.Filled v (x :: xs)) : ∃ v', v.push x = .ok v' := by
  have hfits := w.fits
  rw [h.capacity] at hfits
  exact exists_push_of_le hfits x

end Buffer

section Vec

variable (p : Platform) (size : Nat) {α : Type} (T : ContextTransmaterializable α)

/-- The element loop of `Vec<T>::immaterialize`. -/
def vecExtend : List α → Bytes → Res Bytes
  | [],            buffer => .ok buffer
  | element :: es, buffer => do
      let elementBytes ← T.immaterialize element
      vecExtend es (buffer ++ toLeBytes 8 elementBytes.length ++ elementBytes)

/-- The loop `while offset < data.len()` of `Vec<T>::rematerialize`. Every iteration consumes at least
    the 8 bytes of a header, so `data.len()` rounds of fuel are enough (`vecLoop_eq_ok`, `vecLoop_faults`). -/
def vecLoop (data : Bytes) : Nat → Nat → Buffer p size α → Res (Nat × Buffer p size α)
  | 0,        offset, buffer => .ok (offset, buffer)
  | fuel + 1, offset, buffer =>
      if offset < data.length then do
        let (elementData, next) ← readBlock p .util data offset
        let element ← T.rematerialize elementData
        let buffer ← buffer.push element
        vecLoop data fuel next buffer
      else .ok (offset, buffer)

/-- `impl ContextTransmaterializable for Vec<T>`, for the element types without a specialised impl. -/
def vec : ContextTransmaterializable (RVec p size α) where
  immaterialize v := do
    let elementHeaders ← p.usizeMul v.elems.length 8
    let capacity ← p.usizeAdd 8 elementHeaders
    let buffer ← Buffer.withCapacity p 1 UInt8 capacity
    vecExtend T v.elems (buffer.elems ++ toLeBytes 8 v.elems.length)
  rematerialize data := do
    requireMinBufferSize data 8
    let header ← slice data 0 8
    let count ← usizeFromU64LeBytes p header
    -- the count is the capacity only: the loop goes on to the end of the data
    let buffer ← Buffer.withCapacity p size α count
    let (offset, buffer) ← vecLoop p size T data data.length 8 buffer
    requireBufferSize data offset
    .ok buffer.toRVec

end Vec

/-! ## `Vec<u8>` and `String` -/

/-- `impl ContextTransmaterializable for Vec<u8>`. -/
def vecU8 (p : Platform) : ContextTransmaterializable Bytes where
  immaterialize v := do
    let capacity ← p.usizeAdd 8 v.length
    let buffer ← Buffer.withCapacity p 1 UInt8 capacity
    .ok (buffer.elems ++ toLeBytes 8 v.length ++ v)
  rematerialize data := do
    requireMinBufferSize data 8
    let header ← slice data 0 8
    let length ← usizeFromU64LeBytes p header
    let stop ← p.usizeAdd 8 length
    requireBufferSize data stop
    slice data 8 stop

/-- `impl ContextTransmaterializable for String`. -/
def string (p : Platform) : ContextTransmaterializable String where
  immaterialize s := do
    let capacity ← p.usizeAdd 8 (asBytes s).length
    let buffer ← Buffer.withCapacity p 1 UInt8 capacity
    .ok (buffer.elems ++ toLeBytes 8 (asBytes s).length ++ asBytes s)
  rematerialize data := do
    requireMinBufferSize data 8
    let header ← slice data 0 8
    let length ← usizeFromU64LeBytes p header
    let stop ← p.usizeAdd 8 length
    requireBufferSize data stop
    let stringData ← slice data 8 stop
    fromUtf8 stringData

/-! ## Numbers, `bool`, unit -/

/-- `impl_context_transmaterializable_for_le_bytes!`: a number as its bit pattern of `size` bytes. -/
def leBytes (size : Nat) : ContextTransmaterializable (BitVec (8 * size)) where
  immaterialize v := .ok (toLeBytes size v.toNat)
  rematerialize data := do
    requireBufferSize data size
    let bytes ← slice data 0 size
    .ok (BitVec.ofNat (8 * size) (fromLeBytes bytes))

/-- `impl ContextTransmaterializable for usize`: written as a `u64`. -/
def usize (p : Platform) : ContextTransmaterializable (BitVec p.bits) where
  immaterialize v := .ok (toLeBytes 8 v.toNat)
  rematerialize data := do
    requireBufferSize data 8
    let bytes ← slice data 0 8
    let value ← u64FromLeBytes bytes
    let value ← u64ToUsize p value
    .ok (BitVec.ofNat p.bits value)

/-- `impl ContextTransmaterializable for isize`: written as an `i64`. -/
def isize (p : Platform) : ContextTransmaterializable (BitVec p.bits) where
  immaterialize v := .ok (toLeBytes 8 (v.signExtend 64).toNat)
  rematerialize data := do
    requireBufferSize data 8
    let bytes ← slice data 0 8
    let value ← u64FromLeBytes bytes
    let value ← i64ToIsize p (BitVec.ofNat 64 value).toInt
    .ok (BitVec.ofInt p.bits value)

/-- `impl ContextTransmaterializable for bool`. -/
def bool : ContextTransmaterializable Bool where
  immaterialize v := .ok (if v then [1] else [0])
  rematerialize data := do
    requireBufferSize data 1
    let byte ← index data 0
    if byte = 0 then .ok false
    else if byte = 1 then .ok true
    else .err (.invalidBool byte)

/-- `impl ContextTransmaterializable for ()`. -/
def unit : ContextTransmaterializable Unit where
  immaterialize _ := .ok []
  rematerialize data := do
    requireBufferSize data 0
    .ok ()

/-! ## `Result` and `Option` -/

/-- `impl ContextTransmaterializable for Result<T, E>`. The length is cast with `as usize`. -/
def result (p : Platform) {α ε : Type} (T : ContextTransmaterializable α)
    (E : ContextTransmaterializable ε) : ContextTransmaterializable (Except ε α) where
  immaterialize
    | .ok value => do
        let valueBytes ← T.immaterialize value
        .ok ([0] ++ toLeBytes 8 valueBytes.length ++ valueBytes)
    | .error error => do
        let errBytes ← E.immaterialize error
        .ok ([1] ++ toLeBytes 8 errBytes.length ++ errBytes)
  rematerialize data := do
    requireMinBufferSize data 9
    let discriminant ← index data 0
    let lengthBytes ← slice data 1 9
    let length ← u64FromLeBytes lengthBytes
    -- `as usize`, where the other readers check
    let length := p.asUsize length
    let stop ← p.usizeAdd 9 length
    requireMinBufferSize data stop
    let innerData ← slice data 9 stop
    requireBufferSize data stop
    if discriminant = 0 then do
      let value ← T.rematerialize innerData
      .ok (.ok value)
    else if discriminant = 1 then do
      let error ← E.rematerialize innerData
      .ok (.error error)
    else .err (.invalidResultDiscriminant discriminant)

/-- `impl ContextTransmaterializable for Option<T>`. The length is cast with `as usize`. -/
def option (p : Platform) {α : Type} (T : ContextTransmaterializable α) :
    ContextTransmaterializable (Option α) where
  immaterialize
    | some value => do
        let valueBytes ← T.immaterialize value
        .ok ([1] ++ toLeBytes 8 valueBytes.length ++ valueBytes)
    | none => .ok [0]
  rematerialize data := do
    requireMinBufferSize data 1
    let discriminant ← index data 0
    if discriminant = 0 then do
      requireBufferSize data 1
      .ok none
    else if discriminant = 1 then do
      requireMinBufferSize data 9
      let lengthBytes ← slice data 1 9
      let length ← u64FromLeBytes lengthBytes
      -- `as usize`, where the other readers check
      let length := p.asUsize length
      let stop ← p.usizeAdd 9 length
      requireMinBufferSize data stop
      let innerData ← slice data 9 stop
      requireBufferSize data stop
      let value ← T.rematerialize innerData
      .ok (some value)
    else .err (.invalidOptionDiscriminant discriminant)

end Codec
end Wormhole
