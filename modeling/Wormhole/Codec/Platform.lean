import Wormhole.Lib.LittleEndian

/-!
# `Codec.Platform` — outcomes of a codec call, and `usize` arithmetic on the target

A codec call of `transmaterialization` ends in one of three ways: `Ok`, `Err` (an `anyhow` error, here one
constructor per error text), or a panic. The panics of interest are the ones the standard library
documents: an addition that leaves `usize` in a build with overflow checks, a slice `data[a..b]` out of
range, and a `Vec` capacity above `isize::MAX` bytes.

Byte buffers are lists: running out of memory is not modelled, nor how far ahead an output buffer is allocated
when it is extended. The exceptions are the capacities that the code asks for (`Buffer.withCapacity`), and the
growth of a vector that a decoder fills, because the peer chooses its elements (`Buffer.push`).

The second half is `transmaterialization/util.rs`.
-/

namespace Wormhole
namespace Codec

open LittleEndian

/-! ## Outcomes -/

/-- The errors of the decoders, with the values their texts interpolate. -/
inductive DecodeError where
  | bufferSizeMismatch (expected got : Nat)
  | exceedsUsize (value : Nat)
  | exceedsIsize (value : Int)
  | expectedEightBytes (got : Nat)
  | tryFromSlice
  | invalidBool (byte : UInt8)
  | invalidUtf8
  | invalidResultDiscriminant (byte : UInt8)
  | invalidOptionDiscriminant (byte : UInt8)
  | shortFieldLength (need have_ : Nat)
  | fieldLengthExceedsUsize
  | shortFieldData (need have_ : Nat)
  | shortVariantNameLength (need have_ : Nat)
  | variantNameLengthExceedsUsize
  | shortVariantName (need have_ : Nat)
  | shortPayloadLength (need have_ : Nat)
  | payloadLengthExceedsUsize
  | shortPayloadData (need have_ : Nat)
  | unitVariantPayload (got : Nat)
  | payloadNotConsumed (expected consumed : Nat)
  | unknownVariant (name : String)
  | notConsumed (length consumed : Nat)
  | unitStructData (length : Nat)
  | uninhabited (enumName : String)
  deriving DecidableEq, Repr

/-- The text the source gives to the error. -/
def DecodeError.text : DecodeError → String
  | .bufferSizeMismatch expected got => s!"Buffer size mismatch: expected {expected}, got {got}"
  | .exceedsUsize value => s!"value {value} exceeds platform usize"
  | .exceedsIsize value => s!"value {value} exceeds platform isize"
  | .expectedEightBytes got => s!"expected 8 bytes, got {got}"
  | .tryFromSlice => "could not convert slice to array"
  | .invalidBool byte => s!"Invalid boolean value: {byte}"
  | .invalidUtf8 => "invalid utf-8 sequence"
  | .invalidResultDiscriminant byte =>
      s!"Invalid discriminant for Result: {byte}. Expected 0 for Ok or 1 for Err."
  | .invalidOptionDiscriminant byte =>
      s!"Invalid discriminant for Option: {byte}. Expected 0 for None or 1 for Some."
  | .shortFieldLength need have_ =>
      s!"unexpected end of data: need {need} bytes for field length, have {have_}"
  | .fieldLengthExceedsUsize => "field length exceeds platform usize"
  | .shortFieldData need have_ =>
      s!"unexpected end of data: need {need} bytes for field data, have {have_}"
  | .shortVariantNameLength need have_ =>
      s!"unexpected end of data: need {need} bytes for variant name length, have {have_}"
  | .variantNameLengthExceedsUsize => "variant name length exceeds platform usize"
  | .shortVariantName need have_ =>
      s!"unexpected end of data: need {need} bytes for variant name, have {have_}"
  | .shortPayloadLength need have_ =>
      s!"unexpected end of data: need {need} bytes for payload length, have {have_}"
  | .payloadLengthExceedsUsize => "payload length exceeds platform usize"
  | .shortPayloadData need have_ =>
      s!"unexpected end of data: need {need} bytes for payload data, have {have_}"
  | .unitVariantPayload got => s!"Unit variant should have empty payload, but got {got} bytes"
  | .payloadNotConsumed expected consumed =>
      s!"Enum variant payload not fully consumed: expected {expected}, consumed {consumed}"
  | .unknownVariant name => s!"Unknown variant: {name}"
  | .notConsumed length consumed =>
      s!"Rematerialization did not consume all data! Buffer length: {length}, consumed: {consumed}"
  | .unitStructData length =>
      s!"Unit struct should have no data to rematerialize, but buffer has len={length}"
  | .uninhabited enumName => s!"cannot rematerialize uninhabited enum `{enumName}`"

/-- The panics a codec call can run into. -/
inductive Panic where
  /-- "attempt to add with overflow" (also the one multiplication, in `Vec<T>`'s capacity). -/
  | addOverflow
  /-- A slice whose start is after its end, or whose end is past the buffer. -/
  | sliceIndex
  /-- "capacity overflow": a `Vec` of more than `isize::MAX` bytes. -/
  | capacityOverflow
  deriving DecidableEq, Repr

/-- What a panic is about: the decoder's own offsets, or the capacity of a vector. -/
inductive Fault where
  | offset
  | capacity
  deriving DecidableEq, Repr

def Panic.fault : Panic → Fault
  | addOverflow | sliceIndex => .offset
  | capacityOverflow => .capacity

/-- The outcome of a codec call. -/
inductive Res (α : Type) where
  | ok (value : α)
  | err (error : DecodeError)
  | panic (reason : Panic)
  deriving DecidableEq, Repr

namespace Res

variable {α β : Type}

/-- Sequencing: an error is returned by `?`, a panic unwinds. -/
def bind : Res α → (α → Res β) → Res β
  | ok value,     f => f value
  | err error,    _ => err error
  | panic reason, _ => panic reason

instance : Monad Res where
  pure := ok
  bind := bind

@[simp] theorem pure_eq (a : α) : (pure a : Res α) = ok a := rfl
@[simp] theorem ok_bind (a : α) (f : α → Res β) : (ok a >>= f) = f a := rfl
@[simp] theorem err_bind (e : DecodeError) (f : α → Res β) : (err e >>= f) = err e := rfl
@[simp] theorem panic_bind (k : Panic) (f : α → Res β) : (panic k >>= f) = panic k := rfl

theorem bind_ok (x : Res α) : (x >>= ok) = x := by
  cases x <;> rfl

/-- `Res` is lawful: it fails with the first failure. -/
theorem bind_assoc {γ : Type} (x : Res α) (f : α → Res β) (g : β → Res γ) :
    ((x >>= f) >>= g) = (x >>= fun a => f a >>= g) := by
  cases x with
  | ok a => rfl
  | err e => rfl
  | panic reason => rfl

/-- A sequence succeeds exactly when both parts do. -/
theorem bind_eq_ok {x : Res α} {f : α → Res β} {b : β} :
    (x >>= f) = ok b ↔ ∃ a, x = ok a ∧ f a = ok b := by
  cases x <;> simp

/-- Wrapping a result in a constructor. -/
theorem wrap_eq_ok {x : Res α} {g : α → β} {v : β} :
    (do let a ← x
        ok (g a)) = ok v ↔ ∃ a, x = ok a ∧ v = g a := by
  rw [bind_eq_ok]
  exact exists_congr fun a => and_congr_right fun _ => ⟨fun h => (ok.inj h).symm, congrArg ok ∘ Eq.symm⟩

/-- The call ran into a panic of the given kind. -/
def Faults (k : Fault) : Res α → Prop
  | panic reason => reason.fault = k
  | _ => False

variable {k : Fault}

@[simp] theorem not_faults_ok (a : α) : ¬ (ok a).Faults k := id
@[simp] theorem not_faults_err (e : DecodeError) : ¬ (err e : Res α).Faults k := id
@[simp] theorem faults_panic {reason : Panic} : (panic reason : Res α).Faults k ↔ reason.fault = k := Iff.rfl

/-- A length that is too large for `usize` ends in the same class of faults in every build: the sum is caught,
    or it wraps and the slice is. -/
theorem add_or_slice_faults (c : Bool) :
    (panic (if c then .addOverflow else .sliceIndex) : Res α).Faults k ↔ k = .offset := by
  cases c <;> exact eq_comm

/-- Wrapping a result in a constructor faults where the result does. -/
theorem wrap_faults {x : Res α} {g : α → β} :
    (do let a ← x
        ok (g a)).Faults k ↔ x.Faults k := by
  cases x <;> exact Iff.rfl

/-- A sequence faults exactly when one of its parts does. -/
theorem faults_bind {x : Res α} {f : α → Res β} :
    (x >>= f).Faults k ↔ x.Faults k ∨ ∃ a, x = ok a ∧ (f a).Faults k := by
  cases x with
  | ok a => simp
  | err e => simp
  | panic reason => simp

/-- A call returns unless it panics, of whichever kind. -/
theorem returns_iff {x : Res α} : (∀ reason, x ≠ panic reason) ↔ ∀ k, ¬ x.Faults k := by
  cases x with
  | ok a => simp
  | err e => simp
  | panic reason => simp

end Res

/-! ## The target -/

/-- The compilation target: the width of `usize` (the source asserts `size_of::<usize>() <= 8`) and
    whether the build checks integer overflow (dev and test profiles do, release wraps). -/
structure Platform where
  bits : Nat
  sixteen_le : 16 ≤ bits
  le_sixtyFour : bits ≤ 64
  overflowChecks : Bool

namespace Platform

/-- A 32-bit target, such as wasm32. -/
def thirtyTwo (overflowChecks : Bool) : Platform where
  bits := 32
  sixteen_le := Nat.le_of_ble_eq_true rfl
  le_sixtyFour := Nat.le_of_ble_eq_true rfl
  overflowChecks := overflowChecks

/-- A 64-bit target. -/
def sixtyFour (overflowChecks : Bool) : Platform where
  bits := 64
  sixteen_le := Nat.le_of_ble_eq_true rfl
  le_sixtyFour := Nat.le_of_ble_eq_true rfl
  overflowChecks := overflowChecks

/-- One past `usize::MAX`. -/
def usizeSize (p : Platform) : Nat := 2 ^ p.bits

/-- `isize::MAX`: no slice and no allocation is longer than this many bytes. -/
def isizeMax (p : Platform) : Nat := 2 ^ (p.bits - 1) - 1

/-- The source asserts that `usize` has at most eight bytes. -/
theorem usizeSize_le (p : Platform) : p.usizeSize ≤ 256 ^ 8 := by
  have h : (256 : Nat) ^ 8 = 2 ^ 64 := by norm_num
  rw [usizeSize, h]; exact Nat.pow_le_pow_right (by decide) p.le_sixtyFour

theorem usizeSize_eq (p : Platform) : p.usizeSize = 2 * (p.isizeMax + 1) := by
  have hpos : 0 < 2 ^ (p.bits - 1) := Nat.two_pow_pos _
  have hbits : p.bits = (p.bits - 1) + 1 := by have := p.sixteen_le; omega
  rw [usizeSize, isizeMax, hbits, Nat.pow_succ]
  simp only [Nat.add_sub_cancel]
  omega

/-- There is room for every header above the longest slice. -/
theorem isizeMax_add_lt (p : Platform) : p.isizeMax + 16 < p.usizeSize := by
  have h15 : 2 ^ 15 ≤ 2 ^ (p.bits - 1) :=
    Nat.pow_le_pow_right (by decide) (by have := p.sixteen_le; omega)
  rw [usizeSize_eq, isizeMax]
  omega

/-- What can be allocated has a length. -/
theorem lt_usizeSize (p : Platform) {n : Nat} (h : n ≤ p.isizeMax) : n < p.usizeSize := by
  have := p.isizeMax_add_lt
  omega

/-- There is room for two headers in `usize`. -/
theorem sixteen_lt (p : Platform) : 16 < p.usizeSize :=
  Nat.lt_of_le_of_lt (Nat.le_add_left 16 p.isizeMax) p.isizeMax_add_lt

/-- A byte slice of the target: the language bounds its length by `isize::MAX`. -/
abbrev Slice (p : Platform) := {data : Bytes // data.length ≤ p.isizeMax}

/-- `a + b` on `usize`. -/
def usizeAdd (p : Platform) (a b : Nat) : Res Nat :=
  if a + b < p.usizeSize then .ok (a + b)
  else if p.overflowChecks then .panic .addOverflow
  else .ok ((a + b) % p.usizeSize)

/-- `a * b` on `usize`. -/
def usizeMul (p : Platform) (a b : Nat) : Res Nat :=
  if a * b < p.usizeSize then .ok (a * b)
  else if p.overflowChecks then .panic .addOverflow
  else .ok ((a * b) % p.usizeSize)

/-- A sum that fits is the sum in every build. -/
theorem usizeAdd_of_lt {p : Platform} {a b : Nat} (h : a + b < p.usizeSize) :
    p.usizeAdd a b = .ok (a + b) := if_pos h

/-- An addition that wraps ends below its first operand. -/
theorem usizeAdd_wraps {p : Platform} {a b : Nat} (ha : a < p.usizeSize) (hb : b < p.usizeSize)
    (h : p.usizeSize ≤ a + b) :
    p.usizeAdd a b = if p.overflowChecks then .panic .addOverflow else .ok (a + b - p.usizeSize) := by
  rw [usizeAdd, if_neg (Nat.not_lt.mpr h), Nat.mod_eq_sub_mod h, Nat.mod_eq_of_lt (by omega)]

theorem usizeMul_of_lt {p : Platform} {a b : Nat} (h : a * b < p.usizeSize) :
    p.usizeMul a b = .ok (a * b) := if_pos h

/-- `v as usize`. -/
def asUsize (p : Platform) (v : Nat) : Nat := v % p.usizeSize

theorem asUsize_lt (p : Platform) (v : Nat) : p.asUsize v < p.usizeSize :=
  Nat.mod_lt _ (Nat.two_pow_pos _)

theorem asUsize_of_lt {p : Platform} {v : Nat} (h : v < p.usizeSize) : p.asUsize v = v :=
  Nat.mod_eq_of_lt h

end Platform

/-- `&data[a..b]`. -/
def slice (data : Bytes) (a b : Nat) : Res Bytes :=
  if a ≤ b ∧ b ≤ data.length then .ok ((data.drop a).take (b - a)) else .panic .sliceIndex

/-- `data[i]`. -/
def index (data : Bytes) (i : Nat) : Res UInt8 :=
  match data[i]? with
  | some byte => .ok byte
  | none      => .panic .sliceIndex

/-- `u64::from_le_bytes(bytes.try_into()?)`. -/
def u64FromLeBytes (bytes : Bytes) : Res Nat :=
  if bytes.length = 8 then .ok (fromLeBytes bytes) else .err .tryFromSlice

/-- `String::from_utf8` / `str::from_utf8`. -/
def fromUtf8 (bytes : Bytes) : Res String :=
  match String.fromUTF8? bytes.toByteArray with
  | some s => .ok s
  | none   => .err .invalidUtf8

/-- `s.as_bytes()`. -/
def asBytes (s : String) : Bytes := s.toByteArray.data.toList

/-! ## `transmaterialization/util.rs` -/

/-- Convert a `u64` to `usize`, or fail if it does not fit the platform. -/
def u64ToUsize (p : Platform) (value : Nat) : Res Nat :=
  if value < p.usizeSize then .ok value else .err (.exceedsUsize value)

/-- Convert an `i64` to `isize`, or fail if it does not fit the platform. -/
def i64ToIsize (p : Platform) (value : Int) : Res Int :=
  if -(p.isizeMax + 1 : Int) ≤ value ∧ value ≤ p.isizeMax then .ok value
  else .err (.exceedsIsize value)

/-- Read 8 little-endian bytes as a `u64` and convert to `usize`. -/
def usizeFromU64LeBytes (p : Platform) (bytes : Bytes) : Res Nat :=
  if bytes.length = 8 then u64ToUsize p (fromLeBytes bytes) else .err (.expectedEightBytes bytes.length)

/-- `require_buffer_size`. -/
def requireBufferSize (buffer : Bytes) (size : Nat) : Res Unit :=
  if buffer.length ≠ size then .err (.bufferSizeMismatch size buffer.length) else .ok ()

/-- `require_min_buffer_size`. -/
def requireMinBufferSize (buffer : Bytes) (size : Nat) : Res Unit :=
  if buffer.length < size then .err (.bufferSizeMismatch size buffer.length) else .ok ()

end Codec
end Wormhole
