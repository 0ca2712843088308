import Mathlib.Data.Nat.ModEq
import Mathlib.Tactic.Ring

/-!
# `Lib.LittleEndian` — fixed-width little-endian numbers over byte lists

`toLeBytes k n` writes the low `k` bytes of `n`, `fromLeBytes` reads a byte list back as a number. The
two are inverse to each other up to the width: writing then reading reduces modulo `256 ^ k`, reading
then writing gives the bytes back. Nothing here knows what the numbers are for.
-/

namespace LittleEndian

/-- A byte string. -/
abbrev Bytes := List UInt8

/-- The low `k` bytes of `n`, least significant byte first. -/
def toLeBytes : Nat → Nat → Bytes
  | 0,     _ => []
  | k + 1, n => UInt8.ofNat (n % 256) :: toLeBytes k (n / 256)

/-- The number whose little-endian digits are the given bytes. -/
def fromLeBytes : Bytes → Nat
  | []      => 0
  | b :: bs => b.toNat + 256 * fromLeBytes bs

@[simp] theorem length_toLeBytes (k n : Nat) : (toLeBytes k n).length = k := by
  induction k generalizing n with
  | zero => rfl
  | succ k ih => simp only [toLeBytes, List.length_cons, ih]

/-- **Write then read** keeps the number modulo the width. -/
theorem fromLeBytes_toLeBytes (k n : Nat) : fromLeBytes (toLeBytes k n) = n % 256 ^ k := by
  induction k generalizing n with
  | zero => simp [toLeBytes, fromLeBytes, Nat.mod_one]
  | succ k ih =>
    have hlow : (UInt8.ofNat (n % 256)).toNat = n % 256 :=
      UInt8.toNat_ofNat_of_lt' (Nat.mod_lt n (by decide))
    rw [toLeBytes, fromLeBytes, ih, hlow, Nat.pow_succ', Nat.mod_mul]

theorem fromLeBytes_toLeBytes_of_lt {k n : Nat} (h : n < 256 ^ k) :
    fromLeBytes (toLeBytes k n) = n := by
  rw [fromLeBytes_toLeBytes, Nat.mod_eq_of_lt h]

theorem fromLeBytes_lt (bs : Bytes) : fromLeBytes bs < 256 ^ bs.length := by
  induction bs with
  | nil => simp [fromLeBytes]
  | cons b bs ih =>
    have hb : b.toNat < 256 := b.toNat_lt
    rw [fromLeBytes, List.length_cons, Nat.pow_succ']
    omega

/-- **Read then write** at the same width gives the bytes back. -/
theorem toLeBytes_fromLeBytes (bs : Bytes) : toLeBytes bs.length (fromLeBytes bs) = bs := by
  induction bs with
  | nil => rfl
  | cons b bs ih =>
    have hb : b.toNat < 256 := b.toNat_lt
    have hmod : (b.toNat + 256 * fromLeBytes bs) % 256 = b.toNat := by omega
    have hdiv : (b.toNat + 256 * fromLeBytes bs) / 256 = fromLeBytes bs := by omega
    rw [List.length_cons, fromLeBytes, toLeBytes, hmod, hdiv, ih, UInt8.ofNat_toNat]

theorem toLeBytes_fromLeBytes_of_length {k : Nat} {bs : Bytes} (h : bs.length = k) :
    toLeBytes k (fromLeBytes bs) = bs := h ▸ toLeBytes_fromLeBytes bs

/-- Two numbers below the width with the same bytes are equal. -/
theorem toLeBytes_inj {k m n : Nat} (hm : m < 256 ^ k) (hn : n < 256 ^ k)
    (h : toLeBytes k m = toLeBytes k n) : m = n := by
  have := congrArg fromLeBytes h
  rwa [fromLeBytes_toLeBytes_of_lt hm, fromLeBytes_toLeBytes_of_lt hn] at this

end LittleEndian
