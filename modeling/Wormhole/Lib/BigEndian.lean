import Wormhole.Lib.LittleEndian

/-!
# `Lib.BigEndian` — fixed-width big-endian numbers over byte lists

The bytes of `Lib.LittleEndian` in the opposite order.
-/

namespace BigEndian

open LittleEndian

/-- The low `k` bytes of `n`, most significant byte first. -/
def toBeBytes (k n : Nat) : Bytes := (toLeBytes k n).reverse

/-- The number whose big-endian digits are the given bytes. -/
def fromBeBytes (bs : Bytes) : Nat := fromLeBytes bs.reverse

@[simp] theorem length_toBeBytes (k n : Nat) : (toBeBytes k n).length = k := by
  rw [toBeBytes, List.length_reverse, length_toLeBytes]

/-- **Write then read** keeps the number modulo the width. -/
theorem fromBeBytes_toBeBytes (k n : Nat) : fromBeBytes (toBeBytes k n) = n % 256 ^ k := by
  rw [fromBeBytes, toBeBytes, List.reverse_reverse, fromLeBytes_toLeBytes]

theorem fromBeBytes_lt (bs : Bytes) : fromBeBytes bs < 256 ^ bs.length := by
  rw [← List.length_reverse]
  exact fromLeBytes_lt bs.reverse

/-- **Read then write** at the same width gives the bytes back. -/
theorem toBeBytes_fromBeBytes_of_length {k : Nat} {bs : Bytes} (h : bs.length = k) :
    toBeBytes k (fromBeBytes bs) = bs := by
  rw [toBeBytes, fromBeBytes, toLeBytes_fromLeBytes_of_length (by rw [List.length_reverse, h]), List.reverse_reverse]

end BigEndian
