import Wormhole.Lib.LittleEndian

/-!
# `Lib.Varint` — numbers in a variable number of bytes

Small numbers are their own byte. Before the others stands a byte that says how many follow, which are then the
number, least significant byte first.
-/

namespace LittleEndian

/-- How many bytes follow such a first byte. -/
def varintWidth (first : Nat) : Nat :=
  if first = 251 then 2 else if first = 252 then 4 else if first = 253 then 8 else 16

/-- The first byte of a number that is not its own byte. -/
def varintFirst (n : Nat) : Nat :=
  if n < 2 ^ 16 then 251 else if n < 2 ^ 32 then 252 else if n < 2 ^ 64 then 253 else 254

def varint (n : Nat) : Bytes :=
  if n < 251 then [UInt8.ofNat n]
  else UInt8.ofNat (varintFirst n) :: toLeBytes (varintWidth (varintFirst n)) n

/-- The number at the beginning, and what comes after it. -/
def readVarint : Bytes → Option (Nat × Bytes)
  | [] => none
  | first :: rest =>
    if first.toNat < 251 then some (first.toNat, rest)
    else if first.toNat = 255 ∨ rest.length < varintWidth first.toNat then none
    else some (fromLeBytes (rest.take (varintWidth first.toNat)), rest.drop (varintWidth first.toNat))

/-- The first byte, and that the number has room in what follows. -/
theorem varintFirst_cases {n : Nat} (hn : n < 2 ^ 128) :
    251 ≤ varintFirst n ∧ varintFirst n < 255 ∧ n < 256 ^ varintWidth (varintFirst n) := by
  unfold varintFirst
  split
  · rename_i h
    exact ⟨by decide, by decide, h⟩
  · split
    · rename_i h
      exact ⟨by decide, by decide, h⟩
    · split
      · rename_i h
        exact ⟨by decide, by decide, h⟩
      · exact ⟨by decide, by decide, hn⟩

/-- **Write then read**, whatever comes after it. -/
theorem readVarint_varint {n : Nat} (hn : n < 2 ^ 128) (rest : Bytes) :
    readVarint (varint n ++ rest) = some (n, rest) := by
  unfold varint
  by_cases hsmall : n < 251
  · have hbyte : (UInt8.ofNat n).toNat = n := UInt8.toNat_ofNat_of_lt' (Nat.lt_trans hsmall (by decide))
    rw [if_pos hsmall]
    show (if (UInt8.ofNat n).toNat < 251 then _ else _) = _
    rw [hbyte, if_pos hsmall]
    rfl
  · obtain ⟨hlow, hhigh, hroom⟩ := varintFirst_cases hn
    have hbyte : (UInt8.ofNat (varintFirst n)).toNat = varintFirst n :=
      UInt8.toNat_ofNat_of_lt' (Nat.lt_trans hhigh (by decide))
    have hlength : ¬(toLeBytes (varintWidth (varintFirst n)) n ++ rest).length < varintWidth (varintFirst n) := by simp
    rw [if_neg hsmall, List.cons_append, readVarint, hbyte, if_neg (by omega), if_neg (by omega),
      List.take_left' (length_toLeBytes _ _), List.drop_left' (length_toLeBytes _ _), fromLeBytes_toLeBytes_of_lt hroom]

end LittleEndian
