import Mathlib.Tactic.NormNum
import Wormhole.Codec.Block

/-!
# `Codec.Leaves` — the implementations without type parameters

Numbers, `usize` and `isize`, `bool`, `()`, `String` and `Vec<u8>`. Each of them accepts exactly the
encodings it writes: `rematerialize b = Ok(v)` if and only if `b` is the encoding of `v`. Round trip and
canonicity of these types both read off that equivalence.
-/

namespace Wormhole
namespace Codec

open LittleEndian

/-! ## What an implementation owes its format -/

/-- `T` writes the format `enc`, for every value whose encoding is at most `isize::MAX` bytes long, and reads
    back what it wrote. -/
structure Implements (p : Platform) {α : Type} (T : ContextTransmaterializable α) (enc : α → Bytes) :
    Prop where
  sound : ∀ {v b}, T.immaterialize v = .ok b → b = enc v
  complete : ∀ {v}, (enc v).length ≤ p.isizeMax → T.immaterialize v = .ok (enc v)
  inverse : ∀ {v}, (enc v).length < p.usizeSize → T.rematerialize (enc v) = .ok v

/-! ## Numbers -/

/-- A number accepts its little-endian bytes, and no string of another length. -/
theorem leBytes_rematerialize_eq_ok {size : Nat} {b : Bytes} {v : BitVec (8 * size)} :
    (leBytes size).rematerialize b = .ok v ↔ b = toLeBytes size v.toNat := by
  have hpow : (2 : Nat) ^ (8 * size) = 256 ^ size := by rw [Nat.pow_mul]
  simp only [leBytes, Res.bind_eq_ok, requireBufferSize_eq_ok]
  constructor
  · rintro ⟨_, rfl, bytes, hbytes, h⟩
    rw [slice_all] at hbytes
    cases hbytes
    have hv := Res.ok.inj h
    rw [← hv, BitVec.toNat_ofNat, hpow, Nat.mod_eq_of_lt (fromLeBytes_lt b), toLeBytes_fromLeBytes]
  · rintro rfl
    have hlen : (toLeBytes size v.toNat).length = size := length_toLeBytes ..
    refine ⟨(), hlen, toLeBytes size v.toNat, ?_, ?_⟩
    · have := slice_all (toLeBytes size v.toNat)
      rwa [hlen] at this
    · rw [fromLeBytes_toLeBytes_of_lt (hpow ▸ v.isLt), BitVec.ofNat_toNat, BitVec.setWidth_eq]

/-- Eight bytes are the encoding of the `u64` they spell. -/
theorem eq_toLeBytes_eight {b : Bytes} {n : Nat} (hn : n < 256 ^ 8) :
    (b.length = 8 ∧ fromLeBytes b = n) ↔ b = toLeBytes 8 n := by
  constructor
  · rintro ⟨hlen, rfl⟩
    exact (toLeBytes_fromLeBytes_of_length hlen).symm
  · rintro rfl
    exact ⟨length_toLeBytes 8 n, fromLeBytes_toLeBytes_of_lt hn⟩

/-- The first steps of `usize` and `isize`: eight bytes, read as a `u64`. -/
theorem readU64_eq_ok {α : Type} {b : Bytes} {f : Nat → Res α} {v : α} :
    (do requireBufferSize b 8
        let bytes ← slice b 0 8
        let value ← u64FromLeBytes bytes
        f value) = .ok v ↔ b.length = 8 ∧ f (fromLeBytes b) = .ok v := by
  simp only [Res.bind_eq_ok, requireBufferSize_eq_ok]
  constructor
  · rintro ⟨_, hlen, bytes, hbytes, value, hvalue, h⟩
    have hall := slice_all b
    rw [hlen, hbytes] at hall
    cases hall
    rw [u64FromLeBytes_of_length hlen] at hvalue
    cases hvalue
    exact ⟨hlen, h⟩
  · rintro ⟨hlen, h⟩
    exact ⟨(), hlen, b, hlen ▸ slice_all b, _, u64FromLeBytes_of_length hlen, h⟩

/-- A `usize` travels as a `u64`, and one that does not fit the target is refused. -/
theorem usize_rematerialize_eq_ok {p : Platform} {b : Bytes} {v : BitVec p.bits} :
    (usize p).rematerialize b = .ok v ↔ b = toLeBytes 8 v.toNat := by
  have hv : v.toNat < p.usizeSize := v.isLt
  rw [← eq_toLeBytes_eight (Nat.lt_of_lt_of_le hv p.usizeSize_le)]
  simp only [usize, readU64_eq_ok]
  refine and_congr_right fun _ => ?_
  unfold u64ToUsize
  split
  · rename_i hfit
    simp only [Res.ok_bind, Res.ok.injEq]
    constructor
    · rintro rfl
      exact (Nat.mod_eq_of_lt hfit).symm
    · intro h
      rw [h, BitVec.ofNat_toNat, BitVec.setWidth_eq]
  · rename_i hfit
    simp only [Res.err_bind, reduceCtorEq, false_iff]
    intro h
    exact hfit (h ▸ hv)

/-- An `isize` travels as an `i64` with its sign extended, and any other `i64` is refused. -/
theorem isize_rematerialize_eq_ok {p : Platform} {b : Bytes} {v : BitVec p.bits} :
    (isize p).rematerialize b = .ok v ↔ b = toLeBytes 8 (v.signExtend 64).toNat := by
  have h64 : (2 : Nat) ^ 64 = 256 ^ 8 := by norm_num
  have hmax : ((p.isizeMax : Int) + 1) = 2 ^ (p.bits - 1) := by
    have := Nat.two_pow_pos (p.bits - 1)
    rw [Platform.isizeMax]; push_cast [this]; omega
  have hsign : (v.signExtend 64).toInt = v.toInt := BitVec.toInt_signExtend_of_le p.le_sixtyFour
  rw [← eq_toLeBytes_eight (h64 ▸ (v.signExtend 64).isLt)]
  simp only [isize, readU64_eq_ok]
  refine and_congr_right fun hlen => ?_
  have hb : fromLeBytes b < 2 ^ 64 := by have := fromLeBytes_lt b; rwa [hlen, ← h64] at this
  unfold i64ToIsize
  split
  · rename_i hfit
    simp only [Res.ok_bind, Res.ok.injEq]
    constructor
    · rintro rfl
      have hint : (BitVec.ofInt p.bits (BitVec.ofNat 64 (fromLeBytes b)).toInt).toInt
          = (BitVec.ofNat 64 (fromLeBytes b)).toInt := by
        rw [BitVec.toInt_ofInt_eq_self (by have := p.sixteen_le; omega)] <;> omega
      rw [BitVec.toInt_inj.mp (hsign.trans hint), BitVec.toNat_ofNat, Nat.mod_eq_of_lt hb]
    · intro h
      rw [h, BitVec.ofNat_toNat, BitVec.setWidth_eq, hsign, BitVec.ofInt_toInt]
  · rename_i hfit
    simp only [Res.err_bind, reduceCtorEq, false_iff]
    intro h
    rw [h, BitVec.ofNat_toNat, BitVec.setWidth_eq, hsign] at hfit
    have hlo := BitVec.le_toInt v
    have hhi := BitVec.toInt_lt (x := v)
    omega

/-! ## `bool` and `()` -/

/-- A `bool` is one byte, and only 0 and 1 are read. -/
theorem bool_rematerialize_eq_ok {b : Bytes} {v : Bool} :
    bool.rematerialize b = .ok v ↔ b = boolWire v := by
  simp only [bool, Res.bind_eq_ok, requireBufferSize_eq_ok]
  constructor
  · rintro ⟨_, hlen, byte, hbyte, h⟩
    obtain ⟨x, rfl⟩ := List.length_eq_one_iff.mp hlen
    cases hbyte
    split at h
    · rename_i h0; cases h; rw [h0]; rfl
    · split at h
      · rename_i h1; cases h; rw [h1]; rfl
      · cases h
  · rintro rfl
    cases v
    · exact ⟨(), rfl, 0, rfl, rfl⟩
    · exact ⟨(), rfl, 1, rfl, rfl⟩

theorem unit_rematerialize_eq_ok {b : Bytes} {v : Unit} : unit.rematerialize b = .ok v ↔ b = [] := by
  simp [unit, Res.bind_eq_ok]

/-! ## `Vec<u8>` and `String` -/

/-- A byte vector is one block that takes all of the data. -/
theorem vecU8_rematerialize_eq_ok {p : Platform} {b v : Bytes} (hlt : b.length < p.usizeSize) :
    (vecU8 p).rematerialize b = .ok v ↔ b = block v := by
  rw [vecU8_rematerialize, readWhole_eq_ok hlt]
  simp

theorem toByteArray_asBytes (s : String) : (asBytes s).toByteArray = s.toByteArray := by
  apply ByteArray.ext
  simp [asBytes]

/-- Only well-formed UTF-8 is a string, and then it is the UTF-8 of the string. -/
theorem fromUtf8_eq_ok {b : Bytes} {s : String} : fromUtf8 b = .ok s ↔ b = asBytes s := by
  unfold fromUtf8 String.fromUTF8?
  by_cases hvalid : b.toByteArray.IsValidUTF8
  · simp only [dif_pos hvalid, Res.ok.injEq]
    constructor
    · rintro rfl
      simp [asBytes, String.fromUTF8]
    · rintro rfl
      rw [← String.toByteArray_inj]
      exact toByteArray_asBytes s
  · simp only [dif_neg hvalid, reduceCtorEq, false_iff]
    rintro rfl
    rw [toByteArray_asBytes] at hvalid
    exact hvalid s.isValidUTF8

/-- A string is one block of UTF-8 that takes all of the data. -/
theorem string_rematerialize_eq_ok {p : Platform} {b : Bytes} {s : String}
    (hlt : b.length < p.usizeSize) :
    (string p).rematerialize b = .ok s ↔ b = block (asBytes s) := by
  rw [string_rematerialize, readWhole_eq_ok hlt]
  simp [fromUtf8_eq_ok]

end Codec
end Wormhole
