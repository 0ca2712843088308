import Wormhole.Codec.Leaves

/-!
# `Codec.RoundTrip` — every implementation of the universe writes and reads its wire format

`Implements` is the contract between an implementation and its format, and it composes: an element, a
field or a variant that keeps the contract gives a container, a struct or an enum that keeps it. The
induction over the universe (`Ty.implements`) is then one rule per constructor, and the round trip is
its last field.
-/

namespace Wormhole
namespace Codec

open LittleEndian

/-! ## The leaves -/

section Leaves

variable (p : Platform)

/-- A number is written with the size of its type and read back from that many bytes. -/
theorem leBytes_implements (size : Nat) :
    Implements p (leBytes size) (fun v => toLeBytes size v.toNat) where
  sound h := (Res.ok.inj h).symm
  complete _ := rfl
  inverse _ := leBytes_rematerialize_eq_ok.mpr rfl

/-- `usize` fits `u64` on every target, so writing never fails. -/
theorem usize_implements : Implements p (usize p) (fun v => toLeBytes 8 v.toNat) where
  sound h := (Res.ok.inj h).symm
  complete _ := rfl
  inverse _ := usize_rematerialize_eq_ok.mpr rfl

/-- The sign extension of an `isize` is an `i64` that fits again. -/
theorem isize_implements : Implements p (isize p) (fun v => toLeBytes 8 (v.signExtend 64).toNat) where
  sound h := (Res.ok.inj h).symm
  complete _ := rfl
  inverse _ := isize_rematerialize_eq_ok.mpr rfl

theorem bool_implements : Implements p bool boolWire where
  sound {v _} h := by cases v <;> exact (Res.ok.inj h).symm
  complete {v} _ := by cases v <;> rfl
  inverse _ := bool_rematerialize_eq_ok.mpr rfl

theorem unit_implements : Implements p unit (fun _ => []) where
  sound h := (Res.ok.inj h).symm
  complete _ := rfl
  inverse _ := unit_rematerialize_eq_ok.mpr rfl

/-- The buffer is allocated for the header and the bytes together. The bytes are in memory, but eight more
    may be too many, and then this writer panics. -/
theorem vecU8_implements : Implements p (vecU8 p) block where
  sound h := by
    obtain ⟨_, -, h⟩ := Res.bind_eq_ok.mp h
    obtain ⟨buffer, hbuffer, h⟩ := Res.bind_eq_ok.mp h
    rw [← Res.ok.inj h, Buffer.elems_of_withCapacity hbuffer]
    rfl
  complete {v} hle := by
    rw [length_block] at hle
    simp only [vecU8, Platform.usizeAdd_of_lt (p.lt_usizeSize hle), Res.ok_bind,
      Buffer.withCapacity_of_le ((Nat.mul_one _).trans_le hle), block, List.nil_append]
  inverse hlt := (vecU8_rematerialize_eq_ok hlt).mpr rfl

/-- As `vecU8_implements`, for the UTF-8 of the string. -/
theorem string_implements : Implements p (string p) (fun s => block (asBytes s)) where
  sound h := by
    obtain ⟨_, -, h⟩ := Res.bind_eq_ok.mp h
    obtain ⟨buffer, hbuffer, h⟩ := Res.bind_eq_ok.mp h
    rw [← Res.ok.inj h, Buffer.elems_of_withCapacity hbuffer]
    rfl
  complete {s} hle := by
    rw [length_block] at hle
    simp only [string, Platform.usizeAdd_of_lt (p.lt_usizeSize hle), Res.ok_bind,
      Buffer.withCapacity_of_le ((Nat.mul_one _).trans_le hle), block, List.nil_append]
  inverse hlt := (string_rematerialize_eq_ok hlt).mpr rfl

end Leaves

/-! ## `Vec<T>` -/

section Vec

variable {p : Platform} {size : Nat} {α : Type} {T : ContextTransmaterializable α} {enc : α → Bytes}

/-- What the loop over the elements wrote is their blocks, in order. -/
theorem vecExtend_sound (hT : Implements p T enc) {es : List α} {buffer b : Bytes}
    (h : vecExtend T es buffer = .ok b) : b = buffer ++ blocks (es.map enc) := by
  induction es generalizing buffer with
  | nil => cases h; simp
  | cons element es ih =>
    obtain ⟨elementBytes, hel, h⟩ := Res.bind_eq_ok.mp h
    rw [ih h, hT.sound hel]
    simp [block, List.append_assoc]

/-- The elements are shorter than the whole, so each of them is written if the whole can be allocated. -/
theorem vecExtend_complete (hT : Implements p T enc) {es : List α}
    (hle : (blocks (es.map enc)).length ≤ p.isizeMax) (buffer : Bytes) :
    vecExtend T es buffer = .ok (buffer ++ blocks (es.map enc)) := by
  induction es generalizing buffer with
  | nil => simp [vecExtend]
  | cons element es ih =>
    simp only [List.map_cons, blocks_cons, List.length_append, length_block] at hle
    rw [vecExtend, hT.complete (by omega), Res.ok_bind, ih (by omega)]
    simp [block, List.append_assoc]

/-- The loop reads the elements that the encoder wrote after `pre`, onto the end of `buffer`, which has room for
    them. -/
theorem vecLoop_inverse (hT : Implements p T enc) {es : List α} {pre : Bytes} {fuel : Nat}
    {buffer w : Buffer p size α} (hw : w.Filled buffer es) (hfuel : es.length ≤ fuel)
    (hlt : (pre ++ blocks (es.map enc)).length < p.usizeSize) :
    vecLoop p size T (pre ++ blocks (es.map enc)) fuel pre.length buffer
      = .ok ((pre ++ blocks (es.map enc)).length, w) := by
  induction es generalizing pre fuel buffer with
  | nil =>
    have hbuf : w = buffer := Buffer.filled_nil.mp hw
    cases fuel <;> simp [vecLoop, hbuf]
  | cons element es ih =>
    obtain ⟨fuel, rfl⟩ : ∃ n, fuel = n + 1 := ⟨fuel - 1, by simp at hfuel; omega⟩
    simp only [List.map_cons, blocks_cons] at hlt ⊢
    have hmore : pre.length < (pre ++ (block (enc element) ++ blocks (es.map enc))).length := by
      simp only [List.length_append, length_block]; omega
    have hel : (enc element).length < p.usizeSize := by
      simp only [List.length_append, length_block] at hlt; omega
    obtain ⟨buffer', hpush⟩ := hw.exists_push
    rw [vecLoop, if_pos hmore, readBlock_block .util pre _ _ hlt]
    simp only [Res.ok_bind, hT.inverse hel, hpush]
    rw [← List.append_assoc] at hlt ⊢
    exact ih ((Buffer.filled_cons hpush).mp hw) (by simpa using hfuel) hlt

/-- The vector reserves eight bytes for each element, which the encodings make use of and more. Reading it
    back pushes as many elements as the count says: no growth, and no panic. -/
theorem vec_implements (hT : Implements p T enc) : Implements p (vec p size T) (vecWire enc) where
  sound h := by
    obtain ⟨_, -, h⟩ := Res.bind_eq_ok.mp h
    obtain ⟨_, -, h⟩ := Res.bind_eq_ok.mp h
    obtain ⟨buffer, hbuffer, h⟩ := Res.bind_eq_ok.mp h
    rw [Buffer.elems_of_withCapacity hbuffer] at h
    exact vecExtend_sound hT h
  complete {v} hle := by
    have hblocks := length_blocks (v.elems.map enc)
    have hmax := p.isizeMax_add_lt
    simp only [vecWire, List.length_append, length_toLeBytes, List.length_map] at hle hblocks
    simp only [vec, Platform.usizeMul_of_lt (show v.elems.length * 8 < p.usizeSize by omega),
      Platform.usizeAdd_of_lt (show 8 + v.elems.length * 8 < p.usizeSize by omega), Res.ok_bind,
      Buffer.withCapacity_of_le (show (8 + v.elems.length * 8) * 1 ≤ p.isizeMax by omega)]
    exact vecExtend_complete hT (by omega) _
  inverse {v} hlt := by
    have hblocks := length_blocks (v.elems.map enc)
    have hlen : (vecWire enc v).length = 8 + (blocks (v.elems.map enc)).length := by simp [vecWire]
    rw [List.length_map] at hblocks
    have hcount : v.elems.length < p.usizeSize := by omega
    have hheader : slice (vecWire enc v) 0 8 = .ok (toLeBytes 8 v.elems.length) :=
      slice_append [] (toLeBytes 8 v.elems.length) _ rfl (by simp)
    have hread : usizeFromU64LeBytes p (toLeBytes 8 v.elems.length) = .ok v.elems.length := by
      simp only [usizeFromU64LeBytes, length_toLeBytes, if_true, u64ToUsize,
        fromLeBytes_toLeBytes_of_lt (Nat.lt_of_lt_of_le hcount p.usizeSize_le), if_pos hcount]
    have hcap := Buffer.withCapacity_of_le (α := α) v.fits
    -- the vector was made for its elements, so it does not grow
    let w : Buffer p size α := ⟨v.elems, v.elems.length, Or.inr (Nat.le_refl _), v.fits⟩
    have hloop : vecLoop p size T (vecWire enc v) (vecWire enc v).length (toLeBytes 8 v.elems.length).length
        ⟨[], v.elems.length, Or.inr (Nat.zero_le _), v.fits⟩ = .ok ((vecWire enc v).length, w) :=
      vecLoop_inverse hT ⟨rfl, (capacityAfter_eq_self (Nat.zero_add _).le).symm⟩ (by omega) hlt
    rw [length_toLeBytes] at hloop
    simp only [vec, requireMinBufferSize_of_le (show 8 ≤ (vecWire enc v).length by omega), hheader,
      hread, hcap, Res.ok_bind]
    rw [show vecWire enc v = toLeBytes 8 v.elems.length ++ blocks (v.elems.map enc) from rfl] at *
    rw [hloop, Res.ok_bind, requireBufferSize_of_eq rfl, Res.ok_bind]
    rfl

/-- **A long vector cannot be encoded**: its buffer would be larger than `isize::MAX` from the start. -/
theorem vec_immaterialize_panics {v : RVec p size α} (hlt : 8 + v.elems.length * 8 < p.usizeSize)
    (hlong : p.isizeMax < 8 + v.elems.length * 8) : (vec p size T).immaterialize v = .panic .capacityOverflow := by
  simp only [vec, Platform.usizeMul_of_lt (show v.elems.length * 8 < p.usizeSize by omega),
    Platform.usizeAdd_of_lt hlt, Res.ok_bind, Buffer.withCapacity_of_gt (hlong.trans_eq (Nat.mul_one _).symm),
    Res.panic_bind]

end Vec

/-! ## `Option<T>` and `Result<T, E>` -/

section Tagged

variable {p : Platform} {α ε : Type} {T : ContextTransmaterializable α} {enc : α → Bytes}
  {E : ContextTransmaterializable ε} {encErr : ε → Bytes}

/-- The payload of an encoding is read back whole: the length fits as the data do. -/
theorem readTagged_block {β : Type} {d : UInt8} {b : Bytes} {f : Bytes → Res β}
    (hlt : (d :: block b).length < p.usizeSize) : readTagged p (d :: block b) f = f b := by
  have hlen : (d :: block b).length = 9 + b.length := by simp; omega
  obtain ⟨e, he⟩ := readTagged_eq (d :: block b) f hlt (by omega)
  have hhead : headerAt (d :: block b) 1 = b.length :=
    headerAt_of_drop (show (d :: block b).drop 1 = block b ++ [] by simp) (by have := p.usizeSize_le; omega)
  have hdrop : (d :: block b).drop 9 = b := List.drop_left' (length_toLeBytes 8 _)
  rw [he, hhead, Platform.asUsize_of_lt (by omega), if_neg (by omega), if_pos hlen, hdrop]

/-- A `Some` is read back by the inner decoder on the inner bytes. -/
theorem option_rematerialize_some (hlt : (1 :: block b : Bytes).length < p.usizeSize) :
    (option p T).rematerialize (1 :: block b) = (do
      let value ← T.rematerialize b
      .ok (some value)) := by
  have h9 : requireMinBufferSize (1 :: block b) 9 = .ok () :=
    requireMinBufferSize_of_le (by simp)
  have h1 : requireMinBufferSize (1 :: block b) 1 = .ok () := requireMinBufferSize_of_le (by simp)
  have hindex : index (1 :: block b) 0 = .ok 1 := rfl
  rw [← readTagged_block (f := fun inner => do
    let value ← T.rematerialize inner
    (.ok (some value) : Res (Option α))) hlt]
  simp only [option, h1, hindex, Res.ok_bind, h9]
  rfl

/-- A `None` is a single byte, which no `Some` is. -/
theorem option_implements (hT : Implements p T enc) :
    Implements p (option p T) (optionWire enc) where
  sound {v b} h := by
    cases v with
    | none => exact (Res.ok.inj h).symm
    | some v =>
      obtain ⟨valueBytes, hv, h⟩ := Res.bind_eq_ok.mp h
      rw [← Res.ok.inj h, hT.sound hv]
      rfl
  complete {v} hle := by
    cases v with
    | none => rfl
    | some v =>
      have hv : (enc v).length ≤ p.isizeMax := by simp [optionWire] at hle; omega
      simp only [option, hT.complete hv, Res.ok_bind]
      rfl
  inverse {v} hlt := by
    cases v with
    | none => rfl
    | some v =>
      have hv : (enc v).length < p.usizeSize := by simp [optionWire] at hlt; omega
      rw [optionWire, option_rematerialize_some hlt, hT.inverse hv, Res.ok_bind]

/-- The byte in front says which of the two decoders gets the payload. -/
theorem result_rematerialize_block {d : UInt8} {b : Bytes}
    (hlt : (d :: block b : Bytes).length < p.usizeSize) :
    (result p T E).rematerialize (d :: block b) =
      if d = 0 then do
        let value ← T.rematerialize b
        .ok (.ok value)
      else if d = 1 then do
        let error ← E.rematerialize b
        .ok (.error error)
      else .err (.invalidResultDiscriminant d) := by
  have h9 : requireMinBufferSize (d :: block b) 9 = .ok () :=
    requireMinBufferSize_of_le (by simp)
  have hindex : index (d :: block b) 0 = .ok d := rfl
  rw [← readTagged_block (f := fun inner =>
    if d = 0 then do
      let value ← T.rematerialize inner
      .ok (.ok value)
    else if d = 1 then do
      let error ← E.rematerialize inner
      .ok (.error error)
    else (.err (.invalidResultDiscriminant d) : Res (Except ε α))) hlt]
  simp only [result, hindex, Res.ok_bind, h9]
  rfl

theorem result_implements (hT : Implements p T enc) (hE : Implements p E encErr) :
    Implements p (result p T E) (resultWire enc encErr) where
  sound {v b} h := by
    cases v with
    | ok v =>
      obtain ⟨valueBytes, hv, h⟩ := Res.bind_eq_ok.mp h
      rw [← Res.ok.inj h, hT.sound hv]
      rfl
    | error e =>
      obtain ⟨errBytes, hv, h⟩ := Res.bind_eq_ok.mp h
      rw [← Res.ok.inj h, hE.sound hv]
      rfl
  complete {v} hle := by
    cases v with
    | ok v =>
      have hv : (enc v).length ≤ p.isizeMax := by simp [resultWire] at hle; omega
      simp only [result, hT.complete hv, Res.ok_bind]
      rfl
    | error e =>
      have he : (encErr e).length ≤ p.isizeMax := by simp [resultWire] at hle; omega
      simp only [result, hE.complete he, Res.ok_bind]
      rfl
  inverse {v} hlt := by
    cases v with
    | ok v =>
      have hv : (enc v).length < p.usizeSize := by simp [resultWire] at hlt; omega
      rw [resultWire, result_rematerialize_block hlt, if_pos rfl, hT.inverse hv, Res.ok_bind]
    | error e =>
      have he : (encErr e).length < p.usizeSize := by simp [resultWire] at hlt; omega
      rw [resultWire, result_rematerialize_block hlt, if_neg (by decide), if_pos rfl, hE.inverse he,
        Res.ok_bind]

end Tagged

/-! ## Field lists -/

/-- The contract of a list of fields: it appends its format to a buffer, and reads it back from any
    offset, to the end of the buffer. -/
structure FieldsImplement (p : Platform) {α : Type} (F : FieldsCodec α) (enc : α → Bytes) : Prop where
  sound : ∀ {v buffer b}, F.serialize v buffer = .ok b → b = buffer ++ enc v
  complete : ∀ {v}, (enc v).length ≤ p.isizeMax → ∀ buffer, F.serialize v buffer = .ok (buffer ++ enc v)
  inverse : ∀ {v} (pre : Bytes), (pre ++ enc v).length < p.usizeSize →
    F.deserialize (pre ++ enc v) pre.length = .ok (v, (pre ++ enc v).length)

section Fields

variable {p : Platform} {style : BlockStyle} {α β : Type} {T : ContextTransmaterializable α}
  {enc : α → Bytes} {F : FieldsCodec α} {G : FieldsCodec β} {encRest : β → Bytes}

theorem nil_fieldsImplement : FieldsImplement p .nil (fun _ => []) where
  sound h := by rw [List.append_nil]; exact (Res.ok.inj h).symm
  complete _ buffer := by rw [List.append_nil]; rfl
  inverse _ _ := by rw [List.append_nil]; rfl

/-- A field is written behind those before it and read at the offset where they end. -/
theorem cons_fieldsImplement (hT : Implements p T enc) (hG : FieldsImplement p G encRest) :
    FieldsImplement p (.cons p style T G) (fun v => block (enc v.1) ++ encRest v.2) where
  sound h := by
    obtain ⟨fieldBytes, hfield, h⟩ := Res.bind_eq_ok.mp h
    rw [hG.sound h, hT.sound hfield]
    simp only [block, List.append_assoc]
  complete {v} hle buffer := by
    simp only [List.length_append, length_block] at hle
    simp only [FieldsCodec.cons, hT.complete (show (enc v.1).length ≤ p.isizeMax by omega), Res.ok_bind,
      hG.complete (show (encRest v.2).length ≤ p.isizeMax by omega), block, List.append_assoc]
  inverse {v} pre hlt := by
    have hfield : (enc v.1).length < p.usizeSize := by
      simp only [List.length_append, length_block] at hlt; omega
    simp only [FieldsCodec.cons, readBlock_block style pre _ _ hlt, Res.ok_bind, hT.inverse hfield]
    rw [← List.append_assoc] at hlt ⊢
    rw [hG.inverse _ hlt, Res.ok_bind]

/-- From the first field on nothing is left over. -/
theorem fields_inverse_zero (hF : FieldsImplement p F enc) {v : α}
    (hlt : (enc v).length < p.usizeSize) : F.deserialize (enc v) 0 = .ok (v, (enc v).length) :=
  hF.inverse [] hlt

/-- The test at the end passes since the fields took all of the data. -/
theorem tuple_implements (hF : FieldsImplement p F enc) : Implements p (tuple F) enc where
  sound h := hF.sound h
  complete hle := hF.complete hle []
  inverse hlt := by
    simp only [tuple, fields_inverse_zero hF hlt, Res.ok_bind, requireBufferSize_of_eq]

/-- As `tuple_implements`, for structs. -/
theorem deriveStructNamed_implements (hF : FieldsImplement p F enc) :
    Implements p (deriveStructNamed F) enc where
  sound h := hF.sound h
  complete hle := hF.complete hle []
  inverse hlt := by
    simp only [deriveStructNamed, fields_inverse_zero hF hlt, Res.ok_bind, ne_eq, not_true, if_false]

end Fields

theorem deriveStructUnit_implements (p : Platform) :
    Implements p deriveStructUnit (fun _ => []) where
  sound h := (Res.ok.inj h).symm
  complete _ := rfl
  inverse _ := rfl

/-! ## Enums -/

/-- The contract of the arms of one variant. -/
structure ArmImplements (p : Platform) {α : Type} (A : ArmCodec α) (enc : α → Bytes) : Prop where
  sound : ∀ {v b}, A.serialize v = .ok b → b = enc v
  complete : ∀ {v}, (enc v).length ≤ p.isizeMax → A.serialize v = .ok (enc v)
  inverse : ∀ {v}, (enc v).length < p.usizeSize → A.deserialize (enc v) = .ok v

/-- The contract of a `match` over variants with the given names. -/
structure VariantsImplement (p : Platform) {α : Type} (V : VariantsCodec α) (names : List String)
    (enc : α → String × Bytes) : Prop where
  sound : ∀ {v c}, V.serialize v = .ok c → c = enc v
  complete : ∀ {v}, (enc v).2.length ≤ p.isizeMax → V.serialize v = .ok (enc v)
  name_mem : ∀ v, (enc v).1 ∈ names
  inverse : ∀ {v}, (enc v).2.length < p.usizeSize → V.deserialize (enc v).1 (enc v).2 = .ok v

section Enums

variable {p : Platform} {α β : Type} {F : FieldsCodec α} {enc : α → Bytes} {A : ArmCodec α}
  {V : VariantsCodec β} {names : List String} {encRest : β → String × Bytes}

theorem unitArm_implements : ArmImplements p unitArm (fun _ => []) where
  sound h := (Res.ok.inj h).symm
  complete _ := rfl
  inverse _ := rfl

theorem fieldsArm_implements (hF : FieldsImplement p F enc) : ArmImplements p (fieldsArm F) enc where
  sound h := hF.sound h
  complete hle := hF.complete hle []
  inverse hlt := by
    simp only [fieldsArm, fields_inverse_zero hF hlt, Res.ok_bind, ne_eq, not_true, if_false]

theorem nil_variantsImplement : VariantsImplement p .nil [] (fun v => v.elim) where
  sound {v} := v.elim
  complete {v} := v.elim
  name_mem v := v.elim
  inverse {v} := v.elim

/-- The names have to differ here: the decoder takes the first arm with the name it read. -/
theorem cons_variantsImplement {name : String} (hA : ArmImplements p A enc)
    (hV : VariantsImplement p V names encRest) (hname : name ∉ names) :
    VariantsImplement p (.cons name A V) (name :: names) (sumWire name enc encRest) where
  sound {v c} h := by
    cases v with
    | inl v =>
      obtain ⟨bytes, hb, h⟩ := Res.bind_eq_ok.mp h
      rw [← Res.ok.inj h, hA.sound hb]
      rfl
    | inr w => exact hV.sound h
  complete {v} hle := by
    cases v with
    | inl v => simp only [VariantsCodec.cons, hA.complete hle, Res.ok_bind, sumWire]
    | inr w => exact hV.complete hle
  name_mem v := by
    cases v with
    | inl v => exact List.mem_cons_self
    | inr w => exact List.mem_cons_of_mem _ (hV.name_mem w)
  inverse {v} hlt := by
    cases v with
    | inl v =>
      simp only [VariantsCodec.cons, sumWire, if_true, hA.inverse hlt, Res.ok_bind]
    | inr w =>
      -- the names differ, so the arms before it do not match
      have hne : (encRest w).1 ≠ name := fun h => hname (h ▸ hV.name_mem w)
      simp only [VariantsCodec.cons, sumWire, if_neg hne]
      rw [hV.inverse hlt, Res.ok_bind]

/-- The name is written in UTF-8 and read back as the same name, and with it the arm is found. -/
theorem deriveEnum_implements (hV : VariantsImplement p V names encRest) :
    Implements p (deriveEnum p V) (fun v => variantWire (encRest v)) where
  sound {v b} h := by
    obtain ⟨c, hc, h⟩ := Res.bind_eq_ok.mp h
    rw [← Res.ok.inj h, hV.sound hc]
    simp only [variantWire, block, List.append_assoc]
  complete {v} hle := by
    simp only [variantWire, List.length_append, length_block] at hle
    simp only [deriveEnum, hV.complete (show (encRest v).2.length ≤ p.isizeMax by omega), Res.ok_bind,
      variantWire, block, List.append_assoc]
  inverse {v} hlt := by
    have hpayload : (encRest v).2.length < p.usizeSize := by
      simp only [variantWire, List.length_append, length_block] at hlt; omega
    have hname : readBlock p .variantName (variantWire (encRest v)) 0
        = .ok (asBytes (encRest v).1, (block (asBytes (encRest v).1)).length) :=
      readBlock_block .variantName [] _ _ hlt
    have hdata : readBlock p .payload (variantWire (encRest v)) (block (asBytes (encRest v).1)).length
        = .ok ((encRest v).2, (variantWire (encRest v)).length) := by
      have := readBlock_block (p := p) .payload (block (asBytes (encRest v).1)) (encRest v).2 []
        (by rwa [List.append_nil])
      rwa [List.append_nil] at this
    simp only [deriveEnum, hname, Res.ok_bind, fromUtf8_eq_ok.mpr rfl, hdata, hV.inverse hpayload,
      ne_eq, not_true, if_false]

end Enums

/-- There is no value to write. -/
theorem deriveEnumEmpty_implements (p : Platform) (name : String) (enc : Empty → Bytes) :
    Implements p (deriveEnumEmpty name) enc where
  sound {v} := v.elim
  complete {v} := v.elim
  inverse {v} := v.elim

/-! ## The universe -/

mutual

/-- **Every implementation of the universe keeps its contract.** -/
theorem Ty.implements (tgt : Target) : ∀ t : Ty, t.Compiles →
    Implements tgt.toPlatform (t.codec tgt) (t.wire tgt)
  | .num k, _ => leBytes_implements _ k.sizeOf
  | .usize, _ => usize_implements _
  | .isize, _ => isize_implements _
  | .bool, _ => bool_implements _
  | .unit, _ => unit_implements _
  | .string, _ => string_implements _
  | .bytes, _ => vecU8_implements _
  | .vec t, h => vec_implements (Ty.implements tgt t h)
  | .option t, h => option_implements (Ty.implements tgt t h)
  | .result t e, h => result_implements (Ty.implements tgt t h.1) (Ty.implements tgt e h.2)
  | .tuple ts, h => tuple_implements (Tys.implement tgt .util ts h.2)
  | .structNamed ts, h => deriveStructNamed_implements (Tys.implement tgt .field ts h)
  | .structTuple ts, h => deriveStructNamed_implements (Tys.implement tgt .field ts h)
  | .structUnit, _ => deriveStructUnit_implements _
  | .enum name .nil, _ => deriveEnumEmpty_implements _ name _
  | .enum _ (.cons name fields vs), h =>
      deriveEnum_implements (Variants.implement tgt (.cons name fields vs) h.1 h.2)

/-- Field by field. -/
theorem Tys.implement (tgt : Target) (style : BlockStyle) : ∀ ts : Tys, ts.Compile →
    FieldsImplement tgt.toPlatform (ts.codec tgt style) (ts.wire tgt)
  | .nil, _ => nil_fieldsImplement
  | .cons t ts, h => cons_fieldsImplement (Ty.implements tgt t h.1) (Tys.implement tgt style ts h.2)

/-- Variant by variant; rustc sees to it that the names differ. -/
theorem Variants.implement (tgt : Target) : ∀ vs : Variants, vs.names.Nodup → vs.Compile →
    VariantsImplement tgt.toPlatform (vs.codec tgt) vs.names (vs.wire tgt)
  | .nil, _, _ => nil_variantsImplement
  | .cons name fields vs, hnames, h => by
      have hcons := cons_variantsImplement (VariantFields.implement tgt fields h.1)
        (Variants.implement tgt vs hnames.of_cons h.2) (List.nodup_cons.mp hnames).1
      rw [Variants.wire_cons]
      exact hcons

theorem VariantFields.implement (tgt : Target) : ∀ fields : VariantFields, fields.Compile →
    ArmImplements tgt.toPlatform (fields.codec tgt) (fields.wire tgt)
  | .unit, _ => unitArm_implements
  | .tuple ts, h => fieldsArm_implements (Tys.implement tgt .field ts h)
  | .named ts, h => fieldsArm_implements (Tys.implement tgt .field ts h)

end

/-- **Round trip.** A value whose encoding is at most `isize::MAX` bytes long is encoded, and decoding the bytes
    gives the value back. -/
theorem rematerialize_immaterialize (tgt : Target) (t : WireTy) (v : t.ty.Val tgt)
    (hle : (t.ty.wire tgt v).length ≤ tgt.isizeMax) :
    ∃ b, (t.ty.codec tgt).immaterialize v = .ok b ∧ (t.ty.codec tgt).rematerialize b = .ok v :=
  have h := t.ty.implements tgt t.compiles
  ⟨t.ty.wire tgt v, h.complete hle, h.inverse (tgt.lt_usizeSize hle)⟩

/-- `vec![(); n]`, which takes no memory. -/
def units (n : Nat) : (Ty.vec .unit).Val (.sixtyFour true) where
  elems := List.replicate n ()
  fits := (Nat.mul_zero _).trans_le (Nat.zero_le _)

theorem length_units (n : Nat) : (units n).elems.length = n := List.length_replicate

/-- A header for each unit, and nothing behind it. -/
theorem length_wire_units (n : Nat) : ((Ty.vec .unit).wire (.sixtyFour true) (units n)).length = 8 + 8 * n := by
  have hwire : ((Ty.vec .unit).wire (.sixtyFour true) (units n)).length = 8 + 8 * (units n).elems.length :=
    length_vecWire_nil (units n)
  rw [hwire, length_units]

/-- Units take no memory, so there may be any number of them. Their headers do, and `with_capacity` is asked
    for all of them at once. -/
theorem units_immaterialize_panics {n : Nat} (hlt : 8 + n * 8 < (Target.sixtyFour true).usizeSize)
    (hlong : (Target.sixtyFour true).isizeMax < 8 + n * 8) :
    ((Ty.vec .unit).codec (.sixtyFour true)).immaterialize (units n) = .panic .capacityOverflow := by
  apply vec_immaterialize_panics
  · rwa [length_units]
  · rwa [length_units]

/-- **A length in `usize` is not enough.** The encoding of `1 << 60` units has `2 ^ 63 + 8` bytes, one header for
    each of them. -/
theorem long_encoding_panics :
    ((Ty.vec .unit).wire (.sixtyFour true) (units (2 ^ 60))).length < (Target.sixtyFour true).usizeSize ∧
      ((Ty.vec .unit).codec (.sixtyFour true)).immaterialize (units (2 ^ 60)) = .panic .capacityOverflow := by
  constructor
  · rw [length_wire_units]
    decide
  · exact units_immaterialize_panics (by decide) (by decide)

/-- `MixedEnum` of the source's tests: a unit, a tuple and a struct variant. -/
def mixedEnum : WireTy where
  ty := .enum "MixedEnum" (.cons "Unit" .unit
    (.cons "Tuple" (.tuple (.cons (.num .u32) (.cons .string .nil)))
    (.cons "Struct" (.named (.cons (.num .u32) (.cons .string .nil))) .nil)))
  compiles := by
    simp [Ty.Compiles, Variants.Compile, VariantFields.Compile, Tys.Compile, Variants.names]

/-- `MixedEnum::Tuple(42, "hello")`. -/
def mixedTuple : mixedEnum.ty.Val (.sixtyFour true) := .inr (.inl (42#32, "hello", ()))

theorem rematerialize_immaterialize_mixedTuple :
    ∃ b, (mixedEnum.ty.codec (.sixtyFour true)).immaterialize mixedTuple = .ok b ∧
      (mixedEnum.ty.codec (.sixtyFour true)).rematerialize b = .ok mixedTuple :=
  rematerialize_immaterialize (.sixtyFour true) mixedEnum mixedTuple (by decide)

end Codec
end Wormhole
