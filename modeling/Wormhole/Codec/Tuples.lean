import Wormhole.Codec.Universe

/-!
# `Codec.Tuples` — the twelve tuple implementations

`transmaterialization/default_impl_tupl.rs`, where an implementation is written out for each arity from 1 to 12.
A tuple is written with `()` at its end here, as the values of a list of fields are.
-/

namespace Wormhole
namespace Codec

open LittleEndian

/-! ## One element -/

/-- The lines of `immaterialize` for one element. -/
def extendElem {α : Type} (T : ContextTransmaterializable α) (elem : α) (buffer : Bytes) : Res Bytes := do
  let elemBytes ← T.immaterialize elem
  let elemLen := elemBytes.length
  .ok (buffer ++ toLeBytes 8 elemLen ++ elemBytes)

/-- The lines of `rematerialize` for one element. -/
def readElem (p : Platform) {α : Type} (T : ContextTransmaterializable α) (data : Bytes) (offset : Nat) :
    Res (α × Nat) := do
  let headerEnd ← p.usizeAdd offset 8
  requireMinBufferSize data headerEnd
  let headerEnd ← p.usizeAdd offset 8
  let header ← slice data offset headerEnd
  let elemLen ← usizeFromU64LeBytes p header
  let offset ← p.usizeAdd offset 8
  let stop ← p.usizeAdd offset elemLen
  requireMinBufferSize data stop
  let stop ← p.usizeAdd offset elemLen
  let elemData ← slice data offset stop
  let elem ← T.rematerialize elemData
  let offset ← p.usizeAdd offset elemLen
  .ok (elem, offset)

/-! ## The implementations -/

section Tuples

variable (p : Platform) {α0 α1 α2 α3 α4 α5 α6 α7 α8 α9 α10 α11 : Type}
variable (T0 : ContextTransmaterializable α0) (T1 : ContextTransmaterializable α1)
  (T2 : ContextTransmaterializable α2) (T3 : ContextTransmaterializable α3)
  (T4 : ContextTransmaterializable α4) (T5 : ContextTransmaterializable α5)
  (T6 : ContextTransmaterializable α6) (T7 : ContextTransmaterializable α7)
  (T8 : ContextTransmaterializable α8) (T9 : ContextTransmaterializable α9)
  (T10 : ContextTransmaterializable α10) (T11 : ContextTransmaterializable α11)

/-- `impl ContextTransmaterializable for (T0,)`. -/
def tuple1 : ContextTransmaterializable (α0 × Unit) where
  immaterialize := fun (elem0, ()) => do
    let buffer := []
    let buffer ← extendElem T0 elem0 buffer
    .ok buffer
  rematerialize data := do
    let offset := 0
    let (elem0, offset) ← readElem p T0 data offset
    requireBufferSize data offset
    .ok (elem0, ())

/-- `impl ContextTransmaterializable for (T0, T1)`. -/
def tuple2 : ContextTransmaterializable (α0 × α1 × Unit) where
  immaterialize := fun (elem0, elem1, ()) => do
    let buffer := []
    let buffer ← extendElem T0 elem0 buffer
    let buffer ← extendElem T1 elem1 buffer
    .ok buffer
  rematerialize data := do
    let offset := 0
    let (elem0, offset) ← readElem p T0 data offset
    let (elem1, offset) ← readElem p T1 data offset
    requireBufferSize data offset
    .ok (elem0, elem1, ())

/-- `impl ContextTransmaterializable for (T0, T1, T2)`. -/
def tuple3 : ContextTransmaterializable (α0 × α1 × α2 × Unit) where
  immaterialize := fun (elem0, elem1, elem2, ()) => do
    let buffer := []
    let buffer ← extendElem T0 elem0 buffer
    let buffer ← extendElem T1 elem1 buffer
    let buffer ← extendElem T2 elem2 buffer
    .ok buffer
  rematerialize data := do
    let offset := 0
    let (elem0, offset) ← readElem p T0 data offset
    let (elem1, offset) ← readElem p T1 data offset
    let (elem2, offset) ← readElem p T2 data offset
    requireBufferSize data offset
    .ok (elem0, elem1, elem2, ())

/-- `impl ContextTransmaterializable for (T0, T1, T2, T3)`. -/
def tuple4 : ContextTransmaterializable (α0 × α1 × α2 × α3 × Unit) where
  immaterialize := fun (elem0, elem1, elem2, elem3, ()) => do
    let buffer := []
    let buffer ← extendElem T0 elem0 buffer
    let buffer ← extendElem T1 elem1 buffer
    let buffer ← extendElem T2 elem2 buffer
    let buffer ← extendElem T3 elem3 buffer
    .ok buffer
  rematerialize data := do
    let offset := 0
    let (elem0, offset) ← readElem p T0 data offset
    let (elem1, offset) ← readElem p T1 data offset
    let (elem2, offset) ← readElem p T2 data offset
    let (elem3, offset) ← readElem p T3 data offset
    requireBufferSize data offset
    .ok (elem0, elem1, elem2, elem3, ())

/-- `impl ContextTransmaterializable for (T0, T1, T2, T3, T4)`. -/
def tuple5 : ContextTransmaterializable (α0 × α1 × α2 × α3 × α4 × Unit) where
  immaterialize := fun (elem0, elem1, elem2, elem3, elem4, ()) => do
    let buffer := []
    let buffer ← extendElem T0 elem0 buffer
    let buffer ← extendElem T1 elem1 buffer
    let buffer ← extendElem T2 elem2 buffer
    let buffer ← extendElem T3 elem3 buffer
    let buffer ← extendElem T4 elem4 buffer
    .ok buffer
  rematerialize data := do
    let offset := 0
    let (elem0, offset) ← readElem p T0 data offset
    let (elem1, offset) ← readElem p T1 data offset
    let (elem2, offset) ← readElem p T2 data offset
    let (elem3, offset) ← readElem p T3 data offset
    let (elem4, offset) ← readElem p T4 data offset
    requireBufferSize data offset
    .ok (elem0, elem1, elem2, elem3, elem4, ())

/-- `impl ContextTransmaterializable for (T0, T1, T2, T3, T4, T5)`. -/
def tuple6 : ContextTransmaterializable (α0 × α1 × α2 × α3 × α4 × α5 × Unit) where
  immaterialize := fun (elem0, elem1, elem2, elem3, elem4, elem5, ()) => do
    let buffer := []
    let buffer ← extendElem T0 elem0 buffer
    let buffer ← extendElem T1 elem1 buffer
    let buffer ← extendElem T2 elem2 buffer
    let buffer ← extendElem T3 elem3 buffer
    let buffer ← extendElem T4 elem4 buffer
    let buffer ← extendElem T5 elem5 buffer
    .ok buffer
  rematerialize data := do
    let offset := 0
    let (elem0, offset) ← readElem p T0 data offset
    let (elem1, offset) ← readElem p T1 data offset
    let (elem2, offset) ← readElem p T2 data offset
    let (elem3, offset) ← readElem p T3 data offset
    let (elem4, offset) ← readElem p T4 data offset
    let (elem5, offset) ← readElem p T5 data offset
    requireBufferSize data offset
    .ok (elem0, elem1, elem2, elem3, elem4, elem5, ())

/-- `impl ContextTransmaterializable for (T0, T1, T2, T3, T4, T5, T6)`. -/
def tuple7 : ContextTransmaterializable (α0 × α1 × α2 × α3 × α4 × α5 × α6 × Unit) where
  immaterialize := fun (elem0, elem1, elem2, elem3, elem4, elem5, elem6, ()) => do
    let buffer := []
    let buffer ← extendElem T0 elem0 buffer
    let buffer ← extendElem T1 elem1 buffer
    let buffer ← extendElem T2 elem2 buffer
    let buffer ← extendElem T3 elem3 buffer
    let buffer ← extendElem T4 elem4 buffer
    let buffer ← extendElem T5 elem5 buffer
    let buffer ← extendElem T6 elem6 buffer
    .ok buffer
  rematerialize data := do
    let offset := 0
    let (elem0, offset) ← readElem p T0 data offset
    let (elem1, offset) ← readElem p T1 data offset
    let (elem2, offset) ← readElem p T2 data offset
    let (elem3, offset) ← readElem p T3 data offset
    let (elem4, offset) ← readElem p T4 data offset
    let (elem5, offset) ← readElem p T5 data offset
    let (elem6, offset) ← readElem p T6 data offset
    requireBufferSize data offset
    .ok (elem0, elem1, elem2, elem3, elem4, elem5, elem6, ())

/-- `impl ContextTransmaterializable for (T0, T1, T2, T3, T4, T5, T6, T7)`. -/
def tuple8 : ContextTransmaterializable (α0 × α1 × α2 × α3 × α4 × α5 × α6 × α7 × Unit) where
  immaterialize := fun (elem0, elem1, elem2, elem3, elem4, elem5, elem6, elem7, ()) => do
    let buffer := []
    let buffer ← extendElem T0 elem0 buffer
    let buffer ← extendElem T1 elem1 buffer
    let buffer ← extendElem T2 elem2 buffer
    let buffer ← extendElem T3 elem3 buffer
    let buffer ← extendElem T4 elem4 buffer
    let buffer ← extendElem T5 elem5 buffer
    let buffer ← extendElem T6 elem6 buffer
    let buffer ← extendElem T7 elem7 buffer
    .ok buffer
  rematerialize data := do
    let offset := 0
    let (elem0, offset) ← readElem p T0 data offset
    let (elem1, offset) ← readElem p T1 data offset
    let (elem2, offset) ← readElem p T2 data offset
    let (elem3, offset) ← readElem p T3 data offset
    let (elem4, offset) ← readElem p T4 data offset
    let (elem5, offset) ← readElem p T5 data offset
    let (elem6, offset) ← readElem p T6 data offset
    let (elem7, offset) ← readElem p T7 data offset
    requireBufferSize data offset
    .ok (elem0, elem1, elem2, elem3, elem4, elem5, elem6, elem7, ())

/-- `impl ContextTransmaterializable for (T0, T1, T2, T3, T4, T5, T6, T7, T8)`. -/
def tuple9 : ContextTransmaterializable (α0 × α1 × α2 × α3 × α4 × α5 × α6 × α7 × α8 × Unit) where
  immaterialize := fun (elem0, elem1, elem2, elem3, elem4, elem5, elem6, elem7, elem8, ()) => do
    let buffer := []
    let buffer ← extendElem T0 elem0 buffer
    let buffer ← extendElem T1 elem1 buffer
    let buffer ← extendElem T2 elem2 buffer
    let buffer ← extendElem T3 elem3 buffer
    let buffer ← extendElem T4 elem4 buffer
    let buffer ← extendElem T5 elem5 buffer
    let buffer ← extendElem T6 elem6 buffer
    let buffer ← extendElem T7 elem7 buffer
    let buffer ← extendElem T8 elem8 buffer
    .ok buffer
  rematerialize data := do
    let offset := 0
    let (elem0, offset) ← readElem p T0 data offset
    let (elem1, offset) ← readElem p T1 data offset
    let (elem2, offset) ← readElem p T2 data offset
    let (elem3, offset) ← readElem p T3 data offset
    let (elem4, offset) ← readElem p T4 data offset
    let (elem5, offset) ← readElem p T5 data offset
    let (elem6, offset) ← readElem p T6 data offset
    let (elem7, offset) ← readElem p T7 data offset
    let (elem8, offset) ← readElem p T8 data offset
    requireBufferSize data offset
    .ok (elem0, elem1, elem2, elem3, elem4, elem5, elem6, elem7, elem8, ())

/-- `impl ContextTransmaterializable for (T0, T1, T2, T3, T4, T5, T6, T7, T8, T9)`. -/
def tuple10 : ContextTransmaterializable (α0 × α1 × α2 × α3 × α4 × α5 × α6 × α7 × α8 × α9 × Unit) where
  immaterialize := fun (elem0, elem1, elem2, elem3, elem4, elem5, elem6, elem7, elem8, elem9, ()) => do
    let buffer := []
    let buffer ← extendElem T0 elem0 buffer
    let buffer ← extendElem T1 elem1 buffer
    let buffer ← extendElem T2 elem2 buffer
    let buffer ← extendElem T3 elem3 buffer
    let buffer ← extendElem T4 elem4 buffer
    let buffer ← extendElem T5 elem5 buffer
    let buffer ← extendElem T6 elem6 buffer
    let buffer ← extendElem T7 elem7 buffer
    let buffer ← extendElem T8 elem8 buffer
    let buffer ← extendElem T9 elem9 buffer
    .ok buffer
  rematerialize data := do
    let offset := 0
    let (elem0, offset) ← readElem p T0 data offset
    let (elem1, offset) ← readElem p T1 data offset
    let (elem2, offset) ← readElem p T2 data offset
    let (elem3, offset) ← readElem p T3 data offset
    let (elem4, offset) ← readElem p T4 data offset
    let (elem5, offset) ← readElem p T5 data offset
    let (elem6, offset) ← readElem p T6 data offset
    let (elem7, offset) ← readElem p T7 data offset
    let (elem8, offset) ← readElem p T8 data offset
    let (elem9, offset) ← readElem p T9 data offset
    requireBufferSize data offset
    .ok (elem0, elem1, elem2, elem3, elem4, elem5, elem6, elem7, elem8, elem9, ())

/-- `impl ContextTransmaterializable for (T0, T1, T2, T3, T4, T5, T6, T7, T8, T9, T10)`. -/
def tuple11 :
    ContextTransmaterializable (α0 × α1 × α2 × α3 × α4 × α5 × α6 × α7 × α8 × α9 × α10 × Unit) where
  immaterialize := fun (elem0, elem1, elem2, elem3, elem4, elem5, elem6, elem7, elem8, elem9, elem10, ()) => do
    let buffer := []
    let buffer ← extendElem T0 elem0 buffer
    let buffer ← extendElem T1 elem1 buffer
    let buffer ← extendElem T2 elem2 buffer
    let buffer ← extendElem T3 elem3 buffer
    let buffer ← extendElem T4 elem4 buffer
    let buffer ← extendElem T5 elem5 buffer
    let buffer ← extendElem T6 elem6 buffer
    let buffer ← extendElem T7 elem7 buffer
    let buffer ← extendElem T8 elem8 buffer
    let buffer ← extendElem T9 elem9 buffer
    let buffer ← extendElem T10 elem10 buffer
    .ok buffer
  rematerialize data := do
    let offset := 0
    let (elem0, offset) ← readElem p T0 data offset
    let (elem1, offset) ← readElem p T1 data offset
    let (elem2, offset) ← readElem p T2 data offset
    let (elem3, offset) ← readElem p T3 data offset
    let (elem4, offset) ← readElem p T4 data offset
    let (elem5, offset) ← readElem p T5 data offset
    let (elem6, offset) ← readElem p T6 data offset
    let (elem7, offset) ← readElem p T7 data offset
    let (elem8, offset) ← readElem p T8 data offset
    let (elem9, offset) ← readElem p T9 data offset
    let (elem10, offset) ← readElem p T10 data offset
    requireBufferSize data offset
    .ok (elem0, elem1, elem2, elem3, elem4, elem5, elem6, elem7, elem8, elem9, elem10, ())

/-- `impl ContextTransmaterializable for (T0, T1, T2, T3, T4, T5, T6, T7, T8, T9, T10, T11)`. -/
def tuple12 :
    ContextTransmaterializable (α0 × α1 × α2 × α3 × α4 × α5 × α6 × α7 × α8 × α9 × α10 × α11 × Unit) where
  immaterialize :=
    fun (elem0, elem1, elem2, elem3, elem4, elem5, elem6, elem7, elem8, elem9, elem10, elem11, ()) => do
    let buffer := []
    let buffer ← extendElem T0 elem0 buffer
    let buffer ← extendElem T1 elem1 buffer
    let buffer ← extendElem T2 elem2 buffer
    let buffer ← extendElem T3 elem3 buffer
    let buffer ← extendElem T4 elem4 buffer
    let buffer ← extendElem T5 elem5 buffer
    let buffer ← extendElem T6 elem6 buffer
    let buffer ← extendElem T7 elem7 buffer
    let buffer ← extendElem T8 elem8 buffer
    let buffer ← extendElem T9 elem9 buffer
    let buffer ← extendElem T10 elem10 buffer
    let buffer ← extendElem T11 elem11 buffer
    .ok buffer
  rematerialize data := do
    let offset := 0
    let (elem0, offset) ← readElem p T0 data offset
    let (elem1, offset) ← readElem p T1 data offset
    let (elem2, offset) ← readElem p T2 data offset
    let (elem3, offset) ← readElem p T3 data offset
    let (elem4, offset) ← readElem p T4 data offset
    let (elem5, offset) ← readElem p T5 data offset
    let (elem6, offset) ← readElem p T6 data offset
    let (elem7, offset) ← readElem p T7 data offset
    let (elem8, offset) ← readElem p T8 data offset
    let (elem9, offset) ← readElem p T9 data offset
    let (elem10, offset) ← readElem p T10 data offset
    let (elem11, offset) ← readElem p T11 data offset
    requireBufferSize data offset
    .ok (elem0, elem1, elem2, elem3, elem4, elem5, elem6, elem7, elem8, elem9, elem10, elem11, ())

/-! ## The block behind an element -/

theorem readElem_eq {α : Type} (T : ContextTransmaterializable α) (data : Bytes) (offset : Nat) :
    readElem p T data offset = (do
      let (elemData, next) ← readBlock p .util data offset
      let elem ← T.rematerialize elemData
      .ok (elem, next)) := by
  -- the source writes the reader out for each element; the steps are those of `readBlock`, and so is each failure
  unfold readElem readBlock
  cases hstart : p.usizeAdd offset 8 with
  | ok start =>
    simp only [Res.ok_bind, requireMinBufferSize]
    split
    · rfl
    · simp only [Res.ok_bind]
      cases slice data offset start with
      | ok header =>
        simp only [Res.ok_bind]
        show (usizeFromU64LeBytes p header >>= _) = ((usizeFromU64LeBytes p header >>= _) >>= _)
        cases usizeFromU64LeBytes p header with
        | ok elemLen =>
          simp only [Res.ok_bind]
          cases p.usizeAdd start elemLen with
          | ok stop =>
            simp only [Res.ok_bind]
            split
            · rfl
            · simp only [Res.ok_bind]
              cases slice data start stop with
              | ok elemData => rfl
              | err e => rfl
              | panic reason => rfl
          | err e => rfl
          | panic reason => rfl
        | err e => rfl
        | panic reason => rfl
      | err e => rfl
      | panic reason => rfl
  | err e => rfl
  | panic reason => rfl

end Tuples

end Codec
end Wormhole
