import Wormhole.Codec.RoundTrip
import Wormhole.Context.Impls

/-!
# `Context.Format` — a value is its references and its shape

A `View` takes a value apart: its references, from left to right, and its shape, which is the value with `()` for
each of them. Together they determine the value (`Ty.ext`), and the shape says how many references there are.

What travels is a value with the references of the wire. Its format is that of `Codec.Wire` around the encodings of
the references, and the implementations of `Codec` write and read it (`Ty.implements`): they are what is left of
those in `Context.Impls` when there is nothing to ask.
-/

namespace Wormhole
namespace Context

open LittleEndian
open Codec
open Portal (RemoteActorId)

variable {A P : Type}

/-! ## Views -/

/-- Only which kind of reference it is. -/
def Ref.kind : Ref A P → Ref Unit Unit
  | .actorRef _ => .actorRef ()
  | .replyPort _ => .replyPort ()

/-- The references of a value from left to right, and its shape, which says of which kinds they are. -/
structure View (A P α σ : Type) (kinds : σ → List (Ref Unit Unit)) where
  refs : α → List (Ref A P)
  shape : α → σ
  refs_kind : ∀ v, (refs v).map Ref.kind = kinds (shape v)
  ext : ∀ {v w}, shape v = shape w → refs v = refs w → v = w
  fill : ∀ s rs, rs.map Ref.kind = kinds s → ∃ v, shape v = s ∧ refs v = rs

/-- The kinds of references in one of two values. -/
def resultKinds {σ τ : Type} (κ : σ → List (Ref Unit Unit)) (κ' : τ → List (Ref Unit Unit)) :
    Except τ σ → List (Ref Unit Unit)
  | .ok s => κ s
  | .error s => κ' s

namespace View

variable {α β σ τ : Type} {κ : σ → List (Ref Unit Unit)} {κ' : τ → List (Ref Unit Unit)}

/-- Of two lists that start alike, where the starts have the same length. -/
theorem refs_inj (V : View A P α σ κ) {v w : α} {xs ys : List (Ref A P)} (hshape : V.shape v = V.shape w)
    (h : V.refs v ++ xs = V.refs w ++ ys) : v = w ∧ xs = ys := by
  have hkinds : (V.refs v).map Ref.kind = (V.refs w).map Ref.kind := by rw [V.refs_kind, V.refs_kind, hshape]
  have hlength : (V.refs v).length = (V.refs w).length := by simpa using congrArg List.length hkinds
  obtain ⟨hrefs, hrest⟩ := List.append_inj h hlength
  exact ⟨V.ext hshape hrefs, hrest⟩

/-- A value without references. -/
def plain (α : Type) : View A P α α (fun _ => []) where
  refs _ := []
  shape := id
  refs_kind _ := rfl
  ext h _ := h
  fill s _ h := ⟨s, rfl, (List.map_eq_nil_iff.mp h).symm⟩

/-- An actor is a reference and nothing else: its shape is the unit. -/
def actorRef : View A P A Unit (fun _ => [.actorRef ()]) where
  refs actor := [.actorRef actor]
  shape _ := ()
  refs_kind _ := rfl
  ext _ h := by
    cases h
    rfl
  fill _ rs h := by
    obtain ⟨ref, rfl, href⟩ := List.map_eq_singleton_iff.mp h
    cases ref with
    | actorRef actor => exact ⟨actor, rfl, rfl⟩
    | replyPort port => cases href

/-- So is a reply port. -/
def replyPort : View A P P Unit (fun _ => [.replyPort ()]) where
  refs port := [.replyPort port]
  shape _ := ()
  refs_kind _ := rfl
  ext _ h := by
    cases h
    rfl
  fill _ rs h := by
    obtain ⟨ref, rfl, href⟩ := List.map_eq_singleton_iff.mp h
    cases ref with
    | actorRef actor => cases href
    | replyPort port => exact ⟨port, rfl, rfl⟩

/-- The references of a `Some` are those of what is in it. -/
def option (V : View A P α σ κ) : View A P (Option α) (Option σ) (fun s => s.elim [] κ) where
  refs
    | none => []
    | some v => V.refs v
  shape := Option.map V.shape
  refs_kind v := by
    cases v with
    | none => rfl
    | some v => exact V.refs_kind v
  ext {v w} hshape hrefs := by
    cases v with
    | none => cases w with
      | none => rfl
      | some w => cases hshape
    | some v => cases w with
      | none => cases hshape
      | some w => rw [V.ext (Option.some.inj hshape) hrefs]
  fill s rs h := by
    cases s with
    | none => exact ⟨none, rfl, (List.map_eq_nil_iff.mp h).symm⟩
    | some s =>
      obtain ⟨v, rfl, rfl⟩ := V.fill s rs h
      exact ⟨some v, rfl, rfl⟩

/-- The references are those of the side that is there. -/
def result (V : View A P α σ κ) (W : View A P β τ κ') : View A P (Except β α) (Except τ σ) (resultKinds κ κ') where
  refs
    | .ok v => V.refs v
    | .error e => W.refs e
  shape
    | .ok v => .ok (V.shape v)
    | .error e => .error (W.shape e)
  refs_kind v := by
    cases v with
    | ok v => exact V.refs_kind v
    | error e => exact W.refs_kind e
  ext {v w} hshape hrefs := by
    cases v with
    | ok v => cases w with
      | ok w => rw [V.ext (Except.ok.inj hshape) hrefs]
      | error e => cases hshape
    | error e => cases w with
      | ok w => cases hshape
      | error e' => rw [W.ext (Except.error.inj hshape) hrefs]
  fill s rs h := by
    cases s with
    | ok s =>
      obtain ⟨v, rfl, rfl⟩ := V.fill s rs h
      exact ⟨.ok v, rfl, rfl⟩
    | error s =>
      obtain ⟨w, rfl, rfl⟩ := W.fill s rs h
      exact ⟨.error w, rfl, rfl⟩

/-- A pair has the references of its first half and then those of its second. -/
def prod (V : View A P α σ κ) (W : View A P β τ κ') : View A P (α × β) (σ × τ) (fun s => κ s.1 ++ κ' s.2) where
  refs v := V.refs v.1 ++ W.refs v.2
  shape v := (V.shape v.1, W.shape v.2)
  refs_kind v := by rw [List.map_append, V.refs_kind, W.refs_kind]
  ext {v w} hshape hrefs := by
    obtain ⟨hfst, hsnd⟩ := Prod.mk.inj hshape
    obtain ⟨h₁, hrest⟩ := V.refs_inj hfst hrefs
    exact Prod.ext h₁ (W.ext hsnd hrest)
  fill s rs h := by
    obtain ⟨front, back, rfl, hfront, hback⟩ := List.map_eq_append_iff.mp h
    obtain ⟨v, hv, rfl⟩ := V.fill s.1 front hfront
    obtain ⟨w, hw, rfl⟩ := W.fill s.2 back hback
    exact ⟨(v, w), Prod.ext hv hw, rfl⟩

/-- A variant has the references of its payload. -/
def sum (V : View A P α σ κ) (W : View A P β τ κ') : View A P (α ⊕ β) (σ ⊕ τ) (Sum.elim κ κ') where
  refs
    | .inl v => V.refs v
    | .inr w => W.refs w
  shape
    | .inl v => .inl (V.shape v)
    | .inr w => .inr (W.shape w)
  refs_kind v := by
    cases v with
    | inl v => exact V.refs_kind v
    | inr w => exact W.refs_kind w
  ext {v w} hshape hrefs := by
    cases v with
    | inl v => cases w with
      | inl w => rw [V.ext (Sum.inl.inj hshape) hrefs]
      | inr w => cases hshape
    | inr v => cases w with
      | inl w => cases hshape
      | inr w => rw [W.ext (Sum.inr.inj hshape) hrefs]
  fill s rs h := by
    cases s with
    | inl s =>
      obtain ⟨v, rfl, rfl⟩ := V.fill s rs h
      exact ⟨.inl v, rfl, rfl⟩
    | inr s =>
      obtain ⟨w, rfl, rfl⟩ := W.fill s rs h
      exact ⟨.inr w, rfl, rfl⟩

/-- Elements are determined by their shapes and the references of all of them together: the shapes say where
    to cut. -/
theorem list_ext (V : View A P α σ κ) {vs ws : List α} (hshape : vs.map V.shape = ws.map V.shape)
    (hrefs : vs.flatMap V.refs = ws.flatMap V.refs) : vs = ws := by
  induction vs generalizing ws with
  | nil => exact (List.map_eq_nil_iff.mp hshape.symm).symm
  | cons v vs ih =>
    cases ws with
    | nil => cases hshape
    | cons w ws =>
      obtain ⟨hhead, htail⟩ := List.cons.inj hshape
      obtain ⟨rfl, hrest⟩ := V.refs_inj hhead hrefs
      rw [ih htail hrest]

/-- The references can be dealt out to the shapes if their kinds are those that the shapes want. -/
theorem list_fill (V : View A P α σ κ) (ss : List σ) (rs : List (Ref A P)) (h : rs.map Ref.kind = ss.flatMap κ) :
    ∃ vs : List α, vs.map V.shape = ss ∧ vs.flatMap V.refs = rs := by
  induction ss generalizing rs with
  | nil => exact ⟨[], rfl, (List.map_eq_nil_iff.mp h).symm⟩
  | cons s ss ih =>
    rw [List.flatMap_cons] at h
    obtain ⟨front, back, rfl, hfront, hback⟩ := List.map_eq_append_iff.mp h
    obtain ⟨v, rfl, rfl⟩ := V.fill s front hfront
    obtain ⟨vs, rfl, rfl⟩ := ih back hback
    exact ⟨v :: vs, rfl, rfl⟩

/-- A vector has the references of its elements, in order. Its shape is as long as itself, so it fits as well. -/
def vec {p : Platform} {size : Nat} (V : View A P α σ κ) :
    View A P (RVec p size α) (RVec p size σ) (fun s => s.elems.flatMap κ) where
  refs v := v.elems.flatMap V.refs
  shape v := ⟨v.elems.map V.shape, by rw [List.length_map]; exact v.fits⟩
  refs_kind v := by simp only [List.map_flatMap, V.refs_kind, List.flatMap_map]
  ext hshape hrefs := RVec.ext (V.list_ext (congrArg RVec.elems hshape) hrefs)
  fill s rs h := by
    obtain ⟨vs, hshape, hrefs⟩ := V.list_fill s.elems rs h
    have hlength : vs.length = s.elems.length := by simpa using congrArg List.length hshape
    have hfits : vs.length * size ≤ p.isizeMax := by
      rw [hlength]
      exact s.fits
    exact ⟨⟨vs, hfits⟩, RVec.ext hshape, hrefs⟩

end View

mutual

/-- The kinds of the references in a value of this shape. -/
def Ty.kinds (l : Layout) : (t : Ty) → t.Val l Unit Unit → List (Ref Unit Unit)
  | .plain _ => fun _ => []
  | .actorRef => fun _ => [.actorRef ()]
  | .replyPort => fun _ => [.replyPort ()]
  | .vec t => fun s => s.elems.flatMap (t.kinds l)
  | .option t => fun s => s.elim [] (t.kinds l)
  | .result t e => resultKinds (t.kinds l) (e.kinds l)
  | .tuple ts => ts.kinds l
  | .struct ts => ts.kinds l
  | .enum _ fields vs => Sum.elim (fields.kinds l) (vs.kinds l)

def Tys.kinds (l : Layout) : (ts : Tys) → ts.Vals l Unit Unit → List (Ref Unit Unit)
  | .nil => fun _ => []
  | .cons t ts => fun s => t.kinds l s.1 ++ ts.kinds l s.2

def Variants.kinds (l : Layout) : (vs : Variants) → vs.Vals l Unit Unit → List (Ref Unit Unit)
  | .nil => fun _ => []
  | .cons _ fields vs => Sum.elim (fields.kinds l) (vs.kinds l)

def VariantFields.kinds (l : Layout) : (fields : VariantFields) → fields.Vals l Unit Unit → List (Ref Unit Unit)
  | .unit => fun _ => []
  | .fields ts => ts.kinds l

end

mutual

/-- The view of the values of a type. -/
def Ty.view (l : Layout) : (t : Ty) → View A P (t.Val l A P) (t.Val l Unit Unit) (t.kinds l)
  | .plain t => .plain (t.Val l.toTarget)
  | .actorRef => .actorRef
  | .replyPort => .replyPort
  | .vec t => (t.view l).vec
  | .option t => (t.view l).option
  | .result t e => (t.view l).result (e.view l)
  | .tuple ts => ts.view l
  | .struct ts => ts.view l
  | .enum _ fields vs => (fields.view l).sum (vs.view l)

def Tys.view (l : Layout) : (ts : Tys) → View A P (ts.Vals l A P) (ts.Vals l Unit Unit) (ts.kinds l)
  | .nil => .plain Unit
  | .cons t ts => (t.view l).prod (ts.view l)

def Variants.view (l : Layout) : (vs : Variants) → View A P (vs.Vals l A P) (vs.Vals l Unit Unit) (vs.kinds l)
  | .nil => .plain Empty
  | .cons _ fields vs => (fields.view l).sum (vs.view l)

def VariantFields.view (l : Layout) :
    (fields : VariantFields) → View A P (fields.Vals l A P) (fields.Vals l Unit Unit) (fields.kinds l)
  | .unit => .plain Unit
  | .fields ts => ts.view l

end

/-- The references of a value. -/
def Ty.refs (l : Layout) (t : Ty) (v : t.Val l A P) : List (Ref A P) := (t.view l).refs v

/-- A value with `()` for its references. -/
def Ty.shape (l : Layout) (t : Ty) (v : t.Val l A P) : t.Val l Unit Unit := (t.view l).shape v

/-- **A value is its shape and its references.** -/
theorem Ty.ext (l : Layout) (t : Ty) {v w : t.Val l A P} (hshape : t.shape l v = t.shape l w)
    (hrefs : t.refs l v = t.refs l w) : v = w :=
  (t.view l).ext hshape hrefs

/-- The shape of a value says which references it has. -/
theorem Ty.refs_kind (l : Layout) (t : Ty) (v : t.Val l A P) : (t.refs l v).map Ref.kind = t.kinds l (t.shape l v) :=
  (t.view l).refs_kind v

theorem Ty.fill (l : Layout) (t : Ty) {s : t.Val l Unit Unit} {rs : List (Ref A P)}
    (h : rs.map Ref.kind = t.kinds l s) : ∃ v, t.shape l v = s ∧ t.refs l v = rs :=
  (t.view l).fill s rs h

/-! ## What travels -/

/-- The bytes of a reference on the wire. -/
def Bincode.bytes {α : Type} (bincode : Bincode α) (value : α) : Bytes :=
  match bincode.encodeToVec value with
  | .ok bytes => bytes
  | .err _ => []
  | .panic _ => []

theorem Bincode.encodeToVec_eq {α : Type} (bincode : Bincode α) (value : α) :
    bincode.encodeToVec value = .ok (bincode.bytes value) := by
  obtain ⟨bytes, h⟩ := bincode.encodes value
  simp only [Bincode.bytes, h]

/-- References travel as what bincode makes of their identifiers, and nothing may be left over. -/
theorem simpleByte_implements (p : Platform) {α : Type} (bincode : Bincode α) :
    Implements p (simpleByte bincode) bincode.bytes where
  sound {v b} h := Res.ok.inj (h.symm.trans (bincode.encodeToVec_eq v))
  complete {v} _ := bincode.encodeToVec_eq v
  inverse {v} _ := by
    simp only [simpleByte, bincode.decode_encode (bincode.encodeToVec_eq v), Res.ok_bind, requireBufferSize_of_eq]

/-- A value with the references of the wire. -/
abbrev Ty.Wired (l : Layout) (t : Ty) : Type := t.Val l RemoteActorId ProxiedRpcReplyPort

mutual

/-- The implementation of `Codec` for what travels. -/
def Ty.codec (l : Layout) (enc : Encodings) : (t : Ty) → ContextTransmaterializable (t.Wired l)
  | .plain t => t.codec l.toTarget
  | .actorRef => simpleByte enc.ids
  | .replyPort => simpleByte enc.ports
  | .vec t => Codec.vec l.toPlatform (l.sizeOfRef t) (t.codec l enc)
  | .option t => Codec.option l.toPlatform (t.codec l enc)
  | .result t e => Codec.result l.toPlatform (t.codec l enc) (e.codec l enc)
  | .tuple ts => Codec.tuple (ts.codec l enc .util)
  | .struct ts => deriveStructNamed (ts.codec l enc .field)
  | .enum name fields vs => Codec.deriveEnum l.toPlatform (.cons name (fields.codec l enc) (vs.codec l enc))

def Tys.codec (l : Layout) (enc : Encodings) (style : BlockStyle) :
    (ts : Tys) → FieldsCodec (ts.Vals l RemoteActorId ProxiedRpcReplyPort)
  | .nil => .nil
  | .cons t ts => .cons l.toPlatform style (t.codec l enc) (ts.codec l enc style)

def Variants.codec (l : Layout) (enc : Encodings) :
    (vs : Variants) → VariantsCodec (vs.Vals l RemoteActorId ProxiedRpcReplyPort)
  | .nil => .nil
  | .cons name fields vs => .cons name (fields.codec l enc) (vs.codec l enc)

def VariantFields.codec (l : Layout) (enc : Encodings) :
    (fields : VariantFields) → ArmCodec (fields.Vals l RemoteActorId ProxiedRpcReplyPort)
  | .unit => unitArm
  | .fields ts => Codec.fieldsArm (ts.codec l enc .field)

end

mutual

/-- The format. -/
def Ty.wire (l : Layout) (enc : Encodings) : (t : Ty) → t.Wired l → Bytes
  | .plain t => t.wire l.toTarget
  | .actorRef => enc.ids.bytes
  | .replyPort => enc.ports.bytes
  | .vec t => vecWire (t.wire l enc)
  | .option t => optionWire (t.wire l enc)
  | .result t e => resultWire (t.wire l enc) (e.wire l enc)
  | .tuple ts => ts.wire l enc
  | .struct ts => ts.wire l enc
  | .enum name fields vs => fun v => variantWire (sumWire name (fields.wire l enc) (vs.wire l enc) v)

def Tys.wire (l : Layout) (enc : Encodings) : (ts : Tys) → ts.Vals l RemoteActorId ProxiedRpcReplyPort → Bytes
  | .nil => fun _ => []
  | .cons t ts => fun v => block (t.wire l enc v.1) ++ ts.wire l enc v.2

def Variants.wire (l : Layout) (enc : Encodings) :
    (vs : Variants) → vs.Vals l RemoteActorId ProxiedRpcReplyPort → String × Bytes
  | .nil => fun v => v.elim
  | .cons name fields vs => sumWire name (fields.wire l enc) (vs.wire l enc)

def VariantFields.wire (l : Layout) (enc : Encodings) :
    (fields : VariantFields) → fields.Vals l RemoteActorId ProxiedRpcReplyPort → Bytes
  | .unit => fun _ => []
  | .fields ts => ts.wire l enc

end

mutual

/-- **The codec of what travels keeps its contract.** -/
theorem Ty.implements (l : Layout) (enc : Encodings) : ∀ t : Ty, t.Compiles →
    Implements l.toPlatform (t.codec l enc) (t.wire l enc)
  | .plain t, h => t.implements l.toTarget h
  | .actorRef, _ => simpleByte_implements _ _
  | .replyPort, _ => simpleByte_implements _ _
  | .vec t, h => vec_implements (Ty.implements l enc t h)
  | .option t, h => option_implements (Ty.implements l enc t h)
  | .result t e, h => result_implements (Ty.implements l enc t h.1) (Ty.implements l enc e h.2)
  | .tuple ts, h => tuple_implements (Tys.implement l enc .util ts h.2)
  | .struct ts, h => deriveStructNamed_implements (Tys.implement l enc .field ts h)
  | .enum _ fields vs, h => deriveEnum_implements (cons_variantsImplement (VariantFields.implement l enc fields h.2.1)
      (Variants.implement l enc vs h.1.of_cons h.2.2) (List.nodup_cons.mp h.1).1)

/-- Field by field, from the round trips of the plain codecs. -/
theorem Tys.implement (l : Layout) (enc : Encodings) (style : BlockStyle) : ∀ ts : Tys, ts.Compile →
    FieldsImplement l.toPlatform (ts.codec l enc style) (ts.wire l enc)
  | .nil, _ => nil_fieldsImplement
  | .cons t ts, h => cons_fieldsImplement (Ty.implements l enc t h.1) (Tys.implement l enc style ts h.2)

theorem Variants.implement (l : Layout) (enc : Encodings) : ∀ vs : Variants, vs.names.Nodup → vs.Compile →
    VariantsImplement l.toPlatform (vs.codec l enc) vs.names (vs.wire l enc)
  | .nil, _, _ => nil_variantsImplement
  | .cons _ fields vs, hnames, h => cons_variantsImplement (VariantFields.implement l enc fields h.1)
      (Variants.implement l enc vs hnames.of_cons h.2) (List.nodup_cons.mp hnames).1

theorem VariantFields.implement (l : Layout) (enc : Encodings) : ∀ fields : VariantFields, fields.Compile →
    ArmImplements l.toPlatform (fields.codec l enc) (fields.wire l enc)
  | .unit, _ => unitArm_implements
  | .fields ts, h => fieldsArm_implements (Tys.implement l enc .field ts h)

end

end Context
end Wormhole
