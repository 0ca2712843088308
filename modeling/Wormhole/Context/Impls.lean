import Wormhole.Codec.Universe
import Wormhole.Lib.Async
import Wormhole.Portal.Types

/-!
# `Context.Impls` — the implementations of `ContextTransmaterializable`, with their context

The implementations of `Codec.Impls` and `Codec.Universe` once more, for values that have references in them. Such
an implementation is a program: at a reference it asks its `TransmaterializationContext`, and goes on with the
answer. Every call of a context is followed by `?`, so a call that fails ends the program where it stands: a run
of it is then cut short, and there is no answer that says so.

What the context does with what it is asked is `immaterialize_actor_ref`, `immaterialize_replychannel`,
`rematerialize_actor_ref` and `rematerialize_replychannel` of `transmaterialization/mod.rs`, without the bytes; the
steps of a portal make these moves one by one (`Portal.Node`).
-/

namespace Wormhole
namespace Context

open LittleEndian
open Codec
open Portal (RemoteActorId)

/-! ## References, and programs that ask for them -/

/-- A reference in a value: to an actor, or a reply port. -/
inductive Ref (A P : Type) where
  | actorRef (actor : A)
  | replyPort (port : P)
  deriving DecidableEq, Repr

/-- What is got for a reference. -/
abbrev Ref.Answer (A' P' : Type) {A P : Type} : Ref A P → Type
  | .actorRef _ => A'
  | .replyPort _ => P'

/-- The reference that is got. -/
def Ref.put {A P A' P' : Type} : (ref : Ref A P) → ref.Answer A' P' → Ref A' P'
  | .actorRef _, actor => .actorRef actor
  | .replyPort _, port => .replyPort port

/-- A program that exchanges references: it has those of `A` and `P`, and gets those of `A'` and `P'`. -/
def Asking (A P A' P' α : Type) : Type := Async (Ref A P) (Ref.Answer A' P') (Res α)

namespace Asking

variable {A P A' P' α γ : Type}

/-- What goes on with a result, unless it is an error or a panic. -/
def andThen (f : α → Asking A P A' P' γ) : Res α → Asking A P A' P' γ
  | .ok value => f value
  | .err error => .done (.err error)
  | .panic reason => .done (.panic reason)

instance instMonadAsking : Monad (Asking A P A' P') where
  pure value := .done (.ok value)
  bind x f := Async.bind x (andThen f)

/-- What does not ask. -/
instance instMonadLiftRes : MonadLift Res (Asking A P A' P') where
  monadLift r := .done r

/-- `ctx.…(reference).await?` -/
def ask (ref : Ref A P) : Asking A P A' P' (ref.Answer A' P') := .op ref fun answer => .done (.ok answer)

end Asking

open Asking (ask)

/-- A reply port on the wire. -/
structure ProxiedRpcReplyPort where
  timeoutMs : Option (BitVec 128)
  remoteActorId : RemoteActorId
  deriving DecidableEq, Repr

/-- A program that writes a value, on a side whose references are `A` and `P`. -/
abbrev Immaterializing (A P : Type) := Asking A P RemoteActorId ProxiedRpcReplyPort

/-- A program that reads one. -/
abbrev Rematerializing (A P : Type) := Asking RemoteActorId ProxiedRpcReplyPort A P

/-- The trait. -/
structure Transmaterializable (A P α : Type) where
  immaterialize : α → Immaterializing A P Bytes
  rematerialize : Bytes → Rematerializing A P α

variable {A P : Type}

/-- An implementation that does not use its context. -/
def plain {α : Type} (T : ContextTransmaterializable α) : Transmaterializable A P α where
  immaterialize value := liftM (T.immaterialize value)
  rematerialize data := liftM (T.rematerialize data)

/-! ## References -/

/-- What is used of bincode for one type. What it encodes it also decodes, and says how much of the buffer it has
    used; into a vector it encodes everything. Which error it gives is not told apart. -/
structure Bincode (α : Type) where
  encodeToVec : α → Res Bytes
  decodeFromSlice : Bytes → Res (α × Nat)
  encodes : ∀ value, ∃ bytes, encodeToVec value = .ok bytes
  decode_encode : ∀ {value bytes}, encodeToVec value = .ok bytes → decodeFromSlice bytes = .ok (value, bytes.length)

/-- `impl SimpleByteTransmaterializable`, for `RemoteActorId` and for `ProxiedRpcReplyPort`. -/
def simpleByte {α : Type} (bincode : Bincode α) : ContextTransmaterializable α where
  immaterialize value := bincode.encodeToVec value
  rematerialize data := do
    let (value, consumed) ← bincode.decodeFromSlice data
    requireBufferSize data consumed
    .ok value

/-- `impl ContextTransmaterializable for ActorRef<T>`. -/
def actorRef (ids : Bincode RemoteActorId) : Transmaterializable A P A where
  immaterialize actor := do
    let publishedId ← ask (.actorRef actor)
    liftM ((simpleByte ids).immaterialize publishedId)
  rematerialize buffer := do
    let remoteActorId ← (simpleByte ids).rematerialize buffer
    ask (.actorRef remoteActorId)

/-- `impl ContextTransmaterializable for RpcReplyPort<T>`. -/
def replyPort (ports : Bincode ProxiedRpcReplyPort) : Transmaterializable A P P where
  immaterialize rpc := do
    let structured ← ask (.replyPort rpc)
    liftM ((simpleByte ports).immaterialize structured)
  rematerialize buffer := do
    let structured ← (simpleByte ports).rematerialize buffer
    ask (.replyPort structured)

/-! ## `Vec<T>` -/

section Vec

variable (p : Platform) (size : Nat) {α : Type} (T : Transmaterializable A P α)

/-- The element loop of `Vec<T>::immaterialize`. -/
def vecExtend : List α → Bytes → Immaterializing A P Bytes
  | [],            buffer => pure buffer
  | element :: es, buffer => do
      let elementBytes ← T.immaterialize element
      vecExtend es (buffer ++ toLeBytes 8 elementBytes.length ++ elementBytes)

/-- The loop of `Vec<T>::rematerialize`, with fuel as in `Codec.vecLoop`. -/
def vecLoop (data : Bytes) : Nat → Nat → Buffer p size α → Rematerializing A P (Nat × Buffer p size α)
  | 0,        offset, buffer => pure (offset, buffer)
  | fuel + 1, offset, buffer =>
      if offset < data.length then do
        let (elementData, next) ← readBlock p .util data offset
        let element ← T.rematerialize elementData
        let buffer ← buffer.push element
        vecLoop data fuel next buffer
      else pure (offset, buffer)

/-- `impl ContextTransmaterializable for Vec<T>`. -/
def vec : Transmaterializable A P (RVec p size α) where
  immaterialize v := do
    let elementHeaders ← p.usizeMul v.elems.length 8
    let capacity ← p.usizeAdd 8 elementHeaders
    let buffer ← Buffer.withCapacity p 1 UInt8 capacity
    vecExtend T v.elems (buffer.elems ++ toLeBytes 8 v.elems.length)
  rematerialize data := do
    requireMinBufferSize data 8
    let header ← slice data 0 8
    let count ← usizeFromU64LeBytes p header
    let buffer ← Buffer.withCapacity p size α count
    let (offset, buffer) ← vecLoop p size T data data.length 8 buffer
    requireBufferSize data offset
    pure buffer.toRVec

end Vec

/-! ## `Result` and `Option` -/

/-- `impl ContextTransmaterializable for Result<T, E>`. -/
def result (p : Platform) {α ε : Type} (T : Transmaterializable A P α) (E : Transmaterializable A P ε) :
    Transmaterializable A P (Except ε α) where
  immaterialize
    | .ok value => do
        let valueBytes ← T.immaterialize value
        pure ([0] ++ toLeBytes 8 valueBytes.length ++ valueBytes)
    | .error error => do
        let errBytes ← E.immaterialize error
        pure ([1] ++ toLeBytes 8 errBytes.length ++ errBytes)
  rematerialize data := do
    requireMinBufferSize data 9
    let discriminant ← index data 0
    let lengthBytes ← slice data 1 9
    let length ← u64FromLeBytes lengthBytes
    let length := p.asUsize length
    let stop ← p.usizeAdd 9 length
    requireMinBufferSize data stop
    let innerData ← slice data 9 stop
    requireBufferSize data stop
    if discriminant = 0 then do
      let value ← T.rematerialize innerData
      pure (.ok value)
    else if discriminant = 1 then do
      let error ← E.rematerialize innerData
      pure (.error error)
    else liftM (Res.err (.invalidResultDiscriminant discriminant) : Res (Except ε α))

/-- `impl ContextTransmaterializable for Option<T>`. -/
def option (p : Platform) {α : Type} (T : Transmaterializable A P α) : Transmaterializable A P (Option α) where
  immaterialize
    | some value => do
        let valueBytes ← T.immaterialize value
        pure ([1] ++ toLeBytes 8 valueBytes.length ++ valueBytes)
    | none => pure [0]
  rematerialize data := do
    requireMinBufferSize data 1
    let discriminant ← index data 0
    if discriminant = 0 then do
      requireBufferSize data 1
      pure none
    else if discriminant = 1 then do
      requireMinBufferSize data 9
      let lengthBytes ← slice data 1 9
      let length ← u64FromLeBytes lengthBytes
      let length := p.asUsize length
      let stop ← p.usizeAdd 9 length
      requireMinBufferSize data stop
      let innerData ← slice data 9 stop
      requireBufferSize data stop
      let value ← T.rematerialize innerData
      pure (some value)
    else liftM (Res.err (.invalidOptionDiscriminant discriminant) : Res (Option α))

/-! ## Field lists -/

/-- The code for a list of fields. -/
structure Fields (A P α : Type) where
  serialize : α → Bytes → Immaterializing A P Bytes
  deserialize : Bytes → Nat → Rematerializing A P (α × Nat)

def Fields.nil : Fields A P Unit where
  serialize _ buffer := pure buffer
  deserialize _ offset := pure ((), offset)

/-- The code for one field, then the rest. -/
def Fields.cons (p : Platform) (style : BlockStyle) {α β : Type} (T : Transmaterializable A P α)
    (rest : Fields A P β) : Fields A P (α × β) where
  serialize v buffer := do
    let fieldBytes ← T.immaterialize v.1
    rest.serialize v.2 (buffer ++ toLeBytes 8 fieldBytes.length ++ fieldBytes)
  deserialize data offset := do
    let (fieldBytes, next) ← readBlock p style data offset
    let field ← T.rematerialize fieldBytes
    let (fields, stop) ← rest.deserialize data next
    pure ((field, fields), stop)

/-- `impl ContextTransmaterializable for (T0, ..)`. -/
def tuple {α : Type} (F : Fields A P α) : Transmaterializable A P α where
  immaterialize v := F.serialize v []
  rematerialize data := do
    let (fields, offset) ← F.deserialize data 0
    requireBufferSize data offset
    pure fields

/-- `derive_struct`, named and tuple fields. -/
def deriveStruct {α : Type} (F : Fields A P α) : Transmaterializable A P α where
  immaterialize v := F.serialize v []
  rematerialize data := do
    let (fields, offset) ← F.deserialize data 0
    if data.length ≠ offset then liftM (Res.err (.notConsumed data.length offset) : Res α) else pure fields

/-! ## Enums -/

/-- The arms for one variant. -/
structure Arm (A P α : Type) where
  serialize : α → Immaterializing A P Bytes
  deserialize : Bytes → Rematerializing A P α

/-- A unit variant. -/
def plainArm {α : Type} (arm : ArmCodec α) : Arm A P α where
  serialize v := liftM (arm.serialize v)
  deserialize payload := liftM (arm.deserialize payload)

/-- A tuple or struct variant. -/
def fieldsArm {α : Type} (F : Fields A P α) : Arm A P α where
  serialize v := F.serialize v []
  deserialize payload := do
    let (fields, offset) ← F.deserialize payload 0
    if offset ≠ payload.length then liftM (Res.err (.payloadNotConsumed payload.length offset) : Res α)
    else pure fields

/-- The `match` over the variants. -/
structure Cases (A P α : Type) where
  serialize : α → Immaterializing A P (String × Bytes)
  deserialize : String → Bytes → Rematerializing A P α

def Cases.nil : Cases A P Empty where
  serialize v := v.elim
  deserialize name _ := liftM (Res.err (.unknownVariant name) : Res Empty)

def Cases.cons {α β : Type} (variantName : String) (arm : Arm A P α) (rest : Cases A P β) :
    Cases A P (α ⊕ β) where
  serialize
    | .inl v => do
        let bytes ← arm.serialize v
        pure (variantName, bytes)
    | .inr w => rest.serialize w
  deserialize name payload :=
    if name = variantName then do
      let v ← arm.deserialize payload
      pure (.inl v)
    else do
      let w ← rest.deserialize name payload
      pure (.inr w)

/-- `derive_enum`. -/
def deriveEnum (p : Platform) {α : Type} (V : Cases A P α) : Transmaterializable A P α where
  immaterialize v := do
    let (case, bytes) ← V.serialize v
    pure (toLeBytes 8 (asBytes case).length ++ asBytes case ++ toLeBytes 8 bytes.length ++ bytes)
  rematerialize data := do
    let (variantNameBytes, offset) ← readBlock p .variantName data 0
    let variantName ← fromUtf8 variantNameBytes
    let (payloadData, offset) ← readBlock p .payload data offset
    let result ← V.deserialize variantName payloadData
    if data.length ≠ offset then liftM (Res.err (.notConsumed data.length offset) : Res α) else pure result

/-! ## The types of messages -/

mutual

/-- The types of the wire with references in them; `plain` types have none. An enum is given by its first variant and
    the others: one without variants is plain. -/
inductive Ty where
  | plain (t : Codec.Ty)
  | actorRef
  | replyPort
  | vec (t : Ty)
  | option (t : Ty)
  | result (t e : Ty)
  | tuple (ts : Tys)
  | struct (ts : Tys)
  | enum (name : String) (fields : VariantFields) (vs : Variants)

inductive Tys where
  | nil
  | cons (t : Ty) (ts : Tys)

/-- The variants of an enum. -/
inductive Variants where
  | nil
  | cons (name : String) (fields : VariantFields) (vs : Variants)

inductive VariantFields where
  | unit
  | fields (ts : Tys)

end

/-- A target, with the layout of these types. -/
structure Layout extends Target where
  sizeOfRef : Ty → Nat

def Tys.length : Tys → Nat
  | .nil       => 0
  | .cons _ ts => ts.length + 1

def Variants.names : Variants → List String
  | .nil            => []
  | .cons name _ vs => name :: vs.names

mutual

/-- What the compiler requires of a type. -/
def Ty.Compiles : Ty → Prop
  | .plain t => t.Compiles
  | .actorRef | .replyPort => True
  | .vec t => t.Compiles
  | .option t => t.Compiles
  | .result t e => t.Compiles ∧ e.Compiles
  | .tuple ts => (1 ≤ ts.length ∧ ts.length ≤ 12) ∧ ts.Compile
  | .struct ts => ts.Compile
  | .enum name fields vs => (name :: vs.names).Nodup ∧ fields.Compile ∧ vs.Compile

def Tys.Compile : Tys → Prop
  | .nil => True
  | .cons t ts => t.Compiles ∧ ts.Compile

def Variants.Compile : Variants → Prop
  | .nil => True
  | .cons _ fields vs => fields.Compile ∧ vs.Compile

def VariantFields.Compile : VariantFields → Prop
  | .unit => True
  | .fields ts => ts.Compile

end

mutual

/-- The values of a type, on a side whose references are `A` and `P`. -/
def Ty.Val (l : Layout) (A P : Type) : Ty → Type
  | .plain t => t.Val l.toTarget
  | .actorRef => A
  | .replyPort => P
  | .vec t => RVec l.toPlatform (l.sizeOfRef t) (t.Val l A P)
  | .option t => Option (t.Val l A P)
  | .result t e => Except (e.Val l A P) (t.Val l A P)
  | .tuple ts => ts.Vals l A P
  | .struct ts => ts.Vals l A P
  | .enum _ fields vs => fields.Vals l A P ⊕ vs.Vals l A P

def Tys.Vals (l : Layout) (A P : Type) : Tys → Type
  | .nil => Unit
  | .cons t ts => t.Val l A P × ts.Vals l A P

def Variants.Vals (l : Layout) (A P : Type) : Variants → Type
  | .nil => Empty
  | .cons _ fields vs => fields.Vals l A P ⊕ vs.Vals l A P

def VariantFields.Vals (l : Layout) (A P : Type) : VariantFields → Type
  | .unit => Unit
  | .fields ts => ts.Vals l A P

end

/-- The encodings of the references on the wire. -/
structure Encodings where
  ids : Bincode RemoteActorId
  ports : Bincode ProxiedRpcReplyPort

mutual

/-- The implementation for a type. -/
def Ty.impl (l : Layout) (enc : Encodings) : (t : Ty) → Transmaterializable A P (t.Val l A P)
  | .plain t => Context.plain (t.codec l.toTarget)
  | .actorRef => Context.actorRef enc.ids
  | .replyPort => Context.replyPort enc.ports
  | .vec t => Context.vec l.toPlatform (l.sizeOfRef t) (t.impl l enc)
  | .option t => Context.option l.toPlatform (t.impl l enc)
  | .result t e => Context.result l.toPlatform (t.impl l enc) (e.impl l enc)
  | .tuple ts => Context.tuple (ts.impl l enc .util)
  | .struct ts => deriveStruct (ts.impl l enc .field)
  | .enum name fields vs => deriveEnum l.toPlatform (.cons name (fields.impl l enc) (vs.impl l enc))

def Tys.impl (l : Layout) (enc : Encodings) (style : BlockStyle) : (ts : Tys) → Fields A P (ts.Vals l A P)
  | .nil => .nil
  | .cons t ts => .cons l.toPlatform style (t.impl l enc) (ts.impl l enc style)

def Variants.impl (l : Layout) (enc : Encodings) : (vs : Variants) → Cases A P (vs.Vals l A P)
  | .nil => .nil
  | .cons name fields vs => .cons name (fields.impl l enc) (vs.impl l enc)

def VariantFields.impl (l : Layout) (enc : Encodings) : (fields : VariantFields) → Arm A P (fields.Vals l A P)
  | .unit => plainArm unitArm
  | .fields ts => fieldsArm (ts.impl l enc .field)

end

end Context
end Wormhole
