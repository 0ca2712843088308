import Wormhole.Lib.HashMap
import Wormhole.Lib.LittleEndian

/-!
# `Portal.Types` — the data of a portal

The types of `portal.rs`, and those of `nexus.rs` and `conduit/mod.rs` that it uses.

Two encodings belong to libraries. A text that arrives as a handshake is represented by what
`serde_json::from_str` makes of it, and the data of a content frame by what `CrossPortalMessage::rematerialize`
(bincode, and the check that all bytes are consumed) makes of it; `none` is an error of either. That what
these libraries encode they also decode is built in.

The rematerializer that is stored with a published actor is determined by the actor's message type, so
the data of a `SendMessage` is represented by what the rematerializer of its target makes of it: the actor
references and reply ports it meets, in order, and the body, `none` if the decoding then fails. Bodies are
an arbitrary type `β`.
-/

namespace Wormhole
namespace Portal

/-! ## Identifiers -/

/-- `ractor::ActorId`. -/
abbrev ActorId := Nat

/-- The receiving end of an `RpcReplyPort`. -/
abbrev PortId := Nat

/-- A duration in nanoseconds. -/
abbrev Duration := Nat

abbrev CrossPortalMessageId := Nat

/-- The local portal identifier. -/
structure LocalPortalId where
  value : BitVec 128
  deriving DecidableEq, Repr

/-- A shared identifier for the conduit, the same on both portals. -/
structure ConduitID where
  value : BitVec 128
  deriving DecidableEq, Repr

/-- Hides the internal actor id; only the portal has the mapping between the two. -/
structure OpaqueActorId where
  value : BitVec 128
  deriving DecidableEq, Repr

structure RemoteActorId where
  connectionKey : ConduitID
  side : LocalPortalId
  id : OpaqueActorId
  deriving DecidableEq, Repr

/-! ## Messages on the wire -/

/-- The handshake. -/
structure Introduction where
  channelIdContribution : Vector UInt8 16
  version : String
  infoText : String
  thisSideId : LocalPortalId
  deriving DecidableEq, Repr

inductive ActorRequestError where
  | actorNotFound
  | transmissionError
  deriving DecidableEq, Repr

/-- `impl From<ActorRequestError> for anyhow::Error`. -/
def ActorRequestError.text : ActorRequestError → String
  | .actorNotFound => "Actor not found"
  | .transmissionError => "Transmission error"

/-- The answer to a name query. -/
inductive Resolution where
  | ok (id : RemoteActorId)
  | err (error : ActorRequestError)
  deriving DecidableEq, Repr

/-- A reference inside a serialized message. A reply port is a `ProxiedRpcReplyPort`. -/
inductive RemoteRef where
  | actorRef (id : RemoteActorId)
  | replyPort (timeoutMs : Option Nat) (id : RemoteActorId)
  deriving DecidableEq, Repr

def RemoteRef.id : RemoteRef → RemoteActorId
  | .actorRef id => id
  | .replyPort _ id => id

/-- A reference inside a message of a local actor. -/
inductive LocalRef where
  | actorRef (actor : ActorId)
  | replyPort (timeout : Option Duration) (port : PortId)
  deriving DecidableEq, Repr

/-- Which act of sending to which proxy a message comes from. No code looks at it. -/
structure Tag where
  proxy : ActorId
  number : Nat
  deriving DecidableEq, Repr

/-- A message of a local actor. -/
structure Msg (β : Type) where
  tag : Tag
  body : β
  refs : List LocalRef
  deriving DecidableEq, Repr

/-- The data of a `SendMessage`, as its target decodes it. -/
structure Payload (β : Type) where
  tag : Tag
  refs : List RemoteRef
  body : Option β
  deriving DecidableEq, Repr

/-- The messages sent over the wire after the handshake. -/
inductive CrossPortalMessage (β : Type) where
  | requestActorByName (id : CrossPortalMessageId) (name : String)
  | responseActorByName (id : CrossPortalMessageId) (result : Resolution)
  | responseActorById (id : CrossPortalMessageId) (result : Resolution)
  | sendMessage (target : RemoteActorId) (data : Payload β)
  | actorExited (id : RemoteActorId)
  deriving DecidableEq, Repr

/-- The messages that flow through a conduit. -/
inductive ConduitMessage (β : Type) where
  | handshake (text : Option Introduction)
  | content (data : Option (CrossPortalMessage β))
  | close (reason : Option String)
  deriving DecidableEq, Repr

/-! ## The portal actor -/

/-- Messages for the portal actor. The closure of `ImmaterializeMessage` is the message it serializes. -/
inductive PortalActorMessage (β : Type) where
  | handshake (text : Option Introduction)
  | content (data : Option (CrossPortalMessage β))
  | close
  | immaterializeMessage (target : RemoteActorId) (msg : Msg β)
  | transmitMessage (target : RemoteActorId) (bytes : Payload β)
  | publishNamedActor (name : String) (actor : ActorId) (reply : Option PortId)
  | publishActor (actor : ActorId) (reply : Option PortId)
  | registerProxyForRemoteActor (id : RemoteActorId) (actor : ActorId)
  | queryNamedRemoteActor (name : String) (reply : PortId)
  | waitForHandshake (reply : PortId)
  | localActorExited (actor : ActorId)
  deriving DecidableEq, Repr

inductive PortalConduitState where
  | opening (selfIntroduction : Introduction)
  | opened (channelId : ConduitID)
  deriving DecidableEq, Repr

def PortalConduitState.isOpen : PortalConduitState → Bool
  | .opening _ => false
  | .opened _ => true

theorem PortalConduitState.isOpen_iff {phase : PortalConduitState} :
    phase.isOpen = true ↔ ∃ channel, phase = .opened channel := by
  cases phase <;> simp [isOpen]

/-- The arguments that the handlers read: `sender` is the node's wire, `parent` its environment. -/
structure PortalActorArgs where
  identifier : String
  localId : LocalPortalId
  defaultRpcPortTimeout : Duration
  deriving DecidableEq, Repr

structure PortalActorState where
  args : PortalActorArgs
  channelState : PortalConduitState
  publishedActors : HashMap OpaqueActorId ActorId
  proxiesForRemoteActors : HashMap RemoteActorId ActorId
  namedActors : HashMap String OpaqueActorId
  nextRequestId : Nat
  openRequests : HashMap CrossPortalMessageId PortId
  waitingForHandshake : List PortId

/-! ## What a handler does -/

/-- Why a portal asked to be stopped. -/
inductive StopReason where
  | handshakeAfterHandshake
  | contentBeforeHandshake
  | portalClosed
  deriving DecidableEq, Repr

def StopReason.text : StopReason → String
  | .handshakeAfterHandshake => "protocol violation: handshake message after handshake"
  | .contentBeforeHandshake => "protocol violation: content message before handshake"
  | .portalClosed => "Portal closed"

/-- The errors that `?` propagates out of a handler. -/
inductive HandlerError where
  /-- `serde_json::from_str` -/
  | introduction
  /-- `CrossPortalMessage::rematerialize` -/
  | crossPortalMessage
  /-- the sink -/
  | sender
  /-- `reply.send` on a dropped receiver -/
  | reply
  /-- the nexus did not answer -/
  | nexus
  /-- the rematerializer could not decode the message -/
  | rematerialize
  /-- `actor_ref.send_message` to a stopped actor -/
  | sendMessage
  deriving DecidableEq, Repr

/-- What is sent on a reply port. -/
inductive ReplyValue (β : Type) where
  | opened
  | published (id : RemoteActorId)
  | publishedNamed (id : Option RemoteActorId)
  | resolved (result : Resolution)
  | rpc (data : β) (refs : List LocalRef)
  deriving DecidableEq, Repr

/-- What a handler does to the world besides its state. -/
inductive Effect (β : Type) where
  /-- a `Content` frame, flushed -/
  | send (msg : CrossPortalMessage β)
  | reply (port : PortId) (value : ReplyValue β)
  /-- the task of `publish_actor` that waits for the actor to exit -/
  | watch (actor : ActorId)
  /-- the detached task that serializes a message -/
  | spawn (target : RemoteActorId) (msg : Msg β)
  /-- `actor_cell.stop` -/
  | stop (actor : ActorId)
  deriving DecidableEq, Repr

/-- How a handler ends. `rematerialize` is the one handler that other steps come in between: it creates
    a proxy for every reference, and each of them is awaited. -/
inductive Outcome (β : Type) where
  | ok
  | stop (reason : StopReason)
  | err (error : HandlerError)
  | rematerialize (actor : ActorId) (data : Payload β)
  deriving DecidableEq, Repr

/-- A turn of the portal's message pump. -/
structure Turn (β : Type) where
  state : PortalActorState
  effects : List (Effect β) := []
  outcome : Outcome β := .ok

/-- What the sink makes of a frame: `send` and `flush` succeed, only `send` does, or neither. -/
inductive SinkResult where
  | flushed
  | unflushed
  | refused
  deriving DecidableEq, Repr

/-- What a handler reads from its surroundings: the next uuid, the answer of the nexus (`none` if there is
    none), the sink, and which receivers of reply ports are alive. -/
structure HandleEnv where
  uuid : OpaqueActorId
  nexus : Option (Option ActorId)
  sink : SinkResult
  alive : PortId → Bool

end Portal
end Wormhole
