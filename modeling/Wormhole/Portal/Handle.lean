import Wormhole.Portal.Types

/-!
# `Portal.Handle` — `PortalActor::pre_start` and `PortalActor::handle`

One definition for each message, in the order of the source. A handler is a function of the state and of
what it reads from its surroundings; what it sends, answers, spawns and stops is returned as data. A
handler that fails keeps the effects it had before the failure.
-/

namespace Wormhole
namespace Portal

open LittleEndian

variable {β : Type}

/-! ## The handshake -/

def xorArrays (a b : Vector UInt8 16) : Vector UInt8 16 := Vector.zipWith (· ^^^ ·) a b

/-- `ConduitID(u128::from_le_bytes(…))`. -/
def ConduitID.fromLeBytes (bytes : Vector UInt8 16) : ConduitID :=
  ⟨BitVec.ofNat 128 (LittleEndian.fromLeBytes bytes.toList)⟩

/-- The channel id that the side with the first contribution computes. -/
def channelId (own remote : Vector UInt8 16) : ConduitID :=
  ConduitID.fromLeBytes (xorArrays own remote)

/-- There is a message to draw. -/
instance neZero_motivationalMessages : NeZero 5 := ⟨by decide⟩

def motivationalMessages : Vector String 5 :=
  #v["Lookin' good!",
     "Beep Boop",
     "It's a beautiful day",
     "Did you know: Koalas have fingerprints so similar to humans that they've occasionally confused crime scene investigators.",
     "Gentoo penguins propose to their mates with a pebble."]

/-- The introduction that `pre_start` writes, with the contribution and the message that are drawn. -/
def introduction (args : PortalActorArgs) (contribution : Vector UInt8 16) (pick : Fin 5) : Introduction :=
  { channelIdContribution := contribution
    version := "0.1"
    infoText := motivationalMessages.get pick
    thisSideId := args.localId }

/-- The state in which a portal starts. -/
def initialState (args : PortalActorArgs) (selfIntroduction : Introduction) : PortalActorState :=
  { args
    channelState := .opening selfIntroduction
    publishedActors := ∅
    proxiesForRemoteActors := ∅
    namedActors := ∅
    nextRequestId := 1
    openRequests := ∅
    waitingForHandshake := [] }

/-- `PortalActor::pre_start`: the frames that the sink took, and the state unless the sink failed. -/
def preStart (args : PortalActorArgs) (contribution : Vector UInt8 16) (pick : Fin 5) (sink : SinkResult) :
    List (ConduitMessage β) × Except HandlerError PortalActorState :=
  let intro := introduction args contribution pick
  match sink with
  | .flushed => ([.handshake (some intro)], .ok (initialState args intro))
  | .unflushed => ([.handshake (some intro)], .error .sender)
  | .refused => ([], .error .sender)

/-! ## How handlers end -/

/-- `reply.send(value)?`, the last thing a handler does. -/
def replying (env : HandleEnv) (state : PortalActorState) (effects : List (Effect β)) (port : PortId)
    (value : ReplyValue β) : Turn β :=
  if env.alive port then { state, effects := effects ++ [.reply port value] }
  else { state, effects, outcome := .err .reply }

/-- `sender.send(Content(…)).await?; sender.flush().await?`, the last thing a handler does. -/
def sending (env : HandleEnv) (state : PortalActorState) (effects : List (Effect β))
    (msg : CrossPortalMessage β) : Turn β :=
  match env.sink with
  | .flushed => { state, effects := effects ++ [.send msg] }
  | .unflushed => { state, effects := effects ++ [.send msg], outcome := .err .sender }
  | .refused => { state, effects, outcome := .err .sender }

/-! ## Publishing -/

/-- The result of `PortalActor::publish_actor`. -/
structure Publication (β : Type) where
  id : OpaqueActorId
  publishedActors : HashMap OpaqueActorId ActorId
  effects : List (Effect β)

def publishActor (env : HandleEnv) (publishedActors : HashMap OpaqueActorId ActorId) (actor : ActorId) :
    Publication β :=
  match publishedActors.findKey? (· == actor) with
  | some id => { id, publishedActors, effects := [] }
  | none =>
    { id := env.uuid
      publishedActors := publishedActors.insert env.uuid actor
      effects := [.watch actor] }

/-- `RemoteActorId { connection_key: *channel_id, side: state.args.local_id, id }`. -/
def PortalActorState.mint (state : PortalActorState) (channelId : ConduitID) (id : OpaqueActorId) :
    RemoteActorId :=
  { connectionKey := channelId, side := state.args.localId, id }

/-! ## Messages from the conduit -/

def handleHandshake (env : HandleEnv) (state : PortalActorState) (text : Option Introduction) : Turn β :=
  match state.channelState with
  | .opening selfIntroduction =>
    match text with
    | none => { state, outcome := .err .introduction }
    | some remoteIntroduction =>
      let id := channelId selfIntroduction.channelIdContribution remoteIntroduction.channelIdContribution
      -- the waiters are drained, and a waiter that is gone is ignored
      { state := { state with channelState := .opened id, waitingForHandshake := [] }
        effects := (state.waitingForHandshake.filter env.alive).map (.reply · .opened) }
  -- a protocol violation of the remote side closes the portal
  | .opened _ => { state, outcome := .stop .handshakeAfterHandshake }

def handleRequestActorByName (env : HandleEnv) (state : PortalActorState) (channelId : ConduitID)
    (id : CrossPortalMessageId) (name : String) : Turn β :=
  match state.namedActors.lookup name with
  | some opaqueId => sending env state [] (.responseActorByName id (.ok (state.mint channelId opaqueId)))
  | none =>
    -- it could be in the nexus registry
    match env.nexus with
    -- the question to the nexus failed
    | none => { state, outcome := .err .nexus }
    | some none => sending env state [] (.responseActorByName id (.err .actorNotFound))
    | some (some actor) =>
      let publication := publishActor env state.publishedActors actor
      sending env { state with publishedActors := publication.publishedActors } publication.effects
        (.responseActorByName id (.ok (state.mint channelId publication.id)))

/-- `ResponseActorByName` and `ResponseActorById`, which have the same body. -/
def handleResponse (env : HandleEnv) (state : PortalActorState) (id : CrossPortalMessageId)
    (response : Resolution) : Turn β :=
  match state.openRequests.lookup id with
  | some port =>
    replying env { state with openRequests := state.openRequests.erase id } [] port (.resolved response)
  -- the request is not open, or was answered before: only a line in the log
  | none => { state }

def handleSendMessage (state : PortalActorState) (target : RemoteActorId) (data : Payload β) : Turn β :=
  match state.publishedActors.lookup target.id with
  | some actor => { state, outcome := .rematerialize actor data }
  -- the target is not published here: only a line in the log
  | none => { state }

def handleActorExited (state : PortalActorState) (id : RemoteActorId) : Turn β :=
  match state.proxiesForRemoteActors.lookup id with
  | some actor =>
    { state := { state with proxiesForRemoteActors := state.proxiesForRemoteActors.erase id }
      effects := [.stop actor] }
  -- no proxy is registered, or not yet: a line in the log, and nothing is remembered
  | none => { state }

def handleCrossPortalMessage (env : HandleEnv) (state : PortalActorState) (channelId : ConduitID) :
    CrossPortalMessage β → Turn β
  | .requestActorByName id name => handleRequestActorByName env state channelId id name
  | .responseActorByName id response => handleResponse env state id response
  | .responseActorById id response => handleResponse env state id response
  | .sendMessage target data => handleSendMessage state target data
  | .actorExited id => handleActorExited state id

def handleContent (env : HandleEnv) (state : PortalActorState) (data : Option (CrossPortalMessage β)) :
    Turn β :=
  match state.channelState with
  -- a protocol violation of the remote side closes the portal
  | .opening _ => { state, outcome := .stop .contentBeforeHandshake }
  | .opened channelId =>
    match data with
    | none => { state, outcome := .err .crossPortalMessage }
    | some msg => handleCrossPortalMessage env state channelId msg

def handleClose (state : PortalActorState) : Turn β := { state, outcome := .stop .portalClosed }

/-! ## Messages from the local side -/

def handleWaitForHandshake (env : HandleEnv) (state : PortalActorState) (reply : PortId) : Turn β :=
  match state.channelState with
  -- answered by the handshake
  | .opening _ => { state := { state with waitingForHandshake := state.waitingForHandshake ++ [reply] } }
  | .opened _ => replying env state [] reply .opened

def handlePublishNamedActor (env : HandleEnv) (state : PortalActorState) (name : String) (actor : ActorId)
    (reply : Option PortId) : Turn β :=
  -- with a reply before the handshake an error is logged, and the actor is published all the same
  let publication := publishActor env state.publishedActors actor
  let state' :=
    { state with
      publishedActors := publication.publishedActors
      -- this overrides an actor of the same name
      namedActors := state.namedActors.insert name publication.id }
  match reply with
  | none => { state := state', effects := publication.effects }
  | some rpc =>
    match state.channelState with
    | .opened channelId =>
      replying env state' publication.effects rpc
        (.publishedNamed (some (state.mint channelId publication.id)))
    | .opening _ => replying env state' publication.effects rpc (.publishedNamed none)

def handlePublishActor (env : HandleEnv) (state : PortalActorState) (actor : ActorId)
    (rpc : Option PortId) : Turn β :=
  match rpc with
  | none =>
    let publication := publishActor env state.publishedActors actor
    { state := { state with publishedActors := publication.publishedActors }
      effects := publication.effects }
  | some rpc =>
    match state.channelState with
    -- a line in the log: nothing is published, and the caller hears that its port was dropped
    | .opening _ => { state }
    | .opened channelId =>
      let publication := publishActor env state.publishedActors actor
      replying env { state with publishedActors := publication.publishedActors } publication.effects rpc
        (.published (state.mint channelId publication.id))

def handleQueryNamedRemoteActor (env : HandleEnv) (state : PortalActorState) (name : String)
    (reply : PortId) : Turn β :=
  match state.channelState with
  -- a line in the log, and the port is dropped
  | .opening _ => { state }
  | .opened _ =>
    let requestId := state.nextRequestId
    sending env
      { state with
        -- a `u64`
        nextRequestId := (state.nextRequestId + 1) % 2 ^ 64
        openRequests := state.openRequests.insert requestId reply }
      [] (.requestActorByName requestId name)

def handleImmaterializeMessage (state : PortalActorState) (target : RemoteActorId) (msg : Msg β) :
    Turn β :=
  match state.channelState with
  | .opening _ => { state }
  -- serializing can call into this portal, so a task of its own does it
  | .opened _ => { state, effects := [.spawn target msg] }

def handleTransmitMessage (env : HandleEnv) (state : PortalActorState) (target : RemoteActorId)
    (bytes : Payload β) : Turn β :=
  match state.channelState with
  -- a line in the log, and the bytes are dropped
  | .opening _ => { state }
  | .opened _ => sending env state [] (.sendMessage target bytes)

def handleRegisterProxyForRemoteActor (state : PortalActorState) (id : RemoteActorId) (actor : ActorId) :
    Turn β :=
  match state.channelState with
  -- a line in the log, and the proxy stays unknown
  | .opening _ => { state }
  | .opened _ =>
    { state :=
        { state with proxiesForRemoteActors := state.proxiesForRemoteActors.insert id actor } }

def handleLocalActorExited (env : HandleEnv) (state : PortalActorState) (actor : ActorId) : Turn β :=
  match state.channelState with
  | .opening _ => { state }
  | .opened channelId =>
    match state.publishedActors.findKey? (· == actor) with
    -- the actor is not published: a line in the log
    | none => { state }
    -- the entry stays in the registry
    | some id => sending env state [] (.actorExited (state.mint channelId id))

/-! ## The message pump -/

/-- `PortalActor::handle`. -/
def handle (env : HandleEnv) (state : PortalActorState) : PortalActorMessage β → Turn β
  | .handshake text => handleHandshake env state text
  | .content data => handleContent env state data
  | .close => handleClose state
  | .waitForHandshake reply => handleWaitForHandshake env state reply
  | .publishNamedActor name actor reply => handlePublishNamedActor env state name actor reply
  | .publishActor actor rpc => handlePublishActor env state actor rpc
  | .queryNamedRemoteActor name reply => handleQueryNamedRemoteActor env state name reply
  | .immaterializeMessage target msg => handleImmaterializeMessage state target msg
  | .transmitMessage target bytes => handleTransmitMessage env state target bytes
  | .registerProxyForRemoteActor id actor => handleRegisterProxyForRemoteActor state id actor
  | .localActorExited actor => handleLocalActorExited env state actor

end Portal
end Wormhole
