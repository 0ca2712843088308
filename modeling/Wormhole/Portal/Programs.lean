import Wormhole.Lib.Waiting
import Wormhole.Portal.Node

/-!
# `Portal.Programs` — the handlers of a portal, stopped at every `.await`

`Portal.handle` is a turn whose answers are given beforehand. Here the same handlers are programs: they stop
where the source awaits something, and go on with the answer. With the answers filled in they are the
functions they were: `eval_handle`, `eval_preStart`. What a handler of a `SendMessage` goes on with, the
tasks that are spawned, and the actors that are started along the way are programs too.

A message type may contain other types to any depth. What its decoder does is any program over the two
operations that a `TransmaterializationContext` has for decoding, and what its encoder does is any program
over the two that it has for encoding: `MessageType`.
-/

namespace Wormhole
namespace Portal

open Waiting (ProcessId)

variable {β : Type}

/-! ## Operations -/

/-- The tasks that are spawned and not awaited. -/
inductive DetachedTask (β : Type) where
  /-- that of an `ImmaterializeMessage` -/
  | immaterialization (portal : ProcessId) (timeout : Duration) (target : RemoteActorId) (msg : Msg β)
  /-- the loop behind a proxy -/
  | proxy (portal : ProcessId) (remote : RemoteActorId)
  /-- that of `rpc_reply_port_from_actor_ref` -/
  | forwarder (proxy : ActorId)
  /-- that of `publish_actor` -/
  | watcher (portal : ProcessId) (actor : ActorId)

inductive Op (β : Type) where
  /-- `sender.send(message).await?; sender.flush().await?` -/
  | send (message : ConduitMessage β)
  /-- `nexus.ask(|rpc| QueryNamedActor(name, rpc), None).await` -/
  | queryNamedActor (nexus : ProcessId) (name : String)
  /-- `portal.ask(|rpc| PublishActor(actor, receiver, Some(rpc)), None).await` -/
  | publishActor (portal : ProcessId) (actor : ActorId)
  /-- `Actor::spawn_linked(None, PortalActor, …).await` -/
  | spawnPortal (nexus : ProcessId) (setup : Setup)
  /-- `FnActor::start_linked(…).await` -/
  | startLinked
  /-- `RpcProxyActor::spawn_linked(…).await` -/
  | spawnRpcProxy (port : PortId)
  /-- `portal.send_message(message)` -/
  | sendMessage (portal : ProcessId) (message : PortalActorMessage β)
  /-- `actor_ref.send_message(…)`, of a message that was rebuilt -/
  | deliver (actor : ActorId) (body : β) (refs : List LocalRef)
  /-- `rpc_reply_port.send(…)` -/
  | reply (port : PortId) (body : β) (refs : List LocalRef)
  /-- `ractor::concurrency::spawn` -/
  | spawn (task : DetachedTask β)
  /-- the channel of a rebuilt reply port -/
  | oneshot
  /-- `tx.send(message).await` and `rx.recv().await`, on the channel of a proxy -/
  | channelSend (msg : Msg β)
  | channelRecv
  /-- `rx.await`, of a rebuilt reply port -/
  | oneshotRecv
  /-- `actor_cell.wait(None).await` -/
  | wait (actor : ActorId)

/-- What is got at an operation; an error is `none`, or `false`. -/
abbrev Op.answer : Op β → Type
  | .send _ => SinkResult
  | .queryNamedActor _ _ => Option (Option ActorId)
  | .publishActor _ _ => Option RemoteActorId
  | .spawnPortal _ _ => Option ActorId
  | .startLinked => Option ActorId
  | .spawnRpcProxy _ => Option ActorId
  | .sendMessage _ _ => Bool
  | .deliver _ _ _ => Bool
  | .reply _ _ _ => Bool
  | .spawn _ => Unit
  | .oneshot => PortId
  | .channelSend _ => Bool
  | .channelRecv => Option (Msg β)
  | .oneshotRecv => Option (β × List LocalRef)
  | .wait _ => Unit

abbrev Program (β : Type) : Type → Type := Async (Op β) Op.answer

/-! ## Message types -/

/-- `rematerialize_actor_ref` and `rematerialize_replychannel`, of a reference in a message. -/
inductive RematerializeOp where
  | actorRef (id : RemoteActorId)
  | replychannel (timeoutMs : Option Nat) (id : RemoteActorId)

/-- `immaterialize_actor_ref` and `immaterialize_replychannel`. -/
inductive ImmaterializeOp where
  | actorRef (actor : ActorId)
  | replychannel (timeout : Option Duration) (port : PortId)

/-- The `ContextTransmaterializable` of the messages: whatever it does with the references that it meets, and
    however it goes on with what it gets for them. -/
structure MessageType (β : Type) where
  rematerialize : Payload β → Async RematerializeOp (fun _ => Option LocalRef) (Option (β × List LocalRef))
  immaterialize : Msg β → Async ImmaterializeOp (fun _ => Option RemoteRef) (Option (Payload β))

namespace Program

/-- An operation, and its answer. -/
abbrev perform (o : Op β) : Program β o.answer := Async.perform o

/-! ## The portal actor -/

/-- `PortalActor::pre_start`. -/
def preStart (args : PortalActorArgs) (contribution : Vector UInt8 16) (pick : Fin 5) :
    Program β (Except HandlerError PortalActorState) := do
  let intro := introduction args contribution pick
  match ← perform (.send (.handshake (some intro))) with
  | .flushed => pure (.ok (initialState args intro))
  | .unflushed => pure (.error .sender)
  | .refused => pure (.error .sender)

/-- `sender.send(Content(…)).await?; sender.flush().await?`, the last thing a handler does. -/
def sending (state : PortalActorState) (effects : List (Effect β)) (msg : CrossPortalMessage β) :
    Program β (Turn β) := do
  match ← perform (.send (.content (some msg))) with
  | .flushed => pure { state, effects := effects ++ [.send msg] }
  | .unflushed => pure { state, effects := effects ++ [.send msg], outcome := .err .sender }
  | .refused => pure { state, effects, outcome := .err .sender }

def handleRequestActorByName (nexus : ProcessId) (env : HandleEnv) (state : PortalActorState)
    (channelId : ConduitID) (id : CrossPortalMessageId) (name : String) : Program β (Turn β) :=
  match state.namedActors.lookup name with
  | some opaqueId => sending state [] (.responseActorByName id (.ok (state.mint channelId opaqueId)))
  | none => do
    -- it could be in the nexus registry
    match ← perform (.queryNamedActor nexus name) with
    | none => pure { state, outcome := .err .nexus }
    | some none => sending state [] (.responseActorByName id (.err .actorNotFound))
    | some (some actor) =>
      let publication := publishActor env state.publishedActors actor
      sending { state with publishedActors := publication.publishedActors } publication.effects
        (.responseActorByName id (.ok (state.mint channelId publication.id)))

/-- The other messages from the conduit are handled without an `.await`, up to the rematerializer. -/
def handleContent (nexus : ProcessId) (env : HandleEnv) (state : PortalActorState)
    (data : Option (CrossPortalMessage β)) : Program β (Turn β) :=
  match state.channelState, data with
  | .opened channelId, some (.requestActorByName id name) =>
    handleRequestActorByName nexus env state channelId id name
  | _, _ => pure (Portal.handleContent env state data)

def handleQueryNamedRemoteActor (state : PortalActorState) (name : String) (reply : PortId) :
    Program β (Turn β) :=
  match state.channelState with
  | .opening _ => pure { state }
  | .opened _ =>
    let requestId := state.nextRequestId
    sending
      { state with
        nextRequestId := (state.nextRequestId + 1) % 2 ^ 64
        openRequests := state.openRequests.insert requestId reply }
      [] (.requestActorByName requestId name)

def handleTransmitMessage (state : PortalActorState) (target : RemoteActorId) (bytes : Payload β) :
    Program β (Turn β) :=
  match state.channelState with
  | .opening _ => pure { state }
  | .opened _ => sending state [] (.sendMessage target bytes)

def handleLocalActorExited (state : PortalActorState) (actor : ActorId) : Program β (Turn β) :=
  match state.channelState with
  | .opening _ => pure { state }
  | .opened channelId =>
    match state.publishedActors.findKey? (· == actor) with
    | none => pure { state }
    | some id => sending state [] (.actorExited (state.mint channelId id))

/-- `PortalActor::handle`, up to the rematerializer. The nexus and the sink of `env` are not read. -/
def handle (nexus : ProcessId) (env : HandleEnv) (state : PortalActorState) :
    PortalActorMessage β → Program β (Turn β)
  | .content data => handleContent nexus env state data
  | .queryNamedRemoteActor name reply => handleQueryNamedRemoteActor state name reply
  | .transmitMessage target bytes => handleTransmitMessage state target bytes
  | .localActorExited actor => handleLocalActorExited state actor
  -- no `.await`
  | m => pure (Portal.handle env state m)

/-! ## Messages that are rebuilt -/

/-- `instantiate_proxy_for_remote_actor`. -/
def instantiateProxyForRemoteActor (portal : ProcessId) (remote : RemoteActorId) : Program β (Option ActorId) := do
  match ← perform .startLinked with
  | none => pure none
  | some proxy =>
    perform (.spawn (.proxy portal remote))
    let sent ← perform (.sendMessage portal (.registerProxyForRemoteActor remote proxy))
    pure (if sent then some proxy else none)

def rematerializeRef (portal : ProcessId) : RematerializeOp → Program β (Option LocalRef)
  | .actorRef id => do
    let proxy ← instantiateProxyForRemoteActor portal id
    pure (proxy.map .actorRef)
  | .replychannel timeoutMs id => do
    match ← instantiateProxyForRemoteActor portal id with
    | none => pure none
    | some proxy =>
      let port ← perform .oneshot
      perform (.spawn (.forwarder proxy))
      -- `Duration::from_millis(ms as u64)`
      pure (some (.replyPort (timeoutMs.map fun ms => ms % 2 ^ 64 * 10 ^ 6) port))

/-- `MsgRematerializerImpl::rematerialize`, which the portal awaits in its handler. -/
def rematerialize (messages : MessageType β) (portal : ProcessId) (actor : ActorId) (data : Payload β) :
    Program β Unit := do
  match ← (messages.rematerialize data).interpret (rematerializeRef portal) with
  | none => pure ()
  | some (body, refs) =>
    let _ ← perform (.deliver actor body refs)

/-- The tasks that a turn spawns. -/
def spawning (portal : ProcessId) (state : PortalActorState) : List (Effect β) → Program β Unit
  | [] => pure ()
  | .spawn target msg :: effects => do
    perform (.spawn (.immaterialization portal state.args.defaultRpcPortTimeout target msg))
    spawning portal state effects
  | .watch actor :: effects => do
    perform (.spawn (.watcher portal actor))
    spawning portal state effects
  | _ :: effects => spawning portal state effects

/-- `PortalActor::handle`, to its end. -/
def serve (messages : MessageType β) (nexus portal : ProcessId) (env : HandleEnv) (state : PortalActorState)
    (m : PortalActorMessage β) : Program β Unit := do
  let turn ← handle nexus env state m
  spawning portal turn.state turn.effects
  match turn.outcome with
  | .rematerialize actor data => rematerialize messages portal actor data
  | _ => pure ()

/-! ## Messages that are serialized -/

def immaterializeRef (portal : ProcessId) (timeout : Duration) : ImmaterializeOp → Program β (Option RemoteRef)
  | .actorRef actor => do
    let published ← perform (.publishActor portal actor)
    pure (published.map .actorRef)
  | .replychannel rpcTimeout port => do
    match ← perform (.spawnRpcProxy port) with
    | none => pure none
    | some localActor =>
      let published ← perform (.publishActor portal localActor)
      pure (published.map (.replyPort (some (rpcTimeout.getD timeout / 10 ^ 6))))

/-- The task of an `ImmaterializeMessage`. -/
def immaterialize (messages : MessageType β) (portal : ProcessId) (timeout : Duration) (target : RemoteActorId)
    (msg : Msg β) : Program β Unit := do
  match ← (messages.immaterialize msg).interpret (immaterializeRef portal timeout) with
  | none => pure ()
  | some bytes =>
    let _ ← perform (.sendMessage portal (.transmitMessage target bytes))

/-! ## What runs around a portal -/

/-- `FnActorImpl::handle`, of a proxy. -/
def handleProxy (msg : Msg β) : Program β Unit := do
  let _ ← perform (.channelSend msg)

/-- `RpcProxyActor::handle`: the reply port is there for the first message. -/
def handleRpcProxy (rpcReplyPort : Option PortId) (msg : Msg β) : Program β Unit :=
  match rpcReplyPort with
  | none => pure ()
  | some port => do
    let _ ← perform (.reply port msg.body msg.refs)

/-- The loop behind a proxy, for some number of rounds. -/
def proxyLoop (portal : ProcessId) (remote : RemoteActorId) : Nat → Program β Unit
  | 0 => pure ()
  | rounds + 1 => do
    match ← perform .channelRecv with
    | none => pure ()
    | some msg =>
      let _ ← perform (.sendMessage portal (.immaterializeMessage remote msg))
      proxyLoop portal remote rounds

/-- The task of `rpc_reply_port_from_actor_ref`. -/
def forwarder (proxy : ActorId) : Program β Unit := do
  match ← perform .oneshotRecv with
  | none => pure ()
  | some (body, refs) =>
    let _ ← perform (.deliver proxy body refs)

/-- The task of `publish_actor`. -/
def watcher (portal : ProcessId) (actor : ActorId) : Program β Unit := do
  perform (.wait actor)
  let _ ← perform (.sendMessage portal (.localActorExited actor))

/-! ## With the answers filled in -/

section

variable {env : HandleEnv} {state : PortalActorState} {nexus : ProcessId} {answers : ∀ o : Op β, o.answer}

theorem eval_sending (hsink : ∀ m, answers (.send m) = env.sink) (effects : List (Effect β))
    (msg : CrossPortalMessage β) :
    (sending state effects msg).eval answers = Portal.sending env state effects msg := by
  unfold sending Portal.sending
  simp only [Async.eval_bind, Async.eval_perform, hsink]
  cases env.sink with
  | flushed => rfl
  | unflushed => rfl
  | refused => rfl

theorem eval_handleRequestActorByName (hsink : ∀ m, answers (.send m) = env.sink)
    (hnexus : ∀ name, answers (.queryNamedActor nexus name) = env.nexus) (channelId : ConduitID)
    (id : CrossPortalMessageId) (name : String) :
    (handleRequestActorByName nexus env state channelId id name).eval answers =
      Portal.handleRequestActorByName env state channelId id name := by
  unfold handleRequestActorByName Portal.handleRequestActorByName
  cases hlook : state.namedActors.lookup name with
  | some opaqueId => exact eval_sending hsink _ _
  | none =>
    simp only [Async.eval_bind, Async.eval_perform, hnexus]
    cases env.nexus with
    | none => rfl
    | some answer =>
      cases answer with
      | none => exact eval_sending hsink _ _
      | some actor => exact eval_sending hsink _ _

/-- **The handlers are those of the message pump.** -/
theorem eval_handle (hsink : ∀ m, answers (.send m) = env.sink)
    (hnexus : ∀ name, answers (.queryNamedActor nexus name) = env.nexus) (m : PortalActorMessage β) :
    (handle nexus env state m).eval answers = Portal.handle env state m := by
  cases m with
  | content data =>
    show (handleContent nexus env state data).eval answers = Portal.handleContent env state data
    unfold handleContent
    split
    · rename_i channelId id name hopen
      rw [eval_handleRequestActorByName hsink hnexus]
      unfold Portal.handleContent
      rw [hopen]
      rfl
    · rfl
  | queryNamedRemoteActor name reply =>
    show (handleQueryNamedRemoteActor state name reply).eval answers = _
    show _ = Portal.handleQueryNamedRemoteActor env state name reply
    unfold handleQueryNamedRemoteActor Portal.handleQueryNamedRemoteActor
    cases state.channelState with
    | opening selfIntroduction => rfl
    | opened channelId => exact eval_sending hsink _ _
  | transmitMessage target bytes =>
    show (handleTransmitMessage state target bytes).eval answers = Portal.handleTransmitMessage env state target bytes
    unfold handleTransmitMessage Portal.handleTransmitMessage
    cases state.channelState with
    | opening selfIntroduction => rfl
    | opened channelId => exact eval_sending hsink _ _
  | localActorExited actor =>
    show (handleLocalActorExited state actor).eval answers = Portal.handleLocalActorExited env state actor
    unfold handleLocalActorExited Portal.handleLocalActorExited
    cases state.channelState with
    | opening selfIntroduction => rfl
    | opened channelId =>
      cases state.publishedActors.findKey? (· == actor) with
      | none => rfl
      | some id => exact eval_sending hsink _ _
  | handshake text => rfl
  | close => rfl
  | waitForHandshake reply => rfl
  | publishNamedActor name actor reply => rfl
  | publishActor actor reply => rfl
  | immaterializeMessage target msg => rfl
  | registerProxyForRemoteActor id actor => rfl

theorem eval_preStart (args : PortalActorArgs) (contribution : Vector UInt8 16) (pick : Fin 5) {sink : SinkResult}
    (hsink : ∀ m, answers (.send m) = sink) :
    (preStart args contribution pick).eval answers =
      (Portal.preStart (β := β) args contribution pick sink).2 := by
  unfold preStart Portal.preStart
  simp only [Async.eval_bind, Async.eval_perform, hsink]
  cases sink with
  | flushed => rfl
  | unflushed => rfl
  | refused => rfl

end

end Program
end Portal
end Wormhole
