import Wormhole.Lib.Queues
import Wormhole.Lib.Transition
import Wormhole.Portal.Turns

/-!
# `Portal.Node` — one side of a conduit

A portal actor with everything that runs around it: its mailbox, the receive loop, the proxies that
`instantiate_proxy_for_remote_actor` creates and the tasks behind them, the detached tasks that serialize
messages, the `RpcProxyActor`s, the tasks that wait for a published actor to exit, and local code.
`step` makes one of them move; the label says which, and what it draws or is given.

Assumed of ractor: mailboxes are FIFO; a message to a stopped actor is not delivered, and `send_message`
says so; `stop` takes priority over queued messages; an actor whose `handle` returns an error terminates;
the children of an actor terminate with it. The fields after `nextMsg` record what happened; of these
only `replies` is ever read.
-/

namespace Wormhole
namespace Portal

open Queues

variable {β : Type}

/-! ## State -/

/-- What has become of the portal actor. -/
inductive Life where
  | running
  | stopped (reason : StopReason)
  | failed (error : HandlerError)
  /-- from outside: by its supervisor, or by local code -/
  | terminated
  deriving DecidableEq, Repr

/-- The handler of a `SendMessage` while its rematerializer creates proxies. -/
structure Rebuilding (β : Type) where
  actor : ActorId
  tag : Tag
  todo : List RemoteRef
  done : List LocalRef
  body : Option β
  deriving DecidableEq, Repr

/-- The detached task of an `ImmaterializeMessage`. `asked` is the port of its `PublishActor`, while it
    waits for the answer. -/
structure Immaterialization (β : Type) where
  target : RemoteActorId
  body : β
  todo : List LocalRef
  done : List RemoteRef
  asked : Option PortId
  deriving DecidableEq, Repr

structure Node (β : Type) where
  /-- the portal actor -/
  state : PortalActorState
  life : Life
  mailbox : List (PortalActorMessage β)
  rebuilding : Option (Rebuilding β)
  /-- whether the receive loop still runs -/
  receiving : Bool
  /-- all proxies ever created, and the calls that have not registered theirs yet -/
  proxies : List (ActorId × RemoteActorId)
  creating : Queues ActorId RemoteActorId
  /-- the mailbox of a proxy, and the mpsc channel behind it -/
  inbox : Queues ActorId (Msg β)
  channel : Queues ActorId (Msg β)
  tasks : Queues Tag (Immaterialization β)
  watchers : List ActorId
  rpcProxies : List (ActorId × PortId)
  /-- the reply ports that `rpc_reply_port_from_actor_ref` built -/
  rebuiltPorts : Queues PortId ActorId
  exited : List ActorId
  /-- the reply ports that local code holds, and those whose receiver is gone -/
  held : List PortId
  dropped : List PortId
  nextActor : ActorId
  nextPort : PortId
  nextMsg : Nat
  sent : List (ConduitMessage β)
  replies : List (PortId × ReplyValue β)
  handled : List (PortalActorMessage β)
  submitted : List Tag
  spawned : List Tag
  posted : List Tag
  unserialized : List Tag
  delivered : List (ActorId × Msg β)

/-- What a side starts with: the arguments of its portal, what `pre_start` draws, and how many actors local
    code has. -/
structure Setup where
  args : PortalActorArgs
  contribution : Vector UInt8 16
  pick : Fin 5
  actors : Nat

def Setup.introduction (setup : Setup) : Introduction :=
  Portal.introduction setup.args setup.contribution setup.pick

/-- A side whose `pre_start` has just succeeded. -/
def Node.started (setup : Setup) : Node β :=
  { state := initialState setup.args setup.introduction
    sent := [.handshake (some setup.introduction)]
    nextActor := setup.actors
    life := .running, mailbox := [], rebuilding := none, receiving := true
    proxies := [], creating := [], inbox := [], channel := [], tasks := [], watchers := []
    rpcProxies := [], rebuiltPorts := [], exited := [], held := [], dropped := []
    nextPort := 0, nextMsg := 0
    replies := [], handled := [], submitted := [], spawned := [], posted := [], unserialized := []
    delivered := [] }

/-- This is the state and the wire that `pre_start` leaves. -/
theorem preStart_started (setup : Setup) : preStart setup.args setup.contribution setup.pick .flushed =
    ((Node.started (β := β) setup).sent, .ok (Node.started (β := β) setup).state) := rfl

/-! ## Labels -/

/-- What local code can ask of the portal. -/
inductive Request where
  | publishNamedActor (name : String) (actor : ActorId) (withReply : Bool)
  | publishActor (actor : ActorId) (withReply : Bool)
  | queryNamedRemoteActor (name : String)
  | waitForHandshake
  deriving DecidableEq, Repr

inductive Label (β : Type) where
  /-- the receive loop gets a frame, or the end of the stream -/
  | recv (frame : Option (ConduitMessage β))
  /-- the portal takes the next message -/
  | handle (uuid : OpaqueActorId) (nexus : Option (Option ActorId)) (sink : SinkResult)
  | rebuildRef
  | rebuildDone
  | request (request : Request)
  /-- a call of `instantiate_proxy_for_remote_actor` starts, and ends -/
  | instantiate (remote : RemoteActorId)
  | register (proxy : ActorId)
  /-- local code starts an actor, makes a reply port, lets go of one that it waits for -/
  | spawnActor
  | openPort
  | dropPort (port : PortId)
  | exit (actor : ActorId)
  | notify (actor : ActorId)
  /-- a message to a proxy, and its way to the portal -/
  | sendTo (proxy : ActorId) (body : β) (refs : List LocalRef)
  | relay (proxy : ActorId)
  | forward (proxy : ActorId)
  /-- the detached tasks -/
  | taskPublish (tag : Tag)
  | taskPublished (tag : Tag)
  | taskFail (tag : Tag)
  | taskPost (tag : Tag)
  /-- local code answers on a port, and the ways of that answer -/
  | trigger (port : PortId) (body : β) (refs : List LocalRef)
  | forwardReply (port : PortId)
  | answer (rpcProxy : ActorId)
  deriving DecidableEq, Repr

namespace Node

/-! ## Moves -/

/-- `portal.send_message(m)`. -/
def post (n : Node β) (m : PortalActorMessage β) : Node β :=
  { n with mailbox := n.mailbox ++ if n.life = .running then [m] else [] }

/-- Actors terminate; what is in their mailboxes is lost. -/
def kill (n : Node β) (actors : List ActorId) : Node β :=
  { n with
    exited := n.exited ++ actors
    inbox := n.inbox.filter fun e => e.1 ∉ actors }

/-- The portal terminates, and its children with it. -/
def halt (n : Node β) (life : Life) : Node β :=
  { n.kill (n.proxies.map Prod.fst ++ n.rpcProxies.map Prod.fst) with
    life
    mailbox := []
    rebuilding := none
    creating := [] }

/-- `FnActor::start_fn_linked` of a proxy for `remote`. -/
def spawnProxy (n : Node β) (remote : RemoteActorId) : Node β :=
  { n with
    proxies := n.proxies ++ [(n.nextActor, remote)]
    nextActor := n.nextActor + 1 }

/-- References there are. -/
def knows (n : Node β) : LocalRef → Bool
  | .actorRef actor => actor < n.nextActor
  | .replyPort _ port => port ∈ n.held

/-- The reply ports among the references of a message. -/
def portsOf (refs : List LocalRef) : List PortId :=
  refs.filterMap fun
    | .actorRef _ => none
    | .replyPort _ port => some port

/-- The reply ports that local code gets with a value that is sent on `port`: what is sent on a rebuilt port
    is forwarded. -/
def received (n : Node β) (port : PortId) (refs : List LocalRef) : List PortId :=
  if port ∈ n.rebuiltPorts.map Prod.fst then [] else portsOf refs

/-- References that local code can put into a message: each reply port is moved into it. -/
def Owned (n : Node β) (refs : List LocalRef) : Prop :=
  (∀ ref ∈ refs, n.knows ref) ∧ (portsOf refs).Nodup

instance (n : Node β) (refs : List LocalRef) : Decidable (n.Owned refs) :=
  inferInstanceAs (Decidable (_ ∧ _))

/-- What surrounds a turn of the message pump. -/
def env (n : Node β) (uuid : OpaqueActorId) (nexus : Option (Option ActorId)) (sink : SinkResult) :
    HandleEnv :=
  { uuid, nexus, sink, alive := fun port => port ∉ n.dropped }

/-- The surroundings a turn can have: the uuid is new, and the nexus answers with an actor there is. -/
def Fits (n : Node β) (uuid : OpaqueActorId) (nexus : Option (Option ActorId)) : Prop :=
  n.life = .running ∧ n.rebuilding = none ∧ n.state.publishedActors.lookup uuid = none ∧
    ∀ actor, nexus = some (some actor) → actor < n.nextActor

instance (k : Nat) (nexus : Option (Option ActorId)) :
    Decidable (∀ actor, nexus = some (some actor) → actor < k) :=
  match nexus with
  | none => isTrue (by simp)
  | some none => isTrue (by simp)
  | some (some actor) => if h : actor < k then isTrue (by simpa using h) else isFalse (by simpa using h)

instance (n : Node β) (uuid : OpaqueActorId) (nexus : Option (Option ActorId)) :
    Decidable (n.Fits uuid nexus) :=
  inferInstanceAs (Decidable (_ ∧ _ ∧ _ ∧ _))

/-- The task that is spawned for a message. -/
def immaterialization (target : RemoteActorId) (msg : Msg β) : Tag × Immaterialization β :=
  (msg.tag, { target, body := msg.body, todo := msg.refs, done := [], asked := none })

/-- The state and the effects of a turn. -/
def takeTurn (n : Node β) (m : PortalActorMessage β) (rest : List (PortalActorMessage β))
    (turn : Turn β) : Node β :=
  { n.kill turn.stopped with
    state := turn.state
    mailbox := rest
    tasks := n.tasks ++ turn.spawned.map fun s => immaterialization s.1 s.2
    watchers := n.watchers ++ turn.watched
    sent := n.sent ++ turn.frames.map fun msg => .content (some msg)
    replies := n.replies ++ turn.replies
    handled := n.handled ++ [m]
    spawned := n.spawned ++ turn.spawned.map fun s => s.2.tag }

/-- The end of a turn. -/
def endTurn (n : Node β) : Outcome β → Node β
  | .ok => n
  | .stop reason => n.halt (.stopped reason)
  | .err error => n.halt (.failed error)
  | .rematerialize actor data =>
    let r : Rebuilding β := { actor, tag := data.tag, todo := data.refs, done := [], body := data.body }
    { n with rebuilding := some r }

/-- `receive_loop`, for one item of the stream: it ends when a message cannot be sent. -/
def receive (n : Node β) : Option (ConduitMessage β) → Node β
  | some (.handshake text) => { n.post (.handshake text) with receiving := n.life = .running }
  | some (.content data) => { n.post (.content data) with receiving := n.life = .running }
  | some (.close _) => { n.post .close with receiving := false }
  | none => { n.post .close with receiving := false }

/-- The rematerializer creates and registers the proxy for a reference, and rebuilds the reference. -/
def rebuild (n : Node β) (r : Rebuilding β) (ref : RemoteRef) (todo : List RemoteRef) : Node β :=
  let proxy := n.nextActor
  let n' := (n.spawnProxy ref.id).post (.registerProxyForRemoteActor ref.id proxy)
  match ref with
  | .actorRef _ =>
    { n' with rebuilding := some { r with todo, done := r.done ++ [.actorRef proxy] } }
  | .replyPort timeoutMs _ =>
    -- `Duration::from_millis(ms as u64)`
    let timeout := timeoutMs.map fun ms => ms % 2 ^ 64 * 10 ^ 6
    { n' with
      rebuilding := some { r with todo, done := r.done ++ [.replyPort timeout n.nextPort] }
      rebuiltPorts := n.rebuiltPorts ++ [(n.nextPort, proxy)]
      nextPort := n.nextPort + 1 }

/-- The message is in the mailbox of its actor, and the handler returns. An `RpcProxyActor` keeps the reply
    ports in it for the one it stands for. -/
def handOver (n : Node β) (r : Rebuilding β) (body : β) : Node β :=
  { n with
    rebuilding := none
    held := n.held ++ if r.actor ∈ n.rpcProxies.map Prod.fst then [] else portsOf r.done
    delivered := n.delivered ++ [(r.actor, { tag := r.tag, body, refs := r.done })] }

/-- The rematerializer has its references: it decodes the rest and sends the message. -/
def deliver (n : Node β) (r : Rebuilding β) : Node β :=
  match r.body with
  | none => n.halt (.failed .rematerialize)
  | some body => if r.actor ∈ n.exited then n.halt (.failed .sendMessage) else n.handOver r body

/-- The message of a request; a reply is awaited on the next port. -/
def requestMessage (n : Node β) : Request → PortalActorMessage β
  | .publishNamedActor name actor withReply =>
    .publishNamedActor name actor (if withReply then some n.nextPort else none)
  | .publishActor actor withReply => .publishActor actor (if withReply then some n.nextPort else none)
  | .queryNamedRemoteActor name => .queryNamedRemoteActor name n.nextPort
  | .waitForHandshake => .waitForHandshake n.nextPort

def Permits (n : Node β) : Request → Prop
  | .publishNamedActor _ actor _ => actor < n.nextActor
  | .publishActor actor _ => actor < n.nextActor
  | _ => True

instance (n : Node β) (request : Request) : Decidable (n.Permits request) := by
  cases request <;> unfold Permits <;> infer_instance

/-- A message is put into the mailbox of an actor of this side. -/
def enqueue (n : Node β) (proxy : ActorId) (body : β) (refs : List LocalRef) : Node β :=
  { n with
    inbox := n.inbox ++ [(proxy, { tag := ⟨proxy, n.nextMsg⟩, body, refs })]
    submitted := n.submitted ++ [⟨proxy, n.nextMsg⟩]
    nextMsg := n.nextMsg + 1 }

/-- A task asks the portal to publish what its next reference stands for. -/
def askPublish (n : Node β) (tag : Tag) (t : Immaterialization β) (rest : Queues Tag (Immaterialization β))
    (ref : LocalRef) : Node β :=
  let n' := { n with
    tasks := rest ++ [(tag, { t with asked := some n.nextPort })]
    nextPort := n.nextPort + 1 }
  match ref with
  | .actorRef actor => n'.post (.publishActor actor (some n.nextPort))
  | .replyPort _ port =>
    -- an `RpcProxyActor` is started for the port
    let n'' := { n' with
      rpcProxies := n.rpcProxies ++ [(n.nextActor, port)]
      nextActor := n.nextActor + 1 }
    n''.post (.publishActor n.nextActor (some n.nextPort))

/-- What a reference is serialized to. -/
def serialize (n : Node β) (id : RemoteActorId) : LocalRef → RemoteRef
  | .actorRef _ => .actorRef id
  | .replyPort timeout _ =>
    .replyPort (some (timeout.getD n.state.args.defaultRpcPortTimeout / 10 ^ 6)) id

/-- The answer to a `PublishActor`. -/
def publishedAs (n : Node β) (port : PortId) : Option RemoteActorId :=
  n.replies.findSome? fun
    | (port', .published id) => if port' = port then some id else none
    | _ => none

/-- The message an `RpcProxyActor` takes. -/
def rpcMessage (n : Node β) (actor : ActorId) : Option (Msg β) :=
  (n.delivered.find? (·.1 = actor)).map Prod.snd

/-- The value that was sent on a rebuilt port. -/
def rpcReply (n : Node β) (port : PortId) : Option (β × List LocalRef) :=
  n.replies.findSome? fun
    | (port', .rpc data refs) => if port' = port then some (data, refs) else none
    | _ => none

/-! ## Steps -/

def step (l : Label β) (n : Node β) : Option (Node β) :=
  match l with
  | .recv frame => if n.receiving then some (n.receive frame) else none
  | .handle uuid nexus sink =>
    if n.Fits uuid nexus then
      match n.mailbox with
      | [] => none
      | m :: rest =>
        let turn := Portal.handle (n.env uuid nexus sink) n.state m
        some ((n.takeTurn m rest turn).endTurn turn.outcome)
    else none
  | .rebuildRef =>
    match n.rebuilding with
    | some r =>
      match r.todo with
      | ref :: todo => some (n.rebuild r ref todo)
      | [] => none
    | none => none
  | .rebuildDone =>
    match n.rebuilding with
    | some r => if r.todo = [] then some (n.deliver r) else none
    | none => none
  | .request request =>
    if n.Permits request then
      some { n.post (n.requestMessage request) with nextPort := n.nextPort + 1 }
    else none
  | .instantiate remote =>
    if n.life = .running then
      some { n.spawnProxy remote with creating := n.creating ++ [(n.nextActor, remote)] }
    else none
  | .register proxy =>
    match n.creating.dequeue proxy with
    | some (remote, rest) =>
      some ({ n with creating := rest }.post (.registerProxyForRemoteActor remote proxy))
    | none => none
  | .spawnActor => some { n with nextActor := n.nextActor + 1 }
  | .openPort => some { n with held := n.held ++ [n.nextPort], nextPort := n.nextPort + 1 }
  | .dropPort port =>
    -- what waits on the other ports is a task, which does not give up
    if port < n.nextPort ∧ (∀ t ∈ n.tasks, t.2.asked ≠ some port) ∧ port ∉ n.rebuiltPorts.map Prod.fst then
      some { n with dropped := n.dropped ++ [port] }
    else none
  | .exit actor => if actor < n.nextActor ∧ actor ∉ n.exited then some (n.kill [actor]) else none
  | .notify actor =>
    if actor ∈ n.watchers ∧ actor ∈ n.exited then
      some ({ n with watchers := n.watchers.erase actor }.post (.localActorExited actor))
    else none
  | .sendTo proxy body refs =>
    if proxy ∈ n.proxies.map Prod.fst ∧ proxy ∉ n.exited ∧ n.Owned refs then
      some ({ n with held := n.held.filter (· ∉ portsOf refs) }.enqueue proxy body refs)
    else none
  | .relay proxy =>
    match n.inbox.dequeue proxy with
    | some (msg, rest) => some { n with inbox := rest, channel := n.channel ++ [(proxy, msg)] }
    | none => none
  | .forward proxy =>
    match n.channel.dequeue proxy, n.proxies.lookup proxy with
    | some (msg, rest), some remote =>
      some ({ n with channel := rest }.post (.immaterializeMessage remote msg))
    | _, _ => none
  | .taskPublish tag =>
    match n.tasks.dequeue tag with
    | some (t, rest) =>
      match t.asked, t.todo with
      | none, ref :: _ => if n.life = .running then some (n.askPublish tag t rest ref) else none
      | _, _ => none
    | none => none
  | .taskPublished tag =>
    match n.tasks.dequeue tag with
    | some (t, rest) =>
      match t.asked.bind n.publishedAs, t.todo with
      | some id, ref :: todo =>
        some { n with tasks :=
          rest ++ [(tag, { t with todo, done := t.done ++ [n.serialize id ref], asked := none })] }
      | _, _ => none
    | none => none
  | .taskFail tag =>
    match n.tasks.dequeue tag with
    | some (_, rest) => some { n with tasks := rest, unserialized := n.unserialized ++ [tag] }
    | none => none
  | .taskPost tag =>
    match n.tasks.dequeue tag with
    | some (t, rest) =>
      if t.todo = [] then
        some ({ n with tasks := rest, posted := n.posted ++ [tag] }.post
          (.transmitMessage t.target { tag, refs := t.done, body := some t.body }))
      else none
    | none => none
  | .trigger port body refs =>
    if port ∈ n.held ∧ n.Owned refs ∧ port ∉ portsOf refs then
      some { n with
        held := (n.held.filter fun p => p ≠ port ∧ p ∉ portsOf refs) ++ n.received port refs
        replies := n.replies ++ [(port, .rpc body refs)] }
    else none
  | .forwardReply port =>
    match n.rebuiltPorts.dequeue port, n.rpcReply port with
    | some (proxy, rest), some (body, refs) =>
      -- to a proxy that is gone the task panics, and nothing else
      if proxy ∈ n.exited then some { n with rebuiltPorts := rest }
      else some ({ n with rebuiltPorts := rest }.enqueue proxy body refs)
    | _, _ => none
  | .answer actor =>
    match n.rpcProxies.lookup actor, n.rpcMessage actor with
    | some port, some msg =>
      if actor ∈ n.exited then none
      else if port ∈ n.dropped then some (n.kill [actor])
      else some { n.kill [actor] with
        held := n.held ++ n.received port msg.refs
        replies := n.replies ++ [(port, .rpc msg.body msg.refs)] }
    | _, _ => none

end Node
end Portal
end Wormhole
