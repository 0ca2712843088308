import Wormhole.Nexus.Handle
import Wormhole.Portal.Steps

/-!
# `Nexus.World` — a nexus, its portals and the local code of a process

The nexus handles messages and supervision events; every portal it has started is a `Portal.Node`, which
moves by the steps of that module, over actor ids that are drawn from one counter. A portal that leaves
`running` is reported to the nexus; when a handler of the nexus returns an error, the nexus terminates, and
all portals with it. A portal whose next message needs the registry of the nexus first posts its query and
then awaits the answer.

Assumed of ractor, besides what `Portal.Node` assumes: `spawn_linked` fails if `pre_start` does; the
supervisor gets one event for each child that terminates or fails. No order between the messages and the
events of the nexus is assumed.
-/

namespace Wormhole
namespace Nexus

open Portal

variable {β : Type}

/-! ## State -/

/-- What has become of the nexus. -/
inductive NexusLife where
  | running
  | failed (error : NexusError)
  deriving DecidableEq, Repr

structure World (β : Type) where
  /-- the nexus -/
  state : NexusActorState
  life : NexusLife
  mailbox : List NexusActorMessage
  events : List SupervisionEvent
  /-- the portals that were ever started, and those that await the answer to a query -/
  spawned : List ActorId
  node : ActorId → Option (Node β)
  asking : HashMap ActorId Receiver
  /-- the actors of the process -/
  nextActor : ActorId
  exited : List ActorId
  /-- the reply ports of the nexus, those whose receiver is gone, and the answers -/
  nextReceiver : Nat
  dropped : List Receiver
  replies : List (Receiver × NexusReply)

/-- `start_nexus`, in a process with the given number of actors. -/
def World.initial (onClientConnected : Option ActorId) (actors : Nat) : World β :=
  { state := preStart onClientConnected
    life := .running, mailbox := [], events := [], spawned := [], node := fun _ => none, asking := ∅
    nextActor := actors, exited := [], nextReceiver := 0, dropped := [], replies := [] }

/-! ## Labels -/

/-- What local code can ask of the nexus. -/
inductive NexusRequest where
  | connect (identifier : String)
  | getAllPortals
  | publishNamedActor (name : String) (actor : ActorId)
  | queryNamedActor (name : String)
  deriving DecidableEq, Repr

/-- What is drawn when the nexus handles a message, and what the sink of its connection does. -/
structure Draws where
  localId : LocalPortalId
  contribution : Vector UInt8 16
  pick : Fin 5
  sink : SinkResult
  deriving Repr

inductive WorldLabel (β : Type) where
  | request (request : NexusRequest)
  /-- local code lets go of a reply port that it waits for -/
  | dropReceiver (receiver : Receiver)
  /-- the nexus takes the next message, the next supervision event -/
  | handle (draws : Draws)
  | supervise
  /-- a portal asks the nexus for a name; any other step of its side -/
  | ask (portal : ActorId)
  | portal (portal : ActorId) (label : Label β)
  /-- local code stops or kills a portal -/
  | terminate (portal : ActorId)
  | spawnActor
  | exit (actor : ActorId)
  deriving Repr

namespace World

/-! ## Moves -/

/-- `nexus.send_message(m)`. -/
def post (w : World β) (m : NexusActorMessage) : World β :=
  { w with mailbox := w.mailbox ++ if w.life = .running then [m] else [] }

/-- The message of a request; a reply is awaited on the next port. -/
def requestMessage (w : World β) : NexusRequest → NexusActorMessage
  | .connect identifier => .connected identifier ⟨none, w.nextReceiver⟩
  | .getAllPortals => .getAllPortals ⟨none, w.nextReceiver⟩
  | .publishNamedActor name actor => .publishNamedActor name actor
  | .queryNamedActor name => .queryNamedActor name ⟨none, w.nextReceiver⟩

def Permits (w : World β) : NexusRequest → Prop
  | .publishNamedActor _ actor => actor < w.nextActor
  | _ => True

instance (w : World β) (request : NexusRequest) : Decidable (w.Permits request) := by
  cases request <;> unfold Permits <;> infer_instance

/-- What surrounds a turn of the message pump of the nexus. -/
def env (w : World β) (draws : Draws) : NexusEnv :=
  { portal := w.nextActor
    localId := draws.localId
    contribution := draws.contribution
    pick := draws.pick
    sink := draws.sink
    stopped := fun actor => actor ∈ w.exited
    alive := fun receiver => receiver ∉ w.dropped }

/-- A side with the actors that there are in the process by now. -/
def enter (w : World β) (n : Node β) : Node β :=
  { n with
    nextActor := w.nextActor
    exited := w.exited
    inbox := n.inbox.filter fun e => e.1 ∉ w.exited }

/-- What the supervisor of a portal hears of its end. -/
def report (portal : ActorId) : Life → List SupervisionEvent
  | .running => []
  | .stopped _ => [.actorTerminated portal]
  | .terminated => [.actorTerminated portal]
  | .failed error => [.actorFailed portal error]

/-- The side of a portal has moved from `n` to `n'`. -/
def leave (w : World β) (portal : ActorId) (n n' : Node β) : World β :=
  let ended := if n.life = .running then report portal n'.life else []
  { w with
    events := w.events ++ ended
    node := fun q => if q = portal then some n' else w.node q
    nextActor := n'.nextActor
    exited := n'.exited ++ ended.map (·.actor) }

/-- The nexus terminates, and its portals with their children. -/
def fail (w : World β) (error : NexusError) : World β :=
  let children := fun n : Node β => n.proxies.map Prod.fst ++ n.rpcProxies.map Prod.fst
  { w with
    life := .failed error
    mailbox := []
    events := []
    asking := ∅
    node := fun p => (w.node p).map fun n =>
      if n.life = .running then (w.enter n).halt .terminated else n
    exited := w.exited ++ w.spawned.flatMap fun p => p :: ((w.node p).map children).getD [] }

/-- The state and the effects of a turn. -/
def takeTurn (w : World β) (rest : List NexusActorMessage) (turn : NexusTurn β) : World β :=
  { w with
    state := turn.state
    mailbox := rest
    spawned := w.spawned ++ turn.spawned.map Prod.fst
    node := fun p => (turn.spawned.lookup p).or (w.node p)
    nextActor := w.nextActor + turn.spawned.length
    replies := w.replies ++ turn.replies }

/-- The end of a turn. -/
def endTurn (w : World β) : Option NexusError → World β
  | none => w
  | some error => w.fail error

/-- The name that the portal needs the nexus for, to take its next message. -/
def asks (n : Node β) : Option String :=
  match n.state.channelState, n.mailbox with
  | .opened _, .content (some (.requestActorByName _ name)) :: _ =>
    if n.state.namedActors.lookup name = none then some name else none
  | _, _ => none

/-- What a portal that takes its next message has got from the nexus: nothing if it does not need it. -/
def consulted (w : World β) (portal : ActorId) (n : Node β) : Option (Option (Option ActorId)) :=
  match asks n with
  | none => some none
  | some _ =>
    (w.asking.lookup portal).bind fun receiver =>
      w.replies.findSome? fun
        | (receiver', .namedActor result) => if receiver' = receiver then some (some result) else none
        | _ => none

/-- A step of a side. Actors are started and exit for all sides at once. -/
def movePortal (w : World β) (portal : ActorId) (n : Node β) : Label β → Option (World β)
  | .exit _ => none
  | .spawnActor => none
  | .handle uuid answer sink =>
    if w.consulted portal n = some answer then
      (Node.step (.handle uuid answer sink) (w.enter n)).map
        ({ w with asking := w.asking.erase portal }.leave portal n)
    else none
  | label => (Node.step label (w.enter n)).map (w.leave portal n)

/-! ## Steps -/

def step (l : WorldLabel β) (w : World β) : Option (World β) :=
  match l with
  | .request request =>
    if w.Permits request then
      some { w.post (w.requestMessage request) with nextReceiver := w.nextReceiver + 1 }
    else none
  | .dropReceiver receiver =>
    if receiver.holder = none ∧ receiver.number < w.nextReceiver then
      some { w with dropped := w.dropped ++ [receiver] }
    else none
  | .handle draws =>
    if w.life = .running then
      match w.mailbox with
      | [] => none
      | m :: rest =>
        let turn := handle (w.env draws) w.state m
        some ((w.takeTurn rest turn).endTurn turn.error)
    else none
  | .supervise =>
    if w.life = .running then
      match w.events with
      | [] => none
      | event :: rest => some { w with events := rest, state := handleSupervisorEvt w.state event }
    else none
  | .ask portal =>
    match w.node portal with
    | none => none
    | some n =>
      if n.life = .running ∧ n.rebuilding = none ∧ w.asking.lookup portal = none then
        (asks n).map fun name =>
          let receiver := ⟨some portal, w.nextReceiver⟩
          { w.post (.queryNamedActor name receiver) with
            asking := w.asking.insert portal receiver
            nextReceiver := w.nextReceiver + 1 }
      else none
  | .portal portal label =>
    match w.node portal with
    | none => none
    | some n => w.movePortal portal n label
  | .terminate portal =>
    match w.node portal with
    | none => none
    | some n =>
      if n.life = .running then
        -- a handler that awaits the nexus is given up
        some ({ w with
          asking := w.asking.erase portal
          dropped := w.dropped ++ (w.asking.lookup portal).toList }.leave portal n
            ((w.enter n).halt .terminated))
      else none
  | .spawnActor => some { w with nextActor := w.nextActor + 1 }
  | .exit actor =>
    if actor < w.nextActor ∧ actor ∉ w.exited ∧ w.node actor = none then
      some { w with exited := w.exited ++ [actor] }
    else none

end World
end Nexus
end Wormhole
