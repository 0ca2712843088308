import Wormhole.Portal.Node

/-!
# `Nexus.Handle` — `NexusActor::handle` and `NexusActor::handle_supervisor_evt`

The nexus supervises the portals of a process and keeps the actors that are published on all of them. As
for a portal, a handler is a function of the state and of what it reads from its surroundings, and what it
does besides is returned as data.
-/

namespace Wormhole
namespace Nexus

open Portal

variable {β : Type}

/-! ## Data -/

/-- The receiving end of a reply port: a portal awaits the answer in its handler, or local code does. -/
structure Receiver where
  holder : Option ActorId
  number : Nat
  deriving DecidableEq, Repr

/-- Messages for the nexus actor. The sink of a `Connected` is what `NexusEnv` says it makes of a frame. -/
inductive NexusActorMessage where
  | connected (identifier : String) (reply : Receiver)
  | getAllPortals (reply : Receiver)
  | publishNamedActor (name : String) (actor : ActorId)
  | queryNamedActor (name : String) (reply : Receiver)
  deriving DecidableEq, Repr

structure OnActorConnectedMessage where
  identifier : String
  actorRef : ActorId
  deriving DecidableEq, Repr

structure NexusActorState where
  onClientConnected : Option ActorId
  portals : HashMap ActorId (String × ActorId)
  namedActors : HashMap String ActorId

/-- `NexusActor::pre_start`. -/
def preStart (onClientConnected : Option ActorId) : NexusActorState :=
  { onClientConnected, portals := ∅, namedActors := ∅ }

inductive SupervisionEvent where
  | actorTerminated (actor : ActorId)
  | actorFailed (actor : ActorId) (error : HandlerError)
  deriving DecidableEq, Repr

def SupervisionEvent.actor : SupervisionEvent → ActorId
  | .actorTerminated actor => actor
  | .actorFailed actor _ => actor

/-! ## What a handler does -/

/-- What is sent on a reply port. -/
inductive NexusReply where
  | connected (portal : ActorId)
  | allPortals (portals : List ActorId)
  | namedActor (result : Option ActorId)
  deriving DecidableEq, Repr

inductive NexusEffect (β : Type) where
  /-- a portal whose `pre_start` has succeeded, linked to the nexus -/
  | spawnLinked (portal : ActorId) (node : Node β)
  | sendMessage (callback : ActorId) (message : OnActorConnectedMessage)
  | reply (receiver : Receiver) (value : NexusReply)

/-- The errors that `?` propagates out of a handler. -/
inductive NexusError where
  /-- `Actor::spawn_linked`: the `pre_start` of the portal failed -/
  | spawnLinked
  /-- `callback.send_message` to a stopped actor -/
  | sendMessage
  /-- `reply.send` on a dropped receiver -/
  | reply
  deriving DecidableEq, Repr

/-- A turn of the message pump of the nexus. -/
structure NexusTurn (β : Type) where
  state : NexusActorState
  effects : List (NexusEffect β) := []
  error : Option NexusError := none

/-- What a handler reads from its surroundings: the id, the local id, the contribution and the message that
    a new portal draws, what the sink of the connection makes of a frame, which actors are stopped, and
    which receivers of reply ports are alive. -/
structure NexusEnv where
  portal : ActorId
  localId : LocalPortalId
  contribution : Vector UInt8 16
  pick : Fin 5
  sink : SinkResult
  stopped : ActorId → Bool
  alive : Receiver → Bool

/-! ## The handlers -/

/-- `reply.send(value)?`, the last thing a handler does. -/
def replying (env : NexusEnv) (state : NexusActorState) (effects : List (NexusEffect β)) (reply : Receiver)
    (value : NexusReply) : NexusTurn β :=
  if env.alive reply then { state, effects := effects ++ [.reply reply value] }
  else { state, effects, error := some .reply }

/-- The portal for a connection. -/
def NexusEnv.setup (env : NexusEnv) (identifier : String) : Setup :=
  { args :=
      { identifier
        localId := env.localId
        defaultRpcPortTimeout := 120 * 10 ^ 9 }
    contribution := env.contribution
    pick := env.pick
    actors := env.portal + 1 }

def handleConnected (env : NexusEnv) (state : NexusActorState) (identifier : String) (reply : Receiver) :
    NexusTurn β :=
  let setup := env.setup identifier
  match (Portal.preStart (β := β) setup.args setup.contribution setup.pick env.sink).2 with
  -- `spawn_linked(…).await?`: the nexus fails with the portal
  | .error _ => { state, error := some .spawnLinked }
  | .ok _ =>
    let state' := { state with portals := state.portals.insert env.portal (identifier, env.portal) }
    let spawned := .spawnLinked env.portal (.started setup)
    match state.onClientConnected with
    | none => replying env state' [spawned] reply (.connected env.portal)
    | some callback =>
      -- `callback.send_message(…)?`, when the portal is in the table already
      if env.stopped callback then { state := state', effects := [spawned], error := some .sendMessage }
      else
        replying env state' [spawned, .sendMessage callback { identifier, actorRef := env.portal }] reply
          (.connected env.portal)

def handleGetAllPortals (env : NexusEnv) (state : NexusActorState) (reply : Receiver) : NexusTurn β :=
  replying env state [] reply (.allPortals (state.portals.entries.map (·.2.2)))

def handlePublishNamedActor (state : NexusActorState) (name : String) (actor : ActorId) : NexusTurn β :=
  -- an actor that is published again keeps its entry, any other is overwritten
  if state.namedActors.lookup name = some actor then { state }
  else { state := { state with namedActors := state.namedActors.insert name actor } }

def handleQueryNamedActor (env : NexusEnv) (state : NexusActorState) (name : String) (reply : Receiver) :
    NexusTurn β :=
  replying env state [] reply (.namedActor (state.namedActors.lookup name))

/-- `NexusActor::handle`. -/
def handle (env : NexusEnv) (state : NexusActorState) : NexusActorMessage → NexusTurn β
  | .connected identifier reply => handleConnected env state identifier reply
  | .getAllPortals reply => handleGetAllPortals env state reply
  | .publishNamedActor name actor => handlePublishNamedActor state name actor
  | .queryNamedActor name reply => handleQueryNamedActor env state name reply

/-- `NexusActor::handle_supervisor_evt`, which always returns `Ok`. -/
def handleSupervisorEvt (state : NexusActorState) (event : SupervisionEvent) : NexusActorState :=
  { state with portals := state.portals.erase event.actor }

/-! ## What a handler leaves alone, and when it returns `Ok` -/

/-- The portals that a turn starts. -/
def NexusTurn.spawned (turn : NexusTurn β) : List (ActorId × Node β) :=
  turn.effects.filterMap fun
    | .spawnLinked portal node => some (portal, node)
    | _ => none

/-- The answers that a turn gives. -/
def NexusTurn.replies (turn : NexusTurn β) : List (Receiver × NexusReply) :=
  turn.effects.filterMap fun
    | .reply receiver value => some (receiver, value)
    | _ => none

/-- Nothing stands in the way of a message: the sink takes the introduction of the portal it starts, the
    actor that is told of the portal runs, and the receiver of the answer is alive. -/
def Accepted (env : NexusEnv) (state : NexusActorState) : NexusActorMessage → Prop
  | .connected _ reply =>
    env.sink = .flushed ∧ (∀ callback, state.onClientConnected = some callback → env.stopped callback = false) ∧
      env.alive reply = true
  | .getAllPortals reply => env.alive reply = true
  | .publishNamedActor _ _ => True
  | .queryNamedActor _ reply => env.alive reply = true

section

variable {env : NexusEnv} {state : NexusActorState} {effects : List (NexusEffect β)} {reply : Receiver}
  {value : NexusReply} {identifier : String} {m : NexusActorMessage} {portal : ActorId}

@[simp] theorem replying_state : (replying env state effects reply value).state = state := by
  unfold replying
  split <;> rfl

@[simp] theorem replying_spawned :
    (replying env state effects reply value).spawned = NexusTurn.spawned { state, effects } := by
  unfold replying
  split
  · simp [NexusTurn.spawned, List.filterMap_append]
  · rfl

theorem replying_error : (replying env state effects reply value).error = none ↔ env.alive reply = true := by
  unfold replying
  split
  · rename_i halive; simp [halive]
  · rename_i hgone; simp [hgone]

/-- **A `Connected`** either finds a sink that fails, and nothing is kept, or starts a portal and enters it
    in the table before anything else can go wrong. -/
theorem handleConnected_cases (env : NexusEnv) (state : NexusActorState) (identifier : String) (reply : Receiver) :
    (env.sink ≠ .flushed ∧
      handleConnected (β := β) env state identifier reply = { state, error := some .spawnLinked }) ∨
    (env.sink = .flushed ∧
      (handleConnected (β := β) env state identifier reply).state =
        { state with portals := state.portals.insert env.portal (identifier, env.portal) } ∧
      (handleConnected (β := β) env state identifier reply).spawned =
        [(env.portal, .started (env.setup identifier))] ∧
      ((handleConnected (β := β) env state identifier reply).error = none ↔
        (∀ callback, state.onClientConnected = some callback → env.stopped callback = false) ∧
          env.alive reply = true)) := by
  unfold handleConnected
  cases hsink : env.sink with
  | refused => exact .inl ⟨nofun, rfl⟩
  | unflushed => exact .inl ⟨nofun, rfl⟩
  | flushed =>
    refine .inr ⟨rfl, ?_⟩
    simp only [Portal.preStart]
    cases hcallback : state.onClientConnected with
    | none => exact ⟨replying_state, replying_spawned, replying_error.trans (by simp)⟩
    | some callback =>
      cases hstopped : env.stopped callback with
      | true => simp [hstopped, NexusTurn.spawned]
      | false =>
        simp only [hstopped, Bool.false_eq_true, if_false]
        exact ⟨replying_state, replying_spawned, replying_error.trans (by simp [hstopped])⟩

/-- **A handler of the nexus returns `Ok` exactly for an accepted message.** -/
theorem handle_error : (handle (β := β) env state m).error = none ↔ Accepted env state m := by
  cases m with
  | connected identifier reply =>
    obtain ⟨hsink, heq⟩ | ⟨hsink, -, -, herror⟩ :=
      handleConnected_cases (β := β) env state identifier reply
    · simp [handle, heq, Accepted, hsink]
    · simp [handle, herror, Accepted, hsink]
  | publishNamedActor name actor =>
    simp only [handle, handlePublishNamedActor, Accepted]
    split <;> simp
  | getAllPortals reply => exact replying_error
  | queryNamedActor name reply => exact replying_error

/-- Only a publication changes the named actors. -/
theorem handle_namedActors (hm : ∀ name actor, m ≠ .publishNamedActor name actor) :
    (handle (β := β) env state m).state.namedActors = state.namedActors := by
  cases m with
  | connected identifier reply =>
    obtain ⟨-, heq⟩ | ⟨-, heq, -⟩ :=
      handleConnected_cases (β := β) env state identifier reply
    · simp [handle, heq]
    · simp [handle, heq]
  | publishNamedActor name actor => exact absurd rfl (hm name actor)
  | getAllPortals reply => exact congrArg _ replying_state
  | queryNamedActor name reply => exact congrArg _ replying_state

/-- **The table and the portals**: a turn starts one portal and enters it, or does neither. -/
theorem handle_portals (env : NexusEnv) (state : NexusActorState) (m : NexusActorMessage) :
    ((handle (β := β) env state m).spawned = [] ∧
      (handle (β := β) env state m).state.portals = state.portals) ∨
    ∃ identifier reply, m = .connected identifier reply ∧
      (handle (β := β) env state m).spawned = [(env.portal, .started (env.setup identifier))] ∧
      (handle (β := β) env state m).state.portals =
        state.portals.insert env.portal (identifier, env.portal) := by
  cases m with
  | connected identifier reply =>
    obtain ⟨-, heq⟩ | ⟨-, hstate, hspawned, -⟩ :=
      handleConnected_cases (β := β) env state identifier reply
    · exact .inl ⟨by rw [handle, heq]; rfl, by rw [handle, heq]⟩
    · exact .inr ⟨identifier, reply, rfl, hspawned, by rw [handle, hstate]⟩
  | publishNamedActor name actor =>
    simp only [handle, handlePublishNamedActor]
    split <;> exact .inl ⟨rfl, rfl⟩
  | getAllPortals reply => exact .inl ⟨replying_spawned, congrArg _ replying_state⟩
  | queryNamedActor name reply => exact .inl ⟨replying_spawned, congrArg _ replying_state⟩

end

end Nexus
end Wormhole
