import Wormhole.Nexus.Table
import Wormhole.Portal.Programs

/-!
# `Nexus.Waiting` — who waits for whom

A process with one nexus, in which the nexus, the portals that it starts, the proxies and `RpcProxyActor`s and
the tasks run the programs that the source gives them, for any message, in any state, with any answers at any
time. A portal has the reference to the nexus that started it, and a task that to the portal that spawned it.

A task waits for a portal, a portal for the nexus, and the nexus, a portal or a task for the start-up of what
they start; a start-up waits for a sink at most. So no processes wait for each other in a circle, whatever the
message types are: `no_wait_cycle`. The sinks do not wait for these processes.
-/

namespace Wormhole
namespace Nexus

open Portal
open Waiting (ProcessId)

variable {β : Type}

/-! ## The nexus -/

namespace Program

open Portal.Program (perform)

def handleConnected (nexus : ProcessId) (env : NexusEnv) (state : NexusActorState) (identifier : String)
    (reply : Receiver) : Portal.Program β (NexusTurn β) := do
  let setup := env.setup identifier
  match ← perform (.spawnPortal nexus setup) with
  | none => pure { state, error := some .spawnLinked }
  | some portal =>
    let turn := handleSpawned env state portal identifier reply
    pure { turn with effects := .spawnLinked portal (.started setup) :: turn.effects }

/-- `NexusActor::handle`. -/
def handle (nexus : ProcessId) (env : NexusEnv) (state : NexusActorState) :
    NexusActorMessage → Portal.Program β (NexusTurn β)
  | .connected identifier reply => handleConnected nexus env state identifier reply
  -- no `.await`
  | m => pure (Nexus.handle env state m)

/-- **The handlers are those of the nexus**, if `spawn_linked` returns what `pre_start` does. -/
theorem eval_handle {nexus : ProcessId} {env : NexusEnv} {state : NexusActorState} {answers : ∀ o : Op β, o.answer}
    (hspawn : ∀ setup : Setup, answers (.spawnPortal nexus setup) =
      match (Portal.preStart (β := β) setup.args setup.contribution setup.pick env.sink).2 with
      | .error _ => none
      | .ok _ => some env.portal) (m : NexusActorMessage) :
    (handle nexus env state m).eval answers = Nexus.handle env state m := by
  cases m with
  | connected identifier reply =>
    show (handleConnected nexus env state identifier reply).eval answers =
      Nexus.handleConnected env state identifier reply
    rw [handleConnected_eq]
    unfold handleConnected
    simp only [Async.eval_bind, Async.eval_perform, hspawn]
    cases env.sink with
    | flushed => rfl
    | unflushed => rfl
    | refused => rfl
  | getAllPortals reply => rfl
  | publishNamedActor name actor => rfl
  | queryNamedActor name reply => rfl

end Program

/-! ## The processes -/

inductive Kind (β : Type) where
  | nexus
  | portal (nexus : ProcessId)
  /-- a proxy, and the `RpcProxyActor` for a reply port -/
  | proxy
  | rpcProxy (port : PortId)
  | task (task : DetachedTask β)

/-- What is awaited at an operation. -/
def effect : Op β → Waiting.Effect (Kind β)
  | .queryNamedActor nexus _ => .reply nexus
  | .publishActor portal _ => .reply portal
  | .spawnPortal nexus _ => .start (.portal nexus)
  | .startLinked => .start .proxy
  | .spawnRpcProxy port => .start (.rpcProxy port)
  | .spawn task => .detach (.task task)
  | _ => .elsewhere

/-- What a process runs first: `pre_start`, or the whole of a task. -/
def Begins (messages : MessageType β) : Kind β → Portal.Program β Unit → Prop
  | .nexus, program => program = pure ()
  | .portal _, program => ∃ args contribution pick, program = do
      let _ ← Portal.Program.preStart args contribution pick
  | .proxy, program => program = pure ()
  | .rpcProxy _, program => program = pure ()
  | .task (.immaterialization portal timeout target msg), program =>
    program = Portal.Program.immaterialize messages portal timeout target msg
  | .task (.proxy portal remote), program => ∃ rounds, program = Portal.Program.proxyLoop portal remote rounds
  | .task (.forwarder proxy), program => program = Portal.Program.forwarder proxy
  | .task (.watcher portal actor), program => program = Portal.Program.watcher portal actor

/-- What an actor runs for a message, and for a supervision event. -/
def Handles (messages : MessageType β) : Kind β → ProcessId → Portal.Program β Unit → Prop
  | .nexus, self, program => program = pure () ∨ ∃ env state m, program = do
      let _ ← Program.handle self env state m
  | .portal nexus, self, program => program = pure () ∨ ∃ env state m,
      program = Portal.Program.serve messages nexus self env state m
  | .proxy, _, program => program = pure () ∨ ∃ msg, program = Portal.Program.handleProxy msg
  | .rpcProxy port, _, program => program = pure () ∨ ∃ rpcReplyPort msg, rpcReplyPort ∈ [none, some port] ∧
      program = Portal.Program.handleRpcProxy rpcReplyPort msg
  | .task _, _, _ => False

def behaviour (messages : MessageType β) : Waiting.Behaviour (Op β) Op.answer (Kind β) where
  effect := effect
  Begins := fun kind _ program => Begins messages kind program
  Handles := Handles messages

/-! ## The ranks -/

def Kind.rank : Kind β → Nat
  | .nexus => 1
  | .portal _ => 2
  | .proxy => 1
  | .rpcProxy _ => 1
  | .task _ => 3

/-- The processes that one of the kind asks: `state.args.parent`, and `self.connection`. -/
def Kind.Refers : Kind β → ProcessId → Prop
  | .portal parent, q => q = parent
  | .task (.immaterialization connection _ _ _), q => q = connection
  | _, _ => False

def ranking (messages : MessageType β) : Waiting.Ranking (behaviour messages) where
  rank := Kind.rank
  Refers := Kind.Refers
  pos := by
    intro kind
    cases kind <;> exact Nat.succ_pos _

section

variable {messages : MessageType β} {nexus self : ProcessId} {kind : Kind β}

/-- What a process may perform, of this or that kind. -/
abbrev Allows (messages : MessageType β) (kind : Kind β) (self : ProcessId) : Op β → Prop :=
  (ranking messages).Allows kind self

theorem sending_performs (state : PortalActorState) (effects : List (Portal.Effect β)) (msg : CrossPortalMessage β) :
    (Portal.Program.sending state effects msg).Performs (Allows messages kind self) := by
  refine Async.Performs.bind (Async.Performs.perform trivial) ?_
  intro sink
  cases sink <;> exact trivial

/-- **A portal asks the nexus that started it**, and nobody else. -/
theorem handle_performs (env : HandleEnv) (state : PortalActorState) (m : PortalActorMessage β) :
    (Portal.Program.handle nexus env state m).Performs (Allows messages (.portal nexus) self) := by
  cases m with
  | content data =>
    show (Portal.Program.handleContent nexus env state data).Performs _
    unfold Portal.Program.handleContent
    split
    · unfold Portal.Program.handleRequestActorByName
      split
      · exact sending_performs _ _ _
      · refine Async.Performs.bind (Async.Performs.perform rfl) ?_
        rintro (_ | _ | actor)
        · exact trivial
        · exact sending_performs _ _ _
        · exact sending_performs _ _ _
    · exact trivial
  | queryNamedRemoteActor name reply =>
    show (Portal.Program.handleQueryNamedRemoteActor state name reply).Performs _
    unfold Portal.Program.handleQueryNamedRemoteActor
    split
    · exact trivial
    · exact sending_performs _ _ _
  | transmitMessage target bytes =>
    show (Portal.Program.handleTransmitMessage state target bytes).Performs _
    unfold Portal.Program.handleTransmitMessage
    split
    · exact trivial
    · exact sending_performs _ _ _
  | localActorExited actor =>
    show (Portal.Program.handleLocalActorExited state actor).Performs _
    unfold Portal.Program.handleLocalActorExited
    split
    · exact trivial
    · split
      · exact trivial
      · exact sending_performs _ _ _
  | handshake text => exact trivial
  | close => exact trivial
  | waitForHandshake reply => exact trivial
  | publishNamedActor name actor reply => exact trivial
  | publishActor actor reply => exact trivial
  | immaterializeMessage target msg => exact trivial
  | registerProxyForRemoteActor id actor => exact trivial

/-- A process that refers to nobody can be started by any other. -/
theorem gives_of_none {new : Kind β} (hnone : ∀ q, ¬new.Refers q) : (ranking messages).Gives kind self new :=
  fun q hq => absurd hq (hnone q)

theorem instantiateProxy_performs (remote : RemoteActorId) :
    (Portal.Program.instantiateProxyForRemoteActor self remote).Performs (Allows messages (.portal nexus) self) := by
  have hstart : Allows messages (.portal nexus) self .startLinked := by
    refine ⟨gives_of_none fun _ => id, ?_⟩
    rintro c program rfl
    exact trivial
  refine Async.Performs.bind (Async.Performs.perform hstart) ?_
  rintro (_ | proxy)
  · exact trivial
  · refine Async.Performs.bind (Async.Performs.perform (gives_of_none fun _ => id)) fun _ => ?_
    refine Async.Performs.bind (Async.Performs.perform trivial) fun sent => ?_
    exact trivial

theorem rematerializeRef_performs (o : RematerializeOp) :
    (Portal.Program.rematerializeRef self o).Performs (Allows messages (.portal nexus) self) := by
  cases o with
  | actorRef remote => exact Async.Performs.bind (instantiateProxy_performs remote) fun _ => trivial
  | replychannel timeoutMs remote =>
    refine Async.Performs.bind (instantiateProxy_performs remote) ?_
    rintro (_ | proxy)
    · exact trivial
    · refine Async.Performs.bind (Async.Performs.perform trivial) fun port => ?_
      refine Async.Performs.bind (Async.Performs.perform (gives_of_none fun _ => id)) fun _ => ?_
      exact trivial

/-- **Whatever a message is made of, decoding it asks nobody**: it starts proxies. -/
theorem rematerialize_performs (actor : ActorId) (data : Payload β) :
    (Portal.Program.rematerialize messages self actor data).Performs (Allows messages (.portal nexus) self) := by
  refine Async.Performs.bind (Async.Performs.interpret _ rematerializeRef_performs) ?_
  rintro (_ | ⟨body, refs⟩)
  · exact trivial
  · exact Async.Performs.bind (Async.Performs.perform trivial) fun _ => trivial

theorem spawning_performs (state : PortalActorState) (effects : List (Portal.Effect β)) :
    (Portal.Program.spawning self state effects).Performs (Allows messages (.portal nexus) self) := by
  induction effects with
  | nil => exact trivial
  | cons effect effects ih =>
    cases effect with
    | spawn target msg =>
      have hgives : Allows messages (.portal nexus) self
          (.spawn (.immaterialization self state.args.defaultRpcPortTimeout target msg)) :=
        fun q hq => Or.inl ⟨hq, Nat.lt_succ_self _⟩
      exact Async.Performs.bind (Async.Performs.perform hgives) fun _ => ih
    | watch actor =>
      exact Async.Performs.bind (Async.Performs.perform (gives_of_none fun _ => id)) fun _ => ih
    | send msg => exact ih
    | reply port value => exact ih
    | stop actor => exact ih

theorem serve_performs (env : HandleEnv) (state : PortalActorState) (m : PortalActorMessage β) :
    (Portal.Program.serve messages nexus self env state m).Performs (Allows messages (.portal nexus) self) := by
  refine Async.Performs.bind (handle_performs env state m) fun turn => ?_
  refine Async.Performs.bind (spawning_performs _ _) fun _ => ?_
  cases turn.outcome with
  | rematerialize actor data => exact rematerialize_performs actor data
  | ok => exact trivial
  | stop reason => exact trivial
  | err error => exact trivial

/-- **Whatever a message is made of, encoding it asks the portal of the task**, and nobody else. -/
theorem immaterialize_performs {portal : ProcessId} (timeout : Duration) (target : RemoteActorId) (msg : Msg β) :
    (Portal.Program.immaterialize messages portal timeout target msg).Performs
      (Allows messages (.task (.immaterialization portal timeout target msg)) self) := by
  refine Async.Performs.bind (Async.Performs.interpret _ ?_) ?_
  · intro o
    cases o with
    | actorRef actor => exact Async.Performs.bind (Async.Performs.perform rfl) fun _ => trivial
    | replychannel rpcTimeout port =>
      have hstart : Allows messages (.task (.immaterialization portal timeout target msg)) self
          (.spawnRpcProxy port) := by
        refine ⟨gives_of_none fun _ => id, ?_⟩
        rintro c program rfl
        exact trivial
      refine Async.Performs.bind (Async.Performs.perform hstart) ?_
      rintro (_ | localActor)
      · exact trivial
      · exact Async.Performs.bind (Async.Performs.perform rfl) fun _ => trivial
  · rintro (_ | bytes)
    · exact trivial
    · exact Async.Performs.bind (Async.Performs.perform trivial) fun _ => trivial

theorem proxyLoop_performs (portal : ProcessId) (remote : RemoteActorId) (rounds : Nat) :
    (Portal.Program.proxyLoop portal remote rounds).Performs (Allows messages kind self) := by
  induction rounds with
  | zero => exact trivial
  | succ rounds ih =>
    refine Async.Performs.bind (Async.Performs.perform trivial) ?_
    rintro (_ | msg)
    · exact trivial
    · exact Async.Performs.bind (Async.Performs.perform trivial) fun _ => ih

/-- The start-up of a portal waits for the sink. -/
theorem preStart_performs {P : Op β → Prop} (hsend : ∀ m, P (.send m)) (args : PortalActorArgs)
    (contribution : Vector UInt8 16) (pick : Fin 5) :
    (Portal.Program.preStart (β := β) args contribution pick).Performs P := by
  refine Async.Performs.bind (Async.Performs.perform (hsend _)) ?_
  intro sink
  cases sink <;> exact trivial

/-- **The nexus asks nobody**: it waits for the start-up of a portal. -/
theorem nexus_performs (env : NexusEnv) (state : NexusActorState) (m : NexusActorMessage) :
    (Program.handle self env state m).Performs (Allows messages .nexus self) := by
  cases m with
  | connected identifier reply =>
    have hstart : Allows messages .nexus self (.spawnPortal self (env.setup identifier)) := by
      refine ⟨fun q hq => Or.inl ⟨hq, Nat.lt_succ_self _⟩, ?_⟩
      rintro c program ⟨args, contribution, pick, rfl⟩
      exact Async.Performs.bind (preStart_performs (fun _ => rfl) args contribution pick) fun _ => trivial
    refine Async.Performs.bind (Async.Performs.perform hstart) ?_
    rintro (_ | portal)
    · exact trivial
    · exact trivial
  | getAllPortals reply => exact trivial
  | publishNamedActor name actor => exact trivial
  | queryNamedActor name reply => exact trivial

theorem respected (messages : MessageType β) : (ranking messages).Respected where
  begins := by
    intro kind self program hbegins
    cases kind with
    | nexus =>
      obtain rfl := hbegins
      exact trivial
    | portal nexus =>
      obtain ⟨args, contribution, pick, rfl⟩ := hbegins
      exact Async.Performs.bind (preStart_performs (fun _ => trivial) args contribution pick) fun _ => trivial
    | proxy =>
      obtain rfl := hbegins
      exact trivial
    | rpcProxy port =>
      obtain rfl := hbegins
      exact trivial
    | task task =>
      cases task with
      | immaterialization portal timeout target msg =>
        obtain rfl := hbegins
        exact immaterialize_performs timeout target msg
      | proxy portal remote =>
        obtain ⟨rounds, rfl⟩ := hbegins
        exact proxyLoop_performs portal remote rounds
      | forwarder proxy =>
        obtain rfl := hbegins
        refine Async.Performs.bind (Async.Performs.perform trivial) ?_
        rintro (_ | ⟨body, refs⟩)
        · exact trivial
        · exact Async.Performs.bind (Async.Performs.perform trivial) fun _ => trivial
      | watcher portal actor =>
        obtain rfl := hbegins
        refine Async.Performs.bind (Async.Performs.perform trivial) fun _ => ?_
        exact Async.Performs.bind (Async.Performs.perform trivial) fun _ => trivial
  handles := by
    intro kind self program hhandles
    cases kind with
    | nexus =>
      obtain rfl | ⟨env, state, m, rfl⟩ := hhandles
      · exact trivial
      · exact Async.Performs.bind (nexus_performs env state m) fun _ => trivial
    | portal nexus =>
      obtain rfl | ⟨env, state, m, rfl⟩ := hhandles
      · exact trivial
      · exact serve_performs env state m
    | proxy =>
      obtain rfl | ⟨msg, rfl⟩ := hhandles
      · exact trivial
      · exact Async.Performs.bind (Async.Performs.perform trivial) fun _ => trivial
    | rpcProxy port =>
      obtain rfl | ⟨rpcReplyPort, msg, -, rfl⟩ := hhandles
      · exact trivial
      · cases rpcReplyPort with
        | none => exact trivial
        | some port => exact Async.Performs.bind (Async.Performs.perform trivial) fun _ => trivial
    | task task => exact hhandles.elim

end

/-! ## No circle -/

/-- What can be reached when the nexus has started. -/
def Reachable (messages : MessageType β) (s : Waiting.System (Op β) Op.answer (Kind β)) : Prop :=
  Waiting.Reachable (behaviour messages) (.single .nexus) s

/-- `p` awaits the reply or the start-up of `q`. -/
def Awaits (messages : MessageType β) (s : Waiting.System (Op β) Op.answer (Kind β)) (p q : ProcessId) : Prop :=
  Waiting.Awaits (behaviour messages) s p q

theorem invariant_of_reachable {messages : MessageType β} {s : Waiting.System (Op β) Op.answer (Kind β)}
    (hreach : Reachable messages s) : (ranking messages).Invariant s :=
  .of_reachable (respected messages) (Waiting.Ranking.invariant_single _ fun _ => id) hreach

/-- **No processes wait for each other in a circle**, whatever the messages are made of. No handler awaits a
    reply from its own mailbox, and no portal that awaits the nexus is awaited by it. -/
theorem no_wait_cycle {messages : MessageType β} {s : Waiting.System (Op β) Op.answer (Kind β)}
    (hreach : Reachable messages s) :
    (∀ p, ¬Relation.TransGen (Awaits messages s) p p) ∧
      (∀ p, ¬Awaits messages s p p) ∧
      ∀ nexus portal, Awaits messages s portal nexus → ¬Awaits messages s nexus portal := by
  have hacyclic := (invariant_of_reachable hreach).acyclic
  refine ⟨hacyclic, ?_, ?_⟩
  · intro p hself
    exact hacyclic p (.single hself)
  · intro nexus portal hportal hnexus
    exact hacyclic portal (.tail (.single hportal) hnexus)

/-! ## A chain of three -/

/-- Messages of one actor reference. -/
def reference : MessageType Unit where
  rematerialize := fun _ => pure none
  immaterialize := fun msg => do
    let published ← Async.perform (.actorRef msg.tag.number)
    pure (published.map fun ref => { tag := msg.tag, refs := [ref], body := some () })

/-- The surroundings of a turn of the nexus, and of a portal that has just opened. -/
def quietNexus : NexusEnv where
  portal := 1
  localId := ⟨0⟩
  contribution := Vector.replicate 16 0
  pick := 0
  sink := .flushed
  stopped := fun _ => false
  alive := fun _ => true

def quietPortal : HandleEnv where
  uuid := ⟨0⟩
  nexus := none
  sink := .flushed
  alive := fun _ => true

def openedState : PortalActorState :=
  { initialState (quietNexus.setup "peer").args (quietNexus.setup "peer").introduction with
    channelState := .opened ⟨0⟩ }

/-- The nexus starts a portal, which spawns a task and then has to answer a query. The task asks the portal to
    publish an actor, the portal asks the nexus for a name, and the nexus is busy with the next connection. -/
theorem exists_chain : ∃ s, Reachable reference s ∧
    Awaits reference s 2 1 ∧ Awaits reference s 1 0 ∧ Awaits reference s 0 3 := by
  have hconnect : Handles reference .nexus 0 (do
      let _ ← Program.handle 0 quietNexus (preStart none) (.connected "peer" ⟨none, 0⟩)) :=
    .inr ⟨_, _, _, rfl⟩
  have hportal : Begins reference (.portal 0) (do
      let _ ← Portal.Program.preStart (quietNexus.setup "peer").args quietNexus.contribution 0) :=
    ⟨_, _, _, rfl⟩
  have hspawn : Handles reference (.portal 0) 1 (Portal.Program.serve reference 0 1 quietPortal openedState
      (.immaterializeMessage ⟨⟨0⟩, ⟨1⟩, ⟨0⟩⟩ { tag := ⟨4, 5⟩, body := (), refs := [.actorRef 5] })) :=
    .inr ⟨_, _, _, rfl⟩
  have hquery : Handles reference (.portal 0) 1 (Portal.Program.serve reference 0 1 quietPortal openedState
      (.content (some (.requestActorByName 7 "printer")))) :=
    .inr ⟨_, _, _, rfl⟩
  have h₁ : Reachable reference _ := .tail .refl (.handle (p := 0) rfl rfl rfl hconnect)
  have h₂ := h₁.tail (.start (p := 0) rfl rfl rfl rfl hportal)
  have h₃ := h₂.tail (.answered (p := 1) SinkResult.flushed rfl rfl (.inl rfl))
  have h₄ := h₃.tail (.started (p := 0) (some 1) rfl rfl rfl rfl rfl)
  have h₅ := h₄.tail (.returned (p := 0) rfl rfl rfl)
  have h₆ := h₅.tail (.handle (p := 1) rfl rfl rfl hspawn)
  have h₇ := h₆.tail (.detach (p := 1) () rfl rfl rfl rfl)
  have h₈ := h₇.tail (.returned (p := 1) rfl rfl rfl)
  have h₉ := h₈.tail (.handle (p := 1) rfl rfl rfl hquery)
  have h₁₀ := h₉.tail (.handle (p := 0) rfl rfl rfl hconnect)
  have h₁₁ := h₁₀.tail (.start (p := 0) rfl rfl rfl rfl hportal)
  refine ⟨_, h₁₁, ?_, ?_, ?_⟩
  · exact ⟨_, rfl, .inl ⟨_, _, rfl, rfl⟩⟩
  · exact ⟨_, rfl, .inl ⟨_, _, rfl, rfl⟩⟩
  · exact ⟨_, rfl, .inr rfl⟩

/-- None of them waits for itself through the others. -/
theorem no_wait_cycle_chain : ∃ s, Awaits reference s 2 1 ∧ Awaits reference s 1 0 ∧ Awaits reference s 0 3 ∧
    ∀ p, ¬Relation.TransGen (Awaits reference s) p p := by
  obtain ⟨s, hreach, htask, hportal, hnexus⟩ := exists_chain
  exact ⟨s, htask, hportal, hnexus, (no_wait_cycle hreach).1⟩

end Nexus
end Wormhole
