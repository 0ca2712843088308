import Wormhole.Nexus.Steps

/-!
# `Nexus.Table` — the table of portals, under every interleaving

In `Nexus.World` the handler of a `Connected` is one step. Here it is three: the nexus takes the message and
calls `spawn_linked`; `pre_start` of the portal ends; the rest of the handler enters the portal in the table.
Between them everything else moves, the new portal included, so that it may be dead before it is entered.
While the handler is suspended the nexus takes no message, and hears of no end.

`supervised` is a history: the portals whose termination or failure the nexus has handled.
-/

namespace Wormhole
namespace Nexus

open Portal

variable {β : Type}

/-! ## The handler, cut at its await -/

/-- The part of `handleConnected` that runs when `spawn_linked` has returned `portal`. -/
def handleSpawned (env : NexusEnv) (state : NexusActorState) (portal : ActorId) (identifier : String)
    (reply : Receiver) : NexusTurn β :=
  let state' := { state with portals := state.portals.insert portal (identifier, portal) }
  match state.onClientConnected with
  | none => replying env state' [] reply (.connected portal)
  | some callback =>
    if env.stopped callback then { state := state', error := some .sendMessage }
    else replying env state' [.sendMessage callback { identifier, actorRef := portal }] reply (.connected portal)

/-- **The two parts make up the handler.** -/
theorem handleConnected_eq (env : NexusEnv) (state : NexusActorState) (identifier : String) (reply : Receiver) :
    handleConnected (β := β) env state identifier reply =
      let setup := env.setup identifier
      match (Portal.preStart (β := β) setup.args setup.contribution setup.pick env.sink).2 with
      | .error _ => { state, error := some .spawnLinked }
      | .ok _ =>
        let turn := handleSpawned env state env.portal identifier reply
        { turn with effects := .spawnLinked env.portal (.started setup) :: turn.effects } := by
  unfold handleConnected handleSpawned
  cases hsink : env.sink with
  | refused => rfl
  | unflushed => rfl
  | flushed =>
    simp only [Portal.preStart, replying]
    cases state.onClientConnected with
    | none => dsimp only; split <;> rfl
    | some callback => dsimp only; split <;> [rfl; split <;> rfl]

/-- Where the handler of the nexus stands. -/
inductive Phase where
  /-- between two messages -/
  | idle
  /-- `Actor::spawn_linked` is awaited -/
  | starting (portal : ActorId) (draws : Draws) (identifier : String) (reply : Receiver)
  /-- it has returned, and the handler is yet to go on -/
  | spawned (portal : ActorId) (draws : Draws) (identifier : String) (reply : Receiver)

/-- The id of the portal that is being started. -/
def Phase.reserved : Phase → Option ActorId
  | .starting portal _ _ _ => some portal
  | _ => none

/-- The portal that the handler is about to enter in the table. -/
def Phase.entering : Phase → Option ActorId
  | .spawned portal _ _ _ => some portal
  | _ => none

theorem Phase.eq_idle {phase : Phase} (hreserved : phase.reserved = none) (hentering : phase.entering = none) :
    phase = .idle := by
  cases phase with
  | idle => rfl
  | starting => cases hreserved
  | spawned => cases hentering

structure Interleaved (β : Type) where
  world : World β
  phase : Phase
  supervised : List ActorId

inductive InterleavedLabel (β : Type) where
  /-- the nexus takes the next message -/
  | take (draws : Draws)
  /-- `pre_start` of the portal that is being started returns; the handler goes on -/
  | start
  | finish
  | supervise
  /-- what else happens in the process -/
  | other (label : WorldLabel β)
  deriving Repr

namespace Interleaved

def initial (onClientConnected : Option ActorId) (actors : Nat) : Interleaved β :=
  { world := .initial onClientConnected actors, phase := .idle, supervised := [] }

/-- The portal `p` runs: it is linked to the nexus. -/
def spawn (w : World β) (portal : ActorId) (n : Node β) : World β :=
  { w with
    spawned := w.spawned ++ [portal]
    node := fun p => if p = portal then some n else w.node p }

/-- The steps that are not the nexus's own. While a portal is being started nobody has a reference to it. -/
def Elsewhere (s : Interleaved β) : WorldLabel β → Prop
  | .handle _ => False
  | .supervise => False
  | .exit actor => s.phase.reserved ≠ some actor
  | _ => True

instance (s : Interleaved β) (label : WorldLabel β) : Decidable (s.Elsewhere label) :=
  match label with
  | .handle _ => isFalse id
  | .supervise => isFalse id
  | .exit actor => inferInstanceAs (Decidable (s.phase.reserved ≠ some actor))
  | .request _ => isTrue trivial
  | .dropReceiver _ => isTrue trivial
  | .ask _ => isTrue trivial
  | .portal _ _ => isTrue trivial
  | .terminate _ => isTrue trivial
  | .spawnActor => isTrue trivial

def step (l : InterleavedLabel β) (s : Interleaved β) : Option (Interleaved β) :=
  match l, s.phase with
  | .take draws, .idle =>
    if s.world.life = .running then
      match s.world.mailbox with
      | .connected identifier reply :: rest =>
        some { s with
          world := { s.world with mailbox := rest, nextActor := s.world.nextActor + 1 }
          phase := .starting s.world.nextActor draws identifier reply }
      | _ => (World.step (.handle draws) s.world).map fun w => { s with world := w }
    else none
  | .start, .starting portal draws identifier reply =>
    let env := { s.world.env draws with portal }
    let setup := env.setup identifier
    match (Portal.preStart (β := β) setup.args setup.contribution setup.pick env.sink).2 with
    | .error _ => some { s with world := s.world.fail .spawnLinked, phase := .idle }
    | .ok _ =>
      some { s with
        world := spawn s.world portal (.started setup)
        phase := .spawned portal draws identifier reply }
  | .finish, .spawned portal draws identifier reply =>
    let turn := handleSpawned (s.world.env draws) s.world.state portal identifier reply
    some { s with world := (s.world.takeTurn s.world.mailbox turn).endTurn turn.error, phase := .idle }
  | .supervise, .idle =>
    (World.step .supervise s.world).map fun w =>
      { s with world := w, supervised := s.supervised ++ (s.world.events.take 1).map (·.actor) }
  | .other label, _ =>
    if s.Elsewhere label then (World.step label s.world).map fun w => { s with world := w } else none
  | _, _ => none

/-! ## What a step can do -/

section

variable {s s' : Interleaved β} {w w' : World β}

/-- What the portals, the events, the table and the nexus are made of is the same. -/
structure Same (w w' : World β) : Prop where
  node : w'.node = w.node
  events : w'.events = w.events
  portals : w'.state.portals = w.state.portals
  spawned : w'.spawned = w.spawned
  life : w'.life = w.life
  nextActor : w.nextActor ≤ w'.nextActor

/-- **Elsewhere** nothing happens to the portals, or one of them moves. -/
theorem other_inv {label : WorldLabel β} (hhandle : ∀ draws, label ≠ .handle draws) (hsupervise : label ≠ .supervise)
    (h : World.step label w = some w') :
    Same w w' ∨ ∃ portal n n' v, Same w v ∧ v.node portal = some n ∧
      (n'.life = .running → n.life = .running) ∧ v.nextActor ≤ n'.nextActor ∧ w' = v.leave portal n n' := by
  cases label with
  | request r =>
    obtain ⟨-, rfl⟩ := World.request_inv h
    exact .inl ⟨rfl, rfl, rfl, rfl, rfl, Nat.le_refl _⟩
  | dropReceiver receiver =>
    obtain ⟨-, rfl⟩ := World.dropReceiver_inv h
    exact .inl ⟨rfl, rfl, rfl, rfl, rfl, Nat.le_refl _⟩
  | handle draws => exact absurd rfl (hhandle draws)
  | supervise => exact absurd rfl hsupervise
  | ask portal =>
    obtain ⟨n, name, -, -, rfl⟩ := World.ask_inv h
    exact .inl ⟨rfl, rfl, rfl, rfl, rfl, Nat.le_refl _⟩
  | portal portal label =>
    obtain ⟨n, n', asking, hnode, hmove, rfl⟩ := World.portal_leaves h
    have hlife : n'.life = .running → (w.enter n).life = .running := Node.life_of_step hmove
    exact .inr ⟨portal, n, n', { w with asking }, ⟨rfl, rfl, rfl, rfl, rfl, Nat.le_refl _⟩, hnode, hlife,
      Node.nextActor_le_of_step hmove, rfl⟩
  | terminate portal =>
    obtain ⟨n, hnode, -, rfl⟩ := World.terminate_inv h
    exact .inr ⟨portal, n, (w.enter n).halt .terminated,
      { w with asking := w.asking.erase portal, dropped := w.dropped ++ (w.asking.lookup portal).toList },
      ⟨rfl, rfl, rfl, rfl, rfl, Nat.le_refl _⟩, hnode, by rintro ⟨⟩, Nat.le_refl _, rfl⟩
  | spawnActor =>
    cases h
    exact .inl ⟨rfl, rfl, rfl, rfl, rfl, Nat.le_succ _⟩
  | exit actor =>
    obtain ⟨-, rfl⟩ := World.exit_inv h
    exact .inl ⟨rfl, rfl, rfl, rfl, rfl, Nat.le_refl _⟩

/-- A turn on a message that is no `Connected` leaves portals, events and table alone. -/
theorem same_takeTurn {draws : Draws} {m : NexusActorMessage} {rest : List NexusActorMessage}
    (hm : ∀ identifier reply, m ≠ .connected identifier reply) :
    Same w (w.takeTurn rest (handle (w.env draws) w.state m)) := by
  obtain ⟨hspawned, hportals⟩ | ⟨identifier, reply, heq, -⟩ :=
    handle_portals (β := β) (w.env draws) w.state m
  · constructor
    · funext p
      simp [World.takeTurn, hspawned]
    · rfl
    · exact hportals
    · simp [World.takeTurn, hspawned]
    · rfl
    · exact Nat.le_add_right _ _
  · exact absurd heq (hm identifier reply)

@[simp] theorem handleSpawned_portals (env : NexusEnv) (state : NexusActorState) (portal : ActorId)
    (identifier : String) (reply : Receiver) :
    (handleSpawned (β := β) env state portal identifier reply).state.portals =
      state.portals.insert portal (identifier, portal) := by
  unfold handleSpawned
  dsimp only
  split
  · rw [replying_state]
  · split
    · rfl
    · rw [replying_state]

@[simp] theorem handleSpawned_spawned (env : NexusEnv) (state : NexusActorState) (portal : ActorId)
    (identifier : String) (reply : Receiver) :
    (handleSpawned (β := β) env state portal identifier reply).spawned = [] := by
  unfold handleSpawned
  dsimp only
  split
  · exact replying_spawned
  · split
    · rfl
    · exact replying_spawned

/-- What a step can be: the nexus takes a `Connected` or any other message, a portal that is being started
    fails or runs, the handler goes on, an event is handled; or it is somebody else's. -/
inductive Moves (s : Interleaved β) : Interleaved β → Prop where
  | connected (draws : Draws) (identifier : String) (reply : Receiver) (rest : List NexusActorMessage)
      (hidle : s.phase = .idle) :
    Moves s { s with
      world := { s.world with mailbox := rest, nextActor := s.world.nextActor + 1 }
      phase := .starting s.world.nextActor draws identifier reply }
  | turn (draws : Draws) (m : NexusActorMessage) (rest : List NexusActorMessage) (hidle : s.phase = .idle)
      (hm : ∀ identifier reply, m ≠ .connected identifier reply) (turn : NexusTurn β)
      (hturn : handle (s.world.env draws) s.world.state m = turn) :
    Moves s { s with world := (s.world.takeTurn rest turn).endTurn turn.error }
  | startFails :
    Moves s { s with world := s.world.fail .spawnLinked, phase := .idle }
  | started (portal : ActorId) (draws : Draws) (identifier : String) (reply : Receiver) (setup : Setup)
      (hphase : s.phase = .starting portal draws identifier reply) :
    Moves s { s with
      world := spawn s.world portal (.started setup), phase := .spawned portal draws identifier reply }
  | finished (portal : ActorId) (draws : Draws) (identifier : String) (reply : Receiver)
      (hphase : s.phase = .spawned portal draws identifier reply) (turn : NexusTurn β)
      (hturn : handleSpawned (s.world.env draws) s.world.state portal identifier reply = turn) :
    Moves s { s with world := (s.world.takeTurn s.world.mailbox turn).endTurn turn.error, phase := .idle }
  | supervised (event : SupervisionEvent) (rest : List SupervisionEvent) (hidle : s.phase = .idle)
      (hevents : s.world.events = event :: rest) :
    Moves s { s with
      world := { s.world with events := rest, state := handleSupervisorEvt s.world.state event }
      supervised := s.supervised ++ [event.actor] }
  | other (label : WorldLabel β) (w : World β) (helse : s.Elsewhere label)
      (hmove : World.step label s.world = some w) :
    Moves s { s with world := w }

theorem moves_of_step {l : InterleavedLabel β} (h : step l s = some s') : Moves s s' := by
  obtain ⟨w, phase, supervised⟩ := s
  cases l with
  | take draws =>
    cases phase with
    | idle =>
      simp only [step] at h
      split at h
      · split at h
        · rename_i identifier reply rest _
          cases h
          exact .connected draws identifier reply rest rfl
        · rename_i hother
          obtain ⟨w', hstep, rfl⟩ := Option.map_eq_some_iff.mp h
          obtain ⟨-, m, rest, hmail, rfl⟩ := World.handle_inv hstep
          refine .turn draws m rest rfl ?_ _ rfl
          rintro identifier reply rfl
          exact hother identifier reply rest hmail
      · cases h
    | starting => cases h
    | spawned => cases h
  | start =>
    cases phase with
    | starting portal draws identifier reply =>
      simp only [step] at h
      split at h
      · cases h
        exact .startFails
      · cases h
        exact .started portal draws identifier reply _ rfl
    | idle => cases h
    | spawned => cases h
  | finish =>
    cases phase with
    | spawned portal draws identifier reply =>
      cases h
      exact .finished portal draws identifier reply rfl _ rfl
    | idle => cases h
    | starting => cases h
  | supervise =>
    cases phase with
    | idle =>
      obtain ⟨w', hstep, rfl⟩ := Option.map_eq_some_iff.mp h
      obtain ⟨-, event, rest, hevents, rfl⟩ := World.supervise_inv hstep
      dsimp only
      rw [hevents]
      exact .supervised event rest rfl hevents
    | starting => cases h
    | spawned => cases h
  | other label =>
    simp only [step] at h
    split at h
    · rename_i helse
      obtain ⟨w', hstep, rfl⟩ := Option.map_eq_some_iff.mp h
      exact .other label w' helse hstep
    · cases h

end

/-! ## The atomic handler -/

section

variable {w w' : World β}

theorem running_of_endTurn {error : Option NexusError} (h : (w.endTurn error).life = .running) : error = none := by
  cases error with
  | none => rfl
  | some error => cases h

theorem takeTurn_spawnLinked {turn : NexusTurn β} (hturn : turn.spawned = []) (rest : List NexusActorMessage)
    (n : Node β) :
    w.takeTurn rest { turn with effects := .spawnLinked w.nextActor n :: turn.effects } =
      (spawn { w with mailbox := rest, nextActor := w.nextActor + 1 } w.nextActor n).takeTurn rest turn := by
  have hspawned : NexusTurn.spawned { turn with effects := .spawnLinked w.nextActor n :: turn.effects } =
      [(w.nextActor, n)] := congrArg (_ :: ·) hturn
  have hreplies : NexusTurn.replies { turn with effects := .spawnLinked w.nextActor n :: turn.effects } =
      turn.replies := rfl
  unfold World.takeTurn
  rw [hspawned, hreplies, hturn]
  have hnode : (fun p => (List.lookup p [(w.nextActor, n)]).or (w.node p)) =
      fun p => (List.lookup p []).or (if p = w.nextActor then some n else w.node p) := by
    funext p
    by_cases hp : p = w.nextActor
    · simp [hp]
    · simp [List.lookup_cons, hp, beq_false_of_ne hp]
  simp only [hnode, spawn, List.map_cons, List.map_nil, List.append_nil, List.length_cons, List.length_nil]

/-- **What the whole handler of a `Connected` does is what its two parts do.** -/
theorem takeTurn_handleConnected {draws : Draws} (hsink : draws.sink = .flushed) (identifier : String)
    (reply : Receiver) (rest : List NexusActorMessage) :
    w.takeTurn rest (handleConnected (w.env draws) w.state identifier reply) =
      let v := spawn { w with mailbox := rest, nextActor := w.nextActor + 1 } w.nextActor
        (.started ((w.env draws).setup identifier))
      v.takeTurn rest (handleSpawned (v.env draws) v.state w.nextActor identifier reply) := by
  rw [handleConnected_eq]
  simp only [Portal.preStart, World.env, hsink]
  exact takeTurn_spawnLinked (handleSpawned_spawned _ _ _ _ _) rest _

/-- A `Connected` that is accepted, in three steps. -/
theorem run_connected {draws : Draws} {identifier : String} {reply : Receiver} {rest : List NexusActorMessage}
    (hlife : w.life = .running) (hmail : w.mailbox = .connected identifier reply :: rest)
    (herror : (handleConnected (β := β) (w.env draws) w.state identifier reply).error = none)
    (supervised : List ActorId) :
    Transition.Run step Transition.Any [.take draws, .start, .finish] { world := w, phase := .idle, supervised }
      { world := w.takeTurn rest (handleConnected (w.env draws) w.state identifier reply)
        phase := .idle, supervised } := by
  have hsink : draws.sink = .flushed := by
    obtain ⟨-, heq⟩ | ⟨hsink, -⟩ := handleConnected_cases (β := β) (w.env draws) w.state identifier reply
    · rw [heq] at herror
      cases herror
    · exact hsink
  have hrest : (handleSpawned (β := β) (w.env draws) w.state w.nextActor identifier reply).error = none := by
    rw [handleConnected_eq] at herror
    simp only [Portal.preStart, World.env, hsink] at herror
    exact herror
  rw [takeTurn_handleConnected hsink]
  have htake : step (.take draws) { world := w, phase := .idle, supervised } = some
      { world := { w with mailbox := rest, nextActor := w.nextActor + 1 }
        phase := .starting w.nextActor draws identifier reply, supervised } := by
    simp only [step, if_pos hlife, hmail]
  have hstart : step .start
      { world := { w with mailbox := rest, nextActor := w.nextActor + 1 }
        phase := .starting w.nextActor draws identifier reply, supervised } = some
      { world := spawn { w with mailbox := rest, nextActor := w.nextActor + 1 } w.nextActor
          (.started ((w.env draws).setup identifier))
        phase := .spawned w.nextActor draws identifier reply, supervised } := by
    simp only [step, World.env, Portal.preStart, hsink]
  refine .cons trivial htake (.cons trivial hstart (.cons trivial ?_ (.nil _)))
  exact congrArg (fun error => some (Interleaved.mk (World.endTurn _ error) .idle supervised)) hrest

/-- **While the nexus runs, the steps of `World` are runs of this finer system.** -/
theorem run_of_step {l : WorldLabel β} (h : World.step l w = some w') (hrun : w'.life = .running)
    (supervised : List ActorId) :
    ∃ ls supervised', Transition.Run step Transition.Any ls { world := w, phase := .idle, supervised }
      { world := w', phase := .idle, supervised := supervised' } := by
  have hother (helse : Elsewhere { world := w, phase := .idle, supervised } l) :
      ∃ ls supervised', Transition.Run step Transition.Any ls { world := w, phase := .idle, supervised }
        { world := w', phase := .idle, supervised := supervised' } := by
    refine ⟨[.other l], supervised, .cons trivial ?_ (.nil _)⟩
    simp only [step, if_pos helse, h, Option.map_some]
  cases l with
  | handle draws =>
    obtain ⟨hlife, m, rest, hmail, rfl⟩ := World.handle_inv h
    have herror := running_of_endTurn hrun
    rw [herror]
    cases m with
    | connected identifier reply =>
      exact ⟨_, supervised, run_connected hlife hmail herror supervised⟩
    | _ =>
      refine ⟨[.take draws], supervised, .cons trivial ?_ (.nil _)⟩
      simp only [step, if_pos hlife, hmail, h, Option.map_some, herror]
  | supervise =>
    refine ⟨[.supervise], supervised ++ (w.events.take 1).map (·.actor), .cons trivial ?_ (.nil _)⟩
    simp only [step, h, Option.map_some]
  | exit actor => exact hother nofun
  | _ => exact hother trivial

/-- **Every run of `World` that leaves the nexus running is one of this system.** -/
theorem run_of_world {callback : Option ActorId} {actors : Nat} {ls : List (WorldLabel β)}
    (h : Transition.Run World.step Transition.Any ls (.initial callback actors) w) (hrun : w.life = .running) :
    ∃ ls' supervised, Transition.Run step Transition.Any ls' (initial callback actors)
      { world := w, phase := .idle, supervised } := by
  let R (w : World β) (s : Interleaved β) : Prop := w.life = .running → s.world = w ∧ s.phase = .idle
  have hsim : ∀ l v v' s, R v s → Transition.Any l v → World.step l v = some v' →
      ∃ ls' s', Transition.Run step Transition.Any ls' s s' ∧ R v' s' := by
    intro l v v' s hR _ hstep
    by_cases hlife : v'.life = .running
    · obtain ⟨rfl, hidle⟩ := hR (World.life_of_step hstep hlife)
      obtain ⟨ls', supervised, hmatch⟩ := run_of_step hstep hlife s.supervised
      rw [← hidle] at hmatch
      exact ⟨ls', _, hmatch, fun _ => ⟨rfl, hidle⟩⟩
    · exact ⟨[], s, .nil s, fun h => absurd h hlife⟩
  have hinitial : R (.initial callback actors) (initial callback actors) := fun _ => ⟨rfl, rfl⟩
  obtain ⟨ls', s, hmatch, hR⟩ := h.simulated hsim hinitial
  obtain ⟨rfl, hidle⟩ := hR hrun
  exact ⟨ls', s.supervised, hidle ▸ hmatch⟩

end

/-! ## The invariant -/

/-- **The table of the nexus**, the portals it has started, and the ends it has heard of. -/
structure Accurate (s : Interleaved β) : Prop where
  fresh : ∀ p n, s.world.node p = some n → p < s.world.nextActor
  started : ∀ p, p ∈ s.world.spawned ↔ ∃ n, s.world.node p = some n
  /-- the portal that is being started has an id of its own -/
  reserved : ∀ p, s.phase.reserved = some p → p < s.world.nextActor ∧ s.world.node p = none
  entering : ∀ p, s.phase.entering = some p → p ∈ s.world.spawned ∧ p ∉ s.supervised
  ended : ∀ event ∈ s.world.events, ∃ n, s.world.node event.actor = some n ∧ n.life ≠ .running
  once : (s.world.events.map (·.actor)).Nodup
  heard : ∀ p ∈ s.supervised, (∃ n, s.world.node p = some n ∧ n.life ≠ .running) ∧
    ∀ event ∈ s.world.events, event.actor ≠ p
  reported : s.world.life = .running → ∀ p n, s.world.node p = some n → n.life ≠ .running →
    p ∈ s.supervised ∨ ∃ event ∈ s.world.events, event.actor = p
  table : s.world.life = .running → ∀ p, p ∈ s.world.state.portals ↔
    p ∈ s.world.spawned ∧ p ∉ s.supervised ∧ s.phase.entering ≠ some p
  /-- what is kept under the id of a portal is its reference -/
  entries : ∀ p entry, s.world.state.portals.lookup p = some entry → entry.2 = p

namespace Accurate

variable {s s' : Interleaved β}

theorem initial (callback : Option ActorId) (actors : Nat) : (Interleaved.initial (β := β) callback actors).Accurate where
  fresh := nofun
  started p := by simp [Interleaved.initial, World.initial]
  reserved := nofun
  entering := nofun
  ended := nofun
  once := List.nodup_nil
  heard := nofun
  reported := nofun
  table _ p := by
    simp only [Interleaved.initial, World.initial, List.not_mem_nil, false_and, iff_false]
    exact AList.notMem_empty p
  entries := nofun

/-- What is not the nexus's own step changes neither phase nor history. -/
theorem same {w : World β} (h : s.Accurate) (hsame : Same s.world w) : Accurate { s with world := w } where
  fresh p n hn := Nat.lt_of_lt_of_le (h.fresh p n (hsame.node ▸ hn)) hsame.nextActor
  started p := by rw [hsame.spawned, hsame.node]; exact h.started p
  reserved p hp := by
    rw [hsame.node]
    exact ⟨Nat.lt_of_lt_of_le (h.reserved p hp).1 hsame.nextActor, (h.reserved p hp).2⟩
  entering p hp := by rw [hsame.spawned]; exact h.entering p hp
  ended := by rw [hsame.node, hsame.events]; exact h.ended
  once := by rw [hsame.events]; exact h.once
  heard := by rw [hsame.node, hsame.events]; exact h.heard
  reported hrun := by
    rw [hsame.node, hsame.events]
    exact h.reported (hsame.life ▸ hrun)
  table hrun p := by
    rw [hsame.portals, hsame.spawned]
    exact h.table (hsame.life ▸ hrun) p
  entries := by rw [hsame.portals]; exact h.entries

/-- A portal moves, at whatever moment, and is reported if it ends. -/
theorem leave {portal : ActorId} {n n' : Node β} (h : s.Accurate) (hnode : s.world.node portal = some n)
    (hlife : n'.life = .running → n.life = .running) (hnext : s.world.nextActor ≤ n'.nextActor) :
    Accurate { s with world := s.world.leave portal n n' } where
  fresh p m hm := by
    by_cases hp : p = portal
    · subst hp
      exact Nat.lt_of_lt_of_le (h.fresh p n hnode) hnext
    · rw [World.leave_node_ne hp] at hm
      exact Nat.lt_of_lt_of_le (h.fresh p m hm) hnext
  started p := by
    apply (h.started p).trans
    by_cases hp : p = portal
    · subst hp
      rw [World.leave_node_self]
      exact ⟨fun _ => ⟨n', rfl⟩, fun _ => ⟨n, hnode⟩⟩
    · rw [World.leave_node_ne hp]
  reserved p hp := by
    obtain ⟨hlt, hnone⟩ := h.reserved p hp
    have hne : p ≠ portal := by
      rintro rfl
      rw [hnode] at hnone
      cases hnone
    exact ⟨Nat.lt_of_lt_of_le hlt hnext, by rw [World.leave_node_ne hne, hnone]⟩
  entering := h.entering
  ended := World.ended_leave h.ended hnode hlife
  once := World.once_leave h.ended h.once hnode
  heard p hp := by
    obtain ⟨⟨m, hm, hmlife⟩, hnone⟩ := h.heard p hp
    by_cases hne : p = portal
    · -- it has ended, so it is not reported again
      subst hne
      rw [hnode] at hm
      cases hm
      refine ⟨⟨n', World.leave_node_self, fun hrun => hmlife (hlife hrun)⟩, ?_⟩
      intro event hevent
      obtain hold | ⟨-, hrun, -⟩ := World.mem_leave_events hevent
      · exact hnone event hold
      · exact absurd hrun hmlife
    · refine ⟨⟨m, by rw [World.leave_node_ne hne, hm], hmlife⟩, ?_⟩
      intro event hevent hactor
      obtain hold | ⟨hportal, -⟩ := World.mem_leave_events hevent
      · exact hnone event hold hactor
      · exact hne (hactor.symm.trans hportal)
  reported hrun p m hm hmlife := by
    have hkept (hold : p ∈ s.supervised ∨ ∃ event ∈ s.world.events, event.actor = p) :
        p ∈ s.supervised ∨ ∃ event ∈ (s.world.leave portal n n').events, event.actor = p := by
      apply hold.imp id
      rintro ⟨event, hevent, hactor⟩
      exact ⟨event, World.leave_keeps_events hevent, hactor⟩
    by_cases hp : p = portal
    · subst hp
      rw [World.leave_node_self] at hm
      cases hm
      by_cases hrunning : n.life = .running
      · exact .inr (World.leave_reports hrunning hmlife)
      · exact hkept (h.reported hrun p n hnode hrunning)
    · rw [World.leave_node_ne hp] at hm
      exact hkept (h.reported hrun p m hm hmlife)
  table := h.table
  entries := h.entries

/-- The nexus fails. -/
theorem fail (h : s.Accurate) (error : NexusError) :
    Accurate { s with world := s.world.fail error, phase := .idle } where
  fresh p n hn := by
    obtain ⟨m, hm, -⟩ := Option.map_eq_some_iff.mp hn
    exact h.fresh p m hm
  started p := by
    apply (h.started p).trans
    simp [World.fail, Option.map_eq_some_iff]
  reserved := nofun
  entering := nofun
  ended := nofun
  once := List.nodup_nil
  heard p hp := by
    obtain ⟨⟨m, hm, -⟩, -⟩ := h.heard p hp
    have hnode : (s.world.fail error).node p = some _ := Option.map_eq_some_iff.mpr ⟨m, hm, rfl⟩
    exact ⟨⟨_, hnode, World.not_running_of_fail hnode⟩, nofun⟩
  reported := nofun
  table := nofun
  entries := h.entries

/-- The id of a portal is drawn, and `spawn_linked` is called. -/
theorem reserve (h : s.Accurate) (hidle : s.phase = .idle) (mailbox : List NexusActorMessage) (draws : Draws)
    (identifier : String) (reply : Receiver) :
    Accurate { s with
      world := { s.world with mailbox, nextActor := s.world.nextActor + 1 }
      phase := .starting s.world.nextActor draws identifier reply } where
  fresh p n hn := Nat.lt_succ_of_lt (h.fresh p n hn)
  started := h.started
  reserved p hp := by
    obtain rfl : s.world.nextActor = p := Option.some.inj hp
    refine ⟨Nat.lt_succ_self _, Option.eq_none_iff_forall_ne_some.mpr ?_⟩
    intro n hn
    exact absurd (h.fresh _ n hn) (Nat.lt_irrefl _)
  entering := nofun
  ended := h.ended
  once := h.once
  heard := h.heard
  reported := h.reported
  table hrun p := by
    have htable := h.table hrun p
    rw [hidle] at htable
    exact htable
  entries := h.entries

/-- `pre_start` has succeeded: from now on the portal can end, and be reported. -/
theorem spawn {portal : ActorId} {draws : Draws} {identifier : String} {reply : Receiver} {n : Node β}
    (h : s.Accurate) (hphase : s.phase = .starting portal draws identifier reply) (hn : n.life = .running) :
    Accurate { s with
      world := Interleaved.spawn s.world portal n, phase := .spawned portal draws identifier reply } := by
  obtain ⟨hlt, hnone⟩ := h.reserved portal (by rw [hphase]; rfl)
  have hother {p m} (hm : s.world.node p = some m) : p ≠ portal := by
    rintro rfl
    rw [hm] at hnone
    cases hnone
  have hold {p m} (hm : s.world.node p = some m) : (Interleaved.spawn s.world portal n).node p = some m := by
    rw [← hm]
    exact if_neg (hother hm)
  -- the id was reserved, so nobody has it yet and nobody has heard of its end
  have hnew : portal ∉ s.world.spawned := by
    intro hmem
    obtain ⟨m, hm⟩ := (h.started portal).mp hmem
    exact hother hm rfl
  have hunheard : portal ∉ s.supervised := by
    intro hmem
    obtain ⟨⟨m, hm, -⟩, -⟩ := h.heard portal hmem
    exact hother hm rfl
  constructor
  · intro p m hm
    simp only [Interleaved.spawn] at hm
    split at hm
    · rename_i hp
      rw [hp]
      exact hlt
    · exact h.fresh p m hm
  · intro p
    simp only [Interleaved.spawn, List.mem_append, List.mem_singleton]
    by_cases hp : p = portal
    · simp [hp]
    · simp only [hp, or_false, if_false]
      exact h.started p
  · exact nofun
  · intro p hp
    obtain rfl : portal = p := Option.some.inj hp
    exact ⟨List.mem_append_right _ (List.mem_singleton_self _), hunheard⟩
  · intro event hevent
    obtain ⟨m, hm, hmlife⟩ := h.ended event hevent
    exact ⟨m, hold hm, hmlife⟩
  · exact h.once
  · intro p hp
    obtain ⟨⟨m, hm, hmlife⟩, hevents⟩ := h.heard p hp
    exact ⟨⟨m, hold hm, hmlife⟩, hevents⟩
  · intro hrun p m hm hmlife
    simp only [Interleaved.spawn] at hm
    split at hm
    · cases hm
      exact absurd hn hmlife
    · exact h.reported hrun p m hm hmlife
  · intro hrun p
    apply (h.table hrun p).trans
    rw [hphase]
    simp only [Interleaved.spawn, List.mem_append, List.mem_singleton, Phase.entering]
    constructor
    · -- the new portal is spawned and not yet in the table: the window that `entering` is for
      rintro ⟨hmem, hheard, -⟩
      refine ⟨.inl hmem, hheard, ?_⟩
      rintro hp
      cases hp
      exact hnew hmem
    · rintro ⟨hmem, hheard, hne⟩
      refine ⟨hmem.resolve_right ?_, hheard, nofun⟩
      rintro rfl
      exact hne rfl
  · exact h.entries

/-- **The portal is entered in the table**, dead or alive: nobody has heard of its end yet. -/
theorem enter {portal : ActorId} {draws : Draws} {identifier : String} {reply : Receiver} {w : World β}
    (h : s.Accurate) (hphase : s.phase = .spawned portal draws identifier reply)
    (hportals : w.state.portals = s.world.state.portals.insert portal (identifier, portal))
    (hnode : w.node = s.world.node) (hevents : w.events = s.world.events) (hspawned : w.spawned = s.world.spawned)
    (hlife : w.life = s.world.life) (hnext : s.world.nextActor ≤ w.nextActor) :
    Accurate { s with world := w, phase := .idle } where
  fresh p n hn := Nat.lt_of_lt_of_le (h.fresh p n (hnode ▸ hn)) hnext
  started p := by rw [hspawned, hnode]; exact h.started p
  reserved := nofun
  entering := nofun
  ended := by rw [hnode, hevents]; exact h.ended
  once := by rw [hevents]; exact h.once
  heard := by rw [hnode, hevents]; exact h.heard
  reported hrun := by
    rw [hnode, hevents]
    exact h.reported (hlife ▸ hrun)
  table hrun p := by
    -- the window closes: the portal is in the table, and no phase makes an exception for it
    have hportal := h.entering portal (by rw [hphase]; rfl)
    rw [hportals, hspawned, AList.mem_insert, h.table (hlife ▸ hrun) p, hphase]
    constructor
    · rintro (rfl | ⟨hmem, hheard, -⟩)
      · exact ⟨hportal.1, hportal.2, nofun⟩
      · exact ⟨hmem, hheard, nofun⟩
    · rintro ⟨hmem, hheard, -⟩
      by_cases hp : p = portal
      · exact .inl hp
      · exact .inr ⟨hmem, hheard, fun heq => hp (Option.some.inj heq).symm⟩
  entries p entry hlook := by
    rw [hportals, HashMap.lookup_insert_eq] at hlook
    split at hlook
    · rename_i hp
      cases hlook
      exact hp.symm
    · exact h.entries p entry hlook

/-- The nexus hears of the end of a portal. -/
theorem supervise {event : SupervisionEvent} {rest : List SupervisionEvent} (h : s.Accurate)
    (hidle : s.phase = .idle) (hevents : s.world.events = event :: rest) :
    Accurate { s with
      world := { s.world with events := rest, state := handleSupervisorEvt s.world.state event }
      supervised := s.supervised ++ [event.actor] } := by
  -- each end is reported once, so the rest of the events are about others
  have honce := h.once
  rw [hevents] at honce
  obtain ⟨hlast, honce⟩ := List.nodup_cons.mp honce
  have hsub {e} (he : e ∈ rest) : e ∈ s.world.events := hevents ▸ List.mem_cons_of_mem _ he
  constructor
  · exact h.fresh
  · exact h.started
  · exact h.reserved
  · rw [hidle]
    exact nofun
  · exact fun e he => h.ended e (hsub he)
  · exact honce
  · intro p hp
    obtain hold | hnew := List.mem_append.mp hp
    · obtain ⟨hended, hnone⟩ := h.heard p hold
      exact ⟨hended, fun e he => hnone e (hsub he)⟩
    · obtain rfl := List.mem_singleton.mp hnew
      exact ⟨h.ended event (hevents ▸ List.mem_cons_self), fun e he hactor =>
        hlast (List.mem_map.mpr ⟨e, he, hactor⟩)⟩
  · intro hrun p m hm hmlife
    obtain hheard | ⟨e, he, hactor⟩ := h.reported hrun p m hm hmlife
    · exact .inl (List.mem_append_left _ hheard)
    · rw [hevents] at he
      obtain rfl | he := List.mem_cons.mp he
      · exact .inl (List.mem_append_right _ (List.mem_singleton.mpr hactor.symm))
      · exact .inr ⟨e, he, hactor⟩
  · intro hrun p
    show p ∈ s.world.state.portals.erase event.actor ↔ _
    rw [AList.mem_erase, h.table hrun p]
    simp only [List.mem_append, List.mem_singleton, not_or]
    constructor
    · rintro ⟨hne, hmem, hheard, hentering⟩
      exact ⟨hmem, ⟨hheard, hne⟩, hentering⟩
    · rintro ⟨hmem, ⟨hheard, hne⟩, hentering⟩
      exact ⟨hne, hmem, hheard, hentering⟩
  · intro p entry hlook
    apply h.entries p entry
    simp only [handleSupervisorEvt, HashMap.lookup_erase_eq] at hlook
    split at hlook
    · cases hlook
    · exact hlook

/-- The end of a turn. -/
theorem endTurn (h : s.Accurate) (hidle : s.phase = .idle) (error : Option NexusError) :
    Accurate { s with world := s.world.endTurn error } := by
  cases error with
  | none => exact h
  | some error =>
    have hfail := h.fail error
    rw [← hidle] at hfail
    exact hfail

/-- **Every step keeps the table accurate.** -/
theorem step {l : InterleavedLabel β} (h : s.Accurate) (hstep : Interleaved.step l s = some s') : s'.Accurate := by
  cases moves_of_step hstep with
  | connected draws identifier reply rest hidle => exact h.reserve hidle rest draws identifier reply
  | turn draws m rest hidle hm turn hturn =>
    subst hturn
    exact (h.same (same_takeTurn hm)).endTurn hidle _
  | startFails => exact h.fail _
  | started portal draws identifier reply setup hphase => exact h.spawn hphase rfl
  | finished portal draws identifier reply hphase turn hturn =>
    subst hturn
    refine endTurn (s := { s with world := s.world.takeTurn _ _, phase := .idle }) ?_ rfl _
    apply h.enter hphase (handleSpawned_portals _ _ _ _ _)
    · funext p
      simp [World.takeTurn]
    · rfl
    · simp [World.takeTurn]
    · rfl
    · exact Nat.le_add_right _ _
  | supervised event rest hidle hevents => exact h.supervise hidle hevents
  | other label w helse hmove =>
    have hhandle : ∀ draws, label ≠ .handle draws := by
      rintro draws rfl
      exact helse
    have hsupervise : label ≠ .supervise := by
      rintro rfl
      exact helse
    obtain hsame | ⟨portal, n, n', v, hsame, hnode, hlife, hnext, rfl⟩ := other_inv hhandle hsupervise hmove
    · exact h.same hsame
    · exact (h.same hsame).leave hnode hlife hnext

theorem of_run {callback : Option ActorId} {actors : Nat} {ls : List (InterleavedLabel β)}
    (h : Transition.Run Interleaved.step Transition.Any ls (Interleaved.initial callback actors) s) : s.Accurate :=
  h.invariant (fun _ _ _ h _ hstep => h.step hstep) (Accurate.initial callback actors)

/-- What `GetAllPortals` returns are the portals of the table. -/
theorem mem_references (h : s.Accurate) {p : ActorId} :
    p ∈ s.world.state.portals.entries.map (·.2.2) ↔ p ∈ s.world.state.portals := by
  rw [List.mem_map]
  constructor
  · rintro ⟨⟨q, entry⟩, hmem, rfl⟩
    have hlook := HashMap.mem_entries_iff.mp hmem
    rw [show entry.2 = q from h.entries q entry hlook]
    exact AList.lookup_isSome.mp (Option.isSome_iff_exists.mpr ⟨entry, hlook⟩)
  · intro hmem
    obtain ⟨entry, hlook⟩ := Option.isSome_iff_exists.mp (AList.lookup_isSome.mpr hmem)
    exact ⟨⟨p, entry⟩, HashMap.mem_entries_iff.mpr hlook, h.entries p entry hlook⟩

/-- A portal that runs is started, and its end has not been heard of. -/
theorem of_running {p : ActorId} {n : Node β} (h : s.Accurate) (hn : s.world.node p = some n)
    (hrun : n.life = .running) : p ∈ s.world.spawned ∧ p ∉ s.supervised := by
  refine ⟨(h.started p).mpr ⟨n, hn⟩, ?_⟩
  intro hheard
  obtain ⟨⟨m, hm, hended⟩, -⟩ := h.heard p hheard
  rw [hn] at hm
  cases hm
  exact hended hrun

/-- With no event pending, a portal whose end has not been heard of runs. -/
theorem running_of {p : ActorId} (h : s.Accurate) (hlife : s.world.life = .running) (hevents : s.world.events = [])
    (hspawned : p ∈ s.world.spawned) (hheard : p ∉ s.supervised) :
    ∃ n, s.world.node p = some n ∧ n.life = .running := by
  obtain ⟨n, hn⟩ := (h.started p).mp hspawned
  refine ⟨n, hn, ?_⟩
  by_contra hended
  obtain hmem | ⟨event, hevent, -⟩ := h.reported hlife p n hn hended
  · exact hheard hmem
  · rw [hevents] at hevent
    cases hevent

end Accurate

/-! ## The table between two messages -/

/-- The answer to `GetAllPortals`. -/
theorem take_getAllPortals {s : Interleaved β} {reply : Receiver} {rest : List NexusActorMessage} (draws : Draws)
    (hlife : s.world.life = .running) (hidle : s.phase = .idle)
    (hmail : s.world.mailbox = .getAllPortals reply :: rest) (halive : reply ∉ s.world.dropped) :
    ∃ s', step (.take draws) s = some s' ∧ s'.world.replies =
      s.world.replies ++ [(reply, .allPortals (s.world.state.portals.entries.map (·.2.2)))] := by
  obtain ⟨w, phase, supervised⟩ := s
  obtain rfl : phase = .idle := hidle
  have hturn : handle (β := β) (w.env draws) w.state (.getAllPortals reply) =
      { state := w.state
        effects := [.reply reply (.allPortals (w.state.portals.entries.map (·.2.2)))] } :=
    if_pos (decide_eq_true halive)
  have hstep := World.handle_step hlife hmail hturn
  have htake : step (.take draws) { world := w, phase := .idle, supervised } =
      (World.step (.handle draws) w).map fun w => { world := w, phase := .idle, supervised } := by
    simp only [step, if_pos hlife]
    rw [show w.mailbox = _ from hmail]
  rw [hstep] at htake
  exact ⟨_, htake, rfl⟩

/-- **The table is accurate.** Whatever the order of connections, ends of portals and what the nexus hears of
    them: while the nexus runs and handles no message, the keys of its table are the portals it has started
    and whose end it has not heard of. Its answer to `GetAllPortals` therefore has all portals that run and, if
    no event is pending, no other. Among these runs are those of `World`, whose turns are not interrupted. -/
theorem table_accurate {callback : Option ActorId} {actors : Nat} {ls : List (InterleavedLabel β)}
    {s : Interleaved β} (h : Transition.Run step Transition.Any ls (initial callback actors) s)
    (hlife : s.world.life = .running) (hidle : s.phase = .idle) :
    (∀ p, p ∈ s.world.state.portals ↔ p ∈ s.world.spawned ∧ p ∉ s.supervised) ∧
    (∀ reply rest draws, s.world.mailbox = .getAllPortals reply :: rest → reply ∉ s.world.dropped →
      ∃ s' portals, step (.take draws) s = some s' ∧
        s'.world.replies = s.world.replies ++ [(reply, .allPortals portals)] ∧
        (∀ p n, s.world.node p = some n → n.life = .running → p ∈ portals) ∧
        (s.world.events = [] → ∀ p ∈ portals, ∃ n, s.world.node p = some n ∧ n.life = .running)) ∧
    ∀ ls' w, Transition.Run World.step Transition.Any ls' (.initial (β := β) callback actors) w → w.life = .running →
      ∃ ls'' supervised, Transition.Run step Transition.Any ls'' (initial callback actors)
        { world := w, phase := .idle, supervised } := by
  have haccurate := Accurate.of_run h
  have htable : ∀ p, p ∈ s.world.state.portals ↔ p ∈ s.world.spawned ∧ p ∉ s.supervised := by
    intro p
    apply (haccurate.table hlife p).trans
    rw [hidle]
    simp [Phase.entering]
  refine ⟨htable, ?_, fun _ _ => run_of_world⟩
  intro reply rest draws hmail halive
  obtain ⟨s', hstep, hreplies⟩ := take_getAllPortals draws hlife hidle hmail halive
  refine ⟨s', _, hstep, hreplies, ?_, ?_⟩
  · intro p n hn hrun
    rw [haccurate.mem_references, htable]
    exact haccurate.of_running hn hrun
  · intro hevents p hp
    rw [haccurate.mem_references, htable] at hp
    exact haccurate.running_of hlife hevents hp.1 hp.2

/-- What is drawn for a portal whose sink takes its introduction. -/
private def connection : Draws :=
  { localId := ⟨7⟩, contribution := .replicate 16 1, pick := 0, sink := .flushed }

/-- The first portal dies before it is entered in the table; the second one runs. -/
private def diesEarly : List (InterleavedLabel Nat) :=
  [.other (.request (.connect "first")), .take connection, .start, .other (.terminate 0), .finish, .supervise,
    .other (.request (.connect "second")), .take connection, .start, .finish, .other (.request .getAllPortals)]

theorem table_accurate_early_death :
    ∃ s : Interleaved Nat, Transition.exec step diesEarly (initial none 0) = some s ∧
      0 ∉ s.world.state.portals ∧ 1 ∈ s.world.state.portals ∧
      ∃ s' portals, step (.take connection) s = some s' ∧
        s'.world.replies = s.world.replies ++ [(⟨none, 2⟩, .allPortals portals)] ∧
        ∀ p ∈ portals, ∃ n, s.world.node p = some n ∧ n.life = .running := by
  have heval : (Transition.exec step diesEarly (initial none 0)).map (fun s => decide (
      (s.world.life = .running ∧ s.phase.reserved = none ∧ s.phase.entering = none) ∧
      s.world.mailbox = [.getAllPortals ⟨none, 2⟩] ∧ (⟨none, 2⟩ : Receiver) ∉ s.world.dropped ∧ s.world.events = [] ∧
      s.world.spawned = [0, 1] ∧ s.supervised = [0])) = some true := by
    decide +kernel
  obtain ⟨s, hs, heval⟩ := Option.map_eq_some_iff.mp heval
  obtain ⟨⟨hlife, hreserved, hentering⟩, hmail, halive, hevents, hspawned, hsupervised⟩ := of_decide_eq_true heval
  have hidle : s.phase = .idle := Phase.eq_idle hreserved hentering
  obtain ⟨htable, hanswer, -⟩ := table_accurate (Transition.run_of_exec hs) hlife hidle
  obtain ⟨s', portals, hstep, hreplies, -, hlive⟩ := hanswer _ _ connection hmail halive
  refine ⟨s, hs, ?_, ?_, s', portals, hstep, hreplies, hlive hevents⟩
  · rw [htable, hsupervised]
    exact fun h => h.2 List.mem_cons_self
  · rw [htable, hspawned, hsupervised]
    decide

end Interleaved
end Nexus
end Wormhole
