import Wormhole.Nexus.Steps

/-!
# `Nexus.Isolation` — whether a connection can take the nexus down

What happens to a portal after its start reaches the nexus as a supervision event, and the handler of those
always returns `Ok`. But `Connected` awaits the start of a portal inside the handler of the nexus, and
propagates its failure; and the answers that the nexus gives are propagated as well. These are the only ways.
-/

namespace Wormhole
namespace Nexus

open Portal

variable {β : Type}

namespace World

variable {w w' : World β} {l : WorldLabel β} {C : ActorId → Prop}

/-- The steps of the connections in `C`: those of their portals and of the peers and local code behind them,
    what their portals ask of the nexus, what the nexus hears of them, and the requests to connect. -/
def Concerns (C : ActorId → Prop) (l : WorldLabel β) (w : World β) : Prop :=
  match l with
  | .request (.connect _) | .dropReceiver _ | .spawnActor | .exit _ => True
  | .request _ => False
  | .ask portal | .portal portal _ | .terminate portal => C portal
  | .supervise => ∀ event ∈ w.events.head?, C event.actor
  | .handle _ =>
    match w.mailbox.head? with
    | some (.connected _ _) => C w.nextActor
    | some (.queryNamedActor _ reply) => ∃ portal ∈ reply.holder, C portal
    | _ => False

/-- If the nexus takes a message, then nothing stands in its way. -/
def Accepts (l : WorldLabel β) (w : World β) : Prop :=
  match l with
  | .handle draws => ∀ m ∈ w.mailbox.head?, Accepted (w.env draws) w.state m
  | _ => True

/-- What happened on the connections in `C` has not touched the rest. -/
structure Isolated (C : ActorId → Prop) (w w' : World β) : Prop where
  life : w'.life = .running
  named : w'.state.namedActors = w.state.namedActors
  others : ∀ q n, ¬ C q → w.node q = some n → n.life = .running →
    w'.node q = some n ∧ q ∈ w'.state.portals

/-! ## One step -/

/-- The nexus and the other portals are left alone. -/
structure Spared (C : ActorId → Prop) (w w' : World β) : Prop where
  life : w'.life = w.life := by rfl
  named : w'.state.namedActors = w.state.namedActors := by rfl
  node : ∀ q, ¬ C q → w'.node q = w.node q := by exact fun _ _ => rfl

theorem Spared.trans {w'' : World β} (h₁ : Spared C w w') (h₂ : Spared C w' w'') : Spared C w w'' where
  life := h₂.life.trans h₁.life
  named := h₂.named.trans h₁.named
  node q hq := (h₂.node q hq).trans (h₁.node q hq)

theorem spared_leave {portal : ActorId} {n n' : Node β} (hC : C portal) :
    Spared C w (w.leave portal n n') where
  node q hq := leave_node_ne fun heq => hq (heq ▸ hC)

/-- An accepted turn adds at most the portal of a new connection. -/
theorem spared_takeTurn {draws : Draws} {m : NexusActorMessage} {rest : List NexusActorMessage}
    (hm : ∀ name actor, m ≠ .publishNamedActor name actor)
    (hconnected : ∀ identifier reply, m = .connected identifier reply → C w.nextActor) :
    Spared C w (w.takeTurn rest (handle (w.env draws) w.state m)) where
  named := handle_namedActors hm
  node q hq := by
    show ((handle (w.env draws) w.state m).spawned.lookup q).or (w.node q) = w.node q
    obtain ⟨hspawned, -⟩ | ⟨identifier, reply, heq, hspawned, -⟩ :=
      handle_portals (β := β) (w.env draws) w.state m
    · rw [hspawned]; rfl
    · have hne : q ≠ w.nextActor := fun h => hq (h ▸ hconnected identifier reply heq)
      rw [hspawned, env_portal]
      simp [List.lookup_cons, beq_false_of_ne hne]

theorem spared_of_step (hC : Concerns C l w) (haccepts : Accepts l w) (h : step l w = some w') :
    Spared C w w' := by
  cases l with
  | request r =>
    obtain ⟨-, rfl⟩ := request_inv h
    exact {}
  | dropReceiver receiver =>
    obtain ⟨-, rfl⟩ := dropReceiver_inv h
    exact {}
  | handle draws =>
    obtain ⟨-, m, rest, hmail, rfl⟩ := handle_inv h
    simp only [Accepts, Concerns, hmail, List.head?_cons] at haccepts hC
    rw [handle_error.mpr (haccepts m rfl)]
    apply spared_takeTurn
    · rintro name actor rfl
      exact hC
    · rintro identifier reply rfl
      exact hC
  | supervise =>
    obtain ⟨-, event, rest, -, rfl⟩ := supervise_inv h
    exact {}
  | ask portal =>
    obtain ⟨n, name, -, -, rfl⟩ := ask_inv h
    exact {}
  | portal portal label =>
    obtain ⟨n, n', asking, -, -, rfl⟩ := portal_leaves h
    have hasking : Spared C w { w with asking } := {}
    exact hasking.trans (spared_leave hC)
  | terminate portal =>
    obtain ⟨n, -, -, rfl⟩ := terminate_inv h
    have hdropped (asking : HashMap ActorId Receiver) (dropped : List Receiver) : Spared C w { w with asking, dropped } := {}
    exact (hdropped _ _).trans (spared_leave hC)
  | spawnActor => cases h; exact {}
  | exit actor =>
    obtain ⟨-, rfl⟩ := exit_inv h
    exact {}

/-- A message that is not accepted takes the nexus down. -/
theorem accepts_of_running (h : step l w = some w') (hrun : w'.life = .running) : Accepts l w := by
  cases l with
  | handle draws =>
    obtain ⟨-, m, rest, hmail, rfl⟩ := handle_inv h
    intro m' hm'
    rw [hmail] at hm'
    obtain rfl := Option.some.inj hm'
    apply handle_error (β := β).mp
    cases herror : (handle (β := β) (w.env draws) w.state m).error with
    | none => rfl
    | some error => rw [herror] at hrun; cases hrun
  | _ => trivial

/-! ## Runs -/

theorem spared_of_run {ls : List (WorldLabel β)}
    (h : Transition.Run step (fun l w => Concerns C l w ∧ Accepts l w) ls w w') : Spared C w w' :=
  h.relates (fun _ => {}) Spared.trans fun _ _ _ hgood hstep => spared_of_step hgood.1 hgood.2 hstep

/-- **Isolation.** Let some connections of a reachable nexus do anything at all: their peers send what they
    like, their handlers fail, their portals are killed, new ones are opened. The nexus still runs, its
    named actors are unchanged, and every other portal is as it was and registered, if and only if nothing
    stood in the way of any message that the nexus has handled. -/
theorem isolated_iff (callback : Option ActorId) (actors : Nat) (ls : List (WorldLabel β)) (w : World β)
    (hreach : Transition.Run step Transition.Any ls (World.initial callback actors) w)
    (hlife : w.life = .running) (C : ActorId → Prop) (ms : List (WorldLabel β)) (w' : World β)
    (hrun : Transition.Run step (Concerns C) ms w w') :
    Isolated C w w' ↔ Transition.Run step (fun l w => Concerns C l w ∧ Accepts l w) ms w w' := by
  constructor
  · intro hisolated
    exact hrun.strengthen (fun _ _ _ => life_of_step)
      (fun _ _ _ hC hstep hrunning => ⟨hC, accepts_of_running hstep hrunning⟩) hisolated.life
  · intro haccepts
    have hspared := spared_of_run haccepts
    have htracked : w'.Tracked :=
      Tracked.of_run (hreach.append (hrun.mono fun _ _ _ => trivial))
    have hlife' : w'.life = .running := hspared.life.trans hlife
    refine ⟨hlife', hspared.named, ?_⟩
    intro q n hq hn hnlife
    have hn' : w'.node q = some n := (hspared.node q hq).trans hn
    exact ⟨hn', htracked.registered hlife' hn' hnlife⟩

/-! ## Runs of a nexus with two connections -/

instance [DecidablePred C] (l : WorldLabel β) (w : World β) : Decidable (Concerns C l w) := by
  unfold Concerns
  split
  all_goals first | infer_instance | (split <;> infer_instance)

instance (env : NexusEnv) (state : NexusActorState) (m : NexusActorMessage) :
    Decidable (Accepted env state m) := by
  cases m <;> unfold Accepted <;> infer_instance

instance (l : WorldLabel β) (w : World β) : Decidable (Accepts l w) := by
  unfold Accepts
  split <;> infer_instance

/-- A connection is made, over a sink of the given kind. -/
def connection (identifier : String) (sink : SinkResult) : List (WorldLabel Nat) :=
  [.request (.connect identifier),
   .handle { localId := ⟨1⟩, contribution := Vector.replicate 16 3, pick := 0, sink }]

/-- **A peer that hangs up while its portal starts takes every client down.** The nexus runs and has one
    portal, which runs; then a second connection is made whose sink refuses the introduction. -/
theorem refused_sink_fails :
    (Transition.exec step (connection "client" .flushed) (World.initial none 0)).map (fun w =>
      decide (w.life = .running ∧ (w.node 0).map (·.life) = some .running ∧ 0 ∈ w.state.portals)) =
      some true ∧
    (Transition.exec step (connection "client" .flushed ++ connection "other" .refused)
      (World.initial none 0)).map (fun w =>
      decide (w.life = .failed .spawnLinked ∧ (w.node 0).map (·.life) = some .terminated)) = some true := by
  decide +kernel

/-- The peer of portal 1 sends a content frame before its handshake. -/
def violation : List (WorldLabel Nat) :=
  [.portal 1 (.recv (some (.content none))), .portal 1 (.handle ⟨7⟩ none .flushed), .supervise]

theorem isolated_iff_violation : ∃ w w',
    Transition.exec step (connection "client" .flushed ++ connection "other" .flushed) (World.initial none 0) =
      some w ∧
    Transition.exec step violation w = some w' ∧ Isolated (· = 1) w w' := by
  have heval : ((Transition.exec step (connection "client" .flushed ++ connection "other" .flushed)
      (World.initial none 0)).bind fun w =>
        (Transition.exec (Transition.guarded step fun l w => Concerns (· = 1) l w ∧ Accepts l w) violation w).map
          fun _ => decide (w.life = .running)) = some true := by
    decide +kernel
  obtain ⟨w, hw, heval⟩ := Option.bind_eq_some_iff.mp heval
  obtain ⟨w', hw', hlife⟩ := Option.map_eq_some_iff.mp heval
  have hrun := Transition.run_of_exec_guarded hw'
  exact ⟨w, w', hw, hrun.exec, (isolated_iff none 0 _ w (Transition.run_of_exec hw) (of_decide_eq_true hlife)
    (· = 1) violation w' (hrun.mono fun _ _ h => h.1)).mpr hrun⟩

end World
end Nexus
end Wormhole
