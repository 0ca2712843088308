import Wormhole.Portal.ExitNotice
import Wormhole.Portal.Registry

/-!
# `Portal.Forgetting` — what the registries keep of the actors that have exited

The handler of `LocalActorExited` looks the actor up, announces its exit, and leaves its entry where it is; so
do all other handlers. An entry is therefore up to date exactly as long as no exit has been handled, and every
reply port that crosses the portal leaves the entry of its `RpcProxyActor` behind.
-/

namespace Wormhole
namespace Portal

variable {β : Type}

/-- The exit of the actor has not been handled yet: its task still waits, or the message is in the mailbox. -/
def Node.ExitPending (n : Node β) (actor : ActorId) : Prop :=
  actor ∈ n.watchers ∨ .localActorExited actor ∈ n.mailbox

/-- **The registries have forgotten** whoever has exited: an entry is for an actor that lives or whose exit is
    still to be handled, and a name is that of such an entry. -/
structure Node.Forgets (n : Node β) : Prop where
  published : ∀ id actor, n.state.publishedActors.lookup id = some actor →
    actor ∉ n.exited ∨ n.ExitPending actor
  named : ∀ name id, n.state.namedActors.lookup name = some id →
    ∃ actor, n.state.publishedActors.lookup id = some actor ∧ (actor ∉ n.exited ∨ n.ExitPending actor)

/-- The step is not a turn in which the portal handles an exit. -/
def HandlesNoExit (l : Label β) (n : Node β) : Prop :=
  ∀ uuid nexus sink actor rest, l = .handle uuid nexus sink → n.mailbox ≠ .localActorExited actor :: rest

/-- How many entries the registry has. -/
def PortalActorState.entries (state : PortalActorState) : Nat := state.publishedActors.entries.length

/-! ## Exits that were reported -/

/-- An exit is reported of an actor that has exited. -/
def Node.Reports (n : Node β) : Prop :=
  ∀ actor, .localActorExited actor ∈ n.mailbox ∨ .localActorExited actor ∈ n.handled → actor ∈ n.exited

section

variable {l : Label β} {ls : List (Label β)} {n n' : Node β} {setup : Setup} {actor : ActorId}

namespace Node

theorem Reports.step (h : n.Reports) (hstep : Node.step l n = some n') : n'.Reports := by
  have hexited := exited_of_step hstep
  intro actor hreported
  cases hpump : l.isPump with
  | false =>
    have hq := quiet_of_step hpump hstep
    obtain ⟨ms, hmail, hposts⟩ := hq.mailbox
    rw [hmail, hq.handled, List.mem_append] at hreported
    obtain (hold | hnew) | hhandled := hreported
    · exact hexited (h actor (.inl hold))
    · cases l with
      | notify actor' =>
        obtain rfl : actor = actor' := hposts _ hnew
        exact hexited (notify_inv hstep).1.2
      | _ => cases hposts _ hnew
    · exact hexited (h actor (.inr hhandled))
  | true =>
    refine hexited (h actor ?_)
    cases l with
    | recv frame =>
      obtain ⟨-, rfl⟩ := recv_inv hstep
      have hpost (m : PortalActorMessage β) (hm : m ≠ .localActorExited actor)
          (h : .localActorExited actor ∈ (n.post m).mailbox) : .localActorExited actor ∈ n.mailbox :=
        (mem_mailbox_post h).resolve_right hm.symm
      obtain _ | _ | _ | _ := frame <;> exact hreported.imp_left (hpost _ (by simp))
    | handle uuid nexus sink =>
      obtain ⟨-, m, rest, hmail, rfl⟩ := handle_inv hstep
      rw [hmail]
      have hrest : .localActorExited actor ∈ rest ∨ .localActorExited actor ∈ n.handled ++ [m] := by
        rw [endTurn_handled] at hreported
        refine hreported.imp_left fun hm => ?_
        cases hend : (Portal.handle (n.env uuid nexus sink) n.state m).outcome with
        | ok => rw [hend] at hm; exact hm
        | rematerialize => rw [hend] at hm; exact hm
        | stop => rw [hend] at hm; cases hm
        | err => rw [hend] at hm; cases hm
      obtain hrest | hhandled := hrest
      · exact .inl (List.mem_cons_of_mem _ hrest)
      · obtain hold | hnew := List.mem_append.mp hhandled
        · exact .inr hold
        · exact .inl (List.mem_singleton.mp hnew ▸ List.mem_cons_self)
    | rebuildDone =>
      obtain ⟨r, -, -, rfl⟩ := rebuildDone_inv hstep
      obtain ⟨error, heq⟩ | ⟨body, -, -, heq⟩ := n.deliver_cases r <;> rw [heq] at hreported
      · exact hreported.imp_left fun hm => absurd hm List.not_mem_nil
      · exact hreported
    | _ => cases hpump

theorem reports_of_run (hrun : Transition.Run Node.step Transition.Any ls (Node.started setup) n) :
    n.Reports := by
  refine hrun.invariant (fun _ _ _ h _ hstep => h.step hstep) ?_
  rintro actor (⟨⟨⟩⟩ | ⟨⟨⟩⟩)

end Node

/-- A step handles an exit exactly if it adds one to those that were handled. -/
theorem handlesNoExit_iff (hstep : Node.step l n = some n') :
    (∀ actor, .localActorExited actor ∉ n'.handled) ↔
      (∀ actor, .localActorExited actor ∉ n.handled) ∧ HandlesNoExit l n := by
  by_cases hl : ∃ uuid nexus sink, l = .handle uuid nexus sink
  · obtain ⟨uuid, nexus, sink, rfl⟩ := hl
    obtain ⟨-, m, rest, hmail, hturned⟩ := Node.turned_of_handle hstep
    rw [hturned.handled]
    constructor
    · intro hnone
      refine ⟨fun actor hold => hnone actor (List.mem_append_left _ hold), ?_⟩
      intro _ _ _ actor _ _ hmail'
      rw [hmail] at hmail'
      cases hmail'
      exact hnone actor (List.mem_append_right _ (List.mem_singleton_self _))
    · rintro ⟨hnone, hno⟩ actor hmem
      obtain hold | hnew := List.mem_append.mp hmem
      · exact hnone actor hold
      · refine hno uuid nexus sink actor rest rfl ?_
        rw [hmail, List.mem_singleton.mp hnew]
  · have hno : HandlesNoExit l n := fun uuid nexus sink _ _ heq => absurd ⟨uuid, nexus, sink, heq⟩ hl
    obtain hidle | ⟨uuid, nexus, sink, _, _, heq, -⟩ := Node.idle_or_turned hstep
    · rw [hidle.handled]
      exact ⟨fun hnone => ⟨hnone, hno⟩, And.left⟩
    · exact absurd ⟨uuid, nexus, sink, heq⟩ hl

/-- **No exit was handled in a run** exactly if no step of it handles one. -/
theorem no_exit_handled_iff (hrun : Transition.Run Node.step Transition.Any ls (Node.started setup) n) :
    (∀ actor, .localActorExited actor ∉ n.handled) ↔
      Transition.Run Node.step HandlesNoExit ls (Node.started setup) n := by
  constructor
  · intro hnone
    apply hrun.strengthen (P := fun n => ∀ actor, .localActorExited actor ∉ n.handled)
    · exact fun l n n' hstep hnone => ((handlesNoExit_iff hstep).mp hnone).1
    · exact fun l n n' _ hstep hnone => ((handlesNoExit_iff hstep).mp hnone).2
    · exact hnone
  · intro hgood
    apply hgood.invariant (P := fun n => ∀ actor, .localActorExited actor ∉ n.handled)
    · exact fun l n n' hnone hgood hstep => (handlesNoExit_iff hstep).mpr ⟨hnone, hgood⟩
    · exact fun actor => List.not_mem_nil

/-! ## The books of an actor that was published -/

section

variable {lost : ActorId → Nat}

/-- An exit is handled of an actor that is published. -/
theorem published_of_handled (h : n.Accounted lost) (hhandled : .localActorExited actor ∈ n.handled) :
    ∃ id, n.state.publishedActors.lookup id = some actor := by
  by_contra hnone
  have hzero : exits actor n.handled = 0 := (h.unpublished actor fun id hid => hnone ⟨id, hid⟩).2.1
  have hpos : 0 < exits actor n.handled := List.countP_pos_iff.mpr ⟨_, hhandled, beq_self_eq_true actor⟩
  exact Nat.ne_of_gt hpos hzero

/-- The exit of an actor that is published is either pending or handled, and not both. -/
theorem exitPending_iff (h : n.Accounted lost) {id : OpaqueActorId}
    (hid : n.state.publishedActors.lookup id = some actor) :
    n.ExitPending actor ↔ .localActorExited actor ∉ n.handled := by
  have hone : n.watchers.count actor + exits actor n.mailbox + exits actor n.handled = 1 := h.published id actor hid
  have hmem (ms : List (PortalActorMessage β)) : .localActorExited actor ∈ ms ↔ 0 < exits actor ms := by
    rw [exits, List.countP_pos_iff]
    constructor
    · exact fun hm => ⟨_, hm, beq_self_eq_true actor⟩
    · rintro ⟨m, hm, hexit⟩
      cases m with
      | localActorExited b => rwa [← beq_iff_eq.mp hexit]
      | _ => cases hexit
  rw [Node.ExitPending, hmem, hmem, ← List.count_pos_iff]
  omega

end

/-- **As long as no exit is handled** the registries have forgotten whoever has exited. -/
theorem forgets_iff (hrun : Transition.Run Node.step Transition.Any ls (Node.started setup) n)
    (hlife : n.life = .running) : n.Forgets ↔ ∀ actor, .localActorExited actor ∉ n.handled := by
  obtain ⟨lost, hacc, -⟩ := accounted_of_run hrun (Node.Accounted.started setup) 0 hlife
  constructor
  · intro hforgets actor hhandled
    obtain ⟨id, hid⟩ := published_of_handled hacc hhandled
    obtain hlives | hpending := hforgets.published id actor hid
    · exact hlives (Node.reports_of_run hrun actor (.inr hhandled))
    · exact (exitPending_iff hacc hid).mp hpending hhandled
  · intro hnone
    have hpublished (id : OpaqueActorId) (actor : ActorId)
        (hid : n.state.publishedActors.lookup id = some actor) : actor ∉ n.exited ∨ n.ExitPending actor :=
      .inr ((exitPending_iff hacc hid).mpr (hnone actor))
    refine ⟨hpublished, fun name id hname => ?_⟩
    obtain ⟨actor, hid⟩ := (Node.Sound.of_run hrun).consistent.named name id hname
    exact ⟨actor, hid, hpublished id actor hid⟩

end

/-! ## Completed calls -/

/-- A reply port has crossed the portal between two states: its `RpcProxyActor` was published, has done its
    work, and its exit has been handled. -/
structure CompletedCall (n n' : Node β) (rpcProxy : ActorId) : Prop where
  started : ∃ port, (rpcProxy, port) ∈ n'.rpcProxies
  published : ∀ id, n.state.publishedActors.lookup id ≠ some rpcProxy
  handled : .localActorExited rpcProxy ∈ n'.handled

/-- **The registries and the exits.** They are up to date in a state of a portal that runs if and only if no
    step that has led to it handled an exit; and every call that is completed later leaves one more entry. -/
theorem registries_forget_iff (setup : Setup) (ls : List (Label β)) (n : Node β)
    (hrun : Transition.Run Node.step Transition.Any ls (Node.started setup) n) (hlife : n.life = .running) :
    (n.Forgets ↔ Transition.Run Node.step HandlesNoExit ls (Node.started setup) n) ∧
    ∀ ms n', Transition.Run Node.step Transition.Any ms n n' → n'.life = .running →
      ∀ calls : List ActorId, calls.Nodup → (∀ rpcProxy ∈ calls, CompletedCall n n' rpcProxy) →
        n.state.entries + calls.length ≤ n'.state.entries := by
  refine ⟨(forgets_iff hrun hlife).trans (no_exit_handled_iff hrun), ?_⟩
  intro ms n' hrun' hlife' calls hnodup hcalls
  obtain ⟨lost, hacc, -⟩ := accounted_of_run (hrun.append hrun') (Node.Accounted.started setup) 0 hlife'
  apply HashMap.length_add_le (Node.Sound.of_run hrun).consistent.distinct ?_ hnodup
  · exact fun rpcProxy hcall => (hcalls rpcProxy hcall).published
  · exact fun rpcProxy hcall => published_of_handled hacc (hcalls rpcProxy hcall).handled
  · intro id actor hid
    exact hrun'.invariant (P := fun n => n.state.publishedActors.lookup id = some actor)
      (fun _ _ _ h _ hstep => Node.lookup_published_of_step hstep h) hid

/-- A reply port is sent to the peer, and the peer answers: actor 3 is its `RpcProxyActor`. -/
def oneCall : List (Label Nat) :=
  [.recv (some (.handshake (some (twoSides .right).introduction))), .handle ⟨7⟩ none .flushed,
   .openPort, .instantiate remoteEight, .register 2, .handle ⟨8⟩ none .flushed,
   .sendTo 2 41 [.replyPort none 0], .relay 2, .forward 2, .handle ⟨8⟩ none .flushed,
   .taskPublish ⟨2, 0⟩, .handle ⟨8⟩ none .flushed, .taskPublished ⟨2, 0⟩, .taskPost ⟨2, 0⟩,
   .handle ⟨9⟩ none .flushed,
   .recv (some (.content (some (.sendMessage ⟨⟨0x06060606060606060606060606060606⟩, ⟨1⟩, ⟨8⟩⟩
     { tag := ⟨5, 0⟩, refs := [], body := some 42 })))),
   .handle ⟨9⟩ none .flushed, .rebuildDone, .answer 3, .notify 3, .handle ⟨9⟩ none .flushed]

/-- **The entry of a completed call stays.** The caller has its answer, the exit has been handled, nothing is
    left to do, and the registry still has the `RpcProxyActor`. -/
theorem completed_call_stays : ∃ n, Transition.exec Node.step oneCall (Node.started (twoSides .left)) = some n ∧
    n.life = .running ∧ (0, .rpc 42 []) ∈ n.replies ∧ n.mailbox = [] ∧ n.watchers = [] ∧ 3 ∈ n.exited ∧
    n.state.publishedActors.lookup ⟨8⟩ = some 3 ∧ n.state.entries = 1 ∧ ¬n.Forgets := by
  have heval : (Transition.exec Node.step oneCall (Node.started (twoSides .left))).map (fun n =>
      decide (n.life = .running ∧ (0, .rpc 42 []) ∈ n.replies ∧ n.mailbox = [] ∧ n.watchers = [] ∧
        3 ∈ n.exited ∧ n.state.publishedActors.lookup ⟨8⟩ = some 3 ∧ n.state.entries = 1)) = some true := by
    decide +kernel
  obtain ⟨n, hn, hfacts⟩ := Option.map_eq_some_iff.mp heval
  obtain ⟨hlife, hreply, hmail, hwatchers, hexited, hpublished, hentries⟩ := of_decide_eq_true hfacts
  refine ⟨n, hn, hlife, hreply, hmail, hwatchers, hexited, hpublished, hentries, fun hforgets => ?_⟩
  obtain hlives | hwaits | hpending := hforgets.published ⟨8⟩ 3 hpublished
  · exact hlives hexited
  · rw [hwatchers] at hwaits
    cases hwaits
  · rw [hmail] at hpending
    cases hpending

theorem registries_forget_iff_oneCall : ∃ n n', n.life = .running ∧
    Transition.exec Node.step oneCall (Node.started (twoSides .left)) = some n' ∧
    n.state.entries + [3].length ≤ n'.state.entries ∧
    (n.Forgets ↔ Transition.Run Node.step HandlesNoExit ([] : List (Label Nat)) (Node.started (twoSides .left)) n) := by
  have heval : (Transition.exec Node.step oneCall (Node.started (twoSides .left))).map (fun n =>
      decide (n.life = .running ∧ (3, 0) ∈ n.rpcProxies ∧ .localActorExited 3 ∈ n.handled)) = some true := by
    decide +kernel
  obtain ⟨n, hn, hfacts⟩ := Option.map_eq_some_iff.mp heval
  obtain ⟨hlife, hproxy, hhandled⟩ := of_decide_eq_true hfacts
  obtain ⟨hiff, hgrows⟩ := registries_forget_iff (twoSides .left) [] _ (.nil _) rfl
  refine ⟨_, n, rfl, hn, hgrows _ n (Transition.run_of_exec hn) hlife [3] (List.nodup_singleton 3) ?_, hiff⟩
  intro rpcProxy hmem
  cases List.mem_singleton.mp hmem
  exact ⟨⟨0, hproxy⟩, by rintro id ⟨⟩, hhandled⟩

end Portal
end Wormhole
