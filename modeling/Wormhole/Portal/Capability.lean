import Wormhole.Portal.Actors
import Wormhole.Portal.Pair

/-!
# `Portal.Capability` — what a peer can reach through a portal

The peer chooses every frame. It reaches an actor only through the registry, into which nothing gets that
local code has not published, here or in the nexus; and it stops an actor only through the table of proxies,
into which nothing gets that this side has not created for the remote id in question.
-/

namespace Wormhole
namespace Portal

variable {β : Type}

/-- What a turn leaves in the table was there before, or it was the turn of its registration. -/
theorem of_lookup_proxies {env : HandleEnv} {state : PortalActorState} {m : PortalActorMessage β}
    {id : RemoteActorId} {actor : ActorId}
    (h : (handle env state m).state.proxiesForRemoteActors.lookup id = some actor) :
    state.proxiesForRemoteActors.lookup id = some actor ∨ m = .registerProxyForRemoteActor id actor := by
  by_cases hreg : ∃ b, m = .registerProxyForRemoteActor id b
  · obtain ⟨b, rfl⟩ := hreg
    cases hphase : state.channelState with
    | opening own =>
      simp only [handle, handleRegisterProxyForRemoteActor, hphase] at h
      exact .inl h
    | opened channel =>
      rw [lookup_proxies_register env state hphase] at h
      cases h
      exact .inr rfl
  · by_cases hexit : m = .content (some (.actorExited id))
    · subst hexit
      cases hphase : state.channelState with
      | opening own =>
        simp only [handle, handleContent, hphase] at h
        exact .inl h
      | opened channel =>
        rw [(lookup_proxies_exited env state hphase id).1] at h
        cases h
    · rw [lookup_proxies_of_ne env state m (fun b heq => hreg ⟨b, heq⟩) hexit] at h
      exact .inl h

/-- Actors that messages are delivered to are in the registry. -/
structure Node.Reached (n : Node β) : Prop where
  rebuilding : ∀ r, n.rebuilding = some r → ∃ id, n.state.publishedActors.lookup id = some r.actor
  delivered : ∀ d ∈ n.delivered, ∃ id, n.state.publishedActors.lookup id = some d.1

/-- The table of proxies, and what is on its way to it, has the proxies that were created for its ids. -/
structure Node.Proxied (n : Node β) : Prop where
  table : ∀ id actor, n.state.proxiesForRemoteActors.lookup id = some actor → (actor, id) ∈ n.proxies
  mailbox : ∀ id actor, .registerProxyForRemoteActor id actor ∈ n.mailbox → (actor, id) ∈ n.proxies
  creating : ∀ entry ∈ n.creating, entry ∈ n.proxies

section

variable {n n' : Node β} {l : Label β}

namespace Node

namespace Reached

theorem step (h : n.Reached) (hstep : Node.step l n = some n') : n'.Reached := by
  have hgrow {actor : ActorId} : (∃ id, n.state.publishedActors.lookup id = some actor) →
      ∃ id, n'.state.publishedActors.lookup id = some actor :=
    fun ⟨id, hid⟩ => ⟨id, lookup_published_of_step hstep hid⟩
  cases hpump : l.isPump with
  | false =>
    have hq := quiet_of_step hpump hstep
    constructor
    · intro r hr
      by_cases href : l = .rebuildRef
      · subst href
        obtain ⟨r', ref, todo, hr', -, rfl⟩ := rebuildRef_inv hstep
        obtain ⟨done, hdone⟩ := n.rebuild_rebuilding r' ref todo
        rw [hdone] at hr
        cases hr
        exact hgrow (h.rebuilding r' hr')
      · rw [hq.rebuilding href] at hr
        exact hgrow (h.rebuilding r hr)
    · rw [hq.delivered]
      exact fun d hd => hgrow (h.delivered d hd)
  | true =>
    cases l with
    | recv frame =>
      obtain ⟨-, rfl⟩ := recv_inv hstep
      obtain _ | _ | _ | _ := frame <;> exact ⟨h.rebuilding, h.delivered⟩
    | handle uuid nexus sink =>
      obtain ⟨⟨-, hidle, -⟩, m, rest, -, rfl⟩ := handle_inv hstep
      have hends := handle_ends (n.env uuid nexus sink) n.state m
      constructor
      · intro r hr
        generalize (Portal.handle (n.env uuid nexus sink) n.state m).outcome = outcome at *
        cases hends with
        | rematerialize channel target actor data hopen hlook =>
          cases hr
          exact hgrow ⟨_, hlook⟩
        | ok => exact absurd (hidle.symm.trans hr) nofun
        | _ => cases hr
      · rw [endTurn_delivered]
        exact fun d hd => hgrow (h.delivered d hd)
    | rebuildDone =>
      obtain ⟨r, hr, -, rfl⟩ := rebuildDone_inv hstep
      obtain ⟨error, heq⟩ | ⟨body, -, -, heq⟩ := n.deliver_cases r
      · rw [heq]
        exact ⟨nofun, h.delivered⟩
      · rw [heq]
        refine ⟨nofun, fun d hd => ?_⟩
        obtain hold | hnew := List.mem_append.mp hd
        · exact h.delivered d hold
        · rw [List.mem_singleton.mp hnew]
          exact h.rebuilding r hr
    | _ => cases hpump

theorem of_run {setup : Setup} {ls : List (Label β)}
    (hrun : Transition.Run Node.step Transition.Any ls (Node.started setup) n) : n.Reached :=
  hrun.invariant (fun _ _ _ h _ hstep => h.step hstep) ⟨nofun, nofun⟩

end Reached

namespace Proxied

theorem frame (h : n.Proxied) (hproxies : n.proxies ⊆ n'.proxies) (hstate : n'.state = n.state)
    (hcreating : ∀ entry ∈ n'.creating, entry ∈ n.creating ∨ entry ∈ n'.proxies)
    (hmail : ∀ id actor, .registerProxyForRemoteActor id actor ∈ n'.mailbox →
      .registerProxyForRemoteActor id actor ∈ n.mailbox ∨ (actor, id) ∈ n'.proxies) : n'.Proxied where
  table id actor hlook := hproxies (h.table id actor (hstate ▸ hlook))
  mailbox id actor hm := (hmail id actor hm).elim (fun hold => hproxies (h.mailbox id actor hold)) fun hnew => hnew
  creating entry he := (hcreating entry he).elim (fun hold => hproxies (h.creating entry hold)) fun hnew => hnew

theorem handle (h : n.Proxied) {uuid : OpaqueActorId} {nexus : Option (Option ActorId)} {sink : SinkResult}
    (hstep : Node.step (.handle uuid nexus sink) n = some n') : n'.Proxied := by
  obtain ⟨-, m, rest, hmail, rfl⟩ := handle_inv hstep
  have htable : ∀ id actor,
      (Portal.handle (n.env uuid nexus sink) n.state m).state.proxiesForRemoteActors.lookup id = some actor →
      (actor, id) ∈ n.proxies := by
    intro id actor hlook
    obtain hold | rfl := of_lookup_proxies hlook
    · exact h.table id actor hold
    · exact h.mailbox id actor (hmail ▸ List.mem_cons_self)
  have hrest : ∀ id actor, .registerProxyForRemoteActor id actor ∈ rest → (actor, id) ∈ n.proxies :=
    fun id actor hm => h.mailbox id actor (hmail ▸ List.mem_cons_of_mem _ hm)
  cases (Portal.handle (n.env uuid nexus sink) n.state m).outcome with
  | ok => exact ⟨htable, hrest, h.creating⟩
  | rematerialize => exact ⟨htable, hrest, h.creating⟩
  | stop => exact ⟨htable, fun _ _ hm => absurd hm List.not_mem_nil, fun _ he => absurd he List.not_mem_nil⟩
  | err => exact ⟨htable, fun _ _ hm => absurd hm List.not_mem_nil, fun _ he => absurd he List.not_mem_nil⟩

theorem step (h : n.Proxied) (hstep : Node.step l n = some n') : n'.Proxied := by
  cases hpump : l.isPump with
  | false =>
    have hq := quiet_of_step hpump hstep
    cases l with
    | instantiate remote =>
      obtain rfl := instantiate_inv hstep
      refine h.frame (List.subset_append_left _ _) rfl ?_ fun _ _ hm => .inl hm
      exact fun entry he => (List.mem_append.mp he).imp_right (List.mem_append_right _)
    | register proxy =>
      obtain ⟨remote, rest, hdequeue, rfl⟩ := register_inv hstep
      have hperm := Queues.perm_of_dequeue hdequeue
      refine h.frame (List.Subset.refl _) rfl ?_ ?_
      · exact fun entry he => .inl (hperm.mem_iff.mpr (List.mem_cons_of_mem _ he))
      · intro id actor hm
        obtain hold | hnew := mem_mailbox_post hm
        · exact .inl hold
        · cases hnew
          exact .inr (h.creating _ (hperm.mem_iff.mpr List.mem_cons_self))
    | rebuildRef =>
      obtain ⟨r, ref, todo, -, -, rfl⟩ := rebuildRef_inv hstep
      -- a reference in a message is registered as soon as its proxy is there
      obtain ⟨hproxies, hcreating, hstate, hmailbox⟩ := n.rebuild_fields r ref todo
      refine h.frame (hproxies ▸ List.subset_append_left _ _) hstate ?_ ?_
      · exact fun entry he => .inl (hcreating ▸ he)
      · intro id actor hm
        obtain hold | hnew := mem_mailbox_post (n := n) (m := .registerProxyForRemoteActor ref.id n.nextActor)
          (hmailbox ▸ hm)
        · exact .inl hold
        · cases hnew
          exact .inr (hproxies ▸ List.mem_append_right _ (List.mem_singleton_self _))
    | _ =>
      refine h.frame (hq.proxies (by simp) (by simp) ▸ List.Subset.refl _) hq.state ?_ ?_
      · exact fun entry he => .inl (hq.creating (by simp) (by simp) ▸ he)
      · intro id actor hm
        obtain ⟨ms, hmail, hposts⟩ := hq.mailbox
        rw [hmail] at hm
        refine (List.mem_append.mp hm).imp_right fun hnew => ?_
        exact absurd (hposts _ hnew) (Node.register_not_posted (by simp) (by simp))
  | true =>
    cases l with
    | recv frame =>
      obtain ⟨-, rfl⟩ := recv_inv hstep
      obtain _ | _ | _ | _ := frame <;>
        exact h.frame (List.Subset.refl _) rfl (fun _ he => .inl he)
          fun id actor hm => (mem_mailbox_post hm).imp_right nofun
    | handle uuid nexus sink => exact h.handle hstep
    | rebuildDone =>
      obtain ⟨r, -, -, rfl⟩ := rebuildDone_inv hstep
      obtain ⟨error, heq⟩ | ⟨body, -, -, heq⟩ := n.deliver_cases r
      · rw [heq]
        exact h.frame (List.Subset.refl _) rfl (fun _ he => absurd he List.not_mem_nil)
          fun _ _ hm => absurd hm List.not_mem_nil
      · rw [heq]
        exact h.frame (List.Subset.refl _) rfl (fun _ he => .inl he) fun _ _ hm => .inl hm
    | _ => cases hpump

end Proxied
end Node
end

/-! ## Confinement -/

/-- The step is a turn in which the portal publishes `actor`. -/
def PublishesIn (actor : ActorId) (l : Label β) (n : Node β) : Prop :=
  ∃ uuid nexus sink m rest, l = .handle uuid nexus sink ∧ n.mailbox = m :: rest ∧
    m.publishes n.state nexus = some actor

/-- Local code had the actor from the start of the run, or has started it. -/
def StartedLocally (setup : Setup) (ls : List (Label β)) (n : Node β) (actor : ActorId) : Prop :=
  actor < setup.actors ∨ ∃ before after u, ls = before ++ .spawnActor :: after ∧
    Transition.Run Node.step Transition.Any before (Node.started setup) u ∧
    Transition.Run Node.step Transition.Any (.spawnActor :: after) u n ∧ actor = u.nextActor

section

variable {setup : Setup} {ls : List (Label β)} {n n' u v : Node β} {l : Label β} {actor : ActorId}

/-- An actor that is no proxy does not become one. -/
theorem not_proxy_of_run (hrun : Transition.Run Node.step Transition.Any ls n n')
    (h : (∀ r, (actor, r) ∉ n.proxies) ∧ actor < n.nextActor) :
    (∀ r, (actor, r) ∉ n'.proxies) ∧ actor < n'.nextActor := by
  refine hrun.invariant (P := fun n => (∀ r, (actor, r) ∉ n.proxies) ∧ actor < n.nextActor) ?_ h
  intro l s t ⟨hno, hlt⟩ _ hstep
  refine ⟨fun r hr => ?_, Nat.lt_of_lt_of_le hlt (Node.nextActor_le_of_step hstep)⟩
  obtain hold | ⟨hnew, -⟩ := Node.proxies_of_step hstep hr
  · exact hno r hold
  · exact Nat.ne_of_lt hlt hnew

theorem not_proxy_of_startedLocally
    (hrun : Transition.Run Node.step Transition.Any ls (Node.started setup) n)
    (h : StartedLocally setup ls n actor) : ∀ r, (actor, r) ∉ n.proxies := by
  obtain hlt | ⟨before, after, u, -, hbefore, hafter, rfl⟩ := h
  · exact (not_proxy_of_run hrun ⟨nofun, hlt⟩).1
  · obtain _ | ⟨_, hstep, hafter⟩ := hafter
    cases hstep
    refine (not_proxy_of_run hafter ⟨fun r hr => ?_, Nat.lt_succ_self _⟩).1
    exact Nat.lt_irrefl _ ((Node.Populated.of_run hbefore).proxies _ hr)

/-- An actor that gets into the registry is published in that step. -/
theorem publishesIn_of_step (hstep : Node.step l u = some v)
    (hbefore : ¬∃ id, u.state.publishedActors.lookup id = some actor)
    (hafter : ∃ id, v.state.publishedActors.lookup id = some actor) :
    PublishesIn actor l u ∧ v.delivered = u.delivered := by
  obtain ⟨id, hid⟩ := hafter
  obtain hidle | ⟨uuid, nexus, sink, m, rest, rfl, -, hmail, hturned⟩ := Node.idle_or_turned hstep
  · rw [hidle.state] at hid
    exact absurd ⟨id, hid⟩ hbefore
  · rw [hturned.state] at hid
    obtain hold | hpublishes := of_lookup_published _ _ hid
    · exact absurd ⟨id, hold⟩ hbefore
    · exact ⟨⟨uuid, nexus, sink, m, rest, rfl, hmail, hpublishes⟩, hturned.delivered⟩

end

/-- **Confinement.** Whatever frames the peer sends: whoever a message was delivered to has been published
    on this portal before, on request or because the nexus had it under a name the peer asked for; and a
    turn stops nothing but a proxy that this side created for the remote id of the exit notice it handles,
    which is neither an actor that local code has started nor one that was published for a reply port. -/
theorem capability_confinement (setup : Setup) (ls : List (Label β)) (n : Node β)
    (hrun : Transition.Run Node.step Transition.Any ls (Node.started setup) n) :
    (∀ actor msg, (actor, msg) ∈ n.delivered → ∃ before l after u v, ls = before ++ l :: after ∧
      Transition.Run Node.step Transition.Any before (Node.started setup) u ∧ PublishesIn actor l u ∧
      Node.step l u = some v ∧ (∀ d ∈ v.delivered, d.1 ≠ actor) ∧
      Transition.Run Node.step Transition.Any after v n) ∧
    ∀ uuid nexus sink m rest, n.mailbox = m :: rest →
      ∀ actor ∈ (handle (n.env uuid nexus sink) n.state m).stopped,
        (∃ id, m = .content (some (.actorExited id)) ∧ (actor, id) ∈ n.proxies) ∧
        ¬StartedLocally setup ls n actor ∧ ∀ port, (actor, port) ∉ n.rpcProxies := by
  constructor
  · intro actor msg hmsg
    let P (n : Node β) : Prop := ∃ id, n.state.publishedActors.lookup id = some actor
    have hempty : ¬P (Node.started setup) := by rintro ⟨id, ⟨⟩⟩
    obtain ⟨before, l, after, u, v, rfl, hbefore, hu, -, hstep, hv, hafter⟩ :=
      hrun.crossing (P := P) hempty ((Node.Reached.of_run hrun).delivered _ hmsg)
    obtain ⟨hpublishes, hdelivered⟩ := publishesIn_of_step hstep hu hv
    refine ⟨before, l, after, u, v, rfl, hbefore, hpublishes, hstep, ?_, hafter⟩
    rintro d hd rfl
    exact hu ((Node.Reached.of_run hbefore).delivered d (hdelivered ▸ hd))
  · intro uuid nexus sink m rest hmail actor hactor
    have hproxied : n.Proxied := by
      refine hrun.invariant (fun _ _ _ h _ hstep => h.step hstep) ?_
      exact ⟨fun _ _ h => (nomatch h), fun _ _ h => absurd h List.not_mem_nil,
        fun _ h => absurd h List.not_mem_nil⟩
    obtain ⟨effect, heffect, heq⟩ := List.mem_filterMap.mp hactor
    cases effect with
    | stop b =>
      cases heq
      cases handle_causes heffect with
      | stop channel id _ hopen hlook =>
        have hproxy := hproxied.table id actor hlook
        refine ⟨⟨id, rfl, hproxy⟩, fun hlocal => not_proxy_of_startedLocally hrun hlocal id hproxy, ?_⟩
        exact fun port hport => (Node.Populated.of_run hrun).disjoint _ hproxy _ hport rfl
    | _ => cases heq

/-- The peer sends a message to actor 0, which is published, and says that what is called 8 on its side, for
    which there is a proxy, has exited. -/
def confined : List (Label Nat) :=
  [.recv (some (.handshake (some (twoSides .right).introduction))), .handle ⟨7⟩ none .flushed,
   .request (.publishActor 0 true), .handle ⟨8⟩ none .flushed,
   .recv (some (.content (some (.sendMessage ⟨⟨0x06060606060606060606060606060606⟩, ⟨1⟩, ⟨8⟩⟩
     { tag := ⟨5, 0⟩, refs := [], body := some 42 })))),
   .handle ⟨9⟩ none .flushed, .rebuildDone,
   .instantiate remoteEight, .register 2, .handle ⟨9⟩ none .flushed,
   .recv (some (.content (some (.actorExited remoteEight))))]

theorem capability_confinement_confined : ∃ n,
    Transition.exec Node.step confined (Node.started (twoSides .left)) = some n ∧
    (∃ before l after u, confined = before ++ l :: after ∧
      Transition.Run Node.step Transition.Any before (Node.started (twoSides .left)) u ∧ PublishesIn 0 l u) ∧
    ∃ id, (2, id) ∈ n.proxies := by
  have heval : (Transition.exec Node.step confined (Node.started (twoSides .left))).map (fun n =>
      decide ((0, { tag := ⟨5, 0⟩, body := 42, refs := [] }) ∈ n.delivered ∧
        n.mailbox = [.content (some (.actorExited remoteEight))] ∧
        2 ∈ (handle (n.env ⟨9⟩ none .flushed) n.state
          (.content (some (.actorExited (β := Nat) remoteEight)))).stopped)) = some true := by
    decide +kernel
  obtain ⟨n, hn, hfacts⟩ := Option.map_eq_some_iff.mp heval
  obtain ⟨hdelivered, hmail, hstopped⟩ := of_decide_eq_true hfacts
  obtain ⟨hreach, hstops⟩ := capability_confinement _ confined n (Transition.run_of_exec hn)
  obtain ⟨before, l, after, u, v, hls, hbefore, hpublishes, -⟩ := hreach 0 _ hdelivered
  obtain ⟨⟨id, -, hproxy⟩, -⟩ := hstops ⟨9⟩ none .flushed _ [] hmail 2 hstopped
  exact ⟨n, hn, ⟨before, l, after, u, hls, hbefore, hpublishes⟩, id, hproxy⟩

end Portal
end Wormhole
