import Wormhole.Portal.Pair

/-!
# `Portal.Linking` — the proxies of a remote actor that has exited

A proxy is registered through the portal's own mailbox, into one slot for each remote id. As long as no
registration overwrites that of a proxy that runs, every running proxy of an id is about to be registered or
is the one in the slot (`Linked`). So an `ActorExited` that finds no registration on its way leaves none
running, and no later one can appear unless it is created later (`Settled`).
-/

namespace Wormhole
namespace Portal

open Queues

variable {β : Type}

/-- The message registers a proxy for `r`. -/
def PortalActorMessage.registers (r : RemoteActorId) : PortalActorMessage β → Bool
  | .registerProxyForRemoteActor id _ => id = r
  | _ => false

/-- A step that handles a registration for `r` does so in an open portal, and replaces no proxy that runs;
    one that handles the exit of `r` does so while no proxy for `r` waits for its registration. -/
def LinksOne (r : RemoteActorId) (l : Label β) (n : Node β) : Prop :=
  match l, n.mailbox with
  | .handle _ _ _, .registerProxyForRemoteActor id actor :: _ =>
    id = r → n.state.channelState.isOpen = true ∧
      ∀ other ∈ n.state.proxiesForRemoteActors.lookup r, other = actor ∨ other ∈ n.exited
  | .handle _ _ _, .content (some (.actorExited id)) :: rest =>
    id = r → (∀ creation ∈ n.creating, creation.2 ≠ r) ∧ ∀ m ∈ rest, m.registers r = false
  | _, _ => True

instance (r : RemoteActorId) (l : Label β) (n : Node β) : Decidable (LinksOne r l n) := by
  unfold LinksOne
  split <;> infer_instance

/-- A creation of a proxy for `r` starts, by a local call or in a rematerializer. -/
def Creates (r : RemoteActorId) (l : Label β) (n : Node β) : Prop :=
  l = .instantiate r ∨ l = .rebuildRef ∧ ∃ rebuilding ref todo,
    n.rebuilding = some rebuilding ∧ rebuilding.todo = ref :: todo ∧ ref.id = r

/-- Where the registration of a proxy for `r` is. -/
inductive Tracked (r : RemoteActorId) (n : Node β) (proxy : ActorId) : Prop where
  | exited (h : proxy ∈ n.exited)
  | creating (h : (proxy, r) ∈ n.creating)
  | posted (h : .registerProxyForRemoteActor r proxy ∈ n.mailbox)
  | registered (h : n.state.proxiesForRemoteActors.lookup r = some proxy)

def Linked (r : RemoteActorId) (n : Node β) : Prop := ∀ proxy, (proxy, r) ∈ n.proxies → Tracked r n proxy

/-- All proxies for `r` have gone, and no registration is left. -/
structure Settled (r : RemoteActorId) (n : Node β) : Prop where
  gone : ∀ proxy, (proxy, r) ∈ n.proxies → proxy ∈ n.exited
  creating : ∀ proxy, (proxy, r) ∉ n.creating
  posted : ∀ actor, .registerProxyForRemoteActor r actor ∉ n.mailbox
  slot : n.state.proxiesForRemoteActors.lookup r = none

section

variable {r : RemoteActorId} {n n' : Node β} {l : Label β}

theorem LinksOne.register {uuid : OpaqueActorId} {nexus : Option (Option ActorId)} {sink : SinkResult}
    {actor : ActorId} {rest : List (PortalActorMessage β)} (h : LinksOne r (.handle uuid nexus sink) n)
    (hmail : n.mailbox = .registerProxyForRemoteActor r actor :: rest) :
    (∃ channel, n.state.channelState = .opened channel) ∧
      ∀ other, n.state.proxiesForRemoteActors.lookup r = some other → other = actor ∨ other ∈ n.exited := by
  simp only [LinksOne, hmail] at h
  obtain ⟨hopen, hother⟩ := h trivial
  exact ⟨PortalConduitState.isOpen_iff.mp hopen, hother⟩

theorem LinksOne.exited {uuid : OpaqueActorId} {nexus : Option (Option ActorId)} {sink : SinkResult}
    {rest : List (PortalActorMessage β)} (h : LinksOne r (.handle uuid nexus sink) n)
    (hmail : n.mailbox = .content (some (.actorExited r)) :: rest) :
    (∀ proxy, (proxy, r) ∉ n.creating) ∧ ∀ actor, .registerProxyForRemoteActor r actor ∉ rest := by
  simp only [LinksOne, hmail] at h
  obtain ⟨hcreating, hposted⟩ := h trivial
  refine ⟨fun proxy hc => hcreating _ hc rfl, fun actor hp => ?_⟩
  simpa [PortalActorMessage.registers] using hposted _ hp

/-- The registration of a proxy is only posted by what created it. -/
theorem not_mem_creating {proxy proxy' : ActorId} {remote : RemoteActorId}
    {rest : Queues ActorId RemoteActorId} (hdequeue : n.creating.dequeue proxy' = some (remote, rest))
    (h : (proxy, r) ∈ n.creating) : proxy = proxy' ∧ r = remote ∨ (proxy, r) ∈ rest := by
  have hmem := (Queues.perm_of_dequeue hdequeue).mem_iff.mp h
  exact (List.mem_cons.mp hmem).imp Prod.mk.inj id

namespace Linked

/-- Every step but a turn. -/
theorem step_of_not_handle (h : Linked r n) (hl : ∀ uuid nexus sink, l ≠ .handle uuid nexus sink)
    (hstep : Node.step l n = some n') (hrun' : n'.life = .running) : Linked r n' := by
  have hrun := Node.life_of_step hstep hrun'
  -- what keeps proxies, creations and the slot, and loses no message
  have hkeep (hproxies : n'.proxies = n.proxies) (hcreating : n'.creating = n.creating)
      (hmail : n.mailbox ⊆ n'.mailbox) (hexited : n.exited ⊆ n'.exited)
      (hstate : n'.state = n.state) : Linked r n' := by
    intro proxy hproxy
    rw [hproxies] at hproxy
    cases h proxy hproxy with
    | exited he => exact .exited (hexited he)
    | creating hc => exact .creating (hcreating ▸ hc)
    | posted hp => exact .posted (hmail hp)
    | registered hr => exact .registered (hstate ▸ hr)
  cases hpump : l.isPump with
  | false =>
    have hq := Node.quiet_of_step hpump hstep
    have hmail : n.mailbox ⊆ n'.mailbox := by
      obtain ⟨ms, hms, -⟩ := hq.mailbox
      rw [hms]
      exact List.subset_append_left _ _
    cases l with
    | instantiate remote =>
      obtain rfl := Node.instantiate_inv hstep
      intro proxy hproxy
      obtain hold | hnew := List.mem_append.mp hproxy
      · cases h proxy hold with
        | exited he => exact .exited he
        | creating hc => exact .creating (List.mem_append_left _ hc)
        | posted hp => exact .posted hp
        | registered hr => exact .registered hr
      · exact .creating (List.mem_append_right _ hnew)
    | register proxy' =>
      obtain ⟨remote, rest, hdequeue, rfl⟩ := Node.register_inv hstep
      intro proxy hproxy
      cases h proxy hproxy with
      | exited he => exact .exited he
      | creating hc =>
        obtain ⟨rfl, rfl⟩ | hrest := not_mem_creating hdequeue hc
        · exact .posted (List.mem_append_right _ (by rw [if_pos hrun]; exact List.mem_singleton_self _))
        · exact .creating hrest
      | posted hp => exact .posted (hmail hp)
      | registered hr => exact .registered hr
    | rebuildRef =>
      obtain ⟨reb, ref, todo, -, -, rfl⟩ := Node.rebuildRef_inv hstep
      obtain ⟨hproxies, hcreating, hstate, hmailbox⟩ := n.rebuild_fields reb ref todo
      have hposted : .registerProxyForRemoteActor ref.id n.nextActor ∈ (n.rebuild reb ref todo).mailbox := by
        rw [hmailbox, if_pos hrun]
        exact List.mem_append_right _ (List.mem_singleton_self _)
      intro proxy hproxy
      rw [hproxies] at hproxy
      obtain hold | hnew := List.mem_append.mp hproxy
      · cases h proxy hold with
        | exited he => exact .exited (hq.exited he)
        | creating hc => exact .creating (hcreating ▸ hc)
        | posted hp => exact .posted (hmail hp)
        | registered hr => exact .registered (hstate ▸ hr)
      · cases List.mem_singleton.mp hnew
        exact .posted hposted
    | _ =>
      exact hkeep (hq.proxies (by simp) (by simp)) (hq.creating (by simp) (by simp)) hmail hq.exited hq.state
  | true =>
    cases l with
    | recv frame =>
      obtain ⟨-, rfl⟩ := Node.recv_inv hstep
      obtain _ | _ | _ | _ := frame <;>
        exact hkeep rfl rfl (List.subset_append_left _ _) (List.Subset.refl _) rfl
    | handle uuid nexus sink => exact absurd rfl (hl uuid nexus sink)
    | rebuildDone =>
      obtain ⟨reb, -, -, rfl⟩ := Node.rebuildDone_inv hstep
      obtain ⟨body, heq⟩ := Node.deliver_of_running n hrun'
      rw [heq] at hkeep ⊢
      exact hkeep rfl rfl (List.Subset.refl _) (List.Subset.refl _) rfl
    | _ => cases hpump

/-- A turn that meets the condition. -/
theorem handle (h : Linked r n) {uuid : OpaqueActorId} {nexus : Option (Option ActorId)}
    {sink : SinkResult} (hgood : LinksOne r (.handle uuid nexus sink) n)
    (hstep : Node.step (.handle uuid nexus sink) n = some n') (hrun' : n'.life = .running) :
    Linked r n' := by
  obtain ⟨-, m, rest, hmail, rfl⟩ := Node.handle_inv hstep
  obtain ⟨rebuilding, heq⟩ := Node.endTurn_of_running _ _ hrun'
  rw [heq]
  set turn := Portal.handle (n.env uuid nexus sink) n.state m
  -- it is enough to follow what is registered, now and by this message
  suffices hslot : ∀ proxy, (m = .registerProxyForRemoteActor r proxy ∨
      n.state.proxiesForRemoteActors.lookup r = some proxy) →
      proxy ∈ n.exited ++ turn.stopped ∨ turn.state.proxiesForRemoteActors.lookup r = some proxy by
    intro proxy hproxy
    cases h proxy hproxy with
    | exited he => exact .exited (List.mem_append_left _ he)
    | creating hc => exact .creating hc
    | posted hp =>
      rw [hmail] at hp
      obtain hm | hrest := List.mem_cons.mp hp
      · exact (hslot proxy (.inl hm.symm)).elim (fun he => .exited he) fun hs => .registered hs
      · exact .posted hrest
    | registered hr => exact (hslot proxy (.inr hr)).elim (fun he => .exited he) fun hs => .registered hs
  intro proxy hproxy
  by_cases hreg : ∃ actor, m = .registerProxyForRemoteActor r actor
  · obtain ⟨actor, rfl⟩ := hreg
    obtain ⟨⟨channel, hopen⟩, hother⟩ := hgood.register hmail
    have hlook : turn.state.proxiesForRemoteActors.lookup r = some actor :=
      lookup_proxies_register _ _ hopen r actor
    obtain hm | hold := hproxy
    · cases hm
      exact .inr hlook
    · obtain rfl | hgone := hother proxy hold
      · exact .inr hlook
      · exact .inl (List.mem_append_left _ hgone)
  · obtain hm | hold := hproxy
    · exact absurd ⟨proxy, hm⟩ hreg
    · by_cases hexit : m = .content (some (.actorExited r))
      · subst hexit
        cases hphase : n.state.channelState with
        | opening own =>
          refine .inr ?_
          have : turn.state = n.state := by
            simp only [turn, Portal.handle, handleContent, hphase]
          rw [this]
          exact hold
        | opened channel =>
          exact .inl (List.mem_append_right _ ((lookup_proxies_exited _ _ hphase r).2 proxy hold))
      · refine .inr ?_
        rw [lookup_proxies_of_ne _ _ m (fun actor hm => hreg ⟨actor, hm⟩) hexit]
        exact hold

theorem step (h : Linked r n) (hgood : LinksOne r l n) (hstep : Node.step l n = some n')
    (hrun' : n'.life = .running) : Linked r n' := by
  by_cases hl : ∃ uuid nexus sink, l = .handle uuid nexus sink
  · obtain ⟨uuid, nexus, sink, rfl⟩ := hl
    exact h.handle hgood hstep hrun'
  · exact h.step_of_not_handle (fun uuid nexus sink heq => hl ⟨uuid, nexus, sink, heq⟩) hstep hrun'

/-- **The turn that handles the exit of `r`.** -/
theorem settles (h : Linked r n) {uuid : OpaqueActorId} {nexus : Option (Option ActorId)}
    {sink : SinkResult} {rest : List (PortalActorMessage β)}
    (hmail : n.mailbox = .content (some (.actorExited r)) :: rest)
    (hgood : LinksOne r (.handle uuid nexus sink) n)
    (hstep : Node.step (.handle uuid nexus sink) n = some n') (hrun' : n'.life = .running) :
    Settled r n' := by
  obtain ⟨-, m, rest', hmail', rfl⟩ := Node.handle_inv hstep
  obtain ⟨hcreating, hposted⟩ := hgood.exited hmail
  rw [hmail] at hmail'
  cases hmail'
  obtain ⟨rebuilding, heq⟩ := Node.endTurn_of_running _ _ hrun'
  cases hphase : n.state.channelState with
  | opening own =>
    -- content before the handshake stops the portal
    have hstop : Portal.handle (β := β) (n.env uuid nexus sink) n.state (.content (some (.actorExited r))) =
        { state := n.state, outcome := .stop .contentBeforeHandshake } := by
      simp only [Portal.handle, handleContent, hphase]
    rw [hstop] at hrun'
    cases hrun'
  | opened channel =>
    obtain ⟨hnone, hstopped⟩ := lookup_proxies_exited (β := β) (n.env uuid nexus sink) n.state hphase r
    rw [heq]
    refine ⟨fun proxy hproxy => ?_, hcreating, hposted, hnone⟩
    cases h proxy hproxy with
    | exited he => exact List.mem_append_left _ he
    | creating hc => exact absurd hc (hcreating proxy)
    | posted hp =>
      rw [hmail] at hp
      obtain hm | hr := List.mem_cons.mp hp
      · cases hm
      · exact absurd hr (hposted proxy)
    | registered hr => exact List.mem_append_right _ (hstopped proxy hr)

end Linked

namespace Settled

/-- Every step that creates no proxy for `r`. -/
theorem step (h : Settled r n) (hno : ¬Creates r l n) (hstep : Node.step l n = some n')
    (hrun' : n'.life = .running) : Settled r n' := by
  have hrun := Node.life_of_step hstep hrun'
  -- first the steps that leave the state of the portal alone, then its own turns and what is received
  cases hpump : l.isPump with
  | false =>
    have hq := Node.quiet_of_step hpump hstep
    have hslot : n'.state.proxiesForRemoteActors.lookup r = none := by rw [hq.state]; exact h.slot
    cases l with
    | instantiate remote =>
      have hne : remote ≠ r := by rintro rfl; exact hno (.inl rfl)
      obtain rfl := Node.instantiate_inv hstep
      refine ⟨fun proxy hproxy => ?_, fun proxy hc => ?_, h.posted, hslot⟩
      · obtain hold | hnew := List.mem_append.mp hproxy
        · exact h.gone proxy hold
        · cases List.mem_singleton.mp hnew
          exact absurd rfl hne
      · obtain hold | hnew := List.mem_append.mp hc
        · exact h.creating proxy hold
        · cases List.mem_singleton.mp hnew
          exact absurd rfl hne
    | register proxy' =>
      obtain ⟨remote, rest, hdequeue, rfl⟩ := Node.register_inv hstep
      have hperm := Queues.perm_of_dequeue hdequeue
      -- none is being created for `r`, so this proxy is for another actor
      have hne : remote ≠ r := by
        rintro rfl
        exact h.creating proxy' (hperm.mem_iff.mpr List.mem_cons_self)
      refine ⟨h.gone, fun proxy hc => ?_, fun actor hp => ?_, hslot⟩
      · exact h.creating proxy (hperm.mem_iff.mpr (List.mem_cons_of_mem _ hc))
      · obtain hold | hnew := List.mem_append.mp hp
        · exact h.posted actor hold
        · rw [if_pos hrun] at hnew
          cases List.mem_singleton.mp hnew
          exact hne rfl
    | rebuildRef =>
      obtain ⟨reb, ref, todo, hreb, htodo, rfl⟩ := Node.rebuildRef_inv hstep
      have hne : ref.id ≠ r := fun heq => hno (.inr ⟨rfl, reb, ref, todo, hreb, htodo, heq⟩)
      obtain ⟨hproxies, hcreating, -, hmail⟩ := n.rebuild_fields reb ref todo
      refine ⟨fun proxy hproxy => ?_, hcreating ▸ h.creating, fun actor hp => ?_, hslot⟩
      · rw [hproxies] at hproxy
        obtain hold | hnew := List.mem_append.mp hproxy
        · exact hq.exited (h.gone proxy hold)
        · cases List.mem_singleton.mp hnew
          exact absurd rfl hne
      · rw [hmail, if_pos hrun] at hp
        obtain hold | hnew := List.mem_append.mp hp
        · exact h.posted actor hold
        · cases List.mem_singleton.mp hnew
          exact hne rfl
    | _ =>
      obtain ⟨ms, hmail, hposts⟩ := hq.mailbox
      refine ⟨fun proxy hproxy => ?_, ?_, fun actor hp => ?_, hslot⟩
      · rw [hq.proxies (by simp) (by simp)] at hproxy
        exact hq.exited (h.gone proxy hproxy)
      · rw [hq.creating (by simp) (by simp)]
        exact h.creating
      · rw [hmail] at hp
        obtain hold | hnew := List.mem_append.mp hp
        · exact h.posted actor hold
        · exact Node.register_not_posted (by simp) (by simp) (hposts _ hnew)
  | true =>
    cases l with
    | recv frame =>
      obtain ⟨-, rfl⟩ := Node.recv_inv hstep
      have hpost (m : PortalActorMessage β) (hm : ∀ actor, m ≠ .registerProxyForRemoteActor r actor) :
          ∀ actor, .registerProxyForRemoteActor r actor ∉ (n.post m).mailbox := by
        intro actor hp
        obtain hold | hnew := List.mem_append.mp hp
        · exact h.posted actor hold
        · rw [if_pos hrun] at hnew
          exact hm actor (List.mem_singleton.mp hnew).symm
      obtain _ | _ | _ | _ := frame <;> exact ⟨h.gone, h.creating, hpost _ (by simp), h.slot⟩
    | handle uuid nexus sink =>
      obtain ⟨-, m, rest, hmail, rfl⟩ := Node.handle_inv hstep
      obtain ⟨rebuilding, heq⟩ := Node.endTurn_of_running _ _ hrun'
      rw [heq]
      have hrest : ∀ actor, PortalActorMessage.registerProxyForRemoteActor r actor ∉ rest := fun actor hp =>
        h.posted actor (hmail ▸ List.mem_cons_of_mem m hp)
      have hm : ∀ actor, m ≠ .registerProxyForRemoteActor r actor := by
        rintro actor rfl
        exact h.posted actor (hmail ▸ List.mem_cons_self)
      refine ⟨fun proxy hproxy => List.mem_append_left _ (h.gone proxy hproxy), h.creating, hrest, ?_⟩
      -- no registration is in the mailbox, so the slot stays empty; the news of the exit empties it as well
      by_cases hexit : m = .content (some (.actorExited r))
      · subst hexit
        cases hphase : n.state.channelState with
        | opening own =>
          show (Portal.handle _ n.state _).state.proxiesForRemoteActors.lookup r = none
          simp only [Portal.handle, handleContent, hphase]
          exact h.slot
        | opened channel => exact (lookup_proxies_exited _ _ hphase r).1
      · exact (lookup_proxies_of_ne _ _ m hm hexit).trans h.slot
    | rebuildDone =>
      obtain ⟨reb, -, -, rfl⟩ := Node.rebuildDone_inv hstep
      obtain ⟨body, heq⟩ := Node.deliver_of_running n hrun'
      rw [heq]
      exact ⟨h.gone, h.creating, h.posted, h.slot⟩
    | _ => cases hpump

end Settled

end

/-! ## Runs -/

/-- **The exit of a remote actor stops all its proxies.** In a run of a portal that handles the exit of `r`
    and creates no proxy for `r` after that, if every step up to there meets `LinksOne r`, then from there on
    no proxy for `r` runs and none is registered. -/
theorem no_proxy_left (setup : Setup) (r : RemoteActorId) (ls ls' : List (Label β)) (s s' t : Node β)
    (uuid : OpaqueActorId) (nexus : Option (Option ActorId)) (sink : SinkResult)
    (rest : List (PortalActorMessage β))
    (hbefore : Transition.Run Node.step (LinksOne r) ls (Node.started setup) s)
    (hmail : s.mailbox = .content (some (.actorExited r)) :: rest)
    (hhere : Transition.Run Node.step (LinksOne r) [.handle uuid nexus sink] s s')
    (hafter : Transition.Run Node.step (fun l n => ¬Creates r l n) ls' s' t) (hlife : t.life = .running) :
    (∀ proxy, (proxy, r) ∈ t.proxies → proxy ∈ t.exited) ∧
      t.state.proxiesForRemoteActors.lookup r = none := by
  have hlife' : s'.life = .running := Node.life_of_run hafter hlife
  have hlinked : s.life = .running → Linked r s := by
    apply hbefore.invariant (P := fun n => n.life = .running → Linked r n)
    · intro l n n' h hgood hstep hrun'
      exact (h (Node.life_of_step hstep hrun')).step hgood hstep hrun'
    · rintro - proxy ⟨⟩
  obtain _ | ⟨hgood, hstep, _ | _⟩ := hhere
  have hsettled : Settled r s' :=
    (hlinked (Node.life_of_step hstep hlife')).settles hmail hgood hstep hlife'
  have hend : t.life = .running → Settled r t := by
    apply hafter.invariant (P := fun n => n.life = .running → Settled r n)
    · intro l n n' h hno hstep hrun'
      exact (h (Node.life_of_step hstep hrun')).step hno hstep hrun'
    · exact fun _ => hsettled
  exact ⟨(hend hlife).gone, (hend hlife).slot⟩

/-- The portal opens. -/
def opens : List (Label Nat) :=
  [.recv (some (.handshake (some (twoSides .right).introduction))), .handle ⟨8⟩ none .flushed]

/-- Two proxies for one remote actor are created and registered, and then it exits. -/
def linkedTwice : List (Label Nat) :=
  opens ++ [.instantiate remoteEight, .register 2, .handle ⟨8⟩ none .flushed,
    .instantiate remoteEight, .register 3, .handle ⟨8⟩ none .flushed,
    .recv (some (.content (some (.actorExited remoteEight)))), .handle ⟨8⟩ none .flushed]

/-- The exit is in the mailbox before the registration of a proxy that has been created. -/
def linkedLate : List (Label Nat) :=
  opens ++ [.instantiate remoteEight, .recv (some (.content (some (.actorExited remoteEight)))), .register 2,
    .handle ⟨8⟩ none .flushed, .handle ⟨8⟩ none .flushed]

/-- All registrations and the exit have been handled, and the first of two proxies goes on running; or one
    proxy runs and stays registered. -/
theorem proxies_outlive_exit :
    (∃ n, Transition.exec Node.step linkedTwice (Node.started (twoSides .left)) = some n ∧
      n.life = .running ∧ n.creating = [] ∧ n.mailbox = [] ∧
      (2, remoteEight) ∈ n.proxies ∧ 2 ∉ n.exited) ∧
    (∃ n, Transition.exec Node.step linkedLate (Node.started (twoSides .left)) = some n ∧
      n.life = .running ∧ n.creating = [] ∧ n.mailbox = [] ∧
      (2, remoteEight) ∈ n.proxies ∧ 2 ∉ n.exited ∧
      n.state.proxiesForRemoteActors.lookup remoteEight = some 2) := by
  have htwice : (Transition.exec Node.step linkedTwice (Node.started (twoSides .left))).map (fun n =>
      decide (n.life = .running ∧ n.creating = [] ∧ n.mailbox = [] ∧
        (2, remoteEight) ∈ n.proxies ∧ 2 ∉ n.exited)) = some true := by
    decide +kernel
  have hlate : (Transition.exec Node.step linkedLate (Node.started (twoSides .left))).map (fun n =>
      decide (n.life = .running ∧ n.creating = [] ∧ n.mailbox = [] ∧
        (2, remoteEight) ∈ n.proxies ∧ 2 ∉ n.exited ∧
        n.state.proxiesForRemoteActors.lookup remoteEight = some 2)) = some true := by
    decide +kernel
  obtain ⟨n, hn, hfacts⟩ := Option.map_eq_some_iff.mp htwice
  obtain ⟨n', hn', hfacts'⟩ := Option.map_eq_some_iff.mp hlate
  exact ⟨⟨n, hn, of_decide_eq_true hfacts⟩, n', hn', of_decide_eq_true hfacts'⟩

/-- One proxy is registered before the remote actor exits. -/
def linkedOnce : List (Label Nat) :=
  opens ++ [.instantiate remoteEight, .register 2, .handle ⟨8⟩ none .flushed,
    .recv (some (.content (some (.actorExited remoteEight))))]

theorem no_proxy_left_once : ∃ s t, Transition.exec Node.step linkedOnce (Node.started (twoSides .left)) = some s ∧
    Node.step (.handle ⟨8⟩ none .flushed) s = some t ∧ t.proxies = [(2, remoteEight)] ∧
    (∀ proxy, (proxy, remoteEight) ∈ t.proxies → proxy ∈ t.exited) ∧
    t.state.proxiesForRemoteActors.lookup remoteEight = none := by
  let good := Transition.guarded (Node.step (β := Nat)) (LinksOne remoteEight)
  have heval : (Transition.exec good linkedOnce (Node.started (twoSides .left))).bind (fun s =>
      (Transition.exec good [.handle ⟨8⟩ none .flushed] s).map fun t =>
        (decide (s.mailbox = [.content (some (.actorExited remoteEight))]), t.life, t.proxies)) =
      some (true, .running, [(2, remoteEight)]) := by
    decide +kernel
  obtain ⟨s, hs, hrest⟩ := Option.bind_eq_some_iff.mp heval
  obtain ⟨t, ht, hfacts⟩ := Option.map_eq_some_iff.mp hrest
  injection hfacts with hmail hfacts
  injection hfacts with hlife hproxies
  have hbefore := Transition.run_of_exec_guarded hs
  have hhere := Transition.run_of_exec_guarded ht
  obtain ⟨hgone, hslot⟩ := no_proxy_left (twoSides .left) remoteEight linkedOnce [] s t t ⟨8⟩ none .flushed []
    hbefore (of_decide_eq_true hmail) hhere (.nil t) hlife
  obtain _ | ⟨-, hstep, _ | _⟩ := hhere
  exact ⟨s, t, hbefore.exec, hstep, hproxies, hgone, hslot⟩

end Portal
end Wormhole
