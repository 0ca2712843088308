import Wormhole.Nexus.World

/-!
# `Nexus.Steps` — what one step can do to a nexus and its portals

A step moves the nexus or one portal. From this follows what the table of the nexus is worth: in every
reachable state in which the nexus runs it lists the portals that run, and those whose end it has yet to hear
of.
-/

namespace Wormhole
namespace Nexus

open Portal

variable {β : Type}

namespace World

section

variable {w w' : World β} {portal : ActorId}

/-! ## Inversion -/

/-- **A turn of the nexus**: it runs, and the first message of its mailbox is handled. -/
theorem handle_inv {draws : Draws} (h : step (.handle draws) w = some w') :
    w.life = .running ∧ ∃ m rest, w.mailbox = m :: rest ∧
      w' = (w.takeTurn rest (handle (w.env draws) w.state m)).endTurn
        (handle (β := β) (w.env draws) w.state m).error := by
  simp only [step] at h
  split at h
  · rename_i hlife
    split at h
    · cases h
    · rename_i m rest hmail
      exact ⟨hlife, m, rest, hmail, (Option.some.inj h).symm⟩
  · cases h

theorem handle_step {draws : Draws} {m : NexusActorMessage} {rest : List NexusActorMessage}
    {turn : NexusTurn β} (hlife : w.life = .running) (hmail : w.mailbox = m :: rest)
    (hturn : handle (w.env draws) w.state m = turn) :
    step (.handle draws) w = some ((w.takeTurn rest turn).endTurn turn.error) := by
  simp only [step, if_pos hlife, hmail, hturn]

theorem supervise_inv (h : step .supervise w = some w') :
    w.life = .running ∧ ∃ event rest, w.events = event :: rest ∧
      w' = { w with events := rest, state := handleSupervisorEvt w.state event } := by
  simp only [step] at h
  split at h
  · rename_i hlife
    split at h
    · cases h
    · rename_i event rest hevents
      exact ⟨hlife, event, rest, hevents, (Option.some.inj h).symm⟩
  · cases h

theorem request_inv {request : NexusRequest} (h : step (.request request) w = some w') :
    w.Permits request ∧ w' = { w.post (w.requestMessage request) with nextReceiver := w.nextReceiver + 1 } := by
  simp only [step] at h
  split at h
  · rename_i hpermits
    exact ⟨hpermits, (Option.some.inj h).symm⟩
  · cases h

theorem dropReceiver_inv {receiver : Receiver} (h : step (.dropReceiver receiver) w = some w') :
    (receiver.holder = none ∧ receiver.number < w.nextReceiver) ∧ w' = { w with dropped := w.dropped ++ [receiver] } := by
  simp only [step] at h
  split at h
  · rename_i hheld
    exact ⟨hheld, (Option.some.inj h).symm⟩
  · cases h

theorem exit_inv {actor : ActorId} (h : step (.exit actor) w = some w') :
    (actor < w.nextActor ∧ actor ∉ w.exited ∧ w.node actor = none) ∧ w' = { w with exited := w.exited ++ [actor] } := by
  simp only [step] at h
  split at h
  · rename_i hcan
    exact ⟨hcan, (Option.some.inj h).symm⟩
  · cases h

/-- **A step of a side** is a step of that side alone. A portal that takes a message waits no more. -/
theorem portal_inv {label : Label β} (h : step (.portal portal label) w = some w') :
    ∃ n n', w.node portal = some n ∧ Node.step label (w.enter n) = some n' ∧
      ((∀ uuid answer sink, label ≠ .handle uuid answer sink) ∧ w' = w.leave portal n n' ∨
        ∃ uuid answer sink, label = .handle uuid answer sink ∧ w.consulted portal n = some answer ∧
          w' = { w with asking := w.asking.erase portal }.leave portal n n') := by
  simp only [step] at h
  split at h
  · cases h
  · rename_i n hnode
    cases label with
    | exit actor => cases h
    | spawnActor => cases h
    | handle uuid answer sink =>
      simp only [movePortal] at h
      split at h
      · rename_i hconsulted
        obtain ⟨n', hmove, rfl⟩ := Option.map_eq_some_iff.mp h
        exact ⟨n, n', hnode, hmove, .inr ⟨uuid, answer, sink, rfl, hconsulted, rfl⟩⟩
      · cases h
    | _ =>
      simp only [movePortal] at h
      obtain ⟨n', hmove, rfl⟩ := Option.map_eq_some_iff.mp h
      exact ⟨n, n', hnode, hmove, .inl ⟨by rintro _ _ _ ⟨⟩, rfl⟩⟩

theorem portal_leaves {label : Label β} (h : step (.portal portal label) w = some w') :
    ∃ n n' asking, w.node portal = some n ∧ Node.step label (w.enter n) = some n' ∧
      w' = { w with asking }.leave portal n n' := by
  obtain ⟨n, n', hnode, hmove, ⟨-, rfl⟩ | ⟨uuid, answer, sink, -, -, rfl⟩⟩ := portal_inv h
  · exact ⟨n, n', w.asking, hnode, hmove, rfl⟩
  · exact ⟨n, n', w.asking.erase portal, hnode, hmove, rfl⟩

theorem ask_inv (h : step (.ask portal) w = some w') :
    ∃ n name, (w.node portal = some n ∧ asks n = some name) ∧ (n.rebuilding = none ∧ w.asking.lookup portal = none) ∧
      w' = { w.post (.queryNamedActor name ⟨some portal, w.nextReceiver⟩) with
        asking := w.asking.insert portal ⟨some portal, w.nextReceiver⟩
        nextReceiver := w.nextReceiver + 1 } := by
  simp only [step] at h
  split at h
  · cases h
  · rename_i n hnode
    split at h
    · rename_i hguard
      obtain ⟨name, hname, rfl⟩ := Option.map_eq_some_iff.mp h
      exact ⟨n, name, ⟨hnode, hname⟩, hguard.2, rfl⟩
    · cases h

theorem terminate_inv (h : step (.terminate portal) w = some w') :
    ∃ n, w.node portal = some n ∧ n.life = .running ∧
      w' = { w with
        asking := w.asking.erase portal
        dropped := w.dropped ++ (w.asking.lookup portal).toList }.leave portal n ((w.enter n).halt .terminated) := by
  simp only [step] at h
  split at h
  · cases h
  · rename_i n hnode
    split at h
    · rename_i hrun
      exact ⟨n, hnode, hrun, (Option.some.inj h).symm⟩
    · cases h

/-! ## Frames -/

@[simp] theorem env_portal (draws : Draws) : (w.env draws).portal = w.nextActor := rfl

theorem leave_node_ne {n n' : Node β} {q : ActorId} (h : q ≠ portal) :
    (w.leave portal n n').node q = w.node q := if_neg h

@[simp] theorem leave_node_self {n n' : Node β} : (w.leave portal n n').node portal = some n' := if_pos rfl

/-- The end of a portal is reported once. -/
theorem leave_events (w : World β) (portal : ActorId) (n n' : Node β) :
    (w.leave portal n n').events = w.events ∨
      ∃ event, event.actor = portal ∧ n.life = .running ∧ n'.life ≠ .running ∧
        (w.leave portal n n').events = w.events ++ [event] := by
  unfold leave
  dsimp only
  split
  · rename_i hrun
    cases hlife : n'.life with
    | running => exact .inl (List.append_nil _)
    | _ => exact .inr ⟨_, rfl, hrun, nofun, rfl⟩
  · exact .inl (List.append_nil _)

theorem mem_leave_events {n n' : Node β} {event : SupervisionEvent}
    (h : event ∈ (w.leave portal n n').events) :
    event ∈ w.events ∨ event.actor = portal ∧ n.life = .running ∧ n'.life ≠ .running := by
  obtain heq | ⟨event', hactor, hrun, hended, heq⟩ := leave_events w portal n n'
  · exact .inl (heq ▸ h)
  · rw [heq] at h
    obtain hold | hnew := List.mem_append.mp h
    · exact .inl hold
    · obtain rfl := List.mem_singleton.mp hnew
      exact .inr ⟨hactor, hrun, hended⟩

/-- A portal that ends is reported. -/
theorem leave_reports {n n' : Node β} (hrun : n.life = .running) (hended : n'.life ≠ .running) :
    ∃ event ∈ (w.leave portal n n').events, event.actor = portal := by
  unfold leave
  rw [if_pos hrun]
  cases hlife : n'.life with
  | running => exact absurd hlife hended
  | _ => exact ⟨_, List.mem_append_right _ (List.mem_singleton_self _), rfl⟩

theorem leave_keeps_events {n n' : Node β} {event : SupervisionEvent} (h : event ∈ w.events) :
    event ∈ (w.leave portal n n').events := List.mem_append_left _ h

/-- An event is about a portal that has ended. -/
theorem ended_leave {n n' : Node β} (hended : ∀ event ∈ w.events, ∃ m, w.node event.actor = some m ∧ m.life ≠ .running)
    (hnode : w.node portal = some n) (hlife : n'.life = .running → n.life = .running) :
    ∀ event ∈ (w.leave portal n n').events,
      ∃ m, (w.leave portal n n').node event.actor = some m ∧ m.life ≠ .running := by
  intro event hevent
  obtain hold | ⟨hactor, -, hended'⟩ := mem_leave_events hevent
  · obtain ⟨m, hm, hmlife⟩ := hended event hold
    by_cases hp : event.actor = portal
    · rw [hp, hnode] at hm
      cases hm
      exact ⟨n', by rw [hp, leave_node_self], fun hrun => hmlife (hlife hrun)⟩
    · exact ⟨m, by rw [leave_node_ne hp, hm], hmlife⟩
  · exact ⟨n', by rw [hactor, leave_node_self], hended'⟩

/-- No end is reported twice: a portal that still runs has not been reported. -/
theorem once_leave {n n' : Node β} (hended : ∀ event ∈ w.events, ∃ m, w.node event.actor = some m ∧ m.life ≠ .running)
    (honce : (w.events.map (·.actor)).Nodup) (hnode : w.node portal = some n) :
    ((w.leave portal n n').events.map (·.actor)).Nodup := by
  obtain heq | ⟨event, hactor, hrun, -, heq⟩ := leave_events w portal n n'
  · rw [heq]
    exact honce
  · rw [heq, List.map_append]
    refine List.nodup_append'.mpr ⟨honce, List.nodup_singleton _, ?_⟩
    intro p hold hnew
    have hp : p = portal := (List.mem_singleton.mp hnew).trans hactor
    obtain ⟨event', hevent', hsame⟩ := List.mem_map.mp hold
    obtain ⟨m, hm, hmlife⟩ := hended event' hevent'
    rw [show event'.actor = portal from hsame.trans hp, hnode] at hm
    cases hm
    exact hmlife hrun

/-- The portals of a nexus that fails are terminated. -/
theorem not_running_of_fail {error : NexusError} {n : Node β} (h : (w.fail error).node portal = some n) :
    n.life ≠ .running := by
  obtain ⟨m, -, rfl⟩ := Option.map_eq_some_iff.mp h
  split
  · exact nofun
  · rename_i hended
    exact hended

/-- A nexus that runs has always run. -/
theorem life_of_step {l : WorldLabel β} (h : step l w = some w') (hrun : w'.life = .running) :
    w.life = .running := by
  cases l with
  | request r =>
    obtain ⟨-, rfl⟩ := request_inv h
    exact hrun
  | dropReceiver receiver =>
    obtain ⟨-, rfl⟩ := dropReceiver_inv h
    exact hrun
  | handle draws => exact (handle_inv h).1
  | supervise => exact (supervise_inv h).1
  | ask portal =>
    obtain ⟨n, name, -, -, rfl⟩ := ask_inv h
    exact hrun
  | portal portal label =>
    obtain ⟨n, n', asking, -, -, rfl⟩ := portal_leaves h
    exact hrun
  | terminate portal =>
    obtain ⟨n, -, -, rfl⟩ := terminate_inv h
    exact hrun
  | spawnActor => cases h; exact hrun
  | exit actor =>
    obtain ⟨-, rfl⟩ := exit_inv h
    exact hrun

end

/-! ## The table -/

/-- The portal runs, or the nexus has yet to hear of its end. -/
def Listed (w : World β) (portal : ActorId) : Prop :=
  ∃ n, w.node portal = some n ∧ (n.life = .running ∨ ∃ event ∈ w.events, event.actor = portal)

/-- A portal that ends stays listed until the nexus has heard of it. -/
theorem listed_leave {w : World β} {portal : ActorId} {n : Node β} (n' : Node β) (hnode : w.node portal = some n)
    (hlife : n'.life = .running → n.life = .running) (p : ActorId) :
    (w.leave portal n n').Listed p ↔ w.Listed p := by
  constructor
  · rintro ⟨m, hm, hwhy⟩
    by_cases hp : p = portal
    · subst hp
      rw [leave_node_self] at hm
      cases hm
      refine ⟨n, hnode, ?_⟩
      obtain hrun | ⟨event, hevent, hactor⟩ := hwhy
      · exact .inl (hlife hrun)
      · obtain hold | ⟨-, hrun, -⟩ := mem_leave_events hevent
        · exact .inr ⟨event, hold, hactor⟩
        · exact .inl hrun
    · rw [leave_node_ne hp] at hm
      refine ⟨m, hm, hwhy.imp id ?_⟩
      rintro ⟨event, hevent, hactor⟩
      obtain hold | ⟨hportal, -⟩ := mem_leave_events hevent
      · exact ⟨event, hold, hactor⟩
      · exact absurd (hactor.symm.trans hportal) hp
  · rintro ⟨m, hm, hwhy⟩
    by_cases hp : p = portal
    · subst hp
      rw [hnode] at hm
      cases hm
      refine ⟨n', leave_node_self, ?_⟩
      by_cases hrun' : n'.life = .running
      · exact .inl hrun'
      · obtain hrun | ⟨event, hevent, hactor⟩ := hwhy
        · exact .inr (leave_reports hrun hrun')
        · exact .inr ⟨event, leave_keeps_events hevent, hactor⟩
    · refine ⟨m, by rw [leave_node_ne hp, hm], hwhy.imp id ?_⟩
      rintro ⟨event, hevent, hactor⟩
      exact ⟨event, leave_keeps_events hevent, hactor⟩

/-- **The table of the nexus is accurate**, and events are about portals that have ended. -/
structure Tracked (w : World β) : Prop where
  fresh : ∀ p n, w.node p = some n → p < w.nextActor
  ended : ∀ event ∈ w.events, ∃ n, w.node event.actor = some n ∧ n.life ≠ .running
  once : (w.events.map (·.actor)).Nodup
  table : w.life = .running → ∀ p, p ∈ w.state.portals ↔ w.Listed p

namespace Tracked

variable {w w' : World β} {portal : ActorId}

theorem initial (callback : Option ActorId) (actors : Nat) : (World.initial (β := β) callback actors).Tracked where
  fresh := nofun
  ended := nofun
  once := List.nodup_nil
  table _ p := by
    constructor
    · intro h
      exact absurd h (AList.notMem_empty p)
    · rintro ⟨n, hn, -⟩
      cases hn

/-- What leaves the portals, the events and the table alone. -/
theorem frame (h : w.Tracked) (hnode : w'.node = w.node) (hevents : w'.events = w.events)
    (hstate : w'.state.portals = w.state.portals) (hlife : w'.life = w.life)
    (hnext : w.nextActor ≤ w'.nextActor) : w'.Tracked where
  fresh p n hn := Nat.lt_of_lt_of_le (h.fresh p n (hnode ▸ hn)) hnext
  ended := by rw [hnode, hevents]; exact h.ended
  once := by rw [hevents]; exact h.once
  table hrun p := by
    rw [hstate, h.table (hlife ▸ hrun) p]
    simp only [Listed, hnode, hevents]

/-- A portal moves, and is reported if it ends. -/
theorem leave {n n' : Node β} (h : w.Tracked) (hnode : w.node portal = some n)
    (hlife : n'.life = .running → n.life = .running) (hnext : w.nextActor ≤ n'.nextActor) :
    (w.leave portal n n').Tracked := by
  have hlisted := listed_leave n' hnode hlife
  constructor
  · intro p m hm
    by_cases hp : p = portal
    · subst hp
      exact Nat.lt_of_lt_of_le (h.fresh p n hnode) hnext
    · rw [leave_node_ne hp] at hm
      exact Nat.lt_of_lt_of_le (h.fresh p m hm) hnext
  · exact ended_leave h.ended hnode hlife
  · exact once_leave h.ended h.once hnode
  · intro hrun p
    rw [hlisted p]
    exact h.table hrun p

/-- The nexus hears of the end of a portal. -/
theorem supervise (h : w.Tracked) {event : SupervisionEvent} {rest : List SupervisionEvent}
    (hevents : w.events = event :: rest) :
    Tracked { w with events := rest, state := handleSupervisorEvt w.state event } where
  fresh := h.fresh
  ended e he := h.ended e (hevents ▸ List.mem_cons_of_mem _ he)
  once := by
    have := h.once
    rw [hevents] at this
    exact (List.nodup_cons.mp this).2
  table hrun p := by
    have honce := h.once
    rw [hevents] at honce
    have hgone : ∀ e ∈ rest, e.actor ≠ event.actor := fun e he heq =>
      (List.nodup_cons.mp honce).1 (List.mem_map.mpr ⟨e, he, heq⟩)
    obtain ⟨n, hn, hended⟩ := h.ended event (hevents ▸ List.mem_cons_self)
    show p ∈ w.state.portals.erase event.actor ↔ _
    rw [AList.mem_erase, h.table hrun p]
    constructor
    · rintro ⟨hne, m, hm, hwhy⟩
      refine ⟨m, hm, hwhy.imp id ?_⟩
      rintro ⟨e, he, hactor⟩
      rw [hevents] at he
      obtain rfl | he := List.mem_cons.mp he
      · exact absurd hactor.symm hne
      · exact ⟨e, he, hactor⟩
    · rintro ⟨m, hm, hwhy⟩
      refine ⟨?_, m, hm, hwhy.imp id ?_⟩
      · -- the portal has ended, and this was the only event about it
        rintro rfl
        obtain hrun' | ⟨e, he, hactor⟩ := hwhy
        · rw [hn] at hm
          cases hm
          exact hended hrun'
        · exact hgone e he hactor
      · rintro ⟨e, he, hactor⟩
        exact ⟨e, hevents ▸ List.mem_cons_of_mem _ he, hactor⟩

/-- A portal is started and entered in the table. -/
theorem start (h : w.Tracked) {entry : String × ActorId} {n : Node β} (hn : n.life = .running)
    (hstate : w'.state.portals = w.state.portals.insert w.nextActor entry)
    (hnode : ∀ p, w'.node p = if p = w.nextActor then some n else w.node p)
    (hevents : w'.events = w.events) (hlife : w'.life = w.life) (hnext : w'.nextActor = w.nextActor + 1) :
    w'.Tracked := by
  have hold : ∀ {p m}, w.node p = some m → p ≠ w.nextActor ∧ w'.node p = some m := by
    intro p m hm
    have hne : p ≠ w.nextActor := Nat.ne_of_lt (h.fresh p m hm)
    exact ⟨hne, by rw [hnode, if_neg hne, hm]⟩
  constructor
  · intro p m hm
    rw [hnext]
    rw [hnode] at hm
    split at hm
    · rename_i hp
      rw [hp]
      exact Nat.lt_succ_self _
    · exact Nat.lt_succ_of_lt (h.fresh p m hm)
  · intro event hevent
    obtain ⟨m, hm, hended⟩ := h.ended event (hevents ▸ hevent)
    exact ⟨m, (hold hm).2, hended⟩
  · rw [hevents]; exact h.once
  · intro hrun p
    rw [hstate, AList.mem_insert, h.table (hlife ▸ hrun) p]
    constructor
    · rintro (rfl | ⟨m, hm, hwhy⟩)
      · exact ⟨n, by rw [hnode, if_pos rfl], .inl hn⟩
      · exact ⟨m, (hold hm).2, hevents ▸ hwhy⟩
    · rintro ⟨m, hm, hwhy⟩
      by_cases hp : p = w.nextActor
      · exact .inl hp
      · rw [hnode, if_neg hp] at hm
        exact .inr ⟨m, hm, hevents ▸ hwhy⟩

theorem takeTurn (h : w.Tracked) (draws : Draws) (m : NexusActorMessage) (rest : List NexusActorMessage) :
    (w.takeTurn rest (handle (w.env draws) w.state m)).Tracked := by
  obtain ⟨hspawned, hportals⟩ | ⟨identifier, reply, -, hspawned, hportals⟩ :=
    handle_portals (β := β) (w.env draws) w.state m
  · apply h.frame
    · funext p
      simp [World.takeTurn, hspawned]
    · rfl
    · exact hportals
    · rfl
    · exact Nat.le_add_right _ _
  · apply h.start (n := .started ((w.env draws).setup identifier)) rfl hportals
    · intro p
      show ((handle (w.env draws) w.state m).spawned.lookup p).or (w.node p) = _
      rw [hspawned, env_portal]
      by_cases hp : p = w.nextActor
      · simp [hp]
      · simp [List.lookup_cons, hp, beq_false_of_ne hp]
    · rfl
    · rfl
    · simp [World.takeTurn, hspawned]

theorem fail (h : w.Tracked) (error : NexusError) : (w.fail error).Tracked where
  fresh p n hn := by
    obtain ⟨m, hm, -⟩ := Option.map_eq_some_iff.mp hn
    exact h.fresh p m hm
  ended := nofun
  once := List.nodup_nil
  table := nofun

theorem step {l : WorldLabel β} (h : w.Tracked) (hstep : World.step l w = some w') : w'.Tracked := by
  cases l with
  | request r =>
    obtain ⟨-, rfl⟩ := request_inv hstep
    exact h.frame rfl rfl rfl rfl (Nat.le_refl _)
  | dropReceiver receiver =>
    obtain ⟨-, rfl⟩ := dropReceiver_inv hstep
    exact h.frame rfl rfl rfl rfl (Nat.le_refl _)
  | handle draws =>
    obtain ⟨-, m, rest, -, rfl⟩ := handle_inv hstep
    cases (Nexus.handle (β := β) (w.env draws) w.state m).error with
    | none => exact h.takeTurn draws m rest
    | some error => exact (h.takeTurn draws m rest).fail error
  | supervise =>
    obtain ⟨-, event, rest, hevents, rfl⟩ := supervise_inv hstep
    exact h.supervise hevents
  | ask portal =>
    obtain ⟨n, name, -, -, rfl⟩ := ask_inv hstep
    exact h.frame rfl rfl rfl rfl (Nat.le_refl _)
  | portal portal label =>
    obtain ⟨n, n', asking, hnode, hmove, rfl⟩ := portal_leaves hstep
    have hasking : Tracked { w with asking } := h.frame rfl rfl rfl rfl (Nat.le_refl _)
    have hlife : n'.life = .running → (w.enter n).life = .running := Node.life_of_step hmove
    exact hasking.leave hnode hlife (Node.nextActor_le_of_step hmove)
  | terminate portal =>
    obtain ⟨n, hnode, -, rfl⟩ := terminate_inv hstep
    have hasking (asking : HashMap ActorId Receiver) (dropped : List Receiver) : Tracked { w with asking, dropped } :=
      h.frame rfl rfl rfl rfl (Nat.le_refl _)
    exact (hasking _ _).leave hnode nofun (Nat.le_refl _)
  | spawnActor => cases hstep; exact h.frame rfl rfl rfl rfl (Nat.le_succ _)
  | exit actor =>
    obtain ⟨-, rfl⟩ := exit_inv hstep
    exact h.frame rfl rfl rfl rfl (Nat.le_refl _)

/-- **Every reachable nexus is tracked.** -/
theorem of_run {callback : Option ActorId} {actors : Nat} {ls : List (WorldLabel β)}
    (h : Transition.Run World.step Transition.Any ls (World.initial callback actors) w) : w.Tracked :=
  h.invariant (fun _ _ _ h _ hstep => h.step hstep) (Tracked.initial callback actors)

/-- A portal that runs is in the table. -/
theorem registered {n : Node β} (h : w.Tracked) (hlife : w.life = .running) (hnode : w.node portal = some n)
    (hrun : n.life = .running) : portal ∈ w.state.portals :=
  (h.table hlife portal).mpr ⟨n, hnode, .inl hrun⟩

end Tracked
end World
end Nexus
end Wormhole
