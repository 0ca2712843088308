import Wormhole.Portal.Accounting
import Wormhole.Portal.Requests
import Wormhole.Portal.Work

/-!
# `Portal.Rest` — two portals at rest

What is on its way between two portals comes to rest by itself (`Portal.Work`). If both portals still run then,
nothing is left anywhere: no mailbox, task or frame waits for something that does not come (`Settled`). So every
message that was on its way has been delivered, and every caller has been answered.
-/

namespace Wormhole
namespace Portal

variable {β : Type}

namespace Node

/-! ## What is waited for -/

/-- Nothing waits in vain: a receive loop ends with a `Close`, and a task that has asked for an id is answered. -/
structure Attended (n : Node β) : Prop where
  receiving : n.life = .running → n.receiving = true ∨ .close ∈ n.mailbox
  opened : n.tasks ≠ [] → n.state.channelState.isOpen = true
  todo : ∀ e ∈ n.tasks, e.2.asked.isSome = true → e.2.todo ≠ []
  asked : n.life = .running → ∀ e ∈ n.tasks, ∀ port ∈ e.2.asked,
    (∃ actor, .publishActor actor (some port) ∈ n.mailbox) ∨ ∃ id, (port, .published id) ∈ n.replies

section

variable {n n' : Node β} {l : Label β}

theorem isOpen_of_step (hstep : step l n = some n') (hopen : n.state.channelState.isOpen = true) :
    n'.state.channelState.isOpen = true := by
  obtain ⟨channel, hchannel⟩ := PortalConduitState.isOpen_iff.mp hopen
  exact PortalConduitState.isOpen_iff.mpr ⟨channel, opened_of_step hstep hchannel⟩

/-- **What a task waits for.** It is as it was, or waits for nothing, or has just asked. -/
theorem stage_of_step (hstep : step l n = some n') {e : Tag × Immaterialization β} (he : e ∈ n'.tasks) : e ∈ n.tasks ∨
    e.2.asked = none ∧ (n.tasks ≠ [] ∨ n.state.channelState.isOpen = true) ∨
    n.tasks ≠ [] ∧ e.2.todo ≠ [] ∧ n.life = .running ∧ e.2.asked = some n.nextPort ∧
      ∃ actor, .publishActor actor (some n.nextPort) ∈ n'.mailbox := by
  have hrest {tag : Tag} {t : Immaterialization β} {rest : Queues Tag (Immaterialization β)}
      (hdequeue : n.tasks.dequeue tag = some (t, rest)) : n.tasks ≠ [] ∧ (e ∈ rest → e ∈ n.tasks) := by
    have hperm := Queues.perm_of_dequeue hdequeue
    refine ⟨fun hnil => ?_, fun hmem => hperm.mem_iff.mpr (List.mem_cons_of_mem _ hmem)⟩
    rw [hnil] at hdequeue
    cases hdequeue
  cases hpump : l.isPump with
  | false =>
    cases htask : l.isTask with
    | false => exact .inl ((quiet_of_step hpump hstep).tasks htask ▸ he)
    | true =>
      cases l with
      | taskPublish tag =>
        obtain ⟨t, rest, ref, todo, hdequeue, -, htodo, hrun, rfl⟩ := taskPublish_inv hstep
        obtain ⟨hsome, hold⟩ := hrest hdequeue
        have he : e ∈ rest ++ [(tag, { t with asked := some n.nextPort })] := by cases ref <;> exact he
        obtain hmem | hnew := List.mem_append.mp he
        · exact .inl (hold hmem)
        · rw [List.mem_singleton.mp hnew]
          -- the task has asked: its question is the last message of the mailbox
          refine .inr (.inr ⟨hsome, by simp [htodo], hrun, rfl, ?_⟩)
          have hposted (m : PortalActorMessage β) : m ∈ n.mailbox ++ if n.life = .running then [m] else [] := by
            rw [if_pos hrun]
            exact List.mem_append_right _ (List.mem_singleton_self m)
          cases ref with
          | actorRef actor => exact ⟨actor, hposted _⟩
          | replyPort timeout port => exact ⟨n.nextActor, hposted _⟩
      | taskPublished tag =>
        obtain ⟨t, rest, port, id, ref, todo, hdequeue, -, -, -, rfl⟩ := taskPublished_inv hstep
        obtain ⟨hsome, hold⟩ := hrest hdequeue
        obtain hmem | hnew := List.mem_append.mp he
        · exact .inl (hold hmem)
        · rw [List.mem_singleton.mp hnew]
          exact .inr (.inl ⟨rfl, .inl hsome⟩)
      | taskFail tag =>
        obtain ⟨t, rest, hdequeue, rfl⟩ := taskFail_inv hstep
        exact .inl ((hrest hdequeue).2 he)
      | taskPost tag =>
        obtain ⟨t, rest, hdequeue, -, rfl⟩ := taskPost_inv hstep
        exact .inl ((hrest hdequeue).2 he)
      | _ => cases htask
  | true =>
    cases l with
    | recv frame =>
      obtain ⟨-, rfl⟩ := recv_inv hstep
      obtain _ | _ | _ | _ := frame <;> exact .inl he
    | handle uuid nexus sink =>
      obtain ⟨-, m, rest, -, rfl⟩ := handle_inv hstep
      have he : e ∈ n.tasks ++ (Portal.handle (n.env uuid nexus sink) n.state m).spawned.map fun s =>
          immaterialization s.1 s.2 := by
        cases hout : (Portal.handle (n.env uuid nexus sink) n.state m).outcome <;> rw [hout] at he <;> exact he
      obtain hmem | hnew := List.mem_append.mp he
      · exact .inl hmem
      · obtain ⟨s, hs, rfl⟩ := List.mem_map.mp hnew
        -- a new task waits for nothing, and only an open portal spawns one
        refine .inr (.inl ⟨rfl, .inr ?_⟩)
        obtain ⟨effect, heffect, heq⟩ := List.mem_filterMap.mp hs
        cases effect with
        | spawn target msg =>
          cases handle_causes heffect with
          | spawn channel _ _ hopen => exact PortalConduitState.isOpen_iff.mpr ⟨_, hopen⟩
        | _ => cases heq
    | rebuildDone =>
      obtain ⟨r, -, -, rfl⟩ := rebuildDone_inv hstep
      obtain ⟨error, heq⟩ | ⟨body, -, -, heq⟩ := n.deliver_cases r
      · rw [heq] at he
        exact .inl he
      · rw [heq] at he
        exact .inl he
    | _ => cases hpump

/-- Whoever handles a `Close` does not run on. -/
theorem not_running_of_close {uuid : OpaqueActorId} {nexus : Option (Option ActorId)} {sink : SinkResult}
    {rest : List (PortalActorMessage β)} (hstep : step (.handle uuid nexus sink) n = some n')
    (hmail : n.mailbox = .close :: rest) : n'.life ≠ .running := by
  obtain ⟨-, m, rest', hmail', rfl⟩ := handle_inv hstep
  cases hmail.symm.trans hmail'
  rintro ⟨⟩

theorem receiving_of_step (h : n.receiving = true ∨ .close ∈ n.mailbox) (hstep : step l n = some n')
    (hrun : n'.life = .running) : n'.receiving = true ∨ .close ∈ n'.mailbox := by
  have hlife := life_of_step hstep hrun
  have hclose (hm : .close ∈ n.mailbox) : n'.receiving = true ∨ .close ∈ n'.mailbox := by
    obtain hold | ⟨uuid, nexus, sink, rest, rfl, hmail⟩ := mem_mailbox_of_running hstep hrun hm
    · exact .inr hold
    · exact absurd hrun (not_running_of_close hstep hmail)
  obtain hreceiving | hm := h
  · cases hpump : l.isPump with
    | false => exact .inl ((quiet_of_step hpump hstep).receiving.trans hreceiving)
    | true =>
      cases l with
      | recv frame =>
        obtain ⟨-, rfl⟩ := recv_inv hstep
        have hposted : (.close : PortalActorMessage β) ∈ (n.post .close).mailbox := by
          unfold post
          rw [if_pos hlife]
          exact List.mem_append_right _ (List.mem_singleton_self _)
        obtain _ | _ | _ | _ := frame
        · exact .inr hposted
        · exact .inl (decide_eq_true hlife)
        · exact .inl (decide_eq_true hlife)
        · exact .inr hposted
      | handle uuid nexus sink =>
        obtain ⟨frames, -, hsame, -⟩ := queued_handle hstep
        exact .inl (hsame.trans hreceiving)
      | rebuildDone => exact .inl ((queued_rebuildDone hstep).2.1.trans hreceiving)
      | _ => cases hpump
  · exact hclose hm

/-- A `PublishActor` that is handled is answered, if the portal has opened and runs on. -/
theorem published_of_handle {uuid : OpaqueActorId} {nexus : Option (Option ActorId)} {sink : SinkResult}
    {rest : List (PortalActorMessage β)} {actor : ActorId} {port : PortId}
    (hstep : step (.handle uuid nexus sink) n = some n') (hrun : n'.life = .running)
    (hopen : n.state.channelState.isOpen = true) (hmail : n.mailbox = .publishActor actor (some port) :: rest) :
    ∃ id, (port, .published id) ∈ n'.replies := by
  obtain ⟨-, m, rest', hmail', hturned⟩ := turned_of_handle hstep
  cases hmail.symm.trans hmail'
  cases handle_settles (n.env uuid nexus sink) n.state (m := .publishActor actor (some port)) rfl with
  | failed error hfailed => exact absurd hfailed (not_failed_of_step hstep hrun hmail error)
  | answered value hvalue hreply =>
    cases hvalue with
    | published _ _ id hid =>
      refine ⟨id, ?_⟩
      rw [hturned.replies]
      exact List.mem_append_right _ hreply
  | waiting hm => cases hm
  | asked name hm => cases hm
  | refused hneeds hopening =>
    rw [hopening] at hopen
    cases hopen

/-- **Every step.** -/
theorem Attended.step (h : n.Attended) (hstep : Node.step l n = some n') : n'.Attended := by
  refine ⟨fun hrun => ?_, fun hsome => ?_, fun e he hasked => ?_, fun hrun e he port hport => ?_⟩
  · exact receiving_of_step (h.receiving (life_of_step hstep hrun)) hstep hrun
  · obtain ⟨e, he⟩ := List.exists_mem_of_ne_nil _ hsome
    obtain hold | ⟨-, hsome' | hopen⟩ | ⟨hsome', -⟩ := stage_of_step hstep he
    · exact isOpen_of_step hstep (h.opened (List.ne_nil_of_mem hold))
    · exact isOpen_of_step hstep (h.opened hsome')
    · exact isOpen_of_step hstep hopen
    · exact isOpen_of_step hstep (h.opened hsome')
  · obtain hold | ⟨hnone, -⟩ | ⟨-, htodo, -⟩ := stage_of_step hstep he
    · exact h.todo e hold hasked
    · rw [hnone] at hasked
      cases hasked
    · exact htodo
  · obtain hold | ⟨hnone, -⟩ | ⟨-, -, -, hasked, hposted⟩ := stage_of_step hstep he
    · obtain ⟨actor, hm⟩ | ⟨id, hreply⟩ := h.asked (life_of_step hstep hrun) e hold port hport
      · obtain hstill | ⟨uuid, nexus, sink, rest, rfl, hmail⟩ := mem_mailbox_of_running hstep hrun hm
        · exact .inl ⟨actor, hstill⟩
        · exact .inr (published_of_handle hstep hrun (h.opened (List.ne_nil_of_mem hold)) hmail)
      · exact .inr ⟨id, replies_subset_of_step hstep hreply⟩
    · rw [hnone] at hport
      cases hport
    · rw [hasked] at hport
      cases hport
      exact .inl hposted

theorem Attended.started (setup : Setup) : (Node.started (β := β) setup).Attended where
  receiving _ := .inl rfl
  opened hnone := absurd rfl hnone
  todo := by rintro _ ⟨⟩
  asked := by rintro - _ ⟨⟩

/-! ## A side at rest -/

/-- Nothing is on its way on this side. -/
structure Settled (n : Node β) : Prop where
  mailbox : n.mailbox = []
  rebuilding : n.rebuilding = none
  inbox : n.inbox = []
  channel : n.channel = []
  tasks : n.tasks = []
  creating : n.creating = []

theorem publishedAs_of_mem {port : PortId} {id : RemoteActorId} (h : (port, .published id) ∈ n.replies) :
    ∃ id', n.publishedAs port = some id' := by
  refine Option.ne_none_iff_exists'.mp fun hnone => ?_
  have hskipped := List.findSome?_eq_none_iff.mp hnone _ h
  simp at hskipped

/-- A task can always go on, once its request has been handled. -/
theorem task_goes_on (h : n.Attended) (hrun : n.life = .running) (hmailbox : n.mailbox = [])
    {e : Tag × Immaterialization β} (he : e ∈ n.tasks) :
    ∃ l : Label β, l.isDelivery = true ∧ (∀ frame, l ≠ .recv frame) ∧ step l n ≠ none := by
  obtain ⟨t, rest, hdequeue⟩ := Queues.exists_dequeue he
  have hmem : (e.1, t) ∈ n.tasks := (Queues.perm_of_dequeue hdequeue).mem_iff.mpr List.mem_cons_self
  cases htodo : t.todo with
  | nil => exact ⟨.taskPost e.1, rfl, by simp, by simp [step, hdequeue, htodo]⟩
  | cons ref todo =>
    cases hasked : t.asked with
    | none => exact ⟨.taskPublish e.1, rfl, by simp, by simp [step, hdequeue, hasked, htodo, hrun]⟩
    | some port =>
      obtain ⟨actor, hm⟩ | ⟨id, hreply⟩ := h.asked hrun _ hmem port hasked
      · rw [hmailbox] at hm
        cases hm
      · obtain ⟨id', hid'⟩ := publishedAs_of_mem hreply
        exact ⟨.taskPublished e.1, rfl, by simp, by simp [step, hdequeue, hasked, htodo, hid']⟩

/-- **A running side that cannot go on is settled**, as long as there is a uuid left to draw. -/
theorem settled_of_rest (h : n.Attended) (haddressed : n.Addressed) (hrun : n.life = .running) {uuid : OpaqueActorId}
    (huuid : n.state.publishedActors.lookup uuid = none)
    (hrest : ∀ l : Label β, l.isDelivery = true → (∀ frame, l ≠ .recv frame) → step l n = none) : n.Settled := by
  have hrebuilding : n.rebuilding = none := by
    cases hr : n.rebuilding with
    | none => rfl
    | some r =>
      cases htodo : r.todo with
      | nil =>
        have hdone := hrest .rebuildDone rfl (by simp)
        simp [step, hr, htodo] at hdone
      | cons ref todo =>
        have href := hrest .rebuildRef rfl (by simp)
        simp [step, hr, htodo] at href
  have hmailbox : n.mailbox = [] := by
    cases hmail : n.mailbox with
    | nil => rfl
    | cons m rest =>
      have hfits : n.Fits uuid none := ⟨hrun, hrebuilding, huuid, by rintro _ ⟨⟩⟩
      have hhandle := hrest (.handle uuid none .flushed) rfl (by simp)
      rw [handle_step hfits hmail rfl] at hhandle
      cases hhandle
  refine ⟨hmailbox, hrebuilding, ?_, ?_, ?_, ?_⟩ <;> refine List.eq_nil_iff_forall_not_mem.mpr fun e he => ?_
  · obtain ⟨msg, rest, hdequeue⟩ := Queues.exists_dequeue he
    have hrelay := hrest (.relay e.1) rfl (by simp)
    simp [step, hdequeue] at hrelay
  · obtain ⟨msg, rest, hdequeue⟩ := Queues.exists_dequeue he
    obtain ⟨remote, hremote⟩ := haddressed.channel e he
    have hforward := hrest (.forward e.1) rfl (by simp)
    simp [step, hdequeue, hremote] at hforward
  · obtain ⟨l, hl, hrecv, hmoves⟩ := task_goes_on h hrun hmailbox he
    exact hmoves (hrest l hl hrecv)
  · obtain ⟨remote, rest, hdequeue⟩ := Queues.exists_dequeue he
    have hregister := hrest (.register e.1) rfl (by simp)
    simp [step, hdequeue] at hregister

end

end Node

/-! ## Two sides at rest -/

namespace Pair

/-- Nothing that is on its way can go on. -/
def AtRest (p : Pair β) : Prop := ∀ l : PairLabel β, l.isDelivery = true → Pair.step l p = none

/-- Nothing is on its way. -/
structure Quiescent (p : Pair β) : Prop where
  settled : ∀ s, (p.node s).Settled
  read : ∀ s, p.unread s = []

/-- What holds of what is on its way between two honest portals. -/
structure Underway (setup : Side → Setup) (p : Pair β) : Prop where
  flows : p.Flows setup
  routed : ∀ s, p.Routed s
  attended : ∀ s, (p.node s).Attended

section

variable {setup : Side → Setup} {p q : Pair β} {l : PairLabel β} {s : Side}

theorem Underway.step (h : p.Underway setup) (hstep : Pair.step l p = some q) : q.Underway setup := by
  refine ⟨h.flows.step hstep, fun s => (h.routed s).step (h.flows.piped s) hstep, fun s => ?_⟩
  obtain ⟨t, label, hnode, hother, -⟩ := step_inv hstep
  obtain rfl | rfl := t.eq_or_other s
  · exact (h.attended s).step hnode
  · rw [hother]
    exact h.attended _

theorem Underway.started (setup : Side → Setup) : (Pair.started (β := β) setup).Underway setup :=
  ⟨flows_started, routed_started setup, fun s => Node.Attended.started (setup s)⟩

/-- **At rest nothing is on its way**, if both portals run. -/
theorem Underway.quiescent (h : p.Underway setup) (hrun : ∀ s, (p.node s).life = .running)
    (huuid : ∀ s, ∃ uuid, (p.node s).state.publishedActors.lookup uuid = none) (hrest : p.AtRest) : p.Quiescent := by
  have hsettled (s : Side) : (p.node s).Settled := by
    obtain ⟨uuid, hnone⟩ := huuid s
    refine Node.settled_of_rest (h.attended s) (h.routed s).addressed (hrun s) hnone fun label hl hrecv => ?_
    have hmove := hrest (.move s label) hl
    rw [Pair.step] at hmove
    · exact Option.map_eq_none_iff.mp hmove
    · exact hrecv
  refine ⟨hsettled, fun s => ?_⟩
  have hreceiving : (p.node s).receiving = true := by
    refine ((h.attended s).receiving (hrun s)).resolve_right fun hclose => ?_
    rw [(hsettled s).mailbox] at hclose
    cases hclose
  cases hframe : (p.node s.other).sent[p.read s]? with
  | none => exact List.drop_eq_nil_of_le (List.getElem?_eq_none_iff.mp hframe)
  | some frame =>
    have hreceive := hrest (.receive s) rfl
    simp [Pair.step, hframe, Node.step, hreceiving] at hreceive

/-- And where nothing is on its way, nothing can go on. -/
theorem Quiescent.atRest (h : p.Quiescent) (hrun : ∀ s, (p.node s).life = .running) : p.AtRest := by
  intro l hl
  cases l with
  | receive s =>
    have hread : (p.node s.other).sent.length ≤ p.read s := List.drop_eq_nil_iff.mp (h.read s)
    rw [Pair.step, List.getElem?_eq_none hread]
    exact if_pos (hrun s.other)
  | move s label =>
    have hsettled := h.settled s
    cases label with
    | handle uuid nexus sink => simp [Pair.step, Node.step, hsettled.mailbox]
    | rebuildRef => simp [Pair.step, Node.step, hsettled.rebuilding]
    | rebuildDone => simp [Pair.step, Node.step, hsettled.rebuilding]
    | register proxy => simp [Pair.step, Node.step, hsettled.creating, Queues.dequeue]
    | relay proxy => simp [Pair.step, Node.step, hsettled.inbox, Queues.dequeue]
    | forward proxy => simp [Pair.step, Node.step, hsettled.channel, Queues.dequeue]
    | taskPublish tag => simp [Pair.step, Node.step, hsettled.tasks, Queues.dequeue]
    | taskPublished tag => simp [Pair.step, Node.step, hsettled.tasks, Queues.dequeue]
    | taskPost tag => simp [Pair.step, Node.step, hsettled.tasks, Queues.dequeue]
    | recv frame => rfl
    | _ => cases hl

/-- What there is of the messages has been delivered. -/
theorem Quiescent.stock_eq (h : p.Quiescent) (C : ActorId → Bool) (s : Side) (actor : ActorId) :
    p.stock C s actor = lettersTo C ((p.node s.other).deliveredTo actor) := by
  have hsender := h.settled s
  have hreceiver := h.settled s.other
  have hwire : p.onWire s = [] := by
    have hread := h.read s.other
    rw [unread, Side.other_other] at hread
    rw [onWire, hread]
    rfl
  simp [stock, Node.outgoing, Node.incoming, Node.inProxies, Node.toSerialize, Node.serializing, Node.toWrite,
    Node.toDeliver, Node.delivering, hwire, hsender.mailbox, hsender.inbox, hsender.channel, hsender.tasks,
    hreceiver.mailbox, hreceiver.rebuilding]

/-- What goes on by itself sends nothing new, and gives nothing up. -/
theorem emits_of_delivery (hl : l.isDelivery = true) (p : Pair β) (s : Side) :
    p.emits s Label.letters l = [] ∧ p.emits s Label.failures l = [] := by
  cases l with
  | receive t => exact ⟨rfl, rfl⟩
  | move t label =>
    unfold emits
    dsimp only
    split
    · cases label with
      | sendTo proxy body refs => cases hl
      | forwardReply port => cases hl
      | taskFail tag => cases hl
      | _ => exact ⟨rfl, rfl⟩
    · exact ⟨rfl, rfl⟩

end

/-- **Everything that was sent arrives.** Take any state `p` of two honest portals, whatever is on its way in it. What
    goes on by itself then ends after at most `p.work` steps, in whatever order they are taken, and it can always be
    brought to its end. If both portals still run when it has ended, nothing is on its way any more; and all that
    there was of the messages to the proxies of an actor has been delivered to it, each once, if the sending side
    had opened, the actor was published, and no such proxy was stopped. -/
theorem everything_arrives (setup : Side → Setup) (ls : List (PairLabel β)) (p : Pair β)
    (hrun : Transition.Run Pair.step Transition.Any ls (Pair.started setup) p) :
    (∀ ms q, Transition.Run Pair.step (fun l _ => l.isDelivery = true) ms p q → ms.length + q.work ≤ p.work) ∧
    (∃ ms q, Transition.Run Pair.step (fun l _ => l.isDelivery = true) ms p q ∧ q.AtRest) ∧
    ∀ ms q, Transition.Run Pair.step (fun l _ => l.isDelivery = true) ms p q → q.AtRest →
      (∀ t, (q.node t).life = .running) → (∀ t, ∃ uuid, (q.node t).state.publishedActors.lookup uuid = none) →
      q.Quiescent ∧
      ∀ s channel id actor, (p.node s).state.channelState = .opened channel →
        (p.node s.other).state.publishedActors.lookup id = some actor →
        (∀ proxy, (q.node s).isProxyOf id proxy = true → proxy ∉ (q.node s).exited) →
        p.stock ((q.node s).isProxyOf id) s actor =
          lettersTo ((q.node s).isProxyOf id) ((q.node s.other).deliveredTo actor) := by
  have hsmaller : ∀ l u v, PairLabel.isDelivery l = true → Pair.step (β := β) l u = some v → v.work < u.work :=
    fun _ _ _ hl hstep => work_lt_of_step hl hstep
  refine ⟨fun ms q hdeliver => hdeliver.length_le hsmaller, Transition.exists_rest hsmaller p, ?_⟩
  intro ms q hdeliver hrest hrunning huuid
  have hon : Transition.Run Pair.step Transition.Any ms p q := hdeliver.mono fun _ _ _ => trivial
  have hbefore : p.Underway setup := hrun.invariant (fun _ _ _ h _ hstep => h.step hstep) (Underway.started setup)
  have hafter : q.Underway setup := hon.invariant (fun _ _ _ h _ hstep => h.step hstep) hbefore
  have hquiescent := hafter.quiescent hrunning huuid hrest
  refine ⟨hquiescent, fun s channel id actor hopen hid hkept => ?_⟩
  have hroutes : p.Routes setup s id actor := ⟨hbefore.flows, hbefore.routed s, ⟨channel, hopen⟩, hid⟩
  have hlasts : q.Lasts ((q.node s).isProxyOf id) s id := by
    refine ⟨hrunning, hkept, fun proxy remote hproxy hC => ?_⟩
    rw [Node.isProxyOf, hproxy] at hC
    exact of_decide_eq_true hC
  have hstock := stock_of_run hroutes hlasts hon
  rw [hdeliver.trace_eq_nil fun _ u hl => (emits_of_delivery hl u s).1,
    hdeliver.trace_eq_nil fun _ u hl => (emits_of_delivery hl u s).2, lettersTo_nil, add_zero, add_zero] at hstock
  exact hstock.trans (hquiescent.stock_eq _ s actor)

/-- The left side has sent a message with two references. -/
def posting : List (PairLabel Nat) :=
  bothOpen ++
  [.move .right (.request (.publishActor 0 true)), .move .right (.handle ⟨8⟩ none .flushed), .move .left .openPort,
   .move .left (.instantiate remoteEight), .move .left (.register 2), .move .left (.handle ⟨7⟩ none .flushed),
   .move .left (.sendTo 2 10 [.actorRef 1, .replyPort none 0])]

/-- And this is its way. -/
def arriving : List (PairLabel Nat) :=
  [.move .left (.relay 2), .move .left (.forward 2), .move .left (.handle ⟨7⟩ none .flushed),
   .move .left (.taskPublish ⟨2, 0⟩), .move .left (.handle ⟨9⟩ none .flushed), .move .left (.taskPublished ⟨2, 0⟩),
   .move .left (.taskPublish ⟨2, 0⟩), .move .left (.handle ⟨10⟩ none .flushed), .move .left (.taskPublished ⟨2, 0⟩),
   .move .left (.taskPost ⟨2, 0⟩), .move .left (.handle ⟨7⟩ none .flushed),
   .receive .right, .move .right (.handle ⟨7⟩ none .flushed), .move .right .rebuildRef, .move .right .rebuildRef,
   .move .right .rebuildDone, .move .right (.handle ⟨7⟩ none .flushed), .move .right (.handle ⟨7⟩ none .flushed)]

theorem everything_arrives_posting : ∃ p q,
    Transition.exec Pair.step posting (Pair.started twoSides) = some p ∧ Transition.exec Pair.step arriving p = some q ∧
    p.work = 24 ∧ (q.node .right).delivered.map (fun d => (d.1, d.2.body)) = [(0, 10)] ∧ q.Quiescent ∧
    p.stock ((q.node .left).isProxyOf ⟨8⟩) .left 0 =
      lettersTo ((q.node .left).isProxyOf ⟨8⟩) ((q.node .right).deliveredTo 0) := by
  have heval : ((Transition.exec Pair.step posting (Pair.started twoSides)).bind fun p =>
      (Transition.exec (Transition.guarded Pair.step fun l _ => l.isDelivery = true) arriving p).map fun q =>
        decide ((p.work = 24 ∧ (p.node .left).state.channelState = .opened ⟨0x06060606060606060606060606060606⟩ ∧
            (p.node .right).state.publishedActors.lookup (⟨8⟩ : OpaqueActorId) = some 0) ∧
          (q.node .right).delivered.map (fun d => (d.1, d.2.body)) = [(0, 10)] ∧ (q.node .left).exited = [] ∧
          ∀ s ∈ [Side.left, .right], (q.node s).life = .running ∧ q.unread s = [] ∧
            (q.node s).state.publishedActors.lookup (⟨1⟩ : OpaqueActorId) = none ∧
            (q.node s).mailbox = [] ∧ (q.node s).rebuilding = none ∧ (q.node s).inbox = [] ∧ (q.node s).channel = [] ∧
            (q.node s).tasks = [] ∧ (q.node s).creating = [])) = some true := by
    decide +kernel
  obtain ⟨p, hp, heval⟩ := Option.bind_eq_some_iff.mp heval
  obtain ⟨q, hq, hfacts⟩ := Option.map_eq_some_iff.mp heval
  obtain ⟨⟨hwork, hopen, hid⟩, hdelivered, hexited, hsides⟩ := of_decide_eq_true hfacts
  have hside (s : Side) := hsides s (by cases s <;> simp)
  have hdeliver := Transition.run_of_exec_guarded hq
  have hquiescent : q.Quiescent := by
    refine ⟨fun s => ?_, fun s => (hside s).2.1⟩
    obtain ⟨-, -, -, hmailbox, hrebuilding, hinbox, hchannel, htasks, hcreating⟩ := hside s
    exact ⟨hmailbox, hrebuilding, hinbox, hchannel, htasks, hcreating⟩
  obtain ⟨-, -, hends⟩ := everything_arrives twoSides posting p (Transition.run_of_exec hp)
  obtain ⟨-, harrived⟩ := hends arriving q hdeliver (hquiescent.atRest fun s => (hside s).1) (fun s => (hside s).1)
    fun s => ⟨_, (hside s).2.2.1⟩
  refine ⟨p, q, hp, hdeliver.exec, hwork, hdelivered, hquiescent, harrived .left _ ⟨8⟩ 0 hopen hid fun proxy _ hgone => ?_⟩
  rw [hexited] at hgone
  cases hgone

end Pair

end Portal
end Wormhole
