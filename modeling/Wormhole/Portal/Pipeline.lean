import Wormhole.Lib.Precedence
import Wormhole.Portal.Steps

/-!
# `Portal.Pipeline` — from a proxy to the tasks that serialize

A message to a proxy goes through the mailbox of the proxy, its channel and the mailbox of the portal, which
are all FIFO, and the portal starts the task that serializes it. So the tasks for one proxy are started in
the order in which the messages were sent (`Piped`). In which order they end is not determined.
-/

namespace Wormhole
namespace Portal

open Queues

variable {β : Type}

/-- The message that the portal is asked to serialize. -/
def PortalActorMessage.immaterializes? : PortalActorMessage β → Option Tag
  | .immaterializeMessage _ msg => some msg.tag
  | _ => none

/-- The messages of all proxies for which a task has been started or can still be, the oldest first for each
    proxy. -/
def Node.upstream (n : Node β) : List Tag :=
  n.spawned ++ n.mailbox.filterMap PortalActorMessage.immaterializes? ++ n.channel.map (·.2.tag) ++
    n.inbox.map (·.2.tag)

structure Piped (n : Node β) : Prop where
  inbox : ∀ e ∈ n.inbox, e.2.tag.proxy = e.1
  channel : ∀ e ∈ n.channel, e.2.tag.proxy = e.1
  fresh : ∀ t ∈ n.submitted, t.number < n.nextMsg
  nodup : n.submitted.Nodup
  ordered : ∀ proxy, (n.upstream.filter (·.proxy = proxy)).Sublist (n.submitted.filter (·.proxy = proxy))
  tasks : (n.posted ++ n.unserialized ++ n.tasks.map Prod.fst).Perm n.spawned

section

variable {n n' : Node β} {l : Label β}

/-- The oldest message of a proxy goes on to the next stage. -/
theorem filter_move (done back later : List Tag) {front : List Tag} {t : Tag}
    (hfront : ∀ u ∈ front, u.proxy ≠ t.proxy) (proxy : ActorId) :
    (done ++ [t] ++ (front ++ back) ++ later).filter (·.proxy = proxy) =
      (done ++ (front ++ t :: back) ++ later).filter (·.proxy = proxy) := by
  simp only [List.filter_append, List.filter_cons, List.filter_nil]
  by_cases ht : t.proxy = proxy
  · have hnil : front.filter (·.proxy = proxy) = [] := by
      rw [List.filter_eq_nil_iff]
      intro u hu
      simpa [ht] using hfront u hu
    simp [ht, hnil]
  · simp [ht]

/-- What is taken out of a queue is the oldest message of its proxy. -/
theorem tags_of_dequeue {q rest : Queues ActorId (Msg β)} {proxy : ActorId} {msg : Msg β}
    (hq : ∀ e ∈ q, e.2.tag.proxy = e.1) (h : q.dequeue proxy = some (msg, rest)) :
    msg.tag.proxy = proxy ∧ (∀ e ∈ rest, e.2.tag.proxy = e.1) ∧ ∃ front back,
      q.map (·.2.tag) = front ++ msg.tag :: back ∧ rest.map (·.2.tag) = front ++ back ∧
      ∀ u ∈ front, u.proxy ≠ msg.tag.proxy := by
  obtain ⟨front, back, rfl, rfl, hne⟩ := Queues.dequeue_eq_some h
  have hmsg : msg.tag.proxy = proxy := hq (proxy, msg) (by simp)
  refine ⟨hmsg, fun e he => ?_, front.map (·.2.tag), back.map (·.2.tag), by simp, by simp, fun u hu => ?_⟩
  · exact hq e (by simp at he ⊢; tauto)
  · obtain ⟨e, he, rfl⟩ := List.mem_map.mp hu
    rw [hmsg, hq e (by simp [he])]
    exact hne e he

/-- Only a proxy asks the portal to serialize. -/
theorem immaterializes?_of_posts {m : PortalActorMessage β} (h : l.posts m)
    (hl : ∀ proxy, l ≠ .forward proxy) : m.immaterializes? = none := by
  cases m with
  | immaterializeMessage target msg =>
    cases l with
    | forward proxy => exact absurd rfl (hl proxy)
    | _ => cases h
  | _ => rfl

namespace Piped

/-- What leaves the messages where they are. -/
theorem frame (h : Piped n) (hflow : SameFlow n n')
    (hmail : (n'.mailbox.filterMap PortalActorMessage.immaterializes?).Sublist
      (n.mailbox.filterMap PortalActorMessage.immaterializes?)) : Piped n' := by
  have hup : n'.upstream.Sublist n.upstream := by
    unfold Node.upstream
    rw [hflow.spawned, hflow.channel]
    exact (((List.Sublist.refl _).append hmail).append (List.Sublist.refl _)).append (hflow.inbox.map _)
  constructor
  · exact fun e he => h.inbox e (hflow.inbox.subset he)
  · rw [hflow.channel]; exact h.channel
  · rw [hflow.submitted, hflow.nextMsg]; exact h.fresh
  · rw [hflow.submitted]; exact h.nodup
  · intro proxy
    rw [hflow.submitted]
    exact (hup.filter _).trans (h.ordered proxy)
  · rw [hflow.posted, hflow.unserialized, hflow.tasks, hflow.spawned]; exact h.tasks

/-- A message is sent to a proxy. -/
theorem enqueue (h : Piped n) (proxy : ActorId) (body : β) (refs : List LocalRef) :
    Piped (n.enqueue proxy body refs) := by
  let t : Tag := ⟨proxy, n.nextMsg⟩
  have hup : (n.enqueue proxy body refs).upstream = n.upstream ++ [t] := by
    simp [Node.upstream, Node.enqueue, t]
  have hsubmitted : (n.enqueue proxy body refs).submitted = n.submitted ++ [t] := rfl
  constructor
  · intro e he
    obtain hold | hnew := List.mem_append.mp he
    · exact h.inbox e hold
    · rw [List.mem_singleton.mp hnew]
  · exact h.channel
  · intro u hu
    obtain hold | hnew := List.mem_append.mp hu
    · exact Nat.lt_succ_of_lt (h.fresh u hold)
    · rw [List.mem_singleton.mp hnew]; exact Nat.lt_succ_self _
  · have hnew : t ∉ n.submitted := fun hmem => Nat.lt_irrefl _ (h.fresh t hmem)
    rw [hsubmitted]
    exact h.nodup.append (List.nodup_singleton _) (List.disjoint_singleton.mpr hnew)
  · intro q
    rw [hup, hsubmitted, List.filter_append, List.filter_append]
    exact (h.ordered q).append (List.Sublist.refl _)
  · exact h.tasks

theorem relay (h : Piped n) {proxy : ActorId} (hstep : Node.step (.relay proxy) n = some n') : Piped n' := by
  obtain ⟨msg, rest, hdequeue, rfl⟩ := Node.relay_inv hstep
  obtain ⟨hmsg, hrest, front, back, hinbox, hrest', hfront⟩ := tags_of_dequeue h.inbox hdequeue
  refine ⟨hrest, fun e he => ?_, h.fresh, h.nodup, fun q => ?_, h.tasks⟩
  · obtain hold | hnew := List.mem_append.mp he
    · exact h.channel e hold
    · rw [List.mem_singleton.mp hnew]; exact hmsg
  · have hmove := filter_move (n.spawned ++ n.mailbox.filterMap PortalActorMessage.immaterializes? ++
      n.channel.map (·.2.tag)) back [] hfront q
    have hbefore := h.ordered q
    rw [Node.upstream, hinbox, ← List.append_nil (_ ++ (front ++ _)), ← hmove] at hbefore
    simpa [Node.upstream, hrest'] using hbefore

theorem forward (h : Piped n) {proxy : ActorId} (hstep : Node.step (.forward proxy) n = some n') : Piped n' := by
  obtain ⟨msg, rest, remote, hdequeue, -, rfl⟩ := Node.forward_inv hstep
  obtain ⟨-, hrest, front, back, hchannel, hrest', hfront⟩ := tags_of_dequeue h.channel hdequeue
  refine ⟨h.inbox, hrest, h.fresh, h.nodup, fun q => ?_, h.tasks⟩
  have hmove := filter_move (n.spawned ++ n.mailbox.filterMap PortalActorMessage.immaterializes?) back
    (n.inbox.map (·.2.tag)) hfront q
  refine List.Sublist.trans ?_ (h.ordered q)
  -- a portal that is gone loses the message
  have hup : (({ n with channel := rest } : Node β).post (.immaterializeMessage remote msg)).upstream.Sublist
      (n.spawned ++ n.mailbox.filterMap PortalActorMessage.immaterializes? ++ [msg.tag] ++ (front ++ back) ++
        n.inbox.map (·.2.tag)) := by
    simp only [Node.upstream, Node.post, hrest', List.filterMap_append]
    refine List.Sublist.append (List.Sublist.append ?_ (List.Sublist.refl _)) (List.Sublist.refl _)
    rw [List.append_assoc]
    refine (List.Sublist.refl _).append ((List.Sublist.refl _).append ?_)
    split
    · exact List.Sublist.refl _
    · exact List.nil_sublist _
  refine (hup.filter _).trans ?_
  rw [hmove, Node.upstream, hchannel]

/-- The message pump and the queues stay, and a task moves. -/
theorem task (h : Piped n) (hsame : n'.upstream = n.upstream) (hinbox : n'.inbox = n.inbox)
    (hchannel : n'.channel = n.channel) (hnext : n'.nextMsg = n.nextMsg)
    (hsubmitted : n'.submitted = n.submitted) (hspawned : n'.spawned = n.spawned)
    (htasks : (n'.posted ++ n'.unserialized ++ n'.tasks.map Prod.fst).Perm
      (n.posted ++ n.unserialized ++ n.tasks.map Prod.fst)) : Piped n' := by
  constructor
  · rw [hinbox]; exact h.inbox
  · rw [hchannel]; exact h.channel
  · rw [hsubmitted, hnext]; exact h.fresh
  · rw [hsubmitted]; exact h.nodup
  · rw [hsame, hsubmitted]; exact h.ordered
  · rw [hspawned]; exact htasks.trans h.tasks

/-- A message that is not for a proxy is posted. -/
theorem upstream_post {m : PortalActorMessage β} (hm : m.immaterializes? = none) :
    (n.post m).upstream = n.upstream := by
  simp only [Node.upstream, Node.post, List.filterMap_append]
  split <;> simp [hm]

/-- The tag of a task that goes on stays among those of the tasks. -/
theorem perm_tags {tag : Tag} {t : Immaterialization β} {rest : Queues Tag (Immaterialization β)}
    (hdequeue : n.tasks.dequeue tag = some (t, rest)) :
    (n.tasks.map Prod.fst).Perm (tag :: rest.map Prod.fst) :=
  (Queues.perm_of_dequeue hdequeue).map Prod.fst

theorem step_task (h : Piped n) {tag : Tag}
    (hl : l = .taskPublish tag ∨ l = .taskPublished tag ∨ l = .taskFail tag ∨ l = .taskPost tag)
    (hstep : Node.step l n = some n') : Piped n' := by
  obtain rfl | rfl | rfl | rfl := hl
  · obtain ⟨t, rest, ref, todo, hdequeue, -, -, -, rfl⟩ := Node.taskPublish_inv hstep
    have hperm : (n.posted ++ n.unserialized ++ (rest ++ [(tag, { t with asked := some n.nextPort })]).map
        Prod.fst).Perm (n.posted ++ n.unserialized ++ n.tasks.map Prod.fst) := by
      apply List.Perm.append_left
      simpa using (List.perm_append_singleton tag (rest.map Prod.fst)).trans (perm_tags hdequeue).symm
    cases ref <;> exact h.task (upstream_post rfl) rfl rfl rfl rfl rfl hperm
  · obtain ⟨t, rest, port, id, ref, todo, hdequeue, -, -, -, rfl⟩ := Node.taskPublished_inv hstep
    refine h.task rfl rfl rfl rfl rfl rfl ?_
    apply List.Perm.append_left
    simpa using (List.perm_append_singleton tag (rest.map Prod.fst)).trans (perm_tags hdequeue).symm
  · obtain ⟨t, rest, hdequeue, rfl⟩ := Node.taskFail_inv hstep
    refine h.task rfl rfl rfl rfl rfl rfl ?_
    show (n.posted ++ (n.unserialized ++ [tag]) ++ rest.map Prod.fst).Perm _
    simpa using (perm_tags hdequeue).symm.append_left (n.posted ++ n.unserialized)
  · obtain ⟨t, rest, hdequeue, -, rfl⟩ := Node.taskPost_inv hstep
    refine h.task (upstream_post rfl) rfl rfl rfl rfl rfl ?_
    show (n.posted ++ [tag] ++ n.unserialized ++ rest.map Prod.fst).Perm _
    have hmove : (n.posted ++ [tag] ++ n.unserialized ++ rest.map Prod.fst).Perm
        (n.posted ++ n.unserialized ++ (tag :: rest.map Prod.fst)) := by
      simpa using (List.perm_middle.symm).append_left n.posted
    exact hmove.trans ((perm_tags hdequeue).symm.append_left _)

/-- The end of a turn loses messages at most. -/
theorem endTurn (h : Piped n) (outcome : Outcome β) : Piped (n.endTurn outcome) := by
  have hhalt (life : Life) : Piped (n.halt life) :=
    h.frame { inbox := List.filter_sublist } (List.nil_sublist _)
  cases outcome with
  | ok => exact h
  | stop reason => exact hhalt _
  | err error => exact hhalt _
  | rematerialize actor data => exact h.frame {} (List.Sublist.refl _)

theorem handle (h : Piped n) {uuid : OpaqueActorId} {nexus : Option (Option ActorId)} {sink : SinkResult}
    (hstep : Node.step (.handle uuid nexus sink) n = some n') : Piped n' := by
  obtain ⟨-, m, rest, hmail, rfl⟩ := Node.handle_inv hstep
  refine Piped.endTurn ?_ _
  obtain hnone | ⟨target, msg, rfl, hspawned⟩ := handle_spawned (n.env uuid nexus sink) n.state m
  · refine h.frame ?_ ?_
    · refine { inbox := List.filter_sublist, tasks := ?_, spawned := ?_ }
      · simp only [Node.takeTurn, hnone, List.map_nil, List.append_nil]
      · simp only [Node.takeTurn, hnone, List.map_nil, List.append_nil]
    · rw [hmail]
      exact (List.sublist_cons_self m rest).filterMap _
  · -- the message goes from the mailbox to its task
    have hfields : (n.takeTurn (.immaterializeMessage target msg) rest (Portal.handle (n.env uuid nexus sink)
        n.state (.immaterializeMessage target msg))).spawned = n.spawned ++ [msg.tag] := by
      simp only [Node.takeTurn, hspawned, List.map_cons, List.map_nil]
    have htasks : (n.takeTurn (.immaterializeMessage target msg) rest (Portal.handle (n.env uuid nexus sink)
        n.state (.immaterializeMessage target msg))).tasks =
        n.tasks ++ [(msg.tag, { target, body := msg.body, todo := msg.refs, done := [], asked := none })] := by
      simp only [Node.takeTurn, hspawned, List.map_cons, List.map_nil, Node.immaterialization]
    generalize Portal.handle (n.env uuid nexus sink) n.state (.immaterializeMessage target msg) = turn at *
    refine ⟨fun e he => h.inbox e (List.mem_of_mem_filter he), h.channel, h.fresh, h.nodup, fun q => ?_, ?_⟩
    · refine List.Sublist.trans (List.Sublist.filter _ ?_) (h.ordered q)
      have hcons : n.mailbox.filterMap PortalActorMessage.immaterializes? =
          msg.tag :: rest.filterMap PortalActorMessage.immaterializes? := by
        rw [hmail]; rfl
      unfold Node.upstream
      rw [hfields, hcons, List.append_assoc n.spawned [msg.tag]]
      refine List.Sublist.append (List.Sublist.refl _) ?_
      exact List.filter_sublist.map _
    · rw [hfields, htasks]
      show (n.posted ++ n.unserialized ++ _).Perm _
      rw [List.map_append, ← List.append_assoc]
      exact h.tasks.append_right _

/-- **Every step.** -/
theorem step (h : Piped n) (hstep : Node.step l n = some n') : Piped n' := by
  cases hpump : l.isPump with
  | false =>
    have hq := Node.quiet_of_step hpump hstep
    cases hflow : l.isFlow with
    | false =>
      refine h.frame (hq.flow hflow) ?_
      obtain ⟨ms, hmail, hposts⟩ := hq.mailbox
      have hnone : ms.filterMap PortalActorMessage.immaterializes? = [] :=
        List.filterMap_eq_nil_iff.mpr fun m hm =>
          immaterializes?_of_posts (hposts m hm) (by rintro proxy rfl; cases hflow)
      rw [hmail, List.filterMap_append, hnone, List.append_nil]
    | true =>
      cases l with
      | sendTo proxy body refs =>
        obtain ⟨-, rfl⟩ := Node.sendTo_inv hstep
        apply Piped.enqueue
        exact h.frame {} (List.Sublist.refl _)
      | forwardReply port =>
        obtain ⟨proxy, rest, body, refs, -, -, ⟨-, rfl⟩ | ⟨-, rfl⟩⟩ := Node.forwardReply_inv hstep
        · exact h.frame {} (List.Sublist.refl _)
        · apply Piped.enqueue
          exact h.frame {} (List.Sublist.refl _)
      | relay proxy => exact h.relay hstep
      | forward proxy => exact h.forward hstep
      | taskPublish tag => exact h.step_task (.inl rfl) hstep
      | taskPublished tag => exact h.step_task (.inr (.inl rfl)) hstep
      | taskFail tag => exact h.step_task (.inr (.inr (.inl rfl))) hstep
      | taskPost tag => exact h.step_task (.inr (.inr (.inr rfl))) hstep
      | _ => cases hflow
  | true =>
    cases l with
    | recv frame =>
      obtain ⟨-, rfl⟩ := Node.recv_inv hstep
      have hpost (m : PortalActorMessage β) (hm : m.immaterializes? = none) :
          ((n.post m).mailbox.filterMap PortalActorMessage.immaterializes?).Sublist
            (n.mailbox.filterMap PortalActorMessage.immaterializes?) := by
        simp only [Node.post, List.filterMap_append]
        split <;> simp [hm]
      obtain _ | _ | _ | _ := frame <;> exact h.frame {} (hpost _ rfl)
    | handle uuid nexus sink => exact h.handle hstep
    | rebuildDone =>
      obtain ⟨r, -, -, rfl⟩ := Node.rebuildDone_inv hstep
      obtain ⟨error, heq⟩ | ⟨body, -, -, heq⟩ := n.deliver_cases r
      · rw [heq]
        exact h.frame { inbox := List.filter_sublist } (List.nil_sublist _)
      · rw [heq]
        exact h.frame {} (List.Sublist.refl _)
    | _ => cases hpump

theorem started (setup : Setup) : Piped (Node.started (β := β) setup) := by
  constructor
  · rintro _ ⟨⟩
  · rintro _ ⟨⟩
  · rintro _ ⟨⟩
  · exact List.nodup_nil
  · exact fun _ => List.Sublist.refl _
  · exact List.Perm.refl _

/-! ## What follows -/

/-- Every message has at most one task. -/
theorem nodup_spawned (h : Piped n) : n.spawned.Nodup := by
  have hcount (t : Tag) : n.spawned.count t ≤ 1 := by
    have hsub : (n.spawned.filter (·.proxy = t.proxy)).Sublist (n.submitted.filter (·.proxy = t.proxy)) := by
      refine List.Sublist.trans (List.Sublist.filter _ ?_) (h.ordered t.proxy)
      unfold Node.upstream
      simp only [List.append_assoc]
      exact List.sublist_append_left _ _
    have hle := hsub.count_le t
    rw [List.count_filter (by simp), List.count_filter (by simp)] at hle
    exact hle.trans (List.nodup_iff_count_le_one.mp h.nodup t)
  exact List.nodup_iff_count_le_one.mpr hcount

theorem nodup_posted (h : Piped n) : n.posted.Nodup := by
  have hall : (n.posted ++ n.unserialized ++ n.tasks.map Prod.fst).Nodup :=
    h.tasks.nodup_iff.mpr h.nodup_spawned
  rw [List.append_assoc] at hall
  exact hall.of_append_left

theorem posted_subset (h : Piped n) : n.posted ⊆ n.spawned := by
  intro t ht
  refine h.tasks.subset ?_
  simp [ht]

/-- **The tasks for one proxy are started in the order of its messages.** -/
theorem spawned_in_order (h : Piped n) {t₁ t₂ : Tag} (hproxy : t₁.proxy = t₂.proxy)
    (hsent : Precedes n.submitted t₁ t₂) (h₁ : t₁ ∈ n.spawned) (h₂ : t₂ ∈ n.spawned) :
    Precedes n.spawned t₁ t₂ := by
  let mine (l : List Tag) := l.filter (·.proxy = t₁.proxy)
  have hsub : (mine n.spawned).Sublist (mine n.submitted) := by
    refine List.Sublist.trans (List.Sublist.filter _ ?_) (h.ordered t₁.proxy)
    unfold Node.upstream
    simp only [List.append_assoc]
    exact List.sublist_append_left _ _
  have hsent' : Precedes (mine n.submitted) t₁ t₂ := by
    simpa [Precedes, mine, hproxy] using hsent.filter (·.proxy = t₁.proxy)
  have hmem {t : Tag} (ht : t ∈ n.spawned) (hp : t.proxy = t₁.proxy) : t ∈ mine n.spawned := by
    simp [mine, ht, hp]
  have hmine := hsent'.of_sublist hsub (h.nodup.filter _) (hmem h₁ rfl) (hmem h₂ hproxy.symm)
  exact hmine.trans List.filter_sublist

end Piped
end

end Portal
end Wormhole
