import Wormhole.Portal.Handshake
import Wormhole.Portal.Pipeline

/-!
# `Portal.Ordering` — the order in which messages arrive

From the moment a task posts its serialized message, everything is FIFO: the mailbox of the portal, the
conduit, the mailbox of the other portal, and its handler, which is not left before the message is
delivered. So messages are delivered in the order in which their tasks post them (`InOrder`). The tasks
themselves are not ordered.
-/

namespace Wormhole
namespace Portal

variable {β : Type}

/-! ## Where a message is, once its task has posted it -/

/-- The message that the portal is asked to transmit. -/
def PortalActorMessage.transmits? : PortalActorMessage β → Option Tag
  | .transmitMessage _ bytes => some bytes.tag
  | _ => none

/-- The message in a frame. -/
def ConduitMessage.carries? : ConduitMessage β → Option Tag
  | .content (some (.sendMessage _ data)) => some data.tag
  | _ => none

/-- The message in a frame that the portal is given. -/
def PortalActorMessage.carries? : PortalActorMessage β → Option Tag
  | .content (some (.sendMessage _ data)) => some data.tag
  | _ => none

namespace Node

/-- The messages that the portal has still to write. -/
def leaving (n : Node β) : List Tag := n.mailbox.filterMap PortalActorMessage.transmits?

def deliveredTags (n : Node β) : List Tag := n.delivered.map (·.2.tag)

/-- The messages that this side has got, the delivered ones first. -/
def arriving (n : Node β) : List Tag :=
  n.deliveredTags ++ n.rebuilding.toList.map Rebuilding.tag ++ n.mailbox.filterMap PortalActorMessage.carries?

end Node

section

variable {n n' : Node β} {l : Label β}

/-- A turn writes the message it is asked to transmit, or none. -/
theorem carries?_of_handle (env : HandleEnv) (state : PortalActorState) (m : PortalActorMessage β) :
    (((handle env state m).frames.map fun msg => ConduitMessage.content (some msg)).filterMap
      ConduitMessage.carries?).Sublist m.transmits?.toList := by
  by_cases hm : ∃ target bytes, m = .transmitMessage target bytes
  · obtain ⟨target, bytes, rfl⟩ := hm
    show (((handleTransmitMessage env state target bytes).frames.map _).filterMap _).Sublist _
    unfold handleTransmitMessage
    split
    · exact List.nil_sublist _
    · unfold sending
      split
      · exact List.Sublist.refl _
      · exact List.Sublist.refl _
      · exact List.nil_sublist _
  · have hnone : ((handle env state m).frames.map fun msg => ConduitMessage.content (some msg)).filterMap
        ConduitMessage.carries? = [] := by
      rw [List.filterMap_eq_nil_iff]
      intro frame hframe
      obtain ⟨msg, hmsg, rfl⟩ := List.mem_map.mp hframe
      cases handle_causes (mem_frames hmsg) with
      | transmit channel target bytes => exact absurd ⟨target, bytes, rfl⟩ hm
      | _ => rfl
    rw [hnone]
    exact List.nil_sublist _

theorem transmits?_of_posts {m : PortalActorMessage β} (h : l.posts m) (hl : ∀ tag, l ≠ .taskPost tag) :
    m.transmits? = none := by
  cases m with
  | transmitMessage target bytes =>
    cases l with
    | taskPost tag => exact absurd rfl (hl tag)
    | _ => cases h
  | _ => rfl

theorem carries?_of_posts {m : PortalActorMessage β} (h : l.posts m) : m.carries? = none := by
  cases m with
  | content data => cases l <;> cases h
  | _ => rfl

/-- **What a side writes** comes, in order, from what it had to write and from what is posted now. -/
theorem leaving_of_step (hstep : Node.step l n = some n') :
    ∃ more new, n'.sent = n.sent ++ more ∧ n'.posted = n.posted ++ new ∧
      (more.filterMap ConduitMessage.carries? ++ n'.leaving).Sublist (n.leaving ++ new) := by
  have hkeep (hsent : n'.sent = n.sent) (hposted : n'.posted = n.posted)
      (hleaving : n'.leaving.Sublist n.leaving) : ∃ more new, n'.sent = n.sent ++ more ∧
      n'.posted = n.posted ++ new ∧
      (more.filterMap ConduitMessage.carries? ++ n'.leaving).Sublist (n.leaving ++ new) :=
    ⟨[], [], by rw [hsent, List.append_nil], by rw [hposted, List.append_nil],
      by rw [List.append_nil]; exact hleaving⟩
  cases hpump : l.isPump with
  | false =>
    by_cases hpost : ∃ tag, l = .taskPost tag
    · obtain ⟨tag, rfl⟩ := hpost
      obtain ⟨t, rest, -, -, rfl⟩ := Node.taskPost_inv hstep
      refine ⟨[], [tag], (List.append_nil _).symm, rfl, ?_⟩
      show (List.filterMap _ (n.mailbox ++ _)).Sublist _
      rw [List.filterMap_append]
      refine (List.Sublist.refl _).append ?_
      split
      · exact List.Sublist.refl _
      · exact List.nil_sublist _
    · have hne : ∀ tag, l ≠ .taskPost tag := fun tag heq => hpost ⟨tag, heq⟩
      have hq := Node.quiet_of_step hpump hstep
      refine hkeep hq.sent (hq.posted hne) ?_
      obtain ⟨ms, hmail, hposts⟩ := hq.mailbox
      have hnone : ms.filterMap PortalActorMessage.transmits? = [] :=
        List.filterMap_eq_nil_iff.mpr fun m hm => transmits?_of_posts (hposts m hm) hne
      rw [Node.leaving, hmail, List.filterMap_append, hnone, List.append_nil]
      exact List.Sublist.refl _
  | true =>
    cases l with
    | recv frame =>
      obtain ⟨-, rfl⟩ := Node.recv_inv hstep
      have hpost (m : PortalActorMessage β) (hm : m.transmits? = none) : (n.post m).leaving.Sublist n.leaving := by
        simp only [Node.leaving, Node.post, List.filterMap_append]
        split <;> simp [hm]
      obtain _ | _ | _ | _ := frame <;> exact hkeep rfl rfl (hpost _ rfl)
    | handle uuid nexus sink =>
      obtain ⟨-, m, rest, hmail, rfl⟩ := Node.handle_inv hstep
      have hcarries := carries?_of_handle (n.env uuid nexus sink) n.state m
      set turn := Portal.handle (n.env uuid nexus sink) n.state m
      -- a portal that stops writes nothing of what is left
      have hrest : (((n.takeTurn m rest turn).endTurn turn.outcome).leaving).Sublist
          (rest.filterMap PortalActorMessage.transmits?) := by
        cases turn.outcome with
        | stop => exact List.nil_sublist _
        | err => exact List.nil_sublist _
        | _ => exact List.Sublist.refl _
      have hposted : ((n.takeTurn m rest turn).endTurn turn.outcome).posted = n.posted := by
        cases turn.outcome <;> rfl
      refine ⟨_, [], Node.endTurn_sent _ _, by rw [hposted, List.append_nil], ?_⟩
      have hleaving : n.leaving = m.transmits?.toList ++ rest.filterMap PortalActorMessage.transmits? := by
        rw [Node.leaving, hmail]
        cases hm : m.transmits? with
        | none => rw [List.filterMap_cons_none hm]; rfl
        | some tag => rw [List.filterMap_cons_some hm]; rfl
      -- the message in hand is written now, and the others after it
      rw [List.append_nil, hleaving]
      exact hcarries.append hrest
    | rebuildDone =>
      obtain ⟨r, -, -, rfl⟩ := Node.rebuildDone_inv hstep
      obtain ⟨error, heq⟩ | ⟨body, -, -, heq⟩ := n.deliver_cases r
      · rw [heq] at hkeep ⊢
        exact hkeep rfl rfl (List.nil_sublist _)
      · rw [heq] at hkeep ⊢
        exact hkeep rfl rfl (List.Sublist.refl _)
    | _ => cases hpump

/-- **What a side gets** is delivered in order. -/
theorem arriving_of_step (hl : ∀ frame, l ≠ .recv (some frame)) (hstep : Node.step l n = some n') :
    n'.arriving.Sublist n.arriving := by
  cases hpump : l.isPump with
  | false =>
    have hq := Node.quiet_of_step hpump hstep
    have htags : n'.rebuilding.toList.map Rebuilding.tag = n.rebuilding.toList.map Rebuilding.tag := by
      by_cases href : l = .rebuildRef
      · subst href
        obtain ⟨r, ref, todo, hr, -, rfl⟩ := Node.rebuildRef_inv hstep
        obtain ⟨done, hdone⟩ := n.rebuild_rebuilding r ref todo
        rw [hdone, hr]
        rfl
      · rw [hq.rebuilding href]
    obtain ⟨ms, hmail, hposts⟩ := hq.mailbox
    have hnone : ms.filterMap PortalActorMessage.carries? = [] :=
      List.filterMap_eq_nil_iff.mpr fun m hm => carries?_of_posts (hposts m hm)
    rw [Node.arriving, Node.deliveredTags, hq.delivered, htags, hmail, List.filterMap_append, hnone,
      List.append_nil]
    exact List.Sublist.refl _
  | true =>
    cases l with
    | recv frame =>
      cases frame with
      | some frame => exact absurd rfl (hl frame)
      | none =>
        obtain ⟨-, rfl⟩ := Node.recv_inv hstep
        simp only [Node.arriving, Node.receive, Node.post, List.filterMap_append, Node.deliveredTags]
        split <;> simp [PortalActorMessage.carries?]
    | handle uuid nexus sink =>
      obtain ⟨⟨-, hidle, -⟩, m, rest, hmail, rfl⟩ := Node.handle_inv hstep
      -- a portal that ends delivers nothing more; one that rematerializes has the message in hand next
      have hend := handle_ends (n.env uuid nexus sink) n.state m
      have harriving : n.arriving = n.deliveredTags ++ (m :: rest).filterMap PortalActorMessage.carries? := by
        rw [Node.arriving, hidle, hmail, Option.toList_none, List.map_nil, List.append_nil]
      have hrest : (rest.filterMap PortalActorMessage.carries?).Sublist
          ((m :: rest).filterMap PortalActorMessage.carries?) := (List.sublist_cons_self m rest).filterMap _
      set turn := Portal.handle (n.env uuid nexus sink) n.state m
      rw [harriving]
      cases hout : turn.outcome with
      | ok =>
        show (n.deliveredTags ++ n.rebuilding.toList.map Rebuilding.tag ++ _).Sublist _
        rw [hidle, Option.toList_none, List.map_nil, List.append_nil]
        exact (List.Sublist.refl _).append hrest
      | stop reason =>
        show (n.deliveredTags ++ [] ++ []).Sublist _
        rw [List.append_nil, List.append_nil]
        exact List.sublist_append_left _ _
      | err error =>
        show (n.deliveredTags ++ [] ++ []).Sublist _
        rw [List.append_nil, List.append_nil]
        exact List.sublist_append_left _ _
      | rematerialize actor data =>
        rw [hout] at hend
        cases hend
        show (n.deliveredTags ++ [data.tag] ++ _).Sublist _
        rw [List.append_assoc]
        exact List.Sublist.refl _
    | rebuildDone =>
      obtain ⟨r, hr, -, rfl⟩ := Node.rebuildDone_inv hstep
      obtain ⟨error, heq⟩ | ⟨body, -, -, heq⟩ := n.deliver_cases r
      · rw [heq]
        show (n.deliveredTags ++ [] ++ []).Sublist _
        rw [List.append_nil, List.append_nil, Node.arriving, List.append_assoc]
        exact List.sublist_append_left _ _
      · rw [heq]
        simp [Node.arriving, Node.deliveredTags, Node.handOver, hr]
    | _ => cases hpump

theorem arriving_of_recv {frame : ConduitMessage β} (hstep : Node.step (.recv (some frame)) n = some n') :
    n'.arriving.Sublist (n.arriving ++ frame.carries?.toList) := by
  obtain ⟨-, rfl⟩ := Node.recv_inv hstep
  have hpost (m : PortalActorMessage β) (hm : m.carries? = frame.carries?) :
      (n.post m).arriving.Sublist (n.arriving ++ frame.carries?.toList) := by
    show (_ ++ _ ++ (n.mailbox ++ _).filterMap _).Sublist _
    rw [List.filterMap_append, ← List.append_assoc]
    refine (List.Sublist.refl _).append ?_
    split
    · cases hc : frame.carries? with
      | none => rw [List.filterMap_cons_none (hm.trans hc)]; exact List.nil_sublist _
      | some tag => rw [List.filterMap_cons_some (hm.trans hc)]; exact List.Sublist.refl _
    · exact List.nil_sublist _
  cases frame with
  | handshake text => exact hpost (.handshake text) rfl
  | content data => exact hpost (.content data) (by obtain _ | _ | _ | _ | _ | _ := data <;> rfl)
  | close reason => exact hpost .close rfl

end

/-! ## Two sides -/

/-- What one side has posted has been delivered, is on its way, or is lost, and is still in order. -/
def InOrder (sender receiver : Node β) (read : Nat) : Prop :=
  (receiver.arriving ++ (sender.sent.drop read).filterMap ConduitMessage.carries? ++ sender.leaving).Sublist
    sender.posted

namespace InOrder

theorem send {a a' b : Node β} {l : Label β} {read : Nat} (h : InOrder a b read)
    (hread : read ≤ a.sent.length) (hstep : Node.step l a = some a') : InOrder a' b read := by
  obtain ⟨more, new, hsent, hposted, hleaving⟩ := leaving_of_step hstep
  unfold InOrder
  rw [hsent, hposted, List.drop_append_of_le_length hread, List.filterMap_append, ← List.append_assoc,
    List.append_assoc]
  refine ((List.Sublist.refl _).append hleaving).trans ?_
  rw [← List.append_assoc]
  exact h.append (List.Sublist.refl _)

theorem receive {a b b' : Node β} {l : Label β} {read : Nat} (h : InOrder a b read)
    (hl : ∀ frame, l ≠ .recv (some frame)) (hstep : Node.step l b = some b') : InOrder a b' read :=
  (((arriving_of_step hl hstep).append (List.Sublist.refl _)).append (List.Sublist.refl _)).trans h

theorem recv {a b b' : Node β} {read : Nat} {frame : ConduitMessage β} (h : InOrder a b read)
    (hframe : a.sent[read]? = some frame) (hstep : Node.step (.recv (some frame)) b = some b') :
    InOrder a b' (read + 1) := by
  obtain ⟨hlt, hget⟩ := List.getElem?_eq_some_iff.mp hframe
  refine List.Sublist.trans ?_ h
  refine List.Sublist.append ?_ (List.Sublist.refl _)
  have hdrop : (a.sent.drop read).filterMap ConduitMessage.carries? =
      frame.carries?.toList ++ (a.sent.drop (read + 1)).filterMap ConduitMessage.carries? := by
    rw [List.drop_eq_getElem_cons hlt, hget]
    cases hc : frame.carries? with
    | none => rw [List.filterMap_cons_none hc]; rfl
    | some tag => rw [List.filterMap_cons_some hc]; rfl
  rw [hdrop, ← List.append_assoc]
  exact (arriving_of_recv hstep).append (List.Sublist.refl _)

end InOrder

namespace Pair

/-- What holds of the messages between two honest portals, whatever has happened. -/
structure Flows (setup : Side → Setup) (p : Pair β) : Prop where
  agrees : p.Agrees setup
  piped : ∀ s, Piped (p.node s)
  inOrder : ∀ s, InOrder (p.node s) (p.node s.other) (p.read s.other)

variable {setup : Side → Setup}

theorem flows_started : (Pair.started (β := β) setup).Flows setup :=
  ⟨agrees_started, fun s => Piped.started (setup s), fun _ => List.Sublist.refl _⟩

theorem Flows.step {l : PairLabel β} {p q : Pair β} (h : p.Flows setup) (hstep : Pair.step l p = some q) :
    q.Flows setup := by
  have hagrees := h.agrees.step hstep
  obtain ⟨s, label, hnode, hother, hread, hrecv⟩ := Pair.step_inv hstep
  refine ⟨hagrees, fun t => ?_, fun t => ?_⟩
  · obtain rfl | rfl := s.eq_or_other t
    · exact (h.piped t).step hnode
    · rw [hother]; exact h.piped s.other
  · obtain rfl | rfl := s.eq_or_other t
    · -- the sender moves
      rw [hother, hread]
      have hle := (h.agrees.receives t.other).read_le
      rw [Side.other_other] at hle
      exact (h.inOrder t).send hle hnode
    · -- the receiver moves
      have hin := h.inOrder s.other
      rw [Side.other_other] at hin ⊢
      rw [hother]
      obtain ⟨frame, rfl, hframe, hr⟩ | ⟨hr, hl⟩ := hrecv
      · rw [hr]; exact hin.recv hframe hnode
      · rw [hr]; exact hin.receive hl hnode

theorem flows_of_run {ls : List (PairLabel β)} {p : Pair β}
    (hrun : Transition.Run Pair.step Transition.Any ls (Pair.started setup) p) : p.Flows setup :=
  hrun.invariant (fun _ _ _ h _ hstep => h.step hstep) flows_started

/-- What has been delivered, in the order in which it was posted. -/
theorem Flows.delivered_sublist {p : Pair β} (h : p.Flows setup) (s : Side) :
    (p.node s.other).deliveredTags.Sublist (p.node s).posted := by
  refine List.Sublist.trans ?_ (h.inOrder s)
  unfold Node.arriving
  simp only [List.append_assoc]
  exact List.sublist_append_left _ _

/-- **The order of delivery.** In every run of two honest portals, of two messages that were sent to a proxy
    in this order and have both been delivered to the other side: their tasks were started in this order;
    both were delivered once; and the first was delivered before the second if and only if its task posted
    it before. -/
theorem delivery_order (setup : Side → Setup) (ls : List (PairLabel β)) (p : Pair β)
    (hrun : Transition.Run Pair.step Transition.Any ls (Pair.started setup) p) (s : Side) (t₁ t₂ : Tag)
    (hproxy : t₁.proxy = t₂.proxy) (hsent : Precedes (p.node s).submitted t₁ t₂)
    (h₁ : t₁ ∈ (p.node s.other).deliveredTags) (h₂ : t₂ ∈ (p.node s.other).deliveredTags) :
    Precedes (p.node s).spawned t₁ t₂ ∧ (p.node s.other).deliveredTags.Nodup ∧
      (Precedes (p.node s.other).deliveredTags t₁ t₂ ↔ Precedes (p.node s).posted t₁ t₂) := by
  have hflows := flows_of_run hrun
  have hsub := hflows.delivered_sublist s
  have hpiped := hflows.piped s
  have hspawned {t : Tag} (ht : t ∈ (p.node s.other).deliveredTags) : t ∈ (p.node s).spawned :=
    hpiped.posted_subset (hsub.subset ht)
  refine ⟨hpiped.spawned_in_order hproxy hsent (hspawned h₁) (hspawned h₂),
    hpiped.nodup_posted.sublist hsub, fun h => h.trans hsub, fun h => ?_⟩
  exact h.of_sublist hsub hpiped.nodup_posted h₁ h₂

/-- The right side publishes its actor 0 as 8, and the left one sends two messages to a proxy for it, the
    first one with a reference to its own actor 0; both tasks are started. -/
def twoMessages : List (PairLabel Nat) :=
  [.receive .left, .move .left (.handle ⟨7⟩ none .flushed),
   .receive .right, .move .right (.handle ⟨7⟩ none .flushed),
   .move .right (.request (.publishActor 0 true)), .move .right (.handle ⟨8⟩ none .flushed),
   .move .left (.instantiate remoteEight), .move .left (.register 2), .move .left (.handle ⟨7⟩ none .flushed),
   .move .left (.sendTo 2 10 [.actorRef 0]), .move .left (.sendTo 2 20 []),
   .move .left (.relay 2), .move .left (.relay 2), .move .left (.forward 2), .move .left (.forward 2),
   .move .left (.handle ⟨7⟩ none .flushed), .move .left (.handle ⟨7⟩ none .flushed)]

/-- The second message is on its way while the task of the first one waits for its reference. -/
def overtaken : List (PairLabel Nat) :=
  twoMessages ++
  [.move .left (.taskPublish ⟨2, 0⟩), .move .left (.taskPost ⟨2, 1⟩),
   .move .left (.handle ⟨9⟩ none .flushed), .move .left (.handle ⟨7⟩ none .flushed),
   .move .left (.taskPublished ⟨2, 0⟩), .move .left (.taskPost ⟨2, 0⟩), .move .left (.handle ⟨7⟩ none .flushed),
   .receive .right, .receive .right,
   .move .right (.handle ⟨7⟩ none .flushed), .move .right .rebuildDone,
   .move .right (.handle ⟨7⟩ none .flushed), .move .right .rebuildRef, .move .right .rebuildDone]

/-- **A message overtakes the one sent before it to the same proxy.** -/
theorem second_delivered_first : ∃ p, Transition.exec Pair.step overtaken (Pair.started twoSides) = some p ∧
    (p.node .left).submitted = [⟨2, 0⟩, ⟨2, 1⟩] ∧ (p.node .right).deliveredTags = [⟨2, 1⟩, ⟨2, 0⟩] ∧
    (p.node .right).delivered.map (·.1) = [0, 0] := by
  have heval : (Transition.exec Pair.step overtaken (Pair.started twoSides)).map (fun p =>
      decide ((p.node .left).submitted = [⟨2, 0⟩, ⟨2, 1⟩] ∧
        (p.node .right).deliveredTags = [⟨2, 1⟩, ⟨2, 0⟩] ∧
        (p.node .right).delivered.map (·.1) = [0, 0])) = some true := by
    decide +kernel
  obtain ⟨p, hp, hfacts⟩ := Option.map_eq_some_iff.mp heval
  exact ⟨p, hp, of_decide_eq_true hfacts⟩

/-- The tasks end in the order in which they were started. -/
def notOvertaken : List (PairLabel Nat) :=
  twoMessages ++
  [.move .left (.taskPublish ⟨2, 0⟩), .move .left (.handle ⟨9⟩ none .flushed),
   .move .left (.taskPublished ⟨2, 0⟩), .move .left (.taskPost ⟨2, 0⟩), .move .left (.taskPost ⟨2, 1⟩),
   .move .left (.handle ⟨7⟩ none .flushed), .move .left (.handle ⟨7⟩ none .flushed),
   .receive .right, .receive .right,
   .move .right (.handle ⟨7⟩ none .flushed), .move .right .rebuildRef, .move .right .rebuildDone,
   .move .right (.handle ⟨7⟩ none .flushed), .move .right .rebuildDone]

theorem delivery_order_not_overtaken : ∃ p,
    Transition.exec Pair.step notOvertaken (Pair.started twoSides) = some p ∧
    Precedes (p.node .right).deliveredTags ⟨2, 0⟩ ⟨2, 1⟩ := by
  have heval : (Transition.exec Pair.step notOvertaken (Pair.started twoSides)).map (fun p =>
      decide ((p.node .left).submitted = [⟨2, 0⟩, ⟨2, 1⟩] ∧ (p.node .left).posted = [⟨2, 0⟩, ⟨2, 1⟩] ∧
        ⟨2, 0⟩ ∈ (p.node .right).deliveredTags ∧ ⟨2, 1⟩ ∈ (p.node .right).deliveredTags)) = some true := by
    decide +kernel
  obtain ⟨p, hp, hfacts⟩ := Option.map_eq_some_iff.mp heval
  obtain ⟨hsubmitted, hposted, h₁, h₂⟩ := of_decide_eq_true hfacts
  obtain ⟨-, -, hiff⟩ := delivery_order twoSides notOvertaken p (Transition.run_of_exec hp) .left ⟨2, 0⟩ ⟨2, 1⟩
    rfl (by rw [hsubmitted]; exact List.Sublist.refl _) h₁ h₂
  exact ⟨p, hp, hiff.mpr (by rw [hposted]; exact List.Sublist.refl _)⟩

end Pair
end Portal
end Wormhole
