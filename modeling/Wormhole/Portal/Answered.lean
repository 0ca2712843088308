import Wormhole.Portal.Rest

/-!
# `Portal.Answered` — every caller of two portals at rest has been answered

A name query that is open is on its way to the other side, or its answer is on its way back (`Outstanding`). So
when nothing is on its way any more, no query is open, and whoever waited on a port has his answer, unless he has
gone, or came too early.
-/

namespace Wormhole
namespace Portal

variable {β : Type}

/-- What the receive loop posts for a frame. -/
def PortalActorMessage.ofFrame : ConduitMessage β → PortalActorMessage β
  | .handshake text => .handshake text
  | .content data => .content data
  | .close _ => .close

/-! ## One turn -/

section

variable {env : HandleEnv} {state : PortalActorState}

/-- What is sent last has been written, unless the handler fails. -/
theorem mem_frames_sending {state' : PortalActorState} {effects : List (Effect β)} {msg : CrossPortalMessage β}
    (hok : ∀ error, (sending env state' effects msg).outcome ≠ .err error) :
    msg ∈ (sending env state' effects msg).frames := by
  have hsink : env.sink ≠ .refused := by
    intro hrefused
    refine hok .sender ?_
    rw [sending, hrefused]
  rw [Turn.frames, sending_effects, if_neg hsink, List.filterMap_append]
  exact List.mem_append_right _ (List.mem_singleton_self msg)

/-- A request of the other side is answered, unless the turn ends the portal. -/
theorem handle_responds {id : CrossPortalMessageId} {name : String}
    (hok : ∀ error, (handle (β := β) env state (.content (some (.requestActorByName id name)))).outcome ≠ .err error)
    (hgoes : ∀ reason,
      (handle (β := β) env state (.content (some (.requestActorByName id name)))).outcome ≠ .stop reason) :
    ∃ result, .responseActorByName id result ∈
      (handle (β := β) env state (.content (some (.requestActorByName id name)))).frames := by
  cases hphase : state.channelState with
  | opening own => exact absurd (by simp only [handle, handleContent, hphase]) (hgoes .contentBeforeHandshake)
  | opened channel =>
    have hturn : handle (β := β) env state (.content (some (.requestActorByName id name))) =
        handleRequestActorByName env state channel id name := by
      simp only [handle, handleContent, hphase, handleCrossPortalMessage]
    rw [hturn] at hok ⊢
    -- the name is one of this portal, or of the nexus, or unknown
    cases hname : state.namedActors.lookup name with
    | some opaqueId =>
      simp only [handleRequestActorByName, hname] at hok ⊢
      exact ⟨_, mem_frames_sending hok⟩
    | none =>
      cases hnexus : env.nexus with
      | none => exact absurd (by simp only [handleRequestActorByName, hname, hnexus]) (hok .nexus)
      | some answer =>
        cases answer with
        | none =>
          simp only [handleRequestActorByName, hname, hnexus] at hok ⊢
          exact ⟨_, mem_frames_sending hok⟩
        | some actor =>
          simp only [handleRequestActorByName, hname, hnexus] at hok ⊢
          exact ⟨_, mem_frames_sending hok⟩

/-- A response closes its request, unless the turn ends the portal. -/
theorem handle_closes {id : CrossPortalMessageId} {result : Resolution}
    (hgoes : ∀ reason,
      (handle (β := β) env state (.content (some (.responseActorByName id result)))).outcome ≠ .stop reason) :
    (handle (β := β) env state (.content (some (.responseActorByName id result)))).state.openRequests.lookup id = none := by
  cases hphase : state.channelState with
  | opening own => exact absurd (by simp only [handle, handleContent, hphase]) (hgoes .contentBeforeHandshake)
  | opened channel =>
    cases hlook : state.openRequests.lookup id with
    | none =>
      rw [handle_unknown hphase .byName hlook]
      exact hlook
    | some port =>
      simp only [handle, handleContent, hphase, handleCrossPortalMessage, handleResponse, hlook, replying_state]
      exact AList.lookup_erase _ _

/-- A request that is open after the turn was so before it, or is written in it, unless the handler fails. -/
theorem handle_opens {m : PortalActorMessage β} {id : CrossPortalMessageId} {port : PortId}
    (hok : ∀ error, (handle env state m).outcome ≠ .err error)
    (hlook : (handle env state m).state.openRequests.lookup id = some port) :
    state.openRequests.lookup id = some port ∨ ∃ name, .requestActorByName id name ∈ (handle env state m).frames := by
  have hrequests := handle_requests env state m
  generalize (handle env state m).state.openRequests = requests at hrequests hlook
  generalize (handle env state m).state.nextRequestId = next at hrequests
  cases hrequests with
  | asked name port' hopen =>
    rw [HashMap.lookup_insert_eq] at hlook
    split at hlook
    · rename_i hid
      subst hid
      obtain ⟨channel, hphase⟩ := PortalConduitState.isOpen_iff.mp hopen
      simp only [handle, handleQueryNamedRemoteActor, hphase] at hok ⊢
      exact .inr ⟨name, mem_frames_sending hok⟩
    · exact .inl hlook
  | answered msg id' result port' hmsg hlook' =>
    rw [HashMap.lookup_erase_eq] at hlook
    split at hlook
    · cases hlook
    · exact .inl hlook
  | other => exact .inl hlook

end

namespace Node

variable {n n' : Node β} {l : Label β}

theorem mem_receive (hrun : n.life = .running) (frame : ConduitMessage β) :
    .ofFrame frame ∈ (n.receive (some frame)).mailbox := by
  have hposted (m : PortalActorMessage β) : m ∈ (n.post m).mailbox := by
    unfold post
    rw [if_pos hrun]
    exact List.mem_append_right _ (List.mem_singleton_self m)
  cases frame <;> exact hposted _

/-- If the portal still runs, its handler has not stopped it. -/
theorem not_stopped_of_step {uuid : OpaqueActorId} {nexus : Option (Option ActorId)} {sink : SinkResult}
    {m : PortalActorMessage β} {rest : List (PortalActorMessage β)} (hstep : step (.handle uuid nexus sink) n = some n')
    (hrun : n'.life = .running) (hmail : n.mailbox = m :: rest) (reason : StopReason) :
    (Portal.handle (n.env uuid nexus sink) n.state m).outcome ≠ .stop reason := by
  intro hstopped
  obtain ⟨-, m', rest', hmail', rfl⟩ := handle_inv hstep
  cases hmail.symm.trans hmail'
  rw [hstopped] at hrun
  cases hrun

/-- **A request that is handled is answered**, if the portal runs on. -/
theorem responds_of_handle {uuid : OpaqueActorId} {nexus : Option (Option ActorId)} {sink : SinkResult}
    {rest : List (PortalActorMessage β)} {id : CrossPortalMessageId} {name : String}
    (hstep : step (.handle uuid nexus sink) n = some n') (hrun : n'.life = .running)
    (hmail : n.mailbox = .content (some (.requestActorByName id name)) :: rest) :
    ∃ result frames, n'.sent = n.sent ++ frames ∧ .content (some (.responseActorByName id result)) ∈ frames := by
  obtain ⟨-, m, rest', hmail', hturned⟩ := turned_of_handle hstep
  cases hmail.symm.trans hmail'
  obtain ⟨result, hframe⟩ := handle_responds (not_failed_of_step hstep hrun hmail) (not_stopped_of_step hstep hrun hmail)
  exact ⟨result, _, hturned.sent, List.mem_map_of_mem hframe⟩

/-- **A response that is handled closes its request**, if the portal runs on. -/
theorem closes_of_handle {uuid : OpaqueActorId} {nexus : Option (Option ActorId)} {sink : SinkResult}
    {rest : List (PortalActorMessage β)} {id : CrossPortalMessageId} {result : Resolution}
    (hstep : step (.handle uuid nexus sink) n = some n') (hrun : n'.life = .running)
    (hmail : n.mailbox = .content (some (.responseActorByName id result)) :: rest) :
    n'.state.openRequests.lookup id = none := by
  obtain ⟨-, m, rest', hmail', hturned⟩ := turned_of_handle hstep
  cases hmail.symm.trans hmail'
  rw [hturned.state]
  exact handle_closes (not_stopped_of_step hstep hrun hmail)

/-- **An open request** was open, or has just been written. -/
theorem open_of_step (hstep : step l n = some n') (hrun : n'.life = .running) {id : CrossPortalMessageId} {port : PortId}
    (hlook : n'.state.openRequests.lookup id = some port) : n.state.openRequests.lookup id = some port ∨
      ∃ name frames, n'.sent = n.sent ++ frames ∧ .content (some (.requestActorByName id name)) ∈ frames := by
  obtain hidle | ⟨uuid, nexus, sink, m, rest, rfl, -, hmail, hturned⟩ := idle_or_turned hstep
  · rw [hidle.state] at hlook
    exact .inl hlook
  · rw [hturned.state] at hlook
    obtain hold | ⟨name, hframe⟩ := handle_opens (not_failed_of_step hstep hrun hmail) hlook
    · exact .inl hold
    · exact .inr ⟨name, _, hturned.sent, List.mem_map_of_mem hframe⟩

end Node

/-- What is answered once is the only answer on its port. -/
theorem only_answer {replies : List (PortId × ReplyValue β)} {port : PortId} {value : ReplyValue β}
    (honce : (replies.map Prod.fst).count port ≤ 1) (hreply : (port, value) ∈ replies) :
    replies.filter (·.1 == port) = [(port, value)] := by
  have hmem : (port, value) ∈ replies.filter (·.1 == port) := List.mem_filter.mpr ⟨hreply, by simp⟩
  have hlength : (replies.filter (·.1 == port)).length ≤ 1 := by
    rw [List.count, List.countP_map, List.countP_eq_length_filter] at honce
    simpa [Function.comp_def] using honce
  obtain ⟨reply, hone⟩ := List.length_eq_one_iff.mp (Nat.le_antisymm hlength (List.length_pos_of_mem hmem))
  rw [hone] at hmem ⊢
  rw [List.mem_singleton.mp hmem]

/-! ## What is coming -/

namespace Pair

/-- What a side has got and not handled, and what it has not read. -/
def coming (p : Pair β) (s : Side) : List (PortalActorMessage β) := (p.node s).mailbox ++ (p.unread s).map .ofFrame

/-- The request is on its way, or its answer is. -/
def Outstanding (p : Pair β) (s : Side) (id : CrossPortalMessageId) : Prop :=
  (∃ name, .content (some (.requestActorByName id name)) ∈ p.coming s.other) ∨
    ∃ result, .content (some (.responseActorByName id result)) ∈ p.coming s

section

variable {setup : Side → Setup} {H : PairLabel β → Pair β → Prop} {p q : Pair β} {l : PairLabel β} {s : Side}

theorem Quiescent.coming_eq (h : p.Quiescent) (s : Side) : p.coming s = [] := by
  rw [coming, (h.settled s).mailbox, h.read s]
  rfl

/-- **What is coming is handled**, while both portals run. -/
theorem coming_of_step (hstep : Pair.step l p = some q) (hrun : ∀ s, (q.node s).life = .running)
    {m : PortalActorMessage β} (hm : m ∈ p.coming s) : m ∈ q.coming s ∨
      ∃ uuid nexus sink rest, Node.step (.handle uuid nexus sink) (p.node s) = some (q.node s) ∧
        (p.node s).mailbox = m :: rest ∧ q.read s.other = p.read s.other := by
  obtain ⟨t, label, hnode, hother, hread, hrecv⟩ := step_inv hstep
  obtain hmail | hunread := List.mem_append.mp hm
  · obtain rfl | rfl := t.eq_or_other s
    · obtain hstill | ⟨uuid, nexus, sink, rest, rfl, hhead⟩ := Node.mem_mailbox_of_running hnode (hrun s) hmail
      · exact .inl (List.mem_append_left _ hstill)
      · exact .inr ⟨uuid, nexus, sink, rest, hnode, hhead, hread⟩
    · rw [← hother] at hmail
      exact .inl (List.mem_append_left _ hmail)
  · obtain ⟨frame, hframe, rfl⟩ := List.mem_map.mp hunread
    rw [unread] at hframe
    refine .inl ?_
    obtain rfl | rfl := t.eq_or_other s
    · obtain ⟨frame', rfl, hnext, hmore⟩ | ⟨hsame, -⟩ := hrecv
      · -- the first of the frames is read now
        obtain ⟨hlt, heq⟩ := List.getElem?_eq_some_iff.mp hnext
        rw [List.drop_eq_getElem_cons hlt, heq] at hframe
        obtain rfl | hlater := List.mem_cons.mp hframe
        · obtain ⟨-, hreceived⟩ := Node.recv_inv hnode
          refine List.mem_append_left _ ?_
          rw [hreceived]
          exact Node.mem_receive (Node.life_of_step hnode (hrun s)) frame
        · refine List.mem_append_right _ (List.mem_map_of_mem ?_)
          rw [unread, hother, hmore]
          exact hlater
      · refine List.mem_append_right _ (List.mem_map_of_mem ?_)
        rw [unread, hother, hsame]
        exact hframe
    · obtain ⟨more, hsent, -⟩ := Node.sent_of_step hnode
      refine List.mem_append_right _ (List.mem_map_of_mem ?_)
      rw [Side.other_other] at hframe
      rw [unread, Side.other_other, hsent, hread, List.drop_append]
      exact List.mem_append_left _ hframe

/-- What is written is coming to the other side. -/
theorem coming_of_sent (hle : p.read s.other ≤ (p.node s).sent.length) (hread : q.read s.other = p.read s.other)
    {frames : List (ConduitMessage β)} (hsent : (q.node s).sent = (p.node s).sent ++ frames)
    {frame : ConduitMessage β} (hframe : frame ∈ frames) : .ofFrame frame ∈ q.coming s.other := by
  refine List.mem_append_right _ (List.mem_map_of_mem ?_)
  rw [unread, Side.other_other, hsent, hread, List.drop_append_of_le_length hle]
  exact List.mem_append_right _ hframe

theorem Flows.read_le (h : p.Flows setup) (s : Side) : p.read s.other ≤ (p.node s).sent.length := by
  have hle := (h.agrees.receives s.other).read_le
  rwa [Side.other_other] at hle

/-- **An open request stays outstanding**, while both portals run. -/
theorem Outstanding.step {id : CrossPortalMessageId} (h : p.Outstanding s id) (hflows : p.Flows setup)
    (hstep : Pair.step l p = some q) (hrun : ∀ s, (q.node s).life = .running)
    {port : PortId} (hlook : (q.node s).state.openRequests.lookup id = some port) : q.Outstanding s id := by
  obtain ⟨name, hrequest⟩ | ⟨result, hresponse⟩ := h
  · obtain hstill | ⟨uuid, nexus, sink, rest, hnode, hmail, hread⟩ := coming_of_step hstep hrun hrequest
    · exact .inl ⟨name, hstill⟩
    · obtain ⟨result, frames, hsent, hframe⟩ := Node.responds_of_handle hnode (hrun s.other) hmail
      have hcoming := coming_of_sent (hflows.read_le s.other) hread hsent hframe
      rw [Side.other_other] at hcoming
      exact .inr ⟨result, hcoming⟩
  · obtain hstill | ⟨uuid, nexus, sink, rest, hnode, hmail, -⟩ := coming_of_step hstep hrun hresponse
    · exact .inr ⟨result, hstill⟩
    · rw [Node.closes_of_handle hnode (hrun s) hmail] at hlook
      cases hlook

/-- **Every open request is outstanding**, if it was so before. -/
theorem outstanding_of_step {id : CrossPortalMessageId} {port : PortId}
    (h : ∀ id port, (p.node s).state.openRequests.lookup id = some port → p.Outstanding s id) (hflows : p.Flows setup)
    (hstep : Pair.step l p = some q) (hrun : ∀ s, (q.node s).life = .running)
    (hlook : (q.node s).state.openRequests.lookup id = some port) : q.Outstanding s id := by
  obtain ⟨t, label, hnode, hother, hread, -⟩ := step_inv hstep
  obtain rfl | rfl := t.eq_or_other s
  · obtain hold | ⟨name, frames, hsent, hframe⟩ := Node.open_of_step hnode (hrun s) hlook
    · exact (h id port hold).step hflows hstep hrun hlook
    · exact .inl ⟨name, coming_of_sent (hflows.read_le s) hread hsent hframe⟩
  · refine (h id port ?_).step hflows hstep hrun hlook
    rw [← hother]
    exact hlook

/-! ## Runs -/

/-- What holds of the requests of two honest portals, and of what they have done. -/
structure Answering (setup : Side → Setup) (H : PairLabel β → Pair β → Prop) (p : Pair β) : Prop where
  correlated : Correlated H p
  underway : p.Underway setup
  attentive : ∀ s, (p.node s).Attentive
  fate : ∀ s, (p.node s).life = .running → ∀ m port, Awaits (Took H s) m port → Fate (Took H s) (p.node s) m port
  outstanding : (∀ s, (p.node s).life = .running) →
    ∀ s id port, (p.node s).state.openRequests.lookup id = some port → p.Outstanding s id

/-- **Every step**, while no next request id wraps. -/
theorem Answering.step (h : Answering setup H p) (hwrap : NoWrap l p) (hstep : Pair.step l p = some q) :
    Answering setup (fun l' u => H l' u ∨ l' = l ∧ u = p) q := by
  obtain ⟨t, label, hnode, hother, hext, hsame, -⟩ := took_of_step (H := H) hstep
  refine ⟨h.correlated.step hwrap hstep, h.underway.step hstep, fun s => ?_, fun s hrun m port hawaits => ?_, ?_⟩
  · obtain rfl | rfl := t.eq_or_other s
    · exact (h.attentive s).step hnode
    · rw [hother]
      exact h.attentive t.other
  · obtain rfl | rfl := t.eq_or_other s
    · exact fates_of_step (h.fate s (Node.life_of_step hnode hrun)) (h.correlated.asking s) hext hnode hrun hawaits
    · rw [hsame] at hawaits ⊢
      rw [hother] at hrun ⊢
      exact h.fate t.other hrun m port hawaits
  · intro hrun s id port hlook
    have hbefore (s : Side) : (p.node s).life = .running := by
      obtain rfl | rfl := t.eq_or_other s
      · exact Node.life_of_step hnode (hrun s)
      · rw [← hother]
        exact hrun t.other
    exact outstanding_of_step (h.outstanding hbefore s) h.underway.flows hstep hrun hlook

theorem Answering.started (setup : Side → Setup) : Answering (β := β) setup (fun _ _ => False) (Pair.started setup) := by
  refine ⟨Correlated.started setup, Underway.started setup, fun s => ?_, ?_, ?_⟩
  · exact attentive_of_run (.nil (Node.started (setup s)))
  · rintro s - m port ⟨r, u, ⟨w, hnever, -⟩, -⟩
    exact hnever.elim
  · rintro - s id port ⟨⟩

/-- Whoever asked for a name has got what the other side has found for it. -/
theorem Correlated.computed_for (h : Correlated H p) {name : String} {port : PortId} {result : Resolution}
    (hawaits : Awaits (Took H s) (.queryNamedRemoteActor name port) port)
    (hreply : (port, .resolved result) ∈ (p.node s).replies) :
    ∃ id, Asked (Took H s) id name port ∧ Computed (Took H s.other) id name result := by
  have hrequested : Requested (Took H s) name port := by
    obtain ⟨r, u, htook, hr, -⟩ := hawaits
    cases r <;> cases hr
    exact ⟨u, htook, rfl⟩
  obtain ⟨id, name', hask, hcomp⟩ := h.resolved s port result hreply
  obtain ⟨hrequested', -⟩ := (h.asking s).asked id name' port hask
  obtain rfl := ((h.asking s).requested name port hrequested).2 name' hrequested'
  exact ⟨id, hask, hcomp⟩

/-- A side at rest has opened. -/
theorem Quiescent.opened (h : p.Quiescent) (hagrees : p.Agrees setup) (hrun : ∀ s, (p.node s).life = .running) (s : Side) :
    ∃ channel, (p.node s).state.channelState = .opened channel := by
  cases hphase : (p.node s).state.channelState with
  | opened channel => exact ⟨channel, rfl⟩
  | opening own =>
    -- the introduction of the other side would still be in the mailbox
    have hpending := ((hagrees.receives s).opening own hphase).2 (hrun s)
    have hall : (p.node s.other).sent.length ≤ p.read s := List.drop_eq_nil_iff.mp (h.read s)
    obtain ⟨rest, hsent, -⟩ := hagrees.writes s.other
    rw [Node.pending, (h.settled s).mailbox, List.take_of_length_le hall, hsent] at hpending
    cases hpending

/-- **Everyone has been answered.** In every run of two honest portals in which no request id wraps, however their
    steps interleave: when nothing that is on its way can go on and both portals run, both have opened, no caller
    waits for the handshake, and no name query is open. Whoever has made a request and waits on a port has got the
    answer to it, and no second one, and a caller who asked for a name has got what the other side has found for
    it when it answered the request that was made for this caller. Only a caller that has dropped its receiver, and what was asked before the handshake of a portal that had
    to be open for it, goes without. -/
theorem everyone_answered (setup : Side → Setup) (ls : List (PairLabel β)) (p : Pair β)
    (hrun : Transition.Run Pair.step NoWrap ls (Pair.started setup) p) (hrest : p.AtRest)
    (hrunning : ∀ s, (p.node s).life = .running)
    (huuid : ∀ s, ∃ uuid, (p.node s).state.publishedActors.lookup uuid = none) (s : Side) :
    (∃ channel, (p.node s).state.channelState = .opened channel) ∧ (p.node s).state.waitingForHandshake = [] ∧
    (p.node s).state.openRequests.keys = [] ∧
    ∀ m port, Awaits (Took (Transition.Occurs Pair.step ls (Pair.started setup)) s) m port →
      (∃ value, Fulfils (p.node s).state m value ∧ (p.node s).replies.filter (·.1 == port) = [(port, value)] ∧
        ∀ name result, m = .queryNamedRemoteActor name port → value = .resolved result →
          ∃ id, Asked (Took (Transition.Occurs Pair.step ls (Pair.started setup)) s) id name port ∧
            Computed (Took (Transition.Occurs Pair.step ls (Pair.started setup)) s.other) id name result) ∨
      port ∈ (p.node s).dropped ∨ Refused (Took (Transition.Occurs Pair.step ls (Pair.started setup)) s) m := by
  have hanswering : Answering setup (Transition.Occurs Pair.step ls (Pair.started setup)) p :=
    hrun.history (fun _ _ _ _ h hwrap hstep => h.step hwrap hstep) (Answering.started setup)
  have hquiescent := hanswering.underway.quiescent hrunning huuid hrest
  obtain ⟨channel, hopen⟩ := hquiescent.opened hanswering.underway.flows.agrees hrunning s
  have hdrained := (hanswering.attentive s).drained channel hopen
  have hclosed (id : CrossPortalMessageId) : (p.node s).state.openRequests.lookup id = none := by
    cases hlook : (p.node s).state.openRequests.lookup id with
    | none => rfl
    | some port =>
      obtain ⟨name, hcoming⟩ | ⟨result, hcoming⟩ := hanswering.outstanding hrunning s id port hlook
      · rw [hquiescent.coming_eq] at hcoming
        cases hcoming
      · rw [hquiescent.coming_eq] at hcoming
        cases hcoming
  refine ⟨⟨channel, hopen⟩, hdrained, ?_, fun m port hawaits => ?_⟩
  · refine List.eq_nil_iff_forall_not_mem.mpr fun id hid => ?_
    exact AList.lookup_eq_none.mp (hclosed id) hid
  · have honce := (hanswering.correlated.linear s).1.answered_once port
    cases hanswering.fate s (hrunning s) m port hawaits with
    | queued hm =>
      rw [(hquiescent.settled s).mailbox] at hm
      cases hm
    | waiting hm hwaits =>
      rw [hdrained] at hwaits
      cases hwaits
    | asked name id hm hlook hsent =>
      rw [hclosed id] at hlook
      cases hlook
    | answered value hvalue hreply =>
      refine .inl ⟨value, hvalue, only_answer honce hreply, ?_⟩
      rintro name result rfl rfl
      exact hanswering.correlated.computed_for hawaits hreply
    | gone hgone => exact .inr (.inl hgone)
    | refused hrefused => exact .inr (.inr hrefused)

theorem everyone_answered_crossing : ∃ p,
    Transition.exec Pair.step crossing (Pair.started twoSides) = some p ∧ p.AtRest ∧
    (p.node .left).state.openRequests.keys = [] ∧
    ((∃ value, (p.node .left).replies.filter (·.1 == 0) = [(0, value)]) ∨ 0 ∈ (p.node .left).dropped ∨
      Refused (Took (Transition.Occurs Pair.step crossing (Pair.started twoSides)) .left)
        (.queryNamedRemoteActor "greeter" 0)) := by
  have heval : (Transition.exec (Transition.guarded Pair.step Pair.NoWrap) crossing (Pair.started twoSides)).map
      (fun p => decide (∀ s ∈ [Side.left, .right], (p.node s).life = .running ∧ p.unread s = [] ∧
        (p.node s).state.publishedActors.lookup (⟨1⟩ : OpaqueActorId) = none ∧
        (p.node s).mailbox = [] ∧ (p.node s).rebuilding = none ∧ (p.node s).inbox = [] ∧ (p.node s).channel = [] ∧
        (p.node s).tasks = [] ∧ (p.node s).creating = [])) = some true := by
    decide +kernel
  obtain ⟨p, hp, hfacts⟩ := Option.map_eq_some_iff.mp heval
  have hside (s : Side) := of_decide_eq_true hfacts s (by cases s <;> simp)
  have hquiescent : p.Quiescent := by
    refine ⟨fun s => ?_, fun s => (hside s).2.1⟩
    obtain ⟨-, -, -, hmailbox, hrebuilding, hinbox, hchannel, htasks, hcreating⟩ := hside s
    exact ⟨hmailbox, hrebuilding, hinbox, hchannel, htasks, hcreating⟩
  have hrun := Transition.run_of_exec_guarded hp
  have hrest := hquiescent.atRest fun s => (hside s).1
  obtain ⟨-, -, hclosed, hanswers⟩ :=
    everyone_answered twoSides crossing p hrun hrest (fun s => (hside s).1) (fun s => ⟨_, (hside s).2.2.1⟩) .left
  have hawaits : Awaits (Took (Transition.Occurs Pair.step crossing (Pair.started twoSides)) .left)
      (.queryNamedRemoteActor "greeter" 0) 0 := by
    have hasked : (Transition.exec Pair.step bothOpen (Pair.started twoSides)).map (fun u =>
        decide ((u.node .left).nextPort = 0)) = some true := by
      decide +kernel
    obtain ⟨u, hu, hport⟩ := Option.map_eq_some_iff.mp hasked
    refine ⟨.queryNamedRemoteActor "greeter", u.node .left, ⟨u, ⟨bothOpen, _, rfl, Transition.run_of_exec hu⟩, rfl⟩, ?_, rfl⟩
    rw [Node.requestMessage, of_decide_eq_true hport]
  refine ⟨p, hrun.exec, hrest, hclosed, ?_⟩
  obtain ⟨value, -, hone, -⟩ | hgone | hrefused := hanswers _ 0 hawaits
  · exact .inl ⟨value, hone⟩
  · exact .inr (.inl hgone)
  · exact .inr (.inr hrefused)

end

end Pair

end Portal
end Wormhole
