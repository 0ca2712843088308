import Wormhole.Portal.Queries
import Wormhole.Portal.Registry

/-!
# `Portal.Requests` — what becomes of a request

Local code asks a portal to publish an actor, to look one up at the other side, or to tell when the handshake
is over, and waits on a reply port. As long as the portal runs, such a request is in its mailbox, or it waits
for the peer, or it has been answered, unless the caller has gone (`Fate`). Only what needs an open portal and
is handled before the handshake is refused, and then the port is dropped without an answer.
-/

namespace Wormhole
namespace Portal

variable {β : Type}

/-! ## Requests and answers -/

/-- The port on which the sender of the message waits. -/
def PortalActorMessage.reply? : PortalActorMessage β → Option PortId
  | .publishNamedActor _ _ reply => reply
  | .publishActor _ reply => reply
  | .queryNamedRemoteActor _ reply => some reply
  | .waitForHandshake reply => some reply
  | _ => none

/-- What is answered to which request: an id is that of the actor that was to be published. -/
inductive Fulfils (state : PortalActorState) : PortalActorMessage β → ReplyValue β → Prop where
  | publishedNamed (name : String) (actor : ActorId) (port : PortId) (id : Option RemoteActorId)
      (hid : ∀ r, id = some r → state.Denotes r actor) :
      Fulfils state (.publishNamedActor name actor (some port)) (.publishedNamed id)
  | published (actor : ActorId) (port : PortId) (id : RemoteActorId) (hid : state.Denotes id actor) :
      Fulfils state (.publishActor actor (some port)) (.published id)
  | resolved (name : String) (port : PortId) (result : Resolution) :
      Fulfils state (.queryNamedRemoteActor name port) (.resolved result)
  | opened (port : PortId) : Fulfils state (.waitForHandshake port) .opened

/-- The requests that an opening portal refuses. -/
inductive NeedsOpen : PortalActorMessage β → Prop where
  | publishActor (actor : ActorId) (port : PortId) : NeedsOpen (.publishActor actor (some port))
  | query (name : String) (port : PortId) : NeedsOpen (.queryNamedRemoteActor name port)

/-- What one turn makes of the request that it handles. -/
inductive Settles (state : PortalActorState) (m : PortalActorMessage β) (port : PortId) (turn : Turn β) : Prop where
  | failed (error : HandlerError) (hfailed : turn.outcome = .err error)
  | answered (value : ReplyValue β) (hvalue : Fulfils turn.state m value)
      (hreply : (port, value) ∈ turn.replies)
  | waiting (hm : m = .waitForHandshake port) (hwaits : port ∈ turn.state.waitingForHandshake)
  | asked (name : String) (hm : m = .queryNamedRemoteActor name port)
      (hlook : turn.state.openRequests.lookup state.nextRequestId = some port)
      (hframe : .requestActorByName state.nextRequestId name ∈ turn.frames)
  | refused (hneeds : NeedsOpen m) (hopening : state.channelState.isOpen = false)

section

variable {env : HandleEnv} {state state' : PortalActorState} {m : PortalActorMessage β} {port : PortId}
  {effects : List (Effect β)} {value : ReplyValue β}

/-- A handler that answers has done so, or fails. -/
theorem settles_replying (hvalue : Fulfils state' m value) :
    Settles state m port (replying env state' effects port value) := by
  by_cases halive : env.alive port = true
  · refine .answered value (by rwa [replying_state]) ?_
    rw [replies_replying, if_pos halive]
    exact List.mem_append_right _ (List.mem_singleton_self _)
  · rw [replying_of_dropped _ _ _ _ _ (Bool.eq_false_of_not_eq_true halive)]
    exact .failed .reply rfl

/-- **A turn settles its request.** -/
theorem handle_settles (env : HandleEnv) (state : PortalActorState) (hport : m.reply? = some port) :
    Settles state m port (handle env state m) := by
  cases m with
  | publishNamedActor name actor reply =>
    obtain rfl : reply = some port := hport
    show Settles state _ port (handlePublishNamedActor env state name actor (some port))
    rw [handlePublishNamedActor]
    cases hphase : state.channelState with
    | opening own => exact settles_replying (.publishedNamed name actor port none nofun)
    | opened channel =>
      refine settles_replying (.publishedNamed name actor port _ fun r hr => ?_)
      cases hr
      exact ⟨rfl, rfl, lookup_publishActor ..⟩
  | publishActor actor reply =>
    obtain rfl : reply = some port := hport
    show Settles state _ port (handlePublishActor env state actor (some port))
    rw [handlePublishActor]
    cases hphase : state.channelState with
    | opening own => exact .refused (.publishActor actor port) (by rw [hphase]; rfl)
    | opened channel => exact settles_replying (.published actor port _ ⟨rfl, rfl, lookup_publishActor ..⟩)
  | queryNamedRemoteActor name reply =>
    obtain rfl : reply = port := Option.some.inj hport
    show Settles state _ reply (handleQueryNamedRemoteActor env state name reply)
    rw [handleQueryNamedRemoteActor]
    cases hphase : state.channelState with
    | opening own => exact .refused (.query name reply) (by rw [hphase]; rfl)
    | opened channel =>
      by_cases hsink : env.sink = .refused
      · refine .failed .sender ?_
        dsimp only
        rw [sending, hsink]
      · refine .asked name rfl ?_ ?_
        · rw [sending_state]
          exact AList.lookup_insert _
        · rw [Turn.frames, sending_effects, if_neg hsink]
          exact List.mem_singleton_self _
  | waitForHandshake reply =>
    obtain rfl : reply = port := Option.some.inj hport
    show Settles state _ reply (handleWaitForHandshake env state reply)
    rw [handleWaitForHandshake]
    cases state.channelState with
    | opening own => exact .waiting rfl (List.mem_append_right _ (List.mem_singleton_self _))
    | opened channel => exact settles_replying (.opened reply)
  | _ => cases hport

/-- A caller that waits for the handshake goes on waiting, or hears of it, unless it has gone. -/
theorem handle_waiting (env : HandleEnv) (state : PortalActorState) (m : PortalActorMessage β)
    (hport : port ∈ state.waitingForHandshake) : port ∈ (handle env state m).state.waitingForHandshake ∨
      (port, .opened) ∈ (handle env state m).replies ∨ env.alive port = false := by
  rw [← mem_openedPorts]
  have hwaits := handle_waits env state m
  generalize (handle env state m).state.waitingForHandshake = waiting at hwaits ⊢
  generalize openedPorts (handle env state m).replies = ports at hwaits ⊢
  cases hwaits with
  | queued => exact .inl (List.mem_append_left _ hport)
  | answered => exact .inl hport
  | drained =>
    cases halive : env.alive port with
    | true => exact .inr (.inl (List.mem_filter.mpr ⟨hport, halive⟩))
    | false => exact .inr (.inr rfl)
  | other => exact .inl hport

/-- An open request stays open, or is answered, unless the handler fails. -/
theorem handle_open {id : CrossPortalMessageId} (env : HandleEnv) (state : PortalActorState)
    (m : PortalActorMessage β) (hlook : state.openRequests.lookup id = some port) (hold : id < state.nextRequestId) :
    (handle env state m).state.openRequests.lookup id = some port ∨
      (∃ result, (port, .resolved result) ∈ (handle env state m).replies) ∨
      ∃ error, (handle env state m).outcome = .err error := by
  have hrequests := handle_requests env state m
  generalize hafter : (handle env state m).state.openRequests = requests at hrequests ⊢
  generalize (handle env state m).state.nextRequestId = next at hrequests
  cases hrequests with
  | asked name port' hopen =>
    refine .inl ?_
    rw [HashMap.lookup_insert_eq, if_neg (Nat.ne_of_lt hold), hlook]
  | answered msg id' result port' hmsg hlook' =>
    by_cases hid : id = id'
    · -- the response is the one to this request
      subst hid
      obtain rfl := Option.some.inj (hlook.symm.trans hlook')
      refine .inr ?_
      cases hphase : state.channelState with
      | opening own =>
        have hsame : (handle env state (.content (some msg))).state.openRequests = state.openRequests := by
          simp only [handle, handleContent, hphase]
        rw [hsame] at hafter
        rw [hafter, AList.lookup_erase] at hlook
        cases hlook
      | opened channel =>
        have hturn : handle env state (.content (some msg)) =
            replying env { state with openRequests := state.openRequests.erase id } [] port (.resolved result) := by
          cases hmsg <;> simp only [handle, handleContent, hphase, handleCrossPortalMessage, handleResponse, hlook]
        rw [hturn]
        by_cases halive : env.alive port = true
        · refine .inl ⟨result, ?_⟩
          rw [replies_replying, if_pos halive]
          exact List.mem_append_right _ (List.mem_singleton_self _)
        · rw [replying_of_dropped _ _ _ _ _ (Bool.eq_false_of_not_eq_true halive)]
          exact .inr ⟨.reply, rfl⟩
    · refine .inl ?_
      rw [HashMap.lookup_erase_eq, if_neg hid, hlook]
  | other => exact .inl hlook

end

/-! ## Runs -/

/-- The portal took the request before the handshake. -/
def Refused (took : Label β → Node β → Prop) (m : PortalActorMessage β) : Prop :=
  NeedsOpen m ∧ ∃ n uuid nexus sink rest, took (.handle uuid nexus sink) n ∧ n.mailbox = m :: rest ∧
    n.state.channelState.isOpen = false

/-- Where a request is whose sender waits on `port`. -/
inductive Fate (took : Label β → Node β → Prop) (n : Node β) (m : PortalActorMessage β) (port : PortId) : Prop where
  | queued (hm : m ∈ n.mailbox)
  | waiting (hm : m = .waitForHandshake port) (hwaits : port ∈ n.state.waitingForHandshake)
  | asked (name : String) (id : CrossPortalMessageId) (hm : m = .queryNamedRemoteActor name port)
      (hlook : n.state.openRequests.lookup id = some port)
      (hsent : .content (some (.requestActorByName id name)) ∈ n.sent)
  | answered (value : ReplyValue β) (hvalue : Fulfils n.state m value) (hreply : (port, value) ∈ n.replies)
  | gone (hgone : port ∈ n.dropped)
  | refused (hrefused : Refused took m)

section

variable {took took' : Label β → Node β → Prop} {l : Label β} {n n' : Node β} {m : PortalActorMessage β} {port : PortId}

namespace Node

/-- While the portal runs, only a turn takes something out of its mailbox. -/
theorem mem_mailbox_of_running (hstep : step l n = some n') (hrun : n'.life = .running) (hm : m ∈ n.mailbox) :
    m ∈ n'.mailbox ∨ ∃ uuid nexus sink rest, l = .handle uuid nexus sink ∧ n.mailbox = m :: rest := by
  cases hpump : l.isPump with
  | false =>
    obtain ⟨ms, hmail, -⟩ := (quiet_of_step hpump hstep).mailbox
    rw [hmail]
    exact .inl (List.mem_append_left _ hm)
  | true =>
    cases l with
    | recv frame =>
      obtain ⟨-, rfl⟩ := recv_inv hstep
      obtain _ | _ | _ | _ := frame <;> exact .inl (List.mem_append_left _ hm)
    | handle uuid nexus sink =>
      obtain ⟨-, m', rest, hmail, rfl⟩ := handle_inv hstep
      rw [hmail] at hm
      obtain rfl | hrest := List.mem_cons.mp hm
      · exact .inr ⟨uuid, nexus, sink, rest, rfl, hmail⟩
      · obtain ⟨rebuilding, heq⟩ := endTurn_of_running _ _ hrun
        rw [heq]
        exact .inl hrest
    | rebuildDone =>
      obtain ⟨r, -, -, rfl⟩ := rebuildDone_inv hstep
      obtain ⟨body, heq⟩ := deliver_of_running n hrun
      rw [heq]
      exact .inl hm
    | _ => cases hpump

/-- If the portal still runs, its handler has not failed. -/
theorem not_failed_of_step {uuid : OpaqueActorId} {nexus : Option (Option ActorId)} {sink : SinkResult}
    {rest : List (PortalActorMessage β)} (hstep : step (.handle uuid nexus sink) n = some n')
    (hrun : n'.life = .running) (hmail : n.mailbox = m :: rest) (error : HandlerError) :
    (Portal.handle (n.env uuid nexus sink) n.state m).outcome ≠ .err error := by
  intro hfailed
  obtain ⟨-, m', rest', hmail', rfl⟩ := handle_inv hstep
  cases hmail.symm.trans hmail'
  rw [hfailed] at hrun
  cases hrun

end Node

theorem Refused.extend (h : Refused took m) (hext : Extends took took' l n) : Refused took' m := by
  obtain ⟨hneeds, u, uuid, nexus, sink, rest, htook, hrest⟩ := h
  exact ⟨hneeds, u, uuid, nexus, sink, rest, hext.old htook, hrest⟩

theorem Fulfils.step {value : ReplyValue β} (h : Fulfils n.state m value) (hstep : Node.step l n = some n') :
    Fulfils n'.state m value := by
  cases h with
  | publishedNamed name actor port id hid =>
    exact .publishedNamed name actor port id fun r hr => Node.denotes_of_step hstep (hid r hr)
  | published actor port id hid => exact .published actor port id (Node.denotes_of_step hstep hid)
  | resolved name port result => exact .resolved name port result
  | opened port => exact .opened port

/-- The request is the one that this step handles. -/
theorem Fate.handled (hext : Extends took took' l n) (hstep : Node.step l n = some n') (hrun : n'.life = .running)
    {uuid : OpaqueActorId} {nexus : Option (Option ActorId)} {sink : SinkResult} {rest : List (PortalActorMessage β)}
    (hl : l = .handle uuid nexus sink) (hmail : n.mailbox = m :: rest) (hport : m.reply? = some port) :
    Fate took' n' m port := by
  subst hl
  obtain ⟨-, m', rest', hmail', hturned⟩ := Node.turned_of_handle hstep
  cases hmail.symm.trans hmail'
  cases handle_settles (n.env uuid nexus sink) n.state hport with
  | failed error hfailed => exact absurd hfailed (Node.not_failed_of_step hstep hrun hmail error)
  | answered value hvalue hreply =>
    refine .answered value (hturned.state ▸ hvalue) ?_
    rw [hturned.replies]
    exact List.mem_append_right _ hreply
  | waiting hm hwaits =>
    refine .waiting hm ?_
    rwa [hturned.state]
  | asked name hm hlook hframe =>
    refine .asked name n.state.nextRequestId hm ?_ ?_
    · rwa [hturned.state]
    · rw [hturned.sent]
      exact List.mem_append_right _ (List.mem_map_of_mem hframe)
  | refused hneeds hopening =>
    exact .refused ⟨hneeds, n, uuid, nexus, sink, rest, hext.now (by rintro _ ⟨⟩), hmail, hopening⟩

/-- **Every step** that leaves the portal running. -/
theorem Fate.step (h : Fate took n m port) (hasking : Asking took n) (hport : m.reply? = some port)
    (hext : Extends took took' l n) (hstep : Node.step l n = some n') (hrun : n'.life = .running) :
    Fate took' n' m port := by
  cases h with
  | queued hm =>
    obtain hold | ⟨uuid, nexus, sink, rest, hl, hmail⟩ := Node.mem_mailbox_of_running hstep hrun hm
    · exact .queued hold
    · exact .handled hext hstep hrun hl hmail hport
  | waiting hm hwaits =>
    obtain hidle | ⟨uuid, nexus, sink, m', rest, -, -, -, hturned⟩ := Node.idle_or_turned hstep
    · refine .waiting hm ?_
      rwa [hidle.state]
    · obtain hstill | hreply | hdead := handle_waiting (n.env uuid nexus sink) n.state m' hwaits
      · refine .waiting hm ?_
        rwa [hturned.state]
      · subst hm
        refine .answered .opened (.opened port) ?_
        rw [hturned.replies]
        exact List.mem_append_right _ hreply
      · have hgone : port ∈ n.dropped := by simpa [Node.env] using hdead
        exact .gone (Node.dropped_subset_of_step hstep hgone)
  | asked name id hm hlook hsent =>
    obtain ⟨name', hask⟩ := hasking.kept id port hlook
    have hlt := (hasking.asked id name' port hask).2.1
    have hsent' := (Node.sent_of_step hstep).elim fun more hmore => hmore.1 ▸ List.mem_append_left more hsent
    obtain hidle | ⟨uuid, nexus, sink, m', rest, rfl, -, hmail, hturned⟩ := Node.idle_or_turned hstep
    · refine .asked name id hm ?_ hsent'
      rwa [hidle.state]
    · obtain hstill | ⟨result, hreply⟩ | ⟨error, hfailed⟩ := handle_open (n.env uuid nexus sink) n.state m' hlook hlt
      · refine .asked name id hm ?_ hsent'
        rwa [hturned.state]
      · subst hm
        refine .answered (.resolved result) (.resolved name port result) ?_
        rw [hturned.replies]
        exact List.mem_append_right _ hreply
      · exact absurd hfailed (Node.not_failed_of_step hstep hrun hmail error)
  | answered value hvalue hreply =>
    exact .answered value (hvalue.step hstep) (Node.replies_subset_of_step hstep hreply)
  | gone hgone => exact .gone (Node.dropped_subset_of_step hstep hgone)
  | refused hrefused => exact .refused (hrefused.extend hext)

/-- The request has just been posted. -/
theorem Fate.posted {r : Request} (hstep : Node.step (.request r) n = some n') (hrun : n'.life = .running) :
    Fate took' n' (n.requestMessage r) port := by
  have hbefore := Node.life_of_step hstep hrun
  obtain ⟨-, rfl⟩ := Node.request_inv hstep
  refine .queued (List.mem_append_right _ ?_)
  rw [if_pos hbefore]
  exact List.mem_singleton_self _

/-- Local code has made the request `m`, and waits on `port`. -/
def Awaits (took : Label β → Node β → Prop) (m : PortalActorMessage β) (port : PortId) : Prop :=
  ∃ r u, took (.request r) u ∧ u.requestMessage r = m ∧ m.reply? = some port

/-- A step that leaves the portal running loses no request. -/
theorem fates_of_step (h : ∀ m port, Awaits took m port → Fate took n m port) (hasking : Asking took n)
    (hext : Extends took took' l n) (hstep : Node.step l n = some n') (hrun : n'.life = .running)
    (hawaits : Awaits took' m port) : Fate took' n' m port := by
  obtain ⟨r, u, htook, rfl, hport⟩ := hawaits
  obtain hold | ⟨rfl, rfl⟩ := hext.new htook
  · exact (h _ port ⟨r, u, hold, rfl, hport⟩).step hasking hport hext hstep hrun
  · exact .posted hstep hrun

/-- **No request is lost.** In every run of a portal in which no request id wraps, whatever its peer does: while
    the portal runs, a request whose sender waits on a port is in the mailbox, or waits for the handshake, or has
    been passed to the peer and is open, or has been answered as it should be, unless the sender has dropped its
    receiver. The one exception is what needs an open portal and was handled before the handshake. No port is
    answered twice. And when an open portal has nothing in its mailbox, only name queries still wait. -/
theorem requests_settled (setup : Setup) (ls : List (Label β)) (n : Node β)
    (hrun : Transition.Run Node.step Node.NoWrap ls (Node.started setup) n) (hlife : n.life = .running) :
    (∀ m port, Awaits (Transition.Occurs Node.step ls (Node.started setup)) m port →
      Fate (Transition.Occurs Node.step ls (Node.started setup)) n m port) ∧
    (∀ port, (n.replies.map Prod.fst).count port ≤ 1) ∧
    ∀ channel, n.state.channelState = .opened channel → n.mailbox = [] →
      ∀ m port, Awaits (Transition.Occurs Node.step ls (Node.started setup)) m port →
        (∃ value, Fulfils n.state m value ∧ (port, value) ∈ n.replies) ∨ port ∈ n.dropped ∨
        Refused (Transition.Occurs Node.step ls (Node.started setup)) m ∨
        ∃ name, m = .queryNamedRemoteActor name port ∧ port ∈ n.state.openRequests.values := by
  have hany : Transition.Run Node.step Transition.Any ls (Node.started setup) n := hrun.mono fun _ _ _ => trivial
  have hsettled := hrun.history (R := fun H n => Asking H n ∧
    (n.life = .running → ∀ m port, Awaits H m port → Fate H n m port)) ?_ ⟨Asking.started (fun h => h) setup, ?_⟩
  · have hfate := hsettled.2 hlife
    refine ⟨hfate, (Node.Linear.of_run hany).answered_once, fun channel hopen hidle m port hawaits => ?_⟩
    cases hfate m port hawaits with
    | queued hm =>
      rw [hidle] at hm
      cases hm
    | waiting hm hwaits =>
      rw [(attentive_of_run hany).drained channel hopen] at hwaits
      cases hwaits
    | asked name id hm hlook hsent => exact .inr (.inr (.inr ⟨name, hm, HashMap.mem_values_iff.mpr ⟨id, hlook⟩⟩))
    | answered value hvalue hreply => exact .inl ⟨value, hvalue, hreply⟩
    | gone hgone => exact .inr (.inl hgone)
    | refused hrefused => exact .inr (.inr (.inl hrefused))
  · rintro H l s t ⟨hasking, hfate⟩ hwrap hstep
    have hext : Extends H (fun l' s' => H l' s' ∨ l' = l ∧ s' = s) l s := ⟨.inl, id, fun _ => .inr ⟨rfl, rfl⟩⟩
    refine ⟨hasking.step hext hstep (hwrap t hstep), fun hlife m port hawaits => ?_⟩
    exact fates_of_step (hfate (Node.life_of_step hstep hlife)) hasking hext hstep hlife hawaits
  · rintro - m port ⟨r, u, htook, -⟩
    exact htook.elim

end

instance (l : Label β) (n : Node β) : Decidable (n.NoWrap l) :=
  inferInstanceAs (Decidable (∀ n' ∈ Node.step l n, n.state.nextRequestId ≤ n'.state.nextRequestId))

/-- One caller waits for the handshake, one publishes an actor too early, and one looks a name up. -/
def threeRequests : List (Label Nat) :=
  [.request .waitForHandshake, .request (.publishActor 0 true), .handle ⟨7⟩ none .flushed, .handle ⟨7⟩ none .flushed,
   .recv (some (.handshake (some (twoSides .right).introduction))), .handle ⟨7⟩ none .flushed,
   .request (.queryNamedRemoteActor "greeter"), .handle ⟨7⟩ none .flushed]

theorem requests_settled_three : ∃ n,
    Transition.exec Node.step threeRequests (Node.started (twoSides .left)) = some n ∧
    n.replies = [(0, .opened)] ∧ n.state.openRequests.values = [2] ∧
    Fate (Transition.Occurs Node.step threeRequests (Node.started (twoSides .left))) n (.publishActor 0 (some 1)) 1 := by
  have heval : (Transition.exec (Transition.guarded Node.step fun l n => Node.NoWrap l n) threeRequests
      (Node.started (twoSides .left))).map (fun n =>
        decide (n.life = .running ∧ n.replies = [(0, .opened)] ∧ n.state.openRequests.values = [2])) = some true := by
    decide +kernel
  obtain ⟨n, hn, hfacts⟩ := Option.map_eq_some_iff.mp heval
  obtain ⟨hlife, hreplies, hopen⟩ := of_decide_eq_true hfacts
  have hrun := Transition.run_of_exec_guarded hn
  have hsecond : ∃ u, Transition.exec Node.step (threeRequests.take 1) (Node.started (twoSides .left)) = some u ∧
      u.nextPort = 1 := Option.map_eq_some_iff.mp (by decide +kernel)
  obtain ⟨u, hu, hport⟩ := hsecond
  refine ⟨n, hrun.exec, hreplies, hopen, (requests_settled _ _ n hrun hlife).1 _ 1 ⟨.publishActor 0 true, u, ?_, ?_, rfl⟩⟩
  · exact ⟨threeRequests.take 1, threeRequests.drop 2, rfl, Transition.run_of_exec hu⟩
  · simp [Node.requestMessage, hport]

end Portal
end Wormhole
