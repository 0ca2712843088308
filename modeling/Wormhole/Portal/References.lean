import Wormhole.Portal.Hop
import Wormhole.Portal.Queries
import Wormhole.Portal.Timeouts

/-!
# `Portal.References` — what the references of a message become

A message comes out at the other side with the references that were sent in it, each rebuilt as one of that
side (`Corresponds`): a reference to an actor as a proxy over which only this actor is reached, and a reply
port as one that is forwarded to the actor that answers on it. This holds whatever local code does on either
side.
-/

namespace Wormhole
namespace Portal

variable {β : Type}

/-! ## The acts of sending -/

/-- The message that a step sends to a proxy. -/
def Label.sends (l : Label β) (n : Node β) : Option (Msg β) :=
  match l with
  | .sendTo proxy body refs => some { tag := ⟨proxy, n.nextMsg⟩, body, refs }
  | .forwardReply port =>
    match n.rebuiltPorts.dequeue port, n.rpcReply port with
    | some (proxy, _), some (body, refs) =>
      if proxy ∈ n.exited then none else some { tag := ⟨proxy, n.nextMsg⟩, body, refs }
    | _, _ => none
  | _ => none

namespace Node

/-- Whatever is on its way to the portal, or was given to it, has been sent to a proxy. -/
structure SentBy (S : Msg β → Prop) (n : Node β) : Prop where
  inbox : ∀ e ∈ n.inbox, S e.2
  channel : ∀ e ∈ n.channel, S e.2
  mailbox : ∀ target msg, .immaterializeMessage target msg ∈ n.mailbox → S msg
  given : ∀ target msg, n.Given target msg → S msg

section

variable {n n' : Node β} {l : Label β} {S S' : Msg β → Prop}

/-- A message that is new in the mailbox of a proxy has just been sent. -/
theorem sends_of_inbox (hstep : step l n = some n') {e : ActorId × Msg β} (he : e ∈ n'.inbox) :
    e ∈ n.inbox ∨ l.sends n = some e.2 := by
  obtain hold | ⟨htag, ⟨rfl, -⟩ | ⟨port, rest, rfl, hdequeue, hreply⟩⟩ := inbox_of_step hstep he
  · exact .inl hold
  · refine .inr ?_
    rw [Label.sends, ← htag]
  · obtain ⟨proxy, rest', body, refs, hdequeue', -, ⟨-, rfl⟩ | ⟨hthere, -⟩⟩ := forwardReply_inv hstep
    · exact .inl he
    · obtain ⟨rfl, -⟩ := Prod.mk.inj (Option.some.inj (hdequeue.symm.trans hdequeue'))
      refine .inr ?_
      simp only [Label.sends, hdequeue, hreply, if_neg hthere, ← htag]

theorem SentBy.mono (h : n.SentBy S) (himp : ∀ msg, S msg → S' msg) : n.SentBy S' :=
  ⟨fun e he => himp _ (h.inbox e he), fun e he => himp _ (h.channel e he),
    fun target msg hm => himp _ (h.mailbox target msg hm), fun target msg hm => himp _ (h.given target msg hm)⟩

/-- **Every step.** -/
theorem SentBy.step (h : n.SentBy S) (hstep : Node.step l n = some n') (hold : ∀ msg, S msg → S' msg)
    (hnew : ∀ msg, l.sends n = some msg → S' msg) : n'.SentBy S' := by
  refine ⟨fun e he => ?_, fun e he => ?_, fun target msg hm => ?_, fun target msg hm => ?_⟩
  · exact (sends_of_inbox hstep he).elim (fun he => hold _ (h.inbox e he)) (hnew _)
  · exact hold _ ((channel_of_step hstep he).elim (h.channel e) (h.inbox e))
  · obtain hmem | ⟨proxy, msg', rest, remote, -, hdequeue, -, heq⟩ | ⟨_, _, _, -, -, -, heq⟩ :=
      mail_of_step hstep hm (by rintro ⟨⟩)
    · exact hold _ (h.mailbox target msg hmem)
    · cases heq
      exact hold _ (h.channel _ ((Queues.perm_of_dequeue hdequeue).mem_iff.mpr List.mem_cons_self))
    · cases heq
  · exact hold _ ((handled_of_step hstep hm).elim (h.given target msg) (h.mailbox target msg))

theorem SentBy.started (setup : Setup) (S : Msg β → Prop) : (Node.started (β := β) setup).SentBy S where
  inbox := by rintro _ ⟨⟩
  channel := by rintro _ ⟨⟩
  mailbox := by rintro _ _ ⟨⟩
  given := by rintro _ _ ⟨⟩

end

end Node

/-! ## Both sides -/

namespace Pair

/-- What came back over the proxy was for the actor. -/
def Answers (p : Pair β) (s : Side) (actor proxy : ActorId) : Prop :=
  ∀ d ∈ (p.node s).delivered, d.2.tag.proxy = proxy → d.1 = actor

/-- A reference in a message of `s`, and what it is at the other side: a proxy for the id of the actor. A
    reply port is answered by an actor of `s`, and as long as its counterpart waits, it waits for that actor; of
    its timeout it has what is left after a hop. -/
inductive Corresponds (p : Pair β) (s : Side) : LocalRef → LocalRef → Prop where
  | actorRef {actor proxy : ActorId} {id : RemoteActorId} (hid : (p.node s).state.Denotes id actor)
      (hproxy : (p.node s.other).proxies.lookup proxy = some id) (hanswers : p.Answers s actor proxy) :
      Corresponds p s (.actorRef actor) (.actorRef proxy)
  | replyPort {timeout : Option Duration} {x y : PortId} {actor : ActorId} {id : RemoteActorId}
      (hactor : (actor, x) ∈ (p.node s).rpcProxies) (hid : (p.node s).state.Denotes id actor)
      (hwaits : ∀ proxy, (y, proxy) ∈ (p.node s.other).rebuiltPorts →
        (p.node s.other).proxies.lookup proxy = some id ∧ p.Answers s actor proxy) :
      Corresponds p s (.replyPort timeout x)
        (.replyPort (some (hopTimeout (timeout.getD (p.node s).state.args.defaultRpcPortTimeout))) y)

/-- What holds of the references of a pair, after the steps `H`. -/
structure Referring (setup : Side → Setup) (H : PairLabel β → Pair β → Prop) (p : Pair β) : Prop where
  side : ∀ s, (p.node s).Relaying
  flows : p.Flows setup
  routed : ∀ s, p.Routed s
  arriving : ∀ s, (p.node s).Arriving (p.node s.other)
  sentBy : ∀ s, (p.node s).SentBy fun msg => ∃ l n, Took H s l n ∧ l.sends n = some msg

section

variable {setup : Side → Setup} {H : PairLabel β → Pair β → Prop} {p q : Pair β} {l : PairLabel β} {s : Side}

theorem Referring.started (setup : Side → Setup) :
    (Pair.started (β := β) setup).Referring setup (fun _ _ => False) where
  side s := Node.Relaying.started (setup s)
  flows := flows_started
  routed s := routed_started setup s
  arriving s := Node.Arriving.started (setup s) (setup s.other)
  sentBy s := Node.SentBy.started (setup s) _

/-- **Every step.** -/
theorem Referring.step (h : p.Referring setup H) (hstep : Pair.step l p = some q) :
    q.Referring setup (fun l' u => H l' u ∨ l' = l ∧ u = p) := by
  obtain ⟨t, label, hnode, hother, htook, hsame, hframe⟩ := took_of_step (H := H) hstep
  have hside := h.side t
  have hback := h.arriving t.other
  rw [Side.other_other] at hback
  refine ⟨fun s => ?_, h.flows.step hstep, fun s => (h.routed s).step (h.flows.piped s) hstep, fun s => ?_, fun s => ?_⟩
  · obtain rfl | rfl := t.eq_or_other s
    · exact hside.step hnode
    · rw [hother]
      exact h.side _
  · obtain rfl | rfl := t.eq_or_other s
    · rw [hother]
      exact (h.arriving s).send hnode
    · rw [Side.other_other, hother]
      exact hback.receive hnode hside.linear hside.populated hframe
  · obtain rfl | rfl := t.eq_or_other s
    · refine (h.sentBy s).step hnode ?_ fun msg hsends => ⟨label, _, htook.now ?_, hsends⟩
      · rintro msg ⟨l', n, hl, hsends⟩
        exact ⟨l', n, htook.old hl, hsends⟩
      · rintro frame rfl
        cases hsends
    · rw [hother, hsame]
      exact h.sentBy _

/-- Only the actor that a proxy stands for is reached over it. -/
theorem Referring.answers (h : p.Referring setup H) {actor proxy : ActorId} {id : RemoteActorId}
    (hid : (p.node s).state.Denotes id actor) (hproxy : (p.node s.other).proxies.lookup proxy = some id) :
    p.Answers s actor proxy := by
  rintro ⟨actor', msg⟩ hd rfl
  have hrouted := h.routed s.other
  have hreceiver := hrouted.receiver (by rwa [Side.other_other]) hproxy
  rw [Side.other_other] at hreceiver
  exact Option.some.inj (hreceiver.symm.trans hid.lookup)

theorem Referring.corresponds (h : p.Referring setup H) {ref ref' : LocalRef} {remote : RemoteRef}
    (hserialized : (p.node s).Serialized ref remote) (hrebuilt : (p.node s.other).Rebuilt remote ref') :
    p.Corresponds s ref ref' := by
  cases hserialized with
  | actorRef hid =>
    cases hrebuilt with
    | actorRef hproxy => exact .actorRef hid hproxy (h.answers hid hproxy)
  | replyPort hactor hid =>
    cases hrebuilt with
    | replyPort hport hproxy =>
      exact .replyPort hactor hid fun proxy hmem => ⟨hproxy proxy hmem, h.answers hid (hproxy proxy hmem)⟩

theorem Referring.corresponds_all (h : p.Referring setup H) {refs refs' : List LocalRef} {remotes : List RemoteRef}
    (hserialized : List.Forall₂ (p.node s).Serialized refs remotes)
    (hrebuilt : List.Forall₂ (p.node s.other).Rebuilt remotes refs') : List.Forall₂ (p.Corresponds s) refs refs' := by
  induction hserialized generalizing refs' with
  | nil =>
    cases hrebuilt
    exact .nil
  | cons hhead _ ih =>
    cases hrebuilt with
    | cons hhead' hrest => exact .cons (h.corresponds hhead hhead') (ih hrest)

/-- **Where a message that has been delivered comes from**, and what travelled for it. -/
theorem Referring.arrived (h : p.Referring setup H) {d : ActorId × Msg β} (hd : d ∈ (p.node s.other).delivered) :
    ∃ msg l n target data, Took H s l n ∧ l.sends n = some msg ∧
      .content (some (.sendMessage target data)) ∈ (p.node s).sent ∧ data.tag = msg.tag ∧ data.body = some msg.body ∧
      msg.tag = d.2.tag ∧ msg.body = d.2.body ∧
      List.Forall₂ (p.node s).Serialized msg.refs data.refs ∧
      List.Forall₂ (p.node s.other).Rebuilt data.refs d.2.refs := by
  obtain ⟨target, data, front, hframe, -, htag, hbody, hrefs, hrebuilt⟩ := (h.arriving s).delivered d hd
  obtain ⟨msg, hgiven, htag', hbody', hserialized⟩ := (h.side s).serializer.sent target data hframe
  obtain ⟨l, n, htook, hsends⟩ := (h.sentBy s).given target msg hgiven
  refine ⟨msg, l, n, target, data, htook, hsends, hframe, htag'.symm, hbody', htag'.trans htag,
    Option.some.inj (hbody'.symm.trans hbody), hserialized, ?_⟩
  rwa [hrefs, List.append_nil]

/-- Every run. -/
theorem Referring.of_run {ls : List (PairLabel β)} {G : PairLabel β → Pair β → Prop}
    (hrun : Transition.Run Pair.step G ls (Pair.started setup) p) :
    p.Referring setup (Transition.Occurs Pair.step ls (Pair.started setup)) :=
  hrun.history (R := fun H p => p.Referring setup H) (fun _ _ _ _ h _ hstep => h.step hstep) (Referring.started setup)

end

/-- **References keep their meaning.** Take any run of two portals, whatever local code does on both sides. Every
    message that one of them has delivered was sent at the other, to a proxy for its receiver, with the same
    body and as many references, and each of them is now a reference to what it was a reference to. -/
theorem references_kept (setup : Side → Setup) (ls : List (PairLabel β)) (p : Pair β)
    (hrun : Transition.Run Pair.step Transition.Any ls (Pair.started setup) p) (s : Side) :
    ∀ d ∈ (p.node s.other).delivered, ∃ msg l u,
      Transition.Occurs Pair.step ls (Pair.started setup) (.move s l) u ∧ l.sends (u.node s) = some msg ∧
      msg.tag = d.2.tag ∧ msg.body = d.2.body ∧
      (∃ id, (p.node s).proxies.lookup msg.tag.proxy = some id ∧
        (p.node s.other).state.publishedActors.lookup id.id = some d.1) ∧
      List.Forall₂ (p.Corresponds s) msg.refs d.2.refs := by
  intro d hd
  have h := Referring.of_run hrun
  obtain ⟨msg, l, n, target, data, ⟨u, hoccurs, rfl⟩, hsends, -, -, -, htag, hbody, hserialized, hrebuilt⟩ := h.arrived hd
  refine ⟨msg, l, u, hoccurs, hsends, htag, hbody, ?_, h.corresponds_all hserialized hrebuilt⟩
  rw [htag]
  exact (h.routed s).delivered d hd

/-- The left side sends a reference to its actor 1 and a reply port, and the right side writes back over the
    proxy that it gets for the actor. -/
def writeBack : List (PairLabel Nat) :=
  [.receive .left, .move .left (.handle ⟨7⟩ none .flushed), .receive .right, .move .right (.handle ⟨7⟩ none .flushed),
   .move .right (.request (.publishActor 0 true)), .move .right (.handle ⟨8⟩ none .flushed), .move .left .openPort,
   .move .left (.instantiate remoteEight), .move .left (.register 2), .move .left (.handle ⟨7⟩ none .flushed),
   .move .left (.sendTo 2 10 [.actorRef 1, .replyPort none 0]), .move .left (.relay 2), .move .left (.forward 2),
   .move .left (.handle ⟨7⟩ none .flushed),
   .move .left (.taskPublish ⟨2, 0⟩), .move .left (.handle ⟨9⟩ none .flushed), .move .left (.taskPublished ⟨2, 0⟩),
   .move .left (.taskPublish ⟨2, 0⟩), .move .left (.handle ⟨10⟩ none .flushed), .move .left (.taskPublished ⟨2, 0⟩),
   .move .left (.taskPost ⟨2, 0⟩), .move .left (.handle ⟨7⟩ none .flushed),
   .receive .right, .move .right (.handle ⟨7⟩ none .flushed), .move .right .rebuildRef, .move .right .rebuildRef,
   .move .right .rebuildDone, .move .right (.handle ⟨7⟩ none .flushed), .move .right (.handle ⟨7⟩ none .flushed),
   .move .right (.sendTo 2 20 []), .move .right (.relay 2), .move .right (.forward 2),
   .move .right (.handle ⟨7⟩ none .flushed), .move .right (.taskPost ⟨2, 0⟩), .move .right (.handle ⟨7⟩ none .flushed),
   .receive .left, .move .left (.handle ⟨7⟩ none .flushed), .move .left .rebuildDone]

theorem references_kept_writeBack : ∃ p,
    Transition.exec Pair.step writeBack (Pair.started twoSides) = some p ∧
    (p.node .right).delivered.map (·.2.refs) = [[.actorRef 2, .replyPort (some (120 * 10 ^ 9)) 1]] ∧
    (p.node .left).delivered.map (fun d => (d.1, d.2.body)) = [(1, 20)] ∧
    ∀ d ∈ (p.node .right).delivered, ∃ msg : Msg Nat, msg.body = d.2.body ∧
      List.Forall₂ (p.Corresponds .left) msg.refs d.2.refs := by
  have heval : (Transition.exec Pair.step writeBack (Pair.started twoSides)).map (fun p =>
      ((p.node .right).delivered.map (·.2.refs), (p.node .left).delivered.map (fun d => (d.1, d.2.body)))) =
      some ([[.actorRef 2, .replyPort (some (120 * 10 ^ 9)) 1]], [(1, 20)]) := by
    decide +kernel
  obtain ⟨p, hp, hfacts⟩ := Option.map_eq_some_iff.mp heval
  obtain ⟨hrefs, hback⟩ := Prod.mk.inj hfacts
  refine ⟨p, hp, hrefs, hback, fun d hd => ?_⟩
  obtain ⟨msg, -, -, -, -, -, hbody, -, hcorresponds⟩ :=
    references_kept twoSides writeBack p (Transition.run_of_exec hp) .left d hd
  exact ⟨msg, hbody, hcorresponds⟩

/-! ## Looked up by name -/

/-- The portal took the request `number` for the name and answered it with `id`, and in this turn it was this actor
    that the name stood for. -/
def NamedAs (took : Label β → Node β → Prop) (number : CrossPortalMessageId) (name : String) (id : RemoteActorId)
    (actor : ActorId) : Prop :=
  ∃ n uuid nexus sink rest, took (.handle uuid nexus sink) n ∧
    n.mailbox = .content (some (.requestActorByName number name)) :: rest ∧
    .responseActorByName number (.ok id) ∈
      (handle (β := β) (n.env uuid nexus sink) n.state (.content (some (.requestActorByName number name)))).frames ∧
    PortalActorMessage.subject n.state nexus (.content (β := β) (some (.requestActorByName number name))) = some actor

/-- What was answered to a request still denotes the actor that the name stood for. -/
def Named (H : PairLabel β → Pair β → Prop) (p : Pair β) : Prop :=
  ∀ s id name r, Computed (Took H s) id name (.ok r) →
    ∃ actor, NamedAs (Took H s) id name r actor ∧ (p.node s).state.Denotes r actor

/-- What holds of the names of a pair, after the steps `H`. -/
structure Naming (setup : Side → Setup) (H : PairLabel β → Pair β → Prop) (p : Pair β) : Prop where
  correlated : Correlated H p
  flows : p.Flows setup
  routed : ∀ s, p.Routed s
  sound : ∀ s, (p.node s).Sound
  named : Named H p

section

variable {setup : Side → Setup} {H : PairLabel β → Pair β → Prop} {p q : Pair β} {l : PairLabel β}

/-- **An answer denotes the actor that the name stands for.** -/
theorem named_of_step (h : Named H p) (hsound : ∀ s, (p.node s).Sound) (hstep : Pair.step l p = some q) :
    Named (fun l' u => H l' u ∨ l' = l ∧ u = p) q := by
  obtain ⟨t, label, hnode, hother, hext, hsame, -⟩ := took_of_step (H := H) hstep
  intro s id name r hcomp
  obtain rfl | rfl := t.eq_or_other s
  · obtain ⟨n, uuid, nexus, sink, rest, htook, hmail, hframe⟩ := hcomp
    obtain hold | ⟨rfl, rfl⟩ := hext.new htook
    · obtain ⟨actor, ⟨n', uuid', nexus', sink', rest', htook', hrest'⟩, hdenotes⟩ :=
        h s id name r ⟨n, uuid, nexus, sink, rest, hold, hmail, hframe⟩
      exact ⟨actor, ⟨n', uuid', nexus', sink', rest', hext.old htook', hrest'⟩, Node.denotes_of_step hnode hdenotes⟩
    · obtain ⟨⟨-, -, huuid, -⟩, m, rest', hmail', hturned⟩ := Node.turned_of_handle hnode
      cases hmail.symm.trans hmail'
      obtain ⟨actor, hsubject, hdenotes⟩ := handle_denotes (hsound s).consistent huuid
        (List.mem_append_left _ (List.mem_flatMap.mpr ⟨_, hframe, List.mem_singleton_self r⟩))
      rw [← hturned.state] at hdenotes
      exact ⟨actor, ⟨_, uuid, nexus, sink, rest, htook, hmail, hframe, hsubject⟩, hdenotes⟩
  · rw [hsame] at hcomp ⊢
    rw [hother]
    exact h _ id name r hcomp

/-- **Every step**, while no next request id wraps. -/
theorem Naming.step (h : p.Naming setup H) (hwrap : NoWrap l p) (hstep : Pair.step l p = some q) :
    q.Naming setup (fun l' u => H l' u ∨ l' = l ∧ u = p) := by
  refine ⟨h.correlated.step hwrap hstep, h.flows.step hstep, fun s => (h.routed s).step (h.flows.piped s) hstep,
    fun s => ?_, named_of_step h.named h.sound hstep⟩
  obtain ⟨t, label, hnode, hother, -⟩ := step_inv hstep
  obtain rfl | rfl := t.eq_or_other s
  · exact (h.sound s).step hnode
  · rw [hother]
    exact h.sound _

theorem Naming.started (setup : Side → Setup) :
    (Pair.started (β := β) setup).Naming setup (fun _ _ => False) where
  correlated := Correlated.started setup
  flows := flows_started
  routed s := routed_started setup s
  sound s := Node.Sound.started (setup s)
  named := by
    rintro s id name r ⟨n, uuid, nexus, sink, rest, ⟨u, htook, -⟩, -⟩
    exact htook.elim

end

/-- **A reference that was looked up reaches what its name stood for.** In every run of two portals in which no
    request id wraps: if the query of a caller for `name` was answered with an id, then the portal asked for this
    caller under some number, and the portal of the other side answered the request of this number with the id;
    there is an actor that the name stood for there in that turn, and whatever is sent to any proxy for this id is
    delivered to this actor or not at all. -/
theorem named_reference_reaches (setup : Side → Setup) (ls : List (PairLabel β)) (p : Pair β)
    (hrun : Transition.Run Pair.step NoWrap ls (Pair.started setup) p) (s : Side) (name : String) (port : PortId)
    (id : RemoteActorId)
    (hreq : Requested (Took (Transition.Occurs Pair.step ls (Pair.started setup)) s) name port)
    (hreply : (port, .resolved (.ok id)) ∈ (p.node s).replies) :
    ∃ number actor, Asked (Took (Transition.Occurs Pair.step ls (Pair.started setup)) s) number name port ∧
      NamedAs (Took (Transition.Occurs Pair.step ls (Pair.started setup)) s.other) number name id actor ∧
      (p.node s.other).state.Denotes id actor ∧
      ∀ d ∈ (p.node s.other).delivered, (p.node s).proxies.lookup d.2.tag.proxy = some id → d.1 = actor := by
  have h : p.Naming setup (Transition.Occurs Pair.step ls (Pair.started setup)) :=
    hrun.history (R := fun H p => p.Naming setup H) (fun _ _ _ _ h hwrap hstep => h.step hwrap hstep)
      (Naming.started setup)
  obtain ⟨number, name', hask, hcomp⟩ := h.correlated.resolved s port (.ok id) hreply
  obtain rfl := ((h.correlated.asking s).requested name port hreq).2 name'
    ((h.correlated.asking s).asked number name' port hask).1
  obtain ⟨actor, hnamed, hdenotes⟩ := h.named s.other number name' id hcomp
  refine ⟨number, actor, hask, hnamed, hdenotes, ?_⟩
  rintro ⟨actor', msg⟩ hd hproxy
  exact Option.some.inj (((h.routed s).receiver hd hproxy).symm.trans hdenotes.lookup)

/-- The left side looks "greeter" up, and greets it. -/
def greeting : List (PairLabel Nat) :=
  bothOpen ++
  [.move .right (.request (.publishNamedActor "greeter" 1 false)), .move .right (.handle ⟨8⟩ none .flushed),
   .move .left (.request (.queryNamedRemoteActor "greeter")), .move .left (.handle ⟨7⟩ none .flushed),
   .receive .right, .move .right (.handle ⟨7⟩ none .flushed), .receive .left, .move .left (.handle ⟨7⟩ none .flushed),
   .move .left (.instantiate remoteEight), .move .left (.register 2), .move .left (.handle ⟨7⟩ none .flushed),
   .move .left (.sendTo 2 30 []), .move .left (.relay 2), .move .left (.forward 2),
   .move .left (.handle ⟨7⟩ none .flushed), .move .left (.taskPost ⟨2, 0⟩), .move .left (.handle ⟨7⟩ none .flushed),
   .receive .right, .move .right (.handle ⟨7⟩ none .flushed), .move .right .rebuildDone]

theorem named_reference_reaches_greeter : ∃ p,
    Transition.exec Pair.step greeting (Pair.started twoSides) = some p ∧
    (p.node .right).delivered.map (fun d => (d.1, d.2.body)) = [(1, 30)] ∧
    ∃ number actor,
      NamedAs (Took (Transition.Occurs Pair.step greeting (Pair.started twoSides)) .right) number "greeter" remoteEight
        actor ∧ ∀ d ∈ (p.node .right).delivered, (p.node .left).proxies.lookup d.2.tag.proxy = some remoteEight → d.1 = actor := by
  have heval : (Transition.exec (Transition.guarded Pair.step NoWrap) greeting (Pair.started twoSides)).map (fun p =>
      decide ((0, .resolved (.ok remoteEight)) ∈ (p.node .left).replies ∧
        (p.node .right).delivered.map (fun d => (d.1, d.2.body)) = [(1, 30)])) = some true := by
    decide +kernel
  obtain ⟨p, hp, hfacts⟩ := Option.map_eq_some_iff.mp heval
  obtain ⟨hreply, hdelivered⟩ := of_decide_eq_true hfacts
  have hrun := Transition.run_of_exec_guarded hp
  have hbefore : ∃ u, Transition.exec Pair.step (greeting.take 6) (Pair.started twoSides) = some u ∧
      (u.node .left).nextPort = 0 := Option.map_eq_some_iff.mp (by decide +kernel)
  obtain ⟨u, hu, hport⟩ := hbefore
  obtain ⟨number, actor, -, hnamed, -, hreaches⟩ := named_reference_reaches twoSides greeting p hrun .left "greeter" 0 remoteEight
    ⟨u.node .left, ⟨u, ⟨greeting.take 6, greeting.drop 7, rfl, Transition.run_of_exec hu⟩, rfl⟩, hport⟩ hreply
  exact ⟨p, hrun.exec, hdelivered, number, actor, hnamed, hreaches⟩

end Pair

end Portal
end Wormhole
