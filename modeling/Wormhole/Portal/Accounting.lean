import Mathlib.Algebra.Order.Group.Multiset
import Mathlib.Tactic.Abel
import Wormhole.Portal.Routing

/-!
# `Portal.Accounting` — every message is somewhere

A message that was sent to a proxy is in one of eight places between the mailbox of the proxy and the actor
that the proxy stands for, or its serialization has failed. While both portals and the proxy run, and the
actor does, a step moves a message from one place to the next or leaves it where it is, so that nothing is
lost, nothing is doubled and nothing comes from nowhere.
-/

namespace Wormhole
namespace Portal

variable {β : Type}

/-! ## Places -/

/-- A message: the act of sending that it comes from, and its body. -/
abbrev Letter (β : Type) := Tag × β

def Msg.letter (msg : Msg β) : Letter β := (msg.tag, msg.body)

/-- What the target decodes, if it can. -/
def Payload.letter? (data : Payload β) : Option (Letter β) := data.body.map (data.tag, ·)

def PortalActorMessage.serializes? : PortalActorMessage β → Option (Letter β)
  | .immaterializeMessage _ msg => some msg.letter
  | _ => none

def PortalActorMessage.writes? : PortalActorMessage β → Option (Letter β)
  | .transmitMessage _ bytes => bytes.letter?
  | _ => none

def PortalActorMessage.delivers? : PortalActorMessage β → Option (Letter β)
  | .content (some (.sendMessage _ data)) => data.letter?
  | _ => none

def ConduitMessage.letter? : ConduitMessage β → Option (Letter β)
  | .content (some (.sendMessage _ data)) => data.letter?
  | _ => none

namespace Node

variable (n : Node β)

/-- The mailboxes of the proxies and the channels behind them. -/
def inProxies : List (Letter β) := n.inbox.map (·.2.letter) ++ n.channel.map (·.2.letter)

def toSerialize : List (Letter β) := n.mailbox.filterMap PortalActorMessage.serializes?

def serializing : List (Letter β) := n.tasks.map fun e => (e.1, e.2.body)

def toWrite : List (Letter β) := n.mailbox.filterMap PortalActorMessage.writes?

def toDeliver : List (Letter β) := n.mailbox.filterMap PortalActorMessage.delivers?

/-- The message in the hands of the handler. -/
def delivering : List (Letter β) := n.rebuilding.toList.filterMap fun r => r.body.map (r.tag, ·)

def deliveredTo (actor : ActorId) : List (Letter β) :=
  (n.delivered.filter (·.1 = actor)).map (·.2.letter)

/-- The proxy stands for the remote actor with this id. -/
def isProxyOf (id : OpaqueActorId) (proxy : ActorId) : Bool := (n.proxies.lookup proxy).any (·.id = id)

end Node

/-- The messages that a step sends to a proxy. -/
def Label.letters (l : Label β) (n : Node β) : List (Letter β) :=
  match l with
  | .sendTo proxy body _ => [(⟨proxy, n.nextMsg⟩, body)]
  | .forwardReply port =>
    match n.rebuiltPorts.dequeue port, n.rpcReply port with
    | some (proxy, _), some (body, _) => if proxy ∈ n.exited then [] else [(⟨proxy, n.nextMsg⟩, body)]
    | _, _ => []
  | _ => []

/-- The message that a step reports as not serialized. -/
def Label.failures (l : Label β) (n : Node β) : List (Letter β) :=
  match l with
  | .taskFail tag => ((n.tasks.dequeue tag).map fun t => (tag, t.1.body)).toList
  | _ => []

namespace Pair

/-- What the steps of a side emit. -/
def emits (s : Side) (emit : Label β → Node β → List (Letter β)) (l : PairLabel β) (p : Pair β) : List (Letter β) :=
  match l with
  | .move t label => if t = s then emit label (p.node s) else []
  | .receive _ => []

/-- Sent by the side, and not read by the other one. -/
def onWire (p : Pair β) (s : Side) : List (Letter β) :=
  ((p.node s).sent.drop (p.read s.other)).filterMap ConduitMessage.letter?

end Pair

/-- The messages to some proxies, as a multiset. -/
def lettersTo (proxies : ActorId → Bool) (letters : List (Letter β)) : Multiset (Letter β) :=
  (letters.filter fun letter => proxies letter.1.proxy : List (Letter β))

section

variable {C : ActorId → Bool} {ls ms : List (Letter β)}

@[simp] theorem lettersTo_nil : lettersTo C ([] : List (Letter β)) = 0 := rfl

@[simp] theorem lettersTo_append : lettersTo C (ls ++ ms) = lettersTo C ls + lettersTo C ms := by
  simp [lettersTo, List.filter_append]

theorem lettersTo_perm (h : ls.Perm ms) : lettersTo C ls = lettersTo C ms := Multiset.coe_eq_coe.mpr (h.filter _)

theorem lettersTo_eq_zero (h : ∀ letter ∈ ls, C letter.1.proxy = false) : lettersTo C ls = 0 := by
  rw [lettersTo, List.filter_eq_nil_iff.mpr fun letter hletter => by rw [h letter hletter]; nofun]
  rfl

theorem lettersTo_dequeue {κ α : Type} [DecidableEq κ] {q rest : Queues κ α} {k : κ} {a : α} (f : κ × α → Letter β)
    (h : q.dequeue k = some (a, rest)) : lettersTo C (q.map f) = lettersTo C [f (k, a)] + lettersTo C (rest.map f) := by
  rw [lettersTo_perm ((Queues.perm_of_dequeue h).map f), List.map_cons, ← List.singleton_append, lettersTo_append]

end

namespace Node

/-! ## The sender -/

/-- The messages of some proxies that are still on this side. -/
def outgoing (C : ActorId → Bool) (n : Node β) : Multiset (Letter β) :=
  lettersTo C n.inProxies + lettersTo C n.toSerialize + lettersTo C n.serializing + lettersTo C n.toWrite

/-- The messages of some proxies of the other side that this side has got, for one actor. -/
def incoming (C : ActorId → Bool) (actor : ActorId) (n : Node β) : Multiset (Letter β) :=
  lettersTo C n.toDeliver + lettersTo C n.delivering + lettersTo C (n.deliveredTo actor)

section

variable {C : ActorId → Bool} {n n' : Node β} {l : Label β}

/-- The mailboxes of proxies that go on stay. -/
theorem lettersTo_kept (h : Piped n) {gone : List ActorId} (hkept : ∀ proxy, C proxy = true → proxy ∉ gone) :
    lettersTo C ((n.inbox.filter fun e => e.1 ∉ gone).map (·.2.letter)) = lettersTo C (n.inbox.map (·.2.letter)) := by
  unfold lettersTo
  rw [List.filter_map, List.filter_map, List.filter_filter]
  congr 2
  refine List.filter_congr fun e he => ?_
  have hproxy : e.2.letter.1.proxy = e.1 := h.inbox e he
  cases hC : C e.1 with
  | true => simp [hproxy, hC, hkept _ hC]
  | false => simp [hproxy, hC]

/-- A message goes to the mailbox of a proxy. -/
theorem outgoing_enqueue (n : Node β) (proxy : ActorId) (body : β) (refs : List LocalRef) :
    outgoing C (n.enqueue proxy body refs) = outgoing C n + lettersTo C [(⟨proxy, n.nextMsg⟩, body)] := by
  have hin : lettersTo C (n.enqueue proxy body refs).inProxies =
      lettersTo C n.inProxies + lettersTo C [(⟨proxy, n.nextMsg⟩, body)] := by
    simp only [inProxies, enqueue, List.map_append, List.map_cons, List.map_nil, lettersTo_append, Msg.letter]
    abel
  unfold outgoing
  rw [hin]
  show _ + lettersTo C n.toSerialize + lettersTo C n.serializing + lettersTo C n.toWrite = _
  abel

/-- A message goes to the mailbox of the portal. -/
theorem outgoing_post (hrun : n.life = .running) (m : PortalActorMessage β) : outgoing C (n.post m) =
    outgoing C n + lettersTo C m.serializes?.toList + lettersTo C m.writes?.toList := by
  have hserialize : (n.post m).toSerialize = n.toSerialize ++ m.serializes?.toList := by
    rw [toSerialize, post, if_pos hrun, List.filterMap_append]
    cases hm : m.serializes? <;> simp [toSerialize, hm]
  have hwrite : (n.post m).toWrite = n.toWrite ++ m.writes?.toList := by
    rw [toWrite, post, if_pos hrun, List.filterMap_append]
    cases hm : m.writes? <;> simp [toWrite, hm]
  unfold outgoing
  rw [hserialize, hwrite, lettersTo_append, lettersTo_append]
  show lettersTo C n.inProxies + _ + lettersTo C n.serializing + _ = _
  abel

theorem outgoing_post_other {m : PortalActorMessage β} (hserialize : m.serializes? = none)
    (hwrite : m.writes? = none) : outgoing C (n.post m) = outgoing C n := by
  simp only [outgoing, inProxies, toSerialize, serializing, toWrite, post, List.filterMap_append]
  split <;> simp [hserialize, hwrite]

/-- The mailboxes of actors that are not the proxies are lost. -/
theorem inProxies_kill (h : Piped n) {gone : List ActorId} (hkept : ∀ proxy, C proxy = true → proxy ∉ gone) :
    lettersTo C (n.kill gone).inProxies = lettersTo C n.inProxies := by
  rw [inProxies, inProxies, lettersTo_append, lettersTo_append]
  exact congrArg (· + _) (lettersTo_kept h hkept)

theorem outgoing_kill (h : Piped n) {gone : List ActorId} (hkept : ∀ proxy, C proxy = true → proxy ∉ gone) :
    outgoing C (n.kill gone) = outgoing C n := by
  unfold outgoing
  rw [inProxies_kill h hkept]
  rfl

/-- Where nothing terminates and no message is moved, the mailboxes of the proxies stay. -/
theorem inbox_of_quiet (hpump : l.isPump = false) (hflow : l.isFlow = false) (hexit : ∀ actor, l ≠ .exit actor)
    (hanswer : ∀ actor, l ≠ .answer actor) (h : step l n = some n') : n'.inbox = n.inbox := by
  cases l with
  | exit actor => exact absurd rfl (hexit actor)
  | answer actor => exact absurd rfl (hanswer actor)
  | rebuildRef =>
    obtain ⟨r, ref, todo, -, -, rfl⟩ := rebuildRef_inv h
    cases ref <;> rfl
  | request request =>
    obtain ⟨-, rfl⟩ := request_inv h
    rfl
  | instantiate remote =>
    obtain rfl := instantiate_inv h
    rfl
  | register proxy =>
    obtain ⟨remote, rest, -, rfl⟩ := register_inv h
    rfl
  | trigger port body refs =>
    obtain ⟨-, rfl⟩ := trigger_inv h
    rfl
  | spawnActor => cases h; rfl
  | openPort => cases h; rfl
  | dropPort port =>
    obtain rfl := dropPort_inv h
    rfl
  | notify actor =>
    obtain ⟨-, rfl⟩ := notify_inv h
    rfl
  | _ => cases hflow <;> cases hpump

theorem letter_not_posted (hflow : l.isFlow = false) {m : PortalActorMessage β} (h : l.posts m) :
    m.serializes? = none ∧ m.writes? = none := by
  cases m with
  | immaterializeMessage target msg => cases l <;> cases hflow <;> exact h.elim
  | transmitMessage target bytes => cases l <;> cases hflow <;> exact h.elim
  | _ => exact ⟨rfl, rfl⟩

/-- The steps that move no message. -/
theorem outgoing_of_quiet (hpiped : Piped n) (hpump : l.isPump = false) (hflow : l.isFlow = false)
    (hkept : ∀ proxy, C proxy = true → proxy ∉ n'.exited) (h : step l n = some n') :
    outgoing C n' = outgoing C n := by
  have hkill {actor : ActorId} (hexited : n'.exited = n.exited ++ [actor]) :
      outgoing C (n.kill [actor]) = outgoing C n := by
    refine outgoing_kill hpiped fun proxy hproxy hmem => hkept proxy hproxy ?_
    rw [hexited]
    exact List.mem_append_right _ hmem
  by_cases hexit : ∃ actor, l = .exit actor
  · obtain ⟨actor, rfl⟩ := hexit
    obtain ⟨-, rfl⟩ := exit_inv h
    exact hkill rfl
  by_cases hanswer : ∃ actor, l = .answer actor
  · obtain ⟨actor, rfl⟩ := hanswer
    obtain ⟨port, msg, -, -, -, rfl | rfl⟩ := answer_inv h
    · exact hkill rfl
    · exact hkill rfl
  have hinbox := inbox_of_quiet hpump hflow (fun actor heq => hexit ⟨actor, heq⟩)
    (fun actor heq => hanswer ⟨actor, heq⟩) h
  have hq := quiet_of_step hpump h
  obtain ⟨ms, hmail, hposts⟩ := hq.mailbox
  have hserialize : ms.filterMap PortalActorMessage.serializes? = [] :=
    List.filterMap_eq_nil_iff.mpr fun m hm => (letter_not_posted hflow (hposts m hm)).1
  have hwrite : ms.filterMap PortalActorMessage.writes? = [] :=
    List.filterMap_eq_nil_iff.mpr fun m hm => (letter_not_posted hflow (hposts m hm)).2
  simp only [outgoing, inProxies, toSerialize, serializing, toWrite, hinbox, (hq.flow hflow).channel,
    (hq.flow hflow).tasks, hmail, List.filterMap_append, hserialize, hwrite, List.append_nil]

theorem outgoing_tasks (tasks : Queues Tag (Immaterialization β)) : outgoing C { n with tasks } =
    lettersTo C n.inProxies + lettersTo C n.toSerialize + lettersTo C (tasks.map fun e => (e.1, e.2.body)) +
      lettersTo C n.toWrite := rfl

/-- A task ends. -/
theorem outgoing_of_dequeue {tag : Tag} {t : Immaterialization β} {rest : Queues Tag (Immaterialization β)}
    (h : n.tasks.dequeue tag = some (t, rest)) :
    outgoing C n = outgoing C { n with tasks := rest } + lettersTo C [(tag, t.body)] := by
  rw [outgoing_tasks rest, outgoing, serializing, lettersTo_dequeue _ h]
  abel

/-- A task goes on. -/
theorem outgoing_requeue {tag : Tag} {t : Immaterialization β} {rest : Queues Tag (Immaterialization β)}
    (t' : Immaterialization β) (h : n.tasks.dequeue tag = some (t, rest)) (hbody : t'.body = t.body) :
    outgoing C n = outgoing C { n with tasks := rest ++ [(tag, t')] } := by
  rw [outgoing_of_dequeue h, outgoing_tasks rest, outgoing_tasks (rest ++ _), List.map_append, lettersTo_append,
    List.map_singleton, hbody]
  abel

/-- **A message goes from one place to the next**, comes in at the first one, or cannot be serialized. -/
theorem outgoing_of_flow (hrun : n.life = .running) (hflow : l.isFlow = true) (h : step l n = some n') :
    outgoing C n + lettersTo C (l.letters n) = outgoing C n' + lettersTo C (l.failures n) := by
  cases l with
  | sendTo proxy body refs =>
    obtain ⟨-, rfl⟩ := sendTo_inv h
    rw [outgoing_enqueue]
    exact (add_zero _).symm
  | forwardReply port =>
    obtain ⟨proxy, rest, body, refs, hdequeue, hreply, ⟨hgone, rfl⟩ | ⟨hthere, rfl⟩⟩ := forwardReply_inv h
    · simp only [Label.letters, hdequeue, hreply, if_pos hgone]
      rfl
    · simp only [Label.letters, hdequeue, hreply, if_neg hthere]
      rw [outgoing_enqueue]
      exact (add_zero _).symm
  | relay proxy =>
    obtain ⟨msg, rest, hdequeue, rfl⟩ := relay_inv h
    -- from the inbox to the channel
    have hin : lettersTo C n.inProxies =
        lettersTo C ({ n with inbox := rest, channel := n.channel ++ [(proxy, msg)] } : Node β).inProxies := by
      simp only [inProxies, lettersTo_append, List.map_append, List.map_cons, List.map_nil,
        lettersTo_dequeue (fun e => e.2.letter) hdequeue]
      abel
    unfold outgoing
    rw [hin]
    rfl
  | forward proxy =>
    obtain ⟨msg, rest, remote, hdequeue, -, rfl⟩ := forward_inv h
    -- from the channel to the mailbox
    have hin : lettersTo C n.inProxies = lettersTo C ({ n with channel := rest } : Node β).inProxies +
        lettersTo C [msg.letter] := by
      simp only [inProxies, lettersTo_append, lettersTo_dequeue (fun e => e.2.letter) hdequeue]
      abel
    rw [outgoing_post (n := { n with channel := rest }) hrun]
    unfold outgoing
    rw [hin]
    show _ + lettersTo C n.toSerialize + lettersTo C n.serializing + lettersTo C n.toWrite + 0 =
      _ + lettersTo C n.toSerialize + lettersTo C n.serializing + lettersTo C n.toWrite + _ + 0 + 0
    simp only [PortalActorMessage.serializes?, Option.toList_some]
    abel
  | taskPublish tag =>
    obtain ⟨t, rest, ref, todo, hdequeue, -, -, -, rfl⟩ := taskPublish_inv h
    have hrequeue := outgoing_requeue (C := C) { t with asked := some n.nextPort } hdequeue rfl
    have hask : outgoing C (n.askPublish tag t rest ref) = outgoing C n := by
      rw [hrequeue]
      cases ref <;> exact outgoing_post_other rfl rfl
    rw [hask]
    rfl
  | taskPublished tag =>
    obtain ⟨t, rest, port, id, ref, todo, hdequeue, -, -, -, rfl⟩ := taskPublished_inv h
    show outgoing C n + 0 = _ + 0
    exact congrArg (· + 0) (outgoing_requeue _ hdequeue rfl)
  | taskFail tag =>
    obtain ⟨t, rest, hdequeue, rfl⟩ := taskFail_inv h
    simp only [Label.failures, hdequeue, Option.map_some, Option.toList_some]
    rw [outgoing_of_dequeue hdequeue]
    exact add_zero _
  | taskPost tag =>
    obtain ⟨t, rest, hdequeue, -, rfl⟩ := taskPost_inv h
    rw [outgoing_post (n := { n with tasks := rest, posted := n.posted ++ [tag] }) hrun, outgoing_of_dequeue hdequeue]
    show outgoing C { n with tasks := rest } + _ + 0 = outgoing C { n with tasks := rest } + 0 + _ + 0
    rw [add_zero (outgoing C { n with tasks := rest })]
    rfl
  | _ => cases hflow

/-- A turn of an open portal starts the task for the message that it is asked to serialize. -/
theorem spawned_of_handle (env : HandleEnv) {state : PortalActorState} {channel : ConduitID}
    (hopen : state.channelState = .opened channel) (m : PortalActorMessage β) :
    (handle env state m).spawned.map (fun s => s.2.letter) = m.serializes?.toList := by
  cases m with
  | immaterializeMessage target msg =>
    show (handleImmaterializeMessage state target msg).spawned.map _ = _
    rw [handleImmaterializeMessage, hopen]
    rfl
  | _ =>
    obtain hnone | ⟨target, msg, heq, -⟩ := handle_spawned env state _
    · rw [hnone]
      rfl
    · cases heq

/-- A turn of an open portal writes the message that it is asked to transmit, or fails. -/
theorem written_of_handle (env : HandleEnv) {state : PortalActorState} {channel : ConduitID}
    (hopen : state.channelState = .opened channel) (m : PortalActorMessage β)
    (hends : ∀ error, (handle env state m).outcome ≠ .err error) :
    ((handle env state m).frames.map fun msg => ConduitMessage.content (some msg)).filterMap
      ConduitMessage.letter? = m.writes?.toList := by
  by_cases hm : ∃ target bytes, m = .transmitMessage target bytes
  · obtain ⟨target, bytes, rfl⟩ := hm
    have hturn : handle env state (.transmitMessage target bytes) = sending env state [] (.sendMessage target bytes) := by
      show handleTransmitMessage env state target bytes = _
      rw [handleTransmitMessage, hopen]
    rw [hturn] at hends ⊢
    obtain ⟨-, hsink⟩ | herr := sending_outcome env state [] (.sendMessage target bytes)
    · rw [sending, hsink]
      show List.filterMap _ [_] = bytes.letter?.toList
      cases hletter : bytes.letter? <;> simp [ConduitMessage.letter?, hletter]
    · exact absurd herr (hends _)
  · have hwrites : m.writes? = none := by
      cases m with
      | transmitMessage target bytes => exact absurd ⟨target, bytes, rfl⟩ hm
      | _ => rfl
    rw [hwrites, List.filterMap_eq_nil_iff.mpr]
    · rfl
    · intro frame hframe
      obtain ⟨msg, hmsg, rfl⟩ := List.mem_map.mp hframe
      cases handle_causes (mem_frames hmsg) with
      | transmit channel target bytes => exact absurd ⟨target, bytes, rfl⟩ hm
      | _ => rfl

/-- **A turn.** -/
theorem outgoing_of_handle (hpiped : Piped n) {channel : ConduitID} (hopen : n.state.channelState = .opened channel)
    {uuid : OpaqueActorId} {nexus : Option (Option ActorId)} {sink : SinkResult} (hrun : n'.life = .running)
    (hkept : ∀ proxy, C proxy = true → proxy ∉ n'.exited) (h : step (.handle uuid nexus sink) n = some n') :
    ∃ more, n'.sent = n.sent ++ more ∧
      outgoing C n = outgoing C n' + lettersTo C (more.filterMap ConduitMessage.letter?) := by
  obtain ⟨-, m, rest, hmail, rfl⟩ := handle_inv h
  have hspawned := spawned_of_handle (n.env uuid nexus sink) hopen m
  have hwritten := written_of_handle (n.env uuid nexus sink) hopen m
  set turn := Portal.handle (n.env uuid nexus sink) n.state m
  have hends (error : HandlerError) : turn.outcome ≠ .err error := by
    intro herr
    rw [herr] at hrun
    cases hrun
  obtain ⟨rebuilding, hgoes⟩ := endTurn_of_running _ _ hrun
  rw [hgoes] at hkept ⊢
  refine ⟨_, rfl, ?_⟩
  have hserialize : n.toSerialize = m.serializes?.toList ++ rest.filterMap PortalActorMessage.serializes? := by
    rw [toSerialize, hmail]
    cases hm : m.serializes? <;> simp [hm]
  have hwrite : n.toWrite = m.writes?.toList ++ rest.filterMap PortalActorMessage.writes? := by
    rw [toWrite, hmail]
    cases hm : m.writes? <;> simp [hm]
  have hin : lettersTo C (n.kill turn.stopped).inProxies = lettersTo C n.inProxies :=
    inProxies_kill hpiped fun proxy hproxy hmem => hkept proxy hproxy (List.mem_append_right _ hmem)
  have htasks : (n.takeTurn m rest turn).serializing = n.serializing ++ m.serializes?.toList := by
    rw [← hspawned]
    simp only [serializing, takeTurn, List.map_append, List.map_map]
    rfl
  rw [hwritten hends]
  show outgoing C n = lettersTo C (n.kill turn.stopped).inProxies +
    lettersTo C (rest.filterMap PortalActorMessage.serializes?) + lettersTo C (n.takeTurn m rest turn).serializing +
    lettersTo C (rest.filterMap PortalActorMessage.writes?) + _
  rw [outgoing, hin, hserialize, hwrite, htasks, lettersTo_append, lettersTo_append, lettersTo_append]
  abel

/-- **What a side sends** is on this side, has been written, or cannot be serialized. -/
theorem outgoing_of_step (hpiped : Piped n) {channel : ConduitID} (hopen : n.state.channelState = .opened channel)
    (hrun : n'.life = .running) (hkept : ∀ proxy, C proxy = true → proxy ∉ n'.exited) (h : step l n = some n') :
    ∃ more, n'.sent = n.sent ++ more ∧ outgoing C n + lettersTo C (l.letters n) =
      outgoing C n' + lettersTo C (more.filterMap ConduitMessage.letter?) + lettersTo C (l.failures n) := by
  have hsame (hsent : n'.sent = n.sent) (heq : outgoing C n + lettersTo C (l.letters n) =
      outgoing C n' + lettersTo C (l.failures n)) : ∃ more, n'.sent = n.sent ++ more ∧
      outgoing C n + lettersTo C (l.letters n) =
        outgoing C n' + lettersTo C (more.filterMap ConduitMessage.letter?) + lettersTo C (l.failures n) := by
    refine ⟨[], by rw [hsent, List.append_nil], ?_⟩
    rw [heq, List.filterMap_nil, lettersTo_nil, add_zero]
  cases hpump : l.isPump with
  | false =>
    apply hsame (quiet_of_step hpump h).sent
    cases hflow : l.isFlow with
    | true => exact outgoing_of_flow (life_of_step h hrun) hflow h
    | false =>
      rw [outgoing_of_quiet hpiped hpump hflow hkept h]
      cases l <;> first | rfl | cases hflow
  | true =>
    cases l with
    | recv frame =>
      obtain ⟨-, rfl⟩ := recv_inv h
      obtain _ | _ | _ | _ := frame <;> exact hsame rfl (congrArg (· + 0) (outgoing_post_other rfl rfl).symm)
    | handle uuid nexus sink =>
      obtain ⟨more, hsent, heq⟩ := outgoing_of_handle hpiped hopen hrun hkept h
      refine ⟨more, hsent, ?_⟩
      rw [heq]
      rfl
    | rebuildDone =>
      obtain ⟨r, -, -, rfl⟩ := rebuildDone_inv h
      obtain ⟨body, heq⟩ := deliver_of_running n hrun
      rw [heq] at hsame ⊢
      exact hsame rfl rfl
    | _ => cases hpump

end

/-! ## The receiver -/

section

variable {C : ActorId → Bool} {actor : ActorId} {n n' : Node β} {l : Label β}

/-- The messages of the proxies are for one actor. -/
structure AllFor (C : ActorId → Bool) (actor : ActorId) (n : Node β) : Prop where
  mailbox : ∀ target data, .content (some (.sendMessage target data)) ∈ n.mailbox → C data.tag.proxy = true →
    n.state.publishedActors.lookup target.id = some actor
  rebuilding : ∀ r ∈ n.rebuilding, C r.tag.proxy = true → r.actor = actor

theorem delivers?_of_posts {m : PortalActorMessage β} (h : l.posts m) : m.delivers? = none := by
  cases m with
  | content data => cases l <;> exact h.elim
  | _ => rfl

theorem delivers?_inv {m : PortalActorMessage β} {letter : Letter β} (h : m.delivers? = some letter) :
    ∃ target data, m = .content (some (.sendMessage target data)) ∧ letter.1 = data.tag := by
  cases m with
  | content data =>
    obtain _ | _ | _ | _ | ⟨target, data⟩ | _ := data
    case some.sendMessage =>
      obtain ⟨body, -, rfl⟩ := Option.map_eq_some_iff.mp h
      exact ⟨target, data, rfl, rfl⟩
    all_goals cases h
  | _ => cases h

theorem letter?_inv {frame : ConduitMessage β} {letter : Letter β} (h : frame.letter? = some letter) :
    ∃ target data, frame = .content (some (.sendMessage target data)) ∧ letter.1 = data.tag := by
  cases frame with
  | content data =>
    obtain _ | _ | _ | _ | ⟨target, data⟩ | _ := data
    case some.sendMessage =>
      obtain ⟨body, -, rfl⟩ := Option.map_eq_some_iff.mp h
      exact ⟨target, data, rfl, rfl⟩
    all_goals cases h
  | _ => cases h

theorem addressed_of_serializes {m : PortalActorMessage β} {letter : Letter β} (h : m.serializes? = some letter) :
    ∃ target, m.addressed? = some (letter.1, target) := by
  cases m with
  | immaterializeMessage target msg =>
    cases h
    exact ⟨target, rfl⟩
  | _ => cases h

theorem addressed_of_writes {m : PortalActorMessage β} {letter : Letter β} (h : m.writes? = some letter) :
    ∃ target, m.addressed? = some (letter.1, target) := by
  cases m with
  | transmitMessage target bytes =>
    obtain ⟨body, -, rfl⟩ := Option.map_eq_some_iff.mp h
    exact ⟨target, rfl⟩
  | _ => cases h

/-- A message that is not handed over was for nobody. -/
theorem dropped_of_handle {env : HandleEnv} {state : PortalActorState} {target : RemoteActorId} {data : Payload β}
    (h : (handle env state (.content (some (.sendMessage target data)))).outcome = .ok) :
    state.publishedActors.lookup target.id = none := by
  have h : (handleContent env state (some (.sendMessage target data))).outcome = .ok := h
  unfold handleContent at h
  split at h
  · cases h
  · have h : (handleSendMessage state target data).outcome = .ok := h
    unfold handleSendMessage at h
    split at h
    · cases h
    · assumption

/-- A message that is for the actor is taken up. -/
theorem incoming_of_handle (hfor : AllFor C actor n) {uuid : OpaqueActorId} {nexus : Option (Option ActorId)}
    {sink : SinkResult} (hrun : n'.life = .running) (h : step (.handle uuid nexus sink) n = some n') :
    incoming C actor n' = incoming C actor n := by
  obtain ⟨⟨-, hidle, -⟩, m, rest, hmail, rfl⟩ := handle_inv h
  have hends := handle_ends (n.env uuid nexus sink) n.state m
  set turn := Portal.handle (n.env uuid nexus sink) n.state m with hturn
  have hdeliver : n.toDeliver = m.delivers?.toList ++ rest.filterMap PortalActorMessage.delivers? := by
    rw [toDeliver, hmail]
    cases hm : m.delivers? <;> simp [hm]
  have hbefore : incoming C actor n = lettersTo C m.delivers?.toList +
      (lettersTo C (rest.filterMap PortalActorMessage.delivers?) + lettersTo C (n.deliveredTo actor)) := by
    rw [incoming, hdeliver, delivering, hidle, lettersTo_append]
    show _ + _ + 0 + _ = _
    abel
  generalize houtcome : turn.outcome = outcome at hends hrun ⊢
  cases hends with
  | ok =>
    have hnone : lettersTo C m.delivers?.toList = 0 := by
      refine lettersTo_eq_zero fun letter hletter => ?_
      obtain ⟨target, data, rfl, htag⟩ := delivers?_inv (Option.mem_toList.mp hletter)
      rw [htag]
      by_contra hC
      have hlook := hfor.mailbox target data (hmail ▸ List.mem_cons_self) (Bool.not_eq_false _ ▸ hC)
      rw [dropped_of_handle houtcome] at hlook
      cases hlook
    rw [hbefore, hnone, zero_add]
    show lettersTo C (rest.filterMap PortalActorMessage.delivers?) + lettersTo C (n.rebuilding.toList.filterMap _) +
      lettersTo C (n.deliveredTo actor) = _
    rw [hidle]
    exact congrArg (· + _) (add_zero _)
  | rematerialize channel target actor' data hopen hlook =>
    have hletter : (PortalActorMessage.content (some (.sendMessage target data))).delivers?.toList =
        [data].filterMap fun data => data.body.map (data.tag, ·) := by
      show data.letter?.toList = _
      cases hbody : data.body <;> simp [Payload.letter?, hbody]
    rw [hbefore, hletter]
    show lettersTo C (rest.filterMap PortalActorMessage.delivers?) + lettersTo C _ +
      lettersTo C (n.deliveredTo actor) = _
    rw [add_comm (lettersTo C (rest.filterMap _)), add_assoc]
    rfl
  | _ => cases hrun

/-- **What a side gets** stays, if it reads no frame. -/
theorem incoming_of_step (hfor : AllFor C actor n) (hrun : n'.life = .running)
    (hl : ∀ frame, l ≠ .recv (some frame)) (h : step l n = some n') : incoming C actor n' = incoming C actor n := by
  cases hpump : l.isPump with
  | false =>
    have hq := quiet_of_step hpump h
    obtain ⟨ms, hmail, hposts⟩ := hq.mailbox
    have hdeliver : n'.toDeliver = n.toDeliver := by
      have hnone : ms.filterMap PortalActorMessage.delivers? = [] :=
        List.filterMap_eq_nil_iff.mpr fun m hm => delivers?_of_posts (hposts m hm)
      rw [toDeliver, hmail, List.filterMap_append, hnone, List.append_nil]
      rfl
    have hdelivering : n'.delivering = n.delivering := by
      by_cases href : l = .rebuildRef
      · subst href
        obtain ⟨r, ref, todo, hr, -, rfl⟩ := rebuildRef_inv h
        obtain ⟨done, hdone⟩ := n.rebuild_rebuilding r ref todo
        rw [delivering, delivering, hdone, hr]
        rfl
      · rw [delivering, hq.rebuilding href]
        rfl
    rw [incoming, hdeliver, hdelivering, deliveredTo, hq.delivered]
    rfl
  | true =>
    cases l with
    | recv frame =>
      cases frame with
      | some frame => exact absurd rfl (hl frame)
      | none =>
        obtain ⟨-, rfl⟩ := recv_inv h
        have hdeliver : (n.receive none).toDeliver = n.toDeliver := by
          simp only [toDeliver, receive, post, List.filterMap_append]
          split <;> simp [PortalActorMessage.delivers?]
        rw [incoming, hdeliver]
        rfl
    | handle uuid nexus sink => exact incoming_of_handle hfor hrun h
    | rebuildDone =>
      obtain ⟨r, hr, -, rfl⟩ := rebuildDone_inv h
      obtain ⟨error, heq⟩ | ⟨body, hbody, -, heq⟩ := n.deliver_cases r
      · rw [heq] at hrun
        cases hrun
      · have hdelivering : n.delivering = [(r.tag, body)] := by
          rw [delivering, hr]
          simp [hbody]
        -- the message is handed to its actor; if that is another one, `C` does not count it
        have hdelivered : lettersTo C ((n.handOver r body).deliveredTo actor) =
            lettersTo C (n.deliveredTo actor) + lettersTo C [(r.tag, body)] := by
          simp only [deliveredTo, handOver, List.filter_append, List.map_append, lettersTo_append]
          congr 1
          by_cases hactor : r.actor = actor
          · simp [hactor, Msg.letter]
          · have hC : C r.tag.proxy = false := by
              by_contra hC
              exact hactor (hfor.rebuilding r hr (Bool.not_eq_false _ ▸ hC))
            have hzero : lettersTo C [(r.tag, body)] = 0 := lettersTo_eq_zero fun letter hletter => by
              rw [List.mem_singleton.mp hletter, hC]
            rw [hzero]
            simp [hactor]
        rw [heq, incoming, hdelivered, incoming, hdelivering]
        show lettersTo C n.toDeliver + 0 + _ = _
        abel
    | _ => cases hpump

/-- A frame is read. -/
theorem incoming_of_recv (hrun : n.life = .running) {frame : ConduitMessage β} (h : step (.recv (some frame)) n = some n') :
    incoming C actor n' = incoming C actor n + lettersTo C frame.letter?.toList := by
  obtain ⟨-, rfl⟩ := recv_inv h
  have hpost (m : PortalActorMessage β) (hm : m.delivers? = frame.letter?) :
      incoming C actor (n.post m) = incoming C actor n + lettersTo C frame.letter?.toList := by
    have hdeliver : (n.post m).toDeliver = n.toDeliver ++ frame.letter?.toList := by
      rw [toDeliver, post, if_pos hrun, List.filterMap_append, ← hm]
      cases hm : m.delivers? <;> simp [toDeliver, hm]
    rw [incoming, hdeliver, lettersTo_append]
    show _ + lettersTo C n.delivering + lettersTo C (n.deliveredTo actor) = _
    rw [incoming]
    abel
  cases frame with
  | handshake text => exact hpost (.handshake text) rfl
  | content data => exact hpost (.content data) (by obtain _ | _ | _ | _ | _ | _ := data <;> rfl)
  | close reason => exact hpost .close rfl

end

end Node

/-- The message is for a proxy that there is. -/
def Node.Known (n : Node β) (letter : Letter β) : Prop := ∃ remote, n.proxies.lookup letter.1.proxy = some remote

theorem Node.Addressed.letters {n n' : Node β} {label : Label β} (h : n.Addressed) (hstep : Node.step label n = some n') :
    ∀ letter ∈ label.letters n, n.Known letter := by
  intro letter hletter
  cases label with
  | sendTo proxy body refs =>
    obtain ⟨⟨hproxy, -⟩, -⟩ := Node.sendTo_inv hstep
    rw [List.mem_singleton.mp hletter]
    exact Node.lookup_of_mem_proxies hproxy
  | forwardReply port =>
    obtain ⟨proxy, rest, body, refs, hdequeue, hreply, hgone | hthere⟩ := Node.forwardReply_inv hstep
    · simp only [Label.letters, hdequeue, hreply, if_pos hgone.1] at hletter
      cases hletter
    · simp only [Label.letters, hdequeue, hreply, if_neg hthere.1] at hletter
      rw [List.mem_singleton.mp hletter]
      exact h.rebuilt _ ((Queues.perm_of_dequeue hdequeue).mem_iff.mpr List.mem_cons_self)
  | _ => cases hletter

theorem Node.Addressed.failures {n n' : Node β} {label : Label β} (h : n.Addressed) (hstep : Node.step label n = some n') :
    ∀ letter ∈ label.failures n, n.Known letter := by
  intro letter hletter
  cases label with
  | taskFail tag =>
    obtain ⟨t, rest, hdequeue, -⟩ := Node.taskFail_inv hstep
    simp only [Label.failures, hdequeue, Option.map_some, Option.toList_some] at hletter
    rw [List.mem_singleton.mp hletter]
    exact ⟨_, h.tasks _ ((Queues.perm_of_dequeue hdequeue).mem_iff.mpr List.mem_cons_self)⟩
  | _ => cases hletter

/-! ## Two sides -/

namespace Pair

/-- Where the messages of some proxies of a side can be, those for one actor of the other side. -/
def stock (C : ActorId → Bool) (s : Side) (actor : ActorId) (p : Pair β) : Multiset (Letter β) :=
  (p.node s).outgoing C + lettersTo C (p.onWire s) + (p.node s.other).incoming C actor

variable {setup : Side → Setup} {C : ActorId → Bool} {s : Side} {actor : ActorId} {id : OpaqueActorId} {p q : Pair β}
  {l : PairLabel β}

/-- The sender has opened, and the actor is published. -/
structure Routes (setup : Side → Setup) (s : Side) (id : OpaqueActorId) (actor : ActorId) (p : Pair β) : Prop where
  flows : p.Flows setup
  routed : p.Routed s
  opened : ∃ channel, (p.node s).state.channelState = .opened channel
  published : (p.node s.other).state.publishedActors.lookup id = some actor

/-- Nobody has terminated whom the messages need: the portals, and the proxies, which are all for one id. -/
structure Lasts (C : ActorId → Bool) (s : Side) (id : OpaqueActorId) (p : Pair β) : Prop where
  running : ∀ t, (p.node t).life = .running
  kept : ∀ proxy, C proxy = true → proxy ∉ (p.node s).exited
  proxies : ∀ proxy remote, (p.node s).proxies.lookup proxy = some remote → C proxy = true → remote.id = id

theorem allFor (hroutes : p.Routes setup s id actor) (hlasts : p.Lasts C s id) :
    Node.AllFor C actor (p.node s.other) where
  mailbox target data hm hC := by
    rw [hlasts.proxies _ _ (hroutes.routed.mailbox target data hm) hC]
    exact hroutes.published
  rebuilding r hr hC := by
    obtain ⟨target, hproxy, hactor⟩ := hroutes.routed.rebuilding r hr
    rw [hlasts.proxies _ _ hproxy hC, hroutes.published] at hactor
    exact (Option.some.inj hactor).symm

/-- The sender moves. -/
theorem stock_of_send (hroutes : p.Routes setup s id actor) (hlasts : q.Lasts C s id) {label : Label β}
    (hnode : Node.step label (p.node s) = some (q.node s)) (hother : q.node s.other = p.node s.other)
    (hread : q.read s.other = p.read s.other) :
    p.stock C s actor + lettersTo C (label.letters (p.node s)) =
      q.stock C s actor + lettersTo C (label.failures (p.node s)) := by
  obtain ⟨channel, hopen⟩ := hroutes.opened
  obtain ⟨more, hsent, heq⟩ :=
    Node.outgoing_of_step (hroutes.flows.piped s) hopen (hlasts.running s) hlasts.kept hnode
  have hle := (hroutes.flows.agrees.receives s.other).read_le
  rw [Side.other_other] at hle
  have hwire : q.onWire s = p.onWire s ++ more.filterMap ConduitMessage.letter? := by
    rw [onWire, hsent, hread, List.drop_append_of_le_length hle, List.filterMap_append]
    rfl
  rw [stock, stock, hother, hwire, lettersTo_append]
  calc _ = ((p.node s).outgoing C + lettersTo C (label.letters (p.node s))) + lettersTo C (p.onWire s) +
        (p.node s.other).incoming C actor := by abel
    _ = _ := by
      rw [heq]
      abel

/-- The receiver moves. -/
theorem stock_of_receive (hroutes : p.Routes setup s id actor) (hlasts : p.Lasts C s id) {label : Label β}
    (hrun : (q.node s.other).life = .running) (hnode : Node.step label (p.node s.other) = some (q.node s.other))
    (hsame : q.node s = p.node s)
    (hrecv : (∃ frame, label = .recv (some frame) ∧ (p.node s).sent[p.read s.other]? = some frame ∧
        q.read s.other = p.read s.other + 1) ∨
      q.read s.other = p.read s.other ∧ ∀ frame, label ≠ .recv (some frame)) :
    q.stock C s actor = p.stock C s actor := by
  obtain ⟨frame, rfl, hframe, hread⟩ | ⟨hread, hl⟩ := hrecv
  · obtain ⟨hlt, hget⟩ := List.getElem?_eq_some_iff.mp hframe
    have hwire : p.onWire s = frame.letter?.toList ++ q.onWire s := by
      rw [onWire, onWire, hsame, hread, List.drop_eq_getElem_cons hlt, hget]
      cases hletter : frame.letter? <;> simp [hletter]
    rw [stock, stock, hsame, hwire, lettersTo_append, Node.incoming_of_recv (hlasts.running s.other) hnode]
    abel
  · have hwire : q.onWire s = p.onWire s := by
      rw [onWire, hsame, hread]
      rfl
    rw [stock, stock, hsame, hwire, Node.incoming_of_step (allFor hroutes hlasts) hrun hl hnode]

/-- A proxy stays the proxy of its remote actor. -/
theorem lookup_proxies_of_step (hstep : Pair.step l p = some q) {proxy : ActorId} {remote : RemoteActorId}
    (hproxy : (p.node s).proxies.lookup proxy = some remote) : (q.node s).proxies.lookup proxy = some remote := by
  obtain ⟨t, label, hnode, hother, -⟩ := Pair.step_inv hstep
  obtain rfl | rfl := t.eq_or_other s
  · exact Node.lookup_proxies_of_step hnode hproxy
  · rw [hother]
    exact hproxy

theorem Lasts.of_step (h : q.Lasts C s id) (hstep : Pair.step l p = some q) : p.Lasts C s id := by
  obtain ⟨t, label, hnode, hother, -⟩ := Pair.step_inv hstep
  refine ⟨fun u => ?_, fun proxy hC hgone => h.kept proxy hC ?_,
    fun proxy remote hproxy hC => h.proxies proxy remote ?_ hC⟩
  · obtain rfl | rfl := t.eq_or_other u
    · exact Node.life_of_step hnode (h.running u)
    · rw [← hother]
      exact h.running t.other
  · obtain rfl | rfl := t.eq_or_other s
    · exact Node.exited_of_step hnode hgone
    · rw [hother]
      exact hgone
  · exact lookup_proxies_of_step hstep hproxy

theorem Routes.step (h : p.Routes setup s id actor) (hstep : Pair.step l p = some q) : q.Routes setup s id actor := by
  refine ⟨h.flows.step hstep, h.routed.step (h.flows.piped s) hstep, ?_, ?_⟩
  · obtain ⟨t, label, hnode, hother, -⟩ := Pair.step_inv hstep
    obtain rfl | rfl := t.eq_or_other s
    · exact h.opened.imp fun channel => Node.opened_of_step hnode
    · rw [hother]
      exact h.opened
  · obtain ⟨t, label, hnode, hother, -⟩ := Pair.step_inv hstep
    obtain heq | heq := t.eq_or_other s.other
    · rw [heq]
      exact Node.lookup_published_of_step hnode (heq ▸ h.published)
    · rw [heq, hother, ← heq]
      exact h.published

/-- **Every step.** -/
theorem stock_of_step (hroutes : p.Routes setup s id actor) (hlasts : q.Lasts C s id) (hstep : Pair.step l p = some q) :
    p.stock C s actor + lettersTo C (p.emits s Label.letters l) =
      q.stock C s actor + lettersTo C (p.emits s Label.failures l) := by
  obtain ⟨t, label, hl, hnode, hother, hread, hrecv⟩ := Pair.step_cases hstep
  obtain rfl | rfl := s.eq_or_other t
  · have hstock := stock_of_send hroutes hlasts hnode hother hread
    obtain ⟨rfl, frame, rfl⟩ | rfl := hl
    · exact hstock
    · simpa only [emits, if_pos] using hstock
  · rw [Side.other_other] at hother hrecv
    have hstock := stock_of_receive hroutes (hlasts.of_step hstep) (hlasts.running s.other) hnode hother hrecv
    obtain ⟨rfl, -⟩ | rfl := hl
    · rw [hstock]
      rfl
    · rw [hstock, emits, emits, if_neg s.other_ne, if_neg s.other_ne]

/-- **Every run.** -/
theorem stock_of_run {ls : List (PairLabel β)} (hroutes : p.Routes setup s id actor) (hlasts : q.Lasts C s id)
    (hrun : Transition.Run Pair.step Transition.Any ls p q) :
    p.stock C s actor + lettersTo C (Transition.trace Pair.step (emits s Label.letters) ls p) =
      q.stock C s actor + lettersTo C (Transition.trace Pair.step (emits s Label.failures) ls p) := by
  have hcarried := hrun.carry (fun _ _ _ h _ hstep => Routes.step h hstep) hroutes
  have hlasting : Transition.Run Pair.step
      (fun l u => u.Routes setup s id actor ∧ ∀ v, Pair.step l u = some v → v.Lasts C s id) ls p q := by
    apply hcarried.strengthen (P := fun u => u.Lasts C s id)
    · exact fun _ _ _ hstep hlasts => hlasts.of_step hstep
    · intro l u v hgood hstep hv
      exact ⟨hgood.1, fun v' hstep' => Option.some.inj (hstep.symm.trans hstep') ▸ hv⟩
    · exact hlasts
  exact hlasting.balance lettersTo_nil (fun _ _ => lettersTo_append)
    fun _ _ _ hgood hstep => stock_of_step hgood.1 (hgood.2 _ hstep) hstep

theorem known_of_run {emit : Label β → Node β → List (Letter β)}
    (hemit : ∀ {label n n'}, n.Addressed → Node.step label n = some n' → ∀ letter ∈ emit label n, n.Known letter)
    {ls : List (PairLabel β)} (hrun : Transition.Run Pair.step Transition.Any ls (Pair.started setup) p) :
    ∀ letter ∈ Transition.trace Pair.step (emits s emit) ls (Pair.started setup), (p.node s).Known letter := by
  have hall := hrun.tracing (emits s emit) (R := fun log u => u.Flows setup ∧ u.Routed s ∧
    ∀ letter ∈ log, (u.node s).Known letter) ?_ [] ⟨flows_started, routed_started setup s, nofun⟩
  · exact hall.2.2
  · rintro log l u v ⟨hflows, hrouted, hlog⟩ - hstep
    refine ⟨hflows.step hstep, hrouted.step (hflows.piped s) hstep, fun letter hletter => ?_⟩
    obtain hold | hnew := List.mem_append.mp hletter
    · exact (hlog letter hold).imp fun remote => lookup_proxies_of_step hstep
    · obtain ⟨t, label, hl, hnode, -⟩ := Pair.step_cases hstep
      obtain ⟨rfl, -⟩ | rfl := hl
      · cases hnew
      · simp only [emits] at hnew
        split at hnew
        · rename_i ht
          subst ht
          exact (hemit hrouted.addressed hnode letter hnew).imp fun remote => lookup_proxies_of_step hstep
        · cases hnew

/-- Where a message is, there is its proxy. -/
theorem stock_eq_zero (h : p.Routed s) (hpiped : Piped (p.node s))
    (hnone : ∀ letter, (p.node s).Known letter → C letter.1.proxy = false) : p.stock C s actor = 0 := by
  have hzero {letters : List (Letter β)} (hknown : ∀ letter ∈ letters, (p.node s).Known letter) :
      lettersTo C letters = 0 :=
    lettersTo_eq_zero fun letter hletter => hnone letter (hknown letter hletter)
  -- the places one after the other: a message there names a proxy that is known, and `C` counts none of these
  have hin : lettersTo C (p.node s).inProxies = 0 := by
    apply hzero
    intro letter hletter
    obtain hinbox | hchannel := List.mem_append.mp hletter
    · obtain ⟨e, he, rfl⟩ := List.mem_map.mp hinbox
      obtain ⟨remote, hremote⟩ := h.addressed.inbox e he
      exact ⟨remote, (hpiped.inbox e he).symm ▸ hremote⟩
    · obtain ⟨e, he, rfl⟩ := List.mem_map.mp hchannel
      obtain ⟨remote, hremote⟩ := h.addressed.channel e he
      exact ⟨remote, (hpiped.channel e he).symm ▸ hremote⟩
  have hserialize : lettersTo C (p.node s).toSerialize = 0 := by
    apply hzero
    intro letter hletter
    obtain ⟨m, hm, hletter⟩ := List.mem_filterMap.mp hletter
    obtain ⟨target, htarget⟩ := Node.addressed_of_serializes hletter
    exact ⟨target, h.addressed.mailbox m hm _ htarget⟩
  have hserializing : lettersTo C (p.node s).serializing = 0 := by
    apply hzero
    intro letter hletter
    obtain ⟨e, he, rfl⟩ := List.mem_map.mp hletter
    exact ⟨_, h.addressed.tasks e he⟩
  have hwrite : lettersTo C (p.node s).toWrite = 0 := by
    apply hzero
    intro letter hletter
    obtain ⟨m, hm, hletter⟩ := List.mem_filterMap.mp hletter
    obtain ⟨target, htarget⟩ := Node.addressed_of_writes hletter
    exact ⟨target, h.addressed.mailbox m hm _ htarget⟩
  have hwire : lettersTo C (p.onWire s) = 0 := by
    apply hzero
    intro letter hletter
    obtain ⟨frame, hframe, hletter⟩ := List.mem_filterMap.mp hletter
    obtain ⟨target, data, rfl, htag⟩ := Node.letter?_inv hletter
    exact ⟨target, htag ▸ h.addressed.sent target data (List.mem_of_mem_drop hframe)⟩
  have hdeliver : lettersTo C (p.node s.other).toDeliver = 0 := by
    apply hzero
    intro letter hletter
    obtain ⟨m, hm, hletter⟩ := List.mem_filterMap.mp hletter
    obtain ⟨target, data, rfl, htag⟩ := Node.delivers?_inv hletter
    exact ⟨target, htag ▸ h.mailbox target data hm⟩
  have hdelivering : lettersTo C (p.node s.other).delivering = 0 := by
    apply hzero
    intro letter hletter
    obtain ⟨r, hr, hletter⟩ := List.mem_filterMap.mp hletter
    obtain ⟨body, -, rfl⟩ := Option.map_eq_some_iff.mp hletter
    exact (h.rebuilding r (Option.mem_toList.mp hr)).imp fun _ hr => hr.1
  have hdelivered : lettersTo C ((p.node s.other).deliveredTo actor) = 0 := by
    apply hzero
    intro letter hletter
    obtain ⟨d, hd, rfl⟩ := List.mem_map.mp hletter
    exact (h.delivered d (List.mem_of_mem_filter hd)).imp fun _ hd => hd.1
  simp only [stock, Node.outgoing, Node.incoming, hin, hserialize, hserializing, hwrite, hwire, hdeliver, hdelivering,
    hdelivered, add_zero]

/-- What the side has sent to some proxies in a run, and what could not be serialized of it. -/
def sentIn (C : ActorId → Bool) (s : Side) (ls : List (PairLabel β)) (p : Pair β) : Multiset (Letter β) :=
  lettersTo C (Transition.trace Pair.step (emits s Label.letters) ls p)

def failedIn (C : ActorId → Bool) (s : Side) (ls : List (PairLabel β)) (p : Pair β) : Multiset (Letter β) :=
  lettersTo C (Transition.trace Pair.step (emits s Label.failures) ls p)

/-- **No message is lost, doubled, misrouted or made up.** Take any run of two honest portals, and a state `p₀` of it in
    which a side has opened and the other one has published `actor` as `id`. Whatever is then delivered from a proxy
    for this id is delivered to the actor. If in the end both portals run and so do the proxies for
    the id, then the messages that were at some place in `p₀` and those sent to the proxies since are, each once,
    those that are at some place in the end and those that failed to be serialized since; and if `p₀` had no
    proxy for the id, then these are all that were ever sent to a proxy for it, and all that ever failed. -/
theorem messages_accounted (setup : Side → Setup) (ls₀ ls : List (PairLabel β)) (p₀ p : Pair β)
    (hrun₀ : Transition.Run Pair.step Transition.Any ls₀ (Pair.started setup) p₀)
    (hrun : Transition.Run Pair.step Transition.Any ls p₀ p) (s : Side) (channel : ConduitID)
    (hopen : (p₀.node s).state.channelState = .opened channel) (id : OpaqueActorId) (actor : ActorId)
    (hid : (p₀.node s.other).state.publishedActors.lookup id = some actor) :
    (∀ d ∈ (p.node s.other).delivered, (p.node s).isProxyOf id d.2.tag.proxy = true → d.1 = actor) ∧
    ((∀ t, (p.node t).life = .running) →
      (∀ proxy, (p.node s).isProxyOf id proxy = true → proxy ∉ (p.node s).exited) →
      p₀.stock ((p.node s).isProxyOf id) s actor + p₀.sentIn ((p.node s).isProxyOf id) s ls =
          p.stock ((p.node s).isProxyOf id) s actor + p₀.failedIn ((p.node s).isProxyOf id) s ls ∧
      ((∀ proxy, (p₀.node s).isProxyOf id proxy = false) →
        (Pair.started setup).sentIn ((p.node s).isProxyOf id) s (ls₀ ++ ls) =
          p.stock ((p.node s).isProxyOf id) s actor +
            (Pair.started setup).failedIn ((p.node s).isProxyOf id) s (ls₀ ++ ls))) := by
  have hrouted₀ : p₀.Flows setup ∧ p₀.Routed s :=
    hrun₀.invariant (P := fun u => u.Flows setup ∧ u.Routed s)
      (fun _ _ _ h _ hstep => ⟨h.1.step hstep, h.2.step (h.1.piped s) hstep⟩)
      ⟨flows_started, routed_started setup s⟩
  have hroutes₀ : p₀.Routes setup s id actor := ⟨hrouted₀.1, hrouted₀.2, ⟨channel, hopen⟩, hid⟩
  have hroutes : p.Routes setup s id actor := hrun.invariant (fun _ _ _ h _ hstep => Routes.step h hstep) hroutes₀
  refine ⟨fun d hd hproxy => ?_, fun hrunning hkept => ?_⟩
  · obtain ⟨target, htarget, hactor⟩ := hroutes.routed.delivered d hd
    rw [Node.isProxyOf, htarget] at hproxy
    rw [of_decide_eq_true hproxy, hroutes.published] at hactor
    exact (Option.some.inj hactor).symm
  have hlasts : p.Lasts ((p.node s).isProxyOf id) s id := by
    refine ⟨hrunning, hkept, fun proxy remote hproxy hC => ?_⟩
    rw [Node.isProxyOf, hproxy] at hC
    exact of_decide_eq_true hC
  have hstock := stock_of_run hroutes₀ hlasts hrun
  refine ⟨hstock, fun hnone => ?_⟩
  -- whatever concerns a proxy that there is in `p₀` concerns none for the id
  have hbefore (letter : Letter β) (hknown : (p₀.node s).Known letter) :
      (p.node s).isProxyOf id letter.1.proxy = false := by
    obtain ⟨remote, hremote⟩ := hknown
    by_contra hC
    have hlater : (p.node s).proxies.lookup letter.1.proxy = some remote :=
      hrun.invariant (P := fun u => (u.node s).proxies.lookup letter.1.proxy = some remote)
        (fun _ _ _ h _ hstep => lookup_proxies_of_step hstep h) hremote
    have hid := hlasts.proxies _ _ hlater (Bool.not_eq_false _ ▸ hC)
    have hproxy := hnone letter.1.proxy
    rw [Node.isProxyOf, hremote] at hproxy
    exact of_decide_eq_false hproxy hid
  have hsent : (Pair.started setup).sentIn ((p.node s).isProxyOf id) s ls₀ = 0 :=
    lettersTo_eq_zero fun letter hletter => hbefore letter (known_of_run Node.Addressed.letters hrun₀ letter hletter)
  have hfailed : (Pair.started setup).failedIn ((p.node s).isProxyOf id) s ls₀ = 0 :=
    lettersTo_eq_zero fun letter hletter => hbefore letter (known_of_run Node.Addressed.failures hrun₀ letter hletter)
  have hzero : p₀.stock ((p.node s).isProxyOf id) s actor = 0 :=
    stock_eq_zero hrouted₀.2 (hrouted₀.1.piped s) hbefore
  rw [hzero, zero_add] at hstock
  unfold sentIn at hsent ⊢
  unfold failedIn at hfailed ⊢
  rw [hrun₀.trace_append, hrun₀.trace_append, lettersTo_append, lettersTo_append, hsent, hfailed, zero_add, zero_add]
  exact hstock

/-- In the run in which a message is overtaken, both messages are accounted for: they have been delivered. -/
theorem messages_accounted_overtaken : ∃ p₀ p,
    Transition.exec Pair.step (overtaken.take 6) (Pair.started twoSides) = some p₀ ∧
    Transition.exec Pair.step (overtaken.drop 6) p₀ = some p ∧
    (p.node .left).isProxyOf ⟨8⟩ 2 = true ∧ (p.node .right).delivered.map (·.2.letter) = [(⟨2, 1⟩, 20), (⟨2, 0⟩, 10)] ∧
    (∀ d ∈ (p.node .right).delivered, (p.node .left).isProxyOf ⟨8⟩ d.2.tag.proxy = true → d.1 = 0) ∧
    (Pair.started twoSides).sentIn ((p.node .left).isProxyOf ⟨8⟩) .left overtaken =
      p.stock ((p.node .left).isProxyOf ⟨8⟩) .left 0 +
        (Pair.started twoSides).failedIn ((p.node .left).isProxyOf ⟨8⟩) .left overtaken := by
  have heval₀ : (Transition.exec Pair.step (overtaken.take 6) (Pair.started twoSides)).map (fun p₀ =>
      decide ((p₀.node .left).state.channelState = .opened ⟨0x06060606060606060606060606060606⟩ ∧
        (p₀.node .right).state.publishedActors.lookup (⟨8⟩ : OpaqueActorId) = some 0 ∧
        (p₀.node .left).proxies = [])) = some true := by
    decide +kernel
  obtain ⟨p₀, hp₀, hfacts₀⟩ := Option.map_eq_some_iff.mp heval₀
  obtain ⟨hopen, hid, hnone⟩ := of_decide_eq_true hfacts₀
  have heval : (Transition.exec Pair.step overtaken (Pair.started twoSides)).map (fun p =>
      decide (((p.node .left).life = .running ∧ (p.node .right).life = .running ∧ (p.node .left).exited = []) ∧
        (p.node .left).isProxyOf ⟨8⟩ 2 = true ∧
        (p.node .right).delivered.map (·.2.letter) = [(⟨2, 1⟩, 20), (⟨2, 0⟩, 10)])) = some true := by
    decide +kernel
  obtain ⟨p, hp, hfacts⟩ := Option.map_eq_some_iff.mp heval
  obtain ⟨⟨hleft, hright, hkept⟩, hproxy, hdelivered⟩ := of_decide_eq_true hfacts
  have hrun₀ := Transition.run_of_exec hp₀
  have hp' : Transition.exec Pair.step (overtaken.drop 6) p₀ = some p := by
    rw [← hrun₀.exec_append, List.take_append_drop]
    exact hp
  obtain ⟨hrouted, haccounted⟩ := messages_accounted twoSides _ _ p₀ p hrun₀ (Transition.run_of_exec hp') .left _ hopen
    ⟨8⟩ 0 hid
  have hrunning : ∀ t, (p.node t).life = .running := by
    intro t
    cases t with
    | left => exact hleft
    | right => exact hright
  obtain ⟨-, hall⟩ := haccounted hrunning fun proxy _ hgone => by
    rw [hkept] at hgone
    cases hgone
  refine ⟨p₀, p, hp₀, hp', hproxy, hdelivered, hrouted, ?_⟩
  exact hall fun proxy => by
    rw [Node.isProxyOf, hnone]
    rfl

end Pair

end Portal
end Wormhole
