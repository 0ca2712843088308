import Wormhole.Portal.Ordering

/-!
# `Portal.Routing` — whom a message is for

A message keeps the remote id of the proxy that it was sent to, from the channel of the proxy to the frame on
the wire (`Addressed`), and the other portal hands it to the actor that is published under this id, or to
nobody (`Routed`).
-/

namespace Wormhole
namespace Portal

variable {β : Type}

/-! ## The sender -/

/-- The message that the portal is asked to serialize or to transmit, and for whom. -/
def PortalActorMessage.addressed? : PortalActorMessage β → Option (Tag × RemoteActorId)
  | .immaterializeMessage target msg => some (msg.tag, target)
  | .transmitMessage target bytes => some (bytes.tag, target)
  | _ => none

/-- Every message is for the remote actor of its proxy. -/
structure Node.Addressed (n : Node β) : Prop where
  rebuilt : ∀ e ∈ n.rebuiltPorts, ∃ remote, n.proxies.lookup e.2 = some remote
  inbox : ∀ e ∈ n.inbox, ∃ remote, n.proxies.lookup e.1 = some remote
  channel : ∀ e ∈ n.channel, ∃ remote, n.proxies.lookup e.1 = some remote
  mailbox : ∀ m ∈ n.mailbox, ∀ e ∈ m.addressed?, n.proxies.lookup e.1.proxy = some e.2
  tasks : ∀ e ∈ n.tasks, n.proxies.lookup e.1.proxy = some e.2.target
  sent : ∀ target data, .content (some (.sendMessage target data)) ∈ n.sent →
    n.proxies.lookup data.tag.proxy = some target

section

variable {n n' : Node β} {l : Label β}

namespace Node

/-- Proxies are created one by one. -/
theorem proxies_grow (h : step l n = some n') :
    n'.proxies = n.proxies ∨ ∃ remote, n'.proxies = n.proxies ++ [(n.nextActor, remote)] := by
  cases hl : l.isPump with
  | false =>
    cases l with
    | instantiate remote =>
      obtain rfl := instantiate_inv h
      exact .inr ⟨remote, rfl⟩
    | rebuildRef =>
      obtain ⟨r, ref, todo, -, -, rfl⟩ := rebuildRef_inv h
      exact .inr ⟨ref.id, (n.rebuild_fields r ref todo).1⟩
    | _ => exact .inl ((quiet_of_step hl h).proxies (by simp) (by simp))
  | true =>
    cases l with
    | recv frame =>
      obtain ⟨-, rfl⟩ := recv_inv h
      obtain _ | _ | _ | _ := frame <;> exact .inl rfl
    | handle uuid nexus sink =>
      obtain ⟨-, m, rest, -, rfl⟩ := handle_inv h
      cases (Portal.handle (n.env uuid nexus sink) n.state m).outcome <;> exact .inl rfl
    | rebuildDone =>
      obtain ⟨r, -, -, rfl⟩ := rebuildDone_inv h
      obtain ⟨error, heq⟩ | ⟨body, -, -, heq⟩ := n.deliver_cases r <;> rw [heq] <;> exact .inl rfl
    | _ => cases hl

/-- A proxy stays the proxy of its remote actor. -/
theorem lookup_proxies_of_step (h : step l n = some n') {proxy : ActorId} {remote : RemoteActorId}
    (hproxy : n.proxies.lookup proxy = some remote) : n'.proxies.lookup proxy = some remote := by
  obtain heq | ⟨_, heq⟩ := proxies_grow h
  · rw [heq, hproxy]
  · rw [heq, List.lookup_append, hproxy]
    rfl

/-- **Where a task comes from.** It was there, and stands for the same message, or it has just been started
    for a message that the portal was asked to serialize. -/
theorem task_of_step (h : step l n = some n') {e : Tag × Immaterialization β} (he : e ∈ n'.tasks) :
    (∃ t, (e.1, t) ∈ n.tasks ∧ t.target = e.2.target ∧ t.body = e.2.body) ∨
      ∃ target msg, .immaterializeMessage target msg ∈ n.mailbox ∧ e = immaterialization target msg := by
  have hsame (htasks : n'.tasks = n.tasks) : ∃ t, (e.1, t) ∈ n.tasks ∧ t.target = e.2.target ∧ t.body = e.2.body :=
    ⟨e.2, htasks ▸ he, rfl, rfl⟩
  have hrest {tag : Tag} {t : Immaterialization β} {rest : Queues Tag (Immaterialization β)}
      (hdequeue : n.tasks.dequeue tag = some (t, rest)) (hmem : e ∈ rest) :
      ∃ t, (e.1, t) ∈ n.tasks ∧ t.target = e.2.target ∧ t.body = e.2.body :=
    ⟨e.2, (Queues.perm_of_dequeue hdequeue).mem_iff.mpr (List.mem_cons_of_mem _ hmem), rfl, rfl⟩
  have hmoved {tag : Tag} {t : Immaterialization β} (t' : Immaterialization β) {rest : Queues Tag (Immaterialization β)}
      (hdequeue : n.tasks.dequeue tag = some (t, rest)) (htarget : t.target = t'.target) (hbody : t.body = t'.body)
      (hmem : e ∈ rest ++ [(tag, t')]) : ∃ t, (e.1, t) ∈ n.tasks ∧ t.target = e.2.target ∧ t.body = e.2.body := by
    obtain hold | hnew := List.mem_append.mp hmem
    · exact hrest hdequeue hold
    · obtain rfl := List.mem_singleton.mp hnew
      exact ⟨t, (Queues.perm_of_dequeue hdequeue).mem_iff.mpr List.mem_cons_self, htarget, hbody⟩
  cases hpump : l.isPump with
  | false =>
    refine .inl ?_
    cases htask : l.isTask with
    | false => exact hsame ((quiet_of_step hpump h).tasks htask)
    | true =>
      cases l with
      | taskPublish tag =>
        obtain ⟨t, rest, ref, todo, hdequeue, -, -, -, rfl⟩ := taskPublish_inv h
        cases ref <;> exact hmoved { t with asked := some n.nextPort } hdequeue rfl rfl he
      | taskPublished tag =>
        obtain ⟨t, rest, port, id, ref, todo, hdequeue, -, -, -, rfl⟩ := taskPublished_inv h
        exact hmoved { t with todo, done := t.done ++ [n.serialize id ref], asked := none } hdequeue rfl rfl he
      | taskFail tag =>
        obtain ⟨t, rest, hdequeue, rfl⟩ := taskFail_inv h
        exact hrest hdequeue he
      | taskPost tag =>
        obtain ⟨t, rest, hdequeue, -, rfl⟩ := taskPost_inv h
        exact hrest hdequeue he
      | _ => cases htask
  | true =>
    cases l with
    | recv frame =>
      obtain ⟨-, rfl⟩ := recv_inv h
      obtain _ | _ | _ | _ := frame <;> exact .inl (hsame rfl)
    | handle uuid nexus sink =>
      obtain ⟨-, m, rest, hmail, rfl⟩ := handle_inv h
      have he : e ∈ n.tasks ++ (Portal.handle (n.env uuid nexus sink) n.state m).spawned.map fun s =>
          immaterialization s.1 s.2 := by
        cases hout : (Portal.handle (n.env uuid nexus sink) n.state m).outcome <;> rw [hout] at he <;> exact he
      obtain hold | hnew := List.mem_append.mp he
      · exact .inl ⟨e.2, hold, rfl, rfl⟩
      · obtain hnone | ⟨target, msg, rfl, hspawned⟩ := handle_spawned (n.env uuid nexus sink) n.state m
        · rw [hnone] at hnew
          cases hnew
        · rw [hspawned] at hnew
          exact .inr ⟨target, msg, hmail ▸ List.mem_cons_self, List.mem_singleton.mp hnew⟩
    | rebuildDone =>
      obtain ⟨r, -, -, rfl⟩ := rebuildDone_inv h
      obtain ⟨error, heq⟩ | ⟨body, -, -, heq⟩ := n.deliver_cases r <;> exact .inl (hsame (by rw [heq]; rfl))
    | _ => cases hpump

/-- **Where a message on the wire comes from.** It was there, or the portal was asked to transmit it. -/
theorem frame_of_step (h : step l n = some n') {target : RemoteActorId} {data : Payload β}
    (hframe : .content (some (.sendMessage target data)) ∈ n'.sent) :
    .content (some (.sendMessage target data)) ∈ n.sent ∨ .transmitMessage target data ∈ n.mailbox := by
  obtain hidle | ⟨uuid, nexus, sink, m, rest, -, -, hmail, hturned⟩ := idle_or_turned h
  · rw [hidle.sent] at hframe
    exact .inl hframe
  · rw [hturned.sent] at hframe
    refine (List.mem_append.mp hframe).imp_right fun hnew => ?_
    obtain ⟨msg, hmsg, heq⟩ := List.mem_map.mp hnew
    cases heq
    cases handle_causes (mem_frames hmsg) with
    | transmit channel => exact hmail ▸ List.mem_cons_self

/-- **Where a message in the mailbox comes from**, if it is on its way to the wire. -/
theorem mail_of_step (h : step l n = some n') {m : PortalActorMessage β} (hm : m ∈ n'.mailbox)
    (haddressed : m.addressed? ≠ none) : m ∈ n.mailbox ∨
      (∃ proxy msg rest remote, l = .forward proxy ∧ n.channel.dequeue proxy = some (msg, rest) ∧
        n.proxies.lookup proxy = some remote ∧ m = .immaterializeMessage remote msg) ∨
      ∃ tag t rest, l = .taskPost tag ∧ n.tasks.dequeue tag = some (t, rest) ∧ t.todo = [] ∧
        m = .transmitMessage t.target { tag, refs := t.done, body := some t.body } := by
  obtain hold | hposts | ⟨frame, -, rfl⟩ := mem_mailbox_of_step h hm
  · exact .inl hold
  · cases l with
    | forward proxy =>
      obtain ⟨msg, rest, remote, hdequeue, hremote, rfl⟩ := forward_inv h
      refine (mem_mailbox_post hm).imp_right fun heq => .inl ?_
      exact ⟨proxy, msg, rest, remote, rfl, hdequeue, hremote, heq⟩
    | taskPost tag =>
      obtain ⟨t, rest, hdequeue, htodo, rfl⟩ := taskPost_inv h
      refine (mem_mailbox_post hm).imp_right fun heq => .inr ?_
      exact ⟨tag, t, rest, rfl, hdequeue, htodo, heq⟩
    | _ =>
      cases m with
      | immaterializeMessage => cases hposts
      | transmitMessage => cases hposts
      | _ => exact absurd rfl haddressed
  · obtain _ | _ | _ | _ := frame <;> exact absurd rfl haddressed

/-- **Where a message in the mailbox of a proxy comes from.** It was there, or it has just been sent to the
    proxy, by local code or by what waits for a rebuilt port. -/
theorem inbox_of_step (h : step l n = some n') {e : ActorId × Msg β} (he : e ∈ n'.inbox) :
    e ∈ n.inbox ∨ e.2.tag = ⟨e.1, n.nextMsg⟩ ∧
      (l = .sendTo e.1 e.2.body e.2.refs ∧ e.1 ∈ n.proxies.map Prod.fst ∨
        ∃ port rest, l = .forwardReply port ∧ n.rebuiltPorts.dequeue port = some (e.1, rest) ∧
          n.rpcReply port = some (e.2.body, e.2.refs)) := by
  cases hpump : l.isPump with
  | false =>
    have hq := quiet_of_step hpump h
    cases hflow : l.isFlow with
    | false => exact .inl ((hq.flow hflow).inbox.subset he)
    | true =>
      cases l with
      | sendTo proxy body refs =>
        obtain ⟨⟨hproxy, -, -⟩, rfl⟩ := sendTo_inv h
        refine (List.mem_append.mp he).imp_right fun hnew => ?_
        obtain rfl := List.mem_singleton.mp hnew
        exact ⟨rfl, .inl ⟨rfl, hproxy⟩⟩
      | forwardReply port =>
        obtain ⟨proxy, rest, body, refs, hdequeue, hreply, ⟨-, rfl⟩ | ⟨-, rfl⟩⟩ := forwardReply_inv h
        · exact .inl he
        · refine (List.mem_append.mp he).imp_right fun hnew => ?_
          obtain rfl := List.mem_singleton.mp hnew
          exact ⟨rfl, .inr ⟨port, rest, rfl, hdequeue, hreply⟩⟩
      | relay proxy =>
        obtain ⟨msg, rest, hdequeue, rfl⟩ := relay_inv h
        exact .inl ((Queues.perm_of_dequeue hdequeue).mem_iff.mpr (List.mem_cons_of_mem _ he))
      | forward proxy =>
        obtain ⟨msg, rest, remote, -, -, rfl⟩ := forward_inv h
        exact .inl he
      | taskPublish tag =>
        obtain ⟨t, rest, ref, todo, -, -, -, -, rfl⟩ := taskPublish_inv h
        cases ref <;> exact .inl he
      | taskPublished tag =>
        obtain ⟨t, rest, port, id, ref, todo, -, -, -, -, rfl⟩ := taskPublished_inv h
        exact .inl he
      | taskFail tag =>
        obtain ⟨t, rest, -, rfl⟩ := taskFail_inv h
        exact .inl he
      | taskPost tag =>
        obtain ⟨t, rest, -, -, rfl⟩ := taskPost_inv h
        exact .inl he
      | _ => cases hflow
  | true =>
    cases l with
    | recv frame =>
      obtain ⟨-, rfl⟩ := recv_inv h
      obtain _ | _ | _ | _ := frame <;> exact .inl he
    | handle uuid nexus sink =>
      obtain ⟨-, m, rest, -, rfl⟩ := handle_inv h
      refine .inl ?_
      cases hout : (Portal.handle (n.env uuid nexus sink) n.state m).outcome <;> rw [hout] at he
      · exact List.mem_of_mem_filter he
      · exact List.mem_of_mem_filter (List.mem_of_mem_filter he)
      · exact List.mem_of_mem_filter (List.mem_of_mem_filter he)
      · exact List.mem_of_mem_filter he
    | rebuildDone =>
      obtain ⟨r, -, -, rfl⟩ := rebuildDone_inv h
      obtain ⟨error, heq⟩ | ⟨body, -, -, heq⟩ := n.deliver_cases r <;> rw [heq] at he
      · exact .inl (List.mem_of_mem_filter he)
      · exact .inl he
    | _ => cases hpump

/-- A message in the channel of a proxy was there, or in the mailbox of the proxy. -/
theorem channel_of_step (h : step l n = some n') {e : ActorId × Msg β} (he : e ∈ n'.channel) :
    e ∈ n.channel ∨ e ∈ n.inbox := by
  cases hpump : l.isPump with
  | false =>
    cases l with
    | relay proxy =>
      obtain ⟨msg, rest, hdequeue, rfl⟩ := relay_inv h
      refine (List.mem_append.mp he).imp_right fun hnew => ?_
      rw [List.mem_singleton.mp hnew]
      exact (Queues.perm_of_dequeue hdequeue).mem_iff.mpr List.mem_cons_self
    | forward proxy =>
      obtain ⟨msg, rest, remote, hdequeue, -, rfl⟩ := forward_inv h
      exact .inl ((Queues.perm_of_dequeue hdequeue).mem_iff.mpr (List.mem_cons_of_mem _ he))
    | sendTo proxy body refs =>
      obtain ⟨-, rfl⟩ := sendTo_inv h
      exact .inl he
    | forwardReply port =>
      obtain ⟨proxy, rest, body, refs, -, -, ⟨-, rfl⟩ | ⟨-, rfl⟩⟩ := forwardReply_inv h <;> exact .inl he
    | taskPublish tag =>
      obtain ⟨t, rest, ref, todo, -, -, -, -, rfl⟩ := taskPublish_inv h
      cases ref <;> exact .inl he
    | taskPublished tag =>
      obtain ⟨t, rest, port, id, ref, todo, -, -, -, -, rfl⟩ := taskPublished_inv h
      exact .inl he
    | taskFail tag =>
      obtain ⟨t, rest, -, rfl⟩ := taskFail_inv h
      exact .inl he
    | taskPost tag =>
      obtain ⟨t, rest, -, -, rfl⟩ := taskPost_inv h
      exact .inl he
    | _ =>
      have hchannel := ((quiet_of_step hpump h).flow rfl).channel
      exact .inl (hchannel ▸ he)
  | true =>
    cases l with
    | recv frame =>
      obtain ⟨-, rfl⟩ := recv_inv h
      obtain _ | _ | _ | _ := frame <;> exact .inl he
    | handle uuid nexus sink =>
      obtain ⟨-, m, rest, -, rfl⟩ := handle_inv h
      cases hout : (Portal.handle (n.env uuid nexus sink) n.state m).outcome <;> rw [hout] at he <;> exact .inl he
    | rebuildDone =>
      obtain ⟨r, -, -, rfl⟩ := rebuildDone_inv h
      obtain ⟨error, heq⟩ | ⟨body, -, -, heq⟩ := n.deliver_cases r <;> rw [heq] at he <;> exact .inl he
    | _ => cases hpump

/-- A port that waits to be forwarded did so before, or has just been built, on a new proxy. -/
theorem rebuiltPorts_of_step (h : step l n = some n') {e : PortId × ActorId} (he : e ∈ n'.rebuiltPorts) :
    e ∈ n.rebuiltPorts ∨ ∃ r timeoutMs id todo, l = .rebuildRef ∧ n.rebuilding = some r ∧
      r.todo = .replyPort timeoutMs id :: todo ∧ e = (n.nextPort, n.nextActor) := by
  cases hpump : l.isPump with
  | false =>
    cases l with
    | rebuildRef =>
      obtain ⟨r, ref, todo, hr, htodo, rfl⟩ := rebuildRef_inv h
      cases ref with
      | actorRef id => exact .inl he
      | replyPort timeoutMs id =>
        refine (List.mem_append.mp he).imp_right fun hnew => ?_
        exact ⟨r, timeoutMs, id, todo, rfl, hr, htodo, List.mem_singleton.mp hnew⟩
    | forwardReply port =>
      obtain ⟨proxy, rest, body, refs, hdequeue, -, ⟨-, rfl⟩ | ⟨-, rfl⟩⟩ := forwardReply_inv h <;>
        exact .inl ((Queues.perm_of_dequeue hdequeue).mem_iff.mpr (List.mem_cons_of_mem _ he))
    | _ => exact .inl ((quiet_of_step hpump h).rebuiltPorts (by simp) (by simp) ▸ he)
  | true =>
    cases l with
    | recv frame =>
      obtain ⟨-, rfl⟩ := recv_inv h
      obtain _ | _ | _ | _ := frame <;> exact .inl he
    | handle uuid nexus sink =>
      obtain ⟨-, m, rest, -, rfl⟩ := handle_inv h
      cases hout : (Portal.handle (n.env uuid nexus sink) n.state m).outcome <;> rw [hout] at he <;> exact .inl he
    | rebuildDone =>
      obtain ⟨r, -, -, rfl⟩ := rebuildDone_inv h
      obtain ⟨error, heq⟩ | ⟨body, -, -, heq⟩ := n.deliver_cases r <;> rw [heq] at he <;> exact .inl he
    | _ => cases hpump

theorem lookup_of_mem_proxies {proxies : List (ActorId × RemoteActorId)} {proxy : ActorId}
    (h : proxy ∈ proxies.map Prod.fst) : ∃ remote, proxies.lookup proxy = some remote := by
  cases hlook : proxies.lookup proxy with
  | some remote => exact ⟨remote, rfl⟩
  | none =>
    obtain ⟨e, he, rfl⟩ := List.mem_map.mp h
    exact absurd (List.lookup_eq_none_iff.mp hlook e he) (by simp)

theorem Addressed.step (h : n.Addressed) (hpiped : Piped n) (hstep : Node.step l n = some n') : n'.Addressed := by
  have hproxies (e : Tag × RemoteActorId) (he : n.proxies.lookup e.1.proxy = some e.2) :
      n'.proxies.lookup e.1.proxy = some e.2 := lookup_proxies_of_step hstep he
  have hknown {proxy : ActorId} (hproxy : ∃ remote, n.proxies.lookup proxy = some remote) :
      ∃ remote, n'.proxies.lookup proxy = some remote :=
    hproxy.imp fun _ hremote => lookup_proxies_of_step hstep hremote
  refine ⟨fun e he => ?_, fun e he => ?_, fun e he => hknown ?_, fun m hm e he => hproxies e ?_,
    fun e he => hproxies (e.1, e.2.target) ?_, fun target data hframe => hproxies (data.tag, target) ?_⟩
  · obtain hold | ⟨r, timeoutMs, id, todo, rfl, hr, htodo, rfl⟩ := rebuiltPorts_of_step hstep he
    · exact hknown (h.rebuilt e hold)
    · apply lookup_of_mem_proxies
      obtain ⟨r', ref, todo', -, -, rfl⟩ := rebuildRef_inv hstep
      rw [(n.rebuild_fields r' ref todo').1, List.map_append]
      exact List.mem_append_right _ (List.mem_singleton_self _)
  · obtain hold | ⟨-, ⟨-, hproxy⟩ | ⟨port, rest, -, hdequeue, -⟩⟩ := inbox_of_step hstep he
    · exact hknown (h.inbox e hold)
    · exact hknown (lookup_of_mem_proxies hproxy)
    · exact hknown (h.rebuilt _ ((Queues.perm_of_dequeue hdequeue).mem_iff.mpr List.mem_cons_self))
  · obtain hold | hinbox := channel_of_step hstep he
    · exact h.channel e hold
    · exact h.inbox e hinbox
  · obtain hold | ⟨proxy, msg, rest, remote, rfl, hdequeue, hremote, rfl⟩ | ⟨tag, t, rest, rfl, hdequeue, -, rfl⟩ :=
      mail_of_step hstep hm fun hnone => by rw [hnone] at he; cases he
    · exact h.mailbox m hold e he
    · cases he
      rw [(tags_of_dequeue hpiped.channel hdequeue).1]
      exact hremote
    · cases he
      exact h.tasks _ ((Queues.perm_of_dequeue hdequeue).mem_iff.mpr List.mem_cons_self)
  · obtain ⟨t, ht, htarget, -⟩ | ⟨target, msg, hm, rfl⟩ := task_of_step hstep he
    · rw [← htarget]
      exact h.tasks _ ht
    · exact h.mailbox _ hm _ rfl
  · obtain hold | hm := frame_of_step hstep hframe
    · exact h.sent target data hold
    · exact h.mailbox _ hm _ rfl

/-- **Where a message in the hands of the handler comes from.** It was there, perhaps with one more reference to
    rebuild, or it has just been taken from the mailbox, for the actor that is published under its target. -/
theorem rebuilding_of_step (h : step l n = some n') {r : Rebuilding β} (hr : r ∈ n'.rebuilding) :
    r ∈ n.rebuilding ∨ (∃ r₀ ref, l = .rebuildRef ∧ n.rebuilding = some r₀ ∧ r₀.todo = ref :: r.todo ∧
      r₀.actor = r.actor ∧ r₀.tag = r.tag ∧ r₀.body = r.body ∧ n' = n.rebuild r₀ ref r.todo) ∨
      ∃ uuid nexus sink target data, l = .handle uuid nexus sink ∧
        .content (some (.sendMessage target data)) ∈ n.mailbox ∧
        n.state.publishedActors.lookup target.id = some r.actor ∧
        r = { actor := r.actor, tag := data.tag, todo := data.refs, done := [], body := data.body } := by
  have hsame (heq : n'.rebuilding = n.rebuilding) : r ∈ n.rebuilding := heq ▸ hr
  cases hpump : l.isPump with
  | false =>
    by_cases href : l = .rebuildRef
    · subst href
      obtain ⟨r₀, ref, todo, hr₀, htodo, rfl⟩ := rebuildRef_inv h
      obtain ⟨done, hdone⟩ := n.rebuild_rebuilding r₀ ref todo
      rw [hdone] at hr
      cases hr
      exact .inr (.inl ⟨r₀, ref, rfl, hr₀, htodo, rfl, rfl, rfl, rfl⟩)
    · exact .inl <| hsame ((quiet_of_step hpump h).rebuilding href)
  | true =>
    cases l with
    | recv frame =>
      obtain ⟨-, rfl⟩ := recv_inv h
      obtain _ | _ | _ | _ := frame <;> exact .inl (hsame rfl)
    | handle uuid nexus sink =>
      obtain ⟨⟨-, hidle, -⟩, m, rest, hmail, rfl⟩ := handle_inv h
      have hends := handle_ends (n.env uuid nexus sink) n.state m
      generalize (Portal.handle (n.env uuid nexus sink) n.state m).outcome = outcome at hends hr
      cases hends with
      | rematerialize channel target actor data hopen hlook =>
        cases hr
        exact .inr (.inr ⟨uuid, nexus, sink, target, data, rfl, hmail ▸ List.mem_cons_self, hlook, rfl⟩)
      | ok => exact absurd (hidle.symm.trans hr) nofun
      | _ => cases hr
    | rebuildDone =>
      obtain ⟨r₀, -, -, rfl⟩ := rebuildDone_inv h
      obtain ⟨error, heq⟩ | ⟨body, -, -, heq⟩ := n.deliver_cases r₀ <;> rw [heq] at hr <;> cases hr
    | _ => cases hpump

end Node

end

/-! ## The receiver -/

/-- A payload that is handled, or has been delivered. -/
structure Pair.Routed (p : Pair β) (s : Side) : Prop where
  addressed : (p.node s).Addressed
  mailbox : ∀ target data, .content (some (.sendMessage target data)) ∈ (p.node s.other).mailbox →
    (p.node s).proxies.lookup data.tag.proxy = some target
  rebuilding : ∀ r ∈ (p.node s.other).rebuilding, ∃ target,
    (p.node s).proxies.lookup r.tag.proxy = some target ∧
      (p.node s.other).state.publishedActors.lookup target.id = some r.actor
  delivered : ∀ d ∈ (p.node s.other).delivered, ∃ target,
    (p.node s).proxies.lookup d.2.tag.proxy = some target ∧
      (p.node s.other).state.publishedActors.lookup target.id = some d.1

namespace Pair

theorem routed_started (setup : Side → Setup) (s : Side) : (Pair.started (β := β) setup).Routed s where
  addressed := ⟨nofun, nofun, nofun, nofun, nofun, fun target data h => by
    obtain h := List.mem_singleton.mp h
    cases h⟩
  mailbox := nofun
  rebuilding := nofun
  delivered := nofun

variable {p q : Pair β} {s : Side}

/-- The sender moves. -/
theorem Routed.send (h : p.Routed s) (hpiped : Piped (p.node s)) {l : Label β}
    (hstep : Node.step l (p.node s) = some (q.node s)) (hother : q.node s.other = p.node s.other) :
    q.Routed s := by
  have hproxies {proxy : ActorId} {remote : RemoteActorId}
      (hproxy : (p.node s).proxies.lookup proxy = some remote) : (q.node s).proxies.lookup proxy = some remote :=
    Node.lookup_proxies_of_step hstep hproxy
  refine ⟨h.addressed.step hpiped hstep, ?_, ?_, ?_⟩
  · rw [hother]
    exact fun target data hm => hproxies (h.mailbox target data hm)
  · rw [hother]
    exact fun r hr => (h.rebuilding r hr).imp fun target hr => ⟨hproxies hr.1, hr.2⟩
  · rw [hother]
    exact fun d hd => (h.delivered d hd).imp fun target hd => ⟨hproxies hd.1, hd.2⟩

/-- The receiver moves. -/
theorem Routed.receive (h : p.Routed s) {l : Label β}
    (hstep : Node.step l (p.node s.other) = some (q.node s.other)) (hsame : q.node s = p.node s)
    (hrecv : ∀ frame, l = .recv (some frame) → frame ∈ (p.node s).sent) : q.Routed s := by
  have hpublished {id : OpaqueActorId} {actor : ActorId}
      (hid : (p.node s.other).state.publishedActors.lookup id = some actor) :
      (q.node s.other).state.publishedActors.lookup id = some actor :=
    Node.lookup_published_of_step hstep hid
  refine ⟨?_, ?_, ?_, ?_⟩
  · rw [hsame]
    exact h.addressed
  · rw [hsame]
    intro target data hm
    obtain hold | hposts | ⟨frame, rfl, heq⟩ := Node.mem_mailbox_of_step hstep hm
    · exact h.mailbox target data hold
    · cases l <;> cases hposts
    · obtain _ | _ | _ | _ := frame <;> cases heq
      exact h.addressed.sent target data (hrecv _ rfl)
  · rw [hsame]
    intro r hr
    obtain hold | ⟨r₀, ref, -, hr₀, -, hactor, htag, -⟩ | ⟨_, _, _, target, data, -, hm, hactor, heq⟩ :=
      Node.rebuilding_of_step hstep hr
    · exact (h.rebuilding r hold).imp fun target hr => ⟨hr.1, hpublished hr.2⟩
    · rw [← htag, ← hactor]
      exact (h.rebuilding r₀ hr₀).imp fun target hr => ⟨hr.1, hpublished hr.2⟩
    · refine ⟨target, ?_, hpublished hactor⟩
      rw [heq]
      exact h.mailbox target data hm
  · rw [hsame]
    intro d hd
    obtain heq | ⟨r, body, -, hr, -, -, heq⟩ := Node.delivered_of_step hstep
    · rw [heq] at hd
      exact (h.delivered d hd).imp fun target hd => ⟨hd.1, hpublished hd.2⟩
    · rw [heq] at hd
      obtain hold | hnew := List.mem_append.mp hd
      · exact (h.delivered d hold).imp fun target hd => ⟨hd.1, hpublished hd.2⟩
      · obtain rfl := List.mem_singleton.mp hnew
        exact (h.rebuilding r hr).imp fun target hr => ⟨hr.1, hpublished hr.2⟩

/-- **Every step.** -/
theorem Routed.step {l : PairLabel β} (h : p.Routed s) (hpiped : Piped (p.node s))
    (hstep : Pair.step l p = some q) : q.Routed s := by
  obtain ⟨t, label, hnode, hother, -, hrecv⟩ := Pair.step_inv hstep
  obtain rfl | rfl := s.eq_or_other t
  · exact h.send hpiped hnode hother
  · rw [Side.other_other] at hother hrecv
    refine h.receive hnode hother ?_
    rintro frame rfl
    obtain ⟨frame', heq, hframe, -⟩ | ⟨-, hne⟩ := hrecv
    · cases heq
      exact List.mem_of_getElem? hframe
    · exact absurd rfl (hne frame)

/-- **Who gets a message**: the actor that is published under the id of the proxy it was sent to. -/
theorem Routed.receiver (h : p.Routed s) {actor : ActorId} {msg : Msg β} {remote : RemoteActorId}
    (hmsg : (actor, msg) ∈ (p.node s.other).delivered)
    (hproxy : (p.node s).proxies.lookup msg.tag.proxy = some remote) :
    (p.node s.other).state.publishedActors.lookup remote.id = some actor := by
  obtain ⟨target, htarget, hactor⟩ := h.delivered _ hmsg
  obtain rfl := Option.some.inj (hproxy.symm.trans htarget)
  exact hactor

end Pair

end Portal
end Wormhole
