import Wormhole.Portal.Ports
import Wormhole.Portal.Registry
import Wormhole.Portal.Routing

/-!
# `Portal.Serializing` — what the references of a message are serialized to

The task of a message replaces its references one by one, each by the id under which the portal has published
the actor that stands for it: the actor itself, or the `RpcProxyActor` that is started for a reply port. So
every message on the wire is, reference by reference, one that the portal was given (`Serializes`).
-/

namespace Wormhole
namespace Portal

variable {β : Type}

namespace Node

/-! ## A reference on its way -/

/-- The actor that is published for a reference. -/
def Stands (n : Node β) : LocalRef → ActorId → Prop
  | .actorRef actor, actor' => actor' = actor
  | .replyPort _ port, actor => (actor, port) ∈ n.rpcProxies

/-- A reference, and what it is serialized to. -/
inductive Serialized (n : Node β) : LocalRef → RemoteRef → Prop where
  | actorRef {actor : ActorId} {id : RemoteActorId} (hid : n.state.Denotes id actor) :
      Serialized n (.actorRef actor) (.actorRef id)
  | replyPort {timeout : Option Duration} {port : PortId} {actor : ActorId} {id : RemoteActorId}
      (hactor : (actor, port) ∈ n.rpcProxies) (hid : n.state.Denotes id actor) :
      Serialized n (.replyPort timeout port)
        (.replyPort (some (timeout.getD n.state.args.defaultRpcPortTimeout / 10 ^ 6)) id)

/-- What is answered on the port is the id of the actor. -/
structure AskedFor (n : Node β) (port : PortId) (actor : ActorId) : Prop where
  drawn : port < n.nextPort
  mailbox : ∀ b, .publishActor b (some port) ∈ n.mailbox → b = actor
  replies : ∀ id, (port, .published id) ∈ n.replies → n.state.Denotes id actor

/-- The portal has been given the message to serialize. -/
def Given (n : Node β) (target : RemoteActorId) (msg : Msg β) : Prop := .immaterializeMessage target msg ∈ n.handled

/-- A task, the message that it serializes, and the references that it is done with. -/
structure Serializing (n : Node β) (tag : Tag) (t : Immaterialization β) (msg : Msg β) (front : List LocalRef) :
    Prop where
  given : n.Given t.target msg
  tag : msg.tag = tag
  body : t.body = msg.body
  refs : msg.refs = front ++ t.todo
  done : List.Forall₂ n.Serialized front t.done
  asked : ∀ port ∈ t.asked, ∀ ref ∈ t.todo.head?, ∃ actor, n.Stands ref actor ∧ n.AskedFor port actor

/-- The data of a message that the portal was given. -/
def Serializes (n : Node β) (target : RemoteActorId) (data : Payload β) : Prop :=
  ∃ msg, n.Given target msg ∧ msg.tag = data.tag ∧ data.body = some msg.body ∧
    List.Forall₂ n.Serialized msg.refs data.refs

/-- All tasks, and all that they have posted. -/
structure Serializer (n : Node β) : Prop where
  tasks : ∀ e ∈ n.tasks, ∃ msg front, n.Serializing e.1 e.2 msg front
  mailbox : ∀ target data, .transmitMessage target data ∈ n.mailbox → n.Serializes target data
  sent : ∀ target data, .content (some (.sendMessage target data)) ∈ n.sent → n.Serializes target data

section

variable {n n' : Node β} {l : Label β}

/-! ## What a step keeps -/

theorem args_of_step (hstep : step l n = some n') : n'.state.args = n.state.args := by
  obtain hidle | ⟨uuid, nexus, sink, m, rest, -, -, -, hturned⟩ := idle_or_turned hstep
  · rw [hidle.state]
  · rw [hturned.state, handle_args]

theorem rpcProxies_subset_of_step (hstep : step l n = some n') : n.rpcProxies ⊆ n'.rpcProxies := by
  obtain hsame | ⟨tag, t, rest, timeout, port, todo, -, -, -, -, rfl⟩ := rpcProxies_of_step hstep
  · rw [hsame]
    exact List.Subset.refl _
  · exact List.subset_append_left _ _

/-- **Where a message that was handled comes from.** -/
theorem handled_of_step (hstep : step l n = some n') {m : PortalActorMessage β} (hm : m ∈ n'.handled) :
    m ∈ n.handled ∨ m ∈ n.mailbox := by
  obtain hidle | ⟨uuid, nexus, sink, m', rest, -, -, hmail, hturned⟩ := idle_or_turned hstep
  · exact .inl (hidle.handled ▸ hm)
  · rw [hturned.handled] at hm
    refine (List.mem_append.mp hm).imp_right fun hnew => ?_
    rw [hmail, List.mem_singleton.mp hnew]
    exact List.mem_cons_self

theorem handled_subset_of_step (hstep : step l n = some n') : n.handled ⊆ n'.handled := by
  obtain hidle | ⟨uuid, nexus, sink, m', rest, -, -, -, hturned⟩ := idle_or_turned hstep
  · rw [hidle.handled]
    exact List.Subset.refl _
  · rw [hturned.handled]
    exact List.subset_append_left _ _

theorem Given.step {target : RemoteActorId} {msg : Msg β} (h : n.Given target msg) (hstep : Node.step l n = some n') :
    n'.Given target msg := handled_subset_of_step hstep h

theorem Stands.step {ref : LocalRef} {actor : ActorId} (h : n.Stands ref actor) (hstep : Node.step l n = some n') :
    n'.Stands ref actor := by
  cases ref with
  | actorRef b => exact h
  | replyPort timeout port => exact rpcProxies_subset_of_step hstep h

theorem Serialized.step {ref : LocalRef} {remote : RemoteRef} (h : n.Serialized ref remote)
    (hstep : Node.step l n = some n') : n'.Serialized ref remote := by
  cases h with
  | actorRef hid => exact .actorRef (denotes_of_step hstep hid)
  | replyPort hactor hid =>
    rw [← args_of_step hstep]
    exact .replyPort (rpcProxies_subset_of_step hstep hactor) (denotes_of_step hstep hid)

theorem Serialized.all_step {refs : List LocalRef} {remotes : List RemoteRef}
    (h : List.Forall₂ n.Serialized refs remotes) (hstep : Node.step l n = some n') :
    List.Forall₂ n'.Serialized refs remotes :=
  h.imp fun _ _ hserialized => hserialized.step hstep

theorem Serializes.step {target : RemoteActorId} {data : Payload β} (h : n.Serializes target data)
    (hstep : Node.step l n = some n') : n'.Serializes target data := by
  obtain ⟨msg, hgiven, htag, hbody, hrefs⟩ := h
  exact ⟨msg, hgiven.step hstep, htag, hbody, Serialized.all_step hrefs hstep⟩

/-- Nobody else asks under a number that has been drawn. -/
theorem publishActor_of_step (hstep : step l n = some n') {actor : ActorId} {port : PortId}
    (hm : .publishActor actor (some port) ∈ n'.mailbox) :
    .publishActor actor (some port) ∈ n.mailbox ∨ port = n.nextPort := by
  obtain hold | hposts | ⟨frame, -, heq⟩ := mem_mailbox_of_step hstep hm
  · exact .inl hold
  · cases l with
    | request r =>
      obtain ⟨-, rfl⟩ := request_inv hstep
      refine (mem_mailbox_post hm).imp_right fun heq => ?_
      cases r with
      | publishActor b withReply =>
        cases withReply with
        | true => cases heq; rfl
        | false => cases heq
      | _ => cases heq
    | taskPublish tag =>
      obtain ⟨t, rest, ref, todo, -, -, -, -, rfl⟩ := taskPublish_inv hstep
      cases ref with
      | actorRef b => exact (mem_mailbox_post hm).imp_right fun heq => by cases heq; rfl
      | replyPort timeout p => exact (mem_mailbox_post hm).imp_right fun heq => by cases heq; rfl
    | _ => cases hposts
  · obtain _ | _ | _ | _ := frame <;> cases heq

/-- **What is answered to a `PublishActor`** is the id of its actor. -/
theorem published_of_step (hsound : n.Sound) (hstep : step l n = some n') {port : PortId} {id : RemoteActorId}
    (hr : (port, .published id) ∈ n'.replies) : (port, .published id) ∈ n.replies ∨
      ∃ actor, .publishActor actor (some port) ∈ n.mailbox ∧ n'.state.Denotes id actor := by
  obtain hidle | ⟨uuid, nexus, sink, m, rest, -, ⟨-, -, huuid, -⟩, hmail, hturned⟩ := idle_or_turned hstep
  · obtain ⟨added, hreplies, hrpc⟩ := hidle.replies
    rw [hreplies] at hr
    refine (List.mem_append.mp hr).imp_right fun hnew => ?_
    cases hrpc _ hnew
  · rw [hturned.replies] at hr
    refine (List.mem_append.mp hr).imp_right fun hnew => ?_
    have hminted : id ∈ (Portal.handle (n.env uuid nexus sink) n.state m).minted :=
      List.mem_append_right _ (List.mem_flatMap.mpr ⟨_, hnew, List.mem_singleton_self id⟩)
    obtain ⟨actor, hsubject, hdenotes⟩ := handle_denotes hsound.consistent huuid hminted
    rw [← hturned.state] at hdenotes
    refine ⟨actor, ?_, hdenotes⟩
    rw [hmail]
    cases handle_causes (mem_replies hnew) with
    | published channel b opaqueId _ hopen hid =>
      cases hsubject
      exact List.mem_cons_self

theorem AskedFor.step {port : PortId} {actor : ActorId} (h : n.AskedFor port actor) (hsound : n.Sound)
    (hstep : Node.step l n = some n') : n'.AskedFor port actor := by
  refine ⟨Nat.lt_of_lt_of_le h.drawn (nextPort_le_of_step hstep), fun b hm => ?_, fun id hr => ?_⟩
  · obtain hold | hnew := publishActor_of_step hstep hm
    · exact h.mailbox b hold
    · exact absurd hnew (Nat.ne_of_lt h.drawn)
  · obtain hold | ⟨b, hm, hdenotes⟩ := published_of_step hsound hstep hr
    · exact denotes_of_step hstep (h.replies id hold)
    · rw [← h.mailbox b hm]
      exact hdenotes

theorem Serializing.step {tag : Tag} {t : Immaterialization β} {msg : Msg β} {front : List LocalRef}
    (h : n.Serializing tag t msg front) (hsound : n.Sound) (hstep : Node.step l n = some n') :
    n'.Serializing tag t msg front where
  given := h.given.step hstep
  tag := h.tag
  body := h.body
  refs := h.refs
  done := Serialized.all_step h.done hstep
  asked port hport ref href := by
    obtain ⟨actor, hstands, hasked⟩ := h.asked port hport ref href
    exact ⟨actor, hstands.step hstep, hasked.step hsound hstep⟩

/-! ## The tasks -/

/-- Nothing is known of a number that has not been drawn. -/
theorem AskedFor.fresh (h : n.Linear) :
    (∀ b, .publishActor b (some n.nextPort) ∉ n.mailbox) ∧ n.nextPort ∉ n.replies.map Prod.fst := by
  have hnone := h.fresh n.nextPort (Nat.le_refl _)
  unfold uses answers at hnone
  constructor
  · intro b hm
    have hcount : (n.mailbox.flatMap PortalActorMessage.ports).count n.nextPort = 0 := by omega
    exact List.count_eq_zero.mp hcount (List.mem_flatMap.mpr ⟨_, hm, List.mem_singleton_self _⟩)
  · split at hnone
    · rename_i hmem
      have hcount : (n.rpcProxies.map Prod.snd).count n.nextPort = 0 := by omega
      exact absurd hmem (List.count_eq_zero.mp hcount)
    · exact List.count_eq_zero.mp (by omega)

/-- A task asks for the actor that stands for its next reference. -/
theorem Serializing.publish {tag : Tag} {t : Immaterialization β} {rest : Queues Tag (Immaterialization β)}
    {ref : LocalRef} {todo : List LocalRef} {msg : Msg β} {front : List LocalRef} (hlinear : n.Linear)
    (hsound : n.Sound) (hstep : Node.step (.taskPublish tag) n = some (n.askPublish tag t rest ref))
    (h : n.Serializing tag t msg front) (htodo : t.todo = ref :: todo) :
    (n.askPublish tag t rest ref).Serializing tag { t with asked := some n.nextPort } msg front := by
  obtain ⟨hmailbox, hreplies⟩ := AskedFor.fresh hlinear
  have h' := h.step hsound hstep
  have hanswered (id : RemoteActorId) : (n.nextPort, .published id) ∉ n.replies :=
    fun hr => hreplies (List.mem_map_of_mem hr)
  refine ⟨h'.given, h'.tag, h'.body, h'.refs, h'.done, ?_⟩
  rintro port hport ref' href
  cases hport
  obtain rfl : ref = ref' := by
    have href : t.todo.head? = some ref' := href
    rw [htodo] at href
    exact Option.some.inj href
  cases ref with
  | actorRef actor =>
    refine ⟨actor, rfl, Nat.lt_succ_self _, fun b hm => ?_, fun id hr => absurd hr (hanswered id)⟩
    obtain hold | hnew := mem_mailbox_post hm
    · exact absurd hold (hmailbox b)
    · cases hnew
      rfl
  | replyPort timeout p =>
    refine ⟨n.nextActor, List.mem_append_right _ (List.mem_singleton_self _), Nat.lt_succ_self _, fun b hm => ?_,
      fun id hr => absurd hr (hanswered id)⟩
    obtain hold | hnew := mem_mailbox_post hm
    · exact absurd hold (hmailbox b)
    · cases hnew
      rfl

/-- It goes on with the answer. -/
theorem Serializing.published {tag : Tag} {t : Immaterialization β} {ref : LocalRef} {todo : List LocalRef}
    {msg : Msg β} {front : List LocalRef} {port : PortId} {id : RemoteActorId} (h : n.Serializing tag t msg front)
    (hasked : t.asked = some port) (hid : n.publishedAs port = some id) (htodo : t.todo = ref :: todo) :
    n.Serializing tag { t with todo, done := t.done ++ [n.serialize id ref], asked := none } msg (front ++ [ref]) := by
  obtain ⟨actor, hstands, hactor⟩ := h.asked port hasked ref (by rw [htodo]; rfl)
  have hdenotes := hactor.replies id (mem_of_publishedAs hid)
  refine ⟨h.given, h.tag, h.body, ?_, ?_, ?_⟩
  · rw [h.refs, htodo, List.append_assoc]
    rfl
  · refine List.rel_append h.done (.cons ?_ .nil)
    cases ref with
    | actorRef b =>
      cases hstands
      exact .actorRef hdenotes
    | replyPort timeout p => exact .replyPort hstands hdenotes
  · rintro _ ⟨⟩

namespace Serializer

/-- Every task goes on with its message. -/
theorem tasks_step (h : n.Serializer) (hlinear : n.Linear) (hsound : n.Sound) (hstep : Node.step l n = some n')
    {e : Tag × Immaterialization β} (he : e ∈ n'.tasks) : ∃ msg front, n'.Serializing e.1 e.2 msg front := by
  have hold (hmem : e ∈ n.tasks) : ∃ msg front, n'.Serializing e.1 e.2 msg front := by
    obtain ⟨msg, front, hserializing⟩ := h.tasks e hmem
    exact ⟨msg, front, hserializing.step hsound hstep⟩
  have hrest {tag : Tag} {t : Immaterialization β} {rest : Queues Tag (Immaterialization β)}
      (hdequeue : n.tasks.dequeue tag = some (t, rest)) (hmem : e ∈ rest) :
      ∃ msg front, n'.Serializing e.1 e.2 msg front :=
    hold ((Queues.perm_of_dequeue hdequeue).mem_iff.mpr (List.mem_cons_of_mem _ hmem))
  have htask {tag : Tag} {t : Immaterialization β} {rest : Queues Tag (Immaterialization β)}
      (hdequeue : n.tasks.dequeue tag = some (t, rest)) : ∃ msg front, n.Serializing tag t msg front :=
    h.tasks (tag, t) ((Queues.perm_of_dequeue hdequeue).mem_iff.mpr List.mem_cons_self)
  cases hpump : l.isPump with
  | false =>
    cases hl : l.isTask with
    | false => exact hold ((quiet_of_step hpump hstep).tasks hl ▸ he)
    | true =>
      cases l with
      | taskPublish tag =>
        obtain ⟨t, rest, ref, todo, hdequeue, -, htodo, -, rfl⟩ := taskPublish_inv hstep
        have he : e ∈ rest ++ [(tag, { t with asked := some n.nextPort })] := by
          cases ref <;> exact he
        obtain hmem | hnew := List.mem_append.mp he
        · exact hrest hdequeue hmem
        · rw [List.mem_singleton.mp hnew]
          obtain ⟨msg, front, hserializing⟩ := htask hdequeue
          exact ⟨msg, front, hserializing.publish hlinear hsound hstep htodo⟩
      | taskPublished tag =>
        obtain ⟨t, rest, port, id, ref, todo, hdequeue, hasked, hid, htodo, rfl⟩ := taskPublished_inv hstep
        obtain hmem | hnew := List.mem_append.mp he
        · exact hrest hdequeue hmem
        · rw [List.mem_singleton.mp hnew]
          obtain ⟨msg, front, hserializing⟩ := htask hdequeue
          exact ⟨msg, _, (hserializing.published hasked hid htodo).step hsound hstep⟩
      | taskFail tag =>
        obtain ⟨t, rest, hdequeue, rfl⟩ := taskFail_inv hstep
        exact hrest hdequeue he
      | taskPost tag =>
        obtain ⟨t, rest, hdequeue, -, rfl⟩ := taskPost_inv hstep
        exact hrest hdequeue he
      | _ => cases hl
  | true =>
    cases l with
    | recv frame =>
      obtain ⟨-, rfl⟩ := recv_inv hstep
      obtain _ | _ | _ | _ := frame <;> exact hold he
    | handle uuid nexus sink =>
      obtain ⟨-, m, rest, -, hturned⟩ := turned_of_handle hstep
      obtain ⟨-, m', rest', hmail, rfl⟩ := handle_inv hstep
      have he : e ∈ n.tasks ++ (Portal.handle (n.env uuid nexus sink) n.state m').spawned.map fun s =>
          immaterialization s.1 s.2 := by
        cases hout : (Portal.handle (n.env uuid nexus sink) n.state m').outcome <;> rw [hout] at he <;> exact he
      obtain hmem | hnew := List.mem_append.mp he
      · exact hold hmem
      · -- a new task begins with the whole message and has serialized nothing of it
        obtain hnone | ⟨target, msg, rfl, hspawned⟩ := handle_spawned (n.env uuid nexus sink) n.state m'
        · rw [hnone] at hnew
          cases hnew
        · rw [hspawned] at hnew
          obtain rfl := List.mem_singleton.mp hnew
          have hgiven : .immaterializeMessage target msg ∈ n.handled ++ [.immaterializeMessage target msg] :=
            List.mem_append_right _ (List.mem_singleton_self _)
          refine ⟨msg, [], ?_, rfl, rfl, rfl, .nil, by rintro _ ⟨⟩⟩
          unfold Given
          rw [endTurn_handled]
          exact hgiven
    | rebuildDone =>
      obtain ⟨r, -, -, rfl⟩ := rebuildDone_inv hstep
      obtain ⟨error, heq⟩ | ⟨body, -, -, heq⟩ := n.deliver_cases r
      · rw [heq] at he
        exact hold he
      · rw [heq] at he
        exact hold he
    | _ => cases hpump

/-- **Every step.** -/
theorem step (h : n.Serializer) (hlinear : n.Linear) (hsound : n.Sound) (hstep : Node.step l n = some n') :
    n'.Serializer := by
  refine ⟨fun e he => h.tasks_step hlinear hsound hstep he, fun target data hm => ?_, fun target data hframe => ?_⟩
  · obtain hold | ⟨_, _, _, _, -, -, -, heq⟩ | ⟨tag, t, rest, rfl, hdequeue, htodo, heq⟩ :=
      mail_of_step hstep hm (by rintro ⟨⟩)
    · exact (h.mailbox target data hold).step hstep
    · cases heq
    · cases heq
      obtain ⟨msg, front, hserializing⟩ :=
        h.tasks (tag, t) ((Queues.perm_of_dequeue hdequeue).mem_iff.mpr List.mem_cons_self)
      have h' := hserializing.step hsound hstep
      have hrefs : msg.refs = front := by
        rw [h'.refs, htodo, List.append_nil]
      exact ⟨msg, h'.given, h'.tag, congrArg some h'.body, hrefs ▸ h'.done⟩
  · obtain hold | hm := frame_of_step hstep hframe
    · exact (h.sent target data hold).step hstep
    · exact (h.mailbox target data hm).step hstep

theorem started (setup : Setup) : (Node.started (β := β) setup).Serializer where
  tasks := by rintro _ ⟨⟩
  mailbox := by rintro _ _ ⟨⟩
  sent := by
    intro target data hframe
    cases List.mem_singleton.mp hframe

theorem of_run {setup : Setup} {ls : List (Label β)}
    (hrun : Transition.Run Node.step Transition.Any ls (Node.started setup) n) : n.Serializer := by
  have hall : n.Serializer ∧ (n.Linear ∧ n.Populated ∧ n.Reached) ∧ n.Sound := by
    refine hrun.invariant (P := fun n => n.Serializer ∧ (n.Linear ∧ n.Populated ∧ n.Reached) ∧ n.Sound) ?_ ?_
    · rintro l s t ⟨hserializer, ⟨hlinear, hpopulated, hreached⟩, hsound⟩ - hstep
      exact ⟨hserializer.step hlinear hsound hstep,
        ⟨hlinear.step hpopulated hreached hstep, hpopulated.step hstep, hreached.step hstep⟩, hsound.step hstep⟩
    · exact ⟨Serializer.started setup, ⟨Linear.of_run (.nil _), Populated.of_run (.nil _), Reached.of_run (.nil _)⟩,
        Sound.started setup⟩
  exact hall.1

end Serializer

end

end Node

end Portal
end Wormhole
