import Wormhole.Portal.Steps

/-!
# `Portal.Actors` — the actors that a side knows of

An actor that occurs anywhere on a side, in its registry, in a message or in a value on a reply port, has been
started. So the actor that is started next is new: no `RpcProxyActor` serves two reply ports, and none is a
proxy of the other side.
-/

namespace Wormhole
namespace Portal

open Queues

variable {β : Type}

/-! ## Where actors occur -/

/-- The actors among the references of a message. -/
def actorsOf (refs : List LocalRef) : List ActorId :=
  refs.filterMap fun
    | .actorRef actor => some actor
    | .replyPort _ _ => none

/-- The actors inside a message of the portal that may get into the registry. -/
def PortalActorMessage.actors : PortalActorMessage β → List ActorId
  | .publishNamedActor _ actor _ => [actor]
  | .publishActor actor _ => [actor]
  | .immaterializeMessage _ msg => actorsOf msg.refs
  | _ => []

/-- The references in a value that is sent on a reply port. -/
def ReplyValue.refs : ReplyValue β → List LocalRef
  | .rpc _ refs => refs
  | _ => []

/-- All actors that occur in `n` are below `k`. -/
structure Node.Below (n : Node β) (k : Nat) : Prop where
  registry : ∀ id, ∀ actor ∈ n.state.publishedActors.lookup id, actor < k
  mailbox : ∀ m ∈ n.mailbox, ∀ actor ∈ m.actors, actor < k
  inbox : ∀ e ∈ n.inbox, ∀ actor ∈ actorsOf e.2.refs, actor < k
  channel : ∀ e ∈ n.channel, ∀ actor ∈ actorsOf e.2.refs, actor < k
  tasks : ∀ t ∈ n.tasks, ∀ actor ∈ actorsOf t.2.todo, actor < k
  rebuilding : ∀ r ∈ n.rebuilding, ∀ actor ∈ actorsOf r.done, actor < k
  delivered : ∀ d ∈ n.delivered, ∀ actor ∈ actorsOf d.2.refs, actor < k
  replies : ∀ reply ∈ n.replies, ∀ actor ∈ actorsOf reply.2.refs, actor < k

/-- The places of a side, except for its registry, get only actors below `k`. -/
structure Below.Keeps (k : Nat) (n n' : Node β) : Prop where
  mailbox : ∀ m ∈ n'.mailbox, m ∈ n.mailbox ∨ ∀ actor ∈ m.actors, actor < k := by exact fun _ => .inl
  inbox : ∀ e ∈ n'.inbox, e ∈ n.inbox ∨ ∀ actor ∈ actorsOf e.2.refs, actor < k := by exact fun _ => .inl
  channel : ∀ e ∈ n'.channel, e ∈ n.channel ∨ ∀ actor ∈ actorsOf e.2.refs, actor < k := by exact fun _ => .inl
  tasks : ∀ t ∈ n'.tasks, t ∈ n.tasks ∨ ∀ actor ∈ actorsOf t.2.todo, actor < k := by exact fun _ => .inl
  rebuilding : ∀ r ∈ n'.rebuilding, r ∈ n.rebuilding ∨ ∀ actor ∈ actorsOf r.done, actor < k := by
    exact fun _ => .inl
  delivered : ∀ d ∈ n'.delivered, d ∈ n.delivered ∨ ∀ actor ∈ actorsOf d.2.refs, actor < k := by
    exact fun _ => .inl
  replies : ∀ reply ∈ n'.replies, reply ∈ n.replies ∨ ∀ actor ∈ actorsOf reply.2.refs, actor < k := by
    exact fun _ => .inl

section

variable {l : Label β} {n n' : Node β} {k k' : Nat}

@[simp] theorem mem_actorsOf {refs : List LocalRef} {actor : ActorId} :
    actor ∈ actorsOf refs ↔ .actorRef actor ∈ refs := by
  constructor
  · intro h
    obtain ⟨ref, hmem, heq⟩ := List.mem_filterMap.mp h
    cases ref <;> cases heq
    exact hmem
  · exact fun h => List.mem_filterMap.mpr ⟨_, h, rfl⟩

/-- Local code has references to actors there are. -/
theorem lt_of_owned {refs : List LocalRef} (h : n.Owned refs) : ∀ actor ∈ actorsOf refs, actor < n.nextActor := by
  intro actor hactor
  simpa [Node.knows] using h.1 _ (mem_actorsOf.mp hactor)

namespace Node.Below

theorem mono (h : n.Below k) (hle : k ≤ k') : n.Below k' where
  registry id actor ha := Nat.lt_of_lt_of_le (h.registry id actor ha) hle
  mailbox m hm actor ha := Nat.lt_of_lt_of_le (h.mailbox m hm actor ha) hle
  inbox e he actor ha := Nat.lt_of_lt_of_le (h.inbox e he actor ha) hle
  channel e he actor ha := Nat.lt_of_lt_of_le (h.channel e he actor ha) hle
  tasks t ht actor ha := Nat.lt_of_lt_of_le (h.tasks t ht actor ha) hle
  rebuilding r hr actor ha := Nat.lt_of_lt_of_le (h.rebuilding r hr actor ha) hle
  delivered d hd actor ha := Nat.lt_of_lt_of_le (h.delivered d hd actor ha) hle
  replies r hr actor ha := Nat.lt_of_lt_of_le (h.replies r hr actor ha) hle

theorem keep (h : n.Below k) (hkeeps : Below.Keeps k n n')
    (hregistry : ∀ id, ∀ actor ∈ n'.state.publishedActors.lookup id, actor < k) : n'.Below k where
  registry := hregistry
  mailbox m hm := (hkeeps.mailbox m hm).elim (h.mailbox m) id
  inbox e he := (hkeeps.inbox e he).elim (h.inbox e) id
  channel e he := (hkeeps.channel e he).elim (h.channel e) id
  tasks t ht := (hkeeps.tasks t ht).elim (h.tasks t) id
  rebuilding r hr := (hkeeps.rebuilding r hr).elim (h.rebuilding r) id
  delivered d hd := (hkeeps.delivered d hd).elim (h.delivered d) id
  replies r hr := (hkeeps.replies r hr).elim (h.replies r) id

/-- Something new comes into a mailbox. -/
theorem mem_post {m m' : PortalActorMessage β} (hm : ∀ actor ∈ m.actors, actor < k)
    (h : m' ∈ (n.post m).mailbox) : m' ∈ n.mailbox ∨ ∀ actor ∈ m'.actors, actor < k :=
  (mem_mailbox_post h).imp_right (by rintro rfl; exact hm)

/-- What names no actors can be posted anywhere. -/
theorem mem_post_of_nil {m m' : PortalActorMessage β} (hm : m.actors = []) (h : m' ∈ (n.post m).mailbox) :
    m' ∈ n.mailbox ∨ ∀ actor ∈ m'.actors, actor < k :=
  mem_post (by rw [hm]; exact List.forall_mem_nil _) h

/-- Something comes into a queue from elsewhere. -/
theorem mem_concat {α : Type} (refs : α → List LocalRef) {xs : List α} {x y : α}
    (hx : ∀ actor ∈ actorsOf (refs x), actor < k) (h : y ∈ xs ++ [x]) :
    y ∈ xs ∨ ∀ actor ∈ actorsOf (refs y), actor < k := by
  obtain hold | hnew := List.mem_append.mp h
  · exact .inl hold
  · exact .inr (List.mem_singleton.mp hnew ▸ hx)

/-- A dequeue leaves entries that were there. -/
theorem mem_of_mem_rest {κ α : Type} [DecidableEq κ] {q rest : Queues κ α} {key : κ} {a : α}
    (h : q.dequeue key = some (a, rest)) {e : κ × α} (he : e ∈ rest) : e ∈ q :=
  (perm_of_dequeue h).mem_iff.mpr (List.mem_cons_of_mem _ he)

theorem mem_of_dequeue {κ α : Type} [DecidableEq κ] {q rest : Queues κ α} {key : κ} {a : α}
    (h : q.dequeue key = some (a, rest)) : (key, a) ∈ q :=
  (perm_of_dequeue h).mem_iff.mpr List.mem_cons_self

theorem quiet (h : n.Below n.nextActor) (hpump : l.isPump = false) (hstep : Node.step l n = some n') :
    Below.Keeps n'.nextActor n n' := by
  have hnext := nextActor_le_of_step hstep
  have h' := h.mono hnext
  cases l with
  | recv frame => cases hpump
  | handle uuid nexus sink => cases hpump
  | rebuildDone => cases hpump
  | rebuildRef =>
    obtain ⟨r, ref, todo, hr, -, rfl⟩ := rebuildRef_inv hstep
    -- the reference stands for the proxy that is spawned in this step
    have hnew : ∀ actor ∈ actorsOf (r.done ++ [.actorRef n.nextActor]), actor < n.nextActor + 1 := by
      intro actor hactor
      obtain hold | hnew := List.mem_append.mp (mem_actorsOf.mp hactor)
      · exact Nat.lt_succ_of_lt (h.rebuilding r hr actor (mem_actorsOf.mpr hold))
      · cases List.mem_singleton.mp hnew
        exact Nat.lt_succ_self _
    have hport (timeout : Option Duration) :
        ∀ actor ∈ actorsOf (r.done ++ [.replyPort timeout n.nextPort]), actor < n.nextActor + 1 := by
      intro actor hactor
      obtain hold | hnew := List.mem_append.mp (mem_actorsOf.mp hactor)
      · exact Nat.lt_succ_of_lt (h.rebuilding r hr actor (mem_actorsOf.mpr hold))
      · cases List.mem_singleton.mp hnew
    cases ref with
    | actorRef id =>
      exact { mailbox := fun _ => mem_post_of_nil rfl
              rebuilding := fun r' hr' => .inr (Option.mem_some_iff.mp hr' ▸ hnew) }
    | replyPort timeoutMs id =>
      exact { mailbox := fun _ => mem_post_of_nil rfl
              rebuilding := fun r' hr' => .inr (Option.mem_some_iff.mp hr' ▸ hport _) }
  | request request =>
    obtain ⟨hpermits, rfl⟩ := request_inv hstep
    have hnew : ∀ actor ∈ (n.requestMessage request).actors, actor < n.nextActor := by
      cases request with
      | publishNamedActor name actor withReply => exact fun b hb => List.mem_singleton.mp hb ▸ hpermits
      | publishActor actor withReply => exact fun b hb => List.mem_singleton.mp hb ▸ hpermits
      | _ => exact List.forall_mem_nil _
    exact { mailbox := fun _ => mem_post hnew }
  | instantiate remote =>
    obtain rfl := instantiate_inv hstep
    exact {}
  | register proxy =>
    obtain ⟨remote, rest, -, rfl⟩ := register_inv hstep
    exact { mailbox := fun _ => mem_post_of_nil (n := { n with creating := rest }) rfl }
  | notify actor =>
    obtain ⟨-, rfl⟩ := notify_inv hstep
    exact { mailbox := fun _ => mem_post_of_nil (n := { n with watchers := _ }) rfl }
  | sendTo proxy body refs =>
    obtain ⟨⟨-, -, howned⟩, rfl⟩ := sendTo_inv hstep
    have hrefs := lt_of_owned howned
    exact { inbox := fun _ => mem_concat (fun e : ActorId × Msg β => e.2.refs) hrefs }
  | relay proxy =>
    obtain ⟨msg, rest, hdequeue, rfl⟩ := relay_inv hstep
    exact { inbox := fun _ he => .inl (mem_of_mem_rest hdequeue he)
            channel := fun _ => mem_concat (fun e : ActorId × Msg β => e.2.refs)
              (h.inbox _ (mem_of_dequeue hdequeue)) }
  | forward proxy =>
    obtain ⟨msg, rest, remote, hdequeue, -, rfl⟩ := forward_inv hstep
    exact { channel := fun _ he => .inl (mem_of_mem_rest hdequeue he)
            mailbox := fun _ => mem_post (n := { n with channel := rest })
              (h.channel _ (mem_of_dequeue hdequeue)) }
  | taskPublish tag =>
    obtain ⟨t, rest, ref, todo, hdequeue, -, htodo, -, rfl⟩ := taskPublish_inv hstep
    have ht := h'.tasks _ (mem_of_dequeue hdequeue)
    have htasks : ∀ e ∈ rest ++ [(tag, { t with asked := some n.nextPort })], e ∈ n.tasks ∨
        ∀ actor ∈ actorsOf e.2.todo, actor < (n.askPublish tag t rest ref).nextActor :=
      fun e he => (mem_concat (·.2.todo) ht he).imp_left (mem_of_mem_rest hdequeue)
    -- a port is published as an actor that is spawned for it
    cases ref with
    | actorRef actor =>
      have hactor : actor < n.nextActor :=
        h.tasks _ (mem_of_dequeue hdequeue) actor (mem_actorsOf.mpr (by rw [htodo]; exact List.mem_cons_self))
      refine { mailbox := fun _ => mem_post (n := { n with tasks := _ }) ?_, tasks := htasks }
      exact fun b hb => List.mem_singleton.mp hb ▸ hactor
    | replyPort timeout port =>
      refine { mailbox := fun _ => mem_post (n := { n with tasks := _ }) ?_, tasks := htasks }
      exact fun b hb => List.mem_singleton.mp hb ▸ Nat.lt_succ_self _
  | taskPublished tag =>
    obtain ⟨t, rest, port, id, ref, todo, hdequeue, -, -, htodo, rfl⟩ := taskPublished_inv hstep
    have ht := h.tasks _ (mem_of_dequeue hdequeue)
    refine { tasks := fun e he => ?_ }
    refine (mem_concat (·.2.todo) ?_ he).imp_left (mem_of_mem_rest hdequeue)
    intro actor hactor
    refine ht actor (mem_actorsOf.mpr ?_)
    rw [htodo]
    exact List.mem_cons_of_mem _ (mem_actorsOf.mp hactor)
  | taskFail tag =>
    obtain ⟨t, rest, hdequeue, rfl⟩ := taskFail_inv hstep
    exact { tasks := fun _ he => .inl (mem_of_mem_rest hdequeue he) }
  | taskPost tag =>
    obtain ⟨t, rest, hdequeue, -, rfl⟩ := taskPost_inv hstep
    exact { tasks := fun _ he => .inl (mem_of_mem_rest hdequeue he)
            mailbox := fun _ => mem_post_of_nil (n := { n with tasks := rest, posted := _ }) rfl }
  | trigger port body refs =>
    obtain ⟨⟨-, howned, -⟩, rfl⟩ := trigger_inv hstep
    have hrefs := lt_of_owned howned
    exact { replies := fun _ => mem_concat (fun r : PortId × ReplyValue β => r.2.refs) hrefs }
  | forwardReply port =>
    obtain ⟨proxy, rest, body, refs, -, hreply, ⟨-, rfl⟩ | ⟨-, rfl⟩⟩ := forwardReply_inv hstep
    · exact {}
    · exact { inbox := fun _ => mem_concat (fun e : ActorId × Msg β => e.2.refs)
                (h.replies _ (mem_of_rpcReply hreply)) }
  | answer actor =>
    obtain ⟨port, msg, -, hmsg, -, rfl | rfl⟩ := answer_inv hstep
    · exact { inbox := fun _ he => .inl (List.mem_of_mem_filter he) }
    · exact { inbox := fun _ he => .inl (List.mem_of_mem_filter he)
              replies := fun _ => mem_concat (fun r : PortId × ReplyValue β => r.2.refs)
                (h.delivered _ (mem_of_rpcMessage hmsg)) }
  | exit actor =>
    obtain ⟨-, rfl⟩ := exit_inv hstep
    exact { inbox := fun _ he => .inl (List.mem_of_mem_filter he) }
  | spawnActor => cases hstep; exact {}
  | openPort => cases hstep; exact {}
  | dropPort port =>
    obtain rfl := dropPort_inv hstep
    exact {}

/-- The tasks of a turn get the references of the message, and only local code answers with references. -/
theorem handle (h : n.Below n.nextActor) {uuid : OpaqueActorId} {nexus : Option (Option ActorId)}
    {sink : SinkResult} (hstep : Node.step (.handle uuid nexus sink) n = some n') : n'.Below n'.nextActor := by
  obtain ⟨⟨-, hidle, -, hnexus⟩, m, rest, hmail, rfl⟩ := handle_inv hstep
  have hm : ∀ actor ∈ m.actors, actor < n.nextActor := h.mailbox m (hmail ▸ List.mem_cons_self)
  have hnext (outcome : Outcome β) : ((n.takeTurn m rest (Portal.handle (n.env uuid nexus sink) n.state
      m)).endTurn outcome).nextActor = n.nextActor := by cases outcome <;> rfl
  have hturn : Below.Keeps n.nextActor n
      (n.takeTurn m rest (Portal.handle (n.env uuid nexus sink) n.state m)) := by
    refine { mailbox := fun m' hm' => .inl (hmail ▸ List.mem_cons_of_mem _ hm')
             inbox := fun e he => .inl (List.mem_of_mem_filter he)
             tasks := fun t ht => ?_, replies := fun reply hreply => ?_ }
    · refine (List.mem_append.mp ht).imp_right fun hnew => ?_
      obtain ⟨s, hs, rfl⟩ := List.mem_map.mp hnew
      obtain hnone | ⟨target, msg, rfl, hone⟩ := handle_spawned (n.env uuid nexus sink) n.state m
      · rw [hnone] at hs
        cases hs
      · rw [hone] at hs
        cases List.mem_singleton.mp hs
        exact hm
    · refine (List.mem_append.mp hreply).imp_right fun hnew => ?_
      have hrefs : reply.2.refs = [] := by
        obtain ⟨port, value⟩ := reply
        cases handle_causes (mem_replies hnew) <;> rfl
      rw [hrefs]
      nofun
  rw [hnext]
  refine h.keep ?_ fun id actor hactor => ?_
  · have hends := handle_ends (n.env uuid nexus sink) n.state m
    generalize (Portal.handle (n.env uuid nexus sink) n.state m).outcome = outcome at hends
    have hinbox {actors : List ActorId} : ∀ e ∈ ((n.takeTurn m rest (Portal.handle (n.env uuid nexus sink) n.state
        m)).kill actors).inbox, e ∈ n.inbox ∨ ∀ actor ∈ actorsOf e.2.refs, actor < n.nextActor :=
      fun e he => hturn.inbox e (List.mem_of_mem_filter he)
    cases hends with
    | ok => exact hturn
    | rematerialize =>
      exact { hturn with rebuilding := fun r hr => .inr (Option.mem_some_iff.mp hr ▸ nofun) }
    | _ => exact { hturn with mailbox := nofun, rebuilding := nofun, inbox := hinbox }
  · rw [endTurn_state] at hactor
    obtain hold | hpublishes := of_lookup_published _ _ hactor
    · exact h.registry id actor hold
    · cases m with
      | publishNamedActor name b reply =>
        cases hpublishes
        exact hm _ (List.mem_singleton_self _)
      | publishActor b reply =>
        cases hpublishes
        exact hm _ (List.mem_singleton_self _)
      | content data =>
        obtain _ | _ | _ | _ | _ | _ := data <;> try cases hpublishes
        simp only [PortalActorMessage.publishes] at hpublishes
        split at hpublishes
        · exact hnexus actor (by rw [← Option.join_eq_some_iff]; exact hpublishes)
        · cases hpublishes
      | _ => cases hpublishes

theorem step (h : n.Below n.nextActor) (hstep : Node.step l n = some n') : n'.Below n'.nextActor := by
  have h' := h.mono (nextActor_le_of_step hstep)
  cases hpump : l.isPump with
  | false => exact h'.keep (h.quiet hpump hstep) (by rw [(quiet_of_step hpump hstep).state]; exact h'.registry)
  | true =>
    cases l with
    | recv frame =>
      obtain ⟨-, rfl⟩ := recv_inv hstep
      obtain _ | _ | _ | _ := frame <;> exact h'.keep { mailbox := fun _ => mem_post_of_nil rfl } h.registry
    | handle uuid nexus sink => exact h.handle hstep
    | rebuildDone =>
      obtain ⟨r, hr, -, rfl⟩ := rebuildDone_inv hstep
      obtain ⟨error, heq⟩ | ⟨body, -, -, heq⟩ := n.deliver_cases r <;> rw [heq]
      · have hkeeps : Below.Keeps n.nextActor n (n.halt (.failed error)) :=
          { mailbox := nofun, rebuilding := nofun, inbox := fun e he => .inl (List.mem_of_mem_filter he) }
        exact h.keep hkeeps h.registry
      · have hdone := h.rebuilding r hr
        have hkeeps : Below.Keeps n.nextActor n (n.handOver r body) :=
          { rebuilding := nofun
            delivered := fun d hd => mem_concat (fun d : ActorId × Msg β => d.2.refs) hdone hd }
        exact h.keep hkeeps h.registry
    | _ => cases hpump

end Node.Below

/-! ## The actors of reply ports -/

/-- The actors on a side are those that were started; an `RpcProxyActor` serves one reply port, and it is no
    proxy of the other side. -/
structure Node.Populated (n : Node β) : Prop where
  below : n.Below n.nextActor
  proxies : ∀ e ∈ n.proxies, e.1 < n.nextActor
  rpcProxies : ∀ e ∈ n.rpcProxies, e.1 < n.nextActor
  distinct : (n.rpcProxies.map Prod.fst).Nodup
  disjoint : ∀ e ∈ n.proxies, ∀ e' ∈ n.rpcProxies, e.1 ≠ e'.1

/-- An `RpcProxyActor` is started by the task that serializes its reply port. -/
theorem rpcProxies_of_step (hstep : Node.step l n = some n') : n'.rpcProxies = n.rpcProxies ∨
    ∃ tag t rest timeout port todo, l = .taskPublish tag ∧ n.tasks.dequeue tag = some (t, rest) ∧
      t.asked = none ∧ t.todo = .replyPort timeout port :: todo ∧
      n' = n.askPublish tag t rest (.replyPort timeout port) := by
  cases hpump : l.isPump with
  | false =>
    by_cases htask : ∃ tag, l = .taskPublish tag
    · obtain ⟨tag, rfl⟩ := htask
      obtain ⟨t, rest, ref, todo, hdequeue, hasked, htodo, -, rfl⟩ := Node.taskPublish_inv hstep
      cases ref with
      | actorRef actor => exact .inl rfl
      | replyPort timeout port =>
        exact .inr ⟨tag, t, rest, timeout, port, todo, rfl, hdequeue, hasked, htodo, rfl⟩
    · exact .inl ((Node.quiet_of_step hpump hstep).rpcProxies fun tag heq => htask ⟨tag, heq⟩)
  | true =>
    cases l with
    | recv frame =>
      obtain ⟨-, rfl⟩ := Node.recv_inv hstep
      obtain _ | _ | _ | _ := frame <;> exact .inl rfl
    | handle uuid nexus sink =>
      obtain ⟨-, m, rest, -, rfl⟩ := Node.handle_inv hstep
      cases (Portal.handle (n.env uuid nexus sink) n.state m).outcome <;> exact .inl rfl
    | rebuildDone =>
      obtain ⟨r, -, -, rfl⟩ := Node.rebuildDone_inv hstep
      obtain ⟨error, heq⟩ | ⟨body, -, -, heq⟩ := n.deliver_cases r <;> rw [heq] <;> exact .inl rfl
    | _ => cases hpump

theorem Node.Populated.step (h : n.Populated) (hstep : Node.step l n = some n') : n'.Populated := by
  have hnext := nextActor_le_of_step hstep
  have hproxies : ∀ e ∈ n'.proxies, e ∈ n.proxies ∨ e.1 = n.nextActor ∧ n'.nextActor = n.nextActor + 1 :=
    fun e he => proxies_of_step hstep he
  have hbelow := h.below.step hstep
  have hlt : ∀ e ∈ n'.proxies, e.1 < n'.nextActor := by
    intro e he
    obtain hold | ⟨heq, hsucc⟩ := hproxies e he
    · exact Nat.lt_of_lt_of_le (h.proxies e hold) hnext
    · rw [heq, hsucc]
      exact Nat.lt_succ_self _
  obtain hsame | ⟨tag, t, rest, timeout, port, todo, rfl, hdequeue, hasked, htodo, rfl⟩ := rpcProxies_of_step hstep
  · refine ⟨hbelow, hlt, ?_, hsame ▸ h.distinct, ?_⟩
    · rw [hsame]
      exact fun e he => Nat.lt_of_lt_of_le (h.rpcProxies e he) hnext
    · rw [hsame]
      intro e he e' he'
      obtain hold | ⟨heq, -⟩ := hproxies e he
      · exact h.disjoint e hold e' he'
      · rw [heq]
        exact Nat.ne_of_gt (h.rpcProxies e' he')
  · have hmem {e : ActorId × PortId} (he : e ∈ n.rpcProxies ++ [(n.nextActor, port)]) :
        e ∈ n.rpcProxies ∨ e.1 = n.nextActor :=
      (List.mem_append.mp he).imp_right fun hnew => congrArg Prod.fst (List.mem_singleton.mp hnew)
    refine ⟨hbelow, hlt, ?_, ?_, ?_⟩
    · intro e he
      obtain hold | hnew := hmem he
      · exact Nat.lt_succ_of_lt (h.rpcProxies e hold)
      · rw [hnew]
        exact Nat.lt_succ_self _
    · show ((n.rpcProxies ++ [(n.nextActor, port)]).map Prod.fst).Nodup
      rw [List.map_append, List.nodup_append]
      refine ⟨h.distinct, List.nodup_singleton _, ?_⟩
      rintro a ha b hb rfl
      obtain ⟨e, he, rfl⟩ := List.mem_map.mp ha
      exact Nat.ne_of_lt (h.rpcProxies e he) (List.mem_singleton.mp hb)
    · intro e he e' he'
      have he : e ∈ n.proxies := he
      obtain hold | hnew := hmem he'
      · exact h.disjoint e he e' hold
      · rw [hnew]
        exact Nat.ne_of_lt (h.proxies e he)

theorem Node.Populated.of_run {setup : Setup} {ls : List (Label β)}
    (hrun : Transition.Run Node.step Transition.Any ls (Node.started setup) n) : n.Populated := by
  refine hrun.invariant (fun _ _ _ h _ hstep => h.step hstep) ⟨?_, nofun, nofun, List.nodup_nil, nofun⟩
  exact ⟨nofun, nofun, nofun, nofun, nofun, nofun, nofun, nofun⟩

end

end Portal
end Wormhole
