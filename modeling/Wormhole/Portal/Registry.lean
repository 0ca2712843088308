import Wormhole.Portal.Pair

/-!
# `Portal.Registry` — the registry of a portal, and the ids it hands out

No two entries of the registry are for the same actor, every name is that of an entry, and an entry is never
removed. So an id that was handed out, in an answer, in an exit notice or inside a message, denotes the actor
that it was made for from then on.
-/

namespace Wormhole
namespace Portal

variable {β : Type}

/-! ## What a turn does to the registry -/

/-- An actor is entered once, and every name is that of an entry. -/
structure PortalActorState.Consistent (state : PortalActorState) : Prop where
  distinct : ∀ id id' actor, state.publishedActors.lookup id = some actor →
    state.publishedActors.lookup id' = some actor → id = id'
  named : ∀ name id, state.namedActors.lookup name = some id →
    ∃ actor, state.publishedActors.lookup id = some actor

/-- The actor for which a portal hands out an id when it handles a message, given the answer of the nexus. -/
def PortalActorMessage.subject (state : PortalActorState) (nexus : Option (Option ActorId)) :
    PortalActorMessage β → Option ActorId
  | .publishNamedActor _ actor _ => some actor
  | .publishActor actor _ => some actor
  | .localActorExited actor => some actor
  | .content (some (.requestActorByName _ name)) =>
    match state.namedActors.lookup name with
    | some id => state.publishedActors.lookup id
    | none => nexus.join
  | _ => none

section

variable {env : HandleEnv} {state : PortalActorState} {m : PortalActorMessage β} {r : RemoteActorId}

theorem handle_consistent (h : state.Consistent) (huuid : state.publishedActors.lookup env.uuid = none) :
    (handle env state m).state.Consistent := by
  constructor
  · have hpub := handle_published env state m
    generalize (handle env state m).state.publishedActors = after at hpub ⊢
    generalize (handle env state m).watched = watched at hpub
    cases hpub with
    | known => exact h.distinct
    | new actor hnew =>
      intro i j b hi hj
      rw [HashMap.lookup_insert_eq] at hi hj
      split at hi <;> split at hj
      · rename_i hi' hj'
        exact hi'.trans hj'.symm
      · cases hi
        exact absurd hj (hnew j)
      · cases hj
        exact absurd hi (hnew i)
      · exact h.distinct i j b hi hj
  · intro name id hname
    obtain ⟨-, heq⟩ | ⟨name', actor, reply, id', -, heq, hid'⟩ := handle_names env state m
    · rw [heq] at hname
      obtain ⟨actor, hactor⟩ := h.named name id hname
      exact ⟨actor, lookup_published env state huuid m hactor⟩
    · rw [heq, HashMap.lookup_insert_eq] at hname
      split at hname
      · cases hname
        exact ⟨actor, hid'⟩
      · obtain ⟨actor, hactor⟩ := h.named name id hname
        exact ⟨actor, lookup_published env state huuid m hactor⟩

/-- The id `r` is one that this side mints in the open channel for an actor of the registry. -/
structure PortalActorState.Denotes (state : PortalActorState) (r : RemoteActorId) (actor : ActorId) : Prop where
  channel : state.channelState = .opened r.connectionKey
  side : r.side = state.args.localId
  lookup : state.publishedActors.lookup r.id = some actor

theorem PortalActorState.Denotes.handle {actor : ActorId} (h : state.Denotes r actor)
    (huuid : state.publishedActors.lookup env.uuid = none) (m : PortalActorMessage β) :
    (Portal.handle env state m).state.Denotes r actor := by
  constructor
  · obtain heq | ⟨own, remote, hopening, -⟩ := handle_channelState env state m
    · rw [heq, h.channel]
    · rw [h.channel] at hopening
      cases hopening
  · rw [handle_args, h.side]
  · exact lookup_published env state huuid m h.lookup

/-- **An id is handed out for the subject of the message.** -/
theorem handle_denotes (h : state.Consistent) (huuid : state.publishedActors.lookup env.uuid = none)
    (hr : r ∈ (handle env state m).minted) :
    ∃ actor, m.subject state env.nexus = some actor ∧ (handle env state m).state.Denotes r actor := by
  -- the phase is the same after a turn that mints
  have hafter {channel : ConduitID} {id : OpaqueActorId} {actor : ActorId}
      (hopen : state.channelState = .opened channel)
      (hid : (handle env state m).state.publishedActors.lookup id = some actor) :
      (handle env state m).state.Denotes (state.mint channel id) actor := by
    refine ⟨?_, by rw [handle_args]; rfl, hid⟩
    obtain heq | ⟨own, remote, hopening, -⟩ := handle_channelState env state m
    · rw [heq, hopen]; rfl
    · rw [hopen] at hopening
      cases hopening
  obtain hframe | hreply := List.mem_append.mp hr
  · obtain ⟨msg, hmsg, hid⟩ := List.mem_flatMap.mp hframe
    cases handle_causes (mem_frames hmsg) with
    | named channel _ name id hopen hname =>
      obtain rfl := List.mem_singleton.mp hid
      obtain ⟨actor, hactor⟩ := h.named name id hname
      refine ⟨actor, ?_, hafter hopen (lookup_published env state huuid _ hactor)⟩
      simp only [PortalActorMessage.subject, hname, hactor]
    | fetched channel _ name id actor hopen hname hnexus hactor =>
      obtain rfl := List.mem_singleton.mp hid
      refine ⟨actor, ?_, hafter hopen hactor⟩
      simp only [PortalActorMessage.subject, hname, hnexus]
      rfl
    | notFound => cases hid
    | query => cases hid
    | transmit => cases hid
    | exit channel actor id hopen hactor =>
      obtain rfl := List.mem_singleton.mp hid
      exact ⟨actor, rfl, hafter hopen (lookup_published env state huuid _ hactor)⟩
  · obtain ⟨⟨port, value⟩, hmem, hid⟩ := List.mem_flatMap.mp hreply
    cases handle_causes (mem_replies hmem) with
    | waiter => cases hid
    | opened => cases hid
    | resolved => cases hid
    | published channel actor id _ hopen hactor =>
      obtain rfl := List.mem_singleton.mp hid
      exact ⟨actor, rfl, hafter hopen hactor⟩
    | publishedNamed channel name actor id _ hopen hactor =>
      obtain rfl := List.mem_singleton.mp hid
      exact ⟨actor, rfl, hafter hopen hactor⟩
    | unnamed => cases hid

end

/-! ## Whole runs -/

/-- The ids inside a frame that carries a message. -/
def ConduitMessage.embedded : ConduitMessage β → List RemoteActorId
  | .content (some (.sendMessage _ data)) => data.refs.map RemoteRef.id
  | _ => []

/-- The ids inside a message that the portal is asked to transmit. -/
def PortalActorMessage.embedded : PortalActorMessage β → List RemoteActorId
  | .transmitMessage _ bytes => bytes.refs.map RemoteRef.id
  | _ => []

namespace Node

/-- The ids that this side has handed out: in answers, in exit notices, and inside messages. -/
def handedOut (n : Node β) : List RemoteActorId := n.minted ++ n.sent.flatMap ConduitMessage.embedded

/-- The registry is consistent, all ids that were minted denote actors, and only such ids are inside the
    messages that are on their way to the wire. -/
structure Sound (n : Node β) : Prop where
  consistent : n.state.Consistent
  minted : ∀ r ∈ n.minted, ∃ actor, n.state.Denotes r actor
  tasks : ∀ t ∈ n.tasks, ∀ ref ∈ t.2.done, ref.id ∈ n.minted
  mailbox : ∀ m ∈ n.mailbox, ∀ r ∈ m.embedded, r ∈ n.minted
  sent : ∀ frame ∈ n.sent, ∀ r ∈ frame.embedded, r ∈ n.minted

section

variable {n n' : Node β} {l : Label β}

theorem embedded_of_posts {m : PortalActorMessage β} (h : l.posts m) (hl : ∀ tag, l ≠ .taskPost tag) :
    m.embedded = [] := by
  cases m with
  | transmitMessage target bytes =>
    cases l with
    | taskPost tag => exact absurd rfl (hl tag)
    | _ => cases h
  | _ => rfl

/-- A frame that carries a message is written for the message that asks for it. -/
theorem embedded_of_frame {env : HandleEnv} {state : PortalActorState} {m : PortalActorMessage β}
    {msg : CrossPortalMessage β} (h : msg ∈ (Portal.handle env state m).frames) {r : RemoteActorId}
    (hr : r ∈ (ConduitMessage.content (some msg)).embedded) : r ∈ m.embedded := by
  cases handle_causes (mem_frames h) with
  | transmit => exact hr
  | _ => cases hr

theorem mem_minted_of_published {port : PortId} {r : RemoteActorId} (h : (port, .published r) ∈ n.replies) :
    r ∈ n.minted :=
  List.mem_append_right _ (List.mem_flatMap.mpr ⟨_, h, List.mem_singleton_self r⟩)

@[simp] theorem serialize_id (n : Node β) (id : RemoteActorId) (ref : LocalRef) : (n.serialize id ref).id = id := by
  cases ref <;> rfl

namespace Sound

/-- What leaves the portal actor and the messages on their way alone. -/
theorem frame (h : Sound n) (hstate : n'.state = n.state) (hminted : n'.minted = n.minted)
    (hsent : n'.sent = n.sent) (htasks : ∀ t ∈ n'.tasks, ∃ t' ∈ n.tasks, t.2.done = t'.2.done)
    (hmail : ∀ m ∈ n'.mailbox, m ∈ n.mailbox ∨ m.embedded = []) : Sound n' := by
  constructor
  · rw [hstate]; exact h.consistent
  · rw [hstate, hminted]; exact h.minted
  · intro t ht ref href
    obtain ⟨t', ht', hdone⟩ := htasks t ht
    rw [hminted]
    exact h.tasks t' ht' ref (hdone ▸ href)
  · intro m hm r hr
    rw [hminted]
    obtain hold | hnone := hmail m hm
    · exact h.mailbox m hold r hr
    · rw [hnone] at hr
      cases hr
  · rw [hsent, hminted]; exact h.sent

/-- A task goes on with the answer to its `PublishActor`, or gives its message to the portal. -/
theorem task (h : Sound n) (hl : l.isTask = true) (hstep : Node.step l n = some n') : Sound n' := by
  cases l with
  | taskPublish tag =>
    obtain ⟨t, rest, ref, todo, hdequeue, -, -, -, rfl⟩ := taskPublish_inv hstep
    have hperm := Queues.perm_of_dequeue hdequeue
    have htasks : ∀ e ∈ rest ++ [(tag, { t with asked := some n.nextPort })],
        ∃ t' ∈ n.tasks, e.2.done = t'.2.done := by
      intro e he
      obtain he | he := List.mem_append.mp he
      · exact ⟨e, hperm.mem_iff.mpr (List.mem_cons_of_mem _ he), rfl⟩
      · rw [List.mem_singleton.mp he]
        exact ⟨(tag, t), hperm.mem_iff.mpr List.mem_cons_self, rfl⟩
    cases ref <;>
      exact h.frame rfl rfl rfl htasks fun m hm => (mem_mailbox_post hm).imp id (by rintro rfl; rfl)
  | taskPublished tag =>
    obtain ⟨t, rest, port, id, ref, todo, hdequeue, -, hid, -, rfl⟩ := taskPublished_inv hstep
    have hperm := Queues.perm_of_dequeue hdequeue
    refine ⟨h.consistent, h.minted, ?_, h.mailbox, h.sent⟩
    intro e he ref' href
    obtain he | he := List.mem_append.mp he
    · exact h.tasks e (hperm.mem_iff.mpr (List.mem_cons_of_mem _ he)) ref' href
    · rw [List.mem_singleton.mp he] at href
      obtain hold | hnew := List.mem_append.mp href
      · exact h.tasks (tag, t) (hperm.mem_iff.mpr List.mem_cons_self) ref' hold
      · rw [List.mem_singleton.mp hnew, serialize_id]
        exact mem_minted_of_published (mem_of_publishedAs hid)
  | taskFail tag =>
    obtain ⟨t, rest, hdequeue, rfl⟩ := taskFail_inv hstep
    have hperm := Queues.perm_of_dequeue hdequeue
    exact h.frame rfl rfl rfl (fun e he => ⟨e, hperm.mem_iff.mpr (List.mem_cons_of_mem _ he), rfl⟩)
      fun _ hm => .inl hm
  | taskPost tag =>
    obtain ⟨t, rest, hdequeue, -, rfl⟩ := taskPost_inv hstep
    have hperm := Queues.perm_of_dequeue hdequeue
    refine ⟨h.consistent, h.minted, ?_, ?_, h.sent⟩
    · exact fun e he => h.tasks e (hperm.mem_iff.mpr (List.mem_cons_of_mem _ he))
    · intro m hm r hr
      obtain hold | rfl := mem_mailbox_post hm
      · exact h.mailbox m hold r hr
      · obtain ⟨ref, href, rfl⟩ := List.mem_map.mp hr
        exact h.tasks (tag, t) (hperm.mem_iff.mpr List.mem_cons_self) ref href
  | _ => cases hl

theorem handle (h : Sound n) {uuid : OpaqueActorId} {nexus : Option (Option ActorId)} {sink : SinkResult}
    (hstep : Node.step (.handle uuid nexus sink) n = some n') : Sound n' := by
  obtain ⟨⟨-, -, huuid, -⟩, m, rest, hmail, rfl⟩ := handle_inv hstep
  have hgrow {r : RemoteActorId} : r ∈ n.minted → r ∈ ((n.takeTurn m rest (Portal.handle (n.env uuid nexus sink)
      n.state m)).endTurn (Portal.handle (n.env uuid nexus sink) n.state m).outcome).minted :=
    fun hr => mem_minted_endTurn.mpr (.inl hr)
  have hrest : ∀ m' ∈ ((n.takeTurn m rest (Portal.handle (n.env uuid nexus sink) n.state m)).endTurn
      (Portal.handle (n.env uuid nexus sink) n.state m).outcome).mailbox, m' ∈ n.mailbox := by
    intro m' hm'
    rw [hmail]
    cases hend : (Portal.handle (n.env uuid nexus sink) n.state m).outcome with
    | stop => rw [hend] at hm'; cases hm'
    | err => rw [hend] at hm'; cases hm'
    | ok => rw [hend] at hm'; exact List.mem_cons_of_mem _ hm'
    | rematerialize => rw [hend] at hm'; exact List.mem_cons_of_mem _ hm'
  have htasks : ∀ t ∈ ((n.takeTurn m rest (Portal.handle (n.env uuid nexus sink) n.state m)).endTurn
      (Portal.handle (n.env uuid nexus sink) n.state m).outcome).tasks, t ∈ n.tasks ∨ t.2.done = [] := by
    intro t ht
    have ht : t ∈ n.tasks ++ (Portal.handle (n.env uuid nexus sink) n.state m).spawned.map
        fun s => immaterialization s.1 s.2 := by
      cases hend : (Portal.handle (n.env uuid nexus sink) n.state m).outcome <;> rw [hend] at ht <;> exact ht
    obtain hold | hnew := List.mem_append.mp ht
    · exact .inl hold
    · obtain ⟨s, -, rfl⟩ := List.mem_map.mp hnew
      exact .inr rfl
  constructor
  · rw [endTurn_state]
    exact handle_consistent h.consistent huuid
  · intro r hr
    rw [endTurn_state]
    obtain hold | hnew := mem_minted_endTurn.mp hr
    · obtain ⟨actor, hactor⟩ := h.minted r hold
      exact ⟨actor, hactor.handle huuid m⟩
    · obtain ⟨actor, -, hactor⟩ := handle_denotes h.consistent huuid hnew
      exact ⟨actor, hactor⟩
  · intro t ht ref href
    obtain hold | hnone := htasks t ht
    · exact hgrow (h.tasks t hold ref href)
    · rw [hnone] at href
      cases href
  · exact fun m' hm' r hr => hgrow (h.mailbox m' (hrest m' hm') r hr)
  · intro frame hframe r hr
    rw [endTurn_sent] at hframe
    obtain hold | hnew := List.mem_append.mp hframe
    · exact hgrow (h.sent frame hold r hr)
    · obtain ⟨msg, hmsg, rfl⟩ := List.mem_map.mp hnew
      exact hgrow (h.mailbox m (by rw [hmail]; exact List.mem_cons_self) r (embedded_of_frame hmsg hr))

theorem step (h : Sound n) (hstep : Node.step l n = some n') : Sound n' := by
  cases hpump : l.isPump with
  | false =>
    cases htask : l.isTask with
    | true => exact h.task htask hstep
    | false =>
      have hq := quiet_of_step hpump hstep
      obtain ⟨ms, hmail, hposts⟩ := hq.mailbox
      refine h.frame hq.state (by rw [Node.minted, Node.minted, hq.sent, hq.minted]) hq.sent ?_ ?_
      · intro t ht
        exact ⟨t, hq.tasks htask ▸ ht, rfl⟩
      · intro m hm
        rw [hmail] at hm
        refine (List.mem_append.mp hm).imp id fun hnew => ?_
        exact embedded_of_posts (hposts m hnew) (by rintro tag rfl; cases htask)
  | true =>
    cases l with
    | recv frame =>
      obtain ⟨-, rfl⟩ := recv_inv hstep
      obtain _ | _ | _ | _ := frame <;>
        exact h.frame rfl rfl rfl (fun t ht => ⟨t, ht, rfl⟩)
          fun m hm => (mem_mailbox_post hm).imp id (by rintro rfl; rfl)
    | handle uuid nexus sink => exact h.handle hstep
    | rebuildDone =>
      obtain ⟨r, -, -, rfl⟩ := rebuildDone_inv hstep
      obtain ⟨error, heq⟩ | ⟨body, -, -, heq⟩ := n.deliver_cases r
      · rw [heq]
        exact h.frame rfl rfl rfl (fun t ht => ⟨t, ht, rfl⟩) fun m hm => absurd hm List.not_mem_nil
      · rw [heq]
        exact h.frame rfl rfl rfl (fun t ht => ⟨t, ht, rfl⟩) fun m hm => .inl hm
    | _ => cases hpump

theorem started (setup : Setup) : Sound (Node.started (β := β) setup) where
  consistent := ⟨by rintro _ _ _ ⟨⟩, by rintro _ _ ⟨⟩⟩
  minted := by rintro r ⟨⟩
  tasks := by rintro t ⟨⟩
  mailbox := by rintro m ⟨⟩
  sent := by
    intro frame hframe r hr
    obtain rfl := List.mem_singleton.mp hframe
    cases hr

theorem of_run {setup : Setup} {ls : List (Label β)}
    (h : Transition.Run Node.step Transition.Any ls (Node.started setup) n) : Sound n :=
  h.invariant (fun _ _ _ h _ hstep => h.step hstep) (Sound.started setup)

/-- Every id that was handed out was minted. -/
theorem denotes (h : Sound n) {r : RemoteActorId} (hr : r ∈ n.handedOut) : ∃ actor, n.state.Denotes r actor := by
  apply h.minted
  obtain hminted | hsent := List.mem_append.mp hr
  · exact hminted
  · obtain ⟨frame, hframe, hr⟩ := List.mem_flatMap.mp hsent
    exact h.sent frame hframe r hr

end Sound

theorem denotes_of_step {r : RemoteActorId} {actor : ActorId} (hstep : Node.step l n = some n')
    (h : n.state.Denotes r actor) : n'.state.Denotes r actor := by
  obtain hidle | ⟨uuid, nexus, sink, m, rest, -, ⟨-, -, huuid, -⟩, -, hturned⟩ := idle_or_turned hstep
  · rw [hidle.state]; exact h
  · rw [hturned.state]; exact h.handle huuid m

/-- **An id denotes the same actor ever after.** -/
theorem denotes_of_run {ls : List (Label β)} {r : RemoteActorId} {actor : ActorId}
    (hrun : Transition.Run Node.step Transition.Any ls n n') (h : n.state.Denotes r actor) :
    n'.state.Denotes r actor :=
  hrun.invariant (P := fun n => n.state.Denotes r actor) (fun _ _ _ h _ hstep => denotes_of_step hstep h) h

end
end Node

/-- **The registry of a portal.** In every reachable state, whatever the peer sends and however the detached
    tasks interleave: no two entries are for the same actor; every name is that of an entry; every id that
    was ever handed out, in an answer, in an exit notice or inside a message, carries the channel and the
    side, and denotes one actor in this and in every later state; and a turn hands out ids for the actor
    that its message is about. -/
theorem registry_sound (setup : Setup) (ls : List (Label β)) (n : Node β)
    (hrun : Transition.Run Node.step Transition.Any ls (Node.started setup) n) :
    (∀ id id' actor, n.state.publishedActors.lookup id = some actor →
      n.state.publishedActors.lookup id' = some actor → id = id') ∧
    (∀ name id, n.state.namedActors.lookup name = some id →
      ∃ actor, n.state.publishedActors.lookup id = some actor) ∧
    (∀ r ∈ n.handedOut, ∃ actor, ∀ ms n', Transition.Run Node.step Transition.Any ms n n' →
      n'.state.channelState = .opened r.connectionKey ∧ r.side = n'.state.args.localId ∧
      n'.state.publishedActors.lookup r.id = some actor) ∧
    ∀ uuid nexus sink n', Node.step (.handle uuid nexus sink) n = some n' → ∃ m rest, n.mailbox = m :: rest ∧
      ∀ r ∈ (handle (n.env uuid nexus sink) n.state m).minted, ∃ actor, m.subject n.state nexus = some actor ∧
        n'.state.publishedActors.lookup r.id = some actor := by
  have hsound := Node.Sound.of_run hrun
  refine ⟨hsound.consistent.distinct, hsound.consistent.named, ?_, ?_⟩
  · intro r hr
    obtain ⟨actor, hdenotes⟩ := hsound.denotes hr
    refine ⟨actor, fun ms n' hrun' => ?_⟩
    have hlater := Node.denotes_of_run hrun' hdenotes
    exact ⟨hlater.channel, hlater.side, hlater.lookup⟩
  · intro uuid nexus sink n' hstep
    obtain ⟨⟨-, -, huuid, -⟩, m, rest, hmail, hturned⟩ := Node.turned_of_handle hstep
    refine ⟨m, rest, hmail, fun r hr => ?_⟩
    obtain ⟨actor, hsubject, hdenotes⟩ := handle_denotes hsound.consistent huuid hr
    exact ⟨actor, hsubject, hturned.state ▸ hdenotes.lookup⟩

/-- Actor 0 is published as 8. -/
def publishes : List (Label Nat) :=
  [.recv (some (.handshake (some (twoSides .right).introduction))), .handle ⟨7⟩ none .flushed,
   .request (.publishActor 0 true), .handle ⟨8⟩ none .flushed]

theorem registry_sound_publishes : ∃ n, Transition.exec Node.step publishes (Node.started (twoSides .left)) = some n ∧
    ∃ actor, ∀ ms n', Transition.Run Node.step Transition.Any ms n n' →
      n'.state.publishedActors.lookup ⟨8⟩ = some actor := by
  have heval : (Transition.exec Node.step publishes (Node.started (twoSides .left))).map (fun n =>
      decide ((⟨⟨0x06060606060606060606060606060606⟩, ⟨1⟩, ⟨8⟩⟩ : RemoteActorId) ∈ n.handedOut)) = some true := by
    decide +kernel
  obtain ⟨n, hn, hmem⟩ := Option.map_eq_some_iff.mp heval
  obtain ⟨-, -, hids, -⟩ := registry_sound _ publishes n (Transition.run_of_exec hn)
  obtain ⟨actor, hactor⟩ := hids _ (of_decide_eq_true hmem)
  exact ⟨n, hn, actor, fun ms n' hrun => (hactor ms n' hrun).2.2⟩

end Portal
end Wormhole
