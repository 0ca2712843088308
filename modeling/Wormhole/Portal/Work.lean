import Mathlib.Algebra.BigOperators.Group.List.Basic
import Mathlib.Algebra.Order.BigOperators.Group.List
import Wormhole.Portal.Pair

/-!
# `Portal.Work` — how much is left to do for what is on its way

What local code has sent goes on by itself: proxies relay it, tasks serialize it, the portals take their messages
and the receive loops read the frames. Each of these steps makes the work that is left smaller, where a message
counts for all the steps that it can still cause. So this comes to an end, whatever the order of the steps.
-/

namespace Wormhole
namespace Portal

variable {β : Type}

/-! ## Steps and weights -/

/-- What goes on without local code and without its actors. -/
def Label.isDelivery : Label β → Bool
  | .recv _ | .handle _ _ _ | .rebuildRef | .rebuildDone | .register _ | .relay _ | .forward _ => true
  | .taskPublish _ | .taskPublished _ | .taskPost _ => true
  | _ => false

def PairLabel.isDelivery : PairLabel β → Bool
  | .receive _ => true
  | .move _ label => label.isDelivery

/-- A message of a portal counts for its turn, and for what comes of it: a reference that arrives is a proxy that is
    created, and registered. -/
def CrossPortalMessage.work : CrossPortalMessage β → Nat
  | .requestActorByName _ _ => 3
  | .sendMessage _ data => 2 + 2 * data.refs.length
  | _ => 1

def PortalActorMessage.work : PortalActorMessage β → Nat
  | .content (some msg) => msg.work
  | .queryNamedRemoteActor _ _ => 5
  | .immaterializeMessage _ msg => 6 + 6 * msg.refs.length
  | .transmitMessage _ bytes => 4 + 2 * bytes.refs.length
  | .localActorExited _ => 3
  | _ => 1

/-- A frame has to be read first. -/
def ConduitMessage.work : ConduitMessage β → Nat
  | .content (some msg) => msg.work + 1
  | _ => 2

/-- A reference is published, which is a turn of the portal, and then it is on the wire. -/
def Immaterialization.work (t : Immaterialization β) : Nat :=
  5 + 2 * t.done.length +
    match t.todo with
    | [] => 0
    | _ :: todo => 6 * todo.length + if t.asked.isSome then 4 else 6

/-- What there is to do for the frame that is read. -/
def Label.reads : Label β → Nat
  | .recv (some frame) => frame.work
  | _ => 0

theorem Label.reads_eq_zero {l : Label β} (h : ∀ frame, l ≠ .recv (some frame)) : l.reads = 0 := by
  unfold Label.reads
  split
  · rename_i frame
    exact absurd rfl (h frame)
  · rfl

def Rebuilding.work (r : Rebuilding β) : Nat := 1 + 2 * r.todo.length

def Effect.work : Effect β → Nat
  | .send msg => msg.work + 1
  | .spawn target msg => (Node.immaterialization target msg).2.work
  | _ => 0

def Outcome.work : Outcome β → Nat
  | .rematerialize _ data => 1 + 2 * data.refs.length
  | _ => 0

def Turn.work (turn : Turn β) : Nat := (turn.effects.map Effect.work).sum + turn.outcome.work

/-- What there is to do for what is in some place of this side. -/
def Node.queued (n : Node β) : Nat :=
  (n.mailbox.map PortalActorMessage.work).sum + (n.inbox.map fun e => 8 + 6 * e.2.refs.length).sum +
    (n.channel.map fun e => 7 + 6 * e.2.refs.length).sum + (n.tasks.map fun e => e.2.work).sum +
    2 * n.creating.length + n.rebuilding.elim 0 Rebuilding.work

/-- A receive loop can still end. -/
def Node.work (n : Node β) : Nat := n.queued + if n.receiving then 2 else 0

namespace Pair

/-- What the other side has sent and this one has not read. -/
def unread (p : Pair β) (s : Side) : List (ConduitMessage β) := (p.node s.other).sent.drop (p.read s)

def workAt (p : Pair β) (s : Side) : Nat := (p.node s).work + ((p.unread s).map ConduitMessage.work).sum

def work (p : Pair β) : Nat := p.workAt .left + p.workAt .right

end Pair

/-! ## A turn -/

section

variable (env : HandleEnv) (state : PortalActorState) (effects : List (Effect β))

theorem immaterialization_work (target : RemoteActorId) (msg : Msg β) :
    (Node.immaterialization target msg).2.work = 5 + 6 * msg.refs.length := by
  unfold Immaterialization.work
  cases hrefs : msg.refs with
  | nil => simp [Node.immaterialization, hrefs]
  | cons ref refs => simp [Node.immaterialization, hrefs, Nat.mul_add]

theorem replying_work (port : PortId) (value : ReplyValue β) :
    (replying env state effects port value).work = (effects.map Effect.work).sum := by
  unfold replying
  split <;> simp [Turn.work, Effect.work, Outcome.work]

theorem sending_work (msg : CrossPortalMessage β) :
    (sending env state effects msg).work ≤ (effects.map Effect.work).sum + (msg.work + 1) := by
  unfold sending
  split <;> simp [Turn.work, Effect.work, Outcome.work]

theorem publishActor_work (published : HashMap OpaqueActorId ActorId) (actor : ActorId) :
    ((publishActor (β := β) env published actor).effects.map Effect.work).sum = 0 := by
  unfold publishActor
  split <;> rfl

theorem handleRequestActorByName_work (channelId : ConduitID) (id : CrossPortalMessageId) (name : String) :
    (handleRequestActorByName (β := β) env state channelId id name).work ≤ 2 := by
  unfold handleRequestActorByName
  split
  · exact sending_work ..
  · split
    · exact Nat.zero_le 2
    · exact sending_work ..
    · refine (sending_work ..).trans ?_
      rw [publishActor_work]
      exact Nat.le_refl 2

theorem handleResponse_work (id : CrossPortalMessageId) (response : Resolution) :
    (handleResponse (β := β) env state id response).work < 1 := by
  unfold handleResponse
  split
  · rw [replying_work]
    exact Nat.zero_lt_one
  · exact Nat.zero_lt_one

theorem handleContent_work (data : Option (CrossPortalMessage β)) :
    (handleContent env state data).work < (PortalActorMessage.content data).work := by
  have hpos : 0 < (PortalActorMessage.content data).work := by
    obtain _ | _ | _ | _ | ⟨target, data⟩ | _ := data
    case some.sendMessage => exact Nat.lt_of_lt_of_le (Nat.succ_pos 1) (Nat.le_add_right ..)
    all_goals exact Nat.succ_pos _
  unfold handleContent
  cases state.channelState with
  | opening own => exact hpos
  | opened channelId =>
    cases data with
    | none => exact hpos
    | some msg =>
      cases msg with
      | requestActorByName id name => exact Nat.lt_succ_of_le (handleRequestActorByName_work ..)
      | responseActorByName id response => exact handleResponse_work ..
      | responseActorById id response => exact handleResponse_work ..
      | sendMessage target data =>
        show (handleSendMessage state target data).work < 2 + 2 * data.refs.length
        unfold handleSendMessage
        split
        · show 0 + (1 + 2 * data.refs.length) < 2 + 2 * data.refs.length
          omega
        · show 0 < 2 + 2 * data.refs.length
          omega
      | actorExited id =>
        show (handleActorExited state id).work < 1
        unfold handleActorExited
        split <;> exact Nat.zero_lt_one

/-- **A turn leaves less to do than its message.** -/
theorem handle_work (m : PortalActorMessage β) : (handle env state m).work < m.work := by
  have hpublish (name : String) (actor : ActorId) (reply : Option PortId) :
      (handlePublishNamedActor (β := β) env state name actor reply).work = 0 := by
    unfold handlePublishNamedActor
    split
    · exact Nat.add_eq_zero_iff.mpr ⟨publishActor_work .., rfl⟩
    · split <;> rw [replying_work, publishActor_work]
  cases m with
  | handshake text =>
    show (handleHandshake env state text).work < 1
    unfold handleHandshake
    split
    · split
      · exact Nat.zero_lt_one
      · -- whoever waits for the handshake is answered at once
        have hnone (ports : List PortId) : ((ports.map fun port => (.reply port .opened : Effect β)).map
            Effect.work).sum = 0 := by
          rw [List.map_map, List.sum_eq_zero]
          rintro _ hx
          obtain ⟨port, -, rfl⟩ := List.mem_map.mp hx
          rfl
        exact Nat.lt_succ_of_le (Nat.le_of_eq (hnone _))
    · exact Nat.zero_lt_one
  | content data => exact handleContent_work env state data
  | close => exact Nat.zero_lt_one
  | waitForHandshake reply =>
    show (handleWaitForHandshake env state reply).work < 1
    unfold handleWaitForHandshake
    split
    · exact Nat.zero_lt_one
    · rw [replying_work]
      exact Nat.zero_lt_one
  | publishNamedActor name actor reply =>
    show (handlePublishNamedActor env state name actor reply).work < 1
    rw [hpublish]
    exact Nat.zero_lt_one
  | publishActor actor reply =>
    show (handlePublishActor env state actor reply).work < 1
    unfold handlePublishActor
    split
    · exact Nat.lt_succ_of_le (Nat.le_of_eq (Nat.add_eq_zero_iff.mpr ⟨publishActor_work .., rfl⟩))
    · split
      · exact Nat.zero_lt_one
      · rw [replying_work, publishActor_work]
        exact Nat.zero_lt_one
  | queryNamedRemoteActor name reply =>
    show (handleQueryNamedRemoteActor env state name reply).work < 5
    unfold handleQueryNamedRemoteActor
    split
    · exact Nat.succ_pos 4
    · exact Nat.lt_succ_of_le (sending_work ..)
  | immaterializeMessage target msg =>
    show (handleImmaterializeMessage state target msg).work < 6 + 6 * msg.refs.length
    unfold handleImmaterializeMessage
    split
    · exact Nat.lt_of_lt_of_le (Nat.succ_pos 5) (Nat.le_add_right ..)
    · show (Node.immaterialization target msg).2.work + 0 + 0 < 6 + 6 * msg.refs.length
      rw [immaterialization_work]
      omega
  | transmitMessage target bytes =>
    show (handleTransmitMessage env state target bytes).work < 4 + 2 * bytes.refs.length
    unfold handleTransmitMessage
    split
    · exact Nat.lt_of_lt_of_le (Nat.succ_pos 3) (Nat.le_add_right ..)
    · have hsending := sending_work env state [] (.sendMessage target bytes)
      have hframe : (CrossPortalMessage.sendMessage target bytes).work = 2 + 2 * bytes.refs.length := rfl
      rw [hframe] at hsending
      simp at hsending
      omega
  | registerProxyForRemoteActor id actor =>
    show (handleRegisterProxyForRemoteActor (β := β) state id actor).work < 1
    unfold handleRegisterProxyForRemoteActor
    split <;> exact Nat.zero_lt_one
  | localActorExited actor =>
    show (handleLocalActorExited env state actor).work < 3
    unfold handleLocalActorExited
    split
    · exact Nat.succ_pos 2
    · split
      · exact Nat.succ_pos 2
      · exact Nat.lt_succ_of_le (sending_work ..)

end

/-- What a turn does is what it sends and what it spawns. -/
theorem Turn.work_eq (turn : Turn β) : turn.work = (turn.frames.map fun msg => msg.work + 1).sum +
    (turn.spawned.map fun s => (Node.immaterialization s.1 s.2).2.work).sum + turn.outcome.work := by
  have heffects (effects : List (Effect β)) : (effects.map Effect.work).sum =
      ((effects.filterMap Effect.frame?).map fun msg => msg.work + 1).sum +
      ((effects.filterMap Effect.spawned?).map fun s => (Node.immaterialization s.1 s.2).2.work).sum := by
    induction effects with
    | nil => rfl
    | cons effect effects ih =>
      rw [List.map_cons, List.sum_cons, ih]
      cases effect <;> simp [List.filterMap_cons, Effect.frame?, Effect.spawned?, Effect.work] <;> omega
  rw [Turn.work, heffects]
  rfl

/-! ## A step of a side -/

namespace Node

variable {n n' : Node β} {l : Label β}

theorem sum_of_dequeue {κ α : Type} [DecidableEq κ] {q rest : Queues κ α} {k : κ} {a : α}
    (h : q.dequeue k = some (a, rest)) (f : κ × α → Nat) : (q.map f).sum = f (k, a) + (rest.map f).sum := by
  rw [((Queues.perm_of_dequeue h).map f).sum_eq, List.map_cons, List.sum_cons]

theorem sum_filter_le {α : Type} (xs : List α) (p : α → Bool) (f : α → Nat) :
    ((xs.filter p).map f).sum ≤ (xs.map f).sum :=
  ((List.filter_sublist).map f).sum_le_sum fun _ _ => Nat.zero_le _

theorem queued_kill_le (n : Node β) (actors : List ActorId) : (n.kill actors).queued ≤ n.queued := by
  have hinbox := sum_filter_le n.inbox (fun e => e.1 ∉ actors) fun e => 8 + 6 * e.2.refs.length
  unfold queued kill
  dsimp only
  omega

theorem queued_halt_le (n : Node β) (life : Life) : (n.halt life).queued ≤ n.queued := by
  have hkill := n.queued_kill_le (n.proxies.map Prod.fst ++ n.rpcProxies.map Prod.fst)
  refine Nat.le_trans ?_ hkill
  unfold queued halt kill
  simp only [List.map_nil, List.sum_nil, List.length_nil, Option.elim_none]
  omega

theorem queued_post_le (n : Node β) (m : PortalActorMessage β) : (n.post m).queued ≤ n.queued + m.work := by
  unfold queued post
  split
  · simp only [List.map_append, List.sum_append, List.map_singleton, List.sum_singleton]
    omega
  · simp only [List.append_nil]
    omega

theorem work_receive (hreceiving : n.receiving = true) (frame : Option (ConduitMessage β)) :
    (n.receive frame).work < n.work + (Label.recv frame).reads := by
  have hposts (m : PortalActorMessage β) (receiving : Bool) :
      { n.post m with receiving }.work + 2 ≤ n.work + m.work + if receiving then 2 else 0 := by
    have hpost := n.queued_post_le m
    have hsame : { n.post m with receiving }.queued = (n.post m).queued := rfl
    unfold work
    rw [hsame, if_pos hreceiving]
    dsimp only
    omega
  have hopen (m : PortalActorMessage β) :
      { n.post m with receiving := n.life = Life.running }.work ≤ n.work + m.work := by
    have hpost := hposts m (decide (n.life = Life.running))
    split at hpost <;> omega
  obtain _ | text | data | reason := frame
  · have hclose := hposts .close false
    have hone : (PortalActorMessage.close (β := β)).work = 1 := rfl
    show { n.post .close with receiving := false }.work < n.work + 0
    rw [hone, if_neg Bool.false_ne_true] at hclose
    omega
  · exact Nat.lt_of_le_of_lt (hopen _) (Nat.lt_succ_self _)
  · refine Nat.lt_of_le_of_lt (hopen _) (Nat.add_lt_add_left ?_ _)
    show (PortalActorMessage.content data).work < (ConduitMessage.content data).work
    cases data with
    | none => exact Nat.lt_succ_self 1
    | some msg => exact Nat.lt_succ_self msg.work
  · have hclose := hposts .close false
    have hone : (PortalActorMessage.close (β := β)).work = 1 := rfl
    show { n.post .close with receiving := false }.work < n.work + 2
    rw [hone, if_neg Bool.false_ne_true] at hclose
    omega

theorem queued_takeTurn {m : PortalActorMessage β} {rest : List (PortalActorMessage β)} (hmail : n.mailbox = m :: rest)
    (turn : Turn β) : (n.takeTurn m rest turn).queued + m.work ≤
      n.queued + (turn.spawned.map fun s => (immaterialization s.1 s.2).2.work).sum := by
  have hkill := n.queued_kill_le turn.stopped
  unfold queued takeTurn kill at *
  simp only [hmail, List.map_cons, List.sum_cons, List.map_append, List.sum_append, List.map_map] at hkill ⊢
  have hspawned : (turn.spawned.map ((fun e => e.2.work) ∘ fun s => immaterialization s.1 s.2)).sum =
    (turn.spawned.map fun s => (immaterialization s.1 s.2).2.work).sum := rfl
  omega

theorem queued_endTurn (hnone : n.rebuilding = none) (outcome : Outcome β) :
    (n.endTurn outcome).queued ≤ n.queued + outcome.work := by
  cases outcome with
  | ok => exact Nat.le_refl _
  | stop reason => exact n.queued_halt_le _
  | err error => exact n.queued_halt_le _
  | rematerialize actor data =>
    unfold queued endTurn
    simp only [hnone, Option.elim_none, Option.elim_some, Rebuilding.work, Outcome.work]
    omega

theorem queued_handle {uuid : OpaqueActorId} {nexus : Option (Option ActorId)} {sink : SinkResult}
    (hstep : step (.handle uuid nexus sink) n = some n') : ∃ frames, n'.sent = n.sent ++ frames ∧
      n'.receiving = n.receiving ∧ n'.queued + (frames.map ConduitMessage.work).sum < n.queued := by
  obtain ⟨-, m, rest, hmail, hturned⟩ := turned_of_handle hstep
  obtain ⟨hfits, m', rest', hmail', rfl⟩ := handle_inv hstep
  cases hmail.symm.trans hmail'
  refine ⟨_, hturned.sent, ?_, ?_⟩
  · cases (Portal.handle (n.env uuid nexus sink) n.state m).outcome <;> rfl
  have hturn := handle_work (n.env uuid nexus sink) n.state m
  have htake := queued_takeTurn hmail (Portal.handle (n.env uuid nexus sink) n.state m)
  have hend := queued_endTurn (n := n.takeTurn m rest (Portal.handle (n.env uuid nexus sink) n.state m)) hfits.2.1
    (Portal.handle (n.env uuid nexus sink) n.state m).outcome
  have hframes (frames : List (CrossPortalMessage β)) :
      ((frames.map fun msg => ConduitMessage.content (some msg)).map ConduitMessage.work).sum =
        (frames.map fun msg => msg.work + 1).sum := by
    rw [List.map_map]
    rfl
  rw [Turn.work_eq] at hturn
  rw [hframes]
  omega

theorem queued_rebuildDone (hstep : step .rebuildDone n = some n') :
    n'.sent = n.sent ∧ n'.receiving = n.receiving ∧ n'.queued < n.queued := by
  obtain ⟨r, hr, htodo, rfl⟩ := rebuildDone_inv hstep
  have hsmaller : { n with rebuilding := none }.queued < n.queued := by
    unfold queued
    rw [hr]
    simp only [Option.elim_none, Option.elim_some, Rebuilding.work]
    omega
  obtain ⟨error, heq⟩ | ⟨body, -, -, heq⟩ := n.deliver_cases r
  · rw [heq]
    refine ⟨rfl, rfl, Nat.lt_of_le_of_lt ?_ hsmaller⟩
    exact ({ n with rebuilding := none }).queued_halt_le (.failed error)
  · rw [heq]
    exact ⟨rfl, rfl, hsmaller⟩

/-- A task gets on with a reference. -/
theorem taskPublish_queued {tag : Tag} (hstep : step (.taskPublish tag) n = some n') : n'.queued < n.queued := by
  obtain ⟨t, rest, ref, todo, hdequeue, hasked, htodo, -, rfl⟩ := taskPublish_inv hstep
  have hsum : (n.tasks.map fun e => e.2.work).sum = t.work + (rest.map fun e => e.2.work).sum :=
    sum_of_dequeue hdequeue _
  have hbefore : t.work = 5 + 2 * t.done.length + (6 * todo.length + 6) := by
    rw [Immaterialization.work, hasked, htodo]
    rfl
  have hafter : ({ t with asked := some n.nextPort } : Immaterialization β).work =
      5 + 2 * t.done.length + (6 * todo.length + 4) := by
    rw [Immaterialization.work, htodo]
    rfl
  have hless : { n with tasks := rest ++ [(tag, { t with asked := some n.nextPort })] }.queued + 2 = n.queued := by
    unfold queued
    simp only [List.map_append, List.sum_append, List.map_singleton, List.sum_singleton]
    omega
  -- the request is a message of weight one, whatever the reference is
  have hone (m : PortalActorMessage β) (hm : m.work = 1) (n'' : Node β)
      (hsame : n''.queued = { n with tasks := rest ++ [(tag, { t with asked := some n.nextPort })] }.queued) :
      (n''.post m).queued < n.queued := by
    have hpost := n''.queued_post_le m
    omega
  cases ref with
  | actorRef actor => exact hone _ rfl _ rfl
  | replyPort timeout port => exact hone _ rfl _ rfl

theorem taskPublished_queued {tag : Tag} (hstep : step (.taskPublished tag) n = some n') : n'.queued < n.queued := by
  obtain ⟨t, rest, port, id, ref, todo, hdequeue, hasked, -, htodo, rfl⟩ := taskPublished_inv hstep
  have hsum : (n.tasks.map fun e => e.2.work).sum = t.work + (rest.map fun e => e.2.work).sum :=
    sum_of_dequeue hdequeue _
  have hbefore : t.work = 5 + 2 * t.done.length + (6 * todo.length + 4) := by
    rw [Immaterialization.work, hasked, htodo]
    rfl
  have hafter : ({ t with todo, done := t.done ++ [n.serialize id ref], asked := none } : Immaterialization β).work ≤
      5 + 2 * (t.done.length + 1) + 6 * todo.length := by
    unfold Immaterialization.work
    cases todo with
    | nil => simp
    | cons ref' todo => simp; omega
  unfold queued
  simp only [List.map_append, List.sum_append, List.map_singleton, List.sum_singleton]
  omega

/-- The steps that leave the portal actor alone. -/
theorem queued_of_quiet (hl : l.isDelivery = true) (hpump : l.isPump = false) (hstep : step l n = some n') :
    n'.queued < n.queued := by
  cases l with
  | rebuildRef =>
    obtain ⟨r, ref, todo, hr, htodo, rfl⟩ := rebuildRef_inv hstep
    have hposted : (n.rebuild r ref todo).queued ≤ { n with rebuilding := some { r with todo } }.queued + 1 := by
      cases ref with
      | actorRef id => exact queued_post_le { n with rebuilding := some { r with todo } } (.registerProxyForRemoteActor id n.nextActor)
      | replyPort timeoutMs id =>
        exact queued_post_le { n with rebuilding := some { r with todo } } (.registerProxyForRemoteActor id n.nextActor)
    have hless : { n with rebuilding := some { r with todo } }.queued + 2 = n.queued := by
      unfold queued
      rw [hr]
      simp only [Option.elim_some, Rebuilding.work, htodo, List.length_cons]
      omega
    omega
  | register proxy =>
    obtain ⟨remote, rest, hdequeue, rfl⟩ := register_inv hstep
    have hlength := (Queues.perm_of_dequeue hdequeue).length_eq
    have hpost := queued_post_le { n with creating := rest } (.registerProxyForRemoteActor remote proxy)
    have hless : { n with creating := rest }.queued + 2 = n.queued := by
      rw [List.length_cons] at hlength
      unfold queued
      dsimp only
      omega
    have hone : (PortalActorMessage.registerProxyForRemoteActor (β := β) remote proxy).work = 1 := rfl
    omega
  | relay proxy =>
    obtain ⟨msg, rest, hdequeue, rfl⟩ := relay_inv hstep
    have hsum := sum_of_dequeue hdequeue fun e => 8 + 6 * e.2.refs.length
    unfold queued
    dsimp only at hsum
    simp only [List.map_append, List.sum_append, List.map_singleton, List.sum_singleton]
    omega
  | forward proxy =>
    obtain ⟨msg, rest, remote, hdequeue, -, rfl⟩ := forward_inv hstep
    have hsum := sum_of_dequeue hdequeue fun e => 7 + 6 * e.2.refs.length
    have hpost := queued_post_le { n with channel := rest } (.immaterializeMessage remote msg)
    have hless : { n with channel := rest }.queued + (7 + 6 * msg.refs.length) = n.queued := by
      unfold queued
      dsimp only at hsum ⊢
      omega
    have hwork : (PortalActorMessage.immaterializeMessage remote msg).work = 6 + 6 * msg.refs.length := rfl
    omega
  | taskPublish tag => exact taskPublish_queued hstep
  | taskPublished tag => exact taskPublished_queued hstep
  | taskPost tag =>
    obtain ⟨t, rest, hdequeue, htodo, rfl⟩ := taskPost_inv hstep
    have hsum : (n.tasks.map fun e => e.2.work).sum = t.work + (rest.map fun e => e.2.work).sum :=
      sum_of_dequeue hdequeue _
    have hpost := queued_post_le { n with tasks := rest, posted := n.posted ++ [tag] }
      (.transmitMessage t.target { tag, refs := t.done, body := some t.body })
    have hbefore : t.work = 5 + 2 * t.done.length := by
      rw [Immaterialization.work, htodo]
      rfl
    have hless : { n with tasks := rest, posted := n.posted ++ [tag] }.queued + t.work = n.queued := by
      unfold queued
      dsimp only at hsum ⊢
      omega
    have hwork : (PortalActorMessage.transmitMessage t.target { tag, refs := t.done, body := some t.body }).work =
      4 + 2 * t.done.length := rfl
    omega
  | recv frame => cases hpump
  | handle uuid nexus sink => cases hpump
  | rebuildDone => cases hpump
  | _ => cases hl

/-- **Every step.** What is on its way on this side, and what has just been put on the wire, is less work than before. -/
theorem work_of_step (hl : l.isDelivery = true) (hstep : step l n = some n') : ∃ frames, n'.sent = n.sent ++ frames ∧
    n'.work + (frames.map ConduitMessage.work).sum < n.work + l.reads := by
  cases hpump : l.isPump with
  | false =>
    have hquiet := quiet_of_step hpump hstep
    have hless := queued_of_quiet hl hpump hstep
    refine ⟨[], hquiet.sent.trans (List.append_nil _).symm, ?_⟩
    unfold work
    rw [hquiet.receiving]
    simp only [List.map_nil, List.sum_nil]
    omega
  | true =>
    cases l with
    | recv frame =>
      obtain ⟨hreceiving, rfl⟩ := recv_inv hstep
      refine ⟨[], ?_, work_receive hreceiving frame⟩
      obtain _ | _ | _ | _ := frame <;> exact (List.append_nil _).symm
    | handle uuid nexus sink =>
      obtain ⟨frames, hsent, hreceiving, hless⟩ := queued_handle hstep
      refine ⟨frames, hsent, ?_⟩
      unfold work
      rw [hreceiving]
      omega
    | rebuildDone =>
      obtain ⟨hsent, hreceiving, hless⟩ := queued_rebuildDone hstep
      refine ⟨[], hsent.trans (List.append_nil _).symm, ?_⟩
      unfold work
      rw [hreceiving]
      simp only [List.map_nil, List.sum_nil]
      omega
    | _ => cases hpump

end Node

/-! ## A step of the pair -/

namespace Pair

variable {p q : Pair β} {l : PairLabel β}

theorem work_eq (p : Pair β) (s : Side) : p.work = p.workAt s + p.workAt s.other := by
  cases s
  · rfl
  · exact Nat.add_comm _ _

/-- **Every step makes the work smaller.** -/
theorem work_lt_of_step (hl : l.isDelivery = true) (hstep : Pair.step l p = some q) : q.work < p.work := by
  obtain ⟨s, label, hlabel, hnode, hother, hread, hrecv⟩ := step_cases hstep
  have hdelivery : label.isDelivery = true := by
    obtain ⟨rfl, frame, rfl⟩ | rfl := hlabel
    · rfl
    · exact hl
  obtain ⟨frames, hsent, hless⟩ := Node.work_of_step hdelivery hnode
  -- the other side has more to read
  have hgrows : ((q.unread s.other).map ConduitMessage.work).sum ≤
      ((p.unread s.other).map ConduitMessage.work).sum + (frames.map ConduitMessage.work).sum := by
    unfold unread
    rw [Side.other_other, hsent, hread, List.drop_append, List.map_append, List.sum_append]
    exact Nat.add_le_add_left (((List.drop_sublist _ _).map _).sum_le_sum fun _ _ => Nat.zero_le _) _
  have hshrinks : ((q.unread s).map ConduitMessage.work).sum + label.reads ≤
      ((p.unread s).map ConduitMessage.work).sum := by
    unfold unread
    rw [hother]
    obtain ⟨frame, rfl, hframe, hnext⟩ | ⟨hsame, hnone⟩ := hrecv
    · obtain ⟨hlt, hframe⟩ := List.getElem?_eq_some_iff.mp hframe
      rw [hnext, List.drop_eq_getElem_cons hlt, hframe, List.map_cons, List.sum_cons]
      exact Nat.le_of_eq (Nat.add_comm _ _)
    · rw [hsame, Label.reads_eq_zero hnone]
      exact Nat.le_refl _
  rw [q.work_eq s, p.work_eq s]
  unfold workAt
  rw [hother]
  omega

end Pair

end Portal
end Wormhole
