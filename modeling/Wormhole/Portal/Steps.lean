import Mathlib.Tactic.Tauto
import Wormhole.Portal.Node

/-!
# `Portal.Steps` — what one step can do to a side

Only four labels move the portal actor itself: it receives, it takes a turn, and the rematerializer of a
`SendMessage` goes on or ends. Every other step leaves the actor's state, its life and its wire alone and at
most posts a message that belongs to the label (`Quiet`). The invariants of runs are proved from these
lemmas.
-/

namespace Wormhole
namespace Portal

open Queues

variable {β : Type}

/-- The messages that a label can post. -/
def Label.posts : Label β → PortalActorMessage β → Prop
  | .request _, .publishNamedActor _ _ _ => True
  | .request _, .publishActor _ _ => True
  | .request _, .queryNamedRemoteActor _ _ => True
  | .request _, .waitForHandshake _ => True
  | .rebuildRef, .registerProxyForRemoteActor _ _ => True
  | .register _, .registerProxyForRemoteActor _ _ => True
  | .notify actor, .localActorExited actor' => actor' = actor
  | .forward _, .immaterializeMessage _ _ => True
  | .taskPublish _, .publishActor _ (some _) => True
  | .taskPost _, .transmitMessage _ _ => True
  | _, _ => False

/-- The labels of the portal actor. -/
def Label.isPump : Label β → Bool
  | .recv _ | .handle _ _ _ | .rebuildDone => true
  | _ => false

/-- The labels that move a message of a proxy towards the wire. -/
def Label.isFlow : Label β → Bool
  | .sendTo _ _ _ | .forwardReply _ | .relay _ | .forward _ => true
  | .taskPublish _ | .taskPublished _ | .taskFail _ | .taskPost _ => true
  | _ => false

/-- The labels of the detached tasks that serialize messages. -/
def Label.isTask : Label β → Bool
  | .taskPublish _ | .taskPublished _ | .taskFail _ | .taskPost _ => true
  | _ => false

/-- The value is one that local code gave to a port. -/
def ReplyValue.isRpc : ReplyValue β → Bool
  | .rpc _ _ => true
  | _ => false

/-- The messages of the proxies stay where they are; a proxy that terminates loses its mailbox. -/
structure SameFlow (n n' : Node β) : Prop where
  inbox : n'.inbox.Sublist n.inbox := by exact List.Sublist.refl _
  channel : n'.channel = n.channel := by rfl
  tasks : n'.tasks = n.tasks := by rfl
  nextMsg : n'.nextMsg = n.nextMsg := by rfl
  submitted : n'.submitted = n.submitted := by rfl
  spawned : n'.spawned = n.spawned := by rfl
  posted : n'.posted = n.posted := by rfl
  unserialized : n'.unserialized = n.unserialized := by rfl

/-- The portal actor is left alone; at most messages come in that `l` posts. -/
structure Quiet (l : Label β) (n n' : Node β) : Prop where
  state : n'.state = n.state := by rfl
  life : n'.life = n.life := by rfl
  receiving : n'.receiving = n.receiving := by rfl
  sent : n'.sent = n.sent := by rfl
  handled : n'.handled = n.handled := by rfl
  delivered : n'.delivered = n.delivered := by rfl
  watchers : (∀ actor, l ≠ .notify actor) → n'.watchers = n.watchers := by exact fun _ => rfl
  rebuilding : l ≠ .rebuildRef → n'.rebuilding = n.rebuilding := by exact fun _ => rfl
  exited : n.exited ⊆ n'.exited := by exact List.Subset.refl _
  nextActor : n.nextActor ≤ n'.nextActor := by first | exact Nat.le_refl _ | exact Nat.le_succ _
  nextPort : n.nextPort ≤ n'.nextPort := by first | exact Nat.le_refl _ | exact Nat.le_succ _
  dropped : n.dropped ⊆ n'.dropped := by exact List.Subset.refl _
  rpcProxies : (∀ tag, l ≠ .taskPublish tag) → n'.rpcProxies = n.rpcProxies := by exact fun _ => rfl
  proxies : l ≠ .rebuildRef → (∀ remote, l ≠ .instantiate remote) → n'.proxies = n.proxies := by
    exact fun _ _ => rfl
  creating : (∀ remote, l ≠ .instantiate remote) → (∀ proxy, l ≠ .register proxy) →
    n'.creating = n.creating := by exact fun _ _ => rfl
  flow : l.isFlow = false → SameFlow n n' := by exact fun _ => {}
  tasks : l.isTask = false → n'.tasks = n.tasks := by exact fun _ => rfl
  posted : (∀ tag, l ≠ .taskPost tag) → n'.posted = n.posted := by exact fun _ => rfl
  replies : ∃ added, n'.replies = n.replies ++ added ∧ ∀ reply ∈ added, reply.2.isRpc = true := by
    exact ⟨[], (List.append_nil _).symm, fun _ h => absurd h List.not_mem_nil⟩
  answered : (∀ port body refs, l ≠ .trigger port body refs) → (∀ actor, l ≠ .answer actor) →
    n'.replies = n.replies := by exact fun _ _ => rfl
  rebuiltPorts : l ≠ .rebuildRef → (∀ port, l ≠ .forwardReply port) → n'.rebuiltPorts = n.rebuiltPorts := by
    exact fun _ _ => rfl
  held : (∀ proxy body refs, l ≠ .sendTo proxy body refs) → (∀ port body refs, l ≠ .trigger port body refs) →
    n.held ⊆ n'.held := by exact fun _ _ => List.Subset.refl _
  minted : n'.replies.flatMap (ReplyValue.minted ·.2) = n.replies.flatMap (ReplyValue.minted ·.2) := by rfl
  mailbox : ∃ ms, n'.mailbox = n.mailbox ++ ms ∧ ∀ m ∈ ms, l.posts m

namespace Node

theorem mem_mailbox_post {n : Node β} {m m' : PortalActorMessage β} (h : m' ∈ (n.post m).mailbox) :
    m' ∈ n.mailbox ∨ m' = m := by
  obtain hold | hnew := List.mem_append.mp h
  · exact .inl hold
  · split at hnew
    · exact .inr (List.mem_singleton.mp hnew)
    · cases hnew

theorem mailbox_same {l : Label β} {n n' : Node β} (h : n'.mailbox = n.mailbox) :
    ∃ ms, n'.mailbox = n.mailbox ++ ms ∧ ∀ m ∈ ms, l.posts m :=
  ⟨[], by rw [h, List.append_nil], by simp⟩

theorem mailbox_post {l : Label β} {n : Node β} {m : PortalActorMessage β} (h : l.posts m) :
    ∃ ms, (n.post m).mailbox = n.mailbox ++ ms ∧ ∀ m ∈ ms, l.posts m := by
  refine ⟨_, rfl, ?_⟩
  split <;> simp [h]

theorem replies_rpc {replies : List (PortId × ReplyValue β)} {port : PortId} {body : β} {refs : List LocalRef} :
    ∃ added, replies ++ [(port, .rpc body refs)] = replies ++ added ∧ ∀ reply ∈ added, reply.2.isRpc = true :=
  ⟨_, rfl, fun _ h => List.mem_singleton.mp h ▸ rfl⟩

theorem requestMessage_posts (n : Node β) (r : Request) : (Label.request r).posts (n.requestMessage r) := by
  cases r <;> exact trivial

theorem register_not_posted {l : Label β} (hreg : ∀ proxy, l ≠ .register proxy) (href : l ≠ .rebuildRef)
    {remote : RemoteActorId} {actor : ActorId} :
    ¬l.posts (.registerProxyForRemoteActor remote actor) := by
  cases l with
  | register proxy => exact absurd rfl (hreg proxy)
  | rebuildRef => exact absurd rfl href
  | _ => exact id

/-! ## The steps, label by label -/

section

variable {n n' : Node β}

theorem recv_inv {frame : Option (ConduitMessage β)} (h : step (.recv frame) n = some n') :
    n.receiving = true ∧ n' = n.receive frame := by
  simp only [step] at h
  split at h
  · rename_i hrec
    exact ⟨hrec, (Option.some.inj h).symm⟩
  · cases h

/-- **A turn**: the portal runs and waits for nothing, and the first message of its mailbox is handled. -/
theorem handle_inv {uuid : OpaqueActorId} {nexus : Option (Option ActorId)} {sink : SinkResult}
    (h : step (.handle uuid nexus sink) n = some n') :
    n.Fits uuid nexus ∧ ∃ m rest, n.mailbox = m :: rest ∧
      n' = (n.takeTurn m rest (Portal.handle (n.env uuid nexus sink) n.state m)).endTurn
        (Portal.handle (n.env uuid nexus sink) n.state m).outcome := by
  simp only [step] at h
  split at h
  · rename_i hfits
    split at h
    · cases h
    · rename_i m rest hmail
      exact ⟨hfits, m, rest, hmail, (Option.some.inj h).symm⟩
  · cases h

theorem handle_step {uuid : OpaqueActorId} {nexus : Option (Option ActorId)} {sink : SinkResult}
    {m : PortalActorMessage β} {rest : List (PortalActorMessage β)} {turn : Turn β} (hfits : n.Fits uuid nexus)
    (hmail : n.mailbox = m :: rest) (hturn : Portal.handle (n.env uuid nexus sink) n.state m = turn) :
    step (.handle uuid nexus sink) n = some ((n.takeTurn m rest turn).endTurn turn.outcome) := by
  simp only [step, if_pos hfits, hmail, hturn]

theorem request_inv {request : Request} (h : step (.request request) n = some n') :
    n.Permits request ∧ n' = { n.post (n.requestMessage request) with nextPort := n.nextPort + 1 } := by
  simp only [step] at h
  split at h
  · rename_i hpermits
    exact ⟨hpermits, (Option.some.inj h).symm⟩
  · cases h

theorem instantiate_inv {remote : RemoteActorId} (h : step (.instantiate remote) n = some n') :
    n' = { n.spawnProxy remote with creating := n.creating ++ [(n.nextActor, remote)] } := by
  simp only [step] at h
  split at h
  · exact (Option.some.inj h).symm
  · cases h

theorem register_inv {proxy : ActorId} (h : step (.register proxy) n = some n') :
    ∃ remote rest, n.creating.dequeue proxy = some (remote, rest) ∧
      n' = { n with creating := rest }.post (.registerProxyForRemoteActor remote proxy) := by
  simp only [step] at h
  split at h
  · rename_i remote rest hcreating
    exact ⟨remote, rest, hcreating, (Option.some.inj h).symm⟩
  · cases h

theorem dropPort_inv {port : PortId} (h : step (.dropPort port) n = some n') :
    n' = { n with dropped := n.dropped ++ [port] } := by
  simp only [step] at h
  split at h
  · exact (Option.some.inj h).symm
  · cases h

theorem exit_inv {actor : ActorId} (h : step (.exit actor) n = some n') :
    (actor < n.nextActor ∧ actor ∉ n.exited) ∧ n' = n.kill [actor] := by
  simp only [step] at h
  split at h
  · rename_i hcan
    exact ⟨hcan, (Option.some.inj h).symm⟩
  · cases h

theorem notify_inv {actor : ActorId} (h : step (.notify actor) n = some n') :
    (actor ∈ n.watchers ∧ actor ∈ n.exited) ∧
      n' = { n with watchers := n.watchers.erase actor }.post (.localActorExited actor) := by
  simp only [step] at h
  split at h
  · rename_i hwaits
    exact ⟨hwaits, (Option.some.inj h).symm⟩
  · cases h

theorem sendTo_inv {proxy : ActorId} {body : β} {refs : List LocalRef}
    (h : step (.sendTo proxy body refs) n = some n') :
    (proxy ∈ n.proxies.map Prod.fst ∧ proxy ∉ n.exited ∧ n.Owned refs) ∧
      n' = { n with held := n.held.filter (· ∉ portsOf refs) }.enqueue proxy body refs := by
  simp only [step] at h
  split at h
  · rename_i hcan
    exact ⟨hcan, (Option.some.inj h).symm⟩
  · cases h

theorem relay_inv {proxy : ActorId} (h : step (.relay proxy) n = some n') :
    ∃ msg rest, n.inbox.dequeue proxy = some (msg, rest) ∧
      n' = { n with inbox := rest, channel := n.channel ++ [(proxy, msg)] } := by
  simp only [step] at h
  split at h
  · rename_i msg rest hdequeue
    exact ⟨msg, rest, hdequeue, (Option.some.inj h).symm⟩
  · cases h

theorem forward_inv {proxy : ActorId} (h : step (.forward proxy) n = some n') :
    ∃ msg rest remote, n.channel.dequeue proxy = some (msg, rest) ∧ n.proxies.lookup proxy = some remote ∧
      n' = { n with channel := rest }.post (.immaterializeMessage remote msg) := by
  simp only [step] at h
  split at h
  · rename_i msg rest remote hdequeue hremote
    exact ⟨msg, rest, remote, hdequeue, hremote, (Option.some.inj h).symm⟩
  · cases h

/-- **A value that was given to a rebuilt port** becomes a message to its proxy, unless that is gone. -/
theorem forwardReply_inv {port : PortId} (h : step (.forwardReply port) n = some n') :
    ∃ proxy rest body refs, n.rebuiltPorts.dequeue port = some (proxy, rest) ∧
      n.rpcReply port = some (body, refs) ∧
      (proxy ∈ n.exited ∧ n' = { n with rebuiltPorts := rest } ∨
        proxy ∉ n.exited ∧ n' = { n with rebuiltPorts := rest }.enqueue proxy body refs) := by
  simp only [step] at h
  split at h
  · rename_i proxy rest body refs hdequeue hreply
    split at h
    · rename_i hgone
      exact ⟨proxy, rest, body, refs, hdequeue, hreply, .inl ⟨hgone, (Option.some.inj h).symm⟩⟩
    · rename_i hthere
      exact ⟨proxy, rest, body, refs, hdequeue, hreply, .inr ⟨hthere, (Option.some.inj h).symm⟩⟩
  · cases h

theorem taskPublish_inv {tag : Tag} (h : step (.taskPublish tag) n = some n') :
    ∃ t rest ref todo, n.tasks.dequeue tag = some (t, rest) ∧ t.asked = none ∧ t.todo = ref :: todo ∧
      n.life = .running ∧ n' = n.askPublish tag t rest ref := by
  simp only [step] at h
  split at h
  · rename_i t rest hdequeue
    split at h
    · rename_i ref todo hasked htodo
      split at h
      · rename_i hrun
        exact ⟨t, rest, ref, todo, hdequeue, hasked, htodo, hrun, (Option.some.inj h).symm⟩
      · cases h
    · cases h
  · cases h

theorem taskPublished_inv {tag : Tag} (h : step (.taskPublished tag) n = some n') :
    ∃ t rest port id ref todo, n.tasks.dequeue tag = some (t, rest) ∧ t.asked = some port ∧
      n.publishedAs port = some id ∧ t.todo = ref :: todo ∧
      n' = { n with tasks :=
        rest ++ [(tag, { t with todo, done := t.done ++ [n.serialize id ref], asked := none })] } := by
  simp only [step] at h
  split at h
  · rename_i t rest hdequeue
    split at h
    · rename_i id ref todo hid htodo
      obtain ⟨port, hport, hid⟩ := Option.bind_eq_some_iff.mp hid
      exact ⟨t, rest, port, id, ref, todo, hdequeue, hport, hid, htodo, (Option.some.inj h).symm⟩
    · cases h
  · cases h

theorem taskFail_inv {tag : Tag} (h : step (.taskFail tag) n = some n') :
    ∃ t rest, n.tasks.dequeue tag = some (t, rest) ∧
      n' = { n with tasks := rest, unserialized := n.unserialized ++ [tag] } := by
  simp only [step] at h
  split at h
  · rename_i t rest hdequeue
    exact ⟨t, rest, hdequeue, (Option.some.inj h).symm⟩
  · cases h

theorem taskPost_inv {tag : Tag} (h : step (.taskPost tag) n = some n') :
    ∃ t rest, n.tasks.dequeue tag = some (t, rest) ∧ t.todo = [] ∧
      n' = { n with tasks := rest, posted := n.posted ++ [tag] }.post
        (.transmitMessage t.target { tag, refs := t.done, body := some t.body }) := by
  simp only [step] at h
  split at h
  · rename_i t rest hdequeue
    split at h
    · rename_i htodo
      exact ⟨t, rest, hdequeue, htodo, (Option.some.inj h).symm⟩
    · cases h
  · cases h

theorem trigger_inv {port : PortId} {body : β} {refs : List LocalRef} (h : step (.trigger port body refs) n = some n') :
    (port ∈ n.held ∧ n.Owned refs ∧ port ∉ portsOf refs) ∧ n' = { n with
      held := (n.held.filter fun p => p ≠ port ∧ p ∉ portsOf refs) ++ n.received port refs
      replies := n.replies ++ [(port, .rpc body refs)] } := by
  simp only [step] at h
  split at h
  · rename_i hcan
    exact ⟨hcan, (Option.some.inj h).symm⟩
  · cases h

/-- **An `RpcProxyActor` answers** with the first message it got, unless nobody waits for the answer. -/
theorem answer_inv {actor : ActorId} (h : step (.answer actor) n = some n') :
    ∃ port msg, n.rpcProxies.lookup actor = some port ∧ n.rpcMessage actor = some msg ∧ actor ∉ n.exited ∧
      (n' = n.kill [actor] ∨ n' = { n.kill [actor] with
        held := n.held ++ n.received port msg.refs
        replies := n.replies ++ [(port, .rpc msg.body msg.refs)] }) := by
  simp only [step] at h
  split at h
  · rename_i port msg hport hmsg
    split at h
    · cases h
    · rename_i hlives
      refine ⟨port, msg, hport, hmsg, hlives, ?_⟩
      split at h
      · exact .inl (Option.some.inj h).symm
      · exact .inr (Option.some.inj h).symm
  · cases h

/-- The message an `RpcProxyActor` takes has been delivered to it. -/
theorem mem_of_rpcMessage {actor : ActorId} {msg : Msg β} (h : n.rpcMessage actor = some msg) :
    (actor, msg) ∈ n.delivered := by
  obtain ⟨⟨actor', msg'⟩, hfind, rfl⟩ := Option.map_eq_some_iff.mp h
  have hactor := List.find?_some hfind
  obtain rfl : actor' = actor := by simpa using hactor
  exact List.mem_of_find?_eq_some hfind

theorem mem_of_lookup {rpcProxies : List (ActorId × PortId)} {actor : ActorId} {port : PortId}
    (h : rpcProxies.lookup actor = some port) : (actor, port) ∈ rpcProxies := by
  obtain ⟨front, back, rfl, -⟩ := List.lookup_eq_some_iff.mp h
  simp

/-- What is answered to a `PublishActor` has been sent. -/
theorem mem_of_publishedAs {port : PortId} {id : RemoteActorId} (h : n.publishedAs port = some id) :
    (port, .published id) ∈ n.replies := by
  obtain ⟨reply, hmem, heq⟩ := List.exists_of_findSome?_eq_some h
  split at heq
  · rename_i port' id'
    split at heq
    · rename_i hport
      cases heq
      cases hport
      exact hmem
    · cases heq
  · cases heq

/-- The value that is forwarded from a rebuilt port has been given to it. -/
theorem mem_of_rpcReply {port : PortId} {body : β} {refs : List LocalRef}
    (h : n.rpcReply port = some (body, refs)) : (port, .rpc body refs) ∈ n.replies := by
  obtain ⟨reply, hmem, heq⟩ := List.exists_of_findSome?_eq_some h
  split at heq
  · rename_i port' data refs'
    split at heq
    · rename_i hport
      cases heq
      cases hport
      exact hmem
    · cases heq
  · cases heq

theorem rebuildRef_inv (h : step .rebuildRef n = some n') :
    ∃ r ref todo, n.rebuilding = some r ∧ r.todo = ref :: todo ∧ n' = n.rebuild r ref todo := by
  simp only [step] at h
  split at h
  · rename_i r hr
    split at h
    · rename_i ref todo htodo
      exact ⟨r, ref, todo, hr, htodo, (Option.some.inj h).symm⟩
    · cases h
  · cases h

/-- The rematerializer goes on with the references that are left. -/
theorem rebuild_rebuilding (n : Node β) (r : Rebuilding β) (ref : RemoteRef) (todo : List RemoteRef) :
    ∃ done, (n.rebuild r ref todo).rebuilding = some { r with todo, done } := by
  cases ref <;> exact ⟨_, rfl⟩

/-- A proxy is created for the reference, and its registration is posted. -/
theorem rebuild_fields (n : Node β) (r : Rebuilding β) (ref : RemoteRef) (todo : List RemoteRef) :
    (n.rebuild r ref todo).proxies = n.proxies ++ [(n.nextActor, ref.id)] ∧
    (n.rebuild r ref todo).creating = n.creating ∧ (n.rebuild r ref todo).state = n.state ∧
    (n.rebuild r ref todo).mailbox =
      n.mailbox ++ if n.life = .running then [.registerProxyForRemoteActor ref.id n.nextActor] else [] := by
  cases ref <;> exact ⟨rfl, rfl, rfl, rfl⟩

theorem rebuildDone_inv (h : step .rebuildDone n = some n') :
    ∃ r, n.rebuilding = some r ∧ r.todo = [] ∧ n' = n.deliver r := by
  simp only [step] at h
  split at h
  · rename_i r hr
    split at h
    · rename_i htodo
      exact ⟨r, hr, htodo, (Option.some.inj h).symm⟩
    · cases h
  · cases h

end

/-! ## Quiet steps -/

/-- **A step of any other label is quiet.** -/
theorem quiet_of_step {l : Label β} {n n' : Node β} (hl : l.isPump = false) (h : step l n = some n') :
    Quiet l n n' := by
  -- only the fields that a step touches are written out
  cases l with
  | recv frame => cases hl
  | handle uuid nexus sink => cases hl
  | rebuildDone => cases hl
  | rebuildRef =>
    obtain ⟨r, ref, todo, -, -, rfl⟩ := rebuildRef_inv h
    have hmail := mailbox_post (l := .rebuildRef) (n := n.spawnProxy ref.id)
      (m := .registerProxyForRemoteActor ref.id n.nextActor) trivial
    cases ref <;> exact { rebuilding := fun hne => absurd rfl hne, proxies := fun hne _ => absurd rfl hne
                          rebuiltPorts := fun hne _ => absurd rfl hne, mailbox := hmail }
  | request r =>
    obtain ⟨-, rfl⟩ := request_inv h
    exact { mailbox := mailbox_post (n.requestMessage_posts r) }
  | instantiate remote =>
    obtain rfl := instantiate_inv h
    exact { proxies := fun _ hne => absurd rfl (hne remote), creating := fun hne _ => absurd rfl (hne remote)
            mailbox := mailbox_same rfl }
  | register proxy =>
    obtain ⟨remote, rest, -, rfl⟩ := register_inv h
    exact { creating := fun _ hne => absurd rfl (hne proxy)
            mailbox := mailbox_post (n := { n with creating := _ }) trivial }
  | spawnActor => cases h; exact { mailbox := mailbox_same rfl }
  | openPort => cases h; exact { held := fun _ _ => List.subset_append_left _ _, mailbox := mailbox_same rfl }
  | dropPort port =>
    obtain rfl := dropPort_inv h
    exact { dropped := List.subset_append_left _ _, mailbox := mailbox_same rfl }
  | exit actor =>
    obtain ⟨-, rfl⟩ := exit_inv h
    exact { exited := List.subset_append_left _ _
            flow := fun _ => { inbox := List.filter_sublist }
            mailbox := mailbox_same rfl }
  | notify actor =>
    obtain ⟨-, rfl⟩ := notify_inv h
    exact { watchers := fun hne => absurd rfl (hne actor)
            mailbox := mailbox_post (n := { n with watchers := _ }) rfl }
  | sendTo proxy body refs =>
    obtain ⟨-, rfl⟩ := sendTo_inv h
    exact { flow := nofun, held := fun hne _ => absurd rfl (hne proxy body refs), mailbox := mailbox_same rfl }
  | relay proxy =>
    obtain ⟨msg, rest, -, rfl⟩ := relay_inv h
    exact { flow := nofun, mailbox := mailbox_same rfl }
  | forward proxy =>
    obtain ⟨msg, rest, remote, -, -, rfl⟩ := forward_inv h
    exact { flow := nofun, mailbox := mailbox_post (n := { n with channel := _ }) trivial }
  | taskPublish tag =>
    obtain ⟨t, rest, ref, todo, -, -, -, -, rfl⟩ := taskPublish_inv h
    cases ref <;> exact { flow := nofun, tasks := nofun, rpcProxies := fun hne => absurd rfl (hne tag)
                          mailbox := mailbox_post (n := { n with tasks := _ }) trivial }
  | taskPublished tag =>
    obtain ⟨t, rest, port, id, ref, todo, -, -, -, -, rfl⟩ := taskPublished_inv h
    exact { flow := nofun, tasks := nofun, mailbox := mailbox_same rfl }
  | taskFail tag =>
    obtain ⟨t, rest, -, rfl⟩ := taskFail_inv h
    exact { flow := nofun, tasks := nofun, mailbox := mailbox_same rfl }
  | taskPost tag =>
    obtain ⟨t, rest, -, -, rfl⟩ := taskPost_inv h
    exact { flow := nofun, tasks := nofun, posted := fun hne => absurd rfl (hne tag)
            mailbox := mailbox_post (n := { n with tasks := _ }) trivial }
  | trigger port body refs =>
    obtain ⟨-, rfl⟩ := trigger_inv h
    exact { replies := replies_rpc, answered := fun hne _ => absurd rfl (hne port body refs)
            held := fun _ hne => absurd rfl (hne port body refs)
            minted := by simp [ReplyValue.minted], mailbox := mailbox_same rfl }
  | forwardReply port =>
    obtain ⟨proxy, rest, body, refs, -, -, ⟨-, rfl⟩ | ⟨-, rfl⟩⟩ := forwardReply_inv h <;>
      exact { flow := nofun, rebuiltPorts := fun _ hne => absurd rfl (hne port), mailbox := mailbox_same rfl }
  | answer actor =>
    obtain ⟨port, msg, -, -, -, rfl | rfl⟩ := answer_inv h
    · exact { exited := List.subset_append_left _ _
              flow := fun _ => { inbox := List.filter_sublist }
              mailbox := mailbox_same rfl }
    · exact { exited := List.subset_append_left _ _
              flow := fun _ => { inbox := List.filter_sublist }
              replies := replies_rpc
              answered := fun _ hne => absurd rfl (hne actor)
              held := fun _ _ => List.subset_append_left _ _
              minted := by simp [ReplyValue.minted]
              mailbox := mailbox_same rfl }

/-! ## The steps of the portal actor -/

section

variable (n : Node β) (outcome : Outcome β)

@[simp] theorem endTurn_state : (n.endTurn outcome).state = n.state := by cases outcome <;> rfl
@[simp] theorem endTurn_sent : (n.endTurn outcome).sent = n.sent := by cases outcome <;> rfl
@[simp] theorem endTurn_replies : (n.endTurn outcome).replies = n.replies := by cases outcome <;> rfl
@[simp] theorem endTurn_handled : (n.endTurn outcome).handled = n.handled := by cases outcome <;> rfl
@[simp] theorem endTurn_watchers : (n.endTurn outcome).watchers = n.watchers := by cases outcome <;> rfl
@[simp] theorem endTurn_delivered : (n.endTurn outcome).delivered = n.delivered := by
  cases outcome <;> rfl

@[simp] theorem endTurn_dropped : (n.endTurn outcome).dropped = n.dropped := by cases outcome <;> rfl
@[simp] theorem endTurn_nextPort : (n.endTurn outcome).nextPort = n.nextPort := by cases outcome <;> rfl

/-- The mailbox of a portal that terminates is lost. -/
theorem endTurn_mailbox : (n.endTurn outcome).mailbox = n.mailbox ∨ (n.endTurn outcome).mailbox = [] := by
  cases outcome with
  | ok => exact .inl rfl
  | rematerialize => exact .inl rfl
  | stop => exact .inr rfl
  | err => exact .inr rfl

/-- If the portal still runs after the turn, the turn has at most begun a rematerialization. -/
theorem endTurn_of_running (h : (n.endTurn outcome).life = .running) :
    ∃ rebuilding, n.endTurn outcome = { n with rebuilding } := by
  cases outcome with
  | ok => exact ⟨n.rebuilding, rfl⟩
  | stop reason => cases h
  | err error => cases h
  | rematerialize actor data => exact ⟨_, rfl⟩

/-- A rematerialization hands the message over, or the portal fails. -/
theorem deliver_cases (r : Rebuilding β) : (∃ error, n.deliver r = n.halt (.failed error)) ∨
    ∃ body, r.body = some body ∧ r.actor ∉ n.exited ∧ n.deliver r = n.handOver r body := by
  unfold deliver
  cases hbody : r.body with
  | none => exact .inl ⟨_, rfl⟩
  | some body =>
    by_cases hgone : r.actor ∈ n.exited
    · exact .inl ⟨_, if_pos hgone⟩
    · exact .inr ⟨body, rfl, hgone, if_neg hgone⟩

theorem deliver_of_running {r : Rebuilding β} (h : (n.deliver r).life = .running) :
    ∃ body, n.deliver r = n.handOver r body := by
  obtain ⟨error, hfail⟩ | ⟨body, -, -, hover⟩ := n.deliver_cases r
  · rw [hfail] at h
    cases h
  · exact ⟨body, hover⟩

end

/-- The portal actor keeps its state, and nothing that it does can be seen. -/
structure Idle (n n' : Node β) : Prop where
  state : n'.state = n.state := by rfl
  sent : n'.sent = n.sent := by rfl
  handled : n'.handled = n.handled := by rfl
  replies : ∃ added, n'.replies = n.replies ++ added ∧ ∀ reply ∈ added, reply.2.isRpc = true := by
    exact ⟨[], (List.append_nil _).symm, fun _ h => absurd h List.not_mem_nil⟩

/-- The portal actor has handled `m`, in the surroundings `env`. -/
structure Turned (env : HandleEnv) (m : PortalActorMessage β) (n n' : Node β) : Prop where
  state : n'.state = (Portal.handle env n.state m).state
  sent : n'.sent = n.sent ++ (Portal.handle env n.state m).frames.map fun msg => .content (some msg)
  handled : n'.handled = n.handled ++ [m]
  replies : n'.replies = n.replies ++ (Portal.handle env n.state m).replies
  delivered : n'.delivered = n.delivered

theorem turned_of_handle {uuid : OpaqueActorId} {nexus : Option (Option ActorId)} {sink : SinkResult}
    {n n' : Node β} (h : step (.handle uuid nexus sink) n = some n') :
    n.Fits uuid nexus ∧ ∃ m rest, n.mailbox = m :: rest ∧ Turned (n.env uuid nexus sink) m n n' := by
  obtain ⟨hfits, m, rest, hmail, rfl⟩ := handle_inv h
  refine ⟨hfits, m, rest, hmail, ?_⟩
  constructor
  · rw [endTurn_state]; rfl
  · rw [endTurn_sent]; rfl
  · rw [endTurn_handled]; rfl
  · rw [endTurn_replies]; rfl
  · rw [endTurn_delivered]; rfl

/-- **Only a turn shows.** -/
theorem idle_or_turned {l : Label β} {n n' : Node β} (h : step l n = some n') :
    Idle n n' ∨ ∃ uuid nexus sink m rest, l = .handle uuid nexus sink ∧ n.Fits uuid nexus ∧
      n.mailbox = m :: rest ∧ Turned (n.env uuid nexus sink) m n n' := by
  cases hl : l.isPump with
  | false =>
    have hq := quiet_of_step hl h
    exact .inl { state := hq.state, sent := hq.sent, handled := hq.handled, replies := hq.replies }
  | true =>
    cases l with
    | recv frame =>
      obtain ⟨-, rfl⟩ := recv_inv h
      obtain _ | _ | _ | _ := frame <;> exact .inl {}
    | handle uuid nexus sink =>
      obtain ⟨hfits, m, rest, hmail, hturned⟩ := turned_of_handle h
      exact .inr ⟨uuid, nexus, sink, m, rest, rfl, hfits, hmail, hturned⟩
    | rebuildDone =>
      obtain ⟨r, -, -, rfl⟩ := rebuildDone_inv h
      obtain ⟨error, heq⟩ | ⟨body, -, -, heq⟩ := n.deliver_cases r
      · rw [heq]; exact .inl {}
      · rw [heq]; exact .inl {}
    | _ => cases hl

theorem sent_subset_of_step {l : Label β} {n n' : Node β} (h : step l n = some n') : n.sent ⊆ n'.sent := by
  obtain hidle | ⟨uuid, nexus, sink, m, rest, -, -, -, hturned⟩ := idle_or_turned h
  · rw [hidle.sent]
    exact List.Subset.refl _
  · rw [hturned.sent]
    exact List.subset_append_left _ _

theorem replies_subset_of_step {l : Label β} {n n' : Node β} (h : step l n = some n') : n.replies ⊆ n'.replies := by
  obtain hidle | ⟨uuid, nexus, sink, m, rest, -, -, -, hturned⟩ := idle_or_turned h
  · obtain ⟨added, hreplies, -⟩ := hidle.replies
    rw [hreplies]
    exact List.subset_append_left _ _
  · rw [hturned.replies]
    exact List.subset_append_left _ _

theorem dropped_subset_of_step {l : Label β} {n n' : Node β} (h : step l n = some n') : n.dropped ⊆ n'.dropped := by
  cases hl : l.isPump with
  | false => exact (quiet_of_step hl h).dropped
  | true =>
    cases l with
    | recv frame =>
      obtain ⟨-, rfl⟩ := recv_inv h
      obtain _ | _ | _ | _ := frame <;> exact List.Subset.refl _
    | handle uuid nexus sink =>
      obtain ⟨-, m, rest, -, rfl⟩ := handle_inv h
      rw [endTurn_dropped]
      exact List.Subset.refl _
    | rebuildDone =>
      obtain ⟨r, -, -, rfl⟩ := rebuildDone_inv h
      obtain ⟨error, heq⟩ | ⟨body, -, -, heq⟩ := n.deliver_cases r <;> rw [heq] <;> exact List.Subset.refl _
    | _ => cases hl

/-- Messages are only delivered by the end of a rematerialization. -/
theorem delivered_of_step {l : Label β} {n n' : Node β} (h : step l n = some n') :
    n'.delivered = n.delivered ∨ ∃ r body, l = .rebuildDone ∧ n.rebuilding = some r ∧ r.body = some body ∧
      r.actor ∉ n.exited ∧ n' = n.handOver r body := by
  cases hl : l.isPump with
  | false => exact .inl (quiet_of_step hl h).delivered
  | true =>
    cases l with
    | recv frame =>
      obtain ⟨-, rfl⟩ := recv_inv h
      obtain _ | _ | _ | _ := frame <;> exact .inl rfl
    | handle uuid nexus sink =>
      obtain ⟨-, m, rest, -, hturned⟩ := turned_of_handle h
      exact .inl hturned.delivered
    | rebuildDone =>
      obtain ⟨r, hr, -, rfl⟩ := rebuildDone_inv h
      obtain ⟨error, heq⟩ | ⟨body, hbody, hlives, heq⟩ := n.deliver_cases r
      · rw [heq]; exact .inl rfl
      · exact .inr ⟨r, body, rfl, hr, hbody, hlives, heq⟩
    | _ => cases hl

/-- The first message that an actor has got stays the first. -/
theorem rpcMessage_of_step {l : Label β} {n n' : Node β} {actor : ActorId} {msg : Msg β} (h : step l n = some n')
    (hmsg : n.rpcMessage actor = some msg) : n'.rpcMessage actor = some msg := by
  obtain hsame | ⟨r, body, -, -, -, -, rfl⟩ := delivered_of_step h
  · rw [rpcMessage, hsame]
    exact hmsg
  · show ((n.delivered ++ _).find? _).map _ = _
    obtain ⟨d, hfind, rfl⟩ := Option.map_eq_some_iff.mp hmsg
    rw [List.find?_append, hfind]
    rfl

/-- The message in which the receive loop passes an item of the stream on. -/
def itemMessage : Option (ConduitMessage β) → PortalActorMessage β
  | some (.handshake text) => .handshake text
  | some (.content data) => .content data
  | some (.close _) => .close
  | none => .close

/-- **Where a message in the mailbox comes from.** -/
theorem mem_mailbox_of_step {l : Label β} {n n' : Node β} {m : PortalActorMessage β} (h : step l n = some n')
    (hm : m ∈ n'.mailbox) : m ∈ n.mailbox ∨ l.posts m ∨ ∃ frame, l = .recv frame ∧ m = itemMessage frame := by
  cases hl : l.isPump with
  | false =>
    obtain ⟨ms, hmail, hposts⟩ := (quiet_of_step hl h).mailbox
    rw [hmail] at hm
    exact (List.mem_append.mp hm).imp_right fun hnew => .inl (hposts m hnew)
  | true =>
    cases l with
    | recv frame =>
      obtain ⟨-, rfl⟩ := recv_inv h
      have hitem : m ∈ (n.post (itemMessage frame)).mailbox := by
        obtain _ | _ | _ | _ := frame <;> exact hm
      exact (mem_mailbox_post hitem).imp_right fun heq => .inr ⟨frame, rfl, heq⟩
    | handle uuid nexus sink =>
      obtain ⟨-, m', rest, hmail, rfl⟩ := handle_inv h
      refine .inl ?_
      rw [hmail]
      obtain hkeep | hlost := endTurn_mailbox _ (Portal.handle (n.env uuid nexus sink) n.state m').outcome
      · rw [hkeep] at hm
        exact List.mem_cons_of_mem _ hm
      · rw [hlost] at hm
        cases hm
    | rebuildDone =>
      obtain ⟨r, -, -, rfl⟩ := rebuildDone_inv h
      refine .inl ?_
      obtain ⟨error, heq⟩ | ⟨body, -, -, heq⟩ := n.deliver_cases r
      · rw [heq] at hm
        cases hm
      · rw [heq] at hm
        exact hm
    | _ => cases hl

/-- A portal that runs has always run. -/
theorem life_of_step {l : Label β} {n n' : Node β} (h : step l n = some n') (hrun : n'.life = .running) :
    n.life = .running := by
  cases hl : l.isPump with
  | false => rw [← (quiet_of_step hl h).life]; exact hrun
  | true =>
    cases l with
    | recv frame =>
      obtain ⟨-, rfl⟩ := recv_inv h
      obtain _ | _ | _ | _ := frame <;> exact hrun
    | handle uuid nexus sink => exact (handle_inv h).1.1
    | rebuildDone =>
      obtain ⟨r, -, -, rfl⟩ := rebuildDone_inv h
      obtain ⟨body, heq⟩ := deliver_of_running n hrun
      rw [heq] at hrun
      exact hrun
    | _ => cases hl

/-- The channel id is written once. -/
theorem opened_of_step {l : Label β} {n n' : Node β} {channel : ConduitID} (h : step l n = some n')
    (hopen : n.state.channelState = .opened channel) : n'.state.channelState = .opened channel := by
  obtain hidle | ⟨_, _, _, _, _, -, -, -, hturned⟩ := idle_or_turned h
  · rw [hidle.state, hopen]
  · rw [hturned.state]
    obtain heq | ⟨own, _, hopening, -⟩ := handle_channelState _ _ _
    · rw [heq, hopen]
    · rw [hopen] at hopening
      cases hopening

/-- Until then the introduction stays. -/
theorem opening_of_step {l : Label β} {n n' : Node β} {own : Introduction} (h : step l n = some n')
    (hopening : n'.state.channelState = .opening own) : n.state.channelState = .opening own := by
  obtain hidle | ⟨_, _, _, _, _, -, -, -, hturned⟩ := idle_or_turned h
  · rw [← hidle.state, hopening]
  · rw [hturned.state] at hopening
    obtain heq | ⟨_, _, -, -, hopened⟩ := handle_channelState _ _ _
    · rw [← heq, hopening]
    · rw [hopened] at hopening
      cases hopening

/-- Actors are only ever started. -/
theorem nextActor_le_of_step {l : Label β} {n n' : Node β} (h : step l n = some n') :
    n.nextActor ≤ n'.nextActor := by
  cases hl : l.isPump with
  | false => exact (quiet_of_step hl h).nextActor
  | true =>
    cases l with
    | recv frame =>
      obtain ⟨-, rfl⟩ := recv_inv h
      obtain _ | _ | _ | _ := frame <;> exact Nat.le_refl _
    | handle uuid nexus sink =>
      obtain ⟨-, m, rest, -, rfl⟩ := handle_inv h
      cases (Portal.handle (n.env uuid nexus sink) n.state m).outcome <;> exact Nat.le_refl _
    | rebuildDone =>
      obtain ⟨r, -, -, rfl⟩ := rebuildDone_inv h
      unfold deliver
      split
      · exact Nat.le_refl _
      · split <;> exact Nat.le_refl _
    | _ => cases hl

/-- Ports are only ever drawn. -/
theorem nextPort_le_of_step {l : Label β} {n n' : Node β} (h : step l n = some n') : n.nextPort ≤ n'.nextPort := by
  cases hl : l.isPump with
  | false => exact (quiet_of_step hl h).nextPort
  | true =>
    cases l with
    | recv frame =>
      obtain ⟨-, rfl⟩ := recv_inv h
      obtain _ | _ | _ | _ := frame <;> exact Nat.le_refl _
    | handle uuid nexus sink =>
      obtain ⟨-, m, rest, -, rfl⟩ := handle_inv h
      rw [endTurn_nextPort]
      exact Nat.le_refl _
    | rebuildDone =>
      obtain ⟨r, -, -, rfl⟩ := rebuildDone_inv h
      obtain ⟨error, heq⟩ | ⟨body, -, -, heq⟩ := n.deliver_cases r <;> rw [heq] <;> exact Nat.le_refl _
    | _ => cases hl

/-- Actors that have exited stay so. -/
theorem exited_of_step {l : Label β} {n n' : Node β} (h : step l n = some n') : n.exited ⊆ n'.exited := by
  cases hl : l.isPump with
  | false => exact (quiet_of_step hl h).exited
  | true =>
    cases l with
    | recv frame =>
      obtain ⟨-, rfl⟩ := recv_inv h
      obtain _ | _ | _ | _ := frame <;> exact List.Subset.refl _
    | handle uuid nexus sink =>
      obtain ⟨-, m, rest, -, rfl⟩ := handle_inv h
      have hturn : n.exited ⊆ (n.takeTurn m rest (Portal.handle (n.env uuid nexus sink) n.state m)).exited :=
        List.subset_append_left _ _
      cases (Portal.handle (n.env uuid nexus sink) n.state m).outcome with
      | ok => exact hturn
      | rematerialize => exact hturn
      | stop => exact fun _ hactor => List.mem_append_left _ (hturn hactor)
      | err => exact fun _ hactor => List.mem_append_left _ (hturn hactor)
    | rebuildDone =>
      obtain ⟨r, -, -, rfl⟩ := rebuildDone_inv h
      obtain ⟨error, heq⟩ | ⟨body, -, -, heq⟩ := n.deliver_cases r <;> rw [heq]
      · exact List.subset_append_left _ _
      · exact List.Subset.refl _
    | _ => cases hl

/-- What is published stays published. -/
theorem lookup_published_of_step {l : Label β} {n n' : Node β} {id : OpaqueActorId} {actor : ActorId}
    (h : step l n = some n') (hid : n.state.publishedActors.lookup id = some actor) :
    n'.state.publishedActors.lookup id = some actor := by
  obtain hidle | ⟨uuid, nexus, sink, m, rest, -, ⟨-, -, huuid, -⟩, -, hturned⟩ := idle_or_turned h
  · rw [hidle.state]; exact hid
  · rw [hturned.state]; exact lookup_published _ _ huuid m hid

/-- A new proxy is the actor that is started next. -/
theorem proxies_of_step {l : Label β} {n n' : Node β} (h : step l n = some n') {entry : ActorId × RemoteActorId}
    (hentry : entry ∈ n'.proxies) :
    entry ∈ n.proxies ∨ entry.1 = n.nextActor ∧ n'.nextActor = n.nextActor + 1 := by
  cases hl : l.isPump with
  | false =>
    cases l with
    | instantiate remote =>
      obtain rfl := instantiate_inv h
      refine (List.mem_append.mp hentry).imp_right fun hnew => ?_
      exact ⟨congrArg Prod.fst (List.mem_singleton.mp hnew), rfl⟩
    | rebuildRef =>
      obtain ⟨r, ref, todo, -, -, rfl⟩ := rebuildRef_inv h
      rw [(n.rebuild_fields r ref todo).1] at hentry
      refine (List.mem_append.mp hentry).imp_right fun hnew => ?_
      exact ⟨congrArg Prod.fst (List.mem_singleton.mp hnew), by cases ref <;> rfl⟩
    | _ => exact .inl ((quiet_of_step hl h).proxies (by simp) (by simp) ▸ hentry)
  | true =>
    cases l with
    | recv frame =>
      obtain ⟨-, rfl⟩ := recv_inv h
      obtain _ | _ | _ | _ := frame <;> exact .inl hentry
    | handle uuid nexus sink =>
      obtain ⟨-, m, rest, -, rfl⟩ := handle_inv h
      cases hend : (Portal.handle (n.env uuid nexus sink) n.state m).outcome <;> rw [hend] at hentry <;>
        exact .inl hentry
    | rebuildDone =>
      obtain ⟨r, -, -, rfl⟩ := rebuildDone_inv h
      obtain ⟨error, heq⟩ | ⟨body, -, -, heq⟩ := n.deliver_cases r <;> rw [heq] at hentry <;> exact .inl hentry
    | _ => cases hl

theorem life_of_run {good : Label β → Node β → Prop} {ls : List (Label β)} {n n' : Node β}
    (h : Transition.Run step good ls n n') : n'.life = .running → n.life = .running := by
  apply h.relates (R := fun n n' => n'.life = .running → n.life = .running)
  · exact fun _ => id
  · intro _ _ _ h₁ h₂ hrun
    exact h₁ (h₂ hrun)
  · intro _ _ _ _ hstep
    exact life_of_step hstep

/-- The ids of this side that have been handed out. -/
def minted (n : Node β) : List RemoteActorId :=
  n.sent.flatMap (fun
    | .content (some msg) => msg.minted
    | _ => []) ++ n.replies.flatMap (ReplyValue.minted ·.2)

theorem mem_minted_endTurn {n : Node β} {m : PortalActorMessage β} {rest : List (PortalActorMessage β)}
    {turn : Turn β} {outcome : Outcome β} {id : RemoteActorId} :
    id ∈ ((n.takeTurn m rest turn).endTurn outcome).minted ↔ id ∈ n.minted ∨ id ∈ turn.minted := by
  simp only [minted, Turn.minted, endTurn_sent, endTurn_replies, takeTurn, List.flatMap_append,
    List.flatMap_map, List.mem_append]
  tauto

end Node
end Portal
end Wormhole
