import Wormhole.Portal.Capability

/-!
# `Portal.Ports` — where a reply port is

A reply port is a value that is moved: from local code into a message, from there into the mailbox of the
portal and to the task that serializes the message, which starts an `RpcProxyActor` with it; or into a request,
and from there into the portal's own tables. `uses` counts all these places and the answers that were given.
No step makes it larger, so a port is answered once, whatever the peer does.
-/

namespace Wormhole
namespace Portal

open Queues

variable {β : Type}

/-! ## The places -/

/-- The reply ports in the messages of a queue. -/
def messagePorts {κ : Type} (q : List (κ × Msg β)) : List PortId := q.flatMap fun e => Node.portsOf e.2.refs

/-- The reply ports inside a message of the portal. -/
def PortalActorMessage.ports : PortalActorMessage β → List PortId
  | .immaterializeMessage _ msg => Node.portsOf msg.refs
  | .publishNamedActor _ _ reply => reply.toList
  | .publishActor _ reply => reply.toList
  | .queryNamedRemoteActor _ reply => [reply]
  | .waitForHandshake reply => [reply]
  | _ => []

/-- The reply ports that the portal keeps. -/
def PortalActorState.ports (state : PortalActorState) : List PortId :=
  state.openRequests.values ++ state.waitingForHandshake

/-- The reply ports that a task has not come to yet. -/
def Immaterialization.ports (t : Immaterialization β) : List PortId :=
  Node.portsOf (if t.asked.isSome then t.todo.tail else t.todo)

/-- The reply ports in the message that an `RpcProxyActor` has got. -/
def carriedBy (delivered : List (ActorId × Msg β)) (actor : ActorId) : List PortId :=
  ((delivered.find? (·.1 = actor)).map fun d => Node.portsOf d.2.refs).getD []

/-- The reply ports in the messages that `RpcProxyActor`s have got and not answered with. -/
def carriedPorts (rpcProxies : List (ActorId × PortId)) (exited : List ActorId)
    (delivered : List (ActorId × Msg β)) : List PortId :=
  (rpcProxies.filter (·.1 ∉ exited)).flatMap (carriedBy delivered ·.1)

/-- The value that was sent on a port. -/
def firstRpc (replies : List (PortId × ReplyValue β)) (port : PortId) : Option (β × List LocalRef) :=
  replies.findSome? fun
    | (port', .rpc data refs) => if port' = port then some (data, refs) else none
    | _ => none

/-- The reply ports in the value that was sent on a port. -/
def pendingOn (replies : List (PortId × ReplyValue β)) (port : PortId) : List PortId :=
  ((firstRpc replies port).map fun value => Node.portsOf value.2).getD []

/-- The reply ports in the values that were sent on rebuilt ports and are not forwarded yet. -/
def pendingPorts (rebuiltPorts : Queues PortId ActorId) (replies : List (PortId × ReplyValue β)) : List PortId :=
  rebuiltPorts.flatMap (pendingOn replies ·.1)

/-- How often a port was answered that has never been at an `RpcProxyActor`. -/
def answers (rpcProxies : List (ActorId × PortId)) (replies : List (PortId × ReplyValue β)) (port : PortId) : Nat :=
  if port ∈ rpcProxies.map Prod.snd then 0 else (replies.map Prod.fst).count port

namespace Node

/-- How often a port occurs: in a place from which it can still be answered, at an `RpcProxyActor`, or, if it
    has never been at one, among the answers. -/
def uses (n : Node β) (port : PortId) : Nat :=
  n.held.count port + (messagePorts n.inbox).count port + (messagePorts n.channel).count port +
    (n.mailbox.flatMap PortalActorMessage.ports).count port + n.state.ports.count port +
    (n.tasks.flatMap fun t => t.2.ports).count port + (n.rpcProxies.map Prod.snd).count port +
    (carriedPorts n.rpcProxies n.exited n.delivered).count port +
    (n.rebuilding.toList.flatMap fun r => portsOf r.done).count port +
    (pendingPorts n.rebuiltPorts n.replies).count port + answers n.rpcProxies n.replies port

end Node

section

variable {n : Node β} {replies more : List (PortId × ReplyValue β)} {port q : PortId} {body : β}
  {refs : List LocalRef} {delivered : List (ActorId × Msg β)} {actor b : ActorId} {msg : Msg β}
  {rpcProxies : List (ActorId × PortId)} {exited exited' : List ActorId} {rebuiltPorts : Queues PortId ActorId}

theorem firstRpc_append : firstRpc (replies ++ more) q = (firstRpc replies q).or (firstRpc more q) :=
  List.findSome?_append

theorem firstRpc_of_not_mem (h : q ∉ replies.map Prod.fst) : firstRpc replies q = none := by
  apply List.findSome?_eq_none_iff.mpr
  rintro ⟨port, value⟩ hmem
  split
  · rename_i heq
    cases heq
    rw [if_neg]
    rintro rfl
    exact h (List.mem_map_of_mem hmem)
  · rfl

theorem pendingOn_of_not_mem (h : q ∉ replies.map Prod.fst) : pendingOn replies q = [] := by
  rw [pendingOn, firstRpc_of_not_mem h]
  rfl

/-- Only values of local code carry reply ports. -/
theorem pendingOn_append (h : firstRpc more q = none) : pendingOn (replies ++ more) q = pendingOn replies q := by
  rw [pendingOn, pendingOn, firstRpc_append, h, Option.or_none]

theorem firstRpc_of_not_rpc (h : ∀ reply ∈ more, reply.2.isRpc = false) : firstRpc more q = none := by
  apply List.findSome?_eq_none_iff.mpr
  rintro ⟨port, value⟩ hmem
  have hvalue := h _ hmem
  cases value with
  | rpc data refs => cases hvalue
  | _ => rfl

/-- The ports in a value go to local code, or wait to be forwarded. -/
theorem count_value_le (hnodup : (rebuiltPorts.map Prod.fst).Nodup) (replies : List (PortId × ReplyValue β))
    (port : PortId) (body : β) (refs : List LocalRef) (p : PortId) :
    (if port ∈ rebuiltPorts.map Prod.fst then [] else Node.portsOf refs).count p +
      (pendingPorts rebuiltPorts (replies ++ [(port, .rpc body refs)])).count p ≤
        (pendingPorts rebuiltPorts replies).count p + (Node.portsOf refs).count p := by
  have hupdate := Queues.count_update_le (f := pendingOn replies)
    (g := pendingOn (replies ++ [(port, .rpc body refs)])) (x := p) hnodup (Node.portsOf refs) (k := port) ?_ ?_
  · unfold pendingPorts
    split at hupdate
    · rename_i hmem
      rw [if_pos hmem, List.count_nil]
      omega
    · rename_i hmem
      rw [if_neg hmem]
      omega
  · intro q hq
    exact pendingOn_append (firstRpc_of_not_mem (by simpa using hq))
  · rw [pendingOn, pendingOn, firstRpc_append]
    cases hfirst : firstRpc replies port with
    | some value =>
      rw [Option.some_or]
      exact Nat.le_add_right _ _
    | none =>
      have hone : firstRpc [(port, ReplyValue.rpc body refs)] port = some (body, refs) := by
        simp [firstRpc]
      rw [Option.none_or, hone]
      exact Nat.le_add_left _ _

theorem carriedBy_append_of_ne (h : b ≠ actor) : carriedBy (delivered ++ [(actor, msg)]) b = carriedBy delivered b := by
  rw [carriedBy, carriedBy, List.find?_append, List.find?_singleton, if_neg (by simpa using h.symm), Option.or_none]

theorem carriedBy_of_rpcMessage (h : n.rpcMessage actor = some msg) :
    carriedBy n.delivered actor = Node.portsOf msg.refs := by
  obtain ⟨d, hfind, rfl⟩ := Option.map_eq_some_iff.mp h
  rw [carriedBy, hfind]
  rfl

theorem pendingOn_of_rpcReply (h : n.rpcReply port = some (body, refs)) :
    pendingOn n.replies port = Node.portsOf refs := by
  have hfirst : firstRpc n.replies port = some (body, refs) := h
  rw [pendingOn, hfirst]
  rfl

/-- The ports in a message go to local code, or the `RpcProxyActor` keeps them. -/
theorem count_delivered_le (hnodup : (rpcProxies.map Prod.fst).Nodup) (exited : List ActorId)
    (delivered : List (ActorId × Msg β)) (actor : ActorId) (msg : Msg β) (p : PortId) :
    (if actor ∈ rpcProxies.map Prod.fst then [] else Node.portsOf msg.refs).count p +
      (carriedPorts rpcProxies exited (delivered ++ [(actor, msg)])).count p ≤
        (carriedPorts rpcProxies exited delivered).count p + (Node.portsOf msg.refs).count p := by
  have hnodup' : ((rpcProxies.filter (·.1 ∉ exited)).map Prod.fst).Nodup :=
    hnodup.sublist (List.filter_sublist.map Prod.fst)
  have hupdate := Queues.count_update_le (f := carriedBy delivered)
    (g := carriedBy (delivered ++ [(actor, msg)])) (x := p) hnodup' (Node.portsOf msg.refs) (k := actor) ?_ ?_
  · unfold carriedPorts
    by_cases hmem : actor ∈ rpcProxies.map Prod.fst
    · rw [if_pos hmem, List.count_nil]
      split at hupdate <;> omega
    · have hmem' : actor ∉ (rpcProxies.filter (·.1 ∉ exited)).map Prod.fst :=
        fun h => hmem ((List.filter_sublist.map Prod.fst).subset h)
      rw [if_neg hmem'] at hupdate
      rw [if_neg hmem]
      omega
  · exact fun b hb => carriedBy_append_of_ne hb
  · rw [carriedBy, carriedBy, List.find?_append, List.find?_singleton, if_pos (by simp)]
    cases delivered.find? (·.1 = actor) with
    | some d =>
      rw [Option.some_or]
      exact Nat.le_add_right _ _
    | none =>
      rw [Option.none_or]
      exact Nat.le_add_left _ _

/-- An `RpcProxyActor` that terminates loses what it carries. -/
theorem count_carried_le_of_subset (h : exited ⊆ exited') (rpcProxies : List (ActorId × PortId))
    (delivered : List (ActorId × Msg β)) (p : PortId) :
    (carriedPorts rpcProxies exited' delivered).count p ≤ (carriedPorts rpcProxies exited delivered).count p := by
  apply Queues.count_le_of_sublist
  apply List.monotone_filter_right
  intro e he
  simp only [decide_eq_true_eq] at he ⊢
  exact fun hexited => he (h hexited)

theorem count_carried_answered (hmem : (actor, port) ∈ rpcProxies) (hlives : actor ∉ exited)
    (delivered : List (ActorId × Msg β)) (p : PortId) :
    (carriedPorts rpcProxies (exited ++ [actor]) delivered).count p + (carriedBy delivered actor).count p ≤
      (carriedPorts rpcProxies exited delivered).count p := by
  have hfilter : rpcProxies.filter (·.1 ∉ exited ++ [actor]) =
      (rpcProxies.filter (·.1 ∉ exited)).filter (·.1 ≠ actor) := by
    rw [List.filter_filter]
    apply List.filter_congr
    intro e _
    simp [and_comm]
  unfold carriedPorts
  rw [hfilter]
  exact Queues.count_filter_add_le (F := fun e : ActorId × PortId => carriedBy delivered e.1) (e := (actor, port))
    (List.mem_filter.mpr ⟨hmem, by simpa using hlives⟩) (by simp)

theorem answers_append_le (rpcProxies : List (ActorId × PortId)) (replies more : List (PortId × ReplyValue β))
    (p : PortId) :
    answers rpcProxies (replies ++ more) p ≤ answers rpcProxies replies p + (more.map Prod.fst).count p := by
  unfold answers
  split
  · exact Nat.zero_le _
  · rw [List.map_append, List.count_append]

theorem answers_served_le (rpcProxies : List (ActorId × PortId)) (replies : List (PortId × ReplyValue β))
    (e : ActorId × PortId) (p : PortId) :
    answers (rpcProxies ++ [e]) replies p ≤ answers rpcProxies replies p := by
  unfold answers
  split
  · exact Nat.zero_le _
  · rename_i hnot
    rw [if_neg]
    exact fun h => hnot (by rw [List.map_append]; exact List.mem_append_left _ h)

end

/-! ## Turns -/

section

variable (env : HandleEnv) (state : PortalActorState)

/-- **A turn moves ports** from the message and the tables of the portal to its answers and its tasks. -/
theorem handle_ports (m : PortalActorMessage β) (port : PortId) :
    ((handle env state m).replies.map Prod.fst).count port + (handle env state m).state.ports.count port +
      (messagePorts (handle env state m).spawned).count port ≤ state.ports.count port + m.ports.count port := by
  have hone (reply : PortId) (value : ReplyValue β) :
      ((if env.alive reply = true then [(reply, value)] else []).map Prod.fst).count port ≤ [reply].count port := by
    split
    · exact Nat.le_refl _
    · exact Nat.zero_le _
  -- what neither answers nor spawns nor touches the tables
  have hsame {turn : Turn β} (hreplies : turn.replies = []) (hspawned : turn.spawned = [])
      (hports : turn.state.ports = state.ports) :
      (turn.replies.map Prod.fst).count port + turn.state.ports.count port +
        (messagePorts turn.spawned).count port ≤ state.ports.count port + m.ports.count port := by
    rw [hreplies, hspawned, hports]
    exact (Nat.zero_add _).symm ▸ Nat.le_add_right _ _
  -- what answers the caller of the message
  have hanswer {state' : PortalActorState} {effects : List (Effect β)} {reply : PortId} {value : ReplyValue β}
      (hm : m.ports = [reply]) (hreplies : effects.filterMap Effect.reply? = [])
      (hspawned : effects.filterMap Effect.spawned? = []) (hports : state'.ports = state.ports) :
      ((replying env state' effects reply value).replies.map Prod.fst).count port +
        (replying env state' effects reply value).state.ports.count port +
        (messagePorts (replying env state' effects reply value).spawned).count port ≤
          state.ports.count port + m.ports.count port := by
    rw [replies_replying, spawned_replying, replying_state, hreplies, hspawned, hports, hm, List.nil_append]
    have := hone reply value
    have hnone : (messagePorts ([] : List (RemoteActorId × Msg β))).count port = 0 := rfl
    omega
  have hresponse (id : CrossPortalMessageId) (result : Resolution) :
      ((handleResponse (β := β) env state id result).replies.map Prod.fst).count port +
        (handleResponse (β := β) env state id result).state.ports.count port +
        (messagePorts (handleResponse (β := β) env state id result).spawned).count port ≤
          state.ports.count port + m.ports.count port := by
    fun_cases handleResponse (β := β) env state id result with
    | case1 reply hlook =>
      rw [replies_replying, spawned_replying, replying_state, List.filterMap_nil, List.filterMap_nil,
        List.nil_append]
      have := hone reply (.resolved result)
      have herase := HashMap.count_values_erase hlook port
      have hnone : (messagePorts ([] : List (RemoteActorId × Msg β))).count port = 0 := rfl
      simp only [PortalActorState.ports, List.count_append]
      omega
    | case2 => exact hsame rfl rfl rfl
  fun_cases handle env state m with
  | case1 text =>
    fun_cases handleHandshake (β := β) env state text with
    | case1 => exact hsame rfl rfl rfl
    | case2 own hopening remote id =>
      have hreplies : (((state.waitingForHandshake.filter env.alive).map
          (Effect.reply (β := β) · .opened)).filterMap Effect.reply?).map Prod.fst =
          state.waitingForHandshake.filter env.alive := by
        rw [List.map_filterMap, List.filterMap_map]
        exact List.filterMap_some
      have hspawned : ((state.waitingForHandshake.filter env.alive).map
          (Effect.reply (β := β) · .opened)).filterMap Effect.spawned? = [] := by
        rw [List.filterMap_map]
        exact List.filterMap_eq_nil_iff.mpr fun _ _ => rfl
      have hsub := (List.filter_sublist (p := env.alive) (l := state.waitingForHandshake)).count_le port
      have hnone : (messagePorts ([] : List (RemoteActorId × Msg β))).count port = 0 := rfl
      simp only [Turn.replies, Turn.spawned, hreplies, hspawned, PortalActorState.ports, List.append_nil,
        List.count_append]
      omega
    | case3 => exact hsame rfl rfl rfl
  | case2 data =>
    fun_cases handleContent env state data with
    | case1 => exact hsame rfl rfl rfl
    | case2 => exact hsame rfl rfl rfl
    | case3 channel hopen msg =>
      fun_cases handleCrossPortalMessage env state channel msg with
      | case1 id name =>
        fun_cases handleRequestActorByName (β := β) env state channel id name with
        | case1 => exact hsame (by simp) (by simp) (by simp)
        | case2 => exact hsame rfl rfl rfl
        | case3 => exact hsame (by simp) (by simp) (by simp)
        | case4 hname actor hnexus publication =>
          refine hsame ?_ ?_ (by rw [sending_state]; rfl)
          · rw [replies_sending]; exact replies_publishActor env _ actor
          · rw [spawned_sending]; exact spawned_publishActor env _ actor
      | case2 id response => exact hresponse id response
      | case3 id response => exact hresponse id response
      | case4 target data => fun_cases handleSendMessage state target data <;> exact hsame rfl rfl rfl
      | case5 id => fun_cases handleActorExited (β := β) state id <;> exact hsame rfl rfl rfl
  | case3 => exact hsame rfl rfl rfl
  | case4 reply =>
    fun_cases handleWaitForHandshake (β := β) env state reply with
    | case1 own hopening =>
      show 0 + (state.openRequests.values ++ (state.waitingForHandshake ++ [reply])).count port + 0 ≤
        state.ports.count port + [reply].count port
      simp only [PortalActorState.ports, List.count_append]
      omega
    | case2 => exact hanswer rfl rfl rfl rfl
  | case5 name actor reply =>
    have hreplies := replies_publishActor (β := β) env state.publishedActors actor
    have hspawned := spawned_publishActor (β := β) env state.publishedActors actor
    fun_cases handlePublishNamedActor (β := β) env state name actor reply
    · exact hsame hreplies hspawned rfl
    · exact hanswer rfl hreplies hspawned rfl
    · exact hanswer rfl hreplies hspawned rfl
  | case6 actor rpc =>
    have hreplies := replies_publishActor (β := β) env state.publishedActors actor
    have hspawned := spawned_publishActor (β := β) env state.publishedActors actor
    fun_cases handlePublishActor (β := β) env state actor rpc
    · exact hsame hreplies hspawned rfl
    · exact hsame rfl rfl rfl
    · exact hanswer rfl hreplies hspawned rfl
  | case7 name reply =>
    fun_cases handleQueryNamedRemoteActor (β := β) env state name reply with
    | case1 => exact hsame rfl rfl rfl
    | case2 channel hopen requestId =>
      rw [replies_sending, spawned_sending, sending_state]
      have hinsert := HashMap.count_values_insert state.openRequests requestId reply port
      show 0 + (HashMap.values (state.openRequests.insert requestId reply) ++
        state.waitingForHandshake).count port + 0 ≤ state.ports.count port + [reply].count port
      simp only [PortalActorState.ports, List.count_append]
      omega
  | case8 target msg =>
    fun_cases handleImmaterializeMessage state target msg with
    | case1 => exact hsame rfl rfl rfl
    | case2 channel hopen =>
      show 0 + state.ports.count port + (Node.portsOf msg.refs ++ []).count port ≤
        state.ports.count port + (Node.portsOf msg.refs).count port
      rw [List.append_nil]
      omega
  | case9 target bytes =>
    fun_cases handleTransmitMessage env state target bytes
    · exact hsame rfl rfl rfl
    · exact hsame (by simp) (by simp) (by simp)
  | case10 id actor =>
    fun_cases handleRegisterProxyForRemoteActor (β := β) state id actor <;> exact hsame rfl rfl rfl
  | case11 actor =>
    fun_cases handleLocalActorExited (β := β) env state actor
    · exact hsame rfl rfl rfl
    · exact hsame rfl rfl rfl
    · exact hsame (by simp) (by simp) (by simp)

end

/-! ## Steps -/

/-- The port occurs once at most and is one that was handed out; and the answers of an `RpcProxyActor` are the
    one it gives before it terminates, with the first message it got. -/
structure Node.Linear (n : Node β) : Prop where
  once : ∀ port, n.uses port ≤ 1
  fresh : ∀ port, n.nextPort ≤ port → n.uses port = 0
  rebuilt : (n.rebuiltPorts.map Prod.fst).Nodup
  rebuiltLt : ∀ e ∈ n.rebuiltPorts, e.1 < n.nextPort
  served : ∀ e ∈ n.rpcProxies, (n.replies.map Prod.fst).count e.2 ≤ if e.1 ∈ n.exited then 1 else 0
  value : ∀ e ∈ n.rpcProxies, ∀ value, (e.2, value) ∈ n.replies →
    ∃ msg, n.rpcMessage e.1 = some msg ∧ value = .rpc msg.body msg.refs

/-- A port that occurs more often is the next one. -/
def Uses (n n' : Node β) : Prop :=
  (n'.nextPort = n.nextPort ∧ ∀ port, n'.uses port ≤ n.uses port) ∨
  (n'.nextPort = n.nextPort + 1 ∧ ∀ port, n'.uses port ≤ n.uses port + [n.nextPort].count port)

section

variable {l : Label β} {n n' : Node β}

theorem count_owned {held : List PortId} {refs : List LocalRef} (hheld : ∀ port ∈ Node.portsOf refs, port ∈ held)
    (hnodup : (Node.portsOf refs).Nodup) (port : PortId) :
    (held.filter (· ∉ Node.portsOf refs)).count port + (Node.portsOf refs).count port ≤ held.count port := by
  by_cases hmem : port ∈ Node.portsOf refs
  · have hone := List.count_eq_one_of_mem hnodup hmem
    have hpos : 0 < held.count port := List.count_pos_iff.mpr (hheld port hmem)
    have hnone : (held.filter (· ∉ Node.portsOf refs)).count port = 0 := by
      apply List.count_eq_zero.mpr
      intro h
      simpa [hmem] using (List.mem_filter.mp h).2
    omega
  · rw [List.count_eq_zero.mpr hmem]
    exact (List.filter_sublist).count_le port

theorem held_of_owned {refs : List LocalRef} (h : n.Owned refs) : ∀ port ∈ Node.portsOf refs, port ∈ n.held := by
  intro port hport
  obtain ⟨ref, href, heq⟩ := List.mem_filterMap.mp hport
  cases ref with
  | actorRef actor => cases heq
  | replyPort timeout port' =>
    cases heq
    simpa [Node.knows] using h.1 _ href

theorem count_messages_concat {κ : Type} (q : List (κ × Msg β)) (key : κ) (msg : Msg β) (port : PortId) :
    (messagePorts (q ++ [(key, msg)])).count port =
      (messagePorts q).count port + (Node.portsOf msg.refs).count port := Queues.count_concat ..

theorem count_messages_of_dequeue {q rest : Queues ActorId (Msg β)} {key : ActorId} {msg : Msg β}
    (h : q.dequeue key = some (msg, rest)) (port : PortId) :
    (messagePorts q).count port = (Node.portsOf msg.refs).count port + (messagePorts rest).count port :=
  Queues.count_of_dequeue h _ port

theorem count_mailbox_post_le (ms : List (PortalActorMessage β)) (life : Life) (m : PortalActorMessage β)
    (port : PortId) : ((ms ++ if life = .running then [m] else []).flatMap PortalActorMessage.ports).count port ≤
      (ms.flatMap PortalActorMessage.ports).count port + m.ports.count port := by
  rw [List.flatMap_append, List.count_append]
  refine Nat.add_le_add_left ?_ _
  split
  · rw [List.flatMap_singleton]
  · exact Nat.zero_le _

/-- A message without ports comes into the mailbox. -/
theorem count_mailbox_le (ms : List (PortalActorMessage β)) (life : Life) {m : PortalActorMessage β}
    (hm : m.ports = []) (port : PortId) :
    ((ms ++ if life = .running then [m] else []).flatMap PortalActorMessage.ports).count port ≤
      (ms.flatMap PortalActorMessage.ports).count port := by
  have h := count_mailbox_post_le ms life m port
  rwa [hm] at h

/-- What terminates loses its ports. -/
theorem uses_halt_le (n : Node β) (life : Life) (port : PortId) : (n.halt life).uses port ≤ n.uses port := by
  have hinbox := Queues.count_le_of_sublist (List.filter_sublist
    (p := fun e => e.1 ∉ n.proxies.map Prod.fst ++ n.rpcProxies.map Prod.fst) (l := n.inbox))
    (fun e => Node.portsOf e.2.refs) port
  have hcarried := count_carried_le_of_subset
    (List.subset_append_left n.exited (n.proxies.map Prod.fst ++ n.rpcProxies.map Prod.fst)) n.rpcProxies n.delivered port
  have hmail : ([].flatMap (PortalActorMessage.ports (β := β))).count port = 0 := rfl
  have hdone : ((Option.toList (none : Option (Rebuilding β))).flatMap fun r => Node.portsOf r.done).count port = 0 := rfl
  unfold Node.uses messagePorts
  dsimp only [Node.halt, Node.kill]
  omega

theorem uses_taskPublish {tag : Tag} (hpopulated : n.Populated) (hreached : n.Reached)
    (hstep : Node.step (.taskPublish tag) n = some n') : Uses n n' := by
  obtain ⟨t, rest, ref, todo, hdequeue, hasked, htodo, -, rfl⟩ := Node.taskPublish_inv hstep
  cases ref with
  | actorRef actor =>
    refine .inr ⟨rfl, fun port => ?_⟩
    have hmail := count_mailbox_post_le n.mailbox n.life (.publishActor actor (some n.nextPort)) port
    have htask := Queues.count_of_dequeue hdequeue (fun t : Tag × Immaterialization β => t.2.ports) port
    have hconcat := Queues.count_concat rest (tag, { t with asked := some n.nextPort })
      (fun t : Tag × Immaterialization β => t.2.ports) port
    have hports : t.ports = Node.portsOf todo := by rw [Immaterialization.ports, hasked, htodo]; rfl
    have hports' : Immaterialization.ports { t with asked := some n.nextPort } = Node.portsOf todo := by
      rw [Immaterialization.ports, htodo]; rfl
    dsimp only at htask hconcat
    rw [hports] at htask
    rw [hports'] at hconcat
    have hnew : (PortalActorMessage.publishActor (β := β) actor (some n.nextPort)).ports = [n.nextPort] := rfl
    rw [hnew] at hmail
    unfold Node.uses
    dsimp only [Node.askPublish, Node.post]
    omega
  | replyPort timeout reply =>
    refine .inr ⟨rfl, fun port => ?_⟩
    have hmail := count_mailbox_post_le n.mailbox n.life (.publishActor n.nextActor (some n.nextPort)) port
    have htask := Queues.count_of_dequeue hdequeue (fun t : Tag × Immaterialization β => t.2.ports) port
    have hconcat := Queues.count_concat rest (tag, { t with asked := some n.nextPort })
      (fun t : Tag × Immaterialization β => t.2.ports) port
    have hports : t.ports = reply :: Node.portsOf todo := by rw [Immaterialization.ports, hasked, htodo]; rfl
    have hports' : Immaterialization.ports { t with asked := some n.nextPort } = Node.portsOf todo := by
      rw [Immaterialization.ports, htodo]; rfl
    dsimp only at htask hconcat
    rw [hports, ← List.singleton_append, List.count_append] at htask
    rw [hports'] at hconcat
    have hnew : (PortalActorMessage.publishActor (β := β) n.nextActor (some n.nextPort)).ports = [n.nextPort] := rfl
    rw [hnew] at hmail
    have hanswers := answers_served_le n.rpcProxies n.replies (n.nextActor, reply) port
    have hserved : ((n.rpcProxies ++ [(n.nextActor, reply)]).map Prod.snd).count port =
        (n.rpcProxies.map Prod.snd).count port + [reply].count port := by
      rw [List.map_append, List.count_append]
      rfl
    -- the actor is new, so nothing was delivered to it
    have hnone : carriedBy n.delivered n.nextActor = [] := by
      rw [carriedBy, List.find?_eq_none.mpr]
      · rfl
      · intro d hd
        obtain ⟨id, hid⟩ := hreached.delivered d hd
        simpa using Nat.ne_of_lt (hpopulated.below.registry id _ hid)
    have hcarried : (carriedPorts (n.rpcProxies ++ [(n.nextActor, reply)]) n.exited n.delivered).count port =
        (carriedPorts n.rpcProxies n.exited n.delivered).count port := by
      unfold carriedPorts
      rw [List.filter_append, List.flatMap_append, List.count_append, Nat.add_eq_left]
      apply List.count_eq_zero.mpr
      intro hmem
      obtain ⟨e, he, hport⟩ := List.mem_flatMap.mp hmem
      obtain rfl := List.mem_singleton.mp (List.mem_of_mem_filter he)
      rw [hnone] at hport
      cases hport
    unfold Node.uses
    dsimp only [Node.askPublish, Node.post]
    omega

theorem uses_rebuildRef (h : n.Linear) (hstep : Node.step .rebuildRef n = some n') : Uses n n' := by
  obtain ⟨r, ref, todo, hr, -, rfl⟩ := Node.rebuildRef_inv hstep
  have hmail := count_mailbox_le n.mailbox n.life (m := .registerProxyForRemoteActor ref.id n.nextActor) rfl
  have hdone (ref' : LocalRef) (port : PortId) : (Node.portsOf (r.done ++ [ref'])).count port =
      (Node.portsOf r.done).count port + (Node.portsOf [ref']).count port := by
    rw [Node.portsOf, List.filterMap_append, List.count_append]
    rfl
  have hold (port : PortId) : (n.rebuilding.toList.flatMap fun r => Node.portsOf r.done).count port =
      (Node.portsOf r.done).count port := by
    rw [hr]
    simp
  cases ref with
  | actorRef id =>
    refine .inl ⟨rfl, fun port => ?_⟩
    have hmail := hmail port
    have hnew := hdone (.actorRef n.nextActor) port
    have hnone : (Node.portsOf [LocalRef.actorRef n.nextActor]).count port = 0 := rfl
    unfold Node.uses
    rw [hold]
    dsimp only [Node.rebuild, Node.spawnProxy, Node.post, RemoteRef.id] at hmail ⊢
    rw [Option.toList_some, List.flatMap_singleton]
    dsimp only
    omega
  | replyPort timeoutMs id =>
    refine .inr ⟨rfl, fun port => ?_⟩
    have hmail := hmail port
    have hone (timeout : Option Duration) :
        (Node.portsOf [LocalRef.replyPort timeout n.nextPort]).count port = [n.nextPort].count port := rfl
    -- nothing was sent on the new port yet
    have hunanswered : n.nextPort ∉ n.replies.map Prod.fst := by
      have hzero := h.fresh n.nextPort (Nat.le_refl _)
      unfold Node.uses answers at hzero
      split at hzero
      · rename_i hmem
        have := List.count_pos_iff.mpr hmem
        omega
      · exact List.count_eq_zero.mp (by omega)
    have hpending : (pendingPorts (n.rebuiltPorts ++ [(n.nextPort, n.nextActor)]) n.replies).count port =
        (pendingPorts n.rebuiltPorts n.replies).count port := by
      rw [pendingPorts, Queues.count_concat, pendingOn_of_not_mem hunanswered]
      rfl
    unfold Node.uses
    rw [hold]
    dsimp only [Node.rebuild, Node.spawnProxy, Node.post, RemoteRef.id] at hmail ⊢
    rw [Option.toList_some, List.flatMap_singleton]
    dsimp only
    rw [hdone, hone]
    omega

/-- Only requests, new references and new reply ports draw a port. -/
theorem uses_quiet (h : n.Linear) (hpopulated : n.Populated) (hreached : n.Reached) (hpump : l.isPump = false)
    (hstep : Node.step l n = some n') : Uses n n' := by
  cases l with
  | recv frame => cases hpump
  | handle uuid nexus sink => cases hpump
  | rebuildDone => cases hpump
  | rebuildRef => exact uses_rebuildRef h hstep
  | request request =>
    obtain ⟨-, rfl⟩ := Node.request_inv hstep
    refine .inr ⟨rfl, fun port => ?_⟩
    -- one new port, for the answer; the request that has it goes to the mailbox
    have hmail := count_mailbox_post_le n.mailbox n.life (n.requestMessage request) port
    have hnew : (n.requestMessage request).ports.count port ≤ [n.nextPort].count port := by
      cases request with
      | publishNamedActor name actor withReply => cases withReply <;> simp [Node.requestMessage, PortalActorMessage.ports]
      | publishActor actor withReply => cases withReply <;> simp [Node.requestMessage, PortalActorMessage.ports]
      | _ => exact Nat.le_refl _
    unfold Node.uses
    dsimp only [Node.post]
    omega
  | instantiate remote =>
    obtain rfl := Node.instantiate_inv hstep
    exact .inl ⟨rfl, fun port => Nat.le_refl _⟩
  | register proxy =>
    obtain ⟨remote, rest, -, rfl⟩ := Node.register_inv hstep
    refine .inl ⟨rfl, fun port => ?_⟩
    have hmail := count_mailbox_le n.mailbox n.life (m := .registerProxyForRemoteActor remote proxy) rfl port
    unfold Node.uses
    dsimp only [Node.post]
    omega
  | spawnActor => cases hstep; exact .inl ⟨rfl, fun port => Nat.le_refl _⟩
  | openPort =>
    cases hstep
    refine .inr ⟨rfl, fun port => ?_⟩
    unfold Node.uses
    dsimp only
    rw [List.count_append]
    omega
  | dropPort port =>
    obtain rfl := Node.dropPort_inv hstep
    exact .inl ⟨rfl, fun port => Nat.le_refl _⟩
  | exit actor =>
    obtain ⟨-, rfl⟩ := Node.exit_inv hstep
    refine .inl ⟨rfl, fun port => ?_⟩
    -- what the actor had in its inbox is lost
    have hinbox := Queues.count_le_of_sublist (List.filter_sublist (p := fun e => e.1 ∉ [actor]) (l := n.inbox))
      (fun e => Node.portsOf e.2.refs) port
    have hcarried := count_carried_le_of_subset (List.subset_append_left n.exited [actor]) n.rpcProxies n.delivered port
    unfold Node.uses messagePorts
    dsimp only [Node.kill]
    omega
  | notify actor =>
    obtain ⟨-, rfl⟩ := Node.notify_inv hstep
    refine .inl ⟨rfl, fun port => ?_⟩
    have hmail := count_mailbox_le n.mailbox n.life (m := .localActorExited actor) rfl port
    unfold Node.uses
    dsimp only [Node.post]
    omega
  | sendTo proxy body refs =>
    obtain ⟨⟨-, -, howned⟩, rfl⟩ := Node.sendTo_inv hstep
    refine .inl ⟨rfl, fun port => ?_⟩
    -- a port that is sent is not held any more
    have hheld := count_owned (held_of_owned howned) howned.2 port
    unfold Node.uses
    dsimp only [Node.enqueue]
    rw [count_messages_concat]
    dsimp only
    omega
  | relay proxy =>
    obtain ⟨msg, rest, hdequeue, rfl⟩ := Node.relay_inv hstep
    refine .inl ⟨rfl, fun port => ?_⟩
    have hinbox := count_messages_of_dequeue hdequeue port
    unfold Node.uses
    dsimp only
    rw [count_messages_concat]
    omega
  | forward proxy =>
    obtain ⟨msg, rest, remote, hdequeue, -, rfl⟩ := Node.forward_inv hstep
    refine .inl ⟨rfl, fun port => ?_⟩
    have hchannel := count_messages_of_dequeue hdequeue port
    have hmail := count_mailbox_post_le n.mailbox n.life (.immaterializeMessage remote msg) port
    have hports : (PortalActorMessage.immaterializeMessage remote msg).ports = Node.portsOf msg.refs := rfl
    unfold Node.uses
    dsimp only [Node.post]
    rw [hports] at hmail
    omega
  | taskPublish tag => exact uses_taskPublish hpopulated hreached hstep
  | taskPublished tag =>
    obtain ⟨t, rest, asked, id, ref, todo, hdequeue, hasked, -, htodo, rfl⟩ := Node.taskPublished_inv hstep
    refine .inl ⟨rfl, fun port => ?_⟩
    have htask := Queues.count_of_dequeue hdequeue (fun t : Tag × Immaterialization β => t.2.ports) port
    have hports : t.ports = Node.portsOf todo := by rw [Immaterialization.ports, hasked, htodo]; rfl
    unfold Node.uses
    dsimp only at htask ⊢
    rw [Queues.count_concat]
    rw [hports] at htask
    have hports' : Immaterialization.ports { t with todo, done := t.done ++ [n.serialize id ref], asked := none } =
        Node.portsOf todo := rfl
    rw [hports']
    omega
  | taskFail tag =>
    obtain ⟨t, rest, hdequeue, rfl⟩ := Node.taskFail_inv hstep
    refine .inl ⟨rfl, fun port => ?_⟩
    have htask := Queues.count_of_dequeue hdequeue (fun t : Tag × Immaterialization β => t.2.ports) port
    unfold Node.uses
    dsimp only
    omega
  | taskPost tag =>
    obtain ⟨t, rest, hdequeue, -, rfl⟩ := Node.taskPost_inv hstep
    refine .inl ⟨rfl, fun port => ?_⟩
    have htask := Queues.count_of_dequeue hdequeue (fun t : Tag × Immaterialization β => t.2.ports) port
    have hmail := count_mailbox_le n.mailbox n.life
      (m := .transmitMessage t.target { tag, refs := t.done, body := some t.body }) rfl port
    unfold Node.uses
    dsimp only [Node.post]
    omega
  | trigger port body refs =>
    obtain ⟨⟨hheld, howned, hnot⟩, rfl⟩ := Node.trigger_inv hstep
    refine .inl ⟨rfl, fun q => ?_⟩
    -- the port is answered and not held any more, and the ports in the value change hands
    have hvalue := count_value_le h.rebuilt n.replies port body refs q
    have hanswers := answers_append_le n.rpcProxies n.replies [(port, .rpc body refs)] q
    have hrefs := count_owned (held_of_owned howned) howned.2 q
    have hfilter : n.held.filter (fun p => decide (p ≠ port ∧ p ∉ Node.portsOf refs)) =
        (n.held.filter (· ∉ Node.portsOf refs)).filter (· ≠ port) := by
      rw [List.filter_filter]
      apply List.filter_congr
      intro p _
      simp
    have hport : ((n.held.filter (· ∉ Node.portsOf refs)).filter (· ≠ port)).count q + [port].count q ≤
        (n.held.filter (· ∉ Node.portsOf refs)).count q := by
      have hmem : port ∈ n.held.filter (· ∉ Node.portsOf refs) := List.mem_filter.mpr ⟨hheld, by simpa using hnot⟩
      by_cases hq : q = port
      · subst hq
        have hpos := List.count_pos_iff.mpr hmem
        have hnone : ((n.held.filter (· ∉ Node.portsOf refs)).filter (· ≠ q)).count q = 0 := by
          apply List.count_eq_zero.mpr
          intro hq
          simpa using (List.mem_filter.mp hq).2
        rw [hnone, List.count_singleton_self]
        omega
      · rw [List.count_singleton, if_neg (by simpa using Ne.symm hq)]
        exact List.filter_sublist.count_le q
    unfold Node.uses
    dsimp only [Node.received]
    rw [List.count_append, hfilter]
    have hmap : (List.map Prod.fst [(port, ReplyValue.rpc body refs)]) = [port] := rfl
    rw [hmap] at hanswers
    omega
  | forwardReply port =>
    obtain ⟨proxy, rest, body, refs, hdequeue, hreply, ⟨-, rfl⟩ | ⟨-, rfl⟩⟩ := Node.forwardReply_inv hstep
    · refine .inl ⟨rfl, fun q => ?_⟩
      have hpending := Queues.count_of_dequeue hdequeue (fun e : PortId × ActorId => pendingOn n.replies e.1) q
      unfold Node.uses pendingPorts
      dsimp only
      omega
    · refine .inl ⟨rfl, fun q => ?_⟩
      have hpending := Queues.count_of_dequeue hdequeue (fun e : PortId × ActorId => pendingOn n.replies e.1) q
      dsimp only at hpending
      rw [pendingOn_of_rpcReply hreply] at hpending
      unfold Node.uses pendingPorts
      dsimp only [Node.enqueue]
      rw [count_messages_concat]
      dsimp only
      omega
  | answer actor =>
    obtain ⟨port, msg, hport, hmsg, hlives, heq⟩ := Node.answer_inv hstep
    have hmem : (actor, port) ∈ n.rpcProxies := Node.mem_of_lookup hport
    have hinbox (q : PortId) := Queues.count_le_of_sublist
      (List.filter_sublist (p := fun e => e.1 ∉ [actor]) (l := n.inbox)) (fun e => Node.portsOf e.2.refs) q
    have hcarried (q : PortId) := count_carried_answered hmem hlives n.delivered q
    -- the proxy ends in any case; if it got the answer, it passes it on first
    obtain rfl | rfl := heq
    · refine .inl ⟨rfl, fun q => ?_⟩
      have hinbox := hinbox q
      have hcarried := hcarried q
      unfold Node.uses messagePorts
      dsimp only [Node.kill]
      omega
    · refine .inl ⟨rfl, fun q => ?_⟩
      have hinbox := hinbox q
      have hcarried := hcarried q
      rw [carriedBy_of_rpcMessage hmsg] at hcarried
      have hvalue := count_value_le h.rebuilt n.replies port msg.body msg.refs q
      have hanswers : answers n.rpcProxies (n.replies ++ [(port, .rpc msg.body msg.refs)]) q =
          answers n.rpcProxies n.replies q := by
        unfold answers
        split
        · rfl
        · rename_i hnot
          have hne : q ≠ port := fun heq => hnot (heq ▸ List.mem_map_of_mem hmem)
          rw [List.map_append, List.count_append, Nat.add_eq_left]
          exact List.count_eq_zero.mpr (by simpa using hne)
      unfold Node.uses messagePorts
      dsimp only [Node.kill, Node.received]
      rw [List.count_append, hanswers]
      omega

/-- The portal itself answers with no value of local code. -/
theorem replies_not_rpc (env : HandleEnv) (state : PortalActorState) (m : PortalActorMessage β) :
    ∀ reply ∈ (handle env state m).replies, reply.2.isRpc = false := by
  rintro ⟨port, value⟩ hmem
  cases handle_causes (mem_replies hmem) <;> rfl

/-- **A turn** moves ports. -/
theorem uses_handle {uuid : OpaqueActorId} {nexus : Option (Option ActorId)} {sink : SinkResult}
    (hstep : Node.step (.handle uuid nexus sink) n = some n') : Uses n n' := by
  obtain ⟨⟨-, hidle, -⟩, m, rest, hmail, rfl⟩ := Node.handle_inv hstep
  have hports := handle_ports (n.env uuid nexus sink) n.state m
  have hrpc := replies_not_rpc (n.env uuid nexus sink) n.state m
  set turn := Portal.handle (n.env uuid nexus sink) n.state m
  have hturn (port : PortId) : (n.takeTurn m rest turn).uses port ≤ n.uses port := by
    have hports := hports port
    have hmail' : (n.mailbox.flatMap PortalActorMessage.ports).count port =
        m.ports.count port + (rest.flatMap PortalActorMessage.ports).count port := by
      rw [hmail, List.flatMap_cons, List.count_append]
    have hinbox := Queues.count_le_of_sublist (List.filter_sublist (p := fun e => e.1 ∉ turn.stopped) (l := n.inbox))
      (fun e => Node.portsOf e.2.refs) port
    have htasks : ((turn.spawned.map fun s => Node.immaterialization s.1 s.2).flatMap fun t => t.2.ports).count port =
        (messagePorts turn.spawned).count port := by
      rw [List.flatMap_map]
      rfl
    have hcarried := count_carried_le_of_subset (List.subset_append_left n.exited turn.stopped) n.rpcProxies n.delivered
      port
    have hpending : pendingPorts n.rebuiltPorts (n.replies ++ turn.replies) = pendingPorts n.rebuiltPorts n.replies := by
      unfold pendingPorts
      congr 1
      funext e
      exact pendingOn_append (firstRpc_of_not_rpc hrpc)
    have hanswers := answers_append_le n.rpcProxies n.replies turn.replies port
    unfold Node.uses messagePorts at *
    dsimp only [Node.takeTurn, Node.kill]
    rw [List.flatMap_append, List.count_append, htasks, hpending]
    omega
  have hhalt (life : Life) (port : PortId) : ((n.takeTurn m rest turn).halt life).uses port ≤ n.uses port := by
    refine Nat.le_trans ?_ (hturn port)
    exact uses_halt_le _ life port
  refine .inl ⟨Node.endTurn_nextPort _ _, fun port => ?_⟩
  cases turn.outcome with
  | ok => exact hturn port
  | stop reason => exact hhalt _ port
  | err error => exact hhalt _ port
  | rematerialize actor data =>
    refine Nat.le_trans (Nat.le_of_eq ?_) (hturn port)
    unfold Node.uses
    dsimp only [Node.endTurn, Node.takeTurn, Node.kill]
    rw [hidle]
    rfl

theorem uses_of_step (h : n.Linear) (hpopulated : n.Populated) (hreached : n.Reached)
    (hstep : Node.step l n = some n') : Uses n n' := by
  cases hpump : l.isPump with
  | false => exact uses_quiet h hpopulated hreached hpump hstep
  | true =>
    cases l with
    | recv frame =>
      obtain ⟨-, rfl⟩ := Node.recv_inv hstep
      have hpost (m : PortalActorMessage β) (hm : m.ports = []) (port : PortId) : (n.post m).uses port ≤ n.uses port := by
        have hmail := count_mailbox_le n.mailbox n.life hm port
        unfold Node.uses
        dsimp only [Node.post]
        omega
      obtain _ | _ | _ | _ := frame <;> exact .inl ⟨rfl, hpost _ rfl⟩
    | handle uuid nexus sink => exact uses_handle hstep
    | rebuildDone =>
      obtain ⟨r, hr, -, rfl⟩ := Node.rebuildDone_inv hstep
      obtain ⟨error, heq⟩ | ⟨body, -, -, heq⟩ := n.deliver_cases r <;> rw [heq]
      · exact .inl ⟨rfl, uses_halt_le n _⟩
      · refine .inl ⟨rfl, fun port => ?_⟩
        have hdelivered := count_delivered_le hpopulated.distinct n.exited n.delivered r.actor
          { tag := r.tag, body, refs := r.done } port
        have hold : (n.rebuilding.toList.flatMap fun r => Node.portsOf r.done).count port =
            (Node.portsOf r.done).count port := by
          rw [hr]
          simp
        have hnone : (Option.toList (none : Option (Rebuilding β))).flatMap (fun r => Node.portsOf r.done) = [] := rfl
        unfold Node.uses
        rw [hold]
        dsimp only [Node.handOver] at hdelivered ⊢
        rw [List.count_append, hnone, List.count_nil]
        omega
    | _ => cases hpump

namespace Node.Linear

/-- A port at an `RpcProxyActor` is nowhere else. -/
theorem uses_of_served (h : n.Linear) {e : ActorId × PortId} (he : e ∈ n.rpcProxies) :
    e.2 ∉ n.held ∧ e.2 ∉ n.state.ports ∧ e.2 ∉ n.mailbox.flatMap PortalActorMessage.ports ∧
      (n.rpcProxies.map Prod.snd).count e.2 = 1 := by
  have hone := h.once e.2
  have hpos : 0 < (n.rpcProxies.map Prod.snd).count e.2 := List.count_pos_iff.mpr (List.mem_map_of_mem he)
  unfold Node.uses at hone
  refine ⟨?_, ?_, ?_, ?_⟩
  · exact List.count_eq_zero.mp (by omega)
  · exact List.count_eq_zero.mp (by omega)
  · exact List.count_eq_zero.mp (by omega)
  · omega

/-- An `RpcProxyActor` has its port to itself. -/
theorem served_unique (h : n.Linear) {e e' : ActorId × PortId} (he : e ∈ n.rpcProxies) (he' : e' ∈ n.rpcProxies)
    (hport : e.2 = e'.2) : e = e' := by
  obtain ⟨-, -, -, hone⟩ := h.uses_of_served he
  have hcount : (n.rpcProxies.flatMap fun e => [e.2]).count e.2 ≤ 1 := by
    rw [← List.map_eq_flatMap, hone]
  exact Queues.eq_of_count_le_one hcount he he' (List.mem_singleton_self _) (List.mem_singleton.mpr hport)

/-- Answers to others do not concern an `RpcProxyActor`. -/
theorem served_append {e : ActorId × PortId} {more : List (PortId × ReplyValue β)} {exited' : List ActorId}
    (h : n.Linear) (he : e ∈ n.rpcProxies) (hexited : n.exited ⊆ exited') (hmore : e.2 ∉ more.map Prod.fst) :
    ((n.replies ++ more).map Prod.fst).count e.2 ≤ (if e.1 ∈ exited' then 1 else 0) ∧
    ∀ value, (e.2, value) ∈ n.replies ++ more → (e.2, value) ∈ n.replies := by
  constructor
  · rw [List.map_append, List.count_append, List.count_eq_zero.mpr hmore]
    refine (h.served e he).trans ?_
    split
    · rename_i hgone
      rw [if_pos (hexited hgone)]
    · exact Nat.zero_le _
  · intro value hmem
    obtain hold | hnew := List.mem_append.mp hmem
    · exact hold
    · exact absurd (List.mem_map_of_mem hnew) hmore

/-- **The answers of an `RpcProxyActor`**, after a step. -/
theorem served_of_step (h : n.Linear) (hstep : Node.step l n = some n') {e : ActorId × PortId}
    (he : e ∈ n.rpcProxies) :
    (n'.replies.map Prod.fst).count e.2 ≤ (if e.1 ∈ n'.exited then 1 else 0) ∧
    ∀ value, (e.2, value) ∈ n'.replies → ∃ msg, n'.rpcMessage e.1 = some msg ∧ value = .rpc msg.body msg.refs := by
  have hexited := Node.exited_of_step hstep
  have hkeep (more : List (PortId × ReplyValue β)) (hreplies : n'.replies = n.replies ++ more)
      (hmore : e.2 ∉ more.map Prod.fst) :
      (n'.replies.map Prod.fst).count e.2 ≤ (if e.1 ∈ n'.exited then 1 else 0) ∧ ∀ value, (e.2, value) ∈ n'.replies →
        ∃ msg, n'.rpcMessage e.1 = some msg ∧ value = .rpc msg.body msg.refs := by
    obtain ⟨hcount, hvalue⟩ := h.served_append he hexited hmore
    rw [hreplies]
    refine ⟨hcount, fun value hmem => ?_⟩
    obtain ⟨msg, hmsg, heq⟩ := h.value e he value (hvalue value hmem)
    exact ⟨msg, Node.rpcMessage_of_step hstep hmsg, heq⟩
  have hsame (hreplies : n'.replies = n.replies) := hkeep [] (by rw [hreplies, List.append_nil]) nofun
  obtain ⟨hheld, hports, hmailports, -⟩ := h.uses_of_served he
  cases hpump : l.isPump with
  | false =>
    have hq := Node.quiet_of_step hpump hstep
    cases l with
    | trigger port body refs =>
      obtain ⟨⟨hport, -⟩, rfl⟩ := Node.trigger_inv hstep
      refine hkeep _ rfl ?_
      rintro hmem
      obtain rfl := List.mem_singleton.mp hmem
      exact hheld hport
    | answer actor =>
      obtain ⟨port, msg, hport, hmsg, hlives, rfl | rfl⟩ := Node.answer_inv hstep
      · exact hsame rfl
      · have hmem := Node.mem_of_lookup hport
        by_cases heq : e.2 = port
        · -- this is the answer of `e`, and the first one
          obtain rfl := h.served_unique he hmem heq
          have hzero : (n.replies.map Prod.fst).count port = 0 := by
            simpa [hlives] using h.served _ he
          refine ⟨?_, fun value hvalue => ?_⟩
          · show ((n.replies ++ [(port, _)]).map Prod.fst).count port ≤ if actor ∈ n.exited ++ [actor] then 1 else 0
            rw [List.map_append, List.count_append, hzero, if_pos (List.mem_append_right _ (List.mem_singleton_self _))]
            simp
          · refine ⟨msg, hmsg, ?_⟩
            obtain hold | hnew := List.mem_append.mp hvalue
            · exact absurd (List.mem_map_of_mem (f := Prod.fst) hold) (List.count_eq_zero.mp hzero)
            · exact congrArg Prod.snd (List.mem_singleton.mp hnew)
        · exact hkeep _ rfl (by simpa using heq)
    | _ => exact hsame (hq.answered (by simp) (by simp))
  | true =>
    cases l with
    | recv frame =>
      obtain ⟨-, rfl⟩ := Node.recv_inv hstep
      obtain _ | _ | _ | _ := frame <;> exact hsame rfl
    | handle uuid nexus sink =>
      obtain ⟨-, m, rest, hmail, hturned⟩ := Node.turned_of_handle hstep
      refine hkeep _ hturned.replies fun hmem => ?_
      -- a port that a turn answers was in its message or in the tables
      have hmoved := handle_ports (n.env uuid nexus sink) n.state m e.2
      have hpos := List.count_pos_iff.mpr hmem
      have hstate := List.count_eq_zero.mpr hports
      have hm : m.ports.count e.2 = 0 := by
        refine List.count_eq_zero.mpr fun hport => hmailports ?_
        rw [hmail]
        exact List.mem_flatMap.mpr ⟨m, List.mem_cons_self, hport⟩
      omega
    | rebuildDone =>
      obtain ⟨r, -, -, rfl⟩ := Node.rebuildDone_inv hstep
      obtain ⟨error, heq⟩ | ⟨body, -, -, heq⟩ := n.deliver_cases r <;> refine hsame ?_ <;> rw [heq] <;> rfl
    | _ => cases hpump

/-- Rebuilt ports have different numbers. -/
theorem rebuilt_of_step (h : n.Linear) (hstep : Node.step l n = some n') :
    (n'.rebuiltPorts.map Prod.fst).Nodup ∧ ∀ e ∈ n'.rebuiltPorts, e.1 < n'.nextPort := by
  have hsame (hrebuilt : n'.rebuiltPorts = n.rebuiltPorts) (hport : n.nextPort ≤ n'.nextPort) :
      (n'.rebuiltPorts.map Prod.fst).Nodup ∧ ∀ e ∈ n'.rebuiltPorts, e.1 < n'.nextPort := by
    rw [hrebuilt]
    exact ⟨h.rebuilt, fun e he => Nat.lt_of_lt_of_le (h.rebuiltLt e he) hport⟩
  cases hpump : l.isPump with
  | false =>
    have hq := Node.quiet_of_step hpump hstep
    cases l with
    | rebuildRef =>
      obtain ⟨r, ref, todo, -, -, rfl⟩ := Node.rebuildRef_inv hstep
      cases ref with
      | actorRef id => exact hsame rfl (Nat.le_refl _)
      | replyPort timeoutMs id =>
        show ((n.rebuiltPorts ++ [(n.nextPort, n.nextActor)]).map Prod.fst).Nodup ∧
          ∀ e ∈ n.rebuiltPorts ++ [(n.nextPort, n.nextActor)], e.1 < n.nextPort + 1
        constructor
        · rw [List.map_append, List.nodup_append]
          refine ⟨h.rebuilt, List.nodup_singleton _, ?_⟩
          rintro port hport _ hnew rfl
          obtain ⟨e, he, rfl⟩ := List.mem_map.mp hport
          exact Nat.ne_of_lt (h.rebuiltLt e he) (List.mem_singleton.mp hnew)
        · intro e he
          obtain hold | hnew := List.mem_append.mp he
          · exact Nat.lt_succ_of_lt (h.rebuiltLt e hold)
          · rw [List.mem_singleton.mp hnew]
            exact Nat.lt_succ_self _
    | forwardReply port =>
      obtain ⟨proxy, rest, body, refs, hdequeue, -, hcases⟩ := Node.forwardReply_inv hstep
      have hperm := Queues.perm_of_dequeue hdequeue
      have hnodup : (rest.map Prod.fst).Nodup :=
        (List.nodup_cons.mp ((hperm.map Prod.fst).nodup_iff.mp h.rebuilt)).2
      have hlt : ∀ e ∈ rest, e.1 < n.nextPort :=
        fun e he => h.rebuiltLt e (hperm.mem_iff.mpr (List.mem_cons_of_mem _ he))
      obtain ⟨-, rfl⟩ | ⟨-, rfl⟩ := hcases <;> exact ⟨hnodup, hlt⟩
    | _ => exact hsame (hq.rebuiltPorts (by simp) (by simp)) hq.nextPort
  | true =>
    cases l with
    | recv frame =>
      obtain ⟨-, rfl⟩ := Node.recv_inv hstep
      obtain _ | _ | _ | _ := frame <;> exact hsame rfl (Nat.le_refl _)
    | handle uuid nexus sink =>
      obtain ⟨-, m, rest, -, rfl⟩ := Node.handle_inv hstep
      cases (Portal.handle (n.env uuid nexus sink) n.state m).outcome <;> exact ⟨h.rebuilt, h.rebuiltLt⟩
    | rebuildDone =>
      obtain ⟨r, -, -, rfl⟩ := Node.rebuildDone_inv hstep
      obtain ⟨error, heq⟩ | ⟨body, -, -, heq⟩ := n.deliver_cases r <;> rw [heq] <;> exact ⟨h.rebuilt, h.rebuiltLt⟩
    | _ => cases hpump

theorem step (h : n.Linear) (hpopulated : n.Populated) (hreached : n.Reached) (hstep : Node.step l n = some n') :
    n'.Linear := by
  have huses := uses_of_step h hpopulated hreached hstep
  obtain ⟨hrebuilt, hrebuiltLt⟩ := h.rebuilt_of_step hstep
  have honce : ∀ port, n'.uses port ≤ 1 := by
    intro port
    obtain ⟨-, hle⟩ | ⟨-, hle⟩ := huses
    · exact (hle port).trans (h.once port)
    · have hle := hle port
      by_cases hport : port = n.nextPort
      · subst hport
        rwa [h.fresh _ (Nat.le_refl _), List.count_singleton_self] at hle
      · rw [List.count_singleton, if_neg (by simpa using Ne.symm hport)] at hle
        exact hle.trans (h.once port)
  have hfresh : ∀ port, n'.nextPort ≤ port → n'.uses port = 0 := by
    intro port hport
    obtain ⟨hnext, hle⟩ | ⟨hnext, hle⟩ := huses
    · rw [hnext] at hport
      exact Nat.le_zero.mp (h.fresh port hport ▸ hle port)
    · rw [hnext] at hport
      have hle := hle port
      rw [h.fresh port (Nat.le_of_succ_le hport), List.count_singleton,
        if_neg (by simpa using Nat.ne_of_lt hport)] at hle
      exact Nat.le_zero.mp hle
  obtain hsame | ⟨tag, t, rest, timeout, port, todo, rfl, hdequeue, hasked, htodo, rfl⟩ := rpcProxies_of_step hstep
  · refine ⟨honce, hfresh, hrebuilt, hrebuiltLt, ?_, ?_⟩
    · exact fun e he => (h.served_of_step hstep (hsame ▸ he)).1
    · exact fun e he => (h.served_of_step hstep (hsame ▸ he)).2
  · -- the port of the new actor was in the task, so nobody has answered on it
    have hunanswered : port ∉ n.replies.map Prod.fst := by
      have hone := h.once port
      have htask := Queues.count_of_dequeue hdequeue (fun t : Tag × Immaterialization β => t.2.ports) port
      have hports : t.ports = port :: Node.portsOf todo := by rw [Immaterialization.ports, hasked, htodo]; rfl
      dsimp only at htask
      rw [hports, List.count_cons_self] at htask
      unfold Node.uses answers at hone
      split at hone
      · rename_i hmem
        have := List.count_pos_iff.mpr hmem
        omega
      · exact List.count_eq_zero.mp (by omega)
    refine ⟨honce, hfresh, hrebuilt, hrebuiltLt, ?_, ?_⟩
    · intro e he
      obtain hold | hnew := List.mem_append.mp he
      · exact (h.served_of_step hstep hold).1
      · rw [List.mem_singleton.mp hnew]
        show (n.replies.map Prod.fst).count port ≤ _
        rw [List.count_eq_zero.mpr hunanswered]
        exact Nat.zero_le _
    · intro e he value hvalue
      obtain hold | hnew := List.mem_append.mp he
      · exact (h.served_of_step hstep hold).2 value hvalue
      · rw [List.mem_singleton.mp hnew] at hvalue
        exact absurd (List.mem_map_of_mem hvalue) hunanswered

theorem of_run {setup : Setup} {ls : List (Label β)}
    (hrun : Transition.Run Node.step Transition.Any ls (Node.started setup) n) : n.Linear := by
  have hall : n.Linear ∧ n.Populated ∧ n.Reached := by
    refine hrun.invariant (P := fun n => n.Linear ∧ n.Populated ∧ n.Reached) ?_ ?_
    · rintro l s t ⟨hlinear, hpopulated, hreached⟩ _ hstep
      exact ⟨hlinear.step hpopulated hreached hstep, hpopulated.step hstep, hreached.step hstep⟩
    · refine ⟨⟨fun _ => Nat.zero_le _, fun _ _ => rfl, List.nodup_nil, nofun, nofun, nofun⟩,
        Node.Populated.of_run (.nil _), Node.Reached.of_run (.nil _)⟩
  exact hall.1

/-- **A reply port is answered once.** -/
theorem answered_once (h : n.Linear) (port : PortId) : (n.replies.map Prod.fst).count port ≤ 1 := by
  by_cases hmem : port ∈ n.rpcProxies.map Prod.snd
  · obtain ⟨e, he, rfl⟩ := List.mem_map.mp hmem
    refine (h.served e he).trans ?_
    split
    · exact Nat.le_refl _
    · exact Nat.zero_le _
  · have hone := h.once port
    unfold Node.uses answers at hone
    rw [if_neg hmem] at hone
    omega

end Node.Linear

end

end Portal
end Wormhole
