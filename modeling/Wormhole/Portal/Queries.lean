import Wormhole.Portal.Handshake
import Wormhole.Portal.Phases

/-!
# `Portal.Queries` — which answer belongs to which name query

A query takes the next request id, is kept under it in `open_requests`, and goes to the peer with it. The peer
answers under the same id. Both sides draw their ids from the same numbers, and both directions use the same
frames; but a response is looked up only among the side's own open requests, and the id of an open request is
never drawn again. So the answer that a caller gets was computed for its own name (`Correlated`).
-/

namespace Wormhole
namespace Portal

variable {β : Type}

/-! ## One turn -/

/-- The answers to name queries among the frames. -/
inductive CrossPortalMessage.Responds (id : CrossPortalMessageId) (result : Resolution) :
    CrossPortalMessage β → Prop where
  | byName : Responds id result (.responseActorByName id result)
  | byId : Responds id result (.responseActorById id result)

/-- What a turn does to the next request id and to the open requests. -/
inductive Requests (state : PortalActorState) :
    PortalActorMessage β → Nat → HashMap CrossPortalMessageId PortId → Prop where
  | asked (name : String) (port : PortId) (hopen : state.channelState.isOpen = true) :
      Requests state (.queryNamedRemoteActor name port) ((state.nextRequestId + 1) % 2 ^ 64)
        (state.openRequests.insert state.nextRequestId port)
  | answered (msg : CrossPortalMessage β) (id : CrossPortalMessageId) (result : Resolution) (port : PortId)
      (hmsg : msg.Responds id result) (hlook : state.openRequests.lookup id = some port) :
      Requests state (.content (some msg)) state.nextRequestId (state.openRequests.erase id)
  | other (m : PortalActorMessage β)
      (hm : ∀ name port, m = .queryNamedRemoteActor name port → state.channelState.isOpen = false) :
      Requests state m state.nextRequestId state.openRequests

section

variable {env : HandleEnv} {state : PortalActorState} {m : PortalActorMessage β}

theorem handle_requests (env : HandleEnv) (state : PortalActorState) (m : PortalActorMessage β) :
    Requests state m (handle env state m).state.nextRequestId (handle env state m).state.openRequests := by
  have hsame {state' : PortalActorState} (hm : ∀ name port, m ≠ .queryNamedRemoteActor name port)
      (hnext : state'.nextRequestId = state.nextRequestId) (hopen : state'.openRequests = state.openRequests) :
      Requests state m state'.nextRequestId state'.openRequests := by
    rw [hnext, hopen]
    exact .other m fun name port heq => absurd heq (hm name port)
  fun_cases handle env state m
  · fun_cases handleHandshake <;> exact hsame (by rintro _ _ ⟨⟩) rfl rfl
  · fun_cases handleContent
    · exact hsame (by rintro _ _ ⟨⟩) rfl rfl
    · exact hsame (by rintro _ _ ⟨⟩) rfl rfl
    · fun_cases handleCrossPortalMessage
      · fun_cases handleRequestActorByName <;> exact hsame (by rintro _ _ ⟨⟩) (by simp) (by simp)
      · fun_cases handleResponse with
        | case1 port hlook => rw [replying_state]; exact .answered _ _ _ _ .byName hlook
        | case2 => exact hsame (by rintro _ _ ⟨⟩) rfl rfl
      · fun_cases handleResponse with
        | case1 port hlook => rw [replying_state]; exact .answered _ _ _ _ .byId hlook
        | case2 => exact hsame (by rintro _ _ ⟨⟩) rfl rfl
      · fun_cases handleSendMessage <;> exact hsame (by rintro _ _ ⟨⟩) rfl rfl
      · fun_cases handleActorExited <;> exact hsame (by rintro _ _ ⟨⟩) rfl rfl
  · exact hsame (by rintro _ _ ⟨⟩) rfl rfl
  · fun_cases handleWaitForHandshake <;> exact hsame (by rintro _ _ ⟨⟩) (by simp) (by simp)
  · fun_cases handlePublishNamedActor <;> exact hsame (by rintro _ _ ⟨⟩) (by simp +zetaDelta) (by simp +zetaDelta)
  · fun_cases handlePublishActor <;> exact hsame (by rintro _ _ ⟨⟩) (by simp) (by simp)
  · fun_cases handleQueryNamedRemoteActor with
    | case1 own hopening => exact .other _ fun _ _ _ => by rw [hopening]; rfl
    | case2 channel hopen => rw [sending_state]; exact .asked _ _ (by rw [hopen]; rfl)
  · fun_cases handleImmaterializeMessage <;> exact hsame (by rintro _ _ ⟨⟩) rfl rfl
  · fun_cases handleTransmitMessage <;> exact hsame (by rintro _ _ ⟨⟩) (by simp) (by simp)
  · fun_cases handleRegisterProxyForRemoteActor <;> exact hsame (by rintro _ _ ⟨⟩) rfl rfl
  · fun_cases handleLocalActorExited <;> exact hsame (by rintro _ _ ⟨⟩) (by simp) (by simp)

/-- **A response with an unknown id** changes nothing and ends well. -/
theorem handle_unknown {channel : ConduitID} {msg : CrossPortalMessage β} {id : CrossPortalMessageId}
    {result : Resolution} (hopen : state.channelState = .opened channel) (hmsg : msg.Responds id result)
    (hunknown : state.openRequests.lookup id = none) : handle env state (.content (some msg)) = { state } := by
  cases hmsg <;> simp only [handle, handleContent, hopen, handleCrossPortalMessage, handleResponse, hunknown]

end

/-! ## One side -/

/-- Local code asks for `name`, and waits on `port`. -/
def Requested (took : Label β → Node β → Prop) (name : String) (port : PortId) : Prop :=
  ∃ n, took (.request (.queryNamedRemoteActor name)) n ∧ n.nextPort = port

/-- The portal gives the query for `name` that waits on `port` the number `id`. -/
def Asked (took : Label β → Node β → Prop) (id : CrossPortalMessageId) (name : String) (port : PortId) : Prop :=
  ∃ n uuid nexus sink rest, took (.handle uuid nexus sink) n ∧
    n.mailbox = .queryNamedRemoteActor name port :: rest ∧ n.state.channelState.isOpen = true ∧
    n.state.nextRequestId = id

/-- The portal takes the request `id` for `name`, and answers it with `result`. -/
def Computed (took : Label β → Node β → Prop) (id : CrossPortalMessageId) (name : String)
    (result : Resolution) : Prop :=
  ∃ n uuid nexus sink rest, took (.handle uuid nexus sink) n ∧
    n.mailbox = .content (some (.requestActorByName id name)) :: rest ∧
    .responseActorByName id result ∈
      (handle (β := β) (n.env uuid nexus sink) n.state (.content (some (.requestActorByName id name)))).frames

/-- The queries of one side, whatever its peer does. -/
structure Asking (took : Label β → Node β → Prop) (n : Node β) : Prop where
  requested : ∀ name port, Requested took name port →
    port < n.nextPort ∧ ∀ name', Requested took name' port → name' = name
  queued : ∀ name port, .queryNamedRemoteActor name port ∈ n.mailbox → Requested took name port
  asked : ∀ id name port, Asked took id name port → Requested took name port ∧ id < n.state.nextRequestId ∧
    ∀ name' port', Asked took id name' port' → name' = name ∧ port' = port
  kept : ∀ id port, n.state.openRequests.lookup id = some port → ∃ name, Asked took id name port
  written : ∀ id name, .content (some (.requestActorByName id name)) ∈ n.sent → ∃ port, Asked took id name port

section

variable {took took' : Label β → Node β → Prop} {l : Label β} {n n' : Node β}

theorem Extends.requested (h : Extends took took' l n) {name : String} {port : PortId}
    (hreq : Requested took name port) : Requested took' name port := by
  obtain ⟨m, hm, hport⟩ := hreq
  exact ⟨m, h.old hm, hport⟩

theorem Extends.asked (h : Extends took took' l n) {id : CrossPortalMessageId} {name : String} {port : PortId}
    (hask : Asked took id name port) : Asked took' id name port := by
  obtain ⟨m, uuid, nexus, sink, rest, hm, hfacts⟩ := hask
  exact ⟨m, uuid, nexus, sink, rest, h.old hm, hfacts⟩

theorem Extends.computed (h : Extends took took' l n) {id : CrossPortalMessageId} {name : String}
    {result : Resolution} (hcomp : Computed took id name result) : Computed took' id name result := by
  obtain ⟨m, uuid, nexus, sink, rest, hm, hfacts⟩ := hcomp
  exact ⟨m, uuid, nexus, sink, rest, h.old hm, hfacts⟩

theorem Extends.of_requested (h : Extends took took' l n) {name : String} {port : PortId}
    (hreq : Requested took' name port) :
    Requested took name port ∨ l = .request (.queryNamedRemoteActor name) ∧ n.nextPort = port := by
  obtain ⟨m, hm, hport⟩ := hreq
  obtain hold | ⟨rfl, rfl⟩ := h.new hm
  · exact .inl ⟨m, hold, hport⟩
  · exact .inr ⟨rfl, hport⟩

/-- A query that is handed to the portal. -/
theorem query_of_step (hstep : Node.step l n = some n') {name : String} {port : PortId}
    (hm : .queryNamedRemoteActor name port ∈ n'.mailbox) :
    .queryNamedRemoteActor name port ∈ n.mailbox ∨
      l = .request (.queryNamedRemoteActor name) ∧ n.nextPort = port := by
  by_cases hreq : ∃ request, l = .request request
  · obtain ⟨request, rfl⟩ := hreq
    obtain ⟨-, rfl⟩ := Node.request_inv hstep
    refine (Node.mem_mailbox_post hm).imp_right fun heq => ?_
    cases request <;> cases heq
    exact ⟨rfl, rfl⟩
  · obtain hold | hposts | ⟨frame, rfl, heq⟩ := Node.mem_mailbox_of_step hstep hm
    · exact .inl hold
    · cases l with
      | request request => exact absurd ⟨request, rfl⟩ hreq
      | _ => cases hposts
    · obtain _ | _ | _ | _ := frame <;> cases heq

/-- A query that is given a number. -/
theorem Extends.of_asked (h : Extends took took' l n) (hstep : Node.step l n = some n')
    {id : CrossPortalMessageId} {name : String} {port : PortId} (hask : Asked took' id name port) :
    Asked took id name port ∨ id = n.state.nextRequestId ∧
      n'.state.nextRequestId = (n.state.nextRequestId + 1) % 2 ^ 64 ∧
      n.mailbox.head? = some (.queryNamedRemoteActor name port) := by
  obtain ⟨m, uuid, nexus, sink, rest, hm, hmail, hopen, hid⟩ := hask
  obtain hold | ⟨rfl, rfl⟩ := h.new hm
  · exact .inl ⟨m, uuid, nexus, sink, rest, hold, hmail, hopen, hid⟩
  · refine .inr ⟨hid.symm, ?_, by rw [hmail]; rfl⟩
    obtain ⟨-, m', rest', hmail', hturned⟩ := Node.turned_of_handle hstep
    rw [hmail] at hmail'
    cases hmail'
    have hrequests := handle_requests (m.env uuid nexus sink) m.state (.queryNamedRemoteActor (β := β) name port)
    rw [hturned.state]
    generalize (handle (m.env uuid nexus sink) m.state _).state.nextRequestId = next at hrequests ⊢
    generalize (handle (m.env uuid nexus sink) m.state _).state.openRequests = requests at hrequests
    cases hrequests with
    | asked => rfl
    | other _ hnot =>
      have := hnot name port rfl
      rw [hopen] at this
      cases this

namespace Asking

/-- A counter that does not fall has not wrapped. -/
theorem next_of_wrap {next next' : Nat} (hnext : next' = (next + 1) % 2 ^ 64) (hwrap : next ≤ next') :
    next' = next + 1 := by omega

theorem requested_of_step (h : Asking took n) (hext : Extends took took' l n) (hstep : Node.step l n = some n')
    {name : String} {port : PortId} (hreq : Requested took' name port) :
    port < n'.nextPort ∧ ∀ name', Requested took' name' port → name' = name := by
  obtain hold | ⟨rfl, rfl⟩ := hext.of_requested hreq
  · obtain ⟨hlt, hunique⟩ := h.requested name port hold
    refine ⟨Nat.lt_of_lt_of_le hlt (Node.nextPort_le_of_step hstep), fun name' hreq' => ?_⟩
    obtain hold' | ⟨-, rfl⟩ := hext.of_requested hreq'
    · exact hunique name' hold'
    · exact absurd hlt (Nat.lt_irrefl _)
  · obtain ⟨-, rfl⟩ := Node.request_inv hstep
    refine ⟨Nat.lt_succ_self _, fun name' hreq' => ?_⟩
    obtain hold' | ⟨heq, -⟩ := hext.of_requested hreq'
    · exact absurd (h.requested name' _ hold').1 (Nat.lt_irrefl _)
    · cases heq
      rfl

theorem asked_of_step (h : Asking took n) (hext : Extends took took' l n) (hstep : Node.step l n = some n')
    (hwrap : n.state.nextRequestId ≤ n'.state.nextRequestId) {id : CrossPortalMessageId} {name : String}
    {port : PortId} (hask : Asked took' id name port) :
    Requested took' name port ∧ id < n'.state.nextRequestId ∧
      ∀ name' port', Asked took' id name' port' → name' = name ∧ port' = port := by
  obtain hold | ⟨rfl, hnext, hhead⟩ := hext.of_asked hstep hask
  · obtain ⟨hreq, hlt, hunique⟩ := h.asked id name port hold
    refine ⟨hext.requested hreq, Nat.lt_of_lt_of_le hlt hwrap, fun name' port' hask' => ?_⟩
    obtain hold' | ⟨rfl, -⟩ := hext.of_asked hstep hask'
    · exact hunique name' port' hold'
    · exact absurd hlt (Nat.lt_irrefl _)
  · refine ⟨hext.requested (h.queued name port (List.mem_of_mem_head? hhead)), ?_, fun name' port' hask' => ?_⟩
    · rw [next_of_wrap hnext hwrap]
      exact Nat.lt_succ_self _
    · obtain hold' | ⟨-, -, hhead'⟩ := hext.of_asked hstep hask'
      · exact absurd (h.asked _ name' port' hold').2.1 (Nat.lt_irrefl _)
      · rw [hhead] at hhead'
        cases hhead'
        exact ⟨rfl, rfl⟩

theorem kept_of_step (h : Asking took n) (hext : Extends took took' l n) (hstep : Node.step l n = some n')
    {id : CrossPortalMessageId} {port : PortId} (hlook : n'.state.openRequests.lookup id = some port) :
    ∃ name, Asked took' id name port := by
  have hold (hlook : n.state.openRequests.lookup id = some port) : ∃ name, Asked took' id name port := by
    obtain ⟨name, hask⟩ := h.kept id port hlook
    exact ⟨name, hext.asked hask⟩
  obtain hidle | ⟨uuid, nexus, sink, m, rest, rfl, -, hmail, hturned⟩ := Node.idle_or_turned hstep
  · exact hold (hidle.state ▸ hlook)
  · have hrequests := handle_requests (n.env uuid nexus sink) n.state m
    rw [hturned.state] at hlook
    generalize (handle (n.env uuid nexus sink) n.state m).state.openRequests = requests at hrequests hlook
    generalize (handle (n.env uuid nexus sink) n.state m).state.nextRequestId = next at hrequests
    cases hrequests with
    | asked name port' hopen =>
      rw [HashMap.lookup_insert_eq] at hlook
      split at hlook
      · rename_i heq
        cases hlook
        exact ⟨name, n, uuid, nexus, sink, rest, hext.now nofun, hmail, hopen, heq.symm⟩
      · exact hold hlook
    | answered msg id' result port' hmsg hlook' =>
      rw [HashMap.lookup_erase_eq] at hlook
      split at hlook
      · cases hlook
      · exact hold hlook
    | other => exact hold hlook

theorem written_of_step (h : Asking took n) (hext : Extends took took' l n) (hstep : Node.step l n = some n')
    {id : CrossPortalMessageId} {name : String}
    (hsent : .content (some (.requestActorByName id name)) ∈ n'.sent) : ∃ port, Asked took' id name port := by
  have hold (hsent : .content (some (.requestActorByName id name)) ∈ n.sent) : ∃ port, Asked took' id name port := by
    obtain ⟨port, hask⟩ := h.written id name hsent
    exact ⟨port, hext.asked hask⟩
  obtain hidle | ⟨uuid, nexus, sink, m, rest, rfl, -, hmail, hturned⟩ := Node.idle_or_turned hstep
  · exact hold (hidle.sent ▸ hsent)
  · rw [hturned.sent] at hsent
    obtain hsent | hnew := List.mem_append.mp hsent
    · exact hold hsent
    · obtain ⟨msg, hmsg, heq⟩ := List.mem_map.mp hnew
      cases heq
      cases handle_causes (mem_frames hmsg) with
      | query channel name port hopen =>
        exact ⟨port, n, uuid, nexus, sink, rest, hext.now nofun, hmail, by rw [hopen]; rfl, rfl⟩

/-- **Every step**, while the next request id does not wrap. -/
theorem step (h : Asking took n) (hext : Extends took took' l n) (hstep : Node.step l n = some n')
    (hwrap : n.state.nextRequestId ≤ n'.state.nextRequestId) : Asking took' n' := by
  constructor
  · intro name port hreq
    exact h.requested_of_step hext hstep hreq
  · intro name port hm
    obtain hold | ⟨rfl, hnext⟩ := query_of_step hstep hm
    · exact hext.requested (h.queued name port hold)
    · exact ⟨n, hext.now nofun, hnext⟩
  · intro id name port hask
    exact h.asked_of_step hext hstep hwrap hask
  · intro id port hlook
    exact h.kept_of_step hext hstep hlook
  · intro id name hsent
    exact h.written_of_step hext hstep hsent

theorem started (hnone : ∀ {l : Label β} {n : Node β}, ¬took l n) (setup : Setup) :
    Asking took (Node.started setup) := by
  constructor
  · rintro name port ⟨n, htook, -⟩
    exact (hnone htook).elim
  · rintro name port ⟨⟩
  · rintro id name port ⟨n, uuid, nexus, sink, rest, htook, -⟩
    exact (hnone htook).elim
  · rintro id port ⟨⟩
  · intro id name hsent
    cases List.mem_singleton.mp hsent

end Asking

end

/-! ## The port of a query -/

/-- The port on which a query waits. -/
def PortalActorMessage.query? : PortalActorMessage β → Option PortId
  | .queryNamedRemoteActor _ port => some port
  | _ => none

/-- The ports that were answered with the result of a query. -/
def resolvedPorts (replies : List (PortId × ReplyValue β)) : List PortId :=
  replies.filterMap fun
    | (port, .resolved _) => some port
    | _ => none

/-- How often a port occurs as the one of a query. -/
def Node.queries (n : Node β) (port : PortId) : Nat :=
  (n.mailbox.filterMap PortalActorMessage.query?).count port + n.state.openRequests.values.count port +
    (resolvedPorts n.replies).count port

section

variable {env : HandleEnv} {state : PortalActorState} {m : PortalActorMessage β} {port : PortId}
  {replies : List (PortId × ReplyValue β)} {n n' : Node β} {l : Label β}

theorem count_query_le (ms : List (PortalActorMessage β)) (port : PortId) :
    (ms.filterMap PortalActorMessage.query?).count port ≤ (ms.flatMap PortalActorMessage.ports).count port := by
  rw [List.filterMap_eq_flatMap_toList]
  induction ms with
  | nil => exact Nat.le_refl _
  | cons m ms ih =>
    rw [List.flatMap_cons, List.flatMap_cons, List.count_append, List.count_append]
    refine Nat.add_le_add ?_ ih
    cases m <;> first | exact Nat.le_refl _ | exact Nat.zero_le _

theorem mem_resolvedPorts : port ∈ resolvedPorts replies ↔ ∃ result, (port, .resolved result) ∈ replies := by
  constructor
  · intro h
    obtain ⟨⟨port', value⟩, hmem, heq⟩ := List.mem_filterMap.mp h
    cases value <;> cases heq
    exact ⟨_, hmem⟩
  · rintro ⟨result, h⟩
    exact List.mem_filterMap.mpr ⟨_, h, rfl⟩

theorem resolvedPorts_append (replies more : List (PortId × ReplyValue β)) :
    resolvedPorts (replies ++ more) = resolvedPorts replies ++ resolvedPorts more := List.filterMap_append

theorem count_resolvedPorts_le (replies : List (PortId × ReplyValue β)) (port : PortId) :
    (resolvedPorts replies).count port ≤ (replies.map Prod.fst).count port := by
  have hmap : (resolvedPorts replies).Sublist (replies.map Prod.fst) := by
    induction replies with
    | nil => exact List.Sublist.refl _
    | cons reply replies ih =>
      obtain ⟨port', value⟩ := reply
      cases value with
      | resolved result => exact ih.cons_cons port'
      | _ => exact ih.cons port'
  exact hmap.count_le port

/-- A port that is answered with results only. -/
theorem count_resolved_iff : (replies.map Prod.fst).count port ≤ (resolvedPorts replies).count port ↔
    ∀ value, (port, value) ∈ replies → ∃ result, value = .resolved result := by
  induction replies with
  | nil => exact ⟨fun _ _ h => (List.not_mem_nil h).elim, fun _ => Nat.le_refl _⟩
  | cons reply replies ih =>
    obtain ⟨port', value⟩ := reply
    have hle := count_resolvedPorts_le replies port
    rw [← List.singleton_append, resolvedPorts_append, List.map_append, List.count_append, List.count_append]
    by_cases hport : port' = port
    · subst hport
      by_cases hvalue : ∃ result, value = .resolved result
      · obtain ⟨result, rfl⟩ := hvalue
        have hone : resolvedPorts [(port', ReplyValue.resolved (β := β) result)] = [port'] := rfl
        rw [hone, List.map_singleton, Nat.add_le_add_iff_left, ih]
        refine ⟨fun h value hmem => ?_, fun h value hmem => h value (List.mem_cons_of_mem _ hmem)⟩
        obtain heq | hmem := List.mem_cons.mp hmem
        · exact ⟨result, congrArg Prod.snd heq⟩
        · exact h value hmem
      · have hnone : resolvedPorts [(port', value)] = [] := by
          cases value <;> first | rfl | exact absurd ⟨_, rfl⟩ hvalue
        rw [hnone, List.count_nil, Nat.zero_add, List.map_singleton, List.count_singleton_self]
        exact iff_of_false (by omega) fun h => hvalue (h _ List.mem_cons_self)
    · have hnone : (resolvedPorts [(port', value)]).count port = 0 := by
        refine Nat.le_zero.mp ((count_resolvedPorts_le _ _).trans (Nat.le_of_eq ?_))
        exact List.count_eq_zero.mpr (by simpa using Ne.symm hport)
      have hnone' : ([(port', value)].map Prod.fst).count port = 0 :=
        List.count_eq_zero.mpr (by simpa using Ne.symm hport)
      rw [hnone, hnone', Nat.zero_add, Nat.zero_add, ih]
      refine ⟨fun h value' hmem => ?_, fun h value hmem => h value (List.mem_cons_of_mem _ hmem)⟩
      obtain heq | hmem := List.mem_cons.mp hmem
      · exact absurd (congrArg Prod.fst heq).symm hport
      · exact h value' hmem

/-- A turn takes the port of a query to no other place. -/
theorem handle_elsewhere (env : HandleEnv) (hm : port ∈ m.ports → m.query? = some port)
    (hwait : port ∉ state.waitingForHandshake) :
    (∀ value, (port, value) ∈ (handle env state m).replies → ∃ result, value = .resolved result) ∧
      port ∉ (handle env state m).state.waitingForHandshake ∧
      port ∉ messagePorts (handle env state m).spawned := by
  have hwaits := handle_waits env state m
  have hqueue : port ∉ (handle env state m).state.waitingForHandshake ∧
      port ∉ openedPorts (handle env state m).replies := by
    generalize (handle env state m).state.waitingForHandshake = waiting at hwaits ⊢
    generalize openedPorts (handle env state m).replies = opened at hwaits ⊢
    have hwaiter {reply : PortId} (h : (PortalActorMessage.waitForHandshake (β := β) reply) = m) : port ≠ reply := by
      rintro rfl
      subst h
      cases hm (List.mem_singleton_self _)
    cases hwaits with
    | queued reply own hopening => exact ⟨by simpa [hwait] using hwaiter rfl, List.not_mem_nil⟩
    | answered reply channel hopen =>
      refine ⟨hwait, ?_⟩
      split
      · simpa using hwaiter rfl
      · exact List.not_mem_nil
    | drained own remote hopening => exact ⟨List.not_mem_nil, fun h => hwait (List.mem_of_mem_filter h)⟩
    | other => exact ⟨hwait, List.not_mem_nil⟩
  refine ⟨fun value hvalue => ?_, hqueue.1, ?_⟩
  · cases handle_causes (mem_replies hvalue) with
    | waiter text => exact absurd (mem_openedPorts.mpr hvalue) hqueue.2
    | opened => exact absurd (mem_openedPorts.mpr hvalue) hqueue.2
    | resolved msg id result => exact ⟨result, rfl⟩
    | published channel actor id => cases hm (List.mem_singleton_self _)
    | publishedNamed channel name actor id => cases hm (List.mem_singleton_self _)
    | unnamed name actor => cases hm (List.mem_singleton_self _)
  · intro hspawned
    obtain hnone | ⟨target, msg, rfl, hone⟩ := handle_spawned env state m
    · rw [hnone] at hspawned
      cases hspawned
    · rw [hone, messagePorts, List.flatMap_singleton] at hspawned
      cases hm hspawned

/-- The port occurs nowhere but as the one of a query. -/
structure Node.OnlyQueried (n : Node β) (port : PortId) : Prop where
  held : n.held.count port = 0
  inbox : (messagePorts n.inbox).count port = 0
  channel : (messagePorts n.channel).count port = 0
  mailbox : (n.mailbox.flatMap PortalActorMessage.ports).count port ≤
    (n.mailbox.filterMap PortalActorMessage.query?).count port
  waiting : n.state.waitingForHandshake.count port = 0
  tasks : (n.tasks.flatMap fun t => t.2.ports).count port = 0
  rpcProxies : (n.rpcProxies.map Prod.snd).count port = 0
  carried : (carriedPorts n.rpcProxies n.exited n.delivered).count port = 0
  rebuilding : (n.rebuilding.toList.flatMap fun r => Node.portsOf r.done).count port = 0
  pending : (pendingPorts n.rebuiltPorts n.replies).count port = 0
  replies : (n.replies.map Prod.fst).count port ≤ (resolvedPorts n.replies).count port

namespace Node.OnlyQueried

theorem uses_le (h : n.OnlyQueried port) : n.uses port ≤ n.queries port := by
  have hheld := h.held
  have hinbox := h.inbox
  have hchannel := h.channel
  have hmailbox := h.mailbox
  have hwaiting := h.waiting
  have htasks := h.tasks
  have hserved := h.rpcProxies
  have hcarried := h.carried
  have hrebuilding := h.rebuilding
  have hpending := h.pending
  have hreplies := h.replies
  have hanswers : answers n.rpcProxies n.replies port ≤ (n.replies.map Prod.fst).count port := by
    unfold answers
    split
    · exact Nat.zero_le _
    · exact Nat.le_refl _
  unfold Node.uses Node.queries
  rw [PortalActorState.ports, List.count_append]
  omega

/-- A port that occurs once at most is then nowhere else. -/
theorem of_uses (hlinear : n.Linear) (h : n.uses port ≤ n.queries port) : n.OnlyQueried port := by
  have honce := hlinear.once port
  have hmail := count_query_le n.mailbox port
  have hresolved := count_resolvedPorts_le n.replies port
  unfold Node.uses at h honce
  unfold Node.queries at h
  rw [PortalActorState.ports, List.count_append] at h honce
  by_cases hserved : port ∈ n.rpcProxies.map Prod.snd
  · -- an `RpcProxyActor` answers with no result
    have hpos := List.count_pos_iff.mpr hserved
    obtain ⟨e, he, rfl⟩ := List.mem_map.mp hserved
    have hmem : e.2 ∈ resolvedPorts n.replies := List.count_pos_iff.mp (by omega)
    obtain ⟨result, hresult⟩ := mem_resolvedPorts.mp hmem
    obtain ⟨msg, -, heq⟩ := hlinear.value e he _ hresult
    cases heq
  · have hserved' := List.count_eq_zero.mpr hserved
    rw [answers, if_neg hserved] at h honce
    constructor <;> omega

/-- A port that has not been drawn is drawn for a query. -/
theorem request (hlinear : n.Linear) {name : String}
    (hstep : Node.step (.request (.queryNamedRemoteActor name)) n = some n') : n'.OnlyQueried n.nextPort := by
  obtain ⟨-, rfl⟩ := Node.request_inv hstep
  have hnone : n.OnlyQueried n.nextPort := by
    apply of_uses hlinear
    rw [hlinear.fresh _ (Nat.le_refl _)]
    exact Nat.zero_le _
  refine { hnone with mailbox := ?_ }
  show ((n.mailbox ++ _).flatMap _).count _ ≤ ((n.mailbox ++ _).filterMap _).count _
  rw [List.flatMap_append, List.filterMap_append, List.count_append, List.count_append]
  refine Nat.add_le_add hnone.mailbox ?_
  split <;> exact Nat.le_refl _

theorem halt (h : n.OnlyQueried port) (life : Life) : (n.halt life).OnlyQueried port := by
  have hinbox := Queues.count_le_of_sublist (List.filter_sublist
    (p := fun e => e.1 ∉ n.proxies.map Prod.fst ++ n.rpcProxies.map Prod.fst) (l := n.inbox))
    (fun e => Node.portsOf e.2.refs) port
  have hcarried := count_carried_le_of_subset
    (List.subset_append_left n.exited (n.proxies.map Prod.fst ++ n.rpcProxies.map Prod.fst)) n.rpcProxies n.delivered port
  exact { h with
    inbox := Nat.le_zero.mp (hinbox.trans (Nat.le_of_eq h.inbox))
    mailbox := Nat.zero_le _
    carried := Nat.le_zero.mp (hcarried.trans (Nat.le_of_eq h.carried))
    rebuilding := rfl }

theorem takeTurn (h : n.OnlyQueried port) (env : HandleEnv) {rest : List (PortalActorMessage β)}
    (hmail : n.mailbox = m :: rest) : (n.takeTurn m rest (Portal.handle env n.state m)).OnlyQueried port := by
  have hmailbox := h.mailbox
  have hm := count_query_le [m] port
  have hrest := count_query_le rest port
  rw [hmail, ← List.singleton_append, List.flatMap_append, List.filterMap_append, List.count_append,
    List.count_append] at hmailbox
  have hleft : (rest.flatMap PortalActorMessage.ports).count port ≤
      (rest.filterMap PortalActorMessage.query?).count port := by omega
  have hquery : port ∈ m.ports → m.query? = some port := by
    intro hport
    have hpos : 0 < ([m].filterMap PortalActorMessage.query?).count port := by
      have := List.count_pos_iff.mpr hport
      rw [List.flatMap_singleton] at hmailbox
      omega
    obtain ⟨m', hmem, heq⟩ := List.mem_filterMap.mp (List.count_pos_iff.mp hpos)
    rwa [List.mem_singleton.mp hmem] at heq
  obtain ⟨hreplies, hwaiting, hspawned⟩ := handle_elsewhere env hquery (List.count_eq_zero.mp h.waiting)
  have hrpc := replies_not_rpc env n.state m
  set turn := Portal.handle env n.state m
  have hinbox := Queues.count_le_of_sublist (List.filter_sublist (p := fun e => e.1 ∉ turn.stopped) (l := n.inbox))
    (fun e => Node.portsOf e.2.refs) port
  have hcarried := count_carried_le_of_subset (List.subset_append_left n.exited turn.stopped) n.rpcProxies n.delivered port
  refine { h with
    inbox := Nat.le_zero.mp (hinbox.trans (Nat.le_of_eq h.inbox))
    mailbox := hleft
    waiting := List.count_eq_zero.mpr hwaiting
    tasks := ?_
    carried := Nat.le_zero.mp (hcarried.trans (Nat.le_of_eq h.carried))
    pending := ?_
    replies := ?_ }
  · show ((n.tasks ++ _).flatMap _).count port = 0
    rw [List.flatMap_append, List.count_append, h.tasks, Nat.zero_add, List.flatMap_map]
    exact List.count_eq_zero.mpr hspawned
  · have hpending : pendingPorts n.rebuiltPorts (n.replies ++ turn.replies) = pendingPorts n.rebuiltPorts n.replies := by
      unfold pendingPorts
      congr 1
      funext e
      exact pendingOn_append (firstRpc_of_not_rpc hrpc)
    show (pendingPorts n.rebuiltPorts (n.replies ++ turn.replies)).count port = 0
    rw [hpending]
    exact h.pending
  · apply count_resolved_iff.mpr
    intro value hvalue
    obtain hold | hnew := List.mem_append.mp hvalue
    · exact count_resolved_iff.mp h.replies value hold
    · exact hreplies value hnew

theorem handle (h : n.OnlyQueried port) {uuid : OpaqueActorId} {nexus : Option (Option ActorId)} {sink : SinkResult}
    (hstep : Node.step (.handle uuid nexus sink) n = some n') : n'.OnlyQueried port := by
  obtain ⟨-, m, rest, hmail, rfl⟩ := Node.handle_inv hstep
  have hturn := h.takeTurn (n.env uuid nexus sink) hmail
  cases (Portal.handle (n.env uuid nexus sink) n.state m).outcome with
  | ok => exact hturn
  | stop reason => exact hturn.halt _
  | err error => exact hturn.halt _
  | rematerialize actor data => exact { hturn with rebuilding := rfl }

/-- What leaves the queries of a portal where they are. -/
theorem queries_le (hstate : n'.state = n.state) (hmail : ∃ ms, n'.mailbox = n.mailbox ++ ms)
    (hreplies : ∃ added, n'.replies = n.replies ++ added) : n.queries port ≤ n'.queries port := by
  obtain ⟨ms, hmail⟩ := hmail
  obtain ⟨added, hreplies⟩ := hreplies
  unfold Node.queries
  rw [hstate, hmail, hreplies, List.filterMap_append, resolvedPorts_append, List.count_append, List.count_append]
  omega

/-- **Every step.** -/
theorem step (h : n.OnlyQueried port) (hlinear : n.Linear) (hlinear' : n'.Linear) (hpopulated : n.Populated)
    (hreached : n.Reached) (hport : port < n.nextPort) (hstep : Node.step l n = some n') : n'.OnlyQueried port := by
  have huses : n'.uses port ≤ n.uses port := by
    obtain ⟨-, hle⟩ | ⟨-, hle⟩ := uses_of_step hlinear hpopulated hreached hstep
    · exact hle port
    · have hle := hle port
      rwa [List.count_singleton, if_neg (by simpa using Nat.ne_of_gt hport)] at hle
  have hkeep (hle : n.queries port ≤ n'.queries port) : n'.OnlyQueried port :=
    of_uses hlinear' (huses.trans (h.uses_le.trans hle))
  cases hpump : l.isPump with
  | false =>
    have hq := Node.quiet_of_step hpump hstep
    obtain ⟨ms, hmail, -⟩ := hq.mailbox
    obtain ⟨added, hreplies, -⟩ := hq.replies
    exact hkeep (queries_le hq.state ⟨ms, hmail⟩ ⟨added, hreplies⟩)
  | true =>
    cases l with
    | recv frame =>
      obtain ⟨-, rfl⟩ := Node.recv_inv hstep
      obtain _ | _ | _ | _ := frame <;> exact hkeep (queries_le rfl ⟨_, rfl⟩ ⟨[], (List.append_nil _).symm⟩)
    | handle uuid nexus sink => exact h.handle hstep
    | rebuildDone =>
      obtain ⟨r, -, -, rfl⟩ := Node.rebuildDone_inv hstep
      obtain ⟨error, heq⟩ | ⟨body, -, -, heq⟩ := n.deliver_cases r
      · rw [heq]
        exact h.halt _
      · refine hkeep (Nat.le_of_eq ?_)
        rw [heq]
        rfl
    | _ => cases hpump

end Node.OnlyQueried

end

/-! ## Two sides -/

namespace Pair

/-- What holds of the queries of two honest portals, and of what they have done. -/
structure Correlated (H : PairLabel β → Pair β → Prop) (p : Pair β) : Prop where
  linear : ∀ s, (p.node s).Linear ∧ (p.node s).Populated ∧ (p.node s).Reached
  asking : ∀ s, Asking (Took H s) (p.node s)
  only : ∀ s name port, Requested (Took H s) name port → (p.node s).OnlyQueried port
  received : ∀ s data, .content data ∈ (p.node s).mailbox → .content data ∈ (p.node s.other).sent
  computed : ∀ s id result, .content (some (.responseActorByName id result)) ∈ (p.node s).sent →
    ∃ name, Computed (Took H s) id name result ∧
      .content (some (.requestActorByName id name)) ∈ (p.node s.other).sent
  byId : ∀ s id result, .content (some (.responseActorById id result)) ∉ (p.node s).sent
  resolved : ∀ s port result, (port, .resolved result) ∈ (p.node s).replies →
    ∃ id name, Asked (Took H s) id name port ∧ Computed (Took H s.other) id name result

/-- The next request id of neither side wraps. -/
def NoWrap (l : PairLabel β) (p : Pair β) : Prop :=
  ∀ q ∈ Pair.step l p, ∀ s, (p.node s).state.nextRequestId ≤ (q.node s).state.nextRequestId

namespace Correlated

variable {H : PairLabel β → Pair β → Prop} {p q : Pair β} {l : PairLabel β} {s : Side} {label : Label β}

/-- The answer to a request is written in the turn that takes it. -/
theorem computed_of_step (h : Correlated H p) (hstep : Node.step label (p.node s) = some (q.node s))
    {took' : Label β → Node β → Prop} (hext : Extends (Took H s) took' label (p.node s))
    {id : CrossPortalMessageId} {result : Resolution}
    (hsent : .content (some (.responseActorByName id result)) ∈ (q.node s).sent) :
    ∃ name, Computed took' id name result ∧ .content (some (.requestActorByName id name)) ∈ (p.node s.other).sent := by
  have hold (hsent : .content (some (.responseActorByName id result)) ∈ (p.node s).sent) :
      ∃ name, Computed took' id name result ∧
        .content (some (.requestActorByName id name)) ∈ (p.node s.other).sent := by
    obtain ⟨name, hcomp, hreq⟩ := h.computed s id result hsent
    exact ⟨name, hext.computed hcomp, hreq⟩
  obtain hidle | ⟨uuid, nexus, sink, m, rest, rfl, -, hmail, hturned⟩ := Node.idle_or_turned hstep
  · exact hold (hidle.sent ▸ hsent)
  · rw [hturned.sent] at hsent
    obtain hsent | hnew := List.mem_append.mp hsent
    · exact hold hsent
    · obtain ⟨msg, hmsg, heq⟩ := List.mem_map.mp hnew
      cases heq
      have hnow {name : String} (hm : m = .content (some (.requestActorByName id name))) :
          ∃ name, Computed took' id name result ∧
            .content (some (.requestActorByName id name)) ∈ (p.node s.other).sent := by
        subst hm
        refine ⟨name, ⟨_, uuid, nexus, sink, rest, hext.now nofun, hmail, hmsg⟩, h.received s _ ?_⟩
        rw [hmail]
        exact List.mem_cons_self
      cases handle_causes (mem_frames hmsg) with
      | named channel _ name => exact hnow rfl
      | fetched channel _ name => exact hnow rfl
      | notFound channel _ name => exact hnow rfl

/-- No portal answers by id. -/
theorem byId_of_step (h : Correlated H p) (hstep : Node.step label (p.node s) = some (q.node s))
    {id : CrossPortalMessageId} {result : Resolution} :
    .content (some (.responseActorById id result)) ∉ (q.node s).sent := by
  intro hsent
  obtain hidle | ⟨uuid, nexus, sink, m, rest, -, -, hmail, hturned⟩ := Node.idle_or_turned hstep
  · exact h.byId s id result (hidle.sent ▸ hsent)
  · rw [hturned.sent] at hsent
    obtain hsent | hnew := List.mem_append.mp hsent
    · exact h.byId s id result hsent
    · obtain ⟨msg, hmsg, heq⟩ := List.mem_map.mp hnew
      cases heq
      cases handle_causes (mem_frames hmsg)

/-- **A caller gets the answer to its own name.** -/
theorem resolved_of_step (h : Correlated H p) (hstep : Node.step label (p.node s) = some (q.node s))
    {took' : Label β → Node β → Prop} (hext : Extends (Took H s) took' label (p.node s)) {port : PortId}
    {result : Resolution} (hreply : (port, .resolved result) ∈ (q.node s).replies) :
    ∃ id name, Asked took' id name port ∧ Computed (Took H s.other) id name result := by
  have hold (hreply : (port, .resolved result) ∈ (p.node s).replies) :
      ∃ id name, Asked took' id name port ∧ Computed (Took H s.other) id name result := by
    obtain ⟨id, name, hask, hcomp⟩ := h.resolved s port result hreply
    exact ⟨id, name, hext.asked hask, hcomp⟩
  obtain hidle | ⟨uuid, nexus, sink, m, rest, -, -, hmail, hturned⟩ := Node.idle_or_turned hstep
  · obtain ⟨added, hreplies, hrpc⟩ := hidle.replies
    rw [hreplies] at hreply
    obtain hreply | hnew := List.mem_append.mp hreply
    · exact hold hreply
    · cases hrpc _ hnew
  · rw [hturned.replies] at hreply
    obtain hreply | hnew := List.mem_append.mp hreply
    · exact hold hreply
    · cases handle_causes (mem_replies hnew) with
      | resolved msg id _ _ hmsg hlook =>
        obtain ⟨name, hask⟩ := (h.asking s).kept id port hlook
        have hsent := h.received s (some msg) (by rw [hmail]; exact List.mem_cons_self)
        obtain rfl | rfl := hmsg
        · obtain ⟨name', hcomp, hreq⟩ := h.computed s.other id result hsent
          rw [Side.other_other] at hreq
          obtain ⟨port', hask'⟩ := (h.asking s).written id name' hreq
          obtain ⟨rfl, rfl⟩ := ((h.asking s).asked id name port hask).2.2 name' port' hask'
          exact ⟨id, name', hext.asked hask, hcomp⟩
        · exact absurd hsent (h.byId s.other id result)

theorem received_of_step (h : Correlated H p) (hstep : Node.step label (p.node s) = some (q.node s))
    (hframe : ∀ frame, label = .recv (some frame) → frame ∈ (p.node s.other).sent)
    {data : Option (CrossPortalMessage β)} (hm : .content data ∈ (q.node s).mailbox) :
    .content data ∈ (p.node s.other).sent := by
  obtain hold | hposts | ⟨frame, rfl, heq⟩ := Node.mem_mailbox_of_step hstep hm
  · exact h.received s data hold
  · cases label <;> cases hposts
  · obtain _ | _ | _ | _ := frame <;> cases heq
    exact hframe _ rfl

/-- **Every step**, while no next request id wraps. -/
theorem step (h : Correlated H p) (hwrap : NoWrap l p) (hstep : Pair.step l p = some q) :
    Correlated (fun l' u => H l' u ∨ l' = l ∧ u = p) q := by
  obtain ⟨s, label, hnode, hother, hext, hsame, hframe⟩ := Pair.took_of_step (H := H) hstep
  obtain ⟨hlinear, hpopulated, hreached⟩ := h.linear s
  have hlinear' := hlinear.step hpopulated hreached hnode
  obtain ⟨more, hsent, -⟩ := Node.sent_of_step hnode
  have hgrows {frame : ConduitMessage β} (hf : frame ∈ (p.node s).sent) : frame ∈ (q.node s).sent :=
    hsent ▸ List.mem_append_left _ hf
  -- one field after the other: the side that moves, and then the one that does not
  constructor
  · intro t
    obtain rfl | rfl := s.eq_or_other t
    · exact ⟨hlinear', hpopulated.step hnode, hreached.step hnode⟩
    · rw [hother]
      exact h.linear s.other
  · intro t
    obtain rfl | rfl := s.eq_or_other t
    · exact (h.asking t).step hext hnode (hwrap q hstep t)
    · rw [hother, hsame]
      exact h.asking s.other
  · intro t name port hreq
    obtain rfl | rfl := s.eq_or_other t
    · obtain hold | ⟨rfl, rfl⟩ := hext.of_requested hreq
      · exact (h.only t name port hold).step hlinear hlinear' hpopulated hreached
          ((h.asking t).requested name port hold).1 hnode
      · exact Node.OnlyQueried.request hlinear hnode
    · rw [hother]
      rw [hsame] at hreq
      exact h.only s.other name port hreq
  · intro t data hm
    obtain rfl | rfl := s.eq_or_other t
    · rw [hother]
      exact h.received_of_step hnode hframe hm
    · rw [hother] at hm
      have hold := h.received s.other data hm
      rw [Side.other_other] at hold ⊢
      exact hgrows hold
  · intro t id result hmem
    obtain rfl | rfl := s.eq_or_other t
    · rw [hother]
      exact h.computed_of_step hnode hext hmem
    · rw [hother] at hmem
      obtain ⟨name, hcomp, hreq⟩ := h.computed s.other id result hmem
      rw [Side.other_other] at hreq ⊢
      rw [hsame]
      exact ⟨name, hcomp, hgrows hreq⟩
  · intro t id result hmem
    obtain rfl | rfl := s.eq_or_other t
    · exact h.byId_of_step hnode hmem
    · rw [hother] at hmem
      exact h.byId s.other id result hmem
  · intro t port result hreply
    obtain rfl | rfl := s.eq_or_other t
    · rw [hsame]
      exact h.resolved_of_step hnode hext hreply
    · rw [hother] at hreply
      obtain ⟨id, name, hask, hcomp⟩ := h.resolved s.other port result hreply
      rw [Side.other_other] at hcomp ⊢
      rw [hsame]
      exact ⟨id, name, hask, hext.computed hcomp⟩

theorem started (setup : Side → Setup) : Correlated (β := β) (fun _ _ => False) (Pair.started setup) := by
  have hnone (s : Side) {label : Label β} {n : Node β} : ¬Took (fun _ _ => False) s label n := fun ⟨_, h, _⟩ => h
  have hrun (s : Side) : Transition.Run Node.step Transition.Any [] (Node.started (β := β) (setup s))
      (Node.started (setup s)) := .nil _
  constructor
  · exact fun s => ⟨Node.Linear.of_run (hrun s), Node.Populated.of_run (hrun s), Node.Reached.of_run (hrun s)⟩
  · intro s
    exact Asking.started (fun h => hnone s h) (setup s)
  · rintro s name port ⟨n, htook, -⟩
    exact (hnone s htook).elim
  · rintro s data ⟨⟩
  · intro s id result hsent
    cases List.mem_singleton.mp hsent
  · intro s id result hsent
    cases List.mem_singleton.mp hsent
  · rintro s port result ⟨⟩

theorem of_run {setup : Side → Setup} {ls : List (PairLabel β)}
    (hrun : Transition.Run Pair.step NoWrap ls (Pair.started setup) p) :
    Correlated (Transition.Occurs Pair.step ls (Pair.started setup)) p :=
  hrun.history (fun _ _ _ _ h hwrap hstep => h.step hwrap hstep) (started setup)

end Correlated

end Pair

/-! ## Any peer -/

namespace Node

/-- The next request id does not wrap. -/
def NoWrap (l : Label β) (n : Node β) : Prop :=
  ∀ n' ∈ Node.step l n, n.state.nextRequestId ≤ n'.state.nextRequestId

section

variable {setup : Setup} {ls ms : List (Label β)} {n n' : Node β} {l : Label β} {id : CrossPortalMessageId}
  {result : Resolution} {msg : CrossPortalMessage β} {rest : List (PortalActorMessage β)} {channel : ConduitID}
  {uuid : OpaqueActorId} {nexus : Option (Option ActorId)} {sink : SinkResult}

theorem asking_of_run (hrun : Transition.Run Node.step NoWrap ls (Node.started setup) n) :
    Asking (Transition.Occurs Node.step ls (Node.started setup)) n := by
  refine hrun.history ?_ (Asking.started (fun h => h) setup)
  intro H l s t h hwrap hstep
  exact h.step ⟨.inl, fun h => h, fun _ => .inr ⟨rfl, rfl⟩⟩ hstep (hwrap t hstep)

/-- An id that was drawn and is not open stays so. -/
theorem closed_of_step (hnone : n.state.openRequests.lookup id = none) (hlt : id < n.state.nextRequestId)
    (hwrap : NoWrap l n) (hstep : Node.step l n = some n') :
    n'.state.openRequests.lookup id = none ∧ id < n'.state.nextRequestId := by
  refine ⟨?_, Nat.lt_of_lt_of_le hlt (hwrap n' hstep)⟩
  obtain hidle | ⟨uuid, nexus, sink, m, rest, rfl, -, hmail, hturned⟩ := Node.idle_or_turned hstep
  · rw [hidle.state]
    exact hnone
  · have hrequests := handle_requests (n.env uuid nexus sink) n.state m
    rw [hturned.state]
    generalize (Portal.handle (n.env uuid nexus sink) n.state m).state.openRequests = requests at hrequests ⊢
    generalize (Portal.handle (n.env uuid nexus sink) n.state m).state.nextRequestId = next at hrequests
    cases hrequests with
    | asked name port hopen => rw [HashMap.lookup_insert_eq, if_neg (Nat.ne_of_lt hlt), hnone]
    | answered msg id' result port hmsg hlook =>
      rw [HashMap.lookup_erase_eq]
      split
      · rfl
      · exact hnone
    | other => exact hnone

theorem closed_of_run (hrun : Transition.Run Node.step NoWrap ms n n')
    (hnone : n.state.openRequests.lookup id = none) (hlt : id < n.state.nextRequestId) :
    n'.state.openRequests.lookup id = none := by
  have hboth := hrun.invariant (P := fun n => n.state.openRequests.lookup id = none ∧ id < n.state.nextRequestId)
    (fun _ _ _ h hwrap hstep => closed_of_step h.1 h.2 hwrap hstep) ⟨hnone, hlt⟩
  exact hboth.1

/-- A response with an unknown id is taken out of the mailbox, and nothing else happens. -/
theorem step_unknown (hopen : n.state.channelState = .opened channel) (hmsg : msg.Responds id result)
    (hmail : n.mailbox = .content (some msg) :: rest) (hunknown : n.state.openRequests.lookup id = none)
    (hstep : Node.step (.handle uuid nexus sink) n = some n') :
    n' = { n with mailbox := rest, handled := n.handled ++ [.content (some msg)] } := by
  obtain ⟨-, m, rest', hmail', rfl⟩ := Node.handle_inv hstep
  rw [hmail] at hmail'
  cases hmail'
  rw [handle_unknown hopen hmsg hunknown]
  simp [Node.endTurn, Node.takeTurn, Node.kill, Turn.stopped, Turn.spawned, Turn.watched, Turn.frames, Turn.replies]

/-- A response with a known id closes it, and leaves the other ones. -/
theorem step_response (hopen : n.state.channelState = .opened channel) (hmsg : msg.Responds id result)
    (hmail : n.mailbox = .content (some msg) :: rest) (hstep : Node.step (.handle uuid nexus sink) n = some n') :
    n'.state.nextRequestId = n.state.nextRequestId ∧ n'.state.openRequests.lookup id = none ∧
      ∀ id' ≠ id, n'.state.openRequests.lookup id' = n.state.openRequests.lookup id' := by
  cases hlook : n.state.openRequests.lookup id with
  | none =>
    rw [step_unknown hopen hmsg hmail hlook hstep]
    exact ⟨rfl, hlook, fun _ _ => rfl⟩
  | some port =>
    obtain ⟨-, m, rest', hmail', hturned⟩ := Node.turned_of_handle hstep
    rw [hmail] at hmail'
    cases hmail'
    have hstate : n'.state = { n.state with openRequests := n.state.openRequests.erase id } := by
      rw [hturned.state]
      cases hmsg <;> simp only [Portal.handle, handleContent, hopen, handleCrossPortalMessage, handleResponse,
        hlook, replying_state]
    rw [hstate]
    exact ⟨rfl, AList.lookup_erase _ _, fun id' hne => AList.lookup_erase_ne hne⟩

end

end Node

namespace Asking

variable {took : Label β → Node β → Prop} {n : Node β}

theorem keys_lt (h : Asking took n) : ∀ id ∈ n.state.openRequests.keys, id < n.state.nextRequestId := by
  intro id hid
  obtain ⟨port, hlook⟩ := Option.isSome_iff_exists.mp (AList.lookup_isSome.mpr hid)
  obtain ⟨name, hask⟩ := h.kept id port hlook
  exact (h.asked id name port hask).2.1

end Asking

/-- **Name queries are correlated.** In every run of two honest portals in which no request id wraps: the keys
    of the open requests are distinct and below the next request id; every port is answered once at most; and
    the port on which a caller waits for a name is answered only with the result that the other side has
    computed for this name, in answer to the request that was made for this caller. And whatever the peer is:
    the keys are so too; a response with an id that is not open is dropped; a response with an open id leaves
    the other open requests as they are; and its id is not open afterwards, however the run goes on. -/
theorem queries_correlated (setup : Side → Setup) (ls : List (PairLabel β)) (p : Pair β)
    (hrun : Transition.Run Pair.step Pair.NoWrap ls (Pair.started setup) p) :
    (∀ s, (p.node s).state.openRequests.keys.Nodup ∧
      (∀ id ∈ (p.node s).state.openRequests.keys, id < (p.node s).state.nextRequestId) ∧
      (∀ port, ((p.node s).replies.map Prod.fst).count port ≤ 1) ∧
      ∀ name port value,
        Requested (Pair.Took (Transition.Occurs Pair.step ls (Pair.started setup)) s) name port →
        (port, value) ∈ (p.node s).replies → ∃ result, value = .resolved result ∧
          (∀ name', Requested (Pair.Took (Transition.Occurs Pair.step ls (Pair.started setup)) s) name' port →
            name' = name) ∧
          ∃ id, Asked (Pair.Took (Transition.Occurs Pair.step ls (Pair.started setup)) s) id name port ∧
            Computed (Pair.Took (Transition.Occurs Pair.step ls (Pair.started setup)) s.other) id name result) ∧
    ∀ (own : Setup) (ms : List (Label β)) (n : Node β),
      Transition.Run Node.step Node.NoWrap ms (Node.started own) n →
      n.state.openRequests.keys.Nodup ∧ (∀ id ∈ n.state.openRequests.keys, id < n.state.nextRequestId) ∧
      ∀ channel id result msg rest uuid nexus sink n', n.state.channelState = .opened channel →
        CrossPortalMessage.Responds id result msg → n.mailbox = .content (some msg) :: rest →
        Node.step (.handle uuid nexus sink) n = some n' →
        (n.state.openRequests.lookup id = none →
          n' = { n with mailbox := rest, handled := n.handled ++ [.content (some msg)] }) ∧
        (∀ id' ≠ id, n'.state.openRequests.lookup id' = n.state.openRequests.lookup id') ∧
        ∀ port, n.state.openRequests.lookup id = some port → ∀ ms' n'',
          Transition.Run Node.step Node.NoWrap ms' n' n'' → n''.state.openRequests.lookup id = none := by
  have hcorrelated := Pair.Correlated.of_run hrun
  constructor
  · intro s
    obtain ⟨hlinear, -⟩ := hcorrelated.linear s
    have hasking := hcorrelated.asking s
    refine ⟨(p.node s).state.openRequests.keys_nodup, hasking.keys_lt, hlinear.answered_once, ?_⟩
    intro name port value hreq hreply
    obtain ⟨result, rfl⟩ := count_resolved_iff.mp (hcorrelated.only s name port hreq).replies value hreply
    obtain ⟨id, name', hask, hcomp⟩ := hcorrelated.resolved s port result hreply
    obtain rfl := (hasking.requested name port hreq).2 name' (hasking.asked id name' port hask).1
    exact ⟨result, rfl, (hasking.requested name' port hreq).2, id, hask, hcomp⟩
  · intro own ms n hrun'
    have hasking := Node.asking_of_run hrun'
    refine ⟨n.state.openRequests.keys_nodup, hasking.keys_lt, ?_⟩
    intro channel id result msg rest uuid nexus sink n' hopen hmsg hmail hstep
    obtain ⟨hnext, hclosed, hothers⟩ := Node.step_response hopen hmsg hmail hstep
    refine ⟨fun hunknown => Node.step_unknown hopen hmsg hmail hunknown hstep, hothers, ?_⟩
    intro port hlook ms' n'' hrun''
    refine Node.closed_of_run hrun'' hclosed ?_
    rw [hnext]
    exact hasking.keys_lt id (AList.lookup_isSome.mp (by rw [hlook]; rfl))

instance (l : PairLabel β) (p : Pair β) : Decidable (Pair.NoWrap l p) :=
  haveI (q : Pair β) : Decidable (∀ s, (p.node s).state.nextRequestId ≤ (q.node s).state.nextRequestId) :=
    decidable_of_iff ((p.node .left).state.nextRequestId ≤ (q.node .left).state.nextRequestId ∧
      (p.node .right).state.nextRequestId ≤ (q.node .right).state.nextRequestId)
      ⟨fun h s => match s with
        | .left => h.1
        | .right => h.2, fun h => ⟨h .left, h .right⟩⟩
  inferInstanceAs (Decidable (∀ q ∈ Pair.step l p, _))

/-- Both sides open. -/
def bothOpen : List (PairLabel Nat) :=
  [.receive .left, .move .left (.handle ⟨7⟩ none .flushed), .receive .right, .move .right (.handle ⟨7⟩ none .flushed)]

/-- Both sides ask under the number 1, for different names, and both are answered. -/
def crossing : List (PairLabel Nat) :=
  bothOpen ++
  [.move .left (.request (.queryNamedRemoteActor "greeter")), .move .left (.handle ⟨7⟩ none .flushed),
   .move .right (.request (.queryNamedRemoteActor "printer")), .move .right (.handle ⟨7⟩ none .flushed),
   .receive .left, .move .left (.handle ⟨7⟩ (some none) .flushed),
   .receive .right, .move .right (.handle ⟨8⟩ (some (some 1)) .flushed),
   .receive .left, .move .left (.handle ⟨7⟩ none .flushed), .receive .right, .move .right (.handle ⟨7⟩ none .flushed)]

theorem queries_correlated_crossing : ∃ p,
    Transition.exec Pair.step crossing (Pair.started twoSides) = some p ∧
    (0, .resolved (.ok remoteEight)) ∈ (p.node .left).replies ∧
    (0, .resolved (.err .actorNotFound)) ∈ (p.node .right).replies ∧
    ∃ id, Computed (Pair.Took (Transition.Occurs Pair.step crossing (Pair.started twoSides)) .right) id "greeter"
      (.ok remoteEight) := by
  have heval : (Transition.exec (Transition.guarded Pair.step Pair.NoWrap) crossing (Pair.started twoSides)).map
      (fun p => decide ((0, .resolved (.ok remoteEight)) ∈ (p.node .left).replies ∧
        (0, .resolved (.err .actorNotFound)) ∈ (p.node .right).replies)) = some true := by
    decide +kernel
  obtain ⟨p, hp, hfacts⟩ := Option.map_eq_some_iff.mp heval
  obtain ⟨hleft, hright⟩ := of_decide_eq_true hfacts
  have hrun := Transition.run_of_exec_guarded hp
  obtain ⟨hpair, -⟩ := queries_correlated twoSides crossing p hrun
  obtain ⟨-, -, -, hanswered⟩ := hpair .left
  have hreq : Requested (Pair.Took (Transition.Occurs Pair.step crossing (Pair.started twoSides)) .left)
      "greeter" 0 := by
    have heval : (Transition.exec Pair.step bothOpen (Pair.started twoSides)).map (fun u =>
        decide ((u.node .left).nextPort = 0)) = some true := by
      decide +kernel
    obtain ⟨u, hu, hport⟩ := Option.map_eq_some_iff.mp heval
    exact ⟨u.node .left, ⟨u, ⟨bothOpen, _, rfl, Transition.run_of_exec hu⟩, rfl⟩, of_decide_eq_true hport⟩
  obtain ⟨result, heq, -, id, -, hcomp⟩ := hanswered "greeter" 0 _ hreq hleft
  cases heq
  exact ⟨p, hrun.exec, hleft, hright, id, hcomp⟩

end Portal
end Wormhole
