import Wormhole.Portal.Ports

/-!
# `Portal.Spending` — the reply ports inside the messages that the portal was given

A reply port in a message that the portal has handled is with the task of this message, or at its
`RpcProxyActor`, or lost, but in no other place (`Spent`). So it was in one message, and at one position in it.
-/

namespace Wormhole
namespace Portal

open Queues

variable {β : Type}

/-- The reply ports in a message that is to be serialized. -/
def PortalActorMessage.givenPorts : PortalActorMessage β → List PortId
  | .immaterializeMessage _ msg => Node.portsOf msg.refs
  | _ => []

namespace Node

/-- The reply ports in the messages that the portal was given to serialize. -/
def givenPorts (n : Node β) : List PortId := n.handled.flatMap PortalActorMessage.givenPorts

/-- How often a port is with a task or at an `RpcProxyActor`. -/
def onTheWay (n : Node β) (port : PortId) : Nat :=
  (n.tasks.flatMap fun t => t.2.ports).count port + (n.rpcProxies.map Prod.snd).count port

/-- A port that the portal was given is nowhere else. -/
structure Spent (n : Node β) : Prop where
  once : ∀ port, n.givenPorts.count port ≤ 1
  drawn : ∀ port ∈ n.givenPorts, port < n.nextPort
  gone : ∀ port ∈ n.givenPorts, n.uses port ≤ n.onTheWay port

section

variable {n n' : Node β} {l : Label β}

/-- Only the portal is given ports. -/
theorem givenPorts_of_step (hstep : step l n = some n') : n'.givenPorts = n.givenPorts ∨
    ∃ uuid nexus sink target msg rest, l = .handle uuid nexus sink ∧
      n.mailbox = .immaterializeMessage target msg :: rest ∧ n'.givenPorts = n.givenPorts ++ portsOf msg.refs := by
  obtain hidle | ⟨uuid, nexus, sink, m, rest, rfl, -, hmail, hturned⟩ := idle_or_turned hstep
  · exact .inl (by rw [givenPorts, hidle.handled]; rfl)
  · have hgiven : n'.givenPorts = n.givenPorts ++ m.givenPorts := by
      rw [givenPorts, hturned.handled, List.flatMap_append, List.flatMap_singleton]
      rfl
    cases m with
    | immaterializeMessage target msg => exact .inr ⟨uuid, nexus, sink, target, msg, rest, rfl, hmail, hgiven⟩
    | _ => exact .inl (hgiven.trans (List.append_nil _))

theorem givenPorts_subset_of_step (hstep : step l n = some n') : n.givenPorts ⊆ n'.givenPorts := by
  obtain hsame | ⟨_, _, _, _, _, _, -, -, hgiven⟩ := givenPorts_of_step hstep
  · rw [hsame]
    exact List.Subset.refl _
  · rw [hgiven]
    exact List.subset_append_left _ _

/-- What is with a task goes to an `RpcProxyActor`, and stays there, unless the task fails. -/
theorem onTheWay_of_step (hstep : step l n = some n') (hl : ∀ tag, l ≠ .taskFail tag) (port : PortId) :
    n.onTheWay port ≤ n'.onTheWay port := by
  have hsame (htasks : n'.tasks = n.tasks) (hproxies : n'.rpcProxies = n.rpcProxies) :
      n.onTheWay port ≤ n'.onTheWay port := by
    unfold onTheWay
    rw [htasks, hproxies]
  cases hpump : l.isPump with
  | false =>
    have hq := quiet_of_step hpump hstep
    cases l with
    | taskPublish tag =>
      obtain ⟨t, rest, ref, todo, hdequeue, hasked, htodo, -, rfl⟩ := taskPublish_inv hstep
      have htask := Queues.count_of_dequeue hdequeue (fun t : Tag × Immaterialization β => t.2.ports) port
      have hconcat := Queues.count_concat rest (tag, { t with asked := some n.nextPort })
        (fun t : Tag × Immaterialization β => t.2.ports) port
      have hrest : Immaterialization.ports { t with asked := some n.nextPort } = portsOf todo := by
        rw [Immaterialization.ports, htodo]
        rfl
      dsimp only at htask hconcat
      rw [hrest] at hconcat
      cases ref with
      | actorRef actor =>
        have hports : t.ports = portsOf todo := by rw [Immaterialization.ports, hasked, htodo]; rfl
        rw [hports] at htask
        unfold onTheWay
        dsimp only [askPublish, post]
        omega
      | replyPort timeout p =>
        -- from the task to the proxy that is spawned for the port
        have hports : t.ports = p :: portsOf todo := by rw [Immaterialization.ports, hasked, htodo]; rfl
        rw [hports, List.count_cons] at htask
        have hnew : ([(n.nextActor, p)].map Prod.snd).count port = if (p == port) = true then 1 else 0 :=
          List.count_singleton ..
        unfold onTheWay
        dsimp only [askPublish, post]
        rw [List.map_append, List.count_append, hnew]
        omega
    | taskPublished tag =>
      obtain ⟨t, rest, asked, id, ref, todo, hdequeue, hasked, -, htodo, rfl⟩ := taskPublished_inv hstep
      have htask := Queues.count_of_dequeue hdequeue (fun t : Tag × Immaterialization β => t.2.ports) port
      have hports : t.ports = portsOf todo := by rw [Immaterialization.ports, hasked, htodo]; rfl
      have hrest : Immaterialization.ports { t with todo, done := t.done ++ [n.serialize id ref], asked := none } =
          portsOf todo := rfl
      unfold onTheWay
      dsimp only at htask ⊢
      rw [Queues.count_concat, hrest]
      rw [hports] at htask
      omega
    | taskFail tag => exact absurd rfl (hl tag)
    | taskPost tag =>
      obtain ⟨t, rest, hdequeue, htodo, rfl⟩ := taskPost_inv hstep
      have htask := Queues.count_of_dequeue hdequeue (fun t : Tag × Immaterialization β => t.2.ports) port
      -- a task posts its message once nothing is left to publish
      have hports : t.ports = [] := by rw [Immaterialization.ports, htodo]; cases t.asked <;> rfl
      dsimp only at htask
      rw [hports, List.count_nil] at htask
      unfold onTheWay
      dsimp only [post]
      omega
    | _ => exact hsame (hq.tasks rfl) (hq.rpcProxies (by simp))
  | true =>
    cases l with
    | recv frame =>
      obtain ⟨-, rfl⟩ := recv_inv hstep
      obtain _ | _ | _ | _ := frame <;> exact hsame rfl rfl
    | handle uuid nexus sink =>
      obtain ⟨-, m, rest, -, rfl⟩ := handle_inv hstep
      have hturn : n.onTheWay port ≤
          (n.takeTurn m rest (Portal.handle (n.env uuid nexus sink) n.state m)).onTheWay port := by
        unfold onTheWay
        dsimp only [takeTurn, kill]
        rw [List.flatMap_append, List.count_append]
        omega
      cases (Portal.handle (n.env uuid nexus sink) n.state m).outcome <;> exact hturn
    | rebuildDone =>
      obtain ⟨r, -, -, rfl⟩ := rebuildDone_inv hstep
      obtain ⟨error, heq⟩ | ⟨body, -, -, heq⟩ := n.deliver_cases r <;> exact hsame (by rw [heq]; rfl) (by rw [heq]; rfl)
    | _ => cases hpump

/-- What a task that fails has is lost. -/
theorem uses_taskFail {tag : Tag} (hstep : step (.taskFail tag) n = some n') (port : PortId) :
    n'.uses port + n.onTheWay port = n.uses port + n'.onTheWay port := by
  obtain ⟨t, rest, -, rfl⟩ := taskFail_inv hstep
  unfold uses onTheWay
  dsimp only
  omega

/-- A turn that does nothing takes its message out of the mailbox. -/
theorem takeTurn_nothing (n : Node β) (m : PortalActorMessage β) (rest : List (PortalActorMessage β)) :
    n.takeTurn m rest { state := n.state } = { n with mailbox := rest, handled := n.handled ++ [m] } := by
  simp [takeTurn, kill, Turn.stopped, Turn.spawned, Turn.watched, Turn.frames, Turn.replies]

/-- What the portal is given, its task has, or nobody. -/
theorem uses_given (hlinear : n.Linear) (hlinear' : n'.Linear) {uuid : OpaqueActorId} {nexus : Option (Option ActorId)}
    {sink : SinkResult} {target : RemoteActorId} {msg : Msg β} {rest : List (PortalActorMessage β)}
    (hmail : n.mailbox = .immaterializeMessage target msg :: rest)
    (hstep : step (.handle uuid nexus sink) n = some n') {port : PortId} (hport : port ∈ portsOf msg.refs) :
    n.onTheWay port = 0 ∧ n.uses port = 1 ∧ (portsOf msg.refs).count port = 1 ∧ n'.uses port ≤ n'.onTheWay port := by
  obtain ⟨-, m, rest', hmail', rfl⟩ := handle_inv hstep
  obtain ⟨rfl, rfl⟩ := List.cons.inj (hmail.symm.trans hmail')
  have hone := hlinear.once port
  have hpos := List.count_pos_iff.mpr hport
  have hcount : (n.mailbox.flatMap PortalActorMessage.ports).count port =
      (portsOf msg.refs).count port + (rest.flatMap PortalActorMessage.ports).count port := by
    rw [hmail, List.flatMap_cons, List.count_append]
    rfl
  have hway : n.onTheWay port = 0 ∧ n.uses port = 1 ∧ (portsOf msg.refs).count port = 1 := by
    unfold uses at hone ⊢
    unfold onTheWay
    omega
  refine ⟨hway.1, hway.2.1, hway.2.2, ?_⟩
  have hhandle : Portal.handle (n.env uuid nexus sink) n.state (.immaterializeMessage target msg) =
      handleImmaterializeMessage n.state target msg := rfl
  cases hphase : n.state.channelState with
  | opening intro =>
    have hturn : handleImmaterializeMessage n.state target msg = { state := n.state } := by
      rw [handleImmaterializeMessage, hphase]
    rw [hhandle, hturn, takeTurn_nothing]
    obtain ⟨hway, huses, -⟩ := hway
    unfold uses at huses
    unfold uses onTheWay
    dsimp only [endTurn]
    omega
  | opened channel =>
    refine (hlinear'.once port).trans ?_
    have hturn : handleImmaterializeMessage n.state target msg = { state := n.state, effects := [.spawn target msg] } := by
      rw [handleImmaterializeMessage, hphase]
    rw [hhandle, hturn]
    unfold onTheWay
    dsimp only [endTurn, takeTurn]
    rw [List.flatMap_append, List.count_append]
    have htask : ((Turn.spawned { state := n.state, effects := [.spawn target msg] }).map
        fun s => immaterialization s.1 s.2).flatMap (fun t => t.2.ports) = portsOf msg.refs := List.append_nil _
    rw [htask]
    omega

/-! ## One position -/

theorem mem_portsOf {refs : List LocalRef} {timeout : Option Duration} {port : PortId}
    (h : .replyPort timeout port ∈ refs) : port ∈ portsOf refs := List.mem_filterMap.mpr ⟨_, h, rfl⟩

theorem position_unique {refs : List LocalRef} {port : PortId} {timeout₁ timeout₂ : Option Duration} {k₁ k₂ : Nat}
    (h : (portsOf refs).count port ≤ 1) (hk₁ : refs[k₁]? = some (.replyPort timeout₁ port))
    (hk₂ : refs[k₂]? = some (.replyPort timeout₂ port)) : k₁ = k₂ := by
  induction refs generalizing k₁ k₂ with
  | nil => cases hk₁
  | cons ref refs ih =>
    have hsplit : (portsOf (ref :: refs)).count port = (portsOf [ref]).count port + (portsOf refs).count port := by
      rw [← List.count_append, portsOf, portsOf, portsOf, ← List.filterMap_append]
      rfl
    have hhead {timeout : Option Duration} (href : ref = .replyPort timeout port) {k : Nat}
        {timeout' : Option Duration} (hk : refs[k]? = some (.replyPort timeout' port)) : False := by
      have hpos := List.count_pos_iff.mpr (mem_portsOf (List.mem_of_getElem? hk))
      have hone := List.count_pos_iff.mpr (mem_portsOf (List.mem_singleton.mpr href.symm))
      omega
    cases k₁ with
    | zero =>
      cases k₂ with
      | zero => rfl
      | succ k₂ => exact (hhead (Option.some.inj hk₁) hk₂).elim
    | succ k₁ =>
      cases k₂ with
      | zero => exact (hhead (Option.some.inj hk₂) hk₁).elim
      | succ k₂ => exact congrArg Nat.succ (ih (by omega) hk₁ hk₂)

namespace Spent

theorem gone_step (h : n.Spent) (huses : Uses n n') (hstep : Node.step l n = some n') {port : PortId}
    (hport : port ∈ n.givenPorts) : n'.uses port ≤ n'.onTheWay port := by
  have hgone := h.gone port hport
  by_cases hfail : ∃ tag, l = .taskFail tag
  · obtain ⟨tag, rfl⟩ := hfail
    have hlost := uses_taskFail hstep port
    omega
  · have hway := onTheWay_of_step hstep (fun tag heq => hfail ⟨tag, heq⟩) port
    obtain ⟨-, hle⟩ | ⟨-, hle⟩ := huses
    · exact (hle port).trans (hgone.trans hway)
    · have hle := hle port
      rw [List.count_singleton, if_neg (by simpa using Nat.ne_of_gt (h.drawn port hport))] at hle
      exact hle.trans (hgone.trans hway)

theorem step (h : n.Spent) (hlinear : n.Linear) (hlinear' : n'.Linear) (huses : Uses n n')
    (hstep : Node.step l n = some n') : n'.Spent := by
  have hdrawn {port : PortId} (hport : port ∈ n.givenPorts) : port < n'.nextPort :=
    Nat.lt_of_lt_of_le (h.drawn port hport) (nextPort_le_of_step hstep)
  obtain hsame | ⟨uuid, nexus, sink, target, msg, rest, rfl, hmail, hgiven⟩ := givenPorts_of_step hstep
  · refine ⟨fun port => hsame ▸ h.once port, fun port hport => hdrawn (hsame ▸ hport), fun port hport => ?_⟩
    exact h.gone_step huses hstep (hsame ▸ hport)
  · refine ⟨fun port => ?_, fun port hport => ?_, fun port hport => ?_⟩
    · rw [hgiven, List.count_append]
      by_cases hnew : port ∈ portsOf msg.refs
      · -- it was in the mailbox, so it has not been given before
        obtain ⟨hway, hone, hcount, -⟩ := uses_given hlinear hlinear' hmail hstep hnew
        have hnot : port ∉ n.givenPorts := by
          intro hold
          have hgone := h.gone port hold
          omega
        rw [hcount, List.count_eq_zero.mpr hnot]
      · rw [List.count_eq_zero.mpr hnew]
        exact h.once port
    · obtain hold | hnew := List.mem_append.mp (hgiven ▸ hport)
      · exact hdrawn hold
      · refine Nat.lt_of_not_le fun hle => ?_
        obtain ⟨-, hone, -, -⟩ := uses_given hlinear hlinear' hmail hstep hnew
        have hzero := hlinear.fresh port ((nextPort_le_of_step hstep).trans hle)
        omega
    · obtain hold | hnew := List.mem_append.mp (hgiven ▸ hport)
      · exact h.gone_step huses hstep hold
      · exact (uses_given hlinear hlinear' hmail hstep hnew).2.2.2

theorem started (setup : Setup) : (Node.started (β := β) setup).Spent where
  once _ := Nat.zero_le _
  drawn := by rintro _ ⟨⟩
  gone := by rintro _ ⟨⟩

/-- **A port that has been given and answered is at an `RpcProxyActor`**, and nowhere else. -/
theorem served (h : n.Spent) {port : PortId} (hgiven : port ∈ n.givenPorts)
    (hanswered : port ∈ n.replies.map Prod.fst) : port ∈ n.rpcProxies.map Prod.snd := by
  by_contra hnot
  have hgone := h.gone port hgiven
  have hpos := List.count_pos_iff.mpr hanswered
  unfold uses onTheWay answers at hgone
  rw [if_neg hnot] at hgone
  omega

/-- **A port has been given at one position of one message.** -/
theorem position (h : n.Spent) {port : PortId} {target₁ target₂ : RemoteActorId} {msg₁ msg₂ : Msg β}
    {timeout₁ timeout₂ : Option Duration} {k₁ k₂ : Nat} (h₁ : .immaterializeMessage target₁ msg₁ ∈ n.handled)
    (h₂ : .immaterializeMessage target₂ msg₂ ∈ n.handled) (hk₁ : msg₁.refs[k₁]? = some (.replyPort timeout₁ port))
    (hk₂ : msg₂.refs[k₂]? = some (.replyPort timeout₂ port)) : msg₁ = msg₂ ∧ k₁ = k₂ := by
  have hmem₁ := mem_portsOf (List.mem_of_getElem? hk₁)
  have hmem₂ := mem_portsOf (List.mem_of_getElem? hk₂)
  have heq := Queues.eq_of_count_le_one (h.once port) h₁ h₂ hmem₁ hmem₂
  cases heq
  refine ⟨rfl, position_unique ?_ hk₁ hk₂⟩
  exact (Queues.count_le_of_mem h₁).trans (h.once port)

theorem not_held (h : n.Spent) {port : PortId} (hgiven : port ∈ n.givenPorts) : port ∉ n.held := by
  intro hheld
  have hgone := h.gone port hgiven
  have hpos := List.count_pos_iff.mpr hheld
  unfold uses onTheWay at hgone
  omega

end Spent

end

end Node
end Portal
end Wormhole
