import Wormhole.Portal.Pair
import Wormhole.Portal.Ports

/-!
# `Portal.Phases` — what a portal does in which phase

A portal is opening until it handles an introduction, then it is open, and it may stop at any time. While it
is opening it writes nothing but its own introduction and delivers nothing, and callers of `WaitForHandshake`
queue up; the turn that opens it answers all of them. A violation of the protocol stops it, and then nothing
of it moves any more.
-/

namespace Wormhole
namespace Portal

variable {β : Type}

/-! ## Phases -/

inductive Phase where
  | opening
  | opened
  | stopped
  deriving DecidableEq, Repr

def Phase.rank : Phase → Nat
  | .opening => 0
  | .opened => 1
  | .stopped => 2

def Node.phase (n : Node β) : Phase :=
  match n.life, n.state.channelState with
  | .running, .opening _ => .opening
  | .running, .opened _ => .opened
  | _, _ => .stopped

/-- The messages that violate the protocol. -/
def PortalActorMessage.Violates (state : PortalActorState) : PortalActorMessage β → Prop
  | .content _ => ∃ own, state.channelState = .opening own
  | .handshake _ => ∃ channel, state.channelState = .opened channel
  | _ => False

/-! ## Waiting for the handshake -/

/-- The callers of `WaitForHandshake` among the ports that are answered. -/
def openedPorts (replies : List (PortId × ReplyValue β)) : List PortId :=
  replies.filterMap fun
    | (port, .opened) => some port
    | _ => none

/-- What a turn does to those who wait for the handshake: the queue after it, and the ports it answers. -/
inductive Waits (env : HandleEnv) (state : PortalActorState) :
    PortalActorMessage β → List PortId → List PortId → Prop where
  | queued (port : PortId) (own : Introduction) (hopening : state.channelState = .opening own) :
      Waits env state (.waitForHandshake port) (state.waitingForHandshake ++ [port]) []
  | answered (port : PortId) (channel : ConduitID) (hopen : state.channelState = .opened channel) :
      Waits env state (.waitForHandshake port) state.waitingForHandshake (if env.alive port then [port] else [])
  | drained (own remote : Introduction) (hopening : state.channelState = .opening own) :
      Waits env state (.handshake (some remote)) [] (state.waitingForHandshake.filter env.alive)
  | other (m : PortalActorMessage β) (hm : ∀ port, m ≠ .waitForHandshake port)
      (hopens : ∀ phase, ¬Opens state m phase) : Waits env state m state.waitingForHandshake []

section

variable {env : HandleEnv} {state : PortalActorState} {m : PortalActorMessage β}

theorem openedPorts_append (replies more : List (PortId × ReplyValue β)) :
    openedPorts (replies ++ more) = openedPorts replies ++ openedPorts more := List.filterMap_append

theorem mem_openedPorts {replies : List (PortId × ReplyValue β)} {port : PortId} :
    port ∈ openedPorts replies ↔ (port, .opened) ∈ replies := by
  constructor
  · intro h
    obtain ⟨⟨port', value⟩, hmem, heq⟩ := List.mem_filterMap.mp h
    cases value <;> cases heq
    exact hmem
  · exact fun h => List.mem_filterMap.mpr ⟨_, h, rfl⟩

theorem openedPorts_rpc {replies : List (PortId × ReplyValue β)} (h : ∀ reply ∈ replies, reply.2.isRpc = true) :
    openedPorts replies = [] := by
  apply List.eq_nil_iff_forall_not_mem.mpr
  intro port hport
  cases h _ (mem_openedPorts.mp hport)

/-- Only these two messages are answered so. -/
theorem openedPorts_of_other (hwait : ∀ port, m ≠ .waitForHandshake port) (hshake : ∀ text, m ≠ .handshake text) :
    openedPorts (handle env state m).replies = [] := by
  apply List.eq_nil_iff_forall_not_mem.mpr
  intro port hport
  cases handle_causes (mem_replies (mem_openedPorts.mp hport)) with
  | waiter text => exact hshake text rfl
  | opened => exact hwait _ rfl

theorem handle_waiting_of_other (hwait : ∀ port, m ≠ .waitForHandshake port) (hshake : ∀ text, m ≠ .handshake text) :
    (handle env state m).state.waitingForHandshake = state.waitingForHandshake := by
  fun_cases handle env state m
  · exact absurd rfl (hshake _)
  · fun_cases handleContent
    · rfl
    · rfl
    · fun_cases handleCrossPortalMessage
      · fun_cases handleRequestActorByName <;> simp
      · fun_cases handleResponse <;> simp
      · fun_cases handleResponse <;> simp
      · fun_cases handleSendMessage <;> rfl
      · fun_cases handleActorExited <;> rfl
  · rfl
  · exact absurd rfl (hwait _)
  · fun_cases handlePublishNamedActor <;> simp +zetaDelta
  · fun_cases handlePublishActor <;> simp
  · fun_cases handleQueryNamedRemoteActor <;> simp
  · fun_cases handleImmaterializeMessage <;> rfl
  · fun_cases handleTransmitMessage <;> simp
  · fun_cases handleRegisterProxyForRemoteActor <;> rfl
  · fun_cases handleLocalActorExited <;> simp

theorem handle_waits (env : HandleEnv) (state : PortalActorState) (m : PortalActorMessage β) :
    Waits env state m (handle env state m).state.waitingForHandshake (openedPorts (handle env state m).replies) := by
  cases m with
  | waitForHandshake port =>
    show Waits env state _ (handleWaitForHandshake (β := β) env state port).state.waitingForHandshake
      (openedPorts (handleWaitForHandshake (β := β) env state port).replies)
    fun_cases handleWaitForHandshake (β := β) env state port with
    | case1 own hopening => exact .queued port own hopening
    | case2 channel hopen =>
      rw [replying_state, Turn.replies, replying_effects]
      have hone : openedPorts (([] ++ if env.alive port = true then [Effect.reply (β := β) port .opened] else
          []).filterMap Effect.reply?) = if env.alive port then [port] else [] := by
        split <;> rfl
      rw [hone]
      exact .answered port channel hopen
  | handshake text =>
    show Waits env state _ (handleHandshake (β := β) env state text).state.waitingForHandshake
      (openedPorts (handleHandshake (β := β) env state text).replies)
    fun_cases handleHandshake (β := β) env state text with
    | case1 own hopening =>
      refine .other _ (by simp) ?_
      rintro phase ⟨_, _, -, ⟨⟩, -⟩
    | case2 own hopening remote id =>
      have hall : openedPorts (((state.waitingForHandshake.filter env.alive).map
          (Effect.reply (β := β) · .opened)).filterMap Effect.reply?) = state.waitingForHandshake.filter env.alive := by
        rw [openedPorts, List.filterMap_filterMap, List.filterMap_map]
        exact List.filterMap_some
      show Waits env state _ [] (openedPorts _)
      rw [Turn.replies, hall]
      exact .drained own remote hopening
    | case3 text channel hopen =>
      refine .other _ (by simp) ?_
      rintro phase ⟨own, _, hopening, -⟩
      rw [hopen] at hopening
      cases hopening
  | _ =>
    rw [handle_waiting_of_other (by simp) (by simp), openedPorts_of_other (by simp) (by simp)]
    refine .other _ (by simp) ?_
    rintro phase ⟨_, _, -, ⟨⟩, -⟩

end

/-! ## Opening -/

/-- The portal has written its introduction only, and it has neither delivered nor answered. -/
structure Node.Silent (n : Node β) : Prop where
  sent : ∀ data, .content data ∉ n.sent
  delivered : n.delivered = []
  rebuilding : n.rebuilding = none
  replies : openedPorts n.replies = []

section

variable {l : Label β} {n n' : Node β}

namespace Node.Silent

theorem handle (h : n.Silent) {uuid : OpaqueActorId} {nexus : Option (Option ActorId)} {sink : SinkResult}
    {own : Introduction} (hopening : n.state.channelState = .opening own)
    (hopening' : n'.state.channelState = .opening own) (hstep : Node.step (.handle uuid nexus sink) n = some n') :
    n'.Silent := by
  obtain ⟨-, m, rest, -, rfl⟩ := Node.handle_inv hstep
  rw [Node.endTurn_state] at hopening'
  have hframes : (Portal.handle (n.env uuid nexus sink) n.state m).frames = [] := by
    apply List.eq_nil_iff_forall_not_mem.mpr
    intro msg hmsg
    -- every frame is written by an open portal
    have hopen : ∃ channel, n.state.channelState = .opened channel := by
      cases handle_causes (mem_frames hmsg) with
      | named channel _ _ _ hopen _ => exact ⟨channel, hopen⟩
      | fetched channel _ _ _ _ hopen => exact ⟨channel, hopen⟩
      | notFound channel _ _ hopen => exact ⟨channel, hopen⟩
      | query channel _ _ hopen => exact ⟨channel, hopen⟩
      | transmit channel _ _ hopen => exact ⟨channel, hopen⟩
      | exit channel _ _ hopen _ => exact ⟨channel, hopen⟩
    obtain ⟨channel, hopen⟩ := hopen
    rw [hopening] at hopen
    cases hopen
  constructor
  · intro data hdata
    rw [Node.endTurn_sent] at hdata
    obtain hold | hnew := List.mem_append.mp hdata
    · exact h.sent data hold
    · rw [hframes] at hnew
      cases hnew
  · rw [Node.endTurn_delivered]
    exact h.delivered
  · have hends := handle_ends (n.env uuid nexus sink) n.state m
    generalize (Portal.handle (n.env uuid nexus sink) n.state m).outcome = outcome at hends
    cases hends with
    | ok => exact h.rebuilding
    | rematerialize channel _ _ _ hopen _ =>
      rw [hopening] at hopen
      cases hopen
    | _ => rfl
  · rw [Node.endTurn_replies]
    show openedPorts (n.replies ++ (Portal.handle (n.env uuid nexus sink) n.state m).replies) = []
    rw [openedPorts_append, h.replies, List.nil_append]
    have hwaits := handle_waits (n.env uuid nexus sink) n.state m
    have hstays : ∀ phase, ¬Opens n.state m phase := by
      rintro phase ⟨own', remote, -, rfl, -⟩
      simp [Node.takeTurn, Portal.handle, handleHandshake, hopening] at hopening'
    generalize openedPorts (Portal.handle (n.env uuid nexus sink) n.state m).replies = ports at hwaits ⊢
    generalize (Portal.handle (n.env uuid nexus sink) n.state m).state.waitingForHandshake = waiting at hwaits
    cases hwaits with
    | queued => rfl
    | other => rfl
    | answered _ channel hopen =>
      rw [hopening] at hopen
      cases hopen
    | drained own' remote hopening => exact absurd ⟨own', remote, hopening, rfl, rfl⟩ (hstays _)

theorem step (h : n.Silent) {own : Introduction} (hopening' : n'.state.channelState = .opening own)
    (hstep : Node.step l n = some n') : n'.Silent := by
  have hopening := Node.opening_of_step hstep hopening'
  cases hpump : l.isPump with
  | false =>
    have hq := Node.quiet_of_step hpump hstep
    have href : l ≠ .rebuildRef := by
      rintro rfl
      obtain ⟨r, _, _, hr, -⟩ := Node.rebuildRef_inv hstep
      rw [h.rebuilding] at hr
      cases hr
    obtain ⟨added, hreplies, hrpc⟩ := hq.replies
    constructor
    · rw [hq.sent]; exact h.sent
    · rw [hq.delivered]; exact h.delivered
    · rw [hq.rebuilding href]; exact h.rebuilding
    · rw [hreplies, openedPorts_append, h.replies, openedPorts_rpc hrpc]
      rfl
  | true =>
    cases l with
    | recv frame =>
      obtain ⟨-, rfl⟩ := Node.recv_inv hstep
      obtain _ | _ | _ | _ := frame <;> exact ⟨h.sent, h.delivered, h.rebuilding, h.replies⟩
    | handle uuid nexus sink => exact h.handle hopening hopening' hstep
    | rebuildDone =>
      obtain ⟨r, hr, -⟩ := Node.rebuildDone_inv hstep
      rw [h.rebuilding] at hr
      cases hr
    | _ => cases hpump

end Node.Silent

theorem silent_of_run {setup : Setup} {ls : List (Label β)} {own : Introduction}
    (hrun : Transition.Run Node.step Transition.Any ls (Node.started setup) n)
    (hopening : n.state.channelState = .opening own) : n.Silent := by
  refine hrun.invariant (P := fun n => ∀ own, n.state.channelState = .opening own → n.Silent) ?_ ?_ own hopening
  · intro l s t h _ hstep own hopening'
    exact (h own (Node.opening_of_step hstep hopening')).step hopening' hstep
  · intro own _
    refine ⟨fun data hdata => ?_, rfl, rfl, rfl⟩
    cases List.mem_singleton.mp hdata

/-! ## The callers of `WaitForHandshake` -/

/-- Nobody waits at an open portal, and whoever has waited has been answered or is gone. -/
structure Node.Attentive (n : Node β) : Prop where
  drained : ∀ channel, n.state.channelState = .opened channel → n.state.waitingForHandshake = []
  attended : ∀ port, .waitForHandshake port ∈ n.handled →
    port ∈ n.state.waitingForHandshake ∨ port ∈ openedPorts n.replies ∨ port ∈ n.dropped

namespace Node.Attentive

theorem frame (h : n.Attentive) (hstate : n'.state = n.state) (hhandled : n'.handled = n.handled)
    (hreplies : openedPorts n'.replies = openedPorts n.replies) (hdropped : n.dropped ⊆ n'.dropped) :
    n'.Attentive := by
  constructor
  · rw [hstate]; exact h.drained
  · rw [hstate, hhandled, hreplies]
    exact fun port hp => (h.attended port hp).imp_right (Or.imp_right fun hd => hdropped hd)

/-- **A turn serves the callers.** -/
theorem handle (h : n.Attentive) {uuid : OpaqueActorId} {nexus : Option (Option ActorId)} {sink : SinkResult}
    (hstep : Node.step (.handle uuid nexus sink) n = some n') : n'.Attentive := by
  obtain ⟨-, m, rest, hmail, rfl⟩ := Node.handle_inv hstep
  have hwaits := handle_waits (n.env uuid nexus sink) n.state m
  have hphase := handle_channelState (n.env uuid nexus sink) n.state m
  have hgone {port : PortId} (hdead : ¬(n.env uuid nexus sink).alive port = true) : port ∈ n.dropped := by
    simpa [Node.env] using hdead
  constructor
  · rw [Node.endTurn_state]
    show ∀ channel, (Portal.handle (n.env uuid nexus sink) n.state m).state.channelState = _ →
      (Portal.handle (n.env uuid nexus sink) n.state m).state.waitingForHandshake = []
    intro channel hopen
    obtain hsame | hopens := hphase
    · rw [hopen] at hsame
      generalize openedPorts (Portal.handle (n.env uuid nexus sink) n.state m).replies = ports at hwaits
      generalize (Portal.handle (n.env uuid nexus sink) n.state m).state.waitingForHandshake = waiting at hwaits ⊢
      cases hwaits with
      | queued _ own hopening =>
        rw [hopening] at hsame
        cases hsame
      | answered => exact h.drained channel hsame.symm
      | drained => rfl
      | other => exact h.drained channel hsame.symm
    · generalize (Portal.handle (n.env uuid nexus sink) n.state m).state.channelState = phase at hopens
      obtain ⟨own, remote, hopening, rfl, -⟩ := id hopens
      generalize openedPorts (Portal.handle (n.env uuid nexus sink) n.state (.handshake (some remote))).replies =
        ports at hwaits
      generalize (Portal.handle (n.env uuid nexus sink) n.state (.handshake (some
        remote))).state.waitingForHandshake = waiting at hwaits ⊢
      cases hwaits with
      | drained => rfl
      | other _ _ hno => exact absurd hopens (hno _)
  · rw [Node.endTurn_state, Node.endTurn_handled, Node.endTurn_replies, Node.endTurn_dropped]
    show ∀ port, .waitForHandshake port ∈ n.handled ++ [m] →
      port ∈ (Portal.handle (n.env uuid nexus sink) n.state m).state.waitingForHandshake ∨
      port ∈ openedPorts (n.replies ++ (Portal.handle (n.env uuid nexus sink) n.state m).replies) ∨ port ∈ n.dropped
    intro port hport
    rw [openedPorts_append, List.mem_append]
    rw [List.mem_append, List.mem_singleton] at hport
    generalize openedPorts (Portal.handle (n.env uuid nexus sink) n.state m).replies = ports at hwaits ⊢
    generalize (Portal.handle (n.env uuid nexus sink) n.state m).state.waitingForHandshake = waiting at hwaits ⊢
    have hold := h.attended port
    -- a caller is queued until the portal opens, and answered then or at once; one that has gone gets nothing
    cases hwaits with
    | queued port' own hopening =>
      obtain hport | hport := hport
      · exact (hold hport).imp (List.mem_append_left _) (Or.imp_left .inl)
      · cases hport
        exact .inl (List.mem_append_right _ (List.mem_singleton_self _))
    | answered port' channel hopen =>
      obtain hport | hport := hport
      · exact (hold hport).imp_right (Or.imp_left .inl)
      · cases hport
        by_cases halive : (n.env uuid nexus sink).alive port = true
        · rw [if_pos halive]
          exact .inr (.inl (.inr (List.mem_singleton_self _)))
        · exact .inr (.inr (hgone halive))
    | drained own remote hopening =>
      obtain hport | ⟨⟨⟩⟩ := hport
      obtain hwaits | hrest := hold hport
      · by_cases halive : (n.env uuid nexus sink).alive port = true
        · exact .inr (.inl (.inr (List.mem_filter.mpr ⟨hwaits, halive⟩)))
        · exact .inr (.inr (hgone halive))
      · exact .inr (hrest.imp_left .inl)
    | other _ hm _ =>
      obtain hport | hport := hport
      · exact (hold hport).imp_right (Or.imp_left .inl)
      · exact absurd hport.symm (hm port)

theorem step (h : n.Attentive) (hstep : Node.step l n = some n') : n'.Attentive := by
  cases hpump : l.isPump with
  | false =>
    have hq := Node.quiet_of_step hpump hstep
    obtain ⟨added, hreplies, hrpc⟩ := hq.replies
    refine h.frame hq.state hq.handled ?_ hq.dropped
    rw [hreplies, openedPorts_append, openedPorts_rpc hrpc, List.append_nil]
  | true =>
    cases l with
    | recv frame =>
      obtain ⟨-, rfl⟩ := Node.recv_inv hstep
      obtain _ | _ | _ | _ := frame <;> exact h.frame rfl rfl rfl (List.Subset.refl _)
    | handle uuid nexus sink => exact h.handle hstep
    | rebuildDone =>
      obtain ⟨r, -, -, rfl⟩ := Node.rebuildDone_inv hstep
      obtain ⟨error, heq⟩ | ⟨body, -, -, heq⟩ := n.deliver_cases r <;> rw [heq] <;>
        exact h.frame rfl rfl rfl (List.Subset.refl _)
    | _ => cases hpump

end Node.Attentive

theorem attentive_of_run {setup : Setup} {ls : List (Label β)}
    (hrun : Transition.Run Node.step Transition.Any ls (Node.started setup) n) : n.Attentive :=
  hrun.invariant (fun _ _ _ h _ hstep => h.step hstep)
    ⟨fun _ _ => rfl, fun _ h => absurd h List.not_mem_nil⟩

/-! ## After a violation -/

/-- The portal has terminated and is as it was in `n`. -/
structure Node.FrozenAs (n n' : Node β) : Prop where
  life : n'.life = n.life
  state : n'.state = n.state
  rebuilding : n'.rebuilding = none
  sent : n'.sent = n.sent
  delivered : n'.delivered = n.delivered

theorem Node.FrozenAs.step {u : Node β} (h : u.FrozenAs n) (hlife : u.life ≠ .running)
    (hstep : Node.step l n = some n') : u.FrozenAs n' := by
  have href : l ≠ .rebuildRef := by
    rintro rfl
    obtain ⟨r, _, _, hr, -⟩ := Node.rebuildRef_inv hstep
    rw [h.rebuilding] at hr
    cases hr
  cases hpump : l.isPump with
  | false =>
    have hq := Node.quiet_of_step hpump hstep
    exact { life := hq.life.trans h.life, state := hq.state.trans h.state
            rebuilding := (hq.rebuilding href).trans h.rebuilding
            sent := hq.sent.trans h.sent, delivered := hq.delivered.trans h.delivered }
  | true =>
    cases l with
    | recv frame =>
      obtain ⟨-, rfl⟩ := Node.recv_inv hstep
      obtain _ | _ | _ | _ := frame <;> exact ⟨h.life, h.state, h.rebuilding, h.sent, h.delivered⟩
    | handle uuid nexus sink =>
      obtain ⟨⟨hrun, -⟩, -⟩ := Node.handle_inv hstep
      exact absurd (h.life.symm.trans hrun) hlife
    | rebuildDone =>
      obtain ⟨r, hr, -⟩ := Node.rebuildDone_inv hstep
      rw [h.rebuilding] at hr
      cases hr
    | _ => cases hpump

theorem frozen_of_run {ls : List (Label β)} (hrun : Transition.Run Node.step Transition.Any ls n n')
    (hlife : n.life ≠ .running) (hrebuilding : n.rebuilding = none) : n.FrozenAs n' :=
  hrun.invariant (P := n.FrozenAs) (fun _ _ _ h _ hstep => h.step hlife hstep) ⟨rfl, rfl, hrebuilding, rfl, rfl⟩

/-- **A violation stops the portal** and does nothing else. -/
theorem violation_stops {m : PortalActorMessage β} {rest : List (PortalActorMessage β)} {uuid : OpaqueActorId}
    {nexus : Option (Option ActorId)} {sink : SinkResult} (hmail : n.mailbox = m :: rest)
    (hviolates : m.Violates n.state) (hstep : Node.step (.handle uuid nexus sink) n = some n') :
    (n'.life = .stopped .contentBeforeHandshake ∨ n'.life = .stopped .handshakeAfterHandshake) ∧
      n'.rebuilding = none ∧ n'.state = n.state ∧ n'.sent = n.sent ∧ n'.delivered = n.delivered := by
  obtain ⟨-, m', rest', hmail', rfl⟩ := Node.handle_inv hstep
  rw [hmail] at hmail'
  cases hmail'
  cases m with
  | content data =>
    obtain ⟨own, hopening⟩ := hviolates
    have hturn : Portal.handle (n.env uuid nexus sink) n.state (.content data) =
        { state := n.state, outcome := .stop .contentBeforeHandshake } := by
      simp only [Portal.handle, handleContent, hopening]
    rw [hturn]
    exact ⟨.inl rfl, rfl, rfl, List.append_nil _, rfl⟩
  | handshake text =>
    obtain ⟨channel, hopen⟩ := hviolates
    have hturn : Portal.handle (n.env uuid nexus sink) n.state (.handshake (β := β) text) =
        { state := n.state, outcome := .stop .handshakeAfterHandshake } := by
      simp only [Portal.handle, handleHandshake, hopen]
    rw [hturn]
    exact ⟨.inr rfl, rfl, rfl, List.append_nil _, rfl⟩
  | _ => cases hviolates

/-! ## The discipline -/

theorem rank_le_of_step (hstep : Node.step l n = some n') : n.phase.rank ≤ n'.phase.rank := by
  by_cases hlife : n'.life = .running
  · have hrun := Node.life_of_step hstep hlife
    cases hphase : n.state.channelState with
    | opening own =>
      have hzero : n.phase = .opening := by simp only [Node.phase, hrun, hphase]
      rw [hzero]
      exact Nat.zero_le _
    | opened channel =>
      have hone : n.phase = .opened := by simp only [Node.phase, hrun, hphase]
      have hone' : n'.phase = .opened := by
        simp only [Node.phase, hlife, Node.opened_of_step hstep hphase]
      rw [hone, hone']
  · have htwo : n'.phase = .stopped := by
      unfold Node.phase
      split
      · rename_i hrun _
        exact absurd hrun hlife
      · rename_i hrun _
        exact absurd hrun hlife
      · rfl
    rw [htwo]
    cases n.phase <;> decide

end

/-- **The discipline of phases.** Whatever the peer sends and however local requests interleave: the phase only
    moves forward, and the channel id is written once; while the portal is opening, no `Content` frame is
    written, nothing is delivered and nobody is told that it is open; nobody is answered twice, and in an open
    portal nobody waits and all who have waited have been told or are gone; and a content before the handshake
    or a second handshake stops the portal as it is, for good. -/
theorem phase_discipline (setup : Setup) (ls : List (Label β)) (n : Node β)
    (hrun : Transition.Run Node.step Transition.Any ls (Node.started setup) n) :
    (∀ ms n', Transition.Run Node.step Transition.Any ms n n' → n.phase.rank ≤ n'.phase.rank ∧
      ∀ channel, n.state.channelState = .opened channel → n'.state.channelState = .opened channel) ∧
    (∀ own, n.state.channelState = .opening own → (∀ data, .content data ∉ n.sent) ∧ n.delivered = [] ∧
      ∀ port, (port, .opened) ∉ n.replies) ∧
    (∀ port, (n.replies.map Prod.fst).count port ≤ 1) ∧
    (∀ channel, n.state.channelState = .opened channel → n.state.waitingForHandshake = [] ∧
      ∀ port, .waitForHandshake port ∈ n.handled → (port, .opened) ∈ n.replies ∨ port ∈ n.dropped) ∧
    ∀ m rest uuid nexus sink n', n.mailbox = m :: rest → m.Violates n.state →
      Node.step (.handle uuid nexus sink) n = some n' →
      (n'.life = .stopped .contentBeforeHandshake ∨ n'.life = .stopped .handshakeAfterHandshake) ∧
      ∀ ms n'', Transition.Run Node.step Transition.Any ms n' n'' → n''.life = n'.life ∧ n''.state = n.state ∧
        n''.sent = n.sent ∧ n''.delivered = n.delivered := by
  have hattentive := attentive_of_run hrun
  refine ⟨?_, ?_, ?_, ?_, ?_⟩
  · intro ms n' hrun'
    constructor
    · apply hrun'.relates (R := fun n n' => n.phase.rank ≤ n'.phase.rank) (fun _ => Nat.le_refl _) Nat.le_trans
      exact fun l s t _ hstep => rank_le_of_step hstep
    · intro channel hopen
      apply hrun'.invariant (P := fun n => n.state.channelState = .opened channel) ?_ hopen
      exact fun l s t hopen _ hstep => Node.opened_of_step hstep hopen
  · intro own hopening
    have hsilent := silent_of_run hrun hopening
    refine ⟨hsilent.sent, hsilent.delivered, fun port hport => ?_⟩
    have := mem_openedPorts.mpr hport
    rw [hsilent.replies] at this
    cases this
  · exact (Node.Linear.of_run hrun).answered_once
  · intro channel hopen
    have hdrained := hattentive.drained channel hopen
    refine ⟨hdrained, fun port hport => ?_⟩
    obtain hwaits | hanswered | hgone := hattentive.attended port hport
    · rw [hdrained] at hwaits
      cases hwaits
    · exact .inl (mem_openedPorts.mp hanswered)
    · exact .inr hgone
  · intro m rest uuid nexus sink n' hmail hviolates hstep
    obtain ⟨hlife, hrebuilding, hstate, hsent, hdelivered⟩ := violation_stops hmail hviolates hstep
    refine ⟨hlife, fun ms n'' hrun' => ?_⟩
    have hnot : n'.life ≠ .running := by
      obtain hlife | hlife := hlife <;> rw [hlife] <;> nofun
    have hfrozen := frozen_of_run hrun' hnot hrebuilding
    exact ⟨hfrozen.life, hfrozen.state.trans hstate, hfrozen.sent.trans hsent,
      hfrozen.delivered.trans hdelivered⟩

/-- Somebody waits, the portal opens, and a second introduction comes. -/
def openedTwice : List (Label Nat) :=
  [.request .waitForHandshake, .handle ⟨7⟩ none .flushed,
   .recv (some (.handshake (some (twoSides .right).introduction))), .handle ⟨7⟩ none .flushed,
   .recv (some (.handshake (some (twoSides .right).introduction)))]

theorem phase_discipline_openedTwice : ∃ n n',
    Transition.exec Node.step openedTwice (Node.started (twoSides .left)) = some n ∧
    (n.replies.map Prod.fst).count 0 ≤ 1 ∧ ((0, .opened) ∈ n.replies ∨ 0 ∈ n.dropped) ∧
    Node.step (.handle ⟨7⟩ none .flushed) n = some n' ∧ n'.state = n.state ∧ n'.delivered = n.delivered := by
  have heval : (Transition.exec Node.step openedTwice (Node.started (twoSides .left))).map (fun n =>
      decide (n.mailbox = [.handshake (some (twoSides .right).introduction)] ∧
        n.state.channelState = .opened ⟨0x06060606060606060606060606060606⟩ ∧ .waitForHandshake 0 ∈ n.handled ∧
        n.Fits ⟨7⟩ none)) = some true := by
    decide +kernel
  obtain ⟨n, hn, hfacts⟩ := Option.map_eq_some_iff.mp heval
  obtain ⟨hmail, hopen, hhandled, hfits⟩ := of_decide_eq_true hfacts
  obtain ⟨-, -, honce, hopened, hviolation⟩ := phase_discipline _ openedTwice n (Transition.run_of_exec hn)
  have hstep := @Node.handle_step _ _ _ _ .flushed _ _ _ hfits hmail rfl
  obtain ⟨-, hfrozen⟩ := hviolation _ _ _ _ _ _ hmail ⟨_, hopen⟩ hstep
  obtain ⟨-, hstate, -, hdelivered⟩ := hfrozen [] _ (.nil _)
  exact ⟨n, _, hn, honce 0, (hopened _ hopen).2 0 hhandled, hstep, hstate, hdelivered⟩

end Portal
end Wormhole
