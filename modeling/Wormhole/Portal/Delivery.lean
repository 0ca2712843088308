import Wormhole.Portal.Pair

/-!
# `Portal.Delivery` — a message for an actor that is gone

The registry keeps an actor that has exited, so a `SendMessage` for it still finds its entry. The
rematerializer then hands the decoded message to `send_message`, whose error goes through two `?` and out of
the portal's own handler. Nothing that happens in between can prevent it.
-/

namespace Wormhole
namespace Portal

variable {β : Type} {n n' : Node β} {l : Label β} {actor : ActorId}

/-- The portal rebuilds a message for an actor that is gone, or has failed for it. -/
inductive Node.Doomed (actor : ActorId) (n : Node β) : Prop where
  | rebuilding (r : Rebuilding β) (hrun : n.life = .running) (hr : n.rebuilding = some r)
      (hactor : r.actor = actor) (hbody : r.body ≠ none) (hgone : actor ∈ n.exited)
  | failed (hlife : n.life = .failed .sendMessage) (hnone : n.rebuilding = none)

namespace Node.Doomed

/-- What keeps life and rematerialization and lets nobody return. -/
theorem frame (h : n.Doomed actor) (hlife : n'.life = n.life) (hreb : n'.rebuilding = n.rebuilding)
    (hexited : n.exited ⊆ n'.exited) : n'.Doomed actor := by
  cases h with
  | rebuilding r hrun hr hactor hbody hgone =>
    exact .rebuilding r (hlife.trans hrun) (hreb.trans hr) hactor hbody (hexited hgone)
  | failed hfailed hnone => exact .failed (hlife.trans hfailed) (hreb.trans hnone)

theorem step (h : n.Doomed actor) (hstep : Node.step l n = some n') : n'.Doomed actor := by
  cases hl : l.isPump with
  | false =>
    have hq := Node.quiet_of_step hl hstep
    by_cases href : l = .rebuildRef
    · subst href
      obtain ⟨r, ref, todo, hr, htodo, rfl⟩ := Node.rebuildRef_inv hstep
      obtain ⟨done, hdone⟩ := n.rebuild_rebuilding r ref todo
      cases h with
      | rebuilding r' hrun hr' hactor hbody hgone =>
        rw [hr] at hr'
        cases hr'
        exact .rebuilding _ (hq.life.trans hrun) hdone hactor hbody (hq.exited hgone)
      | failed hfailed hnone =>
        rw [hr] at hnone
        cases hnone
    · exact h.frame hq.life (hq.rebuilding href) hq.exited
  | true =>
    cases l with
    | recv frame =>
      obtain ⟨-, rfl⟩ := Node.recv_inv hstep
      obtain _ | _ | _ | _ := frame <;> exact h.frame rfl rfl (List.Subset.refl _)
    | handle uuid nexus sink =>
      -- the message pump stands still
      obtain ⟨⟨hrun, hidle, -⟩, -⟩ := Node.handle_inv hstep
      cases h with
      | rebuilding r _ hr => rw [hidle] at hr; cases hr
      | failed hfailed => rw [hrun] at hfailed; cases hfailed
    | rebuildDone =>
      obtain ⟨r, hr, -, rfl⟩ := Node.rebuildDone_inv hstep
      cases h with
      | rebuilding r' hrun hr' hactor hbody hgone =>
        rw [hr] at hr'
        cases hr'
        obtain ⟨body, hbody⟩ := Option.ne_none_iff_exists'.mp hbody
        have hfail : n.deliver r = n.halt (.failed .sendMessage) := by
          rw [Node.deliver, hbody]
          exact if_pos (hactor ▸ hgone)
        rw [hfail]
        exact .failed rfl rfl
      | failed hfailed hnone =>
        rw [hr] at hnone
        cases hnone
    | _ => cases hl

/-- The rematerializer gets to the end of its references, and the portal fails. -/
theorem fails (r : Rebuilding β) (hrun : n.life = .running) (hr : n.rebuilding = some r)
    (hbody : r.body ≠ none) (hgone : r.actor ∈ n.exited) :
    ∃ ls t, Transition.Run Node.step Transition.Any ls n t ∧ t.life = .failed .sendMessage := by
  induction htodo : r.todo generalizing n r with
  | nil =>
    obtain ⟨body, hbody⟩ := Option.ne_none_iff_exists'.mp hbody
    refine ⟨[.rebuildDone], n.halt (.failed .sendMessage), .cons trivial ?_ (.nil _), rfl⟩
    simp only [Node.step, hr, htodo, if_true, Node.deliver, hbody, if_pos hgone]
  | cons ref todo ih =>
    obtain ⟨done, hdone⟩ := n.rebuild_rebuilding r ref todo
    have hstep : Node.step .rebuildRef n = some (n.rebuild r ref todo) := by
      simp only [Node.step, hr, htodo]
    have hq := Node.quiet_of_step rfl hstep
    obtain ⟨ls, t, hls, hfailed⟩ :=
      ih { r with todo, done } (hq.life.trans hrun) hdone hbody (hq.exited hgone) rfl
    exact ⟨.rebuildRef :: ls, t, .cons trivial hstep hls, hfailed⟩

end Node.Doomed

/-- The turn of a `SendMessage` for a published actor that is gone. -/
theorem doomed_of_handle {uuid : OpaqueActorId} {nexus : Option (Option ActorId)} {sink : SinkResult}
    {channel : ConduitID} {target : RemoteActorId} {data : Payload β} {body : β}
    {rest : List (PortalActorMessage β)} (hopen : n.state.channelState = .opened channel)
    (hmail : n.mailbox = .content (some (.sendMessage target data)) :: rest)
    (hpublished : n.state.publishedActors.lookup target.id = some actor) (hgone : actor ∈ n.exited)
    (hbody : data.body = some body) (hstep : Node.step (.handle uuid nexus sink) n = some n') :
    n'.life = .running ∧ ∃ r, n'.rebuilding = some r ∧ r.actor = actor ∧ r.body ≠ none ∧ actor ∈ n'.exited := by
  obtain ⟨⟨hrun, -⟩, m, rest', hmail', rfl⟩ := Node.handle_inv hstep
  rw [hmail] at hmail'
  cases hmail'
  have hhandle : Portal.handle (n.env uuid nexus sink) n.state (.content (some (.sendMessage target data))) =
      { state := n.state, outcome := .rematerialize actor data } := by
    simp only [Portal.handle, handleContent, hopen, handleCrossPortalMessage, handleSendMessage, hpublished]
  rw [hhandle]
  refine ⟨hrun, _, rfl, rfl, by rw [hbody]; simp, ?_⟩
  exact List.mem_append_left _ hgone

/-- **A message for a published actor that is gone takes the portal down.** Once such a message is the next
    one of an open portal, then in every run in which the portal takes it the handler never returns `Ok`: it
    is still rebuilding the message, or it has returned the error of `send_message` and the portal has
    failed. And there always is a run in which it has. -/
theorem send_to_stopped_fails (n : Node β) (uuid : OpaqueActorId) (nexus : Option (Option ActorId))
    (sink : SinkResult) (channel : ConduitID) (target : RemoteActorId) (data : Payload β) (body : β)
    (actor : ActorId) (rest : List (PortalActorMessage β)) (hfits : n.Fits uuid nexus)
    (hopen : n.state.channelState = .opened channel)
    (hmail : n.mailbox = .content (some (.sendMessage target data)) :: rest)
    (hpublished : n.state.publishedActors.lookup target.id = some actor) (hstopped : actor ∈ n.exited)
    (hbody : data.body = some body) :
    (∀ ls t, Transition.Run Node.step Transition.Any (.handle uuid nexus sink :: ls) n t →
      (t.life = .running ∧ t.rebuilding ≠ none) ∨ t.life = .failed .sendMessage) ∧
    ∃ ls t, Transition.Run Node.step Transition.Any (.handle uuid nexus sink :: ls) n t ∧
      t.life = .failed .sendMessage := by
  constructor
  · intro ls t hrun
    obtain _ | ⟨_, hstep, hrest⟩ := hrun
    obtain ⟨hlife, r, hr, hactor, hb, hgone⟩ :=
      doomed_of_handle hopen hmail hpublished hstopped hbody hstep
    have hdoomed := hrest.invariant (P := Node.Doomed actor) (fun _ _ _ h _ hstep => h.step hstep)
      (.rebuilding r hlife hr hactor hb hgone)
    cases hdoomed with
    | rebuilding r hrun hr => exact .inl ⟨hrun, by rw [hr]; simp⟩
    | failed hfailed => exact .inr hfailed
  · have hstep : ∃ n', Node.step (.handle uuid nexus sink) n = some n' := by
      simp only [Node.step, if_pos hfits, hmail]
      exact ⟨_, rfl⟩
    obtain ⟨n', hstep⟩ := hstep
    obtain ⟨hlife, r, hr, rfl, hb, hgone⟩ :=
      doomed_of_handle hopen hmail hpublished hstopped hbody hstep
    obtain ⟨ls, t, hls, hfailed⟩ := Node.Doomed.fails r hlife hr hb hgone
    exact ⟨ls, t, .cons trivial hstep hls, hfailed⟩

/-- A message with a reference, for what the left side has published as 8. -/
def lateFrame : CrossPortalMessage Nat :=
  .sendMessage ⟨⟨0x06060606060606060606060606060606⟩, ⟨1⟩, ⟨8⟩⟩
    { tag := ⟨5, 0⟩, refs := [.actorRef ⟨⟨0x06060606060606060606060606060606⟩, ⟨2⟩, ⟨8⟩⟩], body := some 42 }

/-- Actor 0 is published, and exits while a message for it is on its way. -/
def lateMessage : List (Label Nat) :=
  [.recv (some (.handshake (some (twoSides .right).introduction))), .handle ⟨8⟩ none .flushed,
   .request (.publishActor 0 true), .handle ⟨8⟩ none .flushed, .exit 0, .recv (some (.content (some lateFrame)))]

/-- The portal runs and is open, and the message takes it down. -/
theorem late_message_fails :
    (Transition.exec Node.step lateMessage (Node.started (twoSides .left))).map (fun n =>
      (n.life, n.state.channelState, n.state.publishedActors.lookup ⟨8⟩, decide (0 ∈ n.exited))) =
      some (.running, .opened ⟨0x06060606060606060606060606060606⟩, some 0, true) ∧
    (Transition.exec Node.step (lateMessage ++ [.handle ⟨9⟩ none .flushed, .rebuildRef, .rebuildDone])
      (Node.started (twoSides .left))).map (·.life) = some (.failed .sendMessage) := by
  decide +kernel

theorem send_to_stopped_fails_late : ∃ n,
    Transition.exec Node.step lateMessage (Node.started (twoSides .left)) = some n ∧
    ∃ ls t, Transition.Run Node.step Transition.Any (.handle ⟨9⟩ none .flushed :: ls) n t ∧
      t.life = .failed .sendMessage := by
  have heval : (Transition.exec Node.step lateMessage (Node.started (twoSides .left))).map (fun n =>
      (decide (n.Fits ⟨9⟩ none), n.state.channelState, decide (n.mailbox = [.content (some lateFrame)]),
        n.state.publishedActors.lookup ⟨8⟩, decide (0 ∈ n.exited))) =
      some (true, .opened ⟨0x06060606060606060606060606060606⟩, true, some 0, true) := by
    decide +kernel
  obtain ⟨n, hn, hfacts⟩ := Option.map_eq_some_iff.mp heval
  injection hfacts with hfits hfacts
  injection hfacts with hopen hfacts
  injection hfacts with hmail hfacts
  injection hfacts with hpublished hstopped
  exact ⟨n, hn, (send_to_stopped_fails n ⟨9⟩ none .flushed _ _ _ 42 0 [] (of_decide_eq_true hfits) hopen
    (of_decide_eq_true hmail) hpublished (of_decide_eq_true hstopped) rfl).2⟩

end Portal
end Wormhole
