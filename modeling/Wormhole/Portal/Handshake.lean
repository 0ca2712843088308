import Wormhole.Portal.Pair

/-!
# `Portal.Handshake` — two honest portals agree on their channel

Each side writes its introduction first and content only afterwards, and the conduit keeps that order. So
what a portal that is still opening finds in its mailbox is a prefix of what the other side wrote, and
begins with the introduction (`Receives`); what an open portal finds is content. Both ids are the
exclusive or of the same two contributions.
-/

namespace Wormhole
namespace Portal

variable {β : Type}

/-! ## The channel id -/

theorem xorArrays_comm (a b : Vector UInt8 16) : xorArrays a b = xorArrays b a := by
  apply Vector.ext
  intro i hi
  simp [xorArrays, UInt8.xor_comm]

theorem channelId_comm (a b : Vector UInt8 16) : channelId a b = channelId b a := by
  rw [channelId, xorArrays_comm, channelId]

/-! ## What a side writes -/

/-- What is written after the introduction. -/
def ConduitMessage.IsContent : ConduitMessage β → Prop
  | .content (some _) => True
  | _ => False

/-- The introduction first, then content. -/
def Writes (own : Introduction) (sent : List (ConduitMessage β)) : Prop :=
  ∃ rest, sent = .handshake (some own) :: rest ∧ ∀ frame ∈ rest, frame.IsContent

namespace Node

/-- A side only adds content to what it has written. -/
theorem sent_of_step {l : Label β} {n n' : Node β} (h : step l n = some n') :
    ∃ more, n'.sent = n.sent ++ more ∧ ∀ frame ∈ more, frame.IsContent := by
  have hsame (h : n'.sent = n.sent) : ∃ more, n'.sent = n.sent ++ more ∧ ∀ frame ∈ more, frame.IsContent :=
    ⟨[], by simpa using h, by simp⟩
  cases hl : l.isPump with
  | false => exact hsame (quiet_of_step hl h).sent
  | true =>
    cases l with
    | recv frame =>
      obtain ⟨-, rfl⟩ := recv_inv h
      obtain _ | _ | _ | _ := frame <;> exact hsame rfl
    | handle uuid nexus sink =>
      obtain ⟨-, m, rest, -, rfl⟩ := handle_inv h
      refine ⟨_, endTurn_sent _ _, ?_⟩
      intro frame hframe
      obtain ⟨msg, -, rfl⟩ := List.mem_map.mp hframe
      exact trivial
    | rebuildDone =>
      obtain ⟨r, -, -, rfl⟩ := rebuildDone_inv h
      obtain ⟨error, heq⟩ | ⟨body, -, -, heq⟩ := n.deliver_cases r <;> exact hsame (by rw [heq]; rfl)
    | _ => cases hl

/-! ## What a side receives -/

end Node

/-- The frame in which a message of the conduit came. -/
def PortalActorMessage.frame? : PortalActorMessage β → Option (ConduitMessage β)
  | .handshake text => some (.handshake text)
  | .content data => some (.content data)
  | _ => none

/-- The frames that have been received and not handled. -/
def Node.pending (n : Node β) : List (ConduitMessage β) := n.mailbox.filterMap PortalActorMessage.frame?

/-- A side that has got `read` frames of what the other one wrote. -/
structure Receives (own remote : Introduction) (wire : List (ConduitMessage β)) (read : Nat) (n : Node β) :
    Prop where
  read_le : read ≤ wire.length
  opening : ∀ intro, n.state.channelState = .opening intro →
    intro = own ∧ (n.life = .running → n.pending = wire.take read)
  opened : ∀ channel, n.state.channelState = .opened channel →
    channel = channelId own.channelIdContribution remote.channelIdContribution ∧ 0 < read ∧
      (n.life = .running → ∀ frame ∈ n.pending, frame.IsContent)
  obedient : n.life ≠ .stopped .handshakeAfterHandshake ∧ n.life ≠ .stopped .contentBeforeHandshake
  minted : ∀ id ∈ n.minted,
    id.connectionKey = channelId own.channelIdContribution remote.channelIdContribution

section

variable {own remote : Introduction} {wire more : List (ConduitMessage β)} {read : Nat} {n n' : Node β}
  {l : Label β}

/-- What is posted from this side is no frame. -/
theorem frame?_of_posts {m : PortalActorMessage β} (h : l.posts m) : m.frame? = none := by
  cases l <;> cases m <;> first | rfl | cases h

namespace Receives

theorem quiet (h : Receives own remote wire read n) (hq : Quiet l n n') :
    Receives own remote wire read n' := by
  have hpending : n'.pending = n.pending := by
    obtain ⟨ms, hmail, hposts⟩ := hq.mailbox
    have hnone : ms.filterMap PortalActorMessage.frame? = [] :=
      List.filterMap_eq_nil_iff.mpr fun m hm => frame?_of_posts (hposts m hm)
    rw [Node.pending, hmail, List.filterMap_append, hnone, List.append_nil, Node.pending]
  have hminted : n'.minted = n.minted := by rw [Node.minted, hq.sent, hq.minted, Node.minted]
  constructor
  · exact h.read_le
  · rw [hq.state, hq.life, hpending]; exact h.opening
  · rw [hq.state, hq.life, hpending]; exact h.opened
  · rw [hq.life]; exact h.obedient
  · rw [hminted]; exact h.minted

/-- The other side writes more. -/
theorem extend (h : Receives own remote wire read n) : Receives own remote (wire ++ more) read n := by
  refine ⟨?_, ?_, h.opened, h.obedient, h.minted⟩
  · rw [List.length_append]; exact Nat.le_add_right_of_le h.read_le
  · rw [List.take_append_of_le_length h.read_le]; exact h.opening

/-- The next frame comes in. -/
theorem recv {frame : ConduitMessage β} (h : Receives own remote wire read n) (hwire : Writes remote wire)
    (hframe : wire[read]? = some frame) (hstep : Node.step (.recv (some frame)) n = some n') :
    Receives own remote wire (read + 1) n' := by
  obtain ⟨-, rfl⟩ := Node.recv_inv hstep
  obtain ⟨hlt, hget⟩ := List.getElem?_eq_some_iff.mp hframe
  obtain ⟨rest, hrest, hcontent⟩ := hwire
  have hbelow : 0 < read → frame.IsContent := by
    intro hpos
    obtain ⟨k, rfl⟩ := Nat.exists_eq_succ_of_ne_zero hpos.ne'
    rw [hrest] at hframe
    exact hcontent frame (List.mem_of_getElem? hframe)
  have hkind : frame = .handshake (some remote) ∨ frame.IsContent := by
    have hmem : frame ∈ wire := hget ▸ List.getElem_mem hlt
    rw [hrest] at hmem
    exact (List.mem_cons.mp hmem).imp id (hcontent frame)
  have hpending : n.life = .running → (n.receive (some frame)).pending = n.pending ++ [frame] := by
    intro hrun
    obtain rfl | hc := hkind
    · simp [Node.pending, Node.receive, Node.post, hrun, PortalActorMessage.frame?]
    · match frame, hc with
      | .content (some msg), _ =>
        simp [Node.pending, Node.receive, Node.post, hrun, PortalActorMessage.frame?]
  have hfields : (n.receive (some frame)).state = n.state ∧ (n.receive (some frame)).life = n.life ∧
      (n.receive (some frame)).minted = n.minted := by
    cases frame <;> exact ⟨rfl, rfl, rfl⟩
  obtain ⟨hstate, hlife, hminted⟩ := hfields
  constructor
  · exact hlt
  · rw [hstate, hlife]
    intro intro hopening
    obtain ⟨hintro, hp⟩ := h.opening intro hopening
    refine ⟨hintro, fun hrun => ?_⟩
    rw [hpending hrun, hp hrun, List.take_add_one, hframe]
    rfl
  · rw [hstate, hlife]
    intro channel hopened
    obtain ⟨hchannel, hpos, hp⟩ := h.opened channel hopened
    refine ⟨hchannel, Nat.succ_pos read, fun hrun f hf => ?_⟩
    rw [hpending hrun] at hf
    obtain hf | hf := List.mem_append.mp hf
    · exact hp hrun f hf
    · rw [List.mem_singleton.mp hf]; exact hbelow hpos
  · rw [hlife]; exact h.obedient
  · rw [hminted]; exact h.minted

/-- The stream ends. -/
theorem recv_end (h : Receives own remote wire read n) (hstep : Node.step (.recv none) n = some n') :
    Receives own remote wire read n' := by
  obtain ⟨-, rfl⟩ := Node.recv_inv hstep
  have hpending : (n.receive none).pending = n.pending := by
    simp only [Node.pending, Node.receive, Node.post, List.filterMap_append]
    split <;> simp [PortalActorMessage.frame?]
  exact ⟨h.read_le, hpending ▸ h.opening, hpending ▸ h.opened, h.obedient, h.minted⟩

theorem rebuildDone (h : Receives own remote wire read n) (hstep : Node.step .rebuildDone n = some n') :
    Receives own remote wire read n' := by
  obtain ⟨r, -, -, rfl⟩ := Node.rebuildDone_inv hstep
  obtain ⟨error, heq⟩ | ⟨body, -, -, heq⟩ := n.deliver_cases r
  · rw [heq]
    refine ⟨h.read_le, fun intro hopening => ⟨(h.opening intro hopening).1, by rintro ⟨⟩⟩,
      fun channel hopened => ?_, ⟨by rintro ⟨⟩, by rintro ⟨⟩⟩, h.minted⟩
    obtain ⟨hchannel, hpos, -⟩ := h.opened channel hopened
    exact ⟨hchannel, hpos, by rintro ⟨⟩⟩
  · rw [heq]
    exact ⟨h.read_le, h.opening, h.opened, h.obedient, h.minted⟩

/-- The first message of the mailbox is no frame out of order. -/
theorem head {m : PortalActorMessage β} {rest : List (PortalActorMessage β)}
    (h : Receives own remote wire read n) (hwire : Writes remote wire) (hrun : n.life = .running)
    (hmail : n.mailbox = m :: rest) :
    (∀ text, m = .handshake text →
      text = some remote ∧ 0 < read ∧ n.state.channelState = .opening own ∧
        ∀ frame ∈ rest.filterMap PortalActorMessage.frame?, frame.IsContent) ∧
    (∀ data, m = .content data → ∃ channel, n.state.channelState = .opened channel) := by
  obtain ⟨later, hlater, hcontent⟩ := hwire
  have hpending (frame : ConduitMessage β) (hm : m.frame? = some frame) :
      n.pending = frame :: rest.filterMap PortalActorMessage.frame? := by
    rw [Node.pending, hmail, List.filterMap_cons_some hm]
  cases hphase : n.state.channelState with
  | opening intro =>
    obtain ⟨rfl, hp⟩ := h.opening intro hphase
    have hfirst (frame : ConduitMessage β) (hm : m.frame? = some frame) :
        frame = .handshake (some remote) ∧ 0 < read ∧
          ∀ f ∈ rest.filterMap PortalActorMessage.frame?, f.IsContent := by
      have hcons := hpending frame hm
      rw [hp hrun, hlater] at hcons
      obtain _ | k := read
      · cases hcons
      · rw [List.take_succ_cons] at hcons
        injection hcons with hframe htail
        refine ⟨hframe.symm, Nat.succ_pos k, fun f hf => hcontent f ?_⟩
        rw [← htail] at hf
        exact List.mem_of_mem_take hf
    constructor
    · intro text hm
      subst hm
      obtain ⟨hframe, hpos, hrest⟩ := hfirst _ rfl
      cases hframe
      exact ⟨rfl, hpos, rfl, hrest⟩
    · intro data hm
      subst hm
      obtain ⟨hframe, -, -⟩ := hfirst _ rfl
      cases hframe
  | opened channel =>
    obtain ⟨-, -, hp⟩ := h.opened channel hphase
    refine ⟨fun text hm => ?_, fun data hm => ⟨channel, rfl⟩⟩
    subst hm
    have : (ConduitMessage.handshake text : ConduitMessage β) ∈ n.pending := by
      rw [hpending _ rfl]; exact List.mem_cons_self
    exact (hp hrun _ this).elim

/-- The frames that are left after the first message are among those that were pending. -/
theorem pending_tail {m : PortalActorMessage β} {rest : List (PortalActorMessage β)}
    (hmail : n.mailbox = m :: rest) {frame : ConduitMessage β}
    (hf : frame ∈ rest.filterMap PortalActorMessage.frame?) : frame ∈ n.pending := by
  rw [Node.pending, hmail]
  cases hm : m.frame? with
  | none => rwa [List.filterMap_cons_none hm]
  | some f => rw [List.filterMap_cons_some hm]; exact List.mem_cons_of_mem f hf

/-- **A turn of an honest portal's peer.** -/
theorem handle {uuid : OpaqueActorId} {nexus : Option (Option ActorId)} {sink : SinkResult}
    (h : Receives own remote wire read n) (hwire : Writes remote wire)
    (hstep : Node.step (.handle uuid nexus sink) n = some n') : Receives own remote wire read n' := by
  obtain ⟨⟨hrun, -⟩, m, rest, hmail, rfl⟩ := Node.handle_inv hstep
  obtain ⟨hhandshake, hcontent⟩ := h.head hwire hrun hmail
  set env := n.env uuid nexus sink
  -- what is left in the mailbox, while the portal still runs
  have hrest (hrun' : ((n.takeTurn m rest (Portal.handle env n.state m)).endTurn
        (Portal.handle env n.state m).outcome).life = .running) :
      ((n.takeTurn m rest (Portal.handle env n.state m)).endTurn
        (Portal.handle env n.state m).outcome).pending = rest.filterMap PortalActorMessage.frame? := by
    obtain ⟨rebuilding, heq⟩ := Node.endTurn_of_running _ _ hrun'
    rw [heq]
    rfl
  constructor
  · exact h.read_le
  · rw [Node.endTurn_state]
    intro intro hopening
    obtain hsame | ⟨_, _, -, -, hopened⟩ := handle_channelState env n.state m
    · have hphase : n.state.channelState = .opening intro := hsame ▸ hopening
      obtain ⟨hintro, hp⟩ := h.opening intro hphase
      refine ⟨hintro, fun hrun' => ?_⟩
      rw [hrest hrun', ← hp hrun, Node.pending, hmail]
      -- a frame would have opened the portal
      cases m with
      | handshake text =>
        obtain ⟨rfl, -, -⟩ := hhandshake text rfl
        have : (Portal.handle env n.state (.handshake (β := β) (some remote))).state.channelState =
            .opened (channelId intro.channelIdContribution remote.channelIdContribution) := by
          simp only [Portal.handle, handleHandshake, hphase]
        rw [hsame, hphase] at this
        cases this
      | content data =>
        obtain ⟨channel, hopened⟩ := hcontent data rfl
        rw [hphase] at hopened
        cases hopened
      | _ => rfl
    · exact absurd (hopened.symm.trans hopening) (by simp)
  · rw [Node.endTurn_state]
    intro channel hopened
    obtain hsame | ⟨_, r, hphase, hm, heq⟩ := handle_channelState env n.state m
    · obtain ⟨hchannel, hpos, hp⟩ := h.opened channel (hsame ▸ hopened)
      refine ⟨hchannel, hpos, fun hrun' frame hf => ?_⟩
      rw [hrest hrun'] at hf
      exact hp hrun frame (pending_tail hmail hf)
    · obtain ⟨hr, hpos, hown, htail⟩ := hhandshake _ hm
      cases hr
      rw [hphase] at hown
      cases hown
      refine ⟨?_, hpos, fun hrun' frame hf => htail frame (hrest hrun' ▸ hf)⟩
      exact PortalConduitState.opened.inj (hopened.symm.trans heq)
  · have hend := handle_ends env n.state m
    cases hout : (Portal.handle env n.state m).outcome with
    | ok =>
      show n.life ≠ _ ∧ n.life ≠ _
      exact h.obedient
    | rematerialize actor data =>
      show n.life ≠ _ ∧ n.life ≠ _
      exact h.obedient
    | err error => exact ⟨by rintro ⟨⟩, by rintro ⟨⟩⟩
    | stop reason =>
      rw [hout] at hend
      cases hend with
      | handshakeAfterHandshake channel text hopen =>
        obtain ⟨-, -, hopening, -⟩ := hhandshake text rfl
        rw [hopen] at hopening
        cases hopening
      | contentBeforeHandshake i data hopening =>
        obtain ⟨channel, hopen⟩ := hcontent data rfl
        rw [hopen] at hopening
        cases hopening
      | close => exact ⟨by rintro ⟨⟩, by rintro ⟨⟩⟩
  · intro id hid
    have hnew (h' : id ∈ (Portal.handle env n.state m).minted) : id.connectionKey =
        channelId own.channelIdContribution remote.channelIdContribution := by
      obtain ⟨channel, opaqueId, hopen, rfl⟩ := handle_minted h'
      exact (h.opened channel hopen).1
    exact (Node.mem_minted_endTurn.mp hid).elim (h.minted id) hnew

/-- **Every step of a side.** -/
theorem step (h : Receives own remote wire read n) (hwire : Writes remote wire)
    (hl : ∀ frame, l ≠ .recv (some frame)) (hstep : Node.step l n = some n') :
    Receives own remote wire read n' := by
  cases hpump : l.isPump with
  | false => exact h.quiet (Node.quiet_of_step hpump hstep)
  | true =>
    cases l with
    | recv frame =>
      cases frame with
      | none => exact h.recv_end hstep
      | some frame => exact absurd rfl (hl frame)
    | handle uuid nexus sink => exact h.handle hwire hstep
    | rebuildDone => exact h.rebuildDone hstep
    | _ => cases hpump

end Receives

end

/-! ## The two sides -/

/-- What holds of two honest portals, whatever has happened. -/
structure Pair.Agrees (setup : Side → Setup) (p : Pair β) : Prop where
  writes : ∀ s, Writes (setup s).introduction (p.node s).sent
  receives : ∀ s, Receives (setup s).introduction (setup s.other).introduction (p.node s.other).sent
    (p.read s) (p.node s)

namespace Pair

variable {setup : Side → Setup}

theorem agrees_started : (Pair.started (β := β) setup).Agrees setup := by
  constructor
  · intro s
    exact ⟨[], rfl, by simp⟩
  · intro s
    refine ⟨Nat.zero_le _, ?_, ?_, ⟨by rintro ⟨⟩, by rintro ⟨⟩⟩, ?_⟩
    · intro intro hopening
      cases hopening
      exact ⟨rfl, fun _ => rfl⟩
    · rintro channel ⟨⟩
    · rintro id ⟨⟩

theorem Agrees.step {l : PairLabel β} {p q : Pair β} (h : p.Agrees setup) (hstep : Pair.step l p = some q) :
    q.Agrees setup := by
  obtain ⟨s, label, hnode, hother, hread, hrecv⟩ := Pair.step_inv hstep
  obtain ⟨more, hsent, hcontent⟩ := Node.sent_of_step hnode
  constructor
  · intro t
    obtain rfl | rfl := s.eq_or_other t
    · obtain ⟨rest, hrest, hc⟩ := h.writes t
      refine ⟨rest ++ more, by rw [hsent, hrest]; rfl, fun frame hf => ?_⟩
      exact (List.mem_append.mp hf).elim (hc frame) (hcontent frame)
    · rw [hother]; exact h.writes s.other
  · intro t
    obtain rfl | rfl := s.eq_or_other t
    · rw [hother]
      obtain ⟨frame, rfl, hframe, hr⟩ | ⟨hr, hl⟩ := hrecv
      · rw [hr]; exact (h.receives t).recv (h.writes t.other) hframe hnode
      · rw [hr]; exact (h.receives t).step (h.writes t.other) hl hnode
    · have hrec := h.receives s.other
      rw [Side.other_other] at hrec ⊢
      rw [hother, hread, hsent]
      exact hrec.extend

theorem agrees_of_run {ls : List (PairLabel β)} {p : Pair β}
    (hrun : Transition.Run Pair.step Transition.Any ls (Pair.started setup) p) : p.Agrees setup :=
  hrun.invariant (fun _ _ _ h _ hstep => h.step hstep) agrees_started

/-- **Two honest portals never break the protocol, and agree on their channel.** In every run, however the
    steps of the two sides interleave: neither portal has been stopped for a violation; if both are open
    their channel ids are equal; and every id that either side has handed out carries the channel id of
    any side that is open. -/
theorem honest_handshake (setup : Side → Setup) (ls : List (PairLabel β)) (p : Pair β)
    (hrun : Transition.Run Pair.step Transition.Any ls (Pair.started setup) p) :
    (∀ s, (p.node s).life ≠ .stopped .handshakeAfterHandshake ∧
      (p.node s).life ≠ .stopped .contentBeforeHandshake) ∧
    (∀ c d, (p.node .left).state.channelState = .opened c →
      (p.node .right).state.channelState = .opened d → c = d) ∧
    (∀ s c, (p.node s).state.channelState = .opened c →
      ∀ t, ∀ id ∈ (p.node t).minted, id.connectionKey = c) := by
  have hagrees := agrees_of_run hrun
  have hkey (s t : Side) :
      channelId (setup s).introduction.channelIdContribution
        (setup s.other).introduction.channelIdContribution =
      channelId (setup t).introduction.channelIdContribution
        (setup t.other).introduction.channelIdContribution := by
    cases s <;> cases t <;> first | rfl | exact channelId_comm _ _
  have hopened (s : Side) (c : ConduitID) (h : (p.node s).state.channelState = .opened c) :
      c = _ := ((hagrees.receives s).opened c h).1
  refine ⟨fun s => (hagrees.receives s).obedient, fun c d hc hd => ?_, fun s c hc t id hid => ?_⟩
  · rw [hopened _ c hc, hopened _ d hd, hkey]
  · rw [hopened s c hc, (hagrees.receives t).minted id hid, hkey]

/-- The left side opens and publishes its actor 0 before the right one has read anything, and asks for a name
    that the right one's nexus knows. -/
def meeting : List (PairLabel Nat) :=
  [.receive .left, .move .left (.handle ⟨7⟩ none .flushed),
   .move .left (.request (.publishActor 0 true)), .move .left (.handle ⟨8⟩ none .flushed),
   .move .left (.request (.queryNamedRemoteActor "greeter")), .move .left (.handle ⟨9⟩ none .flushed),
   .receive .right, .receive .right,
   .move .right (.handle ⟨7⟩ none .flushed), .move .right (.handle ⟨8⟩ (some (some 1)) .flushed)]

theorem honest_handshake_meeting : ∃ p, Transition.exec Pair.step meeting (Pair.started twoSides) = some p ∧
    (p.node .left).minted ≠ [] ∧ (p.node .right).minted ≠ [] ∧
    ∀ s, ∀ id ∈ (p.node s).minted, id.connectionKey = ⟨0x06060606060606060606060606060606⟩ := by
  have heval : (Transition.exec Pair.step meeting (Pair.started twoSides)).map (fun p =>
      ((p.node .left).state.channelState, (p.node .left).minted.length, (p.node .right).minted.length)) =
      some (.opened ⟨0x06060606060606060606060606060606⟩, 1, 1) := by
    decide +kernel
  obtain ⟨p, hp, hfacts⟩ := Option.map_eq_some_iff.mp heval
  injection hfacts with hopen hlengths
  injection hlengths with hleft hright
  obtain ⟨-, -, hkeys⟩ := honest_handshake twoSides meeting p (Transition.run_of_exec hp)
  exact ⟨p, hp, List.ne_nil_of_length_pos (by omega), List.ne_nil_of_length_pos (by omega),
    hkeys .left _ hopen⟩

end Pair
end Portal
end Wormhole
