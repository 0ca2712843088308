import Wormhole.Portal.Pair

/-!
# `Portal.ExitNotice` — the exit of a published actor is announced once

Publishing an actor anew starts one task that waits for its exit, and an actor is in the registry once. So
for each published actor there is one token: the waiting task, then its `LocalActorExited` in the mailbox,
then that message among those handled. A token that is handled while the portal is open becomes one
`ActorExited` frame, and one that is handled before the handshake is lost. `Ledger` keeps these books.
-/

namespace Wormhole
namespace Portal

variable {β : Type}

/-! ## The books -/

/-- **One token for each published actor**, and for each token that has been handled one frame or a loss. -/
structure Ledger (registry : HashMap OpaqueActorId ActorId) (waiting handled lost : ActorId → Nat)
    (frames : OpaqueActorId → Nat) : Prop where
  distinct : ∀ id id' actor, registry.lookup id = some actor → registry.lookup id' = some actor → id = id'
  published : ∀ id actor, registry.lookup id = some actor → waiting actor + handled actor = 1
  unpublished : ∀ actor, (∀ id, registry.lookup id ≠ some actor) →
    waiting actor = 0 ∧ handled actor = 0 ∧ lost actor = 0
  announced : ∀ id actor, registry.lookup id = some actor → frames id + lost actor = handled actor
  unannounced : ∀ id, registry.lookup id = none → frames id = 0

namespace Ledger

variable {registry : HashMap OpaqueActorId ActorId} {waiting waiting' handled handled' lost : ActorId → Nat}
  {frames frames' : OpaqueActorId → Nat} {id : OpaqueActorId} {actor : ActorId}

theorem empty : Ledger ∅ (fun _ => 0) (fun _ => 0) (fun _ => 0) (fun _ => 0) := by
  constructor
  · rintro _ _ _ ⟨⟩
  · rintro _ _ ⟨⟩
  · exact fun _ _ => ⟨rfl, rfl, rfl⟩
  · rintro _ _ ⟨⟩
  · exact fun _ _ => rfl

theorem congr (h : Ledger registry waiting handled lost frames) (hwaiting : ∀ b, waiting' b = waiting b)
    (hhandled : ∀ b, handled' b = handled b) (hframes : ∀ i, frames' i = frames i) :
    Ledger registry waiting' handled' lost frames' := by
  rwa [funext hwaiting, funext hhandled, funext hframes]

/-- An actor that is not published yet is published and gets its token. -/
theorem publish (h : Ledger registry waiting handled lost frames) (hid : registry.lookup id = none)
    (hactor : ∀ i, registry.lookup i ≠ some actor)
    (hwaiting : ∀ b, waiting' b = waiting b + if b = actor then 1 else 0) :
    Ledger (registry.insert id actor) waiting' handled lost frames := by
  obtain ⟨hzero, hzero', hzero''⟩ := h.unpublished actor hactor
  have hlook (i : OpaqueActorId) (b : ActorId) (hi : (registry.insert id actor).lookup i = some b) :
      i = id ∧ b = actor ∨ b ≠ actor ∧ i ≠ id ∧ registry.lookup i = some b := by
    rw [HashMap.lookup_insert_eq] at hi
    split at hi
    · rename_i heq
      exact .inl ⟨heq, (Option.some.inj hi).symm⟩
    · rename_i hne
      exact .inr ⟨fun hb => hactor i (hb ▸ hi), hne, hi⟩
  constructor
  · intro i j b hi hj
    obtain ⟨rfl, rfl⟩ | ⟨hb, -, hi⟩ := hlook i b hi
    · obtain ⟨rfl, -⟩ | ⟨hb, -⟩ := hlook j _ hj
      · rfl
      · exact absurd rfl hb
    · obtain ⟨-, rfl⟩ | ⟨-, -, hj⟩ := hlook j b hj
      · exact absurd rfl hb
      · exact h.distinct i j b hi hj
  · intro i b hi
    rw [hwaiting]
    obtain ⟨rfl, rfl⟩ | ⟨hb, -, hi⟩ := hlook i b hi
    · rw [hzero, hzero', if_pos rfl]
    · rw [if_neg hb]; exact h.published i b hi
  · intro b hb
    have hne : b ≠ actor := by
      rintro rfl
      exact hb id (AList.lookup_insert _)
    rw [hwaiting, if_neg hne]
    refine h.unpublished b fun i hi => hb i ?_
    rw [HashMap.lookup_insert_eq, if_neg, hi]
    rintro rfl
    rw [hid] at hi
    cases hi
  · intro i b hi
    obtain ⟨rfl, rfl⟩ | ⟨-, -, hi⟩ := hlook i b hi
    · rw [h.unannounced _ hid, hzero', hzero'']
    · exact h.announced i b hi
  · intro i hi
    rw [HashMap.lookup_insert_eq] at hi
    split at hi
    · cases hi
    · exact h.unannounced i hi

/-- A token of a published actor is handled: it is announced or lost. -/
theorem handle (h : Ledger registry waiting handled lost frames) (hid : registry.lookup id = some actor)
    (announced : Bool) (hwaiting : ∀ b, waiting b = waiting' b + if b = actor then 1 else 0)
    (hhandled : ∀ b, handled' b = handled b + if b = actor then 1 else 0)
    (hframes : ∀ i, frames' i = frames i + if announced ∧ i = id then 1 else 0) :
    Ledger registry waiting' handled' (fun b => lost b + if ¬announced ∧ b = actor then 1 else 0) frames' := by
  have hactor (b : ActorId) (hb : ∀ i, registry.lookup i ≠ some b) : b ≠ actor := by
    rintro rfl
    exact hb id hid
  constructor
  · exact h.distinct
  · intro i b hi
    have := h.published i b hi
    rw [hwaiting] at this
    rw [hhandled]
    omega
  · intro b hb
    have := h.unpublished b hb
    rw [hwaiting, if_neg (hactor b hb)] at this
    rw [hhandled, if_neg (hactor b hb), if_neg fun hand => hactor b hb hand.2]
    exact this
  · intro i b hi
    have hiff : i = id ↔ b = actor := by
      constructor
      · rintro rfl
        rw [hid] at hi
        exact (Option.some.inj hi).symm
      · rintro rfl
        exact h.distinct i id b hi hid
    have := h.announced i b hi
    simp only [hframes, hhandled, hiff]
    cases announced <;> simp <;> omega
  · intro i hi
    have hne : i ≠ id := by
      rintro rfl
      rw [hid] at hi
      cases hi
    rw [hframes, if_neg fun hand => hne hand.2]
    exact h.unannounced i hi

end Ledger

/-! ## The books of a side -/

/-- `LocalActorExited(actor)`. -/
def PortalActorMessage.isExitOf (actor : ActorId) : PortalActorMessage β → Bool
  | .localActorExited actor' => actor' == actor
  | _ => false

/-- `ActorExited` for an opaque id. -/
def ConduitMessage.announces (id : OpaqueActorId) : ConduitMessage β → Bool
  | .content (some (.actorExited remote)) => remote.id == id
  | _ => false

/-- How many messages say that `actor` has exited. -/
def exits (actor : ActorId) (ms : List (PortalActorMessage β)) : Nat := ms.countP (·.isExitOf actor)

/-- How many frames say that the actor published as `id` has exited. -/
def announcements (id : OpaqueActorId) (frames : List (ConduitMessage β)) : Nat :=
  frames.countP (·.announces id)

/-- The books of a side, in which the tokens that were `lost` are written down. -/
def Node.Accounted (n : Node β) (lost : ActorId → Nat) : Prop :=
  Ledger n.state.publishedActors (fun b => n.watchers.count b + exits b n.mailbox)
    (fun b => exits b n.handled) lost (fun id => announcements id n.sent)

/-- The exit of `actor` is not handled before the handshake. -/
def ExitsWhenOpen (actor : ActorId) (l : Label β) (n : Node β) : Prop :=
  ∀ uuid nexus sink rest, l = .handle uuid nexus sink → n.mailbox = .localActorExited actor :: rest →
    ∃ channel, n.state.channelState = .opened channel

section

variable {l : Label β} {n n' : Node β} {actor : ActorId} {lost : ActorId → Nat}

theorem exits_append (ms ms' : List (PortalActorMessage β)) :
    exits actor (ms ++ ms') = exits actor ms + exits actor ms' := List.countP_append

theorem exits_singleton (actor b : ActorId) :
    exits b [(.localActorExited actor : PortalActorMessage β)] = if b = actor then 1 else 0 := by
  rw [exits, List.countP_singleton, PortalActorMessage.isExitOf]
  by_cases h : b = actor
  · simp [h]
  · simp [h, Ne.symm h]

theorem exits_eq_zero {ms : List (PortalActorMessage β)} (h : ∀ m ∈ ms, m.isExitOf actor = false) :
    exits actor ms = 0 := by
  rw [exits, List.countP_eq_zero]
  intro m hm
  simp [h m hm]

/-- Only the task that waits for an actor reports its exit. -/
theorem isExitOf_of_posts {m : PortalActorMessage β} (h : l.posts m)
    (hl : ∀ actor, l ≠ .notify actor) : m.isExitOf actor = false := by
  cases m with
  | localActorExited actor' =>
    cases l with
    | notify actor => exact absurd rfl (hl actor)
    | _ => cases h
  | _ => rfl

namespace Node.Accounted

/-- The token moves from the waiting task to the mailbox. -/
theorem notify (h : n.Accounted lost) (hrun : n.life = .running) (hstep : Node.step (.notify actor) n = some n') :
    n'.Accounted lost := by
  obtain ⟨⟨hwaits, -⟩, rfl⟩ := Node.notify_inv hstep
  refine h.congr (fun b => ?_) (fun _ => rfl) (fun _ => rfl)
  have hpos : 0 < n.watchers.count actor := List.count_pos_iff.mpr hwaits
  show (n.watchers.erase actor).count b +
    exits b (n.mailbox ++ if n.life = .running then [.localActorExited actor] else []) = _
  rw [if_pos hrun, exits_append, exits_singleton]
  by_cases hb : b = actor
  · subst hb
    rw [List.count_erase_self, if_pos rfl]
    omega
  · rw [List.count_erase_of_ne hb, if_neg hb, Nat.add_zero]

theorem quiet (h : n.Accounted lost) (hrun : n.life = .running) (hl : l.isPump = false)
    (hstep : Node.step l n = some n') : n'.Accounted lost := by
  by_cases hnotify : ∃ actor, l = .notify actor
  · obtain ⟨actor, rfl⟩ := hnotify
    exact h.notify hrun hstep
  · have hne : ∀ actor, l ≠ .notify actor := fun actor heq => hnotify ⟨actor, heq⟩
    have hq := Node.quiet_of_step hl hstep
    obtain ⟨ms, hmail, hposts⟩ := hq.mailbox
    unfold Node.Accounted
    rw [hq.state, hq.sent, hq.handled, hq.watchers hne, hmail]
    refine h.congr (fun b => ?_) (fun _ => rfl) (fun _ => rfl)
    rw [exits_append, exits_eq_zero fun m hm => isExitOf_of_posts (hposts m hm) hne, Nat.add_zero]

theorem recv {frame : Option (ConduitMessage β)} (h : n.Accounted lost)
    (hstep : Node.step (.recv frame) n = some n') : n'.Accounted lost := by
  obtain ⟨-, rfl⟩ := Node.recv_inv hstep
  have hpost (m : PortalActorMessage β) (hm : ∀ b, m.isExitOf b = false) (b : ActorId) :
      n.watchers.count b + exits b (n.post m).mailbox = n.watchers.count b + exits b n.mailbox := by
    simp only [Node.post, exits_append]
    split <;> simp [exits, hm]
  obtain _ | _ | _ | _ := frame <;> exact h.congr (hpost _ fun _ => rfl) (fun _ => rfl) (fun _ => rfl)

theorem rebuildDone (h : n.Accounted lost) (hrun' : n'.life = .running)
    (hstep : Node.step .rebuildDone n = some n') : n'.Accounted lost := by
  obtain ⟨r, -, -, rfl⟩ := Node.rebuildDone_inv hstep
  obtain ⟨body, heq⟩ := Node.deliver_of_running n hrun'
  rw [heq]
  exact h

/-- A turn that handles no exit publishes at most. -/
theorem turn (h : n.Accounted lost) {m : PortalActorMessage β} {rest : List (PortalActorMessage β)}
    {env : HandleEnv} (rebuilding : Option (Rebuilding β)) (hmail : n.mailbox = m :: rest)
    (huuid : n.state.publishedActors.lookup env.uuid = none) (hexit : ∀ b, m.isExitOf b = false) :
    ({ n.takeTurn m rest (Portal.handle env n.state m) with rebuilding } : Node β).Accounted lost := by
  set turn := Portal.handle env n.state m
  have hone (b : ActorId) : exits b [m] = 0 := exits_eq_zero (by simpa using hexit b)
  have hrest (b : ActorId) : exits b n.mailbox = exits b rest := by
    rw [hmail, ← List.singleton_append, exits_append, hone, Nat.zero_add]
  have hhandled (b : ActorId) : exits b (n.handled ++ [m]) = exits b n.handled := by
    rw [exits_append, hone, Nat.add_zero]
  have hframes (id : OpaqueActorId) :
      announcements id (n.sent ++ turn.frames.map fun msg => .content (some msg)) =
        announcements id n.sent := by
    rw [announcements, List.countP_append]
    refine Nat.add_eq_left.mpr (List.countP_eq_zero.mpr ?_)
    intro frame hframe
    obtain ⟨msg, hmsg, rfl⟩ := List.mem_map.mp hframe
    -- only the handler of an exit announces one
    cases handle_causes (mem_frames hmsg) with
    | exit _ actor _ _ _ => simpa [PortalActorMessage.isExitOf] using hexit actor
    | _ => simp [ConduitMessage.announces]
  show Ledger turn.state.publishedActors
    (fun b => (n.watchers ++ turn.watched).count b + exits b rest)
    (fun b => exits b (n.handled ++ [m])) lost
    (fun id => announcements id (n.sent ++ turn.frames.map fun msg => .content (some msg)))
  have hpub : Publishes env.uuid n.state.publishedActors turn.state.publishedActors turn.watched :=
    handle_published env n.state m
  generalize turn.state.publishedActors = after at hpub ⊢
  generalize turn.watched = new at hpub ⊢
  cases hpub with
  | known =>
    refine h.congr (fun b => ?_) hhandled hframes
    rw [List.append_nil, hrest]
  | new actor hnew =>
    refine (h.publish huuid hnew fun b => ?_).congr (fun _ => rfl) hhandled hframes
    rw [List.count_append, hrest, List.count_singleton]
    simp only [beq_iff_eq, eq_comm (a := actor)]
    omega

/-- The exit of an actor is handled: it is lost exactly if the portal is still opening. -/
theorem exit (h : n.Accounted lost) {rest : List (PortalActorMessage β)} {env : HandleEnv}
    (rebuilding : Option (Rebuilding β)) (hmail : n.mailbox = .localActorExited actor :: rest)
    (opened : Bool) (hopened : opened = true ↔ ∃ channel, n.state.channelState = .opened channel)
    (hok : (Portal.handle (β := β) env n.state (.localActorExited actor)).outcome = .ok) :
    ({ n.takeTurn (.localActorExited actor) rest
        (Portal.handle env n.state (.localActorExited actor)) with rebuilding } : Node β).Accounted
      fun b => lost b + if ¬opened ∧ b = actor then 1 else 0 := by
  have hwaiting (b : ActorId) : n.watchers.count b + exits b n.mailbox =
      n.watchers.count b + exits b rest + if b = actor then 1 else 0 := by
    rw [hmail, ← List.singleton_append, exits_append, exits_singleton]
    omega
  have hhandled (b : ActorId) : exits b (n.handled ++ [(.localActorExited actor : PortalActorMessage β)]) =
      exits b n.handled + if b = actor then 1 else 0 := by
    rw [exits_append, exits_singleton]
  -- a token that is in the mailbox belongs to an actor that is published
  obtain ⟨id, hfind⟩ : ∃ id, n.state.publishedActors.findKey? (· == actor) = some id := by
    by_contra hnone
    have hnot : ∀ i, n.state.publishedActors.lookup i ≠ some actor := fun i hi =>
      hnone (HashMap.findKey?_isSome hi (beq_self_eq_true actor))
    have hzero := (h.unpublished actor hnot).1
    simp only [hwaiting, if_true] at hzero
    omega
  have hid : n.state.publishedActors.lookup id = some actor := by
    obtain ⟨b, hlook, hb⟩ := HashMap.findKey?_eq_some hfind
    rwa [beq_iff_eq.mp hb] at hlook
  cases hphase : n.state.channelState with
  | opening intro =>
    obtain rfl : opened = false := by
      rw [Bool.eq_false_iff, Ne, hopened, hphase]
      rintro ⟨channel, ⟨⟩⟩
    have hhandle : Portal.handle (β := β) env n.state (.localActorExited actor) = { state := n.state } := by
      simp only [Portal.handle, handleLocalActorExited, hphase]
    rw [hhandle]
    show Ledger n.state.publishedActors (fun b => (n.watchers ++ []).count b + exits b rest)
      (fun b => exits b (n.handled ++ [_])) _ (fun i => announcements i (n.sent ++ []))
    simp only [List.append_nil]
    exact Ledger.handle h hid false hwaiting hhandled fun i => by simp
  | opened channel =>
    obtain rfl : opened = true := hopened.mpr ⟨channel, hphase⟩
    have hhandle : Portal.handle (β := β) env n.state (.localActorExited actor) =
        sending env n.state [] (.actorExited (n.state.mint channel id)) := by
      simp only [Portal.handle, handleLocalActorExited, hphase, hfind]
    rw [hhandle] at hok ⊢
    have hsink : env.sink ≠ .refused := by
      intro hrefused
      simp [sending, hrefused] at hok
    have hframes : (sending (β := β) env n.state [] (.actorExited (n.state.mint channel id))).frames =
        [.actorExited (n.state.mint channel id)] := by
      simp [Turn.frames, hsink, Effect.frame?]
    show Ledger (sending env n.state [] _).state.publishedActors
      (fun b => (n.watchers ++ (sending env n.state [] _).watched).count b + exits b rest)
      (fun b => exits b (n.handled ++ [_])) _ (fun i => announcements i
        (n.sent ++ (sending env n.state [] _).frames.map fun msg => .content (some msg)))
    rw [sending_state, watched_sending, hframes, List.filterMap_nil, List.append_nil]
    refine Ledger.handle h hid true hwaiting hhandled fun i => ?_
    rw [announcements, List.countP_append, List.map_singleton, List.countP_singleton]
    by_cases hi : i = id
    · simp [hi, ConduitMessage.announces, PortalActorState.mint, announcements]
    · simp [hi, Ne.symm hi, ConduitMessage.announces, PortalActorState.mint, announcements]

/-- **Every step of a portal that keeps running.** A step loses the token of an actor exactly if it
    handles its exit before the handshake. -/
theorem step (h : n.Accounted lost) (actor : ActorId) (hstep : Node.step l n = some n')
    (hrun' : n'.life = .running) :
    ∃ lost', n'.Accounted lost' ∧ (ExitsWhenOpen actor l n → lost' actor = lost actor) ∧
      (¬ExitsWhenOpen actor l n → lost' actor = lost actor + 1) := by
  have hrun := Node.life_of_step hstep hrun'
  -- a step that handles no exit loses nothing
  have hkeep (hacc : n'.Accounted lost)
      (hl : ∀ uuid nexus sink, l = .handle uuid nexus sink → ∀ b rest, n.mailbox ≠ .localActorExited b :: rest) :
      ∃ lost', n'.Accounted lost' ∧ (ExitsWhenOpen actor l n → lost' actor = lost actor) ∧
        (¬ExitsWhenOpen actor l n → lost' actor = lost actor + 1) :=
    ⟨lost, hacc, fun _ => rfl, fun hnot => absurd (fun _ _ _ rest heq hmail =>
      absurd hmail (hl _ _ _ heq actor rest)) hnot⟩
  cases hl : l.isPump with
  | false => exact hkeep (h.quiet hrun hl hstep) (by rintro _ _ _ rfl; cases hl)
  | true =>
    cases l with
    | recv frame => exact hkeep (h.recv hstep) (by simp)
    | rebuildDone => exact hkeep (h.rebuildDone hrun' hstep) (by simp)
    | handle uuid nexus sink =>
      obtain ⟨⟨-, -, huuid, -⟩, m, rest, hmail, rfl⟩ := Node.handle_inv hstep
      obtain ⟨rebuilding, heq⟩ := Node.endTurn_of_running _ _ hrun'
      rw [heq] at hkeep ⊢
      by_cases hexit : ∃ b, m = .localActorExited b
      · obtain ⟨b, rfl⟩ := hexit
        have hok : (Portal.handle (n.env uuid nexus sink) n.state
            (.localActorExited (β := β) b)).outcome = .ok := by
          generalize hout : (Portal.handle (n.env uuid nexus sink) n.state
            (.localActorExited (β := β) b)).outcome = outcome at hrun'
          have hend := handle_ends (β := β) (n.env uuid nexus sink) n.state (.localActorExited b)
          rw [hout] at hend
          cases hend with
          | ok => rfl
          | err => cases hrun'
        classical
        refine ⟨_, h.exit rebuilding hmail (decide (∃ channel, n.state.channelState = .opened channel))
          decide_eq_true_iff hok, fun hgood => ?_, fun hbad => ?_⟩
        · show lost actor + ite _ _ _ = _
          rw [if_neg, Nat.add_zero]
          rintro ⟨hclosed, rfl⟩
          exact hclosed (decide_eq_true (hgood _ _ _ rest rfl hmail))
        · show lost actor + ite _ _ _ = _
          rw [if_pos]
          refine ⟨fun hopen => hbad fun _ _ _ _ _ _ => of_decide_eq_true hopen, ?_⟩
          by_contra hne
          refine hbad fun _ _ _ rest' _ hmail' => absurd ?_ hne
          rw [hmail] at hmail'
          cases hmail'
          rfl
      · refine hkeep (h.turn rebuilding hmail huuid fun b => ?_) ?_
        · cases m with
          | localActorExited b => exact absurd ⟨b, rfl⟩ hexit
          | _ => rfl
        · rintro _ _ _ - b rest' hmail'
          rw [hmail] at hmail'
          cases hmail'
          exact hexit ⟨b, rfl⟩
    | _ => cases hl

theorem started (setup : Setup) : (Node.started (β := β) setup).Accounted fun _ => 0 :=
  Ledger.empty

end Node.Accounted

/-! ## Runs -/

/-- **The run lemma.** The token of `actor` is lost in a run exactly if the run handles its exit before the
    handshake. -/
theorem accounted_of_run {ls : List (Label β)} (hrun : Transition.Run Node.step Transition.Any ls n n')
    (h : n.Accounted lost) (actor : ActorId) (hlife : n'.life = .running) :
    ∃ lost', n'.Accounted lost' ∧ lost actor ≤ lost' actor ∧
      (lost' actor = lost actor ↔ Transition.Run Node.step (ExitsWhenOpen actor) ls n n') := by
  induction hrun generalizing lost with
  | nil n => exact ⟨lost, h, le_rfl, iff_of_true rfl (.nil n)⟩
  | @cons l ls s t u _ hstep hrest ih =>
    obtain ⟨lost₁, hacc₁, hgood₁, hbad₁⟩ := h.step actor hstep (Node.life_of_run hrest hlife)
    obtain ⟨lost₂, hacc₂, hle, hiff⟩ := ih hacc₁ hlife
    refine ⟨lost₂, hacc₂, ?_⟩
    by_cases hgood : ExitsWhenOpen actor l s
    · rw [hgood₁ hgood] at hle hiff
      refine ⟨hle, hiff.trans ⟨fun hrest' => .cons hgood hstep hrest', fun hrun' => ?_⟩⟩
      obtain _ | ⟨_, hstep', hrest'⟩ := hrun'
      rw [hstep] at hstep'
      cases hstep'
      exact hrest'
    · rw [hbad₁ hgood] at hle
      refine ⟨by omega, iff_of_false (by omega) fun hrun' => ?_⟩
      obtain _ | ⟨hgood', -, -⟩ := hrun'
      exact hgood hgood'

end

/-- **When the exit of a published actor is announced.** In every run of a portal, once the exit of an actor
    that is published as `id` has been handled, exactly one frame with `id` has been sent if and only if no
    step of the run handled that exit before the handshake. -/
theorem exit_announced_once_iff (setup : Setup) (ls : List (Label β)) (n : Node β)
    (hrun : Transition.Run Node.step Transition.Any ls (Node.started setup) n) (hlife : n.life = .running)
    (id : OpaqueActorId) (actor : ActorId) (hpublished : n.state.publishedActors.lookup id = some actor)
    (hhandled : .localActorExited actor ∈ n.handled) :
    announcements id n.sent = 1 ↔
      Transition.Run Node.step (ExitsWhenOpen actor) ls (Node.started setup) n := by
  obtain ⟨lost, hacc, -, hiff⟩ := accounted_of_run hrun (Node.Accounted.started setup) actor hlife
  have hpos : 0 < exits actor n.handled :=
    List.countP_pos_iff.mpr ⟨_, hhandled, beq_self_eq_true actor⟩
  have hone : n.watchers.count actor + exits actor n.mailbox + exits actor n.handled = 1 :=
    hacc.published id actor hpublished
  have hframes : announcements id n.sent + lost actor = exits actor n.handled :=
    hacc.announced id actor hpublished
  rw [← hiff]
  omega

/-- Actor 0 is published and exits, both before the introduction of the other side comes. -/
def earlyExit : List (Label Nat) :=
  [.request (.publishActor 0 false), .handle ⟨8⟩ none .flushed, .exit 0, .notify 0, .handle ⟨9⟩ none .flushed,
   .recv (some (.handshake (some (twoSides .right).introduction))), .handle ⟨9⟩ none .flushed]

/-- Then the portal is open, the exit has been handled, and it is never announced. -/
theorem early_exit_not_announced :
    (Transition.exec Node.step earlyExit (Node.started (twoSides .left))).map (fun n =>
      (n.life, n.state.channelState, n.state.publishedActors.lookup ⟨8⟩,
        exits 0 n.handled, announcements ⟨8⟩ n.sent)) =
    some (.running, .opened ⟨0x06060606060606060606060606060606⟩, some 0, 1, 0) := by
  decide +kernel

/-- Actor 0 is published before the handshake and exits after it. -/
def lateExit : List (Label Nat) :=
  [.request (.publishActor 0 false), .handle ⟨8⟩ none .flushed,
   .recv (some (.handshake (some (twoSides .right).introduction))), .handle ⟨9⟩ none .flushed,
   .exit 0, .notify 0, .handle ⟨9⟩ none .flushed]

theorem exit_announced_once_iff_late : ∃ n,
    Transition.exec Node.step lateExit (Node.started (twoSides .left)) = some n ∧
    (announcements ⟨8⟩ n.sent = 1 ↔
      Transition.Run Node.step (ExitsWhenOpen 0) lateExit (Node.started (twoSides .left)) n) := by
  have heval : (Transition.exec Node.step lateExit (Node.started (twoSides .left))).map (fun n =>
      (n.life, n.state.publishedActors.lookup ⟨8⟩, decide (.localActorExited 0 ∈ n.handled))) =
      some (.running, some 0, true) := by
    decide +kernel
  obtain ⟨n, hn, hfacts⟩ := Option.map_eq_some_iff.mp heval
  injection hfacts with hlife hrest
  injection hrest with hpublished hhandled
  exact ⟨n, hn, exit_announced_once_iff (twoSides .left) lateExit n (Transition.run_of_exec hn) hlife ⟨8⟩ 0
    hpublished (of_decide_eq_true hhandled)⟩

end Portal
end Wormhole
