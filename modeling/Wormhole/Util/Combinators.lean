import Wormhole.Lib.Transition

/-!
# `Util.Combinators` — `map`, `filter` and `filter_map` over an actor

`util/combinators` and the `FnActor` of `util/function_actor.rs` that `filter` is made of. A reference that a
combinator returns stands for an actor of its own in front of the actor it is made from: a chain of them is a
chain of mailboxes. `map` and `filter_map` are plain actors; `filter` is a `FnActor`, which puts what it gets
into a channel, and a task that reads that channel.

Assumed of ractor and tokio: mailboxes and channels are FIFO, and no channel is full; an actor whose handler
returns an error terminates; a message to an actor that has terminated is refused. The functions that users
pass are pure.
-/

namespace Wormhole
namespace Combinators

/-! ## The actors -/

inductive FilterResult (α : Type) where
  | forward (message : α)
  | drop

/-- A reference to an actor through which messages get to a target. It is given by the actor: what it was
    made with, whether it runs, its queues, and the reference it hands messages on to. -/
inductive ActorRef (τ : Type) : Type → Type 1 where
  /-- the target itself, and the messages it has handled -/
  | target (running : Bool) (mailbox received : List τ) : ActorRef τ τ
  /-- `MappedActor` -/
  | mapped {α γ : Type} (toMessage : α → γ) (running : Bool) (mailbox : List α) (fromRef : ActorRef τ γ) : ActorRef τ α
  /-- `FilterMapActor` -/
  | filterMapped {α γ : Type} (filterMap : α → Option γ) (running : Bool) (mailbox : List α)
      (fromRef : ActorRef τ γ) : ActorRef τ α
  /-- the `FnActor` of `filter`, and the channel to its task -/
  | filtered {α : Type} (f : α → FilterResult α) (running : Bool) (mailbox channel : List α)
      (fromRef : ActorRef τ α) : ActorRef τ α

/-- The actor has terminated. -/
inductive MessagingErr where
  | channelClosed
  deriving DecidableEq, Repr

variable {τ α γ : Type}

namespace ActorRef

/-- `ActorRef::map`. -/
def map (fromRef : ActorRef τ γ) (toMessage : α → γ) : ActorRef τ α := .mapped toMessage true [] fromRef

/-- `ActorRef::filter`. -/
def filter (fromRef : ActorRef τ α) (f : α → FilterResult α) : ActorRef τ α := .filtered f true [] [] fromRef

/-- `ActorRef::filter_map`. -/
def filterMap (fromRef : ActorRef τ γ) (filterMapFn : α → Option γ) : ActorRef τ α :=
  .filterMapped filterMapFn true [] fromRef

/-- `ActorRef::send_message`. -/
def sendMessage : ActorRef τ α → α → Except MessagingErr (ActorRef τ α)
  | .target running mailbox received, m =>
    if running then .ok (.target running (mailbox ++ [m]) received) else .error .channelClosed
  | .mapped toMessage running mailbox fromRef, m =>
    if running then .ok (.mapped toMessage running (mailbox ++ [m]) fromRef) else .error .channelClosed
  | .filterMapped filterMap running mailbox fromRef, m =>
    if running then .ok (.filterMapped filterMap running (mailbox ++ [m]) fromRef) else .error .channelClosed
  | .filtered f running mailbox channel fromRef, m =>
    if running then .ok (.filtered f running (mailbox ++ [m]) channel fromRef) else .error .channelClosed

end ActorRef

/-- `MappedActor::handle`. -/
def MappedActor.handle (toMessage : α → γ) (fromRef : ActorRef τ γ) (message : α) :
    Except MessagingErr (ActorRef τ γ) :=
  fromRef.sendMessage (toMessage message)

/-- `FilterMapActor::handle`. -/
def FilterMapActor.handle (filterMap : α → Option γ) (fromRef : ActorRef τ γ) (message : α) :
    Except MessagingErr (ActorRef τ γ) :=
  match filterMap message with
  | some mappedMessage => fromRef.sendMessage mappedMessage
  | none => .ok fromRef

/-- What the task of `filter` does with a message: an error is logged, and the task goes on. -/
def filterTask (f : α → FilterResult α) (fromRef : ActorRef τ α) (msg : α) : ActorRef τ α :=
  match f msg with
  | .forward msg =>
    match fromRef.sendMessage msg with
    | .ok fromRef' => fromRef'
    | .error _ => fromRef
  | .drop => fromRef

/-! ## Steps -/

/-- Who moves, at some place of the chain: an actor handles a message, or the task of a `filter` does. -/
inductive Part where
  | actor
  | task
  deriving DecidableEq, Repr

namespace ActorRef

/-- The outermost link moves. -/
def moveHead : Part → ActorRef τ α → Option (ActorRef τ α)
  | .actor, .target true (m :: mailbox) received => some (.target true mailbox (received ++ [m]))
  | .actor, .mapped toMessage true (m :: mailbox) fromRef =>
    match MappedActor.handle toMessage fromRef m with
    | .ok fromRef' => some (.mapped toMessage true mailbox fromRef')
    | .error _ => some (.mapped toMessage false [] fromRef)
  | .actor, .filterMapped filterMap true (m :: mailbox) fromRef =>
    match FilterMapActor.handle filterMap fromRef m with
    | .ok fromRef' => some (.filterMapped filterMap true mailbox fromRef')
    | .error _ => some (.filterMapped filterMap false [] fromRef)
  -- `FnActorImpl::handle`
  | .actor, .filtered f true (m :: mailbox) channel fromRef =>
    some (.filtered f true mailbox (channel ++ [m]) fromRef)
  | .task, .filtered f running mailbox (m :: channel) fromRef =>
    some (.filtered f running mailbox channel (filterTask f fromRef m))
  | _, _ => none

/-- The move of the `depth`-th link, counted from the outermost. -/
def move (part : Part) : {α : Type} → Nat → ActorRef τ α → Option (ActorRef τ α)
  | _, 0, r => r.moveHead part
  | _, _ + 1, .target _ _ _ => none
  | _, depth + 1, .mapped toMessage running mailbox fromRef =>
    (fromRef.move part depth).map (.mapped toMessage running mailbox)
  | _, depth + 1, .filterMapped filterMap running mailbox fromRef =>
    (fromRef.move part depth).map (.filterMapped filterMap running mailbox)
  | _, depth + 1, .filtered f running mailbox channel fromRef =>
    (fromRef.move part depth).map (.filtered f running mailbox channel)

end ActorRef

inductive Label (α : Type) where
  /-- the sender sends to the outermost reference; it hears of a message that is refused -/
  | send (message : α)
  | move (depth : Nat) (part : Part)

def step : Label α → ActorRef τ α → Option (ActorRef τ α)
  | .send message, r =>
    match r.sendMessage message with
    | .ok r' => some r'
    | .error _ => some r
  | .move depth part, r => r.move part depth

/-- What is sent in a run. -/
def sentIn (ls : List (Label α)) : List α :=
  ls.filterMap fun
    | .send message => some message
    | .move _ _ => none

/-! ## What a chain is for -/

namespace ActorRef

/-- A chain that has just been built over a running target. -/
inductive Built : {α : Type} → ActorRef τ α → Prop where
  | target : Built (.target true [] [])
  | map {α γ : Type} {fromRef : ActorRef τ γ} (h : Built fromRef) (toMessage : α → γ) : Built (fromRef.map toMessage)
  | filter {α : Type} {fromRef : ActorRef τ α} (h : Built fromRef) (f : α → FilterResult α) :
    Built (fromRef.filter f)
  | filterMap {α γ : Type} {fromRef : ActorRef τ γ} (h : Built fromRef) (filterMapFn : α → Option γ) :
    Built (fromRef.filterMap filterMapFn)

/-- The functions of a chain, one after the other: what the target gets for a message. -/
def composed : {α : Type} → ActorRef τ α → α → Option τ
  | _, .target _ _ _, m => some m
  | _, .mapped toMessage _ _ fromRef, m => fromRef.composed (toMessage m)
  | _, .filterMapped filterMap _ _ fromRef, m => (filterMap m).bind fromRef.composed
  | _, .filtered f _ _ _ fromRef, m =>
    match f m with
    | .forward m' => fromRef.composed m'
    | .drop => none

/-- What the target has handled. -/
def received : {α : Type} → ActorRef τ α → List τ
  | _, .target _ _ received => received
  | _, .mapped _ _ _ fromRef => fromRef.received
  | _, .filterMapped _ _ _ fromRef => fromRef.received
  | _, .filtered _ _ _ _ fromRef => fromRef.received

/-- All queues are empty. -/
def Drained : {α : Type} → ActorRef τ α → Prop
  | _, .target _ mailbox _ => mailbox = []
  | _, .mapped _ _ mailbox fromRef => mailbox = [] ∧ fromRef.Drained
  | _, .filterMapped _ _ mailbox fromRef => mailbox = [] ∧ fromRef.Drained
  | _, .filtered _ _ mailbox channel fromRef => mailbox = [] ∧ channel = [] ∧ fromRef.Drained

/-- All actors of the chain run. -/
def Running : {α : Type} → ActorRef τ α → Prop
  | _, .target running _ _ => running = true
  | _, .mapped _ running _ fromRef => running = true ∧ fromRef.Running
  | _, .filterMapped _ running _ fromRef => running = true ∧ fromRef.Running
  | _, .filtered _ running _ _ fromRef => running = true ∧ fromRef.Running

/-- What the target has handled, and what it will get for the messages on their way, oldest first. -/
def account : {α : Type} → ActorRef τ α → List τ
  | _, .target _ mailbox received => received ++ mailbox
  | _, r@(.mapped _ _ mailbox fromRef) => fromRef.account ++ mailbox.filterMap r.composed
  | _, r@(.filterMapped _ _ mailbox fromRef) => fromRef.account ++ mailbox.filterMap r.composed
  | _, r@(.filtered _ _ mailbox channel fromRef) => fromRef.account ++ (channel ++ mailbox).filterMap r.composed

/-! ## What one step does -/

section

variable {r r' : ActorRef τ α}

theorem Built.running {r : ActorRef τ α} (h : r.Built) : r.Running := by
  induction h with
  | target => rfl
  | map _ _ ih => exact ⟨rfl, ih⟩
  | filter _ _ ih => exact ⟨rfl, ih⟩
  | filterMap _ _ ih => exact ⟨rfl, ih⟩

theorem Built.account {r : ActorRef τ α} (h : r.Built) : r.account = [] := by
  induction h with
  | target => rfl
  | map _ _ ih => exact (List.append_nil _).trans ih
  | filter _ _ ih => exact (List.append_nil _).trans ih
  | filterMap _ _ ih => exact (List.append_nil _).trans ih

/-- A chain that runs goes on running, does what it did, and its account has grown by `new`. -/
structure Grows (r r' : ActorRef τ α) (new : List τ) : Prop where
  running : r'.Running
  composed : r'.composed = r.composed
  account : r'.account = r.account ++ new

theorem Grows.refl (h : r.Running) : Grows r r [] := ⟨h, rfl, (List.append_nil _).symm⟩

/-- One more message in a queue. -/
theorem account_append (before : List τ) (queue : List γ) (f : γ → Option τ) (m : γ) :
    before ++ (queue ++ [m]).filterMap f = before ++ queue.filterMap f ++ (f m).toList := by
  rw [List.filterMap_append, List.append_assoc]
  congr 2

/-- **A chain that runs takes every message**, and will hand on what its functions make of it. -/
theorem sendMessage_grows (h : r.Running) (m : α) :
    ∃ r', r.sendMessage m = .ok r' ∧ Grows r r' (r.composed m).toList := by
  cases r with
  | target running mailbox received =>
    obtain rfl : running = true := h
    refine ⟨.target true (mailbox ++ [m]) received, rfl, rfl, rfl, ?_⟩
    exact (List.append_assoc _ _ _).symm
  | mapped toMessage running mailbox fromRef =>
    obtain ⟨rfl, hfrom⟩ := h
    refine ⟨.mapped toMessage true (mailbox ++ [m]) fromRef, rfl, ⟨rfl, hfrom⟩, rfl, ?_⟩
    exact account_append _ _ _ _
  | filterMapped filterMap running mailbox fromRef =>
    obtain ⟨rfl, hfrom⟩ := h
    refine ⟨.filterMapped filterMap true (mailbox ++ [m]) fromRef, rfl, ⟨rfl, hfrom⟩, rfl, ?_⟩
    exact account_append _ _ _ _
  | filtered f running mailbox channel fromRef =>
    obtain ⟨rfl, hfrom⟩ := h
    refine ⟨.filtered f true (mailbox ++ [m]) channel fromRef, rfl, ⟨rfl, hfrom⟩, rfl, ?_⟩
    show _ ++ (channel ++ (mailbox ++ [m])).filterMap _ = _
    rw [← List.append_assoc]
    exact account_append _ _ _ _

/-- The first message of a queue is handled. -/
theorem toList_append_filterMap (queue : List γ) (f : γ → Option τ) (m : γ) :
    (f m).toList ++ queue.filterMap f = (m :: queue).filterMap f := by
  cases hm : f m with
  | none => rw [List.filterMap_cons_none hm]; rfl
  | some x => rw [List.filterMap_cons_some hm]; rfl

/-! A link hands `new` on to the rest of the chain: it is taken from the front of what is in its queues. -/

section

variable {fromRef fromRef' : ActorRef τ γ} {new : List τ}

theorem Grows.mapped {toMessage : α → γ} {queue queue' : List α} (h : Grows fromRef fromRef' new)
    (hqueue : new ++ queue'.filterMap (fun m => fromRef.composed (toMessage m)) =
      queue.filterMap fun m => fromRef.composed (toMessage m)) :
    Grows (.mapped toMessage true queue fromRef) (.mapped toMessage true queue' fromRef') [] where
  running := ⟨rfl, h.running⟩
  composed := by
    funext m
    exact congrFun h.composed (toMessage m)
  account := by
    show fromRef'.account ++ queue'.filterMap (fun m => fromRef'.composed (toMessage m)) =
      fromRef.account ++ queue.filterMap (fun m => fromRef.composed (toMessage m)) ++ []
    rw [h.account, h.composed, List.append_assoc, hqueue, List.append_nil]

theorem Grows.filterMapped {filterMap : α → Option γ} {queue queue' : List α} (h : Grows fromRef fromRef' new)
    (hqueue : new ++ queue'.filterMap (fun m => (filterMap m).bind fromRef.composed) =
      queue.filterMap fun m => (filterMap m).bind fromRef.composed) :
    Grows (.filterMapped filterMap true queue fromRef) (.filterMapped filterMap true queue' fromRef') [] where
  running := ⟨rfl, h.running⟩
  composed := by
    funext m
    show (filterMap m).bind fromRef'.composed = (filterMap m).bind fromRef.composed
    rw [h.composed]
  account := by
    show fromRef'.account ++ queue'.filterMap (fun m => (filterMap m).bind fromRef'.composed) =
      fromRef.account ++ queue.filterMap (fun m => (filterMap m).bind fromRef.composed) ++ []
    rw [h.account, h.composed, List.append_assoc, hqueue, List.append_nil]

end

/-- What a `filter` hands on, as an option. -/
def FilterResult.forwarded : FilterResult α → Option α
  | .forward m => some m
  | .drop => none

theorem composed_filtered (f : α → FilterResult α) (running : Bool) (mailbox channel : List α)
    (fromRef : ActorRef τ α) : (filtered f running mailbox channel fromRef).composed =
      fun m => (FilterResult.forwarded (f m)).bind fromRef.composed := by
  funext m
  show (match f m with | .forward m' => fromRef.composed m' | .drop => none) = _
  cases f m <;> rfl

theorem Grows.filtered {f : α → FilterResult α} {mailbox mailbox' channel channel' : List α}
    {fromRef fromRef' : ActorRef τ α} {new : List τ} (h : Grows fromRef fromRef' new)
    (hqueue : new ++ (channel' ++ mailbox').filterMap (fun m => (FilterResult.forwarded (f m)).bind fromRef.composed) =
      (channel ++ mailbox).filterMap fun m => (FilterResult.forwarded (f m)).bind fromRef.composed) :
    Grows (.filtered f true mailbox channel fromRef) (.filtered f true mailbox' channel' fromRef') [] where
  running := ⟨rfl, h.running⟩
  composed := by rw [composed_filtered, composed_filtered, h.composed]
  account := by
    show fromRef'.account ++ (channel' ++ mailbox').filterMap (ActorRef.composed _) =
      fromRef.account ++ (channel ++ mailbox).filterMap (ActorRef.composed _) ++ []
    rw [composed_filtered, composed_filtered, h.account, h.composed, List.append_assoc, hqueue, List.append_nil]

/-- **The outermost link neither loses nor repeats nor reorders anything.** -/
theorem moveHead_grows {part : Part} (h : r.Running) (hmove : r.moveHead part = some r') : Grows r r' [] := by
  cases r with
  | target running mailbox received =>
    obtain rfl : running = true := h
    cases part with
    | task => cases hmove
    | actor =>
      cases mailbox with
      | nil => cases hmove
      | cons m mailbox =>
        cases hmove
        refine ⟨rfl, rfl, ?_⟩
        simp [account]
  | mapped toMessage running mailbox fromRef =>
    obtain ⟨rfl, hfrom⟩ := h
    cases part with
    | task => cases hmove
    | actor =>
      cases mailbox with
      | nil => cases hmove
      | cons m mailbox =>
        obtain ⟨fromRef', hsend, hgrows⟩ := sendMessage_grows hfrom (toMessage m)
        simp only [moveHead, MappedActor.handle, hsend] at hmove
        cases hmove
        exact hgrows.mapped (toList_append_filterMap mailbox (fun m => fromRef.composed (toMessage m)) m)
  | filterMapped filterMap running mailbox fromRef =>
    obtain ⟨rfl, hfrom⟩ := h
    cases part with
    | task => cases hmove
    | actor =>
      cases mailbox with
      | nil => cases hmove
      | cons m mailbox =>
        have hlast := toList_append_filterMap mailbox (fun m => (filterMap m).bind fromRef.composed) m
        simp only [moveHead, FilterMapActor.handle] at hmove
        cases hm : filterMap m with
        | none =>
          rw [hm] at hmove hlast
          cases hmove
          exact (Grows.refl hfrom).filterMapped hlast
        | some m' =>
          obtain ⟨fromRef', hsend, hgrows⟩ := sendMessage_grows hfrom m'
          simp only [hm, hsend] at hmove
          rw [hm] at hlast
          cases hmove
          exact hgrows.filterMapped hlast
  | filtered f running mailbox channel fromRef =>
    obtain ⟨rfl, hfrom⟩ := h
    cases part with
    | actor =>
      cases mailbox with
      | nil => cases hmove
      | cons m mailbox =>
        cases hmove
        -- from the mailbox to the channel, whose queues count as one
        apply (Grows.refl hfrom).filtered
        rw [List.nil_append, List.append_assoc]
        rfl
    | task =>
      cases channel with
      | nil => cases hmove
      | cons m channel =>
        cases hmove
        have hlast := toList_append_filterMap (channel ++ mailbox)
          (fun m => (FilterResult.forwarded (f m)).bind fromRef.composed) m
        unfold filterTask
        cases hm : f m with
        | drop =>
          rw [hm] at hlast
          exact (Grows.refl hfrom).filtered hlast
        | forward m' =>
          obtain ⟨fromRef', hsend, hgrows⟩ := sendMessage_grows hfrom m'
          rw [hm] at hlast
          simp only [hsend]
          exact hgrows.filtered hlast

/-- The same holds of every link, by induction on its place. -/
theorem move_grows {α : Type} {r r' : ActorRef τ α} {depth : Nat} {part : Part} (h : r.Running)
    (hmove : r.move part depth = some r') : Grows r r' [] := by
  induction depth generalizing α with
  | zero => exact moveHead_grows h hmove
  | succ depth ih =>
    cases r with
    | target running mailbox received => cases hmove
    | mapped toMessage running mailbox fromRef =>
      obtain ⟨rfl, hfrom⟩ := h
      obtain ⟨fromRef', hmove', rfl⟩ := Option.map_eq_some_iff.mp hmove
      exact (ih hfrom hmove').mapped rfl
    | filterMapped filterMap running mailbox fromRef =>
      obtain ⟨rfl, hfrom⟩ := h
      obtain ⟨fromRef', hmove', rfl⟩ := Option.map_eq_some_iff.mp hmove
      exact (ih hfrom hmove').filterMapped rfl
    | filtered f running mailbox channel fromRef =>
      obtain ⟨rfl, hfrom⟩ := h
      obtain ⟨fromRef', hmove', rfl⟩ := Option.map_eq_some_iff.mp hmove
      exact (ih hfrom hmove').filtered rfl

/-- **What a step adds to the account** is what the functions of the chain make of the message that is sent. -/
theorem step_grows {l : Label α} (h : r.Running) (hstep : step l r = some r') :
    Grows r r' ((sentIn [l]).filterMap r.composed) := by
  cases l with
  | send m =>
    obtain ⟨r'', hsend, hgrows⟩ := sendMessage_grows h m
    simp only [step, hsend] at hstep
    cases hstep
    have hlast := toList_append_filterMap [] r.composed m
    rw [List.filterMap_nil, List.append_nil] at hlast
    exact hlast ▸ hgrows
  | move depth part => exact move_grows h hstep

theorem Grows.trans {r'' : ActorRef τ α} {new new' : List τ} (h : Grows r r' new) (h' : Grows r' r'' new') :
    Grows r r'' (new ++ new') where
  running := h'.running
  composed := h'.composed.trans h.composed
  account := by rw [h'.account, h.account, List.append_assoc]

/-- **Over a whole run.** -/
theorem run_grows {ls : List (Label α)} (h : r.Running) (hrun : Transition.Run step Transition.Any ls r r') :
    Grows r r' ((sentIn ls).filterMap r.composed) := by
  induction hrun with
  | nil r => exact Grows.refl h
  | @cons l ls r s t _ hstep _ ih =>
    have hfirst := step_grows h hstep
    have hrest := hfirst.trans (ih hfirst.running)
    rw [hfirst.composed, ← List.filterMap_append] at hrest
    have hsent : sentIn [l] ++ sentIn ls = sentIn (l :: ls) := (List.filterMap_append ..).symm
    rwa [hsent] at hrest

end

/-! ## What the target receives -/

theorem received_prefix {α : Type} (r : ActorRef τ α) : r.received <+: r.account := by
  induction r with
  | target running mailbox received => exact List.prefix_append _ _
  | mapped toMessage running mailbox fromRef ih => exact ih.trans (List.prefix_append _ _)
  | filterMapped filterMap running mailbox fromRef ih => exact ih.trans (List.prefix_append _ _)
  | filtered f running mailbox channel fromRef ih => exact ih.trans (List.prefix_append _ _)

theorem Drained.account {α : Type} {r : ActorRef τ α} (h : r.Drained) : r.account = r.received := by
  induction r with
  | target running mailbox received =>
    obtain rfl : mailbox = [] := h
    exact List.append_nil _
  | mapped toMessage running mailbox fromRef ih =>
    obtain ⟨rfl, hfrom⟩ := h
    exact (List.append_nil _).trans (ih hfrom)
  | filterMapped filterMap running mailbox fromRef ih =>
    obtain ⟨rfl, hfrom⟩ := h
    exact (List.append_nil _).trans (ih hfrom)
  | filtered f running mailbox channel fromRef ih =>
    obtain ⟨rfl, rfl, hfrom⟩ := h
    exact (List.append_nil _).trans (ih hfrom)

/-! ## A chain that is left alone comes to rest -/

/-- The queues that a message to the chain passes through. -/
def hops : {α : Type} → ActorRef τ α → Nat
  | _, .target _ _ _ => 1
  | _, .mapped _ _ _ fromRef => fromRef.hops + 1
  | _, .filterMapped _ _ _ fromRef => fromRef.hops + 1
  | _, .filtered _ _ _ _ fromRef => fromRef.hops + 2

/-- The moves that the messages in the queues can still cause. -/
def work : {α : Type} → ActorRef τ α → Nat
  | _, .target _ mailbox _ => mailbox.length
  | _, .mapped _ _ mailbox fromRef => mailbox.length * (fromRef.hops + 1) + fromRef.work
  | _, .filterMapped _ _ mailbox fromRef => mailbox.length * (fromRef.hops + 1) + fromRef.work
  | _, .filtered _ _ mailbox channel fromRef =>
    mailbox.length * (fromRef.hops + 2) + channel.length * (fromRef.hops + 1) + fromRef.work

section

variable {r r' : ActorRef τ α}

theorem sendMessage_work {m : α} (h : r.sendMessage m = .ok r') :
    r'.hops = r.hops ∧ r'.work = r.work + r.hops := by
  cases r with
  | target running mailbox received =>
    simp only [sendMessage] at h
    split at h <;> cases h
    exact ⟨rfl, by simp [work, hops]⟩
  | mapped toMessage running mailbox fromRef =>
    simp only [sendMessage] at h
    split at h <;> cases h
    refine ⟨rfl, ?_⟩
    simp only [work, hops, List.length_append, List.length_singleton, Nat.add_mul, Nat.one_mul]
    omega
  | filterMapped filterMap running mailbox fromRef =>
    simp only [sendMessage] at h
    split at h <;> cases h
    refine ⟨rfl, ?_⟩
    simp only [work, hops, List.length_append, List.length_singleton, Nat.add_mul, Nat.one_mul]
    omega
  | filtered f running mailbox channel fromRef =>
    simp only [sendMessage] at h
    split at h <;> cases h
    refine ⟨rfl, ?_⟩
    simp only [work, hops, List.length_append, List.length_singleton, Nat.add_mul, Nat.one_mul]
    omega

/-- A link that moves hands on one message at most. -/
theorem moveHead_work {part : Part} (h : r.Running) (hmove : r.moveHead part = some r') :
    r'.hops = r.hops ∧ r'.work < r.work := by
  cases r with
  | target running mailbox received =>
    obtain rfl : running = true := h
    cases part with
    | task => cases hmove
    | actor =>
      cases mailbox with
      | nil => cases hmove
      | cons m mailbox =>
        cases hmove
        exact ⟨rfl, Nat.lt_succ_self _⟩
  | mapped toMessage running mailbox fromRef =>
    obtain ⟨rfl, hfrom⟩ := h
    cases part with
    | task => cases hmove
    | actor =>
      cases mailbox with
      | nil => cases hmove
      | cons m mailbox =>
        obtain ⟨fromRef', hsend, -⟩ := sendMessage_grows hfrom (toMessage m)
        obtain ⟨hhops, hwork⟩ := sendMessage_work hsend
        simp only [moveHead, MappedActor.handle, hsend] at hmove
        cases hmove
        simp only [work, hops, hhops, hwork, List.length_cons, Nat.succ_mul]
        exact ⟨trivial, by omega⟩
  | filterMapped filterMap running mailbox fromRef =>
    obtain ⟨rfl, hfrom⟩ := h
    cases part with
    | task => cases hmove
    | actor =>
      cases mailbox with
      | nil => cases hmove
      | cons m mailbox =>
        simp only [moveHead, FilterMapActor.handle] at hmove
        cases hm : filterMap m with
        | none =>
          rw [hm] at hmove
          cases hmove
          simp only [work, hops, List.length_cons, Nat.succ_mul]
          exact ⟨trivial, by omega⟩
        | some m' =>
          obtain ⟨fromRef', hsend, -⟩ := sendMessage_grows hfrom m'
          obtain ⟨hhops, hwork⟩ := sendMessage_work hsend
          simp only [hm, hsend] at hmove
          cases hmove
          simp only [work, hops, hhops, hwork, List.length_cons, Nat.succ_mul]
          exact ⟨trivial, by omega⟩
  | filtered f running mailbox channel fromRef =>
    obtain ⟨rfl, hfrom⟩ := h
    cases part with
    | actor =>
      cases mailbox with
      | nil => cases hmove
      | cons m mailbox =>
        cases hmove
        simp only [work, hops, List.length_append, List.length_cons, List.length_nil, Nat.add_mul, Nat.one_mul]
        exact ⟨trivial, by omega⟩
    | task =>
      cases channel with
      | nil => cases hmove
      | cons m channel =>
        cases hmove
        unfold filterTask
        cases hm : f m with
        | drop =>
          simp only [work, hops, List.length_cons, Nat.succ_mul]
          exact ⟨trivial, by omega⟩
        | forward m' =>
          obtain ⟨fromRef', hsend, -⟩ := sendMessage_grows hfrom m'
          obtain ⟨hhops, hwork⟩ := sendMessage_work hsend
          simp only [hsend, work, hops, hhops, hwork, List.length_cons, Nat.succ_mul]
          exact ⟨trivial, by omega⟩

theorem move_work {α : Type} {r r' : ActorRef τ α} {depth : Nat} {part : Part} (h : r.Running)
    (hmove : r.move part depth = some r') : r'.hops = r.hops ∧ r'.work < r.work := by
  induction depth generalizing α with
  | zero => exact moveHead_work h hmove
  | succ depth ih =>
    cases r with
    | target running mailbox received => cases hmove
    | mapped toMessage running mailbox fromRef =>
      obtain ⟨fromRef', hmove', rfl⟩ := Option.map_eq_some_iff.mp hmove
      obtain ⟨hhops, hwork⟩ := ih h.2 hmove'
      simp only [work, hops, hhops]
      exact ⟨trivial, Nat.add_lt_add_left hwork _⟩
    | filterMapped filterMap running mailbox fromRef =>
      obtain ⟨fromRef', hmove', rfl⟩ := Option.map_eq_some_iff.mp hmove
      obtain ⟨hhops, hwork⟩ := ih h.2 hmove'
      simp only [work, hops, hhops]
      exact ⟨trivial, Nat.add_lt_add_left hwork _⟩
    | filtered f running mailbox channel fromRef =>
      obtain ⟨fromRef', hmove', rfl⟩ := Option.map_eq_some_iff.mp hmove
      obtain ⟨hhops, hwork⟩ := ih h.2 hmove'
      simp only [work, hops, hhops]
      exact ⟨trivial, Nat.add_lt_add_left hwork _⟩

/-- While a queue holds a message, some link can move. -/
theorem exists_move {α : Type} {r : ActorRef τ α} (h : r.Running) (hbusy : ¬r.Drained) :
    ∃ part depth r', r.move part depth = some r' := by
  induction r with
  | target running mailbox received =>
    obtain rfl : running = true := h
    cases mailbox with
    | nil => exact absurd rfl hbusy
    | cons m mailbox => exact ⟨.actor, 0, _, rfl⟩
  | mapped toMessage running mailbox fromRef ih =>
    obtain ⟨rfl, hfrom⟩ := h
    cases mailbox with
    | nil =>
      obtain ⟨part, depth, fromRef', hmove⟩ := ih hfrom fun hdrained => hbusy ⟨rfl, hdrained⟩
      exact ⟨part, depth + 1, _, Option.map_eq_some_iff.mpr ⟨fromRef', hmove, rfl⟩⟩
    | cons m mailbox =>
      obtain ⟨fromRef', hsend, -⟩ := sendMessage_grows hfrom (toMessage m)
      refine ⟨.actor, 0, .mapped toMessage true mailbox fromRef', ?_⟩
      simp only [move, moveHead, MappedActor.handle, hsend]
  | filterMapped filterMap running mailbox fromRef ih =>
    obtain ⟨rfl, hfrom⟩ := h
    cases mailbox with
    | nil =>
      obtain ⟨part, depth, fromRef', hmove⟩ := ih hfrom fun hdrained => hbusy ⟨rfl, hdrained⟩
      exact ⟨part, depth + 1, _, Option.map_eq_some_iff.mpr ⟨fromRef', hmove, rfl⟩⟩
    | cons m mailbox =>
      refine ⟨.actor, 0, ?_⟩
      simp only [move, moveHead]
      cases FilterMapActor.handle filterMap fromRef m <;> exact ⟨_, rfl⟩
  | filtered f running mailbox channel fromRef ih =>
    obtain ⟨rfl, hfrom⟩ := h
    cases mailbox with
    | cons m mailbox => exact ⟨.actor, 0, _, rfl⟩
    | nil =>
      cases channel with
      | cons m channel => exact ⟨.task, 0, _, rfl⟩
      | nil =>
        obtain ⟨part, depth, fromRef', hmove⟩ := ih hfrom fun hdrained => hbusy ⟨rfl, rfl, hdrained⟩
        exact ⟨part, depth + 1, _, Option.map_eq_some_iff.mpr ⟨fromRef', hmove, rfl⟩⟩

/-- **From every state of a chain that runs, its queues can be emptied.** -/
theorem exists_drained (h : r.Running) : ∃ ls r', Transition.Run step Transition.Any ls r r' ∧ sentIn ls = [] ∧
    r'.Drained := by
  induction hn : r.work using Nat.strongRecOn generalizing r with
  | ind n ih =>
    by_cases hdrained : r.Drained
    · exact ⟨[], r, .nil r, rfl, hdrained⟩
    · obtain ⟨part, depth, s, hmove⟩ := exists_move h hdrained
      have hless := (move_work h hmove).2
      obtain ⟨ls, t, hrun, hsent, ht⟩ := ih s.work (hn ▸ hless) (move_grows h hmove).running rfl
      exact ⟨.move depth part :: ls, t, .cons trivial hmove hrun, hsent, ht⟩

end

end ActorRef

/-- **A chain of combinators is a `filter_map` that keeps the order.** However its actors and tasks take their
    turns, the target has received a prefix of what the functions of the chain, one after the other, make of
    the messages that were sent; and all of it once every queue is empty, to which it can always be brought. -/
theorem received_filterMap {start r : ActorRef τ α} {ls : List (Label α)} (hbuilt : start.Built)
    (hrun : Transition.Run step Transition.Any ls start r) :
    r.received <+: (sentIn ls).filterMap start.composed ∧
      (r.Drained → r.received = (sentIn ls).filterMap start.composed) ∧
      ∃ ls' r', Transition.Run step Transition.Any ls' r r' ∧ sentIn ls' = [] ∧ r'.Drained := by
  have hgrows := ActorRef.run_grows hbuilt.running hrun
  have haccount : r.account = (sentIn ls).filterMap start.composed := by
    rw [hgrows.account, hbuilt.account, List.nil_append]
  rw [← haccount]
  exact ⟨r.received_prefix, fun hdrained => hdrained.account.symm, ActorRef.exists_drained hgrows.running⟩

/-- Zeros are dropped, even numbers halved and odd ones dropped, and one is added. -/
private def halves (received : List Nat) : ActorRef Nat Nat :=
  (((ActorRef.target true [] received).map fun n => n + 1).filterMap fun n : Nat =>
    if n % 2 = 0 then some (n / 2) else none).filter fun n => if n = 0 then .drop else .forward n

private def turns : List (Label Nat) :=
  [.send 0, .send 6, .move 0 .actor, .send 3, .move 0 .task, .move 0 .actor, .move 0 .task, .move 1 .actor,
    .send 4, .move 0 .actor, .move 2 .actor, .move 0 .task, .move 0 .actor, .move 1 .actor, .move 0 .task,
    .move 3 .actor, .move 1 .actor, .move 2 .actor, .move 3 .actor]

theorem received_filterMap_halves : ∃ r, Transition.exec step turns (halves []) = some r ∧ r.Drained ∧
    r.received = [4, 3] := by
  have hrun : Transition.exec step turns (halves []) = some (halves [4, 3]) := rfl
  have hdrained : (halves [4, 3]).Drained := ⟨rfl, rfl, rfl, rfl, rfl⟩
  have hbuilt : (halves []).Built := ((ActorRef.Built.target.map _).filterMap _).filter _
  exact ⟨halves [4, 3], hrun, hdrained, (received_filterMap hbuilt (Transition.run_of_exec hrun)).2.1 hdrained⟩

end Combinators
end Wormhole
