import Wormhole.Lib.Transition

/-!
# `Util.FunctionActor` — an actor that is made of a function

`util/function_actor.rs` and `util/thread_local_function_actor.rs`. The handler of such an actor puts every
message into a bounded channel, and a task runs the user's function, which reads the channel. A `FnActor` waits
for room in the channel; a `ThreadLocalFnActor` gives up where there is none.

Assumed of ractor: the mailbox is FIFO, and takes messages until the actor terminates; `stop` takes priority
over queued messages, and waits for the handler; an actor whose handler returns an error terminates; `kill` does
not wait. Assumed of tokio and futures: channels are FIFO, `send` on a channel without a receiver fails, and the
channel of futures has one slot more than its size for each of its senders.
-/

namespace Wormhole
namespace FunctionActor

variable {τ : Type}

/-- `MAX_CHANNEL_SIZE`. -/
def maxChannelSize : Nat := 294967295 - 1000

/-! ## The two handlers -/

/-- What has come of a handler. -/
inductive Handling (τ : Type) where
  | ok (channel : List τ)
  | err
  | pending

/-- A handler puts a message into the channel, if there is a receiver. -/
abbrev Handler (τ : Type) := Bool → List τ → τ → Handling τ

/-- `FnActorImpl::handle`: `state.args.tx.send(message).await`. -/
def FnActorImpl.handle (size : Nat) : Handler τ := fun receiver channel message =>
  if ¬receiver then .err
  else if channel.length < size then .ok (channel ++ [message])
  else .pending

/-- `ThreadLocalFnActorImpl::handle`: `state.args.tx.try_send(message)`. -/
def ThreadLocalFnActorImpl.handle (size : Nat) : Handler τ := fun receiver channel message =>
  if ¬receiver then .err
  else if channel.length < size + 1 then .ok (channel ++ [message])
  else .err

/-! ## The actor and its function -/

inductive Status where
  | running
  | stopped
  | killed
  | failed
  deriving DecidableEq, Repr

/-- The actor, and what its function has. The last two fields record what happened. -/
structure FnActor (τ : Type) where
  status : Status
  mailbox : List τ
  /-- the message in the hands of the handler -/
  handling : Option τ
  channel : List τ
  /-- whether the function still has `ctx.rx` -/
  receiver : Bool
  /-- whether `stop` has been called -/
  stopping : Bool
  accepted : List τ
  received : List τ
  deriving DecidableEq, Repr

/-- `FnActor::start_fn` has just returned. -/
def FnActor.started : FnActor τ :=
  { status := .running, mailbox := [], handling := none, channel := [], receiver := true, stopping := false
    accepted := [], received := [] }

inductive SupervisionEvent where
  | actorStarted
  | actorTerminated
  | actorFailed
  deriving DecidableEq, Repr

inductive Label (τ : Type) where
  | sendMessage (message : τ)
  /-- the message pump takes the next message -/
  | next
  /-- the handler goes on -/
  | handle
  /-- the function gets the next message, or lets go of the receiver -/
  | recv
  | close
  /-- `stop`: because the function has returned, or from outside -/
  | stop
  /-- the message pump sees that -/
  | terminate
  | kill
  | superviseEvt (event : SupervisionEvent)
  deriving DecidableEq, Repr

namespace FnActor

/-- The actor terminates: what it has in its mailbox and in its hands is lost. -/
def halt (s : FnActor τ) (status : Status) : FnActor τ := { s with status, mailbox := [], handling := none }

/-- `handle_supervisor_evt`: the death of a child is logged, and the actor goes on. -/
def handleSupervisorEvt (s : FnActor τ) : SupervisionEvent → FnActor τ
  | .actorTerminated => s
  | .actorFailed => s
  | .actorStarted => s

def step (handler : Handler τ) (l : Label τ) (s : FnActor τ) : Option (FnActor τ) :=
  match l with
  | .sendMessage message =>
    if s.status = .running then
      some { s with mailbox := s.mailbox ++ [message], accepted := s.accepted ++ [message] }
    else none
  | .next =>
    match s.handling, s.mailbox with
    | none, message :: rest =>
      if s.status = .running ∧ s.stopping = false then some { s with handling := some message, mailbox := rest }
      else none
    | _, _ => none
  | .handle =>
    match s.handling with
    | some message =>
      match handler s.receiver s.channel message with
      | .ok channel => some { s with channel, handling := none }
      | .err => some ({ s with stopping := true }.halt .failed)
      | .pending => none
    | none => none
  | .recv =>
    match s.receiver, s.channel with
    | true, message :: rest => some { s with channel := rest, received := s.received ++ [message] }
    | _, _ => none
  | .close => some { s with receiver := false, channel := [] }
  | .stop => some { s with stopping := true }
  | .terminate =>
    if s.status = .running ∧ s.stopping = true ∧ s.handling = none then some (s.halt .stopped) else none
  | .kill => if s.status = .running then some (s.halt .killed) else none
  | .superviseEvt event => some (s.handleSupervisorEvt event)

end FnActor

/-- The labels of the message pump, of the handler, and of a function that reads. -/
def Label.isInternal : Label τ → Bool
  | .next | .handle | .recv => true
  | _ => false

/-- A handler that only ever adds the message at the end, within a limit, while there is a receiver. -/
structure Handler.Appends (handler : Handler τ) (limit : Nat) : Prop where
  ok : ∀ {receiver channel message after}, handler receiver channel message = .ok after →
    receiver = true ∧ channel.length < limit ∧ after = channel ++ [message]

theorem FnActorImpl.handle_appends (size : Nat) : (FnActorImpl.handle (τ := τ) size).Appends size where
  ok {receiver channel message after} h := by
    unfold FnActorImpl.handle at h
    split at h
    · cases h
    · rename_i hreceiver
      split at h
      · rename_i hroom
        cases h
        exact ⟨by simpa using hreceiver, hroom, rfl⟩
      · cases h

theorem ThreadLocalFnActorImpl.handle_appends (size : Nat) :
    (ThreadLocalFnActorImpl.handle (τ := τ) size).Appends (size + 1) where
  ok {receiver channel message after} h := by
    unfold ThreadLocalFnActorImpl.handle at h
    split at h
    · cases h
    · rename_i hreceiver
      split at h
      · rename_i hroom
        cases h
        exact ⟨by simpa using hreceiver, hroom, rfl⟩
      · cases h

namespace FnActor

/-! ## What every step keeps -/

/-- What has been accepted and not been received, oldest first, is in the channel, in the hands of the handler
    and in the mailbox. -/
structure Fifo (limit : Nat) (s : FnActor τ) : Prop where
  bounded : s.channel.length ≤ limit
  closed : s.receiver = false → s.channel = []
  ordered : s.received ++ s.channel <+: s.accepted
  complete : s.status = .running → s.receiver = true →
    s.received ++ s.channel ++ s.handling.toList ++ s.mailbox = s.accepted
  ended : s.status ≠ .running → s.handling = none ∧ s.mailbox = []

section

variable {handler : Handler τ} {limit : Nat} {s t : FnActor τ} {l : Label τ}

theorem Fifo.started (limit : Nat) : (started : FnActor τ).Fifo limit where
  bounded := Nat.zero_le _
  closed _ := rfl
  ordered := List.prefix_refl _
  complete _ _ := rfl
  ended h := absurd rfl h

/-- The actor terminates. -/
theorem Fifo.halt (h : s.Fifo limit) {status : Status} (hstatus : status ≠ .running) : (s.halt status).Fifo limit where
  bounded := h.bounded
  closed := h.closed
  ordered := h.ordered
  complete hrunning := absurd hrunning hstatus
  ended _ := ⟨rfl, rfl⟩

theorem handle_inv (hstep : FnActor.step handler .handle s = some t) : ∃ message, s.handling = some message ∧
    ((∃ channel, handler s.receiver s.channel message = .ok channel ∧ t = { s with channel, handling := none }) ∨
      handler s.receiver s.channel message = .err ∧ t = { s with stopping := true }.halt .failed) := by
  simp only [FnActor.step] at hstep
  split at hstep
  · rename_i message hmessage
    refine ⟨message, hmessage, ?_⟩
    split at hstep
    · rename_i channel hok
      exact .inl ⟨channel, hok, (Option.some.inj hstep).symm⟩
    · rename_i herr
      exact .inr ⟨herr, (Option.some.inj hstep).symm⟩
    · cases hstep
  · cases hstep

theorem next_inv (hstep : FnActor.step handler .next s = some t) : ∃ message rest, s.handling = none ∧
    s.mailbox = message :: rest ∧ (s.status = .running ∧ s.stopping = false) ∧
    t = { s with handling := some message, mailbox := rest } := by
  simp only [FnActor.step] at hstep
  split at hstep
  · rename_i message rest hhandling hmailbox
    split at hstep
    · rename_i hcan
      exact ⟨message, rest, hhandling, hmailbox, hcan, (Option.some.inj hstep).symm⟩
    · cases hstep
  · cases hstep

theorem recv_inv (hstep : FnActor.step handler .recv s = some t) : ∃ message rest, s.receiver = true ∧
    s.channel = message :: rest ∧ t = { s with channel := rest, received := s.received ++ [message] } := by
  simp only [FnActor.step] at hstep
  split at hstep
  · rename_i message rest hreceiver hchannel
    exact ⟨message, rest, hreceiver, hchannel, (Option.some.inj hstep).symm⟩
  · cases hstep

theorem sendMessage_inv {message : τ} (hstep : FnActor.step handler (.sendMessage message) s = some t) :
    s.status = .running ∧
      t = { s with mailbox := s.mailbox ++ [message], accepted := s.accepted ++ [message] } := by
  simp only [FnActor.step] at hstep
  split at hstep
  · rename_i hrunning
    exact ⟨hrunning, (Option.some.inj hstep).symm⟩
  · cases hstep

theorem terminate_inv (hstep : FnActor.step handler .terminate s = some t) :
    (s.status = .running ∧ s.stopping = true ∧ s.handling = none) ∧ t = s.halt .stopped := by
  simp only [FnActor.step] at hstep
  split at hstep
  · rename_i hcan
    exact ⟨hcan, (Option.some.inj hstep).symm⟩
  · cases hstep

theorem kill_inv (hstep : FnActor.step handler .kill s = some t) : s.status = .running ∧ t = s.halt .killed := by
  simp only [FnActor.step] at hstep
  split at hstep
  · rename_i hrunning
    exact ⟨hrunning, (Option.some.inj hstep).symm⟩
  · cases hstep

theorem superviseEvt_inv {event : SupervisionEvent} (hstep : FnActor.step handler (.superviseEvt event) s = some t) :
    t = s := by
  cases event <;> exact (Option.some.inj hstep).symm

/-- **Every step.** -/
theorem Fifo.step (happends : handler.Appends limit) (h : s.Fifo limit) (hstep : FnActor.step handler l s = some t) :
    t.Fifo limit := by
  cases l with
  | sendMessage message =>
    obtain ⟨hrunning, rfl⟩ := sendMessage_inv hstep
    refine ⟨h.bounded, h.closed, h.ordered.trans (List.prefix_append _ _), fun _ hreceiver => ?_,
      fun hnot => absurd hrunning hnot⟩
    show _ ++ (s.mailbox ++ [message]) = _
    rw [← h.complete hrunning hreceiver, List.append_assoc _ s.mailbox]
  | next =>
    obtain ⟨message, rest, hhandling, hmailbox, ⟨hrunning, -⟩, rfl⟩ := next_inv hstep
    refine ⟨h.bounded, h.closed, h.ordered, fun _ hreceiver => ?_, fun hnot => absurd hrunning hnot⟩
    have hall := h.complete hrunning hreceiver
    rw [hhandling, hmailbox] at hall
    rw [← hall]
    simp
  | handle =>
    obtain ⟨message, hhandling, ⟨channel, hok, rfl⟩ | ⟨-, rfl⟩⟩ := handle_inv hstep
    · obtain ⟨hreceiver, hroom, rfl⟩ := happends.ok hok
      have hrunning : s.status = .running := Decidable.byContradiction fun hnot => by
        rw [(h.ended hnot).1] at hhandling
        cases hhandling
      have hall := h.complete hrunning hreceiver
      rw [hhandling] at hall
      -- the message in hand moves to the end of the channel
      have hmoved : s.received ++ (s.channel ++ [message]) ++ s.mailbox = s.accepted := by
        rw [← hall]
        simp
      refine ⟨?_, fun hnone => ?_, ?_, fun _ _ => ?_, fun hnot => absurd hrunning hnot⟩
      · show (s.channel ++ [message]).length ≤ limit
        rw [List.length_append]
        exact hroom
      · rw [hreceiver] at hnone
        cases hnone
      · exact ⟨s.mailbox, hmoved⟩
      · rw [← hmoved]
        simp
    · -- the handler fails, and its error stops the actor
      have hstopping : ({ s with stopping := true } : FnActor τ).Fifo limit :=
        ⟨h.bounded, h.closed, h.ordered, h.complete, h.ended⟩
      exact hstopping.halt (by simp)
  | recv =>
    obtain ⟨message, rest, hreceiver, hchannel, rfl⟩ := recv_inv hstep
    have hbounded := h.bounded
    have hordered := h.ordered
    rw [hchannel] at hbounded hordered
    refine ⟨?_, fun hnone => ?_, ?_, fun hrunning _ => ?_, h.ended⟩
    · exact Nat.le_of_succ_le hbounded
    · rw [hreceiver] at hnone
      cases hnone
    · simpa using hordered
    · have hall := h.complete hrunning hreceiver
      rw [hchannel] at hall
      rw [← hall]
      simp
  | close =>
    cases hstep
    refine ⟨Nat.zero_le _, fun _ => rfl, ?_, by rintro _ ⟨⟩, h.ended⟩
    show s.received ++ [] <+: s.accepted
    rw [List.append_nil]
    exact (List.prefix_append _ _).trans h.ordered
  | stop =>
    cases hstep
    exact ⟨h.bounded, h.closed, h.ordered, h.complete, h.ended⟩
  | terminate =>
    obtain ⟨-, rfl⟩ := terminate_inv hstep
    exact h.halt (by simp)
  | kill =>
    obtain ⟨-, rfl⟩ := kill_inv hstep
    exact h.halt (by simp)
  | superviseEvt event =>
    obtain rfl := superviseEvt_inv hstep
    exact h

theorem Fifo.of_run {ls : List (Label τ)} (happends : handler.Appends limit)
    (hrun : Transition.Run (FnActor.step handler) Transition.Any ls FnActor.started s) : s.Fifo limit :=
  hrun.invariant (fun _ _ _ h _ hstep => h.step happends hstep) (.started limit)

/-! ## Coming to rest -/

/-- The steps that are left for the messages that are on their way. -/
def work (s : FnActor τ) : Nat := 3 * s.mailbox.length + 2 * s.handling.toList.length + s.channel.length

theorem work_lt_of_internal (happends : handler.Appends limit) (hl : l.isInternal = true)
    (hstep : FnActor.step handler l s = some t) : t.work < s.work := by
  cases l with
  | next =>
    obtain ⟨message, rest, hhandling, hmailbox, -, rfl⟩ := next_inv hstep
    simp only [work, hhandling, hmailbox, List.length_cons, Option.toList_some, Option.toList_none, List.length_nil]
    omega
  | handle =>
    obtain ⟨message, hhandling, ⟨channel, hok, rfl⟩ | ⟨-, rfl⟩⟩ := handle_inv hstep
    · obtain ⟨-, -, rfl⟩ := happends.ok hok
      simp only [work, hhandling, List.length_append, List.length_cons, Option.toList_some, Option.toList_none,
        List.length_nil]
      omega
    · simp only [work, halt, hhandling, List.length_cons, Option.toList_some, Option.toList_none, List.length_nil]
      omega
  | recv =>
    obtain ⟨message, rest, -, hchannel, rfl⟩ := recv_inv hstep
    simp only [work, hchannel, List.length_cons]
    omega
  | _ => cases hl

/-- The actor runs, nobody has asked it to stop, and its function reads. -/
structure Live (s : FnActor τ) : Prop where
  status : s.status = .running
  receiver : s.receiver = true
  stopping : s.stopping = false

/-- While there is a receiver, a `FnActor` does not fail. -/
theorem FnActorImpl.handle_ne_err {size : Nat} {receiver : Bool} {channel : List τ} {message : τ}
    (hreceiver : receiver = true) : FunctionActor.FnActorImpl.handle size receiver channel message ≠ .err := by
  unfold FunctionActor.FnActorImpl.handle
  rw [hreceiver, if_neg (by simp)]
  split <;> exact nofun

theorem Live.internal {size : Nat} (h : s.Live) (hl : l.isInternal = true)
    (hstep : FnActor.step (FunctionActor.FnActorImpl.handle size) l s = some t) :
    t.Live ∧ t.accepted = s.accepted := by
  cases l with
  | next =>
    obtain ⟨message, rest, -, -, -, rfl⟩ := next_inv hstep
    exact ⟨⟨h.status, h.receiver, h.stopping⟩, rfl⟩
  | handle =>
    obtain ⟨message, -, ⟨channel, -, rfl⟩ | ⟨herr, -⟩⟩ := handle_inv hstep
    · exact ⟨⟨h.status, h.receiver, h.stopping⟩, rfl⟩
    · exact absurd herr (FnActorImpl.handle_ne_err h.receiver)
  | recv =>
    obtain ⟨message, rest, -, -, rfl⟩ := recv_inv hstep
    exact ⟨⟨h.status, h.receiver, h.stopping⟩, rfl⟩
  | _ => cases hl

/-- **At rest, everything has been received.** -/
theorem Live.rest {size : Nat} (h : s.Live) (hsize : 0 < size) (hfifo : s.Fifo size)
    (hrest : ∀ l : Label τ, l.isInternal = true →
      FnActor.step (FunctionActor.FnActorImpl.handle size) l s = none) : s.received = s.accepted := by
  have hchannel : s.channel = [] := by
    cases hc : s.channel with
    | nil => rfl
    | cons message rest =>
      have hrecv := hrest .recv rfl
      simp only [FnActor.step, h.receiver, hc] at hrecv
      cases hrecv
  have hhandling : s.handling = none := by
    cases hm : s.handling with
    | none => rfl
    | some message =>
      have hhandle := hrest .handle rfl
      have hok : FunctionActor.FnActorImpl.handle size s.receiver s.channel message = .ok [message] := by
        simp [FunctionActor.FnActorImpl.handle, h.receiver, hchannel, hsize]
      simp only [FnActor.step, hm, hok] at hhandle
      cases hhandle
  have hmailbox : s.mailbox = [] := by
    cases hm : s.mailbox with
    | nil => rfl
    | cons message rest =>
      have hnext := hrest .next rfl
      simp only [FnActor.step, hhandling, hm] at hnext
      rw [if_pos ⟨h.status, h.stopping⟩] at hnext
      cases hnext
  have hall := hfifo.complete h.status h.receiver
  rw [hchannel, hhandling, hmailbox] at hall
  simpa using hall

/-! ## How it ends -/

/-- It fails only when the function has let go of its receiver, and stops only when it was asked to. -/
structure EndsWell (s : FnActor τ) : Prop where
  failed : s.status = .failed → s.receiver = false
  stopped : s.status = .stopped → s.stopping = true

theorem EndsWell.step {size : Nat} (h : s.EndsWell)
    (hstep : FnActor.step (FunctionActor.FnActorImpl.handle size) l s = some t) : t.EndsWell := by
  cases l with
  | sendMessage message =>
    obtain ⟨-, rfl⟩ := sendMessage_inv hstep
    exact ⟨h.failed, h.stopped⟩
  | next =>
    obtain ⟨message, rest, -, -, -, rfl⟩ := next_inv hstep
    exact ⟨h.failed, h.stopped⟩
  | handle =>
    obtain ⟨message, -, ⟨channel, -, rfl⟩ | ⟨herr, rfl⟩⟩ := handle_inv hstep
    · exact ⟨h.failed, h.stopped⟩
    · refine ⟨fun _ => ?_, by rintro ⟨⟩⟩
      show s.receiver = false
      cases hreceiver : s.receiver with
      | false => rfl
      | true => exact absurd herr (FnActorImpl.handle_ne_err hreceiver)
  | recv =>
    obtain ⟨message, rest, -, -, rfl⟩ := recv_inv hstep
    exact ⟨h.failed, h.stopped⟩
  | close =>
    cases hstep
    exact ⟨fun _ => rfl, h.stopped⟩
  | stop =>
    cases hstep
    exact ⟨h.failed, fun _ => rfl⟩
  | terminate =>
    obtain ⟨⟨-, hstopping, -⟩, rfl⟩ := terminate_inv hstep
    exact ⟨by rintro ⟨⟩, fun _ => hstopping⟩
  | kill =>
    obtain ⟨-, rfl⟩ := kill_inv hstep
    exact ⟨by rintro ⟨⟩, by rintro ⟨⟩⟩
  | superviseEvt event =>
    obtain rfl := superviseEvt_inv hstep
    exact h

/-- What has failed stays so, and a receiver does not come back. -/
theorem failed_of_step (hfailed : s.status = .failed) (hstep : FnActor.step handler l s = some t) :
    t.status = .failed := by
  have hnot : s.status ≠ .running := by
    rw [hfailed]
    exact nofun
  cases l with
  | sendMessage message => exact absurd (sendMessage_inv hstep).1 hnot
  | next =>
    obtain ⟨message, rest, -, -, ⟨hrunning, -⟩, -⟩ := next_inv hstep
    exact absurd hrunning hnot
  | handle =>
    obtain ⟨message, -, ⟨channel, -, rfl⟩ | ⟨-, rfl⟩⟩ := handle_inv hstep
    · exact hfailed
    · rfl
  | recv =>
    obtain ⟨message, rest, -, -, rfl⟩ := recv_inv hstep
    exact hfailed
  | close => cases hstep; exact hfailed
  | stop => cases hstep; exact hfailed
  | terminate => exact absurd (terminate_inv hstep).1.1 hnot
  | kill => exact absurd (kill_inv hstep).1 hnot
  | superviseEvt event =>
    obtain rfl := superviseEvt_inv hstep
    exact hfailed

theorem receiver_of_step (hreceiver : t.receiver = true) (hstep : FnActor.step handler l s = some t) :
    s.receiver = true := by
  cases l with
  | sendMessage message =>
    obtain ⟨-, rfl⟩ := sendMessage_inv hstep
    exact hreceiver
  | next =>
    obtain ⟨message, rest, -, -, -, rfl⟩ := next_inv hstep
    exact hreceiver
  | handle =>
    obtain ⟨message, -, ⟨channel, -, rfl⟩ | ⟨-, rfl⟩⟩ := handle_inv hstep <;> exact hreceiver
  | recv => exact (recv_inv hstep).choose_spec.choose_spec.1
  | close =>
    cases hstep
    cases hreceiver
  | stop =>
    cases hstep
    exact hreceiver
  | terminate =>
    obtain ⟨-, rfl⟩ := terminate_inv hstep
    exact hreceiver
  | kill =>
    obtain ⟨-, rfl⟩ := kill_inv hstep
    exact hreceiver
  | superviseEvt event =>
    obtain rfl := superviseEvt_inv hstep
    exact hreceiver

end

end FnActor

/-! ## What the function gets -/

/-- A step of the message pump, of the handler, or of a function that reads. -/
abbrev Internal (l : Label τ) (_ : FnActor τ) : Prop := l.isInternal = true

/-- **A `FnActor` loses nothing while it lives.** In every run its channel stays within `MAX_CHANNEL_SIZE`, its
    function gets the messages in the order in which they were accepted, it fails only when the function has let
    go of the receiver, and stops only when it was asked to. From where it lives, it comes to rest by itself, and
    then the function has got every message that was accepted. -/
theorem fn_actor_delivers {ls : List (Label τ)} {s : FnActor τ}
    (hrun : Transition.Run (FnActor.step (FnActorImpl.handle maxChannelSize)) Transition.Any ls .started s) :
    s.channel.length ≤ maxChannelSize ∧ s.received <+: s.accepted ∧
      (s.status = .failed → s.receiver = false) ∧ (s.status = .stopped → s.stopping = true) ∧
      (s.Live → ∀ ms t,
        Transition.Run (FnActor.step (FnActorImpl.handle maxChannelSize)) Internal ms s t →
          ms.length ≤ s.work ∧
            ((∀ l, Internal l t → FnActor.step (FnActorImpl.handle maxChannelSize) l t = none) →
              t.received = s.accepted)) := by
  have happends := FnActorImpl.handle_appends (τ := τ) maxChannelSize
  have hfifo : s.Fifo maxChannelSize := .of_run happends hrun
  have hends : s.EndsWell :=
    hrun.invariant (fun _ _ _ h _ hstep => h.step hstep) ⟨by rintro ⟨⟩, by rintro ⟨⟩⟩
  refine ⟨hfifo.bounded, (List.prefix_append _ _).trans hfifo.ordered, hends.failed, hends.stopped,
    fun hlive ms t hinternal => ⟨?_, fun hrest => ?_⟩⟩
  · have hlength := hinternal.length_le fun _ _ _ hl hstep => FnActor.work_lt_of_internal happends hl hstep
    exact Nat.le_trans (Nat.le_add_right _ _) hlength
  · -- what was accepted stays the same, so that the end of the run can be compared with its beginning
    obtain ⟨hfifo', hlive', haccepted⟩ : t.Fifo maxChannelSize ∧ t.Live ∧ t.accepted = s.accepted := by
      refine hinternal.invariant (P := fun u => u.Fifo maxChannelSize ∧ u.Live ∧ u.accepted = s.accepted)
        ?_ ⟨hfifo, hlive, rfl⟩
      rintro l u v ⟨hu, hulive, hsame⟩ hl hstep
      obtain ⟨hvlive, hkeeps⟩ := hulive.internal hl hstep
      exact ⟨hu.step happends hstep, hvlive, hkeeps.trans hsame⟩
    rw [hlive'.rest (by decide) hfifo' hrest, haccepted]

/-- Three messages; the function reads the first, lets go of the receiver, and the actor fails. -/
def lettingGo : List (Label Nat) :=
  [.sendMessage 1, .sendMessage 2, .next, .handle, .sendMessage 3, .recv, .next, .close, .handle]

theorem fn_actor_delivers_lettingGo : ∃ s : FnActor Nat, s.accepted = [1, 2, 3] ∧ s.received = [1] ∧
    s.status = .failed ∧ s.channel.length ≤ maxChannelSize ∧ s.received <+: s.accepted := by
  obtain ⟨s, hs⟩ : ∃ s, Transition.exec (FnActor.step (FnActorImpl.handle maxChannelSize)) lettingGo .started =
    some s := ⟨_, rfl⟩
  have hdelivers := fn_actor_delivers (Transition.run_of_exec hs)
  cases hs
  exact ⟨_, rfl, rfl, rfl, hdelivers.1, hdelivers.2.1⟩

/-! ## The actor that does not wait -/

namespace FnActor

/-- While there is a receiver, a `ThreadLocalFnActor` gives a message up exactly when the channel is full. -/
theorem ThreadLocalFnActorImpl.handle_err_iff {size : Nat} {channel : List τ} {message : τ}
    (hbounded : channel.length ≤ size + 1) :
    FunctionActor.ThreadLocalFnActorImpl.handle size true channel message = .err ↔ channel.length = size + 1 := by
  unfold FunctionActor.ThreadLocalFnActorImpl.handle
  rw [if_neg (by simp)]
  constructor
  · intro herr
    split at herr
    · cases herr
    · omega
  · intro hfull
    rw [if_neg (by omega)]

/-- The two handlers do the same while the channel has room. -/
theorem handle_eq_of_room {size : Nat} {receiver : Bool} {channel : List τ} (hroom : channel.length < size)
    (message : τ) : FunctionActor.ThreadLocalFnActorImpl.handle size receiver channel message =
      FunctionActor.FnActorImpl.handle size receiver channel message := by
  unfold FunctionActor.ThreadLocalFnActorImpl.handle FunctionActor.FnActorImpl.handle
  rw [if_pos hroom, if_pos (Nat.lt_succ_of_lt hroom)]

/-- The handler finds room. -/
def Roomy (size : Nat) (l : Label τ) (s : FnActor τ) : Prop := l = .handle → s.channel.length < size

theorem step_eq_of_roomy {size : Nat} {l : Label τ} {s : FnActor τ} (hroomy : Roomy size l s) :
    FnActor.step (FunctionActor.ThreadLocalFnActorImpl.handle size) l s =
      FnActor.step (FunctionActor.FnActorImpl.handle size) l s := by
  cases l with
  | handle => simp only [FnActor.step, handle_eq_of_room (hroomy rfl)]
  | _ => rfl

/-- The step with which a running actor fails. -/
theorem handle_of_fails {handler : Handler τ} {l : Label τ} {s t : FnActor τ} (hs : s.status ≠ .failed)
    (ht : t.status = .failed) (hstep : FnActor.step handler l s = some t) :
    l = .handle ∧ ∃ message, s.handling = some message ∧ handler s.receiver s.channel message = .err := by
  cases l with
  | handle =>
    obtain ⟨message, hhandling, ⟨channel, -, rfl⟩ | ⟨herr, -⟩⟩ := handle_inv hstep
    · exact absurd ht hs
    · exact ⟨rfl, message, hhandling, herr⟩
  | sendMessage message =>
    obtain ⟨-, rfl⟩ := sendMessage_inv hstep
    exact absurd ht hs
  | next =>
    obtain ⟨message, rest, -, -, -, rfl⟩ := next_inv hstep
    exact absurd ht hs
  | recv =>
    obtain ⟨message, rest, -, -, rfl⟩ := recv_inv hstep
    exact absurd ht hs
  | close =>
    cases hstep
    exact absurd ht hs
  | stop =>
    cases hstep
    exact absurd ht hs
  | terminate =>
    obtain ⟨-, rfl⟩ := terminate_inv hstep
    cases ht
  | kill =>
    obtain ⟨-, rfl⟩ := kill_inv hstep
    cases ht
  | superviseEvt event =>
    obtain rfl := superviseEvt_inv hstep
    exact absurd ht hs

/-- A handler that gives a message up ends the actor. -/
theorem fails_of_err {handler : Handler τ} {s t : FnActor τ} {message : τ} (hhandling : s.handling = some message)
    (herr : handler s.receiver s.channel message = .err) (hstep : FnActor.step handler .handle s = some t) :
    t.status = .failed := by
  obtain ⟨message', hhandling', ⟨channel, hok, -⟩ | ⟨-, rfl⟩⟩ := handle_inv hstep
  · rw [hhandling] at hhandling'
    cases hhandling'
    rw [herr] at hok
    cases hok
  · rfl

end FnActor

/-- **A `ThreadLocalFnActor` fails under load.** As long as its function keeps the receiver, such an actor has
    failed exactly when, at some point, its handler had a message and the channel, made with this size, was full.
    Where the handler has always found the channel shorter than that, the run is one of a `FnActor`. -/
theorem thread_local_fails_iff {size : Nat} {ls : List (Label τ)} {t : FnActor τ}
    (hrun : Transition.Run (FnActor.step (ThreadLocalFnActorImpl.handle size)) Transition.Any ls .started t)
    (hreceiver : t.receiver = true) :
    (t.status = .failed ↔ ∃ before after u, ls = before ++ .handle :: after ∧
      Transition.Run (FnActor.step (ThreadLocalFnActorImpl.handle size)) Transition.Any before .started u ∧
      u.handling.isSome ∧ u.channel.length = size + 1) ∧
    ((∀ l u, Transition.Occurs (FnActor.step (ThreadLocalFnActorImpl.handle size)) ls .started l u →
        FnActor.Roomy size l u) →
      Transition.Run (FnActor.step (FnActorImpl.handle size)) Transition.Any ls .started t) := by
  have happends := ThreadLocalFnActorImpl.handle_appends (τ := τ) size
  have hback : ∀ l s t, FnActor.step (ThreadLocalFnActorImpl.handle (τ := τ) size) l s = some t →
      t.receiver = true → s.receiver = true := fun _ _ _ hstep h => FnActor.receiver_of_step h hstep
  refine ⟨⟨fun hfailed => ?_, ?_⟩, fun hroomy => ?_⟩
  · obtain ⟨before, l, after, u, v, hls, hbefore, hu, -, hstep, hv, hafter⟩ :=
      hrun.crossing (P := fun s => s.status = .failed) (by rintro ⟨⟩) hfailed
    obtain ⟨rfl, message, hhandling, herr⟩ := FnActor.handle_of_fails hu hv hstep
    have hopen : v.receiver = true := hafter.backwards (P := fun s => s.receiver = true) hback hreceiver
    rw [hback _ _ _ hstep hopen] at herr
    exact ⟨before, after, u, hls, hbefore, by rw [hhandling]; rfl,
      (FnActor.ThreadLocalFnActorImpl.handle_err_iff (FnActor.Fifo.of_run happends hbefore).bounded).mp herr⟩
  · rintro ⟨before, after, u, rfl, hbefore, hhandling, hfull⟩
    have hrest := Transition.run_of_exec ((hbefore.exec_append (.handle :: after)).symm.trans hrun.exec)
    have hopen : u.receiver = true := hrest.backwards (P := fun s => s.receiver = true) hback hreceiver
    obtain ⟨message, hmessage⟩ := Option.isSome_iff_exists.mp hhandling
    have herr : ThreadLocalFnActorImpl.handle size u.receiver u.channel message = .err := by
      rw [hopen]
      exact (FnActor.ThreadLocalFnActorImpl.handle_err_iff (FnActor.Fifo.of_run happends hbefore).bounded).mpr hfull
    cases hrest with
    | cons _ hstep hafter =>
      exact hafter.invariant (P := fun s => s.status = .failed)
        (fun _ _ _ h _ hstep => FnActor.failed_of_step h hstep) (FnActor.fails_of_err hmessage herr hstep)
  · exact hrun.transfer fun l u v hoccurs hstep => by
      rw [← FnActor.step_eq_of_roomy (hroomy l u hoccurs)]
      exact hstep

/-- Three messages for a channel of size one that nobody reads. -/
def overload : List (Label Nat) :=
  [.sendMessage 1, .next, .handle, .sendMessage 2, .next, .handle, .sendMessage 3, .next, .handle]

theorem thread_local_fails_iff_overload : ∃ t : FnActor Nat, t.status = .failed ∧ t.channel = [1, 2] ∧
    ∃ before after u, overload = before ++ .handle :: after ∧
      Transition.Run (FnActor.step (ThreadLocalFnActorImpl.handle 1)) Transition.Any before .started u ∧
      u.handling.isSome ∧ u.channel.length = 2 := by
  obtain ⟨t, ht, hfailed, hchannel, hreceiver⟩ :
      ∃ t, Transition.exec (FnActor.step (ThreadLocalFnActorImpl.handle 1)) overload .started = some t ∧
        t.status = .failed ∧ t.channel = [1, 2] ∧ t.receiver = true := ⟨_, rfl, rfl, rfl, rfl⟩
  exact ⟨t, hfailed, hchannel, (thread_local_fails_iff (Transition.run_of_exec ht) hreceiver).1.mp hfailed⟩

end FunctionActor
end Wormhole
