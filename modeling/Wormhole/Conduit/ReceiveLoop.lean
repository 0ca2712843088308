import Wormhole.Conduit.Framing

/-!
# `Conduit.ReceiveLoop` — what a transport passes on

`receive_loop` of `conduit/mod.rs`, over any source of messages: a byte stream, or a stream of socket events.
-/

namespace Wormhole
namespace Conduit

open LittleEndian

universe u

/-- A transport to read from; its stream ends with `none`. -/
abbrev ConduitSource (σ : Type u) : Type u := Reader σ ConduitMessage Failure

/-- What is cast to the portal. -/
inductive PortalActorMessage where
  | handshake (text : String)
  | content (data : Bytes)
  | close
  deriving DecidableEq, Repr

variable {σ : Type u}

/-- `let _ = actor_ref.cast(Close)`, after `casts` others. -/
def castClose (alive : Nat → Bool) (casts : Nat) : List PortalActorMessage :=
  if alive casts then [.close] else []

/-- `receive_loop`: what reaches the mailbox of the portal. `alive k` says whether the portal takes the `k`-th
    message that is cast to it. The last `cast` comes after every other one, also after one that has failed; where
    reading panics, the task of the loop ends there. -/
def receiveLoop (receiver : ConduitSource σ) (alive : Nat → Bool) (casts : Nat) (s : List σ) :
    List PortalActorMessage :=
  match _hnext : receiver.next s with
  | some (.ok (.handshake text), rest) =>
    if alive casts then .handshake text :: receiveLoop receiver alive (casts + 1) rest else castClose alive casts
  | some (.ok (.content data), rest) =>
    if alive casts then .content data :: receiveLoop receiver alive (casts + 1) rest else castClose alive casts
  | some (.ok (.close _), _) => castClose alive casts
  | some (.error (.err _), _) => castClose alive casts
  | some (.error .panic, _) => []
  | none => castClose alive casts
termination_by s.length
decreasing_by all_goals exact receiver.shrinks _hnext

/-! ## While the portal lives -/

/-- What a message is passed on as. -/
def ConduitMessage.passed? : ConduitMessage → Option PortalActorMessage
  | .handshake text => some (.handshake text)
  | .content data => some (.content data)
  | .close _ => none

/-- What is passed on of a list of messages: those before the first `Close`. -/
def passed (ms : List ConduitMessage) : List PortalActorMessage :=
  (ms.takeWhile (!·.isClose)).filterMap ConduitMessage.passed?

variable {receiver : ConduitSource σ} {alive : Nat → Bool} {s : List σ}

/-- The loop comes to a panic: reading has stopped with it, and no `Close` came before. -/
def Panics (receiver : ConduitSource σ) (s : List σ) : Prop :=
  (receiver.run s).stop = some .panic ∧ ∀ m ∈ (receiver.run s).messages, m.isClose = false

theorem panics_of_next {m : ConduitMessage} {rest : List σ} (h : receiver.next s = some (.ok m, rest)) :
    Panics receiver s ↔ m.isClose = false ∧ Panics receiver rest := by
  rw [Panics, Panics, Reader.run_of_next h, List.forall_mem_cons]
  exact and_left_comm

/-- **What the portal gets**: the messages before the first `Close`, error or end of the stream, and then one
    `Close`. -/
theorem receiveLoop_eq (halive : ∀ k, alive k = true) (casts : Nat) (hreads : ¬Panics receiver s) :
    receiveLoop receiver alive casts s = passed (receiver.run s).messages ++ [.close] := by
  have hclose (casts : Nat) : castClose alive casts = [.close] := if_pos (halive casts)
  fun_induction receiveLoop receiver alive casts s with
  | case1 casts s text rest hnext _ ih =>
    rw [Reader.run_of_next hnext, ih fun h => hreads ((panics_of_next hnext).mpr ⟨rfl, h⟩)]
    rfl
  | case2 casts s text rest hnext hdead => exact absurd (halive casts) hdead
  | case3 casts s data rest hnext _ ih =>
    rw [Reader.run_of_next hnext, ih fun h => hreads ((panics_of_next hnext).mpr ⟨rfl, h⟩)]
    rfl
  | case4 casts s data rest hnext hdead => exact absurd (halive casts) hdead
  | case5 casts s reason rest hnext =>
    rw [Reader.run_of_next hnext]
    exact hclose casts
  | case6 casts s e rest hnext =>
    rw [Reader.run_of_error hnext]
    exact hclose casts
  | case7 casts s rest hnext =>
    rw [Panics, Reader.run_of_error hnext] at hreads
    exact absurd ⟨rfl, nofun⟩ hreads
  | case8 casts s hnext =>
    rw [Reader.run_of_end hnext]
    exact hclose casts

/-- Where reading panics, the `Close` is missing. -/
theorem receiveLoop_of_panics (halive : ∀ k, alive k = true) (casts : Nat) (hpanics : Panics receiver s) :
    receiveLoop receiver alive casts s = passed (receiver.run s).messages := by
  fun_induction receiveLoop receiver alive casts s with
  | case1 casts s text rest hnext _ ih =>
    rw [Reader.run_of_next hnext, ih ((panics_of_next hnext).mp hpanics).2]
    rfl
  | case2 casts s text rest hnext hdead => exact absurd (halive casts) hdead
  | case3 casts s data rest hnext _ ih =>
    rw [Reader.run_of_next hnext, ih ((panics_of_next hnext).mp hpanics).2]
    rfl
  | case4 casts s data rest hnext hdead => exact absurd (halive casts) hdead
  | case5 casts s reason rest hnext => cases ((panics_of_next hnext).mp hpanics).1
  | case6 casts s e rest hnext =>
    rw [Panics, Reader.run_of_error hnext] at hpanics
    cases hpanics.1
  | case7 casts s rest hnext =>
    rw [Reader.run_of_error hnext]
    rfl
  | case8 casts s hnext =>
    rw [Panics, Reader.run_of_end hnext] at hpanics
    cases hpanics.1

end Conduit
end Wormhole
