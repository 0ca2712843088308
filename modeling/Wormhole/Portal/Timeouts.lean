import Wormhole.Portal.Node

/-!
# `Portal.Timeouts` — the timeout of a reply port, hop by hop

A reply port that goes through a portal leaves its timeout behind in milliseconds, and a port with that timeout is
made on the other side. That port can go on through the next portal.
-/

namespace Wormhole
namespace Portal

variable {β : Type}

/-! ## A hop -/

/-- What a hop of a reference depends on: the side that serializes it and the id that its portal gave out, and the
    side that rebuilds it, with the message that it is in. -/
structure Hop (β : Type) where
  sender : Node β
  id : RemoteActorId
  receiver : Node β
  rebuilding : Rebuilding β
  todo : List RemoteRef

/-- The reference that the receiver rebuilds. -/
def Hop.carry (hop : Hop β) (ref : LocalRef) : Option LocalRef := do
  let r ← (hop.receiver.rebuild hop.rebuilding (hop.sender.serialize hop.id ref) hop.todo).rebuilding
  r.done.getLast?

/-- The reference after all hops. -/
def carry : List (Hop β) → LocalRef → Option LocalRef
  | [], ref => some ref
  | hop :: hops, ref => do
    let ref ← hop.carry ref
    carry hops ref

/-- `Duration::from_millis(timeout.as_millis() as u64)`. -/
def hopTimeout (t : Duration) : Duration := t / 10 ^ 6 % 2 ^ 64 * 10 ^ 6

theorem Hop.carry_replyPort (hop : Hop β) (t : Duration) (port : PortId) :
    hop.carry (.replyPort (some t) port) = some (.replyPort (some (hopTimeout t)) hop.receiver.nextPort) :=
  List.getLast?_concat

/-! ## Many hops -/

/-- **What one hop has left, another one leaves as it is.** -/
theorem hopTimeout_hopTimeout (t : Duration) : hopTimeout (hopTimeout t) = hopTimeout t := by
  unfold hopTimeout
  rw [Nat.mul_div_cancel _ (Nat.pow_pos (by decide)), Nat.mod_mod]

/-- **A reply port has after any number of hops the timeout that it has after the first.** -/
theorem carry_replyPort (hop : Hop β) (hops : List (Hop β)) (t : Duration) (port : PortId) :
    ∃ port', carry (hop :: hops) (.replyPort (some t) port) = some (.replyPort (some (hopTimeout t)) port') := by
  induction hops generalizing hop t port with
  | nil => exact ⟨_, congrArg (· >>= carry []) (hop.carry_replyPort t port)⟩
  | cons next hops ih =>
    obtain ⟨port', hcarry⟩ := ih next (hopTimeout t) hop.receiver.nextPort
    rw [hopTimeout_hopTimeout] at hcarry
    refine ⟨port', ?_⟩
    show (hop.carry _ >>= carry (next :: hops)) = _
    rw [hop.carry_replyPort]
    exact hcarry

/-! ## Whole milliseconds -/

/-- The timeout in whole milliseconds. -/
def truncated (t : Duration) : Duration := t / 10 ^ 6 * 10 ^ 6

theorem truncated_le (t : Duration) : truncated t ≤ t := Nat.div_mul_le_self t _

theorem lt_truncated_add (t : Duration) : t < truncated t + 10 ^ 6 := Nat.lt_div_mul_add (by decide)

theorem truncated_mono {s t : Duration} (h : s ≤ t) : truncated s ≤ truncated t :=
  Nat.mul_le_mul_right _ (Nat.div_le_div_right h)

/-- **The cast to `u64` keeps the milliseconds exactly if there are fewer than `2^64`.** -/
theorem hopTimeout_eq_truncated_iff (t : Duration) : hopTimeout t = truncated t ↔ t / 10 ^ 6 < 2 ^ 64 := by
  unfold hopTimeout truncated
  rw [Nat.mul_left_inj (by decide)]
  constructor
  · intro h
    rw [← h]
    exact Nat.mod_lt _ (Nat.two_pow_pos 64)
  · exact Nat.mod_eq_of_lt

/-- **A timeout survives any number of hops, but for a fraction of a millisecond, if and only if it is shorter than
    `2^64` milliseconds.** Among such timeouts a longer one stays longer. -/
theorem timeout_survives_iff (hop : Hop β) (hops : List (Hop β)) (t : Duration) (port : PortId) :
    ∃ port' rebuilt, carry (hop :: hops) (.replyPort (some t) port) = some (.replyPort (some rebuilt) port') ∧
      ((rebuilt = truncated t ∧ rebuilt ≤ t ∧ t < rebuilt + 10 ^ 6) ↔ t / 10 ^ 6 < 2 ^ 64) ∧
      (t / 10 ^ 6 < 2 ^ 64 → ∀ s ≤ t, ∀ port₁ port₂ rebuilt₁,
        carry (hop :: hops) (.replyPort (some s) port₁) = some (.replyPort (some rebuilt₁) port₂) →
          rebuilt₁ ≤ rebuilt) := by
  obtain ⟨port', hcarry⟩ := carry_replyPort hop hops t port
  refine ⟨port', hopTimeout t, hcarry, ?_, ?_⟩
  · constructor
    · exact fun h => (hopTimeout_eq_truncated_iff t).mp h.1
    · intro h
      have heq := (hopTimeout_eq_truncated_iff t).mpr h
      rw [heq]
      exact ⟨rfl, truncated_le t, lt_truncated_add t⟩
  · intro h s hs port₁ port₂ rebuilt₁ hcarry₁
    obtain ⟨port₂', hcarry₂⟩ := carry_replyPort hop hops s port₁
    rw [hcarry₂] at hcarry₁
    cases hcarry₁
    have hs' : s / 10 ^ 6 < 2 ^ 64 := Nat.lt_of_le_of_lt (Nat.div_le_div_right hs) h
    rw [(hopTimeout_eq_truncated_iff t).mpr h, (hopTimeout_eq_truncated_iff s).mpr hs']
    exact truncated_mono hs

/-- A hop between two sides that have just started. -/
def someHop : Hop Unit :=
  let node : Node Unit := .started ⟨⟨"portal", ⟨0⟩, 15 * 10 ^ 9⟩, Vector.replicate 16 0, 0, 0⟩
  { sender := node, id := ⟨⟨0⟩, ⟨0⟩, ⟨0⟩⟩, receiver := node
    rebuilding := { actor := 0, tag := ⟨0, 0⟩, todo := [], done := [], body := none }, todo := [] }

/-- Of `2^64` milliseconds nothing is left. -/
theorem long_timeout_lost :
    carry [someHop] (.replyPort (some (2 ^ 64 * 10 ^ 6)) 0) = some (.replyPort (some 0) 0) ∧
      0 ≠ truncated (2 ^ 64 * 10 ^ 6) :=
  ⟨rfl, by decide⟩

end Portal
end Wormhole
