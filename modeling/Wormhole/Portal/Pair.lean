import Wormhole.Portal.Steps

/-!
# `Portal.Pair` — two portals joined by a conduit

Two sides, and for each of them how many of the other's frames its receive loop has got: the conduit is
the part of `sent` that is not read yet, so it is FIFO and loses nothing. The stream ends when the other
portal is gone and everything has been read.
-/

namespace Wormhole
namespace Portal

variable {β : Type}

inductive Side where
  | left
  | right
  deriving DecidableEq, Repr

def Side.other : Side → Side
  | .left => .right
  | .right => .left

@[simp] theorem Side.other_other (s : Side) : s.other.other = s := by cases s <;> rfl
theorem Side.other_ne (s : Side) : s.other ≠ s := by cases s <;> decide

theorem Side.eq_or_other (s t : Side) : t = s ∨ t = s.other := by
  cases s <;> cases t <;> simp [Side.other]

structure Pair (β : Type) where
  node : Side → Node β
  read : Side → Nat

/-- Both portals have started. -/
def Pair.started (setup : Side → Setup) : Pair β :=
  { node := fun s => Node.started (setup s), read := fun _ => 0 }

/-- Two sides with two local actors each. -/
def twoSides : Side → Setup
  | .left =>
    { args := { identifier := "left", localId := ⟨1⟩, defaultRpcPortTimeout := 120 * 10 ^ 9 }
      contribution := Vector.replicate 16 3
      pick := 0
      actors := 2 }
  | .right =>
    { args := { identifier := "right", localId := ⟨2⟩, defaultRpcPortTimeout := 120 * 10 ^ 9 }
      contribution := Vector.replicate 16 5
      pick := 1
      actors := 2 }

/-- What an actor that the right one of them has published as 8 is called on the left. -/
def remoteEight : RemoteActorId := ⟨⟨0x06060606060606060606060606060606⟩, ⟨2⟩, ⟨8⟩⟩

inductive PairLabel (β : Type) where
  /-- the receive loop of a side gets the next item of its stream -/
  | receive (side : Side)
  /-- any other step of a side -/
  | move (side : Side) (label : Label β)
  deriving Repr

namespace Pair

def set (p : Pair β) (s : Side) (n : Node β) : Pair β :=
  { p with node := fun t => if t = s then n else p.node t }

def step (l : PairLabel β) (p : Pair β) : Option (Pair β) :=
  match l with
  | .receive s =>
    match (p.node s.other).sent[p.read s]? with
    | some frame =>
      (Node.step (.recv (some frame)) (p.node s)).map fun n =>
        { p.set s n with read := fun t => if t = s then p.read s + 1 else p.read t }
    | none =>
      if (p.node s.other).life = .running then none
      else (Node.step (.recv none) (p.node s)).map (p.set s)
  | .move _ (.recv _) => none
  | .move s label => (Node.step label (p.node s)).map (p.set s)

@[simp] theorem set_node_self (p : Pair β) (s : Side) (n : Node β) : (p.set s n).node s = n := if_pos rfl

theorem set_node_other (p : Pair β) {s t : Side} (n : Node β) (h : t ≠ s) :
    (p.set s n).node t = p.node t := if_neg h

/-- **What a step does**: one side moves, and reads a frame exactly if it receives one. -/
theorem step_cases {l : PairLabel β} {p q : Pair β} (h : step l p = some q) :
    ∃ s label, (l = .receive s ∧ (∃ frame, label = .recv frame) ∨ l = .move s label) ∧
      Node.step label (p.node s) = some (q.node s) ∧ q.node s.other = p.node s.other ∧
      q.read s.other = p.read s.other ∧
      ((∃ frame, label = .recv (some frame) ∧ (p.node s.other).sent[p.read s]? = some frame ∧
          q.read s = p.read s + 1) ∨
        q.read s = p.read s ∧ ∀ frame, label ≠ .recv (some frame)) := by
  cases l with
  | receive s =>
    simp only [step] at h
    split at h
    · rename_i frame hframe
      obtain ⟨n, hn, rfl⟩ := Option.map_eq_some_iff.mp h
      refine ⟨s, .recv (some frame), .inl ⟨rfl, _, rfl⟩, ?_, set_node_other p n s.other_ne,
        if_neg s.other_ne, .inl ?_⟩
      · rw [hn]; simp
      · exact ⟨frame, rfl, hframe, if_pos rfl⟩
    · split at h
      · cases h
      · obtain ⟨n, hn, rfl⟩ := Option.map_eq_some_iff.mp h
        refine ⟨s, .recv none, .inl ⟨rfl, _, rfl⟩, ?_, set_node_other p n s.other_ne, rfl, .inr ⟨rfl, by simp⟩⟩
        rw [hn]; simp
  | move s label =>
    have hmove (hl : ∀ frame, label ≠ .recv frame) :
        (Node.step label (p.node s)).map (p.set s) = some q := by
      rw [← h, step]
      exact fun frame hf => hl frame hf
    cases label with
    | recv frame => cases h
    | _ =>
      obtain ⟨n, hn, rfl⟩ := Option.map_eq_some_iff.mp (hmove (by simp))
      exact ⟨s, _, .inr rfl, by rw [hn]; simp, set_node_other p n s.other_ne, rfl, .inr ⟨rfl, by simp⟩⟩

theorem step_inv {l : PairLabel β} {p q : Pair β} (h : step l p = some q) :
    ∃ s label, Node.step label (p.node s) = some (q.node s) ∧ q.node s.other = p.node s.other ∧
      q.read s.other = p.read s.other ∧
      ((∃ frame, label = .recv (some frame) ∧ (p.node s.other).sent[p.read s]? = some frame ∧
          q.read s = p.read s + 1) ∨
        q.read s = p.read s ∧ ∀ frame, label ≠ .recv (some frame)) := by
  obtain ⟨s, label, -, hrest⟩ := step_cases h
  exact ⟨s, label, hrest⟩

/-! ## Histories -/

/-- The labels that a side has taken, other than those of its receive loop, and the states it took them in. -/
def Took (H : PairLabel β → Pair β → Prop) (s : Side) (label : Label β) (n : Node β) : Prop :=
  ∃ u, H (.move s label) u ∧ u.node s = n

end Pair

/-- A history goes on with a step of `l` from `n`. -/
structure Extends (took took' : Label β → Node β → Prop) (l : Label β) (n : Node β) : Prop where
  old : ∀ {l' m}, took l' m → took' l' m
  new : ∀ {l' m}, took' l' m → took l' m ∨ l' = l ∧ m = n
  now : (∀ frame, l ≠ .recv frame) → took' l n

/-- **What a step does to the histories**: that of the side that moves goes on. -/
theorem Pair.took_of_step {H : PairLabel β → Pair β → Prop} {l : PairLabel β} {p q : Pair β}
    (h : Pair.step l p = some q) : ∃ s label, Node.step label (p.node s) = some (q.node s) ∧
      q.node s.other = p.node s.other ∧
      Extends (Took H s) (Took (fun l' u => H l' u ∨ l' = l ∧ u = p) s) label (p.node s) ∧
      Took (fun l' u => H l' u ∨ l' = l ∧ u = p) s.other = Took H s.other ∧
      ∀ frame, label = .recv (some frame) → frame ∈ (p.node s.other).sent := by
  obtain ⟨s, label, hl, hnode, hother, -, hrecv⟩ := Pair.step_cases h
  refine ⟨s, label, hnode, hother, ⟨?_, ?_, ?_⟩, ?_, ?_⟩
  · rintro l' m ⟨u, hH, hm⟩
    exact ⟨u, .inl hH, hm⟩
  · rintro l' m ⟨u, hH | ⟨rfl, rfl⟩, rfl⟩
    · exact .inl ⟨u, hH, rfl⟩
    · obtain ⟨hne, -⟩ | heq := hl
      · cases hne
      · cases heq
        exact .inr ⟨rfl, rfl⟩
  · intro hne
    obtain ⟨-, frame, rfl⟩ | rfl := hl
    · exact absurd rfl (hne frame)
    · exact ⟨p, .inr ⟨rfl, rfl⟩, rfl⟩
  · funext l' m
    refine propext ⟨?_, fun ⟨u, hH, hm⟩ => ⟨u, .inl hH, hm⟩⟩
    rintro ⟨u, hH | ⟨rfl, rfl⟩, hm⟩
    · exact ⟨u, hH, hm⟩
    · obtain ⟨hne, -⟩ | heq := hl
      · cases hne
      · injection heq with hs
        exact absurd hs s.other_ne
  · rintro frame rfl
    obtain ⟨frame', heq, hframe, -⟩ | ⟨-, hne⟩ := hrecv
    · cases heq
      exact List.mem_of_getElem? hframe
    · exact absurd rfl (hne frame)

end Portal
end Wormhole
