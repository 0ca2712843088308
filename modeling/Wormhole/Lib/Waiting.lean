import Mathlib.Logic.Function.Basic
import Mathlib.Logic.Relation
import Wormhole.Lib.Async

/-!
# `Lib.Waiting` — processes that wait for each other

Processes run programs, one at a time: first that of their start-up, and then one for each message. A program
may be suspended at an operation because the reply of a process is awaited, or the start-up of a new one.
Which answer is got, and when, is left open: an answer may come at any time, and be any. What is shown of all
runs holds of those in which the answers come from the processes that are asked.

A process has a kind, which says what it runs, and which processes it has references to. If the kinds have
ranks, a process asks only processes of a lower rank, and a start-up waits for nobody, then no processes wait
for each other in a circle: `acyclic`.
-/

namespace Waiting

abbrev ProcessId : Type := Nat

variable {ω : Type} {answer : ω → Type} {κ : Type}

/-! ## Processes -/

/-- What is awaited at an operation, and what it brings about. -/
inductive Effect (κ : Type) where
  /-- nothing, or nobody of the system -/
  | elsewhere
  /-- the reply of a process -/
  | reply (process : ProcessId)
  /-- the start-up of a new process -/
  | start (kind : κ)
  /-- nothing; there is a new process -/
  | detach (kind : κ)

structure Behaviour (ω : Type) (answer : ω → Type) (κ : Type) where
  effect : ω → Effect κ
  /-- what a process runs first -/
  Begins : κ → ProcessId → Async ω answer Unit → Prop
  /-- what a process runs when it takes a message -/
  Handles : κ → ProcessId → Async ω answer Unit → Prop

structure Process (ω : Type) (answer : ω → Type) (κ : Type) where
  kind : κ
  /-- nobody waits for its start-up any more -/
  up : Bool
  program : Option (Async ω answer Unit)
  /-- the process whose start-up it waits for -/
  child : Option ProcessId

structure System (ω : Type) (answer : ω → Type) (κ : Type) where
  process : ProcessId → Option (Process ω answer κ)
  next : ProcessId

namespace System

/-- A system of one process, which waits for messages. -/
def single (kind : κ) : System ω answer κ :=
  { process := fun p => if p = 0 then some { kind, up := true, program := none, child := none } else none
    next := 1 }

def set (s : System ω answer κ) (p : ProcessId) (x : Option (Process ω answer κ)) : System ω answer κ :=
  { s with process := Function.update s.process p x }

/-- A new process. -/
def add (s : System ω answer κ) (x : Process ω answer κ) : System ω answer κ :=
  { process := Function.update s.process s.next (some x), next := s.next + 1 }

section

variable {s : System ω answer κ} {p q : ProcessId} {x : Process ω answer κ} {x' : Option (Process ω answer κ)}

@[simp] theorem set_next : (s.set p x').next = s.next := rfl

@[simp] theorem add_next : (s.add x).next = s.next + 1 := rfl

@[simp] theorem set_process_self : (s.set p x').process p = x' := by
  unfold set
  exact Function.update_self ..

theorem set_process_ne (hq : q ≠ p) : (s.set p x').process q = s.process q := by
  unfold set
  exact Function.update_of_ne hq ..

@[simp] theorem add_process_self : (s.add x).process s.next = some x := by
  unfold add
  exact Function.update_self ..

theorem add_process_ne (hq : q ≠ s.next) : (s.add x).process q = s.process q := by
  unfold add
  exact Function.update_of_ne hq ..

theorem set_comm {y' : Option (Process ω answer κ)} (hne : p ≠ q) : (s.set p x').set q y' = (s.set q y').set p x' := by
  unfold set
  rw [Function.update_comm hne]

/-- A process changes while there is a new one. -/
theorem set_add (hp : p ≠ s.next) : (s.set p x').add x = (s.add x).set p x' := by
  unfold set add
  dsimp only
  rw [Function.update_comm hp]

end

end System

/-! ## Steps -/

inductive Step (b : Behaviour ω answer κ) : System ω answer κ → System ω answer κ → Prop
  /-- a process takes a message -/
  | handle {s p x program} (hp : s.process p = some x) (hup : x.up = true) (hidle : x.program = none)
      (hprogram : b.Handles x.kind p program) : Step b s (s.set p (some { x with program := some program }))
  /-- an operation is answered -/
  | answered {s p x o next} (r : answer o) (hp : s.process p = some x) (hop : x.program = some (.op o next))
      (heffect : b.effect o = .elsewhere ∨ ∃ q, b.effect o = .reply q) :
      Step b s (s.set p (some { x with program := some (next r) }))
  | detach {s p x o next kind program} (r : answer o) (hp : s.process p = some x)
      (hop : x.program = some (.op o next)) (heffect : b.effect o = .detach kind)
      (hprogram : b.Begins kind s.next program) :
      Step b s ((s.set p (some { x with program := some (next r) })).add
        { kind, up := true, program := some program, child := none })
  /-- a start-up begins, and the process waits for it -/
  | start {s p x o next kind program} (hp : s.process p = some x) (hop : x.program = some (.op o next))
      (heffect : b.effect o = .start kind) (hchild : x.child = none) (hprogram : b.Begins kind s.next program) :
      Step b s ((s.set p (some { x with child := some s.next })).add
        { kind, up := false, program := some program, child := none })
  /-- the start-up has ended -/
  | started {s p x o next c y} (r : answer o) (hp : s.process p = some x) (hop : x.program = some (.op o next))
      (hchild : x.child = some c) (hc : s.process c = some y) (hdone : y.program = some (.done ())) :
      Step b s ((s.set c (some { y with up := true, program := none })).set p
        (some { x with program := some (next r), child := none }))
  /-- the start-up has failed -/
  | unstarted {s p x o next c} (r : answer o) (hp : s.process p = some x) (hop : x.program = some (.op o next))
      (hchild : x.child = some c) :
      Step b s ((s.set c none).set p (some { x with program := some (next r), child := none }))
  /-- the start-up has ended, but nobody waits for it any more -/
  | orphaned {s c y} (hc : s.process c = some y) (hdone : y.program = some (.done ()))
      (hnobody : ∀ p x, s.process p = some x → x.child ≠ some c) :
      Step b s (s.set c (some { y with up := true, program := none }))
  /-- a handler returns -/
  | returned {s p x} (hp : s.process p = some x) (hup : x.up = true) (hdone : x.program = some (.done ())) :
      Step b s (s.set p (some { x with program := none }))
  /-- a process ends, or is killed -/
  | exit {s} (p : ProcessId) : Step b s (s.set p none)

def Reachable (b : Behaviour ω answer κ) : System ω answer κ → System ω answer κ → Prop :=
  Relation.ReflTransGen (Step b)

/-- `p` is suspended, and awaits the reply of `q` or its start-up. -/
def Awaits (b : Behaviour ω answer κ) (s : System ω answer κ) (p q : ProcessId) : Prop :=
  ∃ x, s.process p = some x ∧
    ((∃ o next, x.program = some (.op o next) ∧ b.effect o = .reply q) ∨ x.child = some q)

/-! ## Ranks -/

/-- An operation of a start-up: nothing in the system is awaited. -/
def Quiet (b : Behaviour ω answer κ) (o : ω) : Prop := b.effect o = .elsewhere

/-- Ranks of the kinds, and the processes that one of a kind has references to. -/
structure Ranking (b : Behaviour ω answer κ) where
  rank : κ → Nat
  Refers : κ → ProcessId → Prop
  pos : ∀ kind, 0 < rank kind

namespace Ranking

variable {b : Behaviour ω answer κ}

/-- Whoever a new process of the kind refers to is below it. -/
def Gives (r : Ranking b) (kind : κ) (p : ProcessId) (new : κ) : Prop :=
  ∀ q, r.Refers new q → q = p ∧ r.rank kind < r.rank new ∨ r.Refers kind q ∧ r.rank kind ≤ r.rank new

/-- What the process `p` of the kind may perform. -/
def Allows (r : Ranking b) (kind : κ) (p : ProcessId) (o : ω) : Prop :=
  match b.effect o with
  | .elsewhere => True
  | .reply q => r.Refers kind q
  | .start new => r.Gives kind p new ∧ ∀ c program, b.Begins new c program → program.Performs (Quiet b)
  | .detach new => r.Gives kind p new

/-- Every program keeps to the ranks. -/
structure Respected (r : Ranking b) : Prop where
  begins : ∀ kind p program, b.Begins kind p program → program.Performs (r.Allows kind p)
  handles : ∀ kind p program, b.Handles kind p program → program.Performs (r.Allows kind p)

/-- What is true of a process in a reachable system. -/
structure Keeps (r : Ranking b) (s : System ω answer κ) (p : ProcessId) (x : Process ω answer κ) : Prop where
  /-- the processes that it refers to run, and are of a lower rank -/
  below : ∀ q, r.Refers x.kind q →
    q < s.next ∧ ∀ y, s.process q = some y → y.up = true ∧ r.rank y.kind < r.rank x.kind
  running : x.up = true → ∀ program, x.program = some program → program.Performs (r.Allows x.kind p)
  starting : x.up = false → x.child = none ∧ ∀ program, x.program = some program → program.Performs (Quiet b)
  child : ∀ c, x.child = some c → c < s.next ∧ c ≠ p ∧ ∀ y, s.process c = some y → y.up = false

structure Invariant (r : Ranking b) (s : System ω answer κ) : Prop where
  fresh : ∀ p, s.next ≤ p → s.process p = none
  keeps : ∀ p x, s.process p = some x → r.Keeps s p x
  /-- nobody's start-up is awaited twice -/
  single : ∀ p q x y c, s.process p = some x → s.process q = some y → x.child = some c → y.child = some c → p = q

/-! ## The rule of ranks -/

variable {r : Ranking b} {s s' : System ω answer κ} {p c : ProcessId} {x x' y : Process ω answer κ}

theorem invariant_single (r : Ranking b) {kind : κ} (hkind : ∀ q, ¬r.Refers kind q) :
    r.Invariant (System.single kind) where
  fresh := by
    intro p hp
    have hne : p ≠ 0 := Nat.ne_of_gt hp
    exact if_neg hne
  keeps := by
    intro p x hx
    simp only [System.single] at hx
    split at hx
    · cases hx
      constructor
      · exact fun q hq => absurd hq (hkind q)
      · exact nofun
      · exact nofun
      · exact nofun
    · cases hx
  single := by
    intro p q x y c hx hy hc
    simp only [System.single] at hx
    split at hx
    · cases hx
      cases hc
    · cases hx

/-- Who still is there is of the kind it was, and as far. -/
def Ages (s s' : System ω answer κ) : Prop :=
  s.next ≤ s'.next ∧ ∀ q y', q < s.next → s'.process q = some y' →
    ∃ y, s.process q = some y ∧ y'.kind = y.kind ∧ (y.up = true → y'.up = true)

/-- Nobody waits for the start-up of `c`. -/
def Nobody (s : System ω answer κ) (c : ProcessId) : Prop := ∀ q y, s.process q = some y → y.child ≠ some c

theorem Keeps.ages (h : r.Keeps s p x) (hages : Ages s s')
    (hchild : ∀ c, x.child = some c → ∀ y, s'.process c = some y → y.up = false) : r.Keeps s' p x where
  below := by
    intro q hq
    obtain ⟨hlt, hbelow⟩ := h.below q hq
    refine ⟨Nat.lt_of_lt_of_le hlt hages.1, ?_⟩
    intro y' hy'
    obtain ⟨y, hy, hkind, hup⟩ := hages.2 q y' hlt hy'
    rw [hkind]
    exact ⟨hup (hbelow y hy).1, (hbelow y hy).2⟩
  running := h.running
  starting := h.starting
  child := by
    intro c hc
    obtain ⟨hlt, hne, -⟩ := h.child c hc
    exact ⟨Nat.lt_of_lt_of_le hlt hages.1, hne, hchild c hc⟩

theorem ages_set (hp : s.process p = some x) (hkind : x'.kind = x.kind) (hup : x.up = true → x'.up = true) :
    Ages s (s.set p (some x')) := by
  refine ⟨Nat.le_refl _, ?_⟩
  intro q y' _ hy'
  by_cases hq : q = p
  · subst hq
    rw [System.set_process_self] at hy'
    cases hy'
    exact ⟨x, hp, hkind, hup⟩
  · rw [System.set_process_ne hq] at hy'
    exact ⟨y', hy', rfl, id⟩

theorem ages_remove (s : System ω answer κ) (p : ProcessId) : Ages s (s.set p none) := by
  refine ⟨Nat.le_refl _, ?_⟩
  intro q y' _ hy'
  by_cases hq : q = p
  · subst hq
    rw [System.set_process_self] at hy'
    cases hy'
  · rw [System.set_process_ne hq] at hy'
    exact ⟨y', hy', rfl, id⟩

theorem ages_add (s : System ω answer κ) (x : Process ω answer κ) : Ages s (s.add x) := by
  refine ⟨Nat.le_succ _, ?_⟩
  intro q y' hq hy'
  rw [System.add_process_ne (Nat.ne_of_lt hq)] at hy'
  exact ⟨y', hy', rfl, id⟩

namespace Invariant

theorem lt_next (h : r.Invariant s) (hp : s.process p = some x) : p < s.next := by
  by_contra hlt
  rw [h.fresh p (Nat.not_lt.mp hlt)] at hp
  cases hp

/-- Removing a process. -/
theorem remove (h : r.Invariant s) (p : ProcessId) : r.Invariant (s.set p none) := by
  have hlookup {q : ProcessId} {y : Process ω answer κ} (hy : (s.set p none).process q = some y) :
      s.process q = some y := by
    by_cases hq : q = p
    · subst hq
      rw [System.set_process_self] at hy
      cases hy
    · rwa [System.set_process_ne hq] at hy
  constructor
  · intro q hq
    by_contra hsome
    obtain ⟨y, hy⟩ := Option.ne_none_iff_exists'.mp hsome
    have hlt := h.lt_next (hlookup hy)
    exact absurd hq (Nat.not_le.mpr hlt)
  · intro q y hy
    refine (h.keeps q y (hlookup hy)).ages (ages_remove s p) ?_
    intro c hc z hz
    exact ((h.keeps q y (hlookup hy)).child c hc).2.2 z (hlookup hz)
  · intro q q' y y' c hy hy'
    exact h.single q q' y y' c (hlookup hy) (hlookup hy')

/-- A process changes its program, and may begin to wait for a start-up that nobody waits for. -/
theorem set (h : r.Invariant s) (hp : s.process p = some x) (hkind : x'.kind = x.kind) (hup : x'.up = x.up)
    (hchild : ∀ c, x'.child = some c → x.child = some c ∨
      (x.up = true ∧ c < s.next ∧ c ≠ p ∧ (∀ y, s.process c = some y → y.up = false) ∧ Nobody s c))
    (hrunning : x.up = true → ∀ program, x'.program = some program → program.Performs (r.Allows x.kind p))
    (hstarting : x.up = false → ∀ program, x'.program = some program → program.Performs (Quiet b)) :
    r.Invariant (s.set p (some x')) := by
  have hkeeps := h.keeps p x hp
  have hages : Ages s (s.set p (some x')) := ages_set hp hkind fun hx => hup.trans hx
  -- the start-up of a child that was awaited before is not over
  have hdown {c : ProcessId} (hc : ∀ y, s.process c = some y → y.up = false) (y : Process ω answer κ)
      (hy : (s.set p (some x')).process c = some y) : y.up = false := by
    by_cases hcp : c = p
    · subst hcp
      rw [System.set_process_self] at hy
      cases hy
      rw [hup]
      exact hc x hp
    · rw [System.set_process_ne hcp] at hy
      exact hc y hy
  have hnew (c : ProcessId) (hc : x'.child = some c) :
      c < s.next ∧ c ≠ p ∧ ∀ y, s.process c = some y → y.up = false := by
    obtain hold | ⟨-, hlt, hne, hstarts, -⟩ := hchild c hc
    · exact hkeeps.child c hold
    · exact ⟨hlt, hne, hstarts⟩
  -- a child of `p` is a child of no other process
  have honly {q c : ProcessId} {y : Process ω answer κ} (hq : q ≠ p) (hy : s.process q = some y)
      (hc : x'.child = some c) : y.child ≠ some c := by
    intro hyc
    obtain hold | ⟨-, -, -, -, hnobody⟩ := hchild c hc
    · exact hq (h.single q p y x c hy hp hyc hold)
    · exact hnobody q y hy hyc
  constructor
  · intro q hq
    rw [System.set_process_ne (Nat.ne_of_gt (Nat.lt_of_lt_of_le (h.lt_next hp) hq))]
    exact h.fresh q hq
  · intro q y hy
    by_cases hq : q = p
    · subst hq
      rw [System.set_process_self] at hy
      cases hy
      have hx' : r.Keeps s q x' := by
        constructor
        · rw [hkind]
          exact hkeeps.below
        · rw [hkind, hup]
          exact hrunning
        · intro hnot
          rw [hup] at hnot
          refine ⟨?_, hstarting hnot⟩
          cases hc : x'.child with
          | none => rfl
          | some c =>
            obtain hold | ⟨hx, -⟩ := hchild c hc
            · rw [(hkeeps.starting hnot).1] at hold
              cases hold
            · rw [hnot] at hx
              cases hx
        · exact hnew
      exact hx'.ages hages fun c hc => hdown (hnew c hc).2.2
    · rw [System.set_process_ne hq] at hy
      have hy' := h.keeps q y hy
      exact hy'.ages hages fun c hc => hdown (hy'.child c hc).2.2
  · intro q q' y y' c hy hy' hc hc'
    by_cases hq : q = p
    · by_cases hq' : q' = p
      · exact hq.trans hq'.symm
      · subst hq
        rw [System.set_process_self] at hy
        cases hy
        rw [System.set_process_ne hq'] at hy'
        exact absurd hc' (honly hq' hy' hc)
    · rw [System.set_process_ne hq] at hy
      by_cases hq' : q' = p
      · subst hq'
        rw [System.set_process_self] at hy'
        cases hy'
        exact absurd hc (honly hq hy hc')
      · rw [System.set_process_ne hq'] at hy'
        exact h.single q q' y y' c hy hy' hc hc'

/-- The start-up of a process is over, and nobody waits for it. -/
theorem raise (h : r.Invariant s) (hc : s.process c = some y) (hnobody : Nobody s c) :
    r.Invariant (s.set c (some { y with up := true, program := none })) := by
  have hages : Ages s (s.set c (some { y with up := true, program := none })) := ages_set hc rfl fun _ => rfl
  have hlookup {q : ProcessId} {z : Process ω answer κ}
      (hz : (s.set c (some { y with up := true, program := none })).process q = some z) :
      ∃ z', s.process q = some z' ∧ z.child = z'.child := by
    by_cases hq : q = c
    · subst hq
      rw [System.set_process_self] at hz
      cases hz
      exact ⟨y, hc, rfl⟩
    · rw [System.set_process_ne hq] at hz
      exact ⟨z, hz, rfl⟩
  have hdown {q d : ProcessId} {z : Process ω answer κ} (hz : s.process q = some z) (hd : z.child = some d)
      (u : Process ω answer κ) (hu : (s.set c (some { y with up := true, program := none })).process d = some u) :
      u.up = false := by
    have hne : d ≠ c := fun heq => hnobody q z hz (heq ▸ hd)
    rw [System.set_process_ne hne] at hu
    exact ((h.keeps q z hz).child d hd).2.2 u hu
  constructor
  · intro q hq
    rw [System.set_process_ne (Nat.ne_of_gt (Nat.lt_of_lt_of_le (h.lt_next hc) hq))]
    exact h.fresh q hq
  · intro q z hz
    by_cases hq : q = c
    · subst hq
      rw [System.set_process_self] at hz
      cases hz
      have hkeeps := h.keeps q y hc
      have hraised : r.Keeps s q { y with up := true, program := none } :=
        { below := hkeeps.below
          running := nofun
          starting := nofun
          child := hkeeps.child }
      exact hraised.ages hages fun d hd => hdown hc hd
    · rw [System.set_process_ne hq] at hz
      exact (h.keeps q z hz).ages hages fun d hd => hdown hz hd
  · intro q q' z z' d hz hz' hd hd'
    obtain ⟨u, hu, hchild⟩ := hlookup hz
    obtain ⟨u', hu', hchild'⟩ := hlookup hz'
    exact h.single q q' u u' d hu hu' (hchild ▸ hd) (hchild' ▸ hd')

/-- A new process. -/
theorem add (h : r.Invariant s) (hchild : x.child = none)
    (hbelow : ∀ q, r.Refers x.kind q →
      q < s.next ∧ ∀ y, s.process q = some y → y.up = true ∧ r.rank y.kind < r.rank x.kind)
    (hrunning : x.up = true → ∀ program, x.program = some program → program.Performs (r.Allows x.kind s.next))
    (hstarting : x.up = false → ∀ program, x.program = some program → program.Performs (Quiet b)) :
    r.Invariant (s.add x) := by
  have hages := ages_add s x
  constructor
  · intro q hq
    rw [System.add_process_ne (Nat.ne_of_gt hq)]
    exact h.fresh q (Nat.le_of_succ_le hq)
  · intro q z hz
    by_cases hq : q = s.next
    · subst hq
      rw [System.add_process_self] at hz
      cases hz
      constructor
      · intro q hq
        obtain ⟨hlt, hlow⟩ := hbelow q hq
        refine ⟨Nat.lt_succ_of_lt hlt, ?_⟩
        intro y hy
        rw [System.add_process_ne (Nat.ne_of_lt hlt)] at hy
        exact hlow y hy
      · exact hrunning
      · exact fun hup => ⟨hchild, hstarting hup⟩
      · intro c hc
        rw [hchild] at hc
        cases hc
    · rw [System.add_process_ne hq] at hz
      refine (h.keeps q z hz).ages hages ?_
      intro c hc y hy
      obtain ⟨hlt, -, hdown⟩ := (h.keeps q z hz).child c hc
      rw [System.add_process_ne (Nat.ne_of_lt hlt)] at hy
      exact hdown y hy
  · intro q q' z z' c hz hz' hc hc'
    have hold {q : ProcessId} {z : Process ω answer κ} (hz : (s.add x).process q = some z) (hc : z.child = some c) :
        s.process q = some z := by
      by_cases hq : q = s.next
      · subst hq
        rw [System.add_process_self] at hz
        cases hz
        rw [hchild] at hc
        cases hc
      · rwa [System.add_process_ne hq] at hz
    exact h.single q q' z z' c (hold hz hc) (hold hz' hc') hc hc'

/-- What a process performs at an operation that brings about more than an answer, it may perform: it runs. -/
theorem allows (h : r.Invariant s) (hp : s.process p = some x) {o : ω} {next : answer o → Async ω answer Unit}
    (hop : x.program = some (.op o next)) (heffect : b.effect o ≠ .elsewhere) :
    x.up = true ∧ r.Allows x.kind p o := by
  have hkeeps := h.keeps p x hp
  cases hup : x.up with
  | true => exact ⟨rfl, (hkeeps.running hup _ hop).1⟩
  | false => exact absurd ((hkeeps.starting hup).2 _ hop).1 heffect

/-- The processes that a new one refers to. -/
theorem below_of_gives (h : r.Invariant s) (hp : s.process p = some x) (hup : x.up = true) {new : κ}
    (hgives : r.Gives x.kind p new) (q : ProcessId) (hq : r.Refers new q) :
    q < s.next ∧ ∀ y, s.process q = some y → y.up = true ∧ r.rank y.kind < r.rank new := by
  obtain ⟨rfl, hrank⟩ | ⟨hrefers, hrank⟩ := hgives q hq
  · refine ⟨h.lt_next hp, ?_⟩
    intro y hy
    obtain rfl := Option.some.inj (hp.symm.trans hy)
    exact ⟨hup, hrank⟩
  · obtain ⟨hlt, hbelow⟩ := (h.keeps p x hp).below q hrefers
    refine ⟨hlt, ?_⟩
    intro y hy
    exact ⟨(hbelow y hy).1, Nat.lt_of_lt_of_le (hbelow y hy).2 hrank⟩

/-- A process goes on with the answer to an operation. -/
theorem go_on (h : r.Invariant s) (hp : s.process p = some x) {o : ω} {next : answer o → Async ω answer Unit}
    (hop : x.program = some (.op o next)) (a : answer o) (hprogram : x'.program = some (next a))
    (hkind : x'.kind = x.kind) (hup : x'.up = x.up) (hchild : ∀ c, x'.child = some c → x.child = some c) :
    r.Invariant (s.set p (some x')) := by
  have hkeeps := h.keeps p x hp
  refine h.set hp hkind hup (fun c hc => Or.inl (hchild c hc)) ?_ ?_
  · intro hx program heq
    obtain rfl := Option.some.inj (hprogram.symm.trans heq)
    exact (hkeeps.running hx _ hop).2 a
  · intro hx program heq
    obtain rfl := Option.some.inj (hprogram.symm.trans heq)
    exact ((hkeeps.starting hx).2 _ hop).2 a

/-- **Every step keeps the invariant**, if the programs keep to the ranks. -/
theorem step (hr : r.Respected) (h : r.Invariant s) (hstep : Step b s s') : r.Invariant s' := by
  cases hstep with
  | @handle p x program hp hup hidle hprogram =>
    refine h.set hp rfl rfl (fun c hc => Or.inl hc) ?_ ?_
    · intro _ program' heq
      obtain rfl := Option.some.inj heq
      exact hr.handles _ _ _ hprogram
    · intro hnot
      rw [hup] at hnot
      cases hnot
  | answered a hp hop heffect => exact h.go_on hp hop a rfl rfl rfl fun _ => id
  | @detach p x o next kind program a hp hop heffect hprogram =>
    obtain ⟨hup, hallows⟩ := h.allows hp hop (by rw [heffect]; exact nofun)
    unfold Allows at hallows
    rw [heffect] at hallows
    -- first the process is added, and then the one that spawned it goes on
    have hadd : r.Invariant (s.add { kind, up := true, program := some program, child := none }) := by
      refine h.add rfl (h.below_of_gives hp hup hallows) ?_ nofun
      intro _ program' heq
      obtain rfl := Option.some.inj heq
      exact hr.begins _ _ _ hprogram
    have hne := Nat.ne_of_lt (h.lt_next hp)
    rw [System.set_add hne]
    exact hadd.go_on ((System.add_process_ne hne).trans hp) hop a rfl rfl rfl fun _ => id
  | @start p x o next kind program hp hop heffect hidle hprogram =>
    obtain ⟨hup, hallows⟩ := h.allows hp hop (by rw [heffect]; exact nofun)
    unfold Allows at hallows
    rw [heffect] at hallows
    have hadd : r.Invariant (s.add { kind, up := false, program := some program, child := none }) := by
      refine h.add rfl (h.below_of_gives hp hup hallows.1) nofun ?_
      intro _ program' heq
      obtain rfl := Option.some.inj heq
      exact hallows.2 _ _ hprogram
    have hne := Nat.ne_of_lt (h.lt_next hp)
    have hkeeps := h.keeps p x hp
    rw [System.set_add hne]
    refine hadd.set ((System.add_process_ne hne).trans hp) rfl rfl ?_ hkeeps.running ?_
    · intro c hc
      obtain rfl := Option.some.inj hc
      -- the child is the new process, and nobody else waits for it
      refine Or.inr ⟨hup, Nat.lt_succ_self _, hne.symm, ?_, ?_⟩
      · intro y hy
        rw [System.add_process_self] at hy
        cases hy
        rfl
      · intro q y hy hyc
        by_cases hq : q = s.next
        · subst hq
          rw [System.add_process_self] at hy
          cases hy
          cases hyc
        · rw [System.add_process_ne hq] at hy
          exact absurd ((h.keeps q y hy).child _ hyc).1 (Nat.lt_irrefl _)
    · intro hnot
      rw [hup] at hnot
      cases hnot
  | @started p x o next c y a hp hop hchild hc hdone =>
    obtain ⟨-, hne, -⟩ := (h.keeps p x hp).child c hchild
    have hset : r.Invariant (s.set p (some { x with program := some (next a), child := none })) :=
      h.go_on hp hop a rfl rfl rfl nofun
    -- first the parent goes on, which leaves the child to nobody; then the child may rise
    rw [System.set_comm hne]
    refine hset.raise ((System.set_process_ne hne).trans hc) ?_
    intro q z hz hzc
    by_cases hq : q = p
    · subst hq
      rw [System.set_process_self] at hz
      cases hz
      cases hzc
    · rw [System.set_process_ne hq] at hz
      exact hq (h.single q p z x c hz hp hzc hchild)
  | @unstarted p x o next c a hp hop hchild =>
    obtain ⟨-, hne, -⟩ := (h.keeps p x hp).child c hchild
    rw [System.set_comm hne]
    have hset : r.Invariant (s.set p (some { x with program := some (next a), child := none })) :=
      h.go_on hp hop a rfl rfl rfl nofun
    exact hset.remove c
  | orphaned hc hdone hnobody => exact h.raise hc hnobody
  | returned hp hup hdone => exact h.set hp rfl rfl (fun c hc => Or.inl hc) nofun nofun
  | exit p => exact h.remove p

theorem of_reachable (hr : r.Respected) (h : r.Invariant s) (hreach : Reachable b s s') : r.Invariant s' := by
  induction hreach with
  | refl => exact h
  | tail _ hstep ih => exact ih.step hr hstep

/-- The rank of a process: that of its kind, once its start-up is over. -/
def level (r : Ranking b) (s : System ω answer κ) (p : ProcessId) : Nat :=
  match s.process p with
  | some x => if x.up then r.rank x.kind else 0
  | none => 0

theorem level_running (hp : s.process p = some x) (hup : x.up = true) : level r s p = r.rank x.kind := by
  unfold level
  rw [hp]
  exact if_pos hup

/-- **Whoever is awaited is of a lower rank.** -/
theorem level_lt (h : r.Invariant s) {p q : ProcessId} (hawaits : Awaits b s p q) : level r s q < level r s p := by
  obtain ⟨x, hp, hwhat⟩ := hawaits
  have hkeeps := h.keeps p x hp
  obtain ⟨o, next, hop, heffect⟩ | hchild := hwhat
  · obtain ⟨hup, hallows⟩ := h.allows hp hop (by rw [heffect]; exact nofun)
    unfold Allows at hallows
    rw [heffect] at hallows
    rw [level_running hp hup]
    cases hq : s.process q with
    | none =>
      unfold level
      rw [hq]
      exact r.pos x.kind
    | some y =>
      obtain ⟨hyup, hrank⟩ := (hkeeps.below q hallows).2 y hq
      rw [level_running hq hyup]
      exact hrank
  · have hup : x.up = true := by
      by_contra hnot
      rw [(hkeeps.starting (Bool.eq_false_iff.mpr hnot)).1] at hchild
      cases hchild
    rw [level_running hp hup]
    have hzero : level r s q = 0 := by
      unfold level
      cases hq : s.process q with
      | none => rfl
      | some y =>
        have hdown := (hkeeps.child q hchild).2.2 y hq
        simp only [hdown, Bool.false_eq_true, if_false]
    rw [hzero]
    exact r.pos x.kind

/-- **No processes wait for each other in a circle.** -/
theorem acyclic (h : r.Invariant s) (p : ProcessId) : ¬Relation.TransGen (Awaits b s) p p := by
  intro hcircle
  have hlower : Awaits b s ≤ Function.onFun (· > ·) (level r s) := fun _ _ => h.level_lt
  have hrank := Relation.TransGen.lift (level r s) hlower p p hcircle
  unfold Function.onFun at hrank
  rw [Relation.transGen_eq_self] at hrank
  exact Nat.lt_irrefl _ hrank

end Invariant

end Ranking

end Waiting
