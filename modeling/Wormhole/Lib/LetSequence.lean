import Mathlib.Data.List.Basic

/-!
# `Lib.LetSequence` — statements under shadowing

A statement looks up variables and puts new ones in front of the scope; a name means the variable that was put
there last. What "looks up" and "puts" come to is left open: the same sequence is checked, with the types of
the variables in scope, and executed, with their values. What they share is that a statement leaves alone the
names it does not bind.
-/

universe u v w

/-- The variables in scope, the last one first. -/
abbrev Scope (ν : Type u) (α : Type v) : Type (max u v) := List (ν × α)

/-- Computations that may end without a result; `Returns x a` says that `x` ends with `a`. -/
class Outcome (m : Type u → Type v) [Monad m] where
  Returns : {α : Type u} → m α → α → Prop
  returns_pure : ∀ {α : Type u} {a b : α}, Returns (pure a) b ↔ b = a
  returns_bind : ∀ {α β : Type u} {x : m α} {f : α → m β} {b : β},
    Returns (x >>= f) b ↔ ∃ a, Returns x a ∧ Returns (f a) b

export Outcome (Returns returns_pure returns_bind)

instance : Outcome Option where
  Returns x a := x = some a
  returns_pure := ⟨fun h => (Option.some.inj h).symm, fun h => congrArg some h.symm⟩
  returns_bind := Option.bind_eq_some_iff

namespace Scope

variable {ν : Type u} {α : Type u} {σ : Type w} {m : Type u → Type v} [Monad m]

/-- The statements one after the other; `step` says what a statement puts in scope. -/
def run (step : σ → Scope ν α → m (Scope ν α)) : List σ → Scope ν α → m (Scope ν α)
  | [], env => pure env
  | s :: ss, env => do
    let new ← step s env
    run step ss (new ++ env)

variable {step : σ → Scope ν α → m (Scope ν α)} {ss ts : List σ} {env env' : Scope ν α}

/-- **A sequence is run part by part.** -/
theorem run_append [LawfulMonad m] (ss ts : List σ) (env : Scope ν α) :
    run step (ss ++ ts) env = run step ss env >>= run step ts := by
  induction ss generalizing env with
  | nil => exact (pure_bind env _).symm
  | cons s ss ih =>
    show (step s env >>= fun new => run step (ss ++ ts) (new ++ env)) = _
    simp only [ih, ← bind_assoc]
    rfl

variable [Outcome m]

theorem returns_run_cons {s : σ} : Returns (run step (s :: ss) env) env' ↔
    ∃ new, Returns (step s env) new ∧ Returns (run step ss (new ++ env)) env' := returns_bind

theorem returns_run_append [LawfulMonad m] : Returns (run step (ss ++ ts) env) env' ↔
    ∃ mid, Returns (run step ss env) mid ∧ Returns (run step ts mid) env' := by
  rw [run_append]
  exact returns_bind

variable [DecidableEq ν]

/-- What stands in front of a scope hides nothing but its own names. -/
theorem lookup_append_of_notMem {new : Scope ν α} {x : ν} (h : ∀ e ∈ new, e.1 ≠ x) (env : Scope ν α) :
    (new ++ env).lookup x = env.lookup x := by
  induction new with
  | nil => rfl
  | cons e new ih =>
    obtain ⟨hne, hrest⟩ := List.forall_mem_cons.mp h
    obtain ⟨y, a⟩ := e
    rw [List.cons_append, List.lookup_cons, ih hrest, beq_false_of_ne (Ne.symm hne)]

/-- **A sequence leaves alone the names it does not bind.** -/
theorem lookup_of_run {names : σ → List ν}
    (hnames : ∀ {s env new}, Returns (step s env) new → ∀ e ∈ new, e.1 ∈ names s)
    (h : Returns (run step ss env) env') {x : ν} (hx : x ∉ ss.flatMap names) :
    env'.lookup x = env.lookup x := by
  induction ss generalizing env with
  | nil => rw [returns_pure.mp h]
  | cons s ss ih =>
    rw [List.flatMap_cons, List.mem_append, not_or] at hx
    obtain ⟨new, hnew, hrest⟩ := returns_run_cons.mp h
    rw [ih hrest hx.2]
    refine lookup_append_of_notMem (fun e he heq => hx.1 ?_) env
    rw [← heq]
    exact hnames hnew e he

end Scope
