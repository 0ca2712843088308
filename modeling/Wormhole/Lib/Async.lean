import Mathlib.Init

/-!
# `Lib.Async` — programs with points of waiting

The body of an `async fn` as data: it performs operations, each of which has an answer with which it goes on.
What happens at an operation, and whether anything is waited for, is not said here.

`Performs P` says that whatever the answers are, all operations satisfy `P`. It is proved along the program:
`Performs.bind`, and `Performs.interpret` where a program performs the operations of another one.

A run has a history, the operations with the answers that they got: `Ran` for a run to the end, `Awaits` for one
that has not gone on. `Mirrors` compares two programs over the same operations whose answers differ, the answers
of the second being a function of those of the first; along the program it is proved with `Mirrors.bind`.
-/

/-- A program with a result in `α`. -/
inductive Async (ω : Type) (answer : ω → Type) (α : Type) where
  | done (a : α)
  | op (o : ω) (next : answer o → Async ω answer α)

namespace Async

variable {ω ω' : Type} {answer : ω → Type} {answer' : ω' → Type} {α γ : Type}

def bind : Async ω answer α → (α → Async ω answer γ) → Async ω answer γ
  | .done a, f => f a
  | .op o next, f => .op o fun r => (next r).bind f

instance : Monad (Async ω answer) where
  pure := .done
  bind := .bind

/-- An operation, and its answer. -/
def perform (o : ω) : Async ω answer (answer o) := .op o .done

/-- A program for each operation of another one. -/
def interpret (f : ∀ o, Async ω' answer' (answer o)) : Async ω answer α → Async ω' answer' α
  | .done a => .done a
  | .op o next => (f o).bind fun r => (next r).interpret f

/-- The result, when the operations have these answers. -/
def eval (f : ∀ o, answer o) : Async ω answer α → α
  | .done a => a
  | .op o next => (next (f o)).eval f

/-- Whatever the answers are, only such operations are performed. -/
def Performs (P : ω → Prop) : Async ω answer α → Prop
  | .done _ => True
  | .op o next => P o ∧ ∀ r, (next r).Performs P

section

variable {P Q : ω → Prop} {x : Async ω answer α} {f : α → Async ω answer γ}

@[simp] theorem eval_pure (answers : ∀ o, answer o) (a : α) : (pure a : Async ω answer α).eval answers = a := rfl

@[simp] theorem eval_perform (answers : ∀ o, answer o) (o : ω) : (perform o).eval answers = answers o := rfl

@[simp] theorem eval_bind (answers : ∀ o, answer o) (x : Async ω answer α) (f : α → Async ω answer γ) :
    (x >>= f).eval answers = (f (x.eval answers)).eval answers := by
  induction x with
  | done a => rfl
  | op o next ih => exact ih (answers o)

theorem Performs.pure (a : α) : (pure a : Async ω answer α).Performs P := trivial

theorem Performs.perform {o : ω} (h : P o) : (perform o : Async ω answer _).Performs P := ⟨h, fun _ => trivial⟩

/-- **The rule of sequences.** -/
theorem Performs.bind (hx : x.Performs P) (hf : ∀ a, (f a).Performs P) : (x >>= f).Performs P := by
  induction x with
  | done a => exact hf a
  | op o next ih => exact ⟨hx.1, fun r => ih r (hx.2 r)⟩

theorem Performs.mono (hx : x.Performs P) (h : ∀ o, P o → Q o) : x.Performs Q := by
  induction x with
  | done a => trivial
  | op o next ih => exact ⟨h o hx.1, fun r => ih r (hx.2 r)⟩

/-- **The rule of interpretations.** -/
theorem Performs.interpret {R : ω' → Prop} {g : ∀ o, Async ω' answer' (answer o)} (x : Async ω answer α)
    (hg : ∀ o, (g o).Performs R) : (x.interpret g).Performs R := by
  induction x with
  | done a => trivial
  | op o next ih => exact Performs.bind (hg o) ih

end

/-! ## Runs -/

/-- Operations, and the answers that they got. -/
abbrev History (ω : Type) (answer : ω → Type) := List (Σ o, answer o)

/-- The operations of a history. -/
abbrev History.operations (events : History ω answer) : List ω := events.map Sigma.fst

/-- A run to the end. -/
inductive Ran : Async ω answer α → History ω answer → α → Prop where
  | done (a : α) : Ran (.done a) [] a
  | op {o : ω} {next : answer o → Async ω answer α} {r : answer o} {events : History ω answer} {a : α}
      (hnext : Ran (next r) events a) : Ran (.op o next) (⟨o, r⟩ :: events) a

/-- A run up to an operation that has no answer yet. -/
inductive Awaits : Async ω answer α → History ω answer → ω → Prop where
  | here {o : ω} {next : answer o → Async ω answer α} : Awaits (.op o next) [] o
  | later {o o' : ω} {next : answer o → Async ω answer α} {r : answer o} {events : History ω answer}
      (hnext : Awaits (next r) events o') : Awaits (.op o next) (⟨o, r⟩ :: events) o'

/-- The operations that are done when they have these answers. -/
def operations (f : ∀ o, answer o) : Async ω answer α → List ω
  | .done _ => []
  | .op o next => o :: (next (f o)).operations f

section

variable {x : Async ω answer α} {f : α → Async ω answer γ} {events after : History ω answer} {a : α} {c : γ} {o : ω}

/-- A run of a sequence, from runs of its parts. -/
theorem Ran.bind (hx : x.Ran events a) (hf : (f a).Ran after c) : (x >>= f).Ran (events ++ after) c := by
  induction hx with
  | done a => exact hf
  | op _ ih => exact .op (ih hf)

/-- A run with the answers of a function is the one that `eval` makes. -/
theorem Ran.eq_eval (answers : ∀ o, answer o) (h : x.Ran events a) (hanswers : ∀ e ∈ events, e.2 = answers e.1) :
    events.operations = x.operations answers ∧ a = x.eval answers := by
  induction h with
  | done a => exact ⟨rfl, rfl⟩
  | @op o next r events a hnext ih =>
    obtain ⟨hops, ha⟩ := ih fun e he => hanswers e (List.mem_cons_of_mem _ he)
    have hr : r = answers o := hanswers ⟨o, r⟩ List.mem_cons_self
    subst hr
    exact ⟨congrArg (o :: ·) hops, ha⟩

/-- The run that `eval` makes. -/
theorem ran_eval (answers : ∀ o, answer o) (x : Async ω answer α) :
    x.Ran ((x.operations answers).map fun o => ⟨o, answers o⟩) (x.eval answers) := by
  induction x with
  | done a => exact .done a
  | op o next ih => exact .op (ih (answers o))

/-- What has been done so far is a beginning of what is done then. -/
theorem Awaits.beginning (answers : ∀ o, answer o) (h : x.Awaits events o)
    (hanswers : ∀ e ∈ events, e.2 = answers e.1) : events.operations ++ [o] <+: x.operations answers := by
  induction h with
  | here => exact ⟨_, rfl⟩
  | @later o o' next r events hnext ih =>
    have hr : r = answers o := hanswers ⟨o, r⟩ List.mem_cons_self
    subst hr
    exact (List.prefix_cons_inj o).mpr (ih fun e he => hanswers e (List.mem_cons_of_mem _ he))

end

/-! ## Two programs over the same operations -/

section

variable {answer₂ : ω → Type} {α₂ γ₂ : Type} {forget : ∀ o, answer o → answer₂ o}

/-- Whatever answers the first program gets, the second one does the same with what `forget` makes of them, and then
    `S` holds of the history of the first, and of both results. -/
inductive Mirrors (forget : ∀ o, answer o → answer₂ o) :
    (History ω answer → α → α₂ → Prop) → Async ω answer α → Async ω answer₂ α₂ → Prop where
  | done {S : History ω answer → α → α₂ → Prop} {a : α} {b : α₂} (h : S [] a b) : Mirrors forget S (.done a) (.done b)
  | op {S : History ω answer → α → α₂ → Prop} {o : ω} {next : answer o → Async ω answer α}
      {next₂ : answer₂ o → Async ω answer₂ α₂}
      (h : ∀ r, Mirrors forget (fun events => S (⟨o, r⟩ :: events)) (next r) (next₂ (forget o r))) :
      Mirrors forget S (.op o next) (.op o next₂)

variable {S : History ω answer → α → α₂ → Prop} {T : History ω answer → γ → γ₂ → Prop} {x : Async ω answer α}
  {y : Async ω answer₂ α₂} {f : α → Async ω answer γ} {g : α₂ → Async ω answer₂ γ₂} {events : History ω answer}
  {a : α} {o : ω}

theorem Mirrors.mono {S' : History ω answer → α → α₂ → Prop} (h : Mirrors forget S x y)
    (himp : ∀ events a b, S events a b → S' events a b) : Mirrors forget S' x y := by
  induction h generalizing S' with
  | done h => exact .done (himp _ _ _ h)
  | op _ ih => exact .op fun r => ih r fun events a b => himp _ a b

/-- **The rule of sequences.** -/
theorem Mirrors.bind (hx : Mirrors forget S x y)
    (hf : ∀ events a b, S events a b → Mirrors forget (fun after => T (events ++ after)) (f a) (g b)) :
    Mirrors forget T (x >>= f) (y >>= g) := by
  induction hx generalizing T with
  | done h => exact hf [] _ _ h
  | op _ ih => exact .op fun r => ih r fun events a b h => hf _ a b h

theorem Mirrors.ran (h : Mirrors forget S x y) (hrun : x.Ran events a) :
    ∃ b, y.Ran (events.map fun e => ⟨e.1, forget e.1 e.2⟩) b ∧ S events a b := by
  induction hrun generalizing S y with
  | done a =>
    cases h with
    | done h => exact ⟨_, .done _, h⟩
  | op _ ih =>
    cases h with
    | op h =>
      obtain ⟨b, hb, hS⟩ := ih (h _)
      exact ⟨b, .op hb, hS⟩

/-- The first program has every run of which the second one has the image. -/
theorem Mirrors.exists_ran {b : α₂} (h : Mirrors forget S x y)
    (hrun : y.Ran (events.map fun e => ⟨e.1, forget e.1 e.2⟩) b) : ∃ a, x.Ran events a := by
  induction h generalizing events with
  | done h =>
    cases events with
    | nil => exact ⟨_, .done _⟩
    | cons e events => cases hrun
  | op h ih =>
    cases events with
    | nil => cases hrun
    | cons e events =>
      cases hrun with
      | op hrun =>
        obtain ⟨a, ha⟩ := ih _ hrun
        exact ⟨a, .op ha⟩

theorem Mirrors.awaits (h : Mirrors forget S x y) (hrun : x.Awaits events o) :
    y.Awaits (events.map fun e => ⟨e.1, forget e.1 e.2⟩) o := by
  induction hrun generalizing S y with
  | here =>
    cases h with
    | op h => exact .here
  | later _ ih =>
    cases h with
    | op h => exact .later (ih (h _))

end

end Async
