import Mathlib.Algebra.Group.Defs

/-!
# `Lib.Transition` — runs of a labelled transition system

A system is a partial step function `step : ℓ → σ → Option σ`: a label says which party moves and what the
environment chooses, `none` that the move is not possible. `Run step good ls s t` is a run over the labels
`ls` in which every step starts in a state where `good` allows the label; `exec` computes the same run.
The two rules of invariants are stated once: `Run.invariant`, and `Run.relates` for what changes only in
one direction. `Run.simulated` carries a simulation from steps to runs.
-/

namespace Transition

universe u v w

variable {σ : Type u} {ℓ : Type v}

/-- Do the steps of a list of labels. -/
def exec (step : ℓ → σ → Option σ) : List ℓ → σ → Option σ
  | [],      s => some s
  | l :: ls, s => (step l s).bind (exec step ls)

/-- A step that is only possible where `good` allows it. -/
def guarded (step : ℓ → σ → Option σ) (good : ℓ → σ → Prop) [∀ l s, Decidable (good l s)]
    (l : ℓ) (s : σ) : Option σ :=
  if good l s then step l s else none

/-- A run over the given labels, every step of which is `good`. -/
inductive Run (step : ℓ → σ → Option σ) (good : ℓ → σ → Prop) : List ℓ → σ → σ → Prop where
  | nil (s : σ) : Run step good [] s s
  | cons {l : ℓ} {ls : List ℓ} {s t u : σ} (hgood : good l s) (hstep : step l s = some t)
      (hrun : Run step good ls t u) : Run step good (l :: ls) s u

/-- No condition on the steps. -/
abbrev Any : ℓ → σ → Prop := fun _ _ => True

section

variable {step : ℓ → σ → Option σ} {good better : ℓ → σ → Prop} {l : ℓ} {ls ms : List ℓ} {s t u : σ}

/-- **The rule of invariants.** What every good step preserves, every good run preserves. -/
theorem Run.invariant {P : σ → Prop}
    (hpres : ∀ l s t, P s → good l s → step l s = some t → P t)
    (hrun : Run step good ls s t) (hs : P s) : P t := by
  induction hrun with
  | nil s => exact hs
  | cons hgood hstep _ ih => exact ih (hpres _ _ _ hs hgood hstep)

/-- What every good step does to a state, as a preorder, every good run does. -/
theorem Run.relates {R : σ → σ → Prop} (hrefl : ∀ s, R s s) (htrans : ∀ {s t u}, R s t → R t u → R s u)
    (hpres : ∀ l s t, good l s → step l s = some t → R s t)
    (hrun : Run step good ls s t) : R s t := by
  induction hrun with
  | nil s => exact hrefl s
  | cons hgood hstep _ ih => exact htrans (hpres _ _ _ hgood hstep) ih

theorem Run.append (h₁ : Run step good ls s t) (h₂ : Run step good ms t u) :
    Run step good (ls ++ ms) s u := by
  induction h₁ with
  | nil s => exact h₂
  | cons hgood hstep _ ih => exact .cons hgood hstep (ih h₂)

theorem Run.mono (himp : ∀ l s, good l s → better l s) (hrun : Run step good ls s t) :
    Run step better ls s t := by
  induction hrun with
  | nil s => exact .nil s
  | cons hgood hstep _ ih => exact .cons (himp _ _ hgood) hstep ih

/-- A run through states that have an invariant. -/
theorem Run.carry {P : σ → Prop} (hpres : ∀ l s t, P s → good l s → step l s = some t → P t)
    (hrun : Run step good ls s t) (hs : P s) : Run step (fun l s => P s ∧ good l s) ls s t := by
  induction hrun with
  | nil s => exact .nil s
  | cons hgood hstep _ ih => exact .cons ⟨hs, hgood⟩ hstep (ih (hpres _ _ _ hs hgood hstep))

/-- **The rule of measures.** A run whose steps all make the state smaller is no longer than the state is large. -/
theorem Run.length_le {size : σ → Nat} (hpres : ∀ l s t, good l s → step l s = some t → size t < size s)
    (hrun : Run step good ls s t) : ls.length + size t ≤ size s := by
  induction hrun with
  | nil s => exact Nat.le_of_eq (Nat.zero_add _)
  | cons hgood hstep _ ih =>
    have hless := hpres _ _ _ hgood hstep
    rw [List.length_cons]
    omega

/-- And such a system comes to rest. -/
theorem exists_rest {size : σ → Nat} (hpres : ∀ l s t, good l s → step l s = some t → size t < size s) (s : σ) :
    ∃ ls t, Run step good ls s t ∧ ∀ l, good l t → step l t = none := by
  induction hsize : size s using Nat.strongRecOn generalizing s with
  | ind k ih =>
    by_cases hrest : ∀ l, good l s → step l s = none
    · exact ⟨[], s, .nil s, hrest⟩
    · obtain ⟨l, hl⟩ := Classical.not_forall.mp hrest
      obtain ⟨hgood, hmoves⟩ := Classical.not_imp.mp hl
      obtain ⟨t, hstep⟩ := Option.ne_none_iff_exists'.mp hmoves
      obtain ⟨ls, u, hrun, hu⟩ := ih (size t) (hsize ▸ hpres l s t hgood hstep) t rfl
      exact ⟨l :: ls, u, .cons hgood hstep hrun, hu⟩

/-- **The rule of causes.** What holds at the end of a run but not at its beginning has been brought about
    by some step. -/
theorem Run.crossing {P : σ → Prop} (hrun : Run step good ls s t) (hs : ¬P s) (ht : P t) :
    ∃ before l after u v, ls = before ++ l :: after ∧ Run step good before s u ∧ ¬P u ∧ good l u ∧
      step l u = some v ∧ P v ∧ Run step good after v t := by
  induction hrun with
  | nil s => exact absurd ht hs
  | @cons l ls s v t hgood hstep hrest ih =>
    by_cases hv : P v
    · exact ⟨[], l, ls, s, v, rfl, .nil s, hs, hgood, hstep, hv, hrest⟩
    · obtain ⟨before, l', after, u, v', rfl, hbefore, hu, hgood', hstep', hv', hafter⟩ := ih hv ht
      exact ⟨l :: before, l', after, u, v', rfl, .cons hgood hstep hbefore, hu, hgood', hstep', hv', hafter⟩

/-- What every step takes back to its beginning, a run takes back to its beginning. -/
theorem Run.backwards {P : σ → Prop} (hback : ∀ l s t, step l s = some t → P t → P s)
    (hrun : Run step good ls s t) (ht : P t) : P s := by
  induction hrun with
  | nil s => exact ht
  | cons _ hstep _ ih => exact hback _ _ _ hstep (ih ht)

/-- What every step has that leads to a `P`-state, a run to a `P`-state has, if `P` goes backwards. -/
theorem Run.strengthen {P : σ → Prop} (hback : ∀ l s t, step l s = some t → P t → P s)
    (hbetter : ∀ l s t, good l s → step l s = some t → P t → better l s)
    (hrun : Run step good ls s t) (ht : P t) : Run step better ls s t := by
  have hboth : P s ∧ Run step better ls s t := by
    induction hrun with
    | nil s => exact ⟨ht, .nil s⟩
    | cons hgood hstep _ ih =>
      obtain ⟨hmid, hrest⟩ := ih ht
      exact ⟨hback _ _ _ hstep hmid, .cons (hbetter _ _ _ hgood hstep hmid) hstep hrest⟩
  exact hboth.2

/-- **The rule of simulations.** If every step is matched by a run of another system, then so is every run. -/
theorem Run.simulated {σ' : Type*} {ℓ' : Type*} {step' : ℓ' → σ' → Option σ'} {good' : ℓ' → σ' → Prop}
    {R : σ → σ' → Prop}
    (hsim : ∀ l s t s', R s s' → good l s → step l s = some t → ∃ ls' t', Run step' good' ls' s' t' ∧ R t t')
    (hrun : Run step good ls s t) {s' : σ'} (hs : R s s') : ∃ ls' t', Run step' good' ls' s' t' ∧ R t t' := by
  induction hrun generalizing s' with
  | nil s => exact ⟨[], s', .nil s', hs⟩
  | cons hgood hstep _ ih =>
    obtain ⟨before, m', hbefore, hm⟩ := hsim _ _ _ _ hs hgood hstep
    obtain ⟨after, t', hafter, ht⟩ := ih hm
    exact ⟨before ++ after, t', hbefore.append hafter, ht⟩

/-- In the run over `ls` from `s`, the label `l` is taken in the state `u`. -/
def Occurs (step : ℓ → σ → Option σ) (ls : List ℓ) (s : σ) (l : ℓ) (u : σ) : Prop :=
  ∃ before after, ls = before ++ l :: after ∧ Run step Any before s u

theorem not_occurs_nil : ¬Occurs step [] s l u := by
  rintro ⟨before, after, hls, -⟩
  cases before <;> cases hls

theorem occurs_cons_iff {l' : ℓ} (hstep : step l s = some t) :
    Occurs step (l :: ls) s l' u ↔ (l' = l ∧ u = s) ∨ Occurs step ls t l' u := by
  constructor
  · rintro ⟨before, after, hls, hrun⟩
    cases hrun with
    | nil =>
      cases hls
      exact .inl ⟨rfl, rfl⟩
    | cons _ hstep' hrest =>
      cases hls
      rw [hstep] at hstep'
      cases hstep'
      exact .inr ⟨_, _, rfl, hrest⟩
  · rintro (⟨rfl, rfl⟩ | ⟨before, after, rfl, hrun⟩)
    · exact ⟨[], ls, rfl, .nil _⟩
    · exact ⟨l :: before, after, rfl, .cons trivial hstep hrun⟩

/-- A run of one system is a run of another one that does the same steps where the run takes them. -/
theorem Run.transfer {step' : ℓ → σ → Option σ} (hrun : Run step good ls s t)
    (hsame : ∀ l u v, Occurs step ls s l u → step l u = some v → step' l u = some v) : Run step' Any ls s t := by
  induction hrun with
  | nil s => exact .nil s
  | cons _ hstep _ ih =>
    refine .cons trivial (hsame _ _ _ ((occurs_cons_iff hstep).mpr (.inl ⟨rfl, rfl⟩)) hstep) (ih ?_)
    exact fun l u v hoccurs => hsame l u v ((occurs_cons_iff hstep).mpr (.inr hoccurs))

/-- **The rule of histories.** An invariant of a state and of the steps that led to it. -/
theorem Run.history {R : (ℓ → σ → Prop) → σ → Prop}
    (hpres : ∀ H l s t, R H s → good l s → step l s = some t → R (fun l' s' => H l' s' ∨ l' = l ∧ s' = s) t)
    (hrun : Run step good ls s t) (hs : R (fun _ _ => False) s) : R (Occurs step ls s) t := by
  have hfrom (H : ℓ → σ → Prop) (hH : R H s) : R (fun l u => H l u ∨ Occurs step ls s l u) t := by
    clear hs
    induction hrun generalizing H with
    | nil s =>
      have heq : (fun l u => H l u ∨ Occurs step [] s l u) = H := by
        funext l u
        exact propext (or_iff_left not_occurs_nil)
      rwa [heq]
    | @cons l ls s u t hgood hstep _ ih =>
      have heq : (fun l' u' => H l' u' ∨ Occurs step (l :: ls) s l' u') =
          fun l' u' => (H l' u' ∨ l' = l ∧ u' = s) ∨ Occurs step ls u l' u' := by
        funext l' u'
        rw [occurs_cons_iff hstep, or_assoc]
      rw [heq]
      exact ih _ (hpres H l s u hH hgood hstep)
  have hnone : (fun l u => False ∨ Occurs step ls s l u) = Occurs step ls s := by
    funext l u
    exact propext (or_iff_right id)
  rw [← hnone]
  exact hfrom _ hs

/-- What the steps of a run emit, one after the other. -/
def trace {ε : Type w} (step : ℓ → σ → Option σ) (emit : ℓ → σ → List ε) : List ℓ → σ → List ε
  | [],      _ => []
  | l :: ls, s => emit l s ++ ((step l s).map (trace step emit ls)).getD []

section

variable {ε : Type w} {emit : ℓ → σ → List ε}

theorem trace_cons (hstep : step l s = some t) :
    trace step emit (l :: ls) s = emit l s ++ trace step emit ls t := by
  rw [trace, hstep]
  rfl

theorem Run.trace_append (hrun : Run step good ls s t) (ms : List ℓ) :
    trace step emit (ls ++ ms) s = trace step emit ls s ++ trace step emit ms t := by
  induction hrun with
  | nil s => rfl
  | cons _ hstep _ ih => rw [List.cons_append, trace_cons hstep, trace_cons hstep, ih, List.append_assoc]

/-- Steps that emit nothing. -/
theorem Run.trace_eq_nil (hnil : ∀ l s, good l s → emit l s = []) (hrun : Run step good ls s t) :
    trace step emit ls s = [] := by
  induction hrun with
  | nil s => rfl
  | cons hgood hstep _ ih => rw [trace_cons hstep, hnil _ _ hgood, ih, List.append_nil]

/-- **The rule of logs.** An invariant of a state and of what the steps that led to it have emitted. -/
theorem Run.tracing (emit : ℓ → σ → List ε) {R : List ε → σ → Prop}
    (hpres : ∀ log l s t, R log s → good l s → step l s = some t → R (log ++ emit l s) t)
    (hrun : Run step good ls s t) (log : List ε) (hs : R log s) : R (log ++ trace step emit ls s) t := by
  induction hrun generalizing log with
  | nil s =>
    rw [trace, List.append_nil]
    exact hs
  | cons hgood hstep _ ih =>
    rw [trace_cons hstep, ← List.append_assoc]
    exact ih _ (hpres log _ _ _ hs hgood hstep)

/-- **The rule of accounts.** If every step pays for what it gains and loses, then so does a run. -/
theorem Run.balance {M : Type*} [AddCommMonoid M] {emit' : ℓ → σ → List ε} {stock : σ → M} {value : List ε → M}
    (hnil : value [] = 0) (happend : ∀ xs ys, value (xs ++ ys) = value xs + value ys)
    (hpres : ∀ l s t, good l s → step l s = some t →
      stock s + value (emit l s) = stock t + value (emit' l s))
    (hrun : Run step good ls s t) :
    stock s + value (trace step emit ls s) = stock t + value (trace step emit' ls s) := by
  induction hrun with
  | nil s => simp only [trace, hnil]
  | @cons l ls s u t hgood hstep _ ih =>
    rw [trace_cons hstep, trace_cons hstep, happend, happend, ← add_assoc, hpres l s u hgood hstep, add_assoc,
      add_comm (value (emit' l s)), ← add_assoc, ih, add_assoc, add_comm (value (trace step emit' ls u))]

end

theorem Run.exec (hrun : Run step good ls s t) : exec step ls s = some t := by
  induction hrun with
  | nil s => rfl
  | cons _ hstep _ ih => rw [Transition.exec, hstep]; exact ih

theorem Run.exec_append (hrun : Run step good ls s t) (ms : List ℓ) :
    Transition.exec step (ls ++ ms) s = Transition.exec step ms t := by
  induction hrun with
  | nil s => rfl
  | cons _ hstep _ ih =>
    rw [List.cons_append, Transition.exec, hstep]
    exact ih

theorem run_of_exec (h : exec step ls s = some t) : Run step Any ls s t := by
  induction ls generalizing s with
  | nil => cases h; exact .nil _
  | cons l ls ih =>
    obtain ⟨m, hstep, hrest⟩ := Option.bind_eq_some_iff.mp h
    exact .cons trivial hstep (ih hrest)

theorem run_of_exec_guarded [∀ l s, Decidable (good l s)] (h : exec (guarded step good) ls s = some t) :
    Run step good ls s t := by
  induction ls generalizing s with
  | nil => cases h; exact .nil _
  | cons l ls ih =>
    obtain ⟨m, hstep, hrest⟩ := Option.bind_eq_some_iff.mp h
    unfold guarded at hstep
    split at hstep
    · rename_i hgood
      exact .cons hgood hstep (ih hrest)
    · cases hstep

end

end Transition
