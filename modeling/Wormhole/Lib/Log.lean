import Wormhole.Lib.HashMap

/-!
# `Lib.Log` — the last entry under a key

A log lists what was written under which key, the oldest entry first; `latest` is the value written last. A
function from keys to values represents a log if it gives these values. A write under a key, and a write of
the value that is there already, keep it so.
-/

universe u v

namespace Log

variable {κ : Type u} {α : Type v} [DecidableEq κ]

/-- The value that was written last under a key. -/
def latest (log : List (κ × α)) (k : κ) : Option α := (log.reverse.find? (·.1 = k)).map Prod.snd

/-- The function gives the last values of the log. -/
def Represents (f : κ → Option α) (log : List (κ × α)) : Prop := ∀ k, f k = latest log k

variable {f g : κ → Option α} {log more : List (κ × α)} {k : κ} {a : α}

theorem latest_append (log more : List (κ × α)) (k : κ) :
    latest (log ++ more) k = (latest more k).or (latest log k) := by
  rw [latest, List.reverse_append, List.find?_append, Option.map_or]
  rfl

theorem latest_of_forall_ne (h : ∀ e ∈ more, e.1 ≠ k) : latest more k = none := by
  rw [latest, Option.map_eq_none_iff, List.find?_eq_none]
  intro e he
  simpa using h e (List.mem_reverse.mp he)

/-- What is written under other keys does not matter. -/
theorem latest_append_of_forall_ne (h : ∀ e ∈ more, e.1 ≠ k) : latest (log ++ more) k = latest log k := by
  rw [latest_append, latest_of_forall_ne h, Option.none_or]

theorem latest_concat (log : List (κ × α)) (k k' : κ) (a : α) :
    latest (log ++ [(k, a)]) k' = if k' = k then some a else latest log k' := by
  rw [latest_append]
  by_cases hk : k' = k
  · rw [if_pos hk, hk]
    simp [latest]
  · rw [if_neg hk, latest_of_forall_ne (by simpa using Ne.symm hk), Option.none_or]

namespace Represents

theorem nil : Represents (fun _ => none) ([] : List (κ × α)) := fun _ => rfl

/-- A value is written. -/
theorem write (h : Represents f log) (hg : ∀ k', g k' = if k' = k then some a else f k') :
    Represents g (log ++ [(k, a)]) := by
  intro k'
  rw [hg, latest_concat]
  split
  · rfl
  · exact h k'

/-- The value that is there is written again. -/
theorem rewrite (h : Represents f log) (hk : f k = some a) : Represents f (log ++ [(k, a)]) := by
  refine h.write fun k' => ?_
  split
  · rename_i heq
    rw [heq, hk]
  · rfl

end Represents

end Log
