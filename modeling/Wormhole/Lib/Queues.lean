import Mathlib.Data.List.Basic
import Mathlib.Data.List.Flatten

/-!
# `Lib.Queues` — FIFO queues for many keys, in one list

A list of keyed entries is a family of queues, one for each key. An entry is added at the end, and
`dequeue k` takes out the oldest entry of `k`. Where at most one entry has a given key, the list is a bag from
which entries are taken out by key.
-/

universe u v w

/-- Queues of `α`, one for each key. -/
abbrev Queues (κ : Type u) (α : Type v) : Type (max u v) := List (κ × α)

namespace Queues

variable {κ : Type u} {α : Type v} [DecidableEq κ]

/-- Take out the oldest entry of a key. -/
def dequeue (k : κ) : Queues κ α → Option (α × Queues κ α)
  | [] => none
  | (j, a) :: q =>
    if j = k then some (a, q)
    else (dequeue k q).map fun (b, rest) => (b, (j, a) :: rest)

variable {q rest : Queues κ α} {j k : κ} {a : α}

/-- What is taken out is the first entry of its key. -/
theorem dequeue_eq_some (h : dequeue k q = some (a, rest)) :
    ∃ front back, q = front ++ (k, a) :: back ∧ rest = front ++ back ∧ ∀ e ∈ front, e.1 ≠ k := by
  induction q generalizing rest with
  | nil => cases h
  | cons e q ih =>
    obtain ⟨j, b⟩ := e
    unfold dequeue at h
    split at h
    · rename_i hjk
      subst hjk
      cases h
      exact ⟨[], _, rfl, rfl, by simp⟩
    · rename_i hjk
      obtain ⟨⟨c, rest'⟩, hrec, heq⟩ := Option.map_eq_some_iff.mp h
      cases heq
      obtain ⟨front, back, hq, hrest, hfront⟩ := ih hrec
      refine ⟨(j, b) :: front, back, by rw [hq]; rfl, by rw [hrest]; rfl, ?_⟩
      intro e he
      obtain rfl | he := List.mem_cons.mp he
      · exact hjk
      · exact hfront e he

theorem perm_of_dequeue (h : dequeue k q = some (a, rest)) : q.Perm ((k, a) :: rest) := by
  obtain ⟨front, back, rfl, rfl, -⟩ := dequeue_eq_some h
  exact List.perm_middle

/-- A key that there is has an oldest entry. -/
theorem exists_dequeue {e : κ × α} (he : e ∈ q) : ∃ a rest, dequeue e.1 q = some (a, rest) := by
  induction q with
  | nil => cases he
  | cons head q ih =>
    unfold dequeue
    by_cases hkey : head.1 = e.1
    · exact ⟨head.2, q, if_pos hkey⟩
    · rw [if_neg hkey]
      obtain rfl | he := List.mem_cons.mp he
      · exact absurd rfl hkey
      · obtain ⟨a, rest, hrec⟩ := ih he
        exact ⟨a, head :: rest, by rw [hrec]; rfl⟩

/-! ## Counting what the entries hold -/

section

variable {γ : Type w} [DecidableEq γ] {f g : κ → List γ} {F : κ × α → List γ} {x : γ}

theorem count_of_dequeue (h : dequeue k q = some (a, rest)) (F : κ × α → List γ) (x : γ) :
    (q.flatMap F).count x = (F (k, a)).count x + (rest.flatMap F).count x := by
  rw [((perm_of_dequeue h).flatMap_right F).count_eq, List.flatMap_cons, List.count_append]

omit [DecidableEq κ] in
theorem count_concat (q : Queues κ α) (e : κ × α) (F : κ × α → List γ) (x : γ) :
    ((q ++ [e]).flatMap F).count x = (q.flatMap F).count x + (F e).count x := by
  rw [List.flatMap_append, List.flatMap_singleton, List.count_append]

omit [DecidableEq κ] in
theorem count_le_of_sublist (h : rest.Sublist q) (F : κ × α → List γ) (x : γ) :
    (rest.flatMap F).count x ≤ (q.flatMap F).count x := (h.flatMap F).count_le x

omit [DecidableEq κ] in
/-- An entry that is filtered out takes with it what it holds. -/
theorem count_filter_add_le {p : κ × α → Bool} {e : κ × α} (he : e ∈ q) (hp : p e = false) :
    ((q.filter p).flatMap F).count x + (F e).count x ≤ (q.flatMap F).count x := by
  obtain ⟨front, back, rfl⟩ := List.append_of_mem he
  have hfront := count_le_of_sublist (List.filter_sublist (p := p) (l := front)) F x
  have hback := count_le_of_sublist (List.filter_sublist (p := p) (l := back)) F x
  rw [List.filter_append, List.filter_cons_of_neg (by simp [hp]), List.flatMap_append, List.flatMap_append,
    List.flatMap_cons, List.count_append, List.count_append, List.count_append]
  omega

omit [DecidableEq κ] in
theorem count_le_of_mem {xs : List α} {f : α → List γ} (ha : a ∈ xs) : (f a).count x ≤ (xs.flatMap f).count x := by
  obtain ⟨front, back, rfl⟩ := List.append_of_mem ha
  rw [List.flatMap_append, List.flatMap_cons, List.count_append, List.count_append]
  omega

omit [DecidableEq κ] in
/-- What is held once is held by one entry. -/
theorem eq_of_count_le_one {xs : List α} {f : α → List γ} {b : α} (h : (xs.flatMap f).count x ≤ 1) (ha : a ∈ xs)
    (hb : b ∈ xs) (hxa : x ∈ f a) (hxb : x ∈ f b) : a = b := by
  obtain ⟨front, back, rfl⟩ := List.append_of_mem ha
  rw [List.flatMap_append, List.flatMap_cons, List.count_append, List.count_append] at h
  have hone := List.count_pos_iff.mpr hxa
  have hnot {ys : List α} (hys : (ys.flatMap f).count x = 0) (hmem : b ∈ ys) : False :=
    List.count_eq_zero.mp hys (List.mem_flatMap.mpr ⟨b, hmem, hxb⟩)
  obtain hfront | hb := List.mem_append.mp hb
  · exact (hnot (by omega) hfront).elim
  · obtain rfl | hback := List.mem_cons.mp hb
    · rfl
    · exact (hnot (by omega) hback).elim

/-- Where a key occurs once, what is held for it changes once. -/
theorem count_update_le (hnodup : (q.map Prod.fst).Nodup) (new : List γ) (hsame : ∀ j ≠ k, g j = f j)
    (hnew : (g k).count x ≤ (f k).count x + new.count x) : (q.flatMap (g ·.1)).count x ≤
      (q.flatMap (f ·.1)).count x + if k ∈ q.map Prod.fst then new.count x else 0 := by
  induction q with
  | nil => exact Nat.zero_le _
  | cons e q ih =>
    obtain ⟨hnot, hnodup⟩ := List.nodup_cons.mp hnodup
    have ih := ih hnodup
    rw [List.flatMap_cons, List.flatMap_cons, List.count_append, List.count_append]
    by_cases he : e.1 = k
    · rw [he] at hnot ⊢
      rw [if_neg hnot] at ih
      rw [if_pos (by rw [List.map_cons, he]; exact List.mem_cons_self)]
      omega
    · have hiff : (k ∈ (e :: q).map Prod.fst) ↔ k ∈ q.map Prod.fst := by
        rw [List.map_cons, List.mem_cons, or_iff_right (Ne.symm he)]
      simp only [hsame _ he, hiff]
      omega

end

end Queues
