import Mathlib.Data.List.Nodup

/-!
# `Lib.Precedence` — which of two entries of a list comes first

`Precedes l x y` says that `x` stands before `y` in `l`. In a list without repetitions this is an order, and a
sublist orders its entries as the whole list does.
-/

universe u

variable {α : Type u} {l L : List α} {x y : α}

/-- `x` stands before `y`. -/
def Precedes (l : List α) (x y : α) : Prop := [x, y].Sublist l

theorem filter_mem_of_sublist [DecidableEq α] (hsub : l.Sublist L) (hnd : L.Nodup) :
    L.filter (· ∈ l) = l := by
  induction hsub with
  | slnil => rfl
  | @cons l L a hsub ih =>
    obtain ⟨ha, hnd⟩ := List.nodup_cons.mp hnd
    rw [List.filter_cons_of_neg (by simpa using fun hal => ha (hsub.subset hal)), ih hnd]
  | @cons_cons l L a hsub ih =>
    obtain ⟨ha, hnd⟩ := List.nodup_cons.mp hnd
    have hcongr : L.filter (· ∈ a :: l) = L.filter (· ∈ l) := by
      apply List.filter_congr
      intro b hb
      have hne : b ≠ a := by rintro rfl; exact ha hb
      simp [hne]
    rw [List.filter_cons_of_pos (by simp), hcongr, ih hnd]

namespace Precedes

/-- **A sublist keeps the order.** -/
theorem of_sublist (h : Precedes L x y) (hsub : l.Sublist L) (hnd : L.Nodup) (hx : x ∈ l) (hy : y ∈ l) :
    Precedes l x y := by
  classical
  have hfilter := h.filter (· ∈ l)
  rw [filter_mem_of_sublist hsub hnd] at hfilter
  simpa [Precedes, hx, hy] using hfilter

end Precedes
