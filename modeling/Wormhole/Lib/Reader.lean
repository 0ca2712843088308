import Mathlib.Data.List.Basic
import Mathlib.Data.List.Forall2

/-!
# `Lib.Reader` — reading messages from a stream

A reader takes the next message from the front of a stream of symbols, fails, or says that the stream has
ended; a message takes at least one symbol. `run` reads until the first failure or the end. Which messages a
stream holds is said without the reader, by the frames that it is a concatenation of: `Decodes` is what a
reader owes them, and `run` then finds exactly the frames at the front of the stream.
-/

universe u v w

/-- A reader of messages `μ` from symbols `σ`, with errors `ε`. -/
structure Reader (σ : Type u) (μ : Type v) (ε : Type w) where
  /-- `none` at the end of the stream -/
  next : List σ → Option (Except ε μ × List σ)
  shrinks : ∀ {s m rest}, next s = some (.ok m, rest) → rest.length < s.length

namespace Reader

variable {σ : Type u} {μ : Type v} {ε : Type w}

/-- What was read, why it stopped (`none` at the end of the stream), and what was left before the last read. -/
structure Result (σ : Type u) (μ : Type v) (ε : Type w) where
  messages : List μ
  stop : Option ε
  rest : List σ

/-- Read until something fails or the stream ends. -/
def run (r : Reader σ μ ε) (s : List σ) : Result σ μ ε :=
  match _hnext : r.next s with
  | none => ⟨[], none, s⟩
  | some (.error e, _) => ⟨[], some e, s⟩
  | some (.ok m, rest) =>
    let later := r.run rest
    ⟨m :: later.messages, later.stop, later.rest⟩
termination_by s.length
decreasing_by exact r.shrinks _hnext

/-- From the first stream the reader takes the messages, and leaves the second. -/
inductive Yields (r : Reader σ μ ε) : List σ → List μ → List σ → Prop where
  | nil (s : List σ) : Yields r s [] s
  | cons {s t u : List σ} {m : μ} {ms : List μ} (hnext : r.next s = some (.ok m, t)) (hrest : Yields r t ms u) :
      Yields r s (m :: ms) u

section

variable {r : Reader σ μ ε} {s t u : List σ} {m : μ} {ms ms' : List μ}

theorem run_of_next (h : r.next s = some (.ok m, t)) :
    r.run s = ⟨m :: (r.run t).messages, (r.run t).stop, (r.run t).rest⟩ := by
  rw [run]
  split
  · rename_i hnone
    rw [h] at hnone
    cases hnone
  · rename_i herr
    rw [h] at herr
    cases herr
  · rename_i hok
    rw [h] at hok
    cases hok
    rfl

theorem run_of_error {e : ε} (h : r.next s = some (.error e, t)) : r.run s = ⟨[], some e, s⟩ := by
  rw [run]
  split
  · rename_i hnone
    rw [h] at hnone
    cases hnone
  · rename_i herr
    rw [h] at herr
    cases herr
    rfl
  · rename_i hok
    rw [h] at hok
    cases hok

theorem run_of_end (h : r.next s = none) : r.run s = ⟨[], none, s⟩ := by
  rw [run]
  split
  · rfl
  · rename_i herr
    rw [h] at herr
    cases herr
  · rename_i hok
    rw [h] at hok
    cases hok

theorem run_of_stop (h : ∀ m t, r.next s ≠ some (.ok m, t)) : (r.run s).messages = [] ∧ (r.run s).rest = s := by
  rw [run]
  split
  · exact ⟨rfl, rfl⟩
  · exact ⟨rfl, rfl⟩
  · rename_i hok
    exact absurd hok (h _ _)

theorem Yields.append (h : Yields r s ms t) (h' : Yields r t ms' u) : Yields r s (ms ++ ms') u := by
  induction h with
  | nil s => exact h'
  | cons hnext _ ih => exact .cons hnext (ih h')

/-- A run goes on where some messages have been read. -/
theorem Yields.run_messages (h : Yields r s ms t) : (r.run s).messages = ms ++ (r.run t).messages := by
  induction h with
  | nil s => rfl
  | cons hnext _ ih => rw [run_of_next hnext, ih, List.cons_append]

theorem Yields.run_rest (h : Yields r s ms t) : (r.run s).rest = (r.run t).rest := by
  induction h with
  | nil s => rfl
  | cons hnext _ ih => rw [run_of_next hnext, ih]

theorem yields_run (r : Reader σ μ ε) (s : List σ) : Yields r s (r.run s).messages (r.run s).rest := by
  induction hn : s.length using Nat.strongRecOn generalizing s with
  | ind n ih =>
    by_cases hnext : ∃ m t, r.next s = some (.ok m, t)
    · obtain ⟨m, t, hnext⟩ := hnext
      rw [run_of_next hnext]
      exact .cons hnext (ih t.length (hn ▸ r.shrinks hnext) t rfl)
    · obtain ⟨hmessages, hrest⟩ := r.run_of_stop (s := s) fun m t h => hnext ⟨m, t, h⟩
      rw [hmessages, hrest]
      exact .nil s

/-- A run stops where the next read fails. -/
theorem stop_eq_some {e : ε} : (r.run s).stop = some e ↔ ∃ t, r.next (r.run s).rest = some (.error e, t) := by
  induction hn : s.length using Nat.strongRecOn generalizing s with
  | ind n ih =>
    cases hnext : r.next s with
    | none =>
      rw [run_of_end hnext, hnext]
      exact iff_of_false nofun nofun
    | some read =>
      obtain ⟨result, t⟩ := read
      cases result with
      | error e' =>
        rw [run_of_error hnext, hnext]
        constructor
        · rintro ⟨⟩
          exact ⟨t, rfl⟩
        · rintro ⟨t', ⟨⟩⟩
          rfl
      | ok m =>
        rw [run_of_next hnext]
        exact ih t.length (hn ▸ r.shrinks hnext) rfl

/-- What is left of a run holds no message at its front. -/
theorem next_run_rest (r : Reader σ μ ε) (s : List σ) (m : μ) (t : List σ) :
    r.next (r.run s).rest ≠ some (.ok m, t) := by
  intro hnext
  have hmore := (yields_run r s).run_messages
  rw [run_of_next hnext] at hmore
  have hlen := congrArg List.length hmore
  simp only [List.length_append, List.length_cons] at hlen
  omega

end

/-! ## Frames -/

/-- The reader takes a message from the front of a stream exactly if a frame of it stands there. -/
structure Decodes (r : Reader σ μ ε) (frame : μ → List σ → Prop) : Prop where
  reads : ∀ {m f}, frame m f → ∀ rest, r.next (f ++ rest) = some (.ok m, rest)
  only : ∀ {s m rest}, r.next s = some (.ok m, rest) → ∃ f, frame m f ∧ s = f ++ rest

section

variable {r : Reader σ μ ε} {frame : μ → List σ → Prop} {s t : List σ} {ms : List μ}

/-- **The frames at the front of a stream are read.** -/
theorem Decodes.yields (h : r.Decodes frame) {fs : List (List σ)} (hfs : List.Forall₂ frame ms fs) (rest : List σ) :
    Yields r (fs.flatten ++ rest) ms rest := by
  induction hfs with
  | nil => exact .nil rest
  | cons hf _ ih =>
    rw [List.flatten_cons, List.append_assoc]
    exact .cons (h.reads hf _) ih

/-- **What is read is frames.** -/
theorem Decodes.frames_of_yields (h : r.Decodes frame) (hyields : Yields r s ms t) :
    ∃ fs, List.Forall₂ frame ms fs ∧ s = fs.flatten ++ t := by
  induction hyields with
  | nil s => exact ⟨[], .nil, rfl⟩
  | cons hnext _ ih =>
    obtain ⟨f, hf, rfl⟩ := h.only hnext
    obtain ⟨fs, hfs, rfl⟩ := ih
    exact ⟨f :: fs, .cons hf hfs, by rw [List.flatten_cons, List.append_assoc]⟩

/-- **A run splits the stream** into frames and a rest without one at its front. -/
theorem Decodes.run_splits (h : r.Decodes frame) (s : List σ) :
    (∃ fs, List.Forall₂ frame (r.run s).messages fs ∧ s = fs.flatten ++ (r.run s).rest) ∧
      ∀ m f t, frame m f → (r.run s).rest ≠ f ++ t := by
  refine ⟨h.frames_of_yields (yields_run r s), fun m f t hf heq => ?_⟩
  apply next_run_rest r s m t
  rw [heq]
  exact h.reads hf t

/-- There is only one such split. -/
theorem Decodes.run_unique (h : r.Decodes frame) {fs : List (List σ)} (hfs : List.Forall₂ frame ms fs)
    (hrest : ∀ m f t', frame m f → t ≠ f ++ t') :
    (r.run (fs.flatten ++ t)).messages = ms ∧ (r.run (fs.flatten ++ t)).rest = t := by
  have hyields := h.yields hfs t
  obtain ⟨hmessages, hleft⟩ := r.run_of_stop (s := t) fun m t' hnext => by
    obtain ⟨f, hf, heq⟩ := h.only hnext
    exact hrest m f t' hf heq
  rw [hyields.run_messages, hyields.run_rest, hmessages, hleft, List.append_nil]
  exact ⟨rfl, rfl⟩

end

end Reader
