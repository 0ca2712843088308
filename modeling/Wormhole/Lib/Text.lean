import Mathlib.Data.List.DropRight
import Mathlib.Data.List.Infix
import Mathlib.Data.List.TakeWhile

/-!
# `Lib.Text` — texts as lists of characters

The string functions of the Rust standard library that line-based parsers are made of: white space and
trimming, lines, the first occurrence of a character. Code that only ever looks at trimmed lines does not see
how lines were ended: `map_trim_lines_unlines`.
-/

/-- A text. -/
abbrev Text : Type := List Char

namespace Text

/-! ## White space -/

/-- `char::is_whitespace`, the Unicode property `White_Space`. -/
def isWhitespace (c : Char) : Bool :=
  let n := c.toNat
  (9 ≤ n && n ≤ 13) || n = 0x20 || n = 0x85 || n = 0xA0 || n = 0x1680 || (0x2000 ≤ n && n ≤ 0x200A) ||
    n = 0x2028 || n = 0x2029 || n = 0x202F || n = 0x205F || n = 0x3000

/-- White space only. -/
def Blank (s : Text) : Prop := ∀ c ∈ s, isWhitespace c = true

instance (s : Text) : Decidable (Blank s) := List.decidableBAll (fun c => isWhitespace c = true) s

def trimEnd (s : Text) : Text := s.rdropWhile isWhitespace

/-- `str::trim`. -/
def trim (s : Text) : Text := trimEnd (s.dropWhile isWhitespace)

section

variable {s t : Text} {c : Char}

/-- What stands before a character that stays, stays. -/
theorem rdropWhile_append_cons {p : Char → Bool} (s t : Text) (hc : p c = false) :
    (s ++ c :: t).rdropWhile p = s ++ c :: t.rdropWhile p := by
  induction t using List.reverseRecOn with
  | nil => exact List.rdropWhile_concat_neg p s c (by rw [hc]; exact Bool.false_ne_true)
  | append_singleton t x ih =>
    rw [← List.cons_append, ← List.append_assoc]
    cases hx : p x with
    | true => rw [List.rdropWhile_concat_pos _ _ _ hx, List.rdropWhile_concat_pos _ _ _ hx, ih]
    | false =>
      have hnot : ¬p x = true := by rw [hx]; exact Bool.false_ne_true
      rw [List.rdropWhile_concat_neg _ _ _ hnot, List.rdropWhile_concat_neg _ _ _ hnot, List.append_assoc,
        List.cons_append]

theorem trimEnd_append_cons (s t : Text) (hc : isWhitespace c = false) :
    trimEnd (s ++ c :: t) = s ++ c :: trimEnd t := rdropWhile_append_cons s t hc

theorem trimEnd_append_blank (s : Text) (ht : Blank t) : trimEnd (s ++ t) = trimEnd s := by
  induction t using List.reverseRecOn with
  | nil => rw [List.append_nil]
  | append_singleton t x ih =>
    rw [← List.append_assoc]
    exact (List.rdropWhile_concat_pos _ _ _ (ht x (by simp))).trans
      (ih fun c hc => ht c (List.mem_append_left _ hc))

theorem trim_blank_append (hs : Blank s) (t : Text) : trim (s ++ t) = trim t := by
  unfold trim
  rw [List.dropWhile_append_of_pos hs]

theorem trim_append_blank (s : Text) (ht : Blank t) : trim (s ++ t) = trim s := by
  unfold trim
  rw [List.dropWhile_append]
  split
  · rename_i hempty
    have hs : s.dropWhile isWhitespace = [] := List.isEmpty_iff.mp hempty
    have hrest : t.dropWhile isWhitespace = [] := List.dropWhile_eq_nil_iff.mpr ht
    rw [hs, hrest]
  · exact trimEnd_append_blank _ ht

theorem trim_cons (hc : isWhitespace c = false) (t : Text) : trim (c :: t) = c :: trimEnd t := by
  unfold trim
  rw [List.dropWhile_cons_of_neg (by rw [hc]; exact Bool.false_ne_true)]
  exact trimEnd_append_cons [] t hc

/-- A text that neither begins nor ends with white space. -/
theorem trim_eq_self (h : ∀ c ∈ s, isWhitespace c = false) : trim s = s := by
  have hnot (c : Char) (hc : c ∈ s) : ¬isWhitespace c = true := by
    rw [h c hc]
    exact Bool.false_ne_true
  have hstart : s.dropWhile isWhitespace = s := by
    apply List.dropWhile_eq_self_iff.mpr
    intro hpos
    exact hnot _ (List.getElem_mem hpos)
  unfold trim
  rw [hstart]
  exact List.rdropWhile_eq_self_iff.mpr fun hne => hnot _ (List.getLast_mem hne)

theorem trim_isInfix (s : Text) : trim s <:+: s :=
  (List.rdropWhile_prefix _ _).isInfix.trans (List.dropWhile_suffix _).isInfix

end

/-! ## Lines -/

/-- The line without the carriage return that ends it. -/
def stripCr (l : Text) : Text := if l.getLast? = some '\r' then l.dropLast else l

/-- The lines of what is left, of which the first has begun with `acc`, backwards. -/
def linesFrom (acc : Text) : Text → List Text
  | [] => if acc = [] then [] else [acc.reverse]
  | c :: rest => if c = '\n' then stripCr acc.reverse :: linesFrom [] rest else linesFrom (c :: acc) rest

/-- `str::lines`. -/
def lines (s : Text) : List Text := linesFrom [] s

/-- Lines, each of them ended. -/
def unlines (ls : List Text) : Text := ls.flatMap (· ++ ['\n'])

section

variable {acc l s : Text} {ls : List Text}

theorem stripCr_isPrefix (l : Text) : stripCr l <+: l := by
  unfold stripCr
  split
  · exact List.dropLast_prefix l
  · exact List.prefix_refl l

/-- How a line was ended is trimmed away. -/
theorem trim_stripCr (l : Text) : trim (stripCr l) = trim l := by
  unfold stripCr
  split
  · rename_i hlast
    obtain ⟨l, rfl⟩ := List.getLast?_eq_some_iff.mp hlast
    rw [List.dropLast_concat, trim_append_blank l (t := ['\r'])]
    intro c hc
    obtain rfl := List.mem_singleton.mp hc
    decide
  · rfl

theorem not_mem_linesFrom (hacc : '\n' ∉ acc) (hl : l ∈ linesFrom acc s) : '\n' ∉ l := by
  induction s generalizing acc with
  | nil =>
    unfold linesFrom at hl
    split at hl
    · cases hl
    · obtain rfl := List.mem_singleton.mp hl
      rwa [List.mem_reverse]
  | cons c s ih =>
    unfold linesFrom at hl
    split at hl
    · obtain rfl | hl := List.mem_cons.mp hl
      · intro hmem
        exact hacc (List.mem_reverse.mp ((stripCr_isPrefix _).subset hmem))
      · exact ih List.not_mem_nil hl
    · rename_i hc
      refine ih ?_ hl
      intro hmem
      obtain heq | hmem := List.mem_cons.mp hmem
      · exact hc heq.symm
      · exact hacc hmem

theorem not_mem_of_mem_lines (hl : l ∈ lines s) : '\n' ∉ l := not_mem_linesFrom List.not_mem_nil hl

theorem linesFrom_append (hl : '\n' ∉ l) (s : Text) :
    linesFrom acc (l ++ '\n' :: s) = stripCr (acc.reverse ++ l) :: lines s := by
  induction l generalizing acc with
  | nil =>
    rw [List.nil_append, linesFrom, if_pos rfl, List.append_nil]
    rfl
  | cons c l ih =>
    have hc : c ≠ '\n' := fun heq => hl (heq ▸ List.mem_cons_self)
    rw [List.cons_append, linesFrom, if_neg hc, ih fun hmem => hl (List.mem_cons_of_mem _ hmem), List.reverse_cons,
      List.append_assoc]
    rfl

theorem lines_unlines (hls : ∀ l ∈ ls, '\n' ∉ l) : lines (unlines ls) = ls.map stripCr := by
  induction ls with
  | nil => rfl
  | cons l ls ih =>
    unfold unlines
    rw [List.flatMap_cons, List.append_assoc, List.singleton_append]
    exact (linesFrom_append (hls l List.mem_cons_self) _).trans
      (congrArg (_ :: ·) (ih fun l' hl' => hls l' (List.mem_cons_of_mem _ hl')))

/-- **Lines that were taken from a text and put together again** are the same once they are trimmed. -/
theorem map_trim_lines_unlines (hls : ∀ l ∈ ls, '\n' ∉ l) : (lines (unlines ls)).map trim = ls.map trim := by
  rw [lines_unlines hls, List.map_map]
  exact List.map_congr_left fun l _ => trim_stripCr l

end

/-! ## Searching -/

/-- What stands before and after the first `c`. -/
def splitOnce (c : Char) (s : Text) : Option (Text × Text) :=
  if c ∈ s then some (s.takeWhile (· ≠ c), (s.dropWhile (· ≠ c)).tail) else none

/-- `str::contains`. -/
def contains (s pattern : Text) : Bool := decide (pattern <:+: s)

theorem splitOnce_append {c : Char} {s : Text} (hs : c ∉ s) (t : Text) :
    splitOnce c (s ++ c :: t) = some (s, t) := by
  have hne (x : Char) (hx : x ∈ s) : decide (x ≠ c) = true := decide_eq_true fun heq => hs (heq ▸ hx)
  unfold splitOnce
  rw [if_pos (by simp), List.takeWhile_append_of_pos hne, List.dropWhile_append_of_pos hne]
  simp

theorem contains_of_isInfix {s t pattern : Text} (hcontains : pattern <:+: t) (h : t <:+: s) : contains s pattern = true :=
  decide_eq_true (hcontains.trans h)

/-- What a text was put together from is in it. -/
theorem infix_intercalate (sep : Text) {l : Text} {ls : List Text} (hl : l ∈ ls) : l <:+: sep.intercalate ls := by
  induction ls with
  | nil => cases hl
  | cons x ls ih =>
    by_cases hls : ls = []
    · obtain rfl : l = x := by simpa [hls] using hl
      exact ⟨[], [], by rw [hls, List.intercalate_singleton, List.nil_append, List.append_nil]⟩
    · rw [List.intercalate_cons_of_ne_nil hls]
      obtain rfl | hl := List.mem_cons.mp hl
      · rw [List.append_assoc]
        exact (List.prefix_append _ _).isInfix
      · exact (ih hl).trans (List.suffix_append _ _).isInfix

end Text
