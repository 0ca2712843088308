import Wormhole.Derive.GenerateDeps

/-!
# `Derive.Gating` — which re-exports are gated

A `Cargo.toml` whose `[dependencies]` are entries `key = value` with bare keys, and whose `[features]` are
arrays, each of them on one line: `Manifest` is such a text with its reading. Spaces, comments and the order
of the tables are free, and nothing is said of the other tables.

A crate that is re-exported should be listed once, and have a `cfg` exactly if its entry is optional:
`GatingMatches`. Three things stand in the way (`Gated`): a feature `name/…` gates a mandatory entry `name`, a
header that is not written plainly is not found, and a crate that the wasm table has as well is listed twice.
-/

namespace Wormhole
namespace Derive
namespace GenerateDeps

open Text

/-! ## Entries -/

/-- A bare key. -/
structure BareKey where
  text : Text
  nonempty : text ≠ []
  bare : ∀ c ∈ text, (c.isAlphanum || c = '_' || c = '-') = true

/-- A field of an inline table, as it is written. -/
structure Field where
  key : Text
  value : Text

def Field.text (f : Field) : Text := f.key ++ '=' :: f.value

/-- `optional = true`; the key may be quoted. -/
def Field.isOptional (f : Field) : Bool :=
  (trim f.key = "optional".toList || trim f.key = "\"optional\"".toList || trim f.key = "'optional'".toList) &&
    trim f.value = "true".toList

inductive Value where
  | inlineTable (fields : List Field)
  /-- a string, an array, a number, … -/
  | other (text : Text) (h : startsWith (trim text) '{' = false)

def Value.text : Value → Text
  | .inlineTable fields => '{' :: ([','].intercalate (fields.map Field.text) ++ ['}'])
  | .other text _ => text

def Value.isOptional : Value → Bool
  | .inlineTable fields => fields.any Field.isOptional
  | .other _ _ => false

/-- An entry of `[dependencies]`; `rest` is a comment, or nothing. -/
structure Entry where
  indent : Text
  name : BareKey
  gap : Text
  space : Text
  value : Value
  rest : Text
  hindent : Blank indent
  hgap : Blank gap
  hspace : Blank space
  hrest : isIgnored (trim rest) = true

namespace Entry

def text (e : Entry) : Text := e.indent ++ (e.name.text ++ e.gap ++ '=' :: (e.space ++ e.value.text ++ e.rest))

/-- What follows the `=`, the comment included. -/
def rhs (e : Entry) : Text := trimEnd (e.space ++ e.value.text ++ e.rest)

def isOptional (e : Entry) : Bool := e.value.isOptional

end Entry

/-- A feature with its array. -/
structure Feature where
  indent : Text
  key : BareKey
  gap : Text
  space : Text
  inside : Text
  rest : Text
  hindent : Blank indent
  hgap : Blank gap
  hspace : Blank space

namespace Feature

def text (f : Feature) : Text :=
  f.indent ++ (f.key.text ++ f.gap ++ '=' :: (f.space ++ '[' :: (f.inside ++ ']' :: f.rest)))

/-- The items that are read: a comment with a bracket is taken for a part of the array. -/
def items (f : Feature) : List Text :=
  splitItems ((f.inside ++ ']' :: trimEnd f.rest).rdropWhile (· ≠ ']')).dropLast

end Feature

/-! ## Tables -/

/-- A line of a table: nothing, a comment, or an entry. -/
inductive TableLine (ε : Type) where
  | ignored (text : Text) (h : isIgnored (trim text) = true)
  | entry (e : ε)

def TableLine.text {ε : Type} (entryText : ε → Text) : TableLine ε → Text
  | .ignored text _ => text
  | .entry e => entryText e

def TableLine.entry? {ε : Type} : TableLine ε → Option ε
  | .ignored _ _ => none
  | .entry e => some e

/-- `[title]`. -/
def bracketed (title : Text) : Text := '[' :: (title ++ [']'])

/-- The line opens the table: `[title]`, in which and around which there may be spaces, and a comment. -/
def Opens (title line : Text) : Prop :=
  ∃ indent inner rest, Blank indent ∧ trim inner = title ∧ line = indent ++ '[' :: (inner ++ ']' :: rest)

/-- Where a text has the table with the given title, if it has it. -/
structure Table (content title : Text) (ε : Type) (entryText : ε → Text) where
  before : List Text
  header : Option Text
  body : List (TableLine ε)
  after : List Text
  hlines : lines content = before ++ (header.toList ++ (body.map (TableLine.text entryText) ++ after))
  habsent : header = none → body = []
  hopens : ∀ line, header = some line → Opens title line
  /-- it ends with the text, or where the next one is opened -/
  hafter : ∀ line, after.head? = some line → startsWith (trim line) '[' = true

namespace Table

variable {content title : Text} {ε : Type} {entryText : ε → Text}

def entries (t : Table content title ε entryText) : List ε := t.body.filterMap TableLine.entry?

/-- The header is written without spaces inside the brackets and without a comment, and it is the first line
    that reads so (a line of a multi-line string may read so as well). -/
def Plain (t : Table content title ε entryText) : Prop :=
  (∃ line, t.header = some line ∧ trim line = bracketed title) ∧ ∀ line ∈ t.before, trim line ≠ bracketed title

/-- No line but the header reads like the header. -/
def Single (t : Table content title ε entryText) : Prop := ∀ line ∈ t.before ++ t.after, trim line ≠ bracketed title

end Table

/-- A `Cargo.toml`, and what it says. -/
structure Manifest where
  content : Text
  dependencies : Table content "dependencies".toList Entry Entry.text
  features : Table content "features".toList Feature Feature.text
  hkeys : (features.entries.map fun f => f.key.text).Nodup

namespace Manifest

/-- The entries that are to be listed. -/
def listed (m : Manifest) : List Entry := m.dependencies.entries.filter fun e => e.name.text ≠ deriveCrate

/-- The crates that they are re-exported as. -/
def crates (m : Manifest) : List Text := m.listed.map fun e => crateIdent e.name.text

/-- Some item of `[features]` is `name`, or `name/…`. -/
def Names (m : Manifest) (name : Text) : Prop :=
  m.features.Plain ∧ ∃ f ∈ m.features.entries, ∃ item ∈ f.items, refersTo name item = true

end Manifest

/-- What is listed for an entry: its crate, with a `cfg` exactly if the entry is optional. -/
def RightFor (e : Entry) (listed : Text × Text) : Prop :=
  listed.1 = crateIdent e.name.text ∧ (listed.2 = [] ↔ e.isOptional = false)

/-- **The gating matches the manifest**: of the crates of the entries, each is listed once and in the order of
    the entries, with a `cfg` exactly if its entry is optional. Other crates may stand between them. -/
def GatingMatches (iter : Iteration) (m : Manifest) : Prop :=
  ∃ out, fromCargoToml iter m.content = some out ∧
    List.Forall₂ RightFor m.listed (out.filter fun listed => listed.1 ∈ m.crates)

/-! ## When it does -/

/-- The lines from the first one that reads like the header to the next one that begins with a bracket. -/
def linesUnder (content header : Text) : List Text :=
  ((lines content).dropWhile fun l => trim l ≠ header).tail.takeWhile fun l => !startsWith (trim l) '['

def usualWasmHeader : Text := "[target.'cfg(target_arch = \"wasm32\")'.dependencies]".toList

/-- The header for wasm: the usual one, or the first one that speaks of it. -/
def wasmHeader (content : Text) : Option Text :=
  if usualWasmHeader ∈ (lines content).map trim then some usualWasmHeader
  else
    ((lines content).find? fun l => contains l "target_arch = \"wasm32\"".toList && startsWith (trim l) '[').map trim

/-- The keys under it. -/
def wasmKeys (content : Text) : List Text :=
  match wasmHeader content with
  | none => []
  | some header => (linesUnder content header).filterMap fun l => (parseDep (trim l)).map Prod.fst

namespace Manifest

/-- The table is found, no mandatory entry is named by a feature or has the words `optional` and `true` after
    its `=`, and the wasm table has none of the crates. -/
structure Found (m : Manifest) : Prop where
  plain : m.dependencies.Plain
  mandatory : ∀ e ∈ m.listed, e.isOptional = false → ¬m.Names e.name.text ∧ saysOptional e.rhs = false
  once : ∀ key ∈ wasmKeys m.content, crateIdent key ∉ m.crates

/-- The table is not found, all entries are optional, and the wasm table happens to have the same crates in the
    same order. -/
structure Replaced (m : Manifest) : Prop where
  single : m.dependencies.Single
  not_plain : ¬m.dependencies.Plain
  optional : ∀ e ∈ m.listed, e.isOptional = true
  same : ((wasmKeys m.content).map crateIdent).filter (· ∈ m.crates) = m.crates

/-- What the gating needs. -/
def Gated (m : Manifest) : Prop :=
  (m.features.Plain ∨ m.features.Single) ∧ (m.listed = [] ∨ m.Found ∨ m.Replaced)

end Manifest

/-! ## Lines with a bare key -/

namespace BareKey

theorem isAlpha_iff (c : Char) :
    c.isAlpha = true ↔ (65 ≤ c.toNat ∧ c.toNat ≤ 90) ∨ (97 ≤ c.toNat ∧ c.toNat ≤ 122) := by
  have hupper : c.isUpper = true ↔ 65 ≤ c.toNat ∧ c.toNat ≤ 90 := decide_eq_true_iff
  have hlower : c.isLower = true ↔ 97 ≤ c.toNat ∧ c.toNat ≤ 122 :=
    (Bool.and_eq_true_iff).trans (and_congr decide_eq_true_iff decide_eq_true_iff)
  exact Bool.or_eq_true_iff.trans (or_congr hupper hlower)

/-- The codes of the characters of a bare key. -/
theorem toNat_mem (k : BareKey) {c : Char} (hc : c ∈ k.text) :
    (65 ≤ c.toNat ∧ c.toNat ≤ 90) ∨ (97 ≤ c.toNat ∧ c.toNat ≤ 122) ∨ (48 ≤ c.toNat ∧ c.toNat ≤ 57) ∨
      c.toNat = 95 ∨ c.toNat = 45 := by
  have hbare := k.bare c hc
  simp only [Char.isAlphanum, Bool.or_eq_true, isAlpha_iff, Char.isDigit_iff_toNat, decide_eq_true_eq] at hbare
  obtain (((hupper | hlower) | hdigit) | rfl) | rfl := hbare
  · exact Or.inl hupper
  · exact Or.inr (Or.inl hlower)
  · exact Or.inr (Or.inr (Or.inl hdigit))
  · exact Or.inr (Or.inr (Or.inr (Or.inl rfl)))
  · exact Or.inr (Or.inr (Or.inr (Or.inr rfl)))

theorem isWhitespace_eq_false (k : BareKey) {c : Char} (hc : c ∈ k.text) : isWhitespace c = false := by
  have hcode := k.toNat_mem hc
  unfold isWhitespace
  simp only [Bool.or_eq_false_iff, Bool.and_eq_false_iff, decide_eq_false_iff_not]
  omega

/-- No character of a bare key means something to the parsers. -/
theorem not_mem (k : BareKey) {c : Char} (hc : c ∈ ['=', '[', '"', '#']) : c ∉ k.text := by
  intro hmem
  have hcode := k.toNat_mem hmem
  simp only [List.mem_cons, List.not_mem_nil, or_false] at hc
  obtain rfl | rfl | rfl | rfl := hc
  all_goals exact absurd hcode (by decide)

theorem trim_text (k : BareKey) : trim k.text = k.text := trim_eq_self fun _ hc => k.isWhitespace_eq_false hc

/-- A line that begins with a bare key is not ignored and opens no table. -/
theorem startsWith_append (k : BareKey) (s : Text) {c : Char} (hc : c ∈ ['=', '[', '"', '#']) :
    startsWith (k.text ++ s) c = false := by
  obtain ⟨x, xs, hcons⟩ := List.exists_cons_of_ne_nil k.nonempty
  have hne : x ≠ c := by
    intro heq
    exact k.not_mem hc (hcons ▸ heq ▸ List.mem_cons_self)
  unfold startsWith
  rw [hcons]
  simpa using hne

theorem isIgnored_append (k : BareKey) (s : Text) : isIgnored (k.text ++ s) = false := by
  unfold isIgnored
  rw [k.startsWith_append s (by decide), Bool.or_false, decide_eq_false_iff_not]
  intro hnil
  exact k.nonempty (List.append_eq_nil_iff.mp hnil).1

/-- Trimming a line `key = …` leaves the key and what stands before the `=`. -/
theorem trim_line {indent : Text} (hindent : Blank indent) (k : BareKey) (gap rest : Text) :
    trim (indent ++ (k.text ++ gap ++ '=' :: rest)) = k.text ++ gap ++ '=' :: trimEnd rest := by
  obtain ⟨x, xs, hcons⟩ := List.exists_cons_of_ne_nil k.nonempty
  have hx : isWhitespace x = false := k.isWhitespace_eq_false (hcons ▸ List.mem_cons_self)
  rw [trim_blank_append hindent, hcons, List.cons_append, List.cons_append, trim_cons hx,
    trimEnd_append_cons _ _ (by decide)]
  rfl

/-- The key is what stands before the first `=`. -/
theorem splitOnce_line {gap : Text} (hgap : Blank gap) (k : BareKey) (rest : Text) :
    splitOnce '=' (k.text ++ gap ++ '=' :: rest) = some (k.text ++ gap, rest) ∧ trim (k.text ++ gap) = k.text := by
  constructor
  · apply splitOnce_append
    intro hmem
    obtain hmem | hmem := List.mem_append.mp hmem
    · exact k.not_mem (by decide) hmem
    · exact absurd (hgap _ hmem) (by decide)
  · rw [trim_append_blank _ hgap, k.trim_text]

end BareKey

/-! ## Finding a table -/

section

variable {headerExact : Text} {before ls : List Text}

theorem sectionFrom_append (hbefore : ∀ line ∈ before, trim line ≠ headerExact) (ls : List Text) :
    sectionFrom headerExact (before ++ ls) = sectionFrom headerExact ls := by
  induction before with
  | nil => rfl
  | cons line before ih =>
    rw [List.cons_append, sectionFrom, if_neg (hbefore line List.mem_cons_self)]
    exact ih fun line' hmem => hbefore line' (List.mem_cons_of_mem _ hmem)

theorem sectionFrom_eq_none (h : ∀ line ∈ ls, trim line ≠ headerExact) : sectionFrom headerExact ls = none := by
  rw [← List.append_nil ls, sectionFrom_append h]
  rfl

/-- **A header that some line reads like is found**, with the lines under it. -/
theorem sectionFrom_eq (h : headerExact ∈ ls.map trim) :
    sectionFrom headerExact ls = some (collect (ls.dropWhile fun l => trim l ≠ headerExact).tail) := by
  induction ls with
  | nil => cases h
  | cons line ls ih =>
    unfold sectionFrom
    by_cases hline : trim line = headerExact
    · rw [if_pos hline, List.dropWhile_cons_of_neg (by simpa using hline)]
      rfl
    · have hrest : headerExact ∈ ls.map trim :=
        (List.mem_cons.mp h).resolve_left fun heq => hline heq.symm
      rw [if_neg hline, List.dropWhile_cons_of_pos (by simpa using hline), ih hrest]

end

theorem sectionByHeader_eq_linesUnder {content headerExact : Text} (h : headerExact ∈ (lines content).map trim) :
    sectionByHeader content headerExact = some (unlines (linesUnder content headerExact)) :=
  sectionFrom_eq h

theorem not_mem_of_mem_linesUnder {content headerExact line : Text} (h : line ∈ linesUnder content headerExact) :
    '\n' ∉ line := by
  have htail := (List.takeWhile_prefix _).subset h
  exact not_mem_of_mem_lines ((List.dropWhile_suffix _).subset (List.mem_of_mem_tail htail))

namespace TableLine

variable {ε : Type} {entryText : ε → Text}

theorem startsWith_trim (hentry : ∀ e, startsWith (trim (entryText e)) '[' = false) (l : TableLine ε) :
    startsWith (trim (l.text entryText)) '[' = false := by
  cases l with
  | ignored text h =>
    unfold isIgnored at h
    obtain h | h := Bool.or_eq_true_iff.mp h
    · show startsWith (trim text) '[' = false
      rw [of_decide_eq_true h]
      rfl
    · have hhead : (trim text).head? = some '#' := of_decide_eq_true h
      show startsWith (trim text) '[' = false
      unfold startsWith
      rw [hhead]
      decide
  | entry e => exact hentry e

end TableLine

namespace Table

variable {content title : Text} {ε : Type} {entryText : ε → Text}

/-- **A table that is plainly opened is found**, and all of its lines. -/
theorem sectionByHeader_eq (t : Table content title ε entryText) (hplain : t.Plain)
    (hentry : ∀ e, startsWith (trim (entryText e)) '[' = false) :
    sectionByHeader content (bracketed title) = some (unlines (t.body.map (TableLine.text entryText))) := by
  obtain ⟨⟨header, hheader, htrim⟩, hbefore⟩ := hplain
  have hbody (line : Text) (hmem : line ∈ t.body.map (TableLine.text entryText)) :
      (!startsWith (trim line) '[') = true := by
    obtain ⟨l, -, rfl⟩ := List.mem_map.mp hmem
    rw [l.startsWith_trim hentry]
    rfl
  have hafter : (t.after.takeWhile fun line => !startsWith (trim line) '[') = [] := by
    cases hcase : t.after with
    | nil => rfl
    | cons line after =>
      have hstarts := t.hafter line (by rw [hcase]; rfl)
      rw [List.takeWhile_cons_of_neg (by rw [hstarts]; decide)]
  unfold sectionByHeader
  rw [t.hlines, sectionFrom_append hbefore, hheader, Option.toList_some, List.singleton_append, sectionFrom,
    if_pos htrim]
  unfold collect
  rw [List.takeWhile_append_of_pos hbody, hafter, List.append_nil]

/-- **A table that is opened otherwise is not found**, nor anything else. -/
theorem sectionByHeader_eq_none (t : Table content title ε entryText) (hplain : ¬t.Plain) (hsingle : t.Single)
    (hentry : ∀ e, startsWith (trim (entryText e)) '[' = false) :
    sectionByHeader content (bracketed title) = none := by
  apply sectionFrom_eq_none
  intro line hmem htrim
  have hbefore (line : Text) (hmem : line ∈ t.before) : trim line ≠ bracketed title :=
    hsingle line (List.mem_append_left _ hmem)
  rw [t.hlines] at hmem
  obtain hmem | hmem := List.mem_append.mp hmem
  · exact hbefore line hmem htrim
  · obtain hmem | hmem := List.mem_append.mp hmem
    · exact hplain ⟨⟨line, Option.mem_toList.mp hmem, htrim⟩, hbefore⟩
    · obtain hmem | hmem := List.mem_append.mp hmem
      · obtain ⟨l, -, rfl⟩ := List.mem_map.mp hmem
        have hnot := l.startsWith_trim hentry
        rw [htrim] at hnot
        cases hnot
      · exact hsingle line (List.mem_append_right _ hmem) htrim

/-- The lines of a table, trimmed. -/
theorem map_trim_lines (t : Table content title ε entryText) :
    (lines (unlines (t.body.map (TableLine.text entryText)))).map trim =
      t.body.map fun l => trim (l.text entryText) := by
  rw [map_trim_lines_unlines, List.map_map]
  · rfl
  · intro line hmem
    apply not_mem_of_mem_lines
    rw [t.hlines]
    exact List.mem_append_right _ (List.mem_append_right _ (List.mem_append_left _ hmem))

end Table

/-! ## Reading `[dependencies]` -/

namespace Entry

theorem trim_text (e : Entry) : trim e.text = e.name.text ++ e.gap ++ '=' :: e.rhs :=
  e.name.trim_line e.hindent e.gap _

theorem startsWith_trim (e : Entry) : startsWith (trim e.text) '[' = false := by
  rw [e.trim_text, List.append_assoc]
  exact e.name.startsWith_append _ (by decide)

theorem parseDep_eq (e : Entry) : parseDep (trim e.text) = some (e.name.text, e.rhs) := by
  obtain ⟨hsplit, htrim⟩ := e.name.splitOnce_line e.hgap e.rhs
  have hignored : isIgnored (trim e.text) = false := by
    rw [e.trim_text, List.append_assoc]
    exact e.name.isIgnored_append _
  have hstarts (c : Char) (hc : c ∈ ['=', '[', '"', '#']) : startsWith e.name.text c = false := by
    simpa using e.name.startsWith_append [] hc
  unfold parseDep
  rw [hignored, e.trim_text, hsplit]
  simp only [Bool.false_eq_true, if_false, Option.bind_some, htrim]
  rw [hstarts '[' (by decide), hstarts '"' (by decide)]
  rfl

/-- **An optional entry says so**: in its right-hand side stand `optional` and `true`. -/
theorem saysOptional_of_isOptional {e : Entry} (h : e.isOptional = true) : saysOptional e.rhs = true := by
  cases hvalue : e.value with
  | other text hother =>
    unfold isOptional at h
    rw [hvalue] at h
    cases h
  | inlineTable fields =>
    unfold isOptional at h
    rw [hvalue] at h
    obtain ⟨f, hf, hopt⟩ := List.any_eq_true.mp h
    obtain ⟨hkey, htrue⟩ := Bool.and_eq_true_iff.mp hopt
    -- the field stands in the right-hand side, and in it the two words on either side of its `=`
    have hfield : f.text <:+: e.rhs := by
      have hrhs : e.rhs = e.space ++ '{' :: ([','].intercalate (fields.map Field.text)) ++ '}' :: trimEnd e.rest := by
        have hwritten : e.space ++ e.value.text ++ e.rest =
            e.space ++ '{' :: ([','].intercalate (fields.map Field.text)) ++ '}' :: e.rest := by
          rw [hvalue]
          simp [Value.text]
        unfold rhs
        rw [hwritten, trimEnd_append_cons _ _ (by decide)]
      have hparts := infix_intercalate [','] (List.mem_map_of_mem (f := Field.text) hf)
      rw [hrhs]
      exact hparts.trans ⟨e.space ++ ['{'], '}' :: trimEnd e.rest, by simp⟩
    have hoptional : "optional".toList <:+: f.key := by
      refine List.IsInfix.trans ?_ (trim_isInfix f.key)
      simp only [Bool.or_eq_true, decide_eq_true_eq] at hkey
      obtain (hplain | hquoted) | hquoted := hkey
      · exact ⟨[], [], hplain.symm⟩
      · rw [hquoted]
        exact ⟨"\"".toList, "\"".toList, rfl⟩
      · rw [hquoted]
        exact ⟨"'".toList, "'".toList, rfl⟩
    have hvalueTrue : "true".toList <:+: f.value := of_decide_eq_true htrue ▸ trim_isInfix f.value
    unfold saysOptional
    rw [contains_of_isInfix hoptional ((List.prefix_append _ _).isInfix.trans hfield),
      contains_of_isInfix hvalueTrue (((List.suffix_cons _ _).trans (List.suffix_append _ _)).isInfix.trans hfield)]
    rfl

end Entry

theorem parseDepsOrdered_eq {content : Text} (t : Table content "dependencies".toList Entry Entry.text) :
    parseDepsOrdered (unlines (t.body.map (TableLine.text Entry.text))) =
      t.entries.map fun e => (e.name.text, e.rhs) := by
  unfold parseDepsOrdered Table.entries
  rw [← Function.comp_def, ← List.filterMap_map, t.map_trim_lines, List.filterMap_map, List.map_filterMap]
  apply List.filterMap_congr
  intro l _
  cases l with
  | ignored text h =>
    show parseDep (trim text) = none
    unfold parseDep
    rw [if_pos h]
  | entry e => exact e.parseDep_eq

/-! ## Reading `[features]` -/

namespace Feature

theorem trim_text (f : Feature) :
    trim f.text = f.key.text ++ f.gap ++ '=' :: (f.space ++ '[' :: (f.inside ++ ']' :: trimEnd f.rest)) := by
  unfold text
  rw [f.key.trim_line f.hindent, trimEnd_append_cons _ _ (by decide), trimEnd_append_cons _ _ (by decide)]

theorem startsWith_trim (f : Feature) : startsWith (trim f.text) '[' = false := by
  rw [f.trim_text, List.append_assoc]
  exact f.key.startsWith_append _ (by decide)

theorem parseItems_eq (f : Feature) :
    parseItems (trim (f.space ++ '[' :: (f.inside ++ ']' :: trimEnd f.rest))) = some f.items := by
  have htrim : trim (f.space ++ '[' :: (f.inside ++ ']' :: trimEnd f.rest)) =
      [] ++ '[' :: (f.inside ++ ']' :: trimEnd f.rest) := by
    rw [trim_blank_append f.hspace, trim_cons (by decide), trimEnd_append_cons _ _ (by decide)]
    unfold trimEnd
    rw [List.rdropWhile_idempotent]
    rfl
  unfold parseItems
  rw [htrim, splitOnce_append List.not_mem_nil]
  show (if _ then _ else _) = _
  rw [if_pos (by simp)]
  rfl

theorem parseFeature_eq (f : Feature) (features : HashMap Text (List Text)) :
    parseFeature features (trim f.text) = some (features.insert f.key.text f.items) := by
  obtain ⟨hsplit, htrim⟩ :=
    f.key.splitOnce_line f.hgap (f.space ++ '[' :: (f.inside ++ ']' :: trimEnd f.rest))
  have hignored : isIgnored (trim f.text) = false := by
    rw [f.trim_text, List.append_assoc]
    exact f.key.isIgnored_append _
  unfold parseFeature
  rw [hignored, f.trim_text, hsplit]
  simp only [Bool.false_eq_true, if_false, f.parseItems_eq, htrim, Option.map_some]

end Feature

theorem foldlM_parseFeature (body : List (TableLine Feature)) (features : HashMap Text (List Text)) :
    (body.map fun l => trim (l.text Feature.text)).foldlM parseFeature features =
      some ((body.filterMap TableLine.entry?).foldl (fun acc f => acc.insert f.key.text f.items) features) := by
  induction body generalizing features with
  | nil => rfl
  | cons l body ih =>
    rw [List.map_cons, List.foldlM_cons]
    cases l with
    | ignored text h =>
      have hskip : parseFeature features (trim text) = some features := by
        unfold parseFeature
        rw [if_pos h]
      show (parseFeature features (trim text)).bind _ = _
      rw [hskip]
      exact ih features
    | entry f =>
      show (parseFeature features (trim f.text)).bind _ = _
      rw [f.parseFeature_eq]
      exact ih _

theorem parseFeatures_eq {content : Text} (t : Table content "features".toList Feature Feature.text) :
    parseFeatures (unlines (t.body.map (TableLine.text Feature.text))) =
      some (t.entries.foldl (fun acc f => acc.insert f.key.text f.items) ∅) := by
  have hfold := foldlM_parseFeature t.body ∅
  rw [← t.map_trim_lines, List.foldlM_map] at hfold
  exact hfold

/-- The features that are listed are those with such an item, in some order. -/
theorem featuresReferencing_ne_nil {iter : Iteration} {featuresMap : HashMap Text (List Text)} {dep : Text} :
    featuresReferencing iter featuresMap dep ≠ [] ↔
      ∃ feature items, featuresMap.lookup feature = some items ∧ ∃ item ∈ items, refersTo dep item = true := by
  unfold featuresReferencing
  constructor
  · intro hne
    obtain ⟨feature, hmem⟩ := List.exists_mem_of_ne_nil _ hne
    obtain ⟨⟨_, items⟩, hentry, rfl⟩ := List.mem_map.mp hmem
    obtain ⟨hentry, hany⟩ := List.mem_filter.mp hentry
    have hlook := HashMap.mem_entries_iff.mp ((iter.perm featuresMap).mem_iff.mp hentry)
    exact ⟨_, items, hlook, List.any_eq_true.mp hany⟩
  · rintro ⟨feature, items, hlook, hitem⟩
    apply List.ne_nil_of_mem
    refine List.mem_map.mpr ⟨⟨feature, items⟩, List.mem_filter.mpr ⟨?_, ?_⟩, rfl⟩
    · exact (iter.perm featuresMap).mem_iff.mpr (HashMap.mem_entries_iff.mpr hlook)
    · exact List.any_eq_true.mpr hitem

namespace Manifest

/-- **The features are read**, and an entry is referred to exactly if it is named. -/
theorem exists_featuresMap (m : Manifest) (hfeatures : m.features.Plain ∨ m.features.Single) :
    ∃ featuresMap, featuresMapOf m.content = some featuresMap ∧
      ∀ iter name, featuresReferencing iter featuresMap name ≠ [] ↔ m.Names name := by
  by_cases hplain : m.features.Plain
  · have hsection := m.features.sectionByHeader_eq hplain Feature.startsWith_trim
    refine ⟨m.features.entries.foldl (fun acc f => acc.insert f.key.text f.items) ∅, ?_, ?_⟩
    · unfold featuresMapOf
      rw [show "[features]".toList = bracketed "features".toList from rfl, hsection]
      exact parseFeatures_eq m.features
    · intro iter name
      rw [featuresReferencing_ne_nil]
      constructor
      · rintro ⟨feature, items, hlook, hitem⟩
        obtain ⟨f, hf, -, rfl⟩ | ⟨-, hnone⟩ := (HashMap.lookup_foldl_insert m.hkeys).mp hlook
        · exact ⟨hplain, f, hf, hitem⟩
        · cases hnone
      · rintro ⟨-, f, hf, hitem⟩
        exact ⟨f.key.text, f.items, (HashMap.lookup_foldl_insert m.hkeys).mpr (Or.inl ⟨f, hf, rfl, rfl⟩), hitem⟩
  · -- no line reads like the header, so the map is empty and names nothing
    have hsection := m.features.sectionByHeader_eq_none hplain (hfeatures.resolve_left hplain) Feature.startsWith_trim
    refine ⟨∅, ?_, ?_⟩
    · unfold featuresMapOf
      rw [show "[features]".toList = bracketed "features".toList from rfl, hsection]
      rfl
    · intro iter name
      rw [featuresReferencing_ne_nil]
      constructor
      · rintro ⟨feature, items, hlook, -⟩
        cases hlook
      · rintro ⟨hplain', -⟩
        exact absurd hplain' hplain

/-- What the entries are listed with. -/
theorem mainListing_eq (m : Manifest) (hplain : m.dependencies.Plain) (iter : Iteration)
    (featuresMap : HashMap Text (List Text)) :
    mainListing iter featuresMap m.content = m.listed.map fun e =>
      (crateIdent e.name.text, mainCfg (featuresReferencing iter featuresMap e.name.text) e.name.text e.rhs) := by
  have hsection := m.dependencies.sectionByHeader_eq hplain Entry.startsWith_trim
  unfold mainListing listed
  rw [show "[dependencies]".toList = bracketed "dependencies".toList from rfl, hsection, Option.getD_some,
    parseDepsOrdered_eq, List.filter_map, List.map_map]
  rfl

/-- A table that is opened otherwise is taken for an empty one. -/
theorem mainListing_eq_nil (m : Manifest) (hplain : ¬m.dependencies.Plain) (hsingle : m.dependencies.Single)
    (iter : Iteration) (featuresMap : HashMap Text (List Text)) : mainListing iter featuresMap m.content = [] := by
  have hsection := m.dependencies.sectionByHeader_eq_none hplain hsingle Entry.startsWith_trim
  unfold mainListing
  rw [show "[dependencies]".toList = bracketed "dependencies".toList from rfl, hsection]
  rfl

end Manifest

/-! ## The `cfg` of an entry -/

theorem featureCfg_ne_nil (feature : Text) : featureCfg feature ≠ [] := by
  unfold featureCfg
  rw [List.append_assoc]
  exact List.cons_ne_nil _ _

theorem featuresCfg_ne_nil (feats : List Text) : featuresCfg feats ≠ [] := by
  unfold featuresCfg
  split
  · exact featureCfg_ne_nil _
  · rw [List.append_assoc]
    exact List.cons_ne_nil _ _

theorem mainCfg_eq_nil_iff {feats : List Text} {dep rhs : Text} :
    mainCfg feats dep rhs = [] ↔ feats = [] ∧ saysOptional rhs = false := by
  unfold mainCfg
  split
  · rename_i hfeats
    exact iff_of_false (featuresCfg_ne_nil feats) fun h => hfeats h.1
  · rename_i hfeats
    rw [not_not] at hfeats
    split
    · rename_i hwords
      refine iff_of_false (featureCfg_ne_nil _) ?_
      rintro ⟨-, hnot⟩
      rw [hwords] at hnot
      cases hnot
    · rename_i hwords
      exact iff_of_true rfl ⟨hfeats, Bool.eq_false_iff.mpr hwords⟩

/-- An entry gets the right `cfg` unless it is mandatory, and named or said to be optional. -/
theorem mainCfg_right_iff {feats : List Text} {e : Entry} :
    (mainCfg feats e.name.text e.rhs = [] ↔ e.isOptional = false) ↔
      (e.isOptional = false → feats = [] ∧ saysOptional e.rhs = false) := by
  rw [mainCfg_eq_nil_iff]
  constructor
  · exact Iff.mpr
  · intro h
    refine ⟨?_, h⟩
    rintro ⟨-, hnot⟩
    apply Bool.eq_false_iff.mpr
    intro hopt
    rw [Entry.saysOptional_of_isOptional hopt] at hnot
    cases hnot

/-! ## What is listed for wasm -/

theorem wasmCfg_ne_nil (feats : List Text) (dep rhs : Text) : wasmCfg feats dep rhs ≠ [] := by
  have hall (cfg : Text) :
      "all(".toList ++ "target_arch = \"wasm32\"".toList ++ ", ".toList ++ cfg ++ [')'] ≠ [] :=
    List.append_ne_nil_of_right_ne_nil _ (List.cons_ne_nil _ _)
  unfold wasmCfg
  split
  · exact hall _
  · split
    · exact hall _
    · decide

/-- The heuristic finds the section of the first header that speaks of wasm. -/
theorem findSome?_header (content : Text) (p : Text → Bool) {ls : List Text} (hls : ∀ l ∈ ls, l ∈ lines content) :
    (ls.findSome? fun l => if p l then sectionByHeader content (trim l) else none) =
      (ls.find? p).map fun l => unlines (linesUnder content (trim l)) := by
  induction ls with
  | nil => rfl
  | cons l ls ih =>
    -- the header that is found is itself a line, so a section under it is found as well
    cases hp : p l with
    | true =>
      have hmem : trim l ∈ (lines content).map trim := List.mem_map_of_mem (hls l List.mem_cons_self)
      rw [List.findSome?_cons, List.find?_cons_of_pos hp, if_pos hp, sectionByHeader_eq_linesUnder hmem]
      rfl
    | false =>
      have hnot : ¬p l = true := by rw [hp]; exact Bool.false_ne_true
      rw [List.findSome?_cons, List.find?_cons_of_neg hnot, if_neg hnot]
      exact ih fun l' hl' => hls l' (List.mem_cons_of_mem _ hl')

theorem wasmSection_eq (content : Text) :
    wasmSection content = ((wasmHeader content).map fun header => unlines (linesUnder content header)).getD [] := by
  unfold wasmSection wasmHeader
  by_cases husual : usualWasmHeader ∈ (lines content).map trim
  · have hsection := sectionByHeader_eq_linesUnder husual
    unfold usualWasmHeader at hsection
    rw [if_pos husual, hsection]
    rfl
  · have hsection : sectionByHeader content usualWasmHeader = none := by
      apply sectionFrom_eq_none
      intro line hmem htrim
      exact husual (htrim ▸ List.mem_map_of_mem hmem)
    unfold usualWasmHeader at hsection
    rw [if_neg husual, hsection, Option.map_map]
    exact congrArg (Option.getD · []) (findSome?_header content _ fun _ hl => hl)

/-- **The keys of the wasm table are what is listed for wasm.** -/
theorem wasmListing_fst (iter : Iteration) (featuresMap : HashMap Text (List Text)) (content : Text) :
    (wasmListing iter featuresMap content).map Prod.fst = (wasmKeys content).map crateIdent := by
  have hkeys : (parseDepsOrdered (wasmSection content)).map Prod.fst = wasmKeys content := by
    unfold wasmKeys
    rw [wasmSection_eq]
    cases wasmHeader content with
    | none => rfl
    | some header =>
      show (((lines (unlines (linesUnder content header))).filterMap fun l => parseDep (trim l)).map Prod.fst) = _
      rw [← Function.comp_def, ← List.filterMap_map,
        map_trim_lines_unlines fun l hl => not_mem_of_mem_linesUnder hl, List.filterMap_map, List.map_filterMap]
      rfl
  unfold wasmListing
  rw [← hkeys, List.map_map, List.map_map]
  rfl

theorem cfg_ne_nil_of_mem_wasmListing {iter : Iteration} {featuresMap : HashMap Text (List Text)} {content : Text}
    {listed : Text × Text} (h : listed ∈ wasmListing iter featuresMap content) : listed.2 ≠ [] := by
  obtain ⟨_, -, rfl⟩ := List.mem_map.mp h
  exact wasmCfg_ne_nil _ _ _

/-! ## The listing as a whole -/

/-- A relation matters only on the members. -/
theorem forall₂_congr_of_mem {α β : Type} {R S : α → β → Prop} {l : List α} {u : List β}
    (h : ∀ a, ∀ b ∈ u, (R a b ↔ S a b)) : List.Forall₂ R l u ↔ List.Forall₂ S l u := by
  induction l generalizing u with
  | nil => rw [List.forall₂_nil_left_iff, List.forall₂_nil_left_iff]
  | cons a l ih =>
    cases u with
    | nil => rw [List.forall₂_nil_right_iff, List.forall₂_nil_right_iff]
    | cons b u =>
      rw [List.forall₂_cons, List.forall₂_cons, h a b List.mem_cons_self,
        ih fun a' b' hb' => h a' b' (List.mem_cons_of_mem _ hb')]

namespace Manifest

section

variable (m : Manifest) (iter : Iteration) (featuresMap : HashMap Text (List Text))

/-- What is listed for wasm under the name of an entry. -/
def repeated : List (Text × Text) :=
  (wasmListing iter featuresMap m.content).filter fun listed => listed.1 ∈ m.crates

theorem repeated_fst :
    (m.repeated iter featuresMap).map Prod.fst = ((wasmKeys m.content).map crateIdent).filter (· ∈ m.crates) := by
  unfold repeated
  rw [← wasmListing_fst iter featuresMap, List.filter_map]
  rfl

theorem repeated_eq_nil_iff :
    m.repeated iter featuresMap = [] ↔ ∀ key ∈ wasmKeys m.content, crateIdent key ∉ m.crates := by
  rw [← List.map_eq_nil_iff (f := Prod.fst), m.repeated_fst, List.filter_eq_nil_iff, List.forall_mem_map]
  simp only [decide_eq_true_eq]

/-- The entries themselves are listed as their crates. -/
theorem filter_mainListing (hplain : m.dependencies.Plain) :
    ((mainListing iter featuresMap m.content).filter fun listed => listed.1 ∈ m.crates) =
      mainListing iter featuresMap m.content := by
  rw [m.mainListing_eq hplain]
  apply List.filter_eq_self.mpr
  intro listed hlisted
  obtain ⟨e, he, rfl⟩ := List.mem_map.mp hlisted
  exact decide_eq_true (List.mem_map_of_mem he)

/-- **If the table is found**, nothing may be repeated, and the entries must have the right `cfg`. -/
theorem forall₂_found_iff (hplain : m.dependencies.Plain)
    (hnames : ∀ name, featuresReferencing iter featuresMap name ≠ [] ↔ m.Names name) :
    List.Forall₂ RightFor m.listed (mainListing iter featuresMap m.content ++ m.repeated iter featuresMap) ↔
      m.Found := by
  have hmain := m.mainListing_eq hplain iter featuresMap
  have hright : List.Forall₂ RightFor m.listed (mainListing iter featuresMap m.content) ↔
      ∀ e ∈ m.listed, e.isOptional = false → ¬m.Names e.name.text ∧ saysOptional e.rhs = false := by
    rw [hmain, List.forall₂_map_right_iff, List.forall₂_same]
    refine forall₂_congr fun e _ => ?_
    rw [← hnames e.name.text, not_not, ← mainCfg_right_iff]
    exact and_iff_right rfl
  constructor
  · intro h
    have hlength := h.length_eq
    rw [List.length_append, hmain, List.length_map] at hlength
    -- the entries alone are as many as are wanted, so none is repeated
    have hnil : m.repeated iter featuresMap = [] := List.eq_nil_of_length_eq_zero (by omega)
    rw [hnil, List.append_nil] at h
    exact ⟨hplain, hright.mp h, (m.repeated_eq_nil_iff iter featuresMap).mp hnil⟩
  · intro h
    rw [(m.repeated_eq_nil_iff iter featuresMap).mpr h.once, List.append_nil]
    exact hright.mpr h.mandatory

/-- **If it is not found**, what is repeated must make up for it. -/
theorem forall₂_replaced_iff (hplain : ¬m.dependencies.Plain) (hsingle : m.dependencies.Single) :
    List.Forall₂ RightFor m.listed (mainListing iter featuresMap m.content ++ m.repeated iter featuresMap) ↔
      m.Replaced := by
  rw [m.mainListing_eq_nil hplain hsingle, List.nil_append]
  have hcfg : List.Forall₂ RightFor m.listed (m.repeated iter featuresMap) ↔
      List.Forall₂ (fun e listed => e.isOptional = true ∧ crateIdent e.name.text = listed.1) m.listed
        (m.repeated iter featuresMap) := by
    apply forall₂_congr_of_mem
    intro e listed hmem
    have hne := cfg_ne_nil_of_mem_wasmListing (List.mem_of_mem_filter hmem)
    unfold RightFor
    rw [iff_false_left hne, Bool.not_eq_false, and_comm, eq_comm (a := listed.1)]
  rw [hcfg, List.forall₂_and_left]
  have hsame : List.Forall₂ (fun e listed => crateIdent e.name.text = listed.1) m.listed (m.repeated iter featuresMap) ↔
      ((wasmKeys m.content).map crateIdent).filter (· ∈ m.crates) = m.crates := by
    have heq : List.Forall₂ ((· = ·) : Text → Text → Prop) = Eq := List.forall₂_eq_eq_eq
    rw [← m.repeated_fst iter featuresMap, eq_comm, ← congrFun (congrFun heq _) _]
    unfold crates
    rw [List.forall₂_map_left_iff, List.forall₂_map_right_iff]
  rw [hsame]
  exact ⟨fun h => ⟨hsingle, hplain, h.1, h.2⟩, fun h => ⟨h.optional, h.same⟩⟩

end

/-- **What is listed**, once the table of features is read. -/
theorem exists_listing (m : Manifest) (iter : Iteration) (hfeatures : m.features.Plain ∨ m.features.Single) :
    ∃ featuresMap, (∀ name, featuresReferencing iter featuresMap name ≠ [] ↔ m.Names name) ∧
      (GatingMatches iter m ↔
        List.Forall₂ RightFor m.listed ((mainListing iter featuresMap m.content ++
          wasmListing iter featuresMap m.content).filter fun listed => listed.1 ∈ m.crates)) := by
  obtain ⟨featuresMap, hmap, hnames⟩ := m.exists_featuresMap hfeatures
  refine ⟨featuresMap, hnames iter, ?_⟩
  unfold GatingMatches fromCargoToml
  rw [hmap]
  constructor
  · rintro ⟨out, hout, hmatch⟩
    obtain rfl := Option.some.inj hout
    exact hmatch
  · intro hmatch
    exact ⟨_, rfl, hmatch⟩

end Manifest

/-- **When the gating matches the manifest**: what it needs is enough, and it is needed unless some line besides
    a header reads like it. -/
theorem gating_matches_iff (iter : Iteration) (m : Manifest) :
    (m.Gated → GatingMatches iter m) ∧
      (m.dependencies.Single → m.features.Single → GatingMatches iter m → m.Gated) := by
  constructor
  · rintro ⟨hfeatures, hgated⟩
    obtain ⟨featuresMap, hnames, hmatches⟩ := m.exists_listing iter hfeatures
    rw [hmatches]
    obtain hnil | hfound | hreplaced := hgated
    · have hcrates : m.crates = [] := List.map_eq_nil_iff.mpr hnil
      rw [hnil, List.forall₂_nil_left_iff, hcrates]
      exact List.filter_eq_nil_iff.mpr fun listed _ => by simp
    · rw [List.filter_append, m.filter_mainListing iter featuresMap hfound.plain]
      exact (m.forall₂_found_iff iter featuresMap hfound.plain hnames).mpr hfound
    · have hnothing := m.mainListing_eq_nil hreplaced.not_plain hreplaced.single iter featuresMap
      have hright := (m.forall₂_replaced_iff iter featuresMap hreplaced.not_plain hreplaced.single).mpr hreplaced
      rw [hnothing, List.nil_append] at hright ⊢
      exact hright
  · intro hsingle hfeatures hgating
    obtain ⟨featuresMap, hnames, hmatches⟩ := m.exists_listing iter (Or.inr hfeatures)
    rw [hmatches] at hgating
    refine ⟨Or.inr hfeatures, Or.inr ?_⟩
    by_cases hplain : m.dependencies.Plain
    · rw [List.filter_append, m.filter_mainListing iter featuresMap hplain] at hgating
      exact Or.inl ((m.forall₂_found_iff iter featuresMap hplain hnames).mp hgating)
    · have hnothing := m.mainListing_eq_nil hplain hsingle iter featuresMap
      have hright := m.forall₂_replaced_iff iter featuresMap hplain hsingle
      rw [hnothing, List.nil_append] at hgating hright
      exact Or.inr (hright.mp hgating)

/-! ## A feature of a mandatory dependency -/

/-- A map is iterated in the order in which its keys were put in last. -/
def lastFirst : Iteration where
  order := fun m => m.entries
  perm := fun m => List.Perm.refl m.entries

def ractorEntry : Entry where
  indent := []
  name := ⟨"ractor".toList, List.cons_ne_nil _ _, List.all_eq_true.mp rfl⟩
  gap := [' ']
  space := [' ']
  value := .other "\"0.15\"".toList rfl
  rest := []
  hindent := by decide
  hgap := by decide
  hspace := by decide
  hrest := rfl

def clusterFeature : Feature where
  indent := []
  key := ⟨"ractor_cluster".toList, List.cons_ne_nil _ _, List.all_eq_true.mp rfl⟩
  gap := [' ']
  space := [' ']
  inside := "\"ractor/cluster\"".toList
  rest := []
  hindent := by decide
  hgap := by decide
  hspace := by decide

/-- A feature switches on a feature of a dependency that is always there. -/
def ractorManifest : Manifest where
  content := "[dependencies]\nractor = \"0.15\"\n\n[features]\nractor_cluster = [\"ractor/cluster\"]\n".toList
  dependencies :=
    { before := []
      header := some "[dependencies]".toList
      body := [.entry ractorEntry, .ignored [] rfl]
      after := ["[features]".toList, "ractor_cluster = [\"ractor/cluster\"]".toList]
      hlines := by decide +kernel
      habsent := nofun
      hopens := by
        rintro _ ⟨⟩
        exact ⟨[], "dependencies".toList, [], by decide, by decide, rfl⟩
      hafter := by
        rintro _ ⟨⟩
        rfl }
  features :=
    { before := ["[dependencies]".toList, "ractor = \"0.15\"".toList, []]
      header := some "[features]".toList
      body := [.entry clusterFeature]
      after := []
      hlines := by decide +kernel
      habsent := nofun
      hopens := by
        rintro _ ⟨⟩
        exact ⟨[], "features".toList, [], by decide, by decide, rfl⟩
      hafter := nofun }
  hkeys := by decide +kernel

theorem fromCargoToml_ractor :
    fromCargoToml lastFirst ractorManifest.content =
      some [("ractor".toList, "feature = \"ractor_cluster\"".toList)] := by
  decide +kernel

/-- **A mandatory dependency is gated** by the feature that only switches on one of its features. -/
theorem mandatory_gated : ¬GatingMatches lastFirst ractorManifest := by
  rintro ⟨out, hresult, hmatch⟩
  rw [fromCargoToml_ractor] at hresult
  obtain rfl := Option.some.inj hresult
  have hlisted : ractorManifest.listed = [ractorEntry] := rfl
  have hout : ([("ractor".toList, "feature = \"ractor_cluster\"".toList)].filter fun listed =>
      listed.1 ∈ ractorManifest.crates) = [("ractor".toList, "feature = \"ractor_cluster\"".toList)] := by
    decide +kernel
  rw [hlisted, hout] at hmatch
  have hempty := (List.forall₂_cons.mp hmatch).1.2.mpr rfl
  cases hempty

end GenerateDeps
end Derive
end Wormhole
