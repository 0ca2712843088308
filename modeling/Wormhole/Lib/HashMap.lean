import Mathlib.Data.List.AList

/-!
# `Lib.HashMap` — finite maps, looked up by key or by value

Association lists with distinct keys (`AList`) at a constant type of values. `findKey?` is the search of
`map.iter().find(|(_, v)| …)`; which entry it finds is only determined when one value at most has the
property, and `findKey?_eq_some` promises no more than that.
-/

universe u v

/-- A finite map from `κ` to `ν`. -/
abbrev HashMap (κ : Type u) (ν : Type v) : Type (max u v) := AList fun _ : κ => ν

namespace HashMap

variable {κ : Type u} {ν : Type v} [DecidableEq κ]

/-- The key of some entry whose value satisfies `p`. -/
def findKey? (m : HashMap κ ν) (p : ν → Bool) : Option κ :=
  (m.entries.find? fun entry => p entry.2).map Sigma.fst

theorem mem_entries_iff {m : HashMap κ ν} {k : κ} {w : ν} :
    (⟨k, w⟩ : Sigma fun _ : κ => ν) ∈ m.entries ↔ m.lookup k = some w :=
  AList.mem_lookup_iff.symm

theorem findKey?_eq_some {m : HashMap κ ν} {p : ν → Bool} {k : κ} (h : m.findKey? p = some k) :
    ∃ w, m.lookup k = some w ∧ p w = true := by
  obtain ⟨⟨k', w⟩, hfind, hk⟩ := Option.map_eq_some_iff.mp h
  obtain rfl : k' = k := hk
  obtain ⟨hp, -⟩ := List.find?_eq_some_iff_append.mp hfind
  exact ⟨w, mem_entries_iff.mp (List.mem_of_find?_eq_some hfind), hp⟩

theorem findKey?_eq_none {m : HashMap κ ν} {p : ν → Bool} :
    m.findKey? p = none ↔ ∀ k w, m.lookup k = some w → p w = false := by
  rw [findKey?, Option.map_eq_none_iff, List.find?_eq_none]
  constructor
  · intro h k w hlook
    simpa using h ⟨k, w⟩ (mem_entries_iff.mpr hlook)
  · rintro h ⟨k, w⟩ hmem
    simpa using h k w (mem_entries_iff.mp hmem)

/-- A value that occurs is found. -/
theorem findKey?_isSome {m : HashMap κ ν} {p : ν → Bool} {k : κ} {w : ν} (hlook : m.lookup k = some w)
    (hp : p w = true) : ∃ k', m.findKey? p = some k' := by
  cases hfind : m.findKey? p with
  | some k' => exact ⟨k', rfl⟩
  | none =>
    have := findKey?_eq_none.mp hfind k w hlook
    rw [hp] at this
    cases this

theorem lookup_insert_eq (m : HashMap κ ν) (k k' : κ) (w : ν) :
    (m.insert k w).lookup k' = if k' = k then some w else m.lookup k' := by
  by_cases h : k' = k
  · rw [if_pos h, h, AList.lookup_insert]
  · rw [if_neg h, AList.lookup_insert_ne h]

theorem lookup_erase_eq (m : HashMap κ ν) (k k' : κ) :
    (m.erase k).lookup k' = if k' = k then none else m.lookup k' := by
  by_cases h : k' = k
  · rw [if_pos h, h, AList.lookup_erase]
  · rw [if_neg h, AList.lookup_erase_ne h]

/-- What is in a map after entries with distinct keys were put in, one after the other. -/
theorem lookup_foldl_insert {ι : Type*} {key : ι → κ} {value : ι → ν} {l : List ι} (hnodup : (l.map key).Nodup)
    {m : HashMap κ ν} {k : κ} {w : ν} :
    (l.foldl (fun m i => m.insert (key i) (value i)) m).lookup k = some w ↔
      (∃ i ∈ l, key i = k ∧ value i = w) ∨ (k ∉ l.map key ∧ m.lookup k = some w) := by
  induction l generalizing m with
  | nil => simp
  | cons i l ih =>
    rw [List.map_cons, List.nodup_cons] at hnodup
    rw [List.foldl_cons, ih hnodup.2, lookup_insert_eq]
    by_cases hk : k = key i
    · subst hk
      have hlater (i' : ι) (hmem : i' ∈ l) : key i' ≠ key i :=
        fun heq => hnodup.1 (List.mem_map.mpr ⟨i', hmem, heq⟩)
      simp only [if_true, Option.some.injEq, List.map_cons, List.mem_cons, exists_eq_or_imp]
      constructor
      · rintro (⟨i', hmem, heq, -⟩ | ⟨-, rfl⟩)
        · exact absurd heq (hlater i' hmem)
        · exact Or.inl (Or.inl ⟨trivial, rfl⟩)
      · rintro ((⟨-, rfl⟩ | ⟨i', hmem, heq, -⟩) | ⟨hnot, -⟩)
        · exact Or.inr ⟨hnodup.1, rfl⟩
        · exact absurd heq (hlater i' hmem)
        · exact absurd (Or.inl trivial) hnot
    · simp only [List.map_cons, List.mem_cons, exists_eq_or_imp, Ne.symm hk, hk, false_and, false_or, if_false]

/-! ## Maps in which no value occurs twice -/

/-- The values of a map. -/
def values (m : HashMap κ ν) : List ν := m.entries.map Sigma.snd

theorem mem_values_iff {m : HashMap κ ν} {w : ν} : w ∈ m.values ↔ ∃ k, m.lookup k = some w := by
  constructor
  · intro h
    obtain ⟨⟨k, w'⟩, hmem, rfl⟩ := List.mem_map.mp h
    exact ⟨k, mem_entries_iff.mp hmem⟩
  · rintro ⟨k, hk⟩
    exact List.mem_map.mpr ⟨⟨k, w⟩, mem_entries_iff.mpr hk, rfl⟩

/-- A value that is put in under a key may replace another. -/
theorem count_values_insert [DecidableEq ν] (m : HashMap κ ν) (k : κ) (w w' : ν) :
    (values (m.insert k w)).count w' ≤ m.values.count w' + [w].count w' := by
  rw [values, AList.entries_insert, List.map_cons, ← List.singleton_append, List.count_append, Nat.add_comm]
  exact Nat.add_le_add_right (((List.kerase_sublist k m.entries).map Sigma.snd).count_le w') _

theorem count_values_erase [DecidableEq ν] {m : HashMap κ ν} {k : κ} {w : ν} (h : m.lookup k = some w) (w' : ν) :
    (values (m.erase k)).count w' + [w].count w' = m.values.count w' := by
  have hkey : k ∈ m.entries.keys := List.mem_keys.mpr ⟨w, mem_entries_iff.mpr h⟩
  obtain ⟨w'', front, back, -, hentries, herase⟩ := List.exists_of_kerase hkey
  obtain rfl : w'' = w := by
    have hmem : (⟨k, w''⟩ : Sigma fun _ : κ => ν) ∈ m.entries := by rw [hentries]; simp
    rw [mem_entries_iff, h] at hmem
    exact (Option.some.inj hmem).symm
  show ((m.entries.kerase k).map Sigma.snd).count w' + _ = (m.entries.map Sigma.snd).count w'
  rw [herase, hentries, List.map_append, List.map_append, List.map_cons]
  simp only [List.count_append, List.count_cons, List.count_nil]
  omega

theorem nodup_values {m : HashMap κ ν} (h : ∀ k k' w, m.lookup k = some w → m.lookup k' = some w → k = k') :
    m.values.Nodup := by
  apply List.Nodup.map_on ?_ m.nodupKeys.nodup
  rintro ⟨k, w⟩ hk ⟨k', w'⟩ hk' hw
  obtain rfl : w = w' := hw
  obtain rfl := h k k' w (mem_entries_iff.mp hk) (mem_entries_iff.mp hk')
  rfl

/-- A map that keeps the entries of another and has new values besides is larger by their number. -/
theorem length_add_le {m m' : HashMap κ ν} {ws : List ν}
    (hdistinct : ∀ k k' w, m.lookup k = some w → m.lookup k' = some w → k = k')
    (hkeep : ∀ k w, m.lookup k = some w → m'.lookup k = some w) (hnodup : ws.Nodup)
    (hold : ∀ w ∈ ws, ∀ k, m.lookup k ≠ some w) (hnew : ∀ w ∈ ws, ∃ k, m'.lookup k = some w) :
    m.entries.length + ws.length ≤ m'.entries.length := by
  have happend : (m.values ++ ws).Nodup := by
    refine List.nodup_append.mpr ⟨nodup_values hdistinct, hnodup, ?_⟩
    rintro w hw _ hw' rfl
    obtain ⟨k, hk⟩ := mem_values_iff.mp hw
    exact hold w hw' k hk
  have hsub : m.values ++ ws ⊆ m'.values := by
    intro w hw
    apply mem_values_iff.mpr
    obtain hw | hw := List.mem_append.mp hw
    · obtain ⟨k, hk⟩ := mem_values_iff.mp hw
      exact ⟨k, hkeep k w hk⟩
    · exact hnew w hw
  have hlength := (List.subperm_of_subset happend hsub).length_le
  rwa [List.length_append, values, values, List.length_map, List.length_map] at hlength

end HashMap
