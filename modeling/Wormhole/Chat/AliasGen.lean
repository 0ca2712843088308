import Mathlib.Algebra.Group.Nat.Defs
import Mathlib.Data.List.Nodup
import Wormhole.Codec.Platform
import Wormhole.Lib.Text

/-!
# `Chat.AliasGen` — the aliases of the chat server

`chat_app/server/src/alias_gen.rs`. The generator walks through the pairs of an adjective and a noun: along a
diagonal, and then along the next one. In this way it comes to every pair once before it repeats itself
(`aliases_cover`), until its counter comes to the end of `usize`.

Assumed of rand: `shuffle` permutes. `char::to_uppercase` is `Char.toUpper` on the letters that the words begin
with. The server is built for 64-bit targets and for wasm32, with and without overflow checks: a generator has
the `Platform` that it runs on.
-/

namespace Wormhole
namespace Chat

open Codec (Platform)

/-! ## The generator -/

/-- `AliasGenerator::ARRAY_LEN`. -/
def arrayLen : Nat := 30

/-- `AliasGenerator::ADJECTIVES`. -/
def adjectiveWords : List String :=
  ["smirking", "corrupted", "vengeful", "iron", "grim", "bloody", "warp-touched", "eternal", "skulking", "ancient",
   "dark", "chaotic", "gilded", "forgotten", "zealous", "stalwart", "unseen", "feral", "stoic", "mechanized",
   "blessed", "cursed", "frenzied", "implacable", "ruinous", "scarred", "undying", "blighted", "relentless",
   "shrieking"]

/-- `AliasGenerator::NOUNS`. -/
def nounWords : List String :=
  ["gutterrunner", "berserker", "arbiter", "inquisitor", "crusader", "guardian", "dreadnought", "reaper",
   "warbringer", "mechanicus", "prophet", "skaven", "paladin", "heretic", "cultist", "specter", "slayer",
   "executioner", "scribe", "marauder", "warpsmith", "ratcatcher", "plague-bearer", "voidwalker", "magus",
   "commissar", "avatar", "stormcaller", "enforcer", "nightstalker"]

/-- A generator, whose lists are the words in some order. -/
structure AliasGenerator where
  platform : Platform
  adjectives : List String
  nouns : List String
  generatedCount : Nat
  adjectives_perm : adjectives.Perm adjectiveWords
  nouns_perm : nouns.Perm nounWords

namespace AliasGenerator

/-- `AliasGenerator::new`, with what `shuffle` has made of the lists. -/
def new (platform : Platform) (adjectives nouns : List String) (hadjectives : adjectives.Perm adjectiveWords)
    (hnouns : nouns.Perm nounWords) : AliasGenerator :=
  { platform, adjectives, nouns, generatedCount := 0, adjectives_perm := hadjectives, nouns_perm := hnouns }

@[simp] theorem length_adjectives (g : AliasGenerator) : g.adjectives.length = arrayLen := g.adjectives_perm.length_eq
@[simp] theorem length_nouns (g : AliasGenerator) : g.nouns.length = arrayLen := g.nouns_perm.length_eq

/-- An index is within both lists. -/
theorem mod_arrayLen_lt (i : Nat) : i % arrayLen < arrayLen := Nat.mod_lt i (by decide)

/-- `a + b` on `usize`; `none` is the panic of a build with overflow checks. -/
def add (p : Platform) (a b : Nat) : Option Nat :=
  match p.usizeAdd a b with
  | .ok sum => some sum
  | _ => none

theorem add_eq_some {p : Platform} {a b sum : Nat} (h : add p a b = some sum) : sum = (a + b) % p.usizeSize := by
  unfold add Platform.usizeAdd at h
  by_cases hlt : a + b < p.usizeSize
  · rw [if_pos hlt] at h
    rw [Nat.mod_eq_of_lt hlt]
    exact (Option.some.inj h).symm
  · rw [if_neg hlt] at h
    cases hchecks : p.overflowChecks with
    | true =>
      rw [hchecks] at h
      cases h
    | false =>
      rw [hchecks] at h
      exact (Option.some.inj h).symm

theorem add_of_lt {p : Platform} {a b : Nat} (h : a + b < p.usizeSize) : add p a b = some ((a + b) % p.usizeSize) := by
  unfold add
  rw [Platform.usizeAdd_of_lt h, Nat.mod_eq_of_lt h]

/-- `AliasGenerator::get_pair`. -/
def getPair (g : AliasGenerator) : Option ((String × String) × AliasGenerator) := do
  let offset := g.generatedCount / arrayLen
  let adjectiveIndex := g.generatedCount % arrayLen
  let sum ← add g.platform g.generatedCount offset
  let nounIndex := sum % arrayLen
  have hadjective : adjectiveIndex < g.adjectives.length := by
    rw [length_adjectives]
    exact mod_arrayLen_lt _
  have hnoun : nounIndex < g.nouns.length := by
    rw [length_nouns]
    exact mod_arrayLen_lt _
  let generatedCount ← add g.platform g.generatedCount 1
  return ((g.adjectives[adjectiveIndex], g.nouns[nounIndex]), { g with generatedCount })

/-- `AliasGenerator::capitalize_first_letter`; `none` is the panic of an empty word. -/
def capitalizeFirstLetter (word : String) : Option String :=
  match word.toList with
  | [] => none
  | first :: rest => some (String.ofList (first.toUpper :: rest))

/-- `AliasGenerator::generate_capitalized`. -/
def generateCapitalized (g : AliasGenerator) : Option (String × AliasGenerator) := do
  let ((adjective, noun), g') ← g.getPair
  let adjective ← capitalizeFirstLetter adjective
  let noun ← capitalizeFirstLetter noun
  return (adjective ++ " " ++ noun, g')

/-- The first aliases, one after the other. -/
def generateAll : Nat → AliasGenerator → Option (List String × AliasGenerator)
  | 0, g => some ([], g)
  | n + 1, g => do
    let (userAlias, g') ← g.generateCapitalized
    let (aliases, g'') ← generateAll n g'
    return (userAlias :: aliases, g'')

end AliasGenerator

/-! ## The words -/

open AliasGenerator

/-- Capital letters do not make two of the words one, and no word has a space. -/
structure Wordlist (words : List String) : Prop where
  length : words.length = arrayLen
  capital : ∀ word ∈ words, (capitalizeFirstLetter word).isSome = true
  nodup : (words.map capitalizeFirstLetter).Nodup
  single : ∀ word ∈ words, ∀ c ∈ capitalizeFirstLetter word, ' ' ∉ c.toList

theorem adjectiveWords_wordlist : Wordlist adjectiveWords where
  length := by decide
  capital := by decide +kernel
  nodup := by decide +kernel
  single := by decide +kernel

theorem nounWords_wordlist : Wordlist nounWords where
  length := by decide
  capital := by decide +kernel
  nodup := by decide +kernel
  single := by decide +kernel

theorem Wordlist.of_perm {words words' : List String} (h : Wordlist words) (hperm : words'.Perm words) : Wordlist words' where
  length := hperm.length_eq.trans h.length
  capital word hword := h.capital word (hperm.mem_iff.mp hword)
  nodup := (hperm.map capitalizeFirstLetter).nodup_iff.mpr h.nodup
  single word hword := h.single word (hperm.mem_iff.mp hword)

/-- The word at an index, with a capital letter. -/
def capitalAt (words : List String) (k : Nat) : String := (words[k]?.bind capitalizeFirstLetter).getD ""

section

variable {words : List String} {k k' : Nat}

theorem Wordlist.capitalize_getElem (h : Wordlist words) (hk : k < words.length) :
    capitalizeFirstLetter words[k] = some (capitalAt words k) := by
  obtain ⟨c, hc⟩ := Option.isSome_iff_exists.mp (h.capital _ (List.getElem_mem hk))
  rw [capitalAt, List.getElem?_eq_getElem hk, Option.bind_some, hc, Option.getD_some]

theorem Wordlist.capitalAt_inj (h : Wordlist words) (hk : k < arrayLen) (hk' : k' < arrayLen) :
    capitalAt words k = capitalAt words k' ↔ k = k' := by
  rw [← h.length] at hk hk'
  have hindex : k < (words.map capitalizeFirstLetter).length := by rwa [List.length_map]
  have hindex' : k' < (words.map capitalizeFirstLetter).length := by rwa [List.length_map]
  have hinj : (words.map capitalizeFirstLetter)[k] = (words.map capitalizeFirstLetter)[k'] ↔ k = k' :=
    List.Nodup.getElem_inj_iff h.nodup
  rw [← hinj, List.getElem_map, List.getElem_map, h.capitalize_getElem hk, h.capitalize_getElem hk', Option.some.injEq]

theorem Wordlist.space_not_mem (h : Wordlist words) (hk : k < arrayLen) : ' ' ∉ (capitalAt words k).toList := by
  rw [← h.length] at hk
  exact h.single _ (List.getElem_mem hk) _ (h.capitalize_getElem hk)

end

/-- Two words and the space between them can be told apart. -/
theorem append_space_inj {a a' b b' : String} (ha : ' ' ∉ a.toList) (ha' : ' ' ∉ a'.toList) :
    a ++ " " ++ b = a' ++ " " ++ b' ↔ a = a' ∧ b = b' := by
  have hlist (a b : String) : (a ++ " " ++ b).toList = a.toList ++ ' ' :: b.toList := by
    rw [String.toList_append, String.toList_append, List.append_assoc]
    rfl
  constructor
  · intro heq
    have hchars := congrArg String.toList heq
    rw [hlist, hlist] at hchars
    -- the first word ends where the first space is
    have hsplit := congrArg (Text.splitOnce ' ') hchars
    rw [Text.splitOnce_append ha, Text.splitOnce_append ha'] at hsplit
    obtain ⟨hfirst, hsecond⟩ := Prod.mk.inj (Option.some.inj hsplit)
    exact ⟨String.toList_inj.mp hfirst, String.toList_inj.mp hsecond⟩
  · rintro ⟨rfl, rfl⟩
    rfl

/-! ## The way through the pairs -/

/-- The noun that goes with the adjective of the `i`-th pair. -/
def nounIndex (p : Platform) (i : Nat) : Nat := (i + i / arrayLen) % p.usizeSize % arrayLen

section

variable {p : Platform}

/-- The first half of `usize` is safe. -/
theorem index_lt {i : Nat} (hi : i ≤ p.isizeMax) : i + i / arrayLen < p.usizeSize ∧ i + 1 < p.usizeSize := by
  have hsize := p.usizeSize_eq
  have hmax := p.isizeMax_add_lt
  have hle := Nat.div_le_self i arrayLen
  omega

theorem lt_isizeMax {i : Nat} (hi : i < 900) : i ≤ p.isizeMax := by
  have hmax : 2 ^ 15 ≤ p.isizeMax + 1 := by
    have hpow : 2 ^ 15 ≤ 2 ^ (p.bits - 1) :=
      Nat.pow_le_pow_right (by decide) (Nat.le_sub_one_of_lt (Nat.lt_of_lt_of_le (by decide) p.sixteen_le))
    unfold Platform.isizeMax
    omega
  omega

/-- The noun moves on by one with each round through the adjectives. -/
theorem nounIndex_eq {i : Nat} (hi : i ≤ p.isizeMax) :
    nounIndex p i = (i % arrayLen + i / arrayLen % arrayLen) % arrayLen := by
  rw [nounIndex, Nat.mod_eq_of_lt (index_lt hi).1, Nat.add_mod]

/-- Two pairs are the same exactly when they are a multiple of 900 apart. -/
theorem pair_inj {i j : Nat} (hi : i ≤ p.isizeMax) (hj : j ≤ p.isizeMax) :
    i % arrayLen = j % arrayLen ∧ nounIndex p i = nounIndex p j ↔ i % 900 = j % 900 := by
  have hsplit (k : Nat) : k % 900 = 30 * (k / 30 % 30) + k % 30 := by omega
  have hround (k : Nat) : k / 30 % 30 < 30 := Nat.mod_lt _ (by decide)
  have hcolumn (k : Nat) : k % 30 < 30 := Nat.mod_lt _ (by decide)
  have hi' := hround i
  have hj' := hround j
  have hi'' := hcolumn i
  have hj'' := hcolumn j
  rw [nounIndex_eq hi, nounIndex_eq hj, hsplit i, hsplit j, arrayLen]
  generalize i / 30 % 30 = q at *
  generalize j / 30 % 30 = q' at *
  omega

/-- Every pair is the one of some index below 900. -/
theorem pair_surj {a b : Nat} (ha : a < arrayLen) (hb : b < arrayLen) :
    ∃ i < 900, i % arrayLen = a ∧ nounIndex p i = b := by
  have ha : a < 30 := ha
  have hb : b < 30 := hb
  -- the column is the adjective, and each round shifts the nouns by one against it
  obtain ⟨q, hq, hqb⟩ : ∃ q < 30, (a + q) % 30 = b := ⟨(b + 30 - a) % 30, by omega, by omega⟩
  have hcolumn : (30 * q + a) % 30 = a := by omega
  have hround : (30 * q + a) / 30 % 30 = q := by omega
  have hlt : 30 * q + a < 900 := by omega
  refine ⟨30 * q + a, hlt, hcolumn, ?_⟩
  rw [nounIndex_eq (lt_isizeMax hlt), arrayLen, hcolumn, hround, hqb]

end

namespace AliasGenerator

/-- The alias that the generator makes when it has made `i`. -/
def aliasAt (g : AliasGenerator) (i : Nat) : String :=
  capitalAt g.adjectives (i % arrayLen) ++ " " ++ capitalAt g.nouns (nounIndex g.platform i)

variable (g : AliasGenerator)

theorem adjectives_wordlist : Wordlist g.adjectives := adjectiveWords_wordlist.of_perm g.adjectives_perm
theorem nouns_wordlist : Wordlist g.nouns := nounWords_wordlist.of_perm g.nouns_perm

/-- What `get_pair` returns, capitalized. -/
theorem generateCapitalized_of_add {sum count : Nat}
    (hsum : add g.platform g.generatedCount (g.generatedCount / arrayLen) = some sum)
    (hcount : add g.platform g.generatedCount 1 = some count) :
    g.generateCapitalized =
      some (g.aliasAt g.generatedCount, { g with generatedCount := (g.generatedCount + 1) % g.platform.usizeSize }) := by
  obtain rfl := add_eq_some hsum
  obtain rfl := add_eq_some hcount
  simp only [generateCapitalized, getPair, hsum, hcount, g.adjectives_wordlist.capitalize_getElem,
    g.nouns_wordlist.capitalize_getElem, Option.bind_eq_bind, Option.bind_some, Option.pure_def, aliasAt, nounIndex]

/-- **A generator does not panic** while its counter is in the first half of `usize`. -/
theorem generateCapitalized_eq (h : g.generatedCount ≤ g.platform.isizeMax) :
    g.generateCapitalized =
      some (g.aliasAt g.generatedCount, { g with generatedCount := (g.generatedCount + 1) % g.platform.usizeSize }) :=
  g.generateCapitalized_of_add (add_of_lt (index_lt h).1) (add_of_lt (index_lt h).2)

/-- **What it makes**, if it does not panic. -/
theorem generateCapitalized_eq_some {userAlias : String} {g' : AliasGenerator}
    (h : g.generateCapitalized = some (userAlias, g')) :
    userAlias = g.aliasAt g.generatedCount ∧
      g' = { g with generatedCount := (g.generatedCount + 1) % g.platform.usizeSize } := by
  cases hsum : add g.platform g.generatedCount (g.generatedCount / arrayLen) with
  | none =>
    simp only [generateCapitalized, getPair, hsum, Option.bind_eq_bind, Option.bind_none, reduceCtorEq] at h
  | some sum =>
    cases hcount : add g.platform g.generatedCount 1 with
    | none =>
      simp only [generateCapitalized, getPair, hsum, hcount, Option.bind_eq_bind, Option.bind_some, Option.bind_none,
        reduceCtorEq] at h
    | some count =>
      rw [g.generateCapitalized_of_add hsum hcount] at h
      obtain ⟨rfl, rfl⟩ := Prod.mk.inj (Option.some.inj h)
      exact ⟨rfl, rfl⟩

theorem aliasAt_inj {i j : Nat} (hi : i ≤ g.platform.isizeMax) (hj : j ≤ g.platform.isizeMax) :
    g.aliasAt i = g.aliasAt j ↔ i % 900 = j % 900 := by
  have hadjectives := g.adjectives_wordlist
  have hlt (k : Nat) : nounIndex g.platform k < arrayLen := mod_arrayLen_lt _
  rw [aliasAt, aliasAt, append_space_inj (hadjectives.space_not_mem (mod_arrayLen_lt i))
    (hadjectives.space_not_mem (mod_arrayLen_lt j)), hadjectives.capitalAt_inj (mod_arrayLen_lt i) (mod_arrayLen_lt j),
    g.nouns_wordlist.capitalAt_inj (hlt i) (hlt j), pair_inj hi hj]

/-- **A run of the generator.** -/
theorem generateAll_eq (n : Nat) (hn : g.generatedCount + n ≤ g.platform.isizeMax + 1) : generateAll n g =
    some ((List.range' g.generatedCount n).map g.aliasAt, { g with generatedCount := g.generatedCount + n }) := by
  induction n generalizing g with
  | zero => rfl
  | succ n ih =>
    have hhere : g.generatedCount ≤ g.platform.isizeMax := by omega
    -- in the first half of `usize` the counter does not wrap
    have hnext : (g.generatedCount + 1) % g.platform.usizeSize = g.generatedCount + 1 :=
      Nat.mod_eq_of_lt (index_lt hhere).2
    have hrest := ih { g with generatedCount := g.generatedCount + 1 }
      (by show g.generatedCount + 1 + n ≤ g.platform.isizeMax + 1; omega)
    rw [generateAll, g.generateCapitalized_eq hhere, hnext]
    simp only [Option.bind_eq_bind, Option.bind_some, hrest, Option.pure_def, List.range'_succ, List.map_cons]
    rw [Nat.add_assoc, Nat.add_comm 1 n]
    rfl

end AliasGenerator

/-! ## What the aliases are -/

/-- An adjective and a noun, both with a capital letter. -/
def IsAlias (userAlias : String) : Prop :=
  ∃ adjective ∈ adjectiveWords, ∃ noun ∈ nounWords, ∃ first second, capitalizeFirstLetter adjective = some first ∧
    capitalizeFirstLetter noun = some second ∧ userAlias = first ++ " " ++ second

/-- A word with a capital letter is that of some index. -/
theorem Wordlist.exists_capitalAt {words : List String} (h : Wordlist words) {word capital : String} (hword : word ∈ words)
    (hcapital : capitalizeFirstLetter word = some capital) : ∃ k < arrayLen, capitalAt words k = capital := by
  obtain ⟨k, hk, rfl⟩ := List.getElem_of_mem hword
  refine ⟨k, h.length ▸ hk, Option.some.inj ?_⟩
  rw [← h.capitalize_getElem hk, hcapital]

namespace AliasGenerator

variable (g : AliasGenerator)

theorem isAlias_aliasAt (i : Nat) : IsAlias (g.aliasAt i) := by
  have hadjective : i % arrayLen < g.adjectives.length := by
    rw [length_adjectives]
    exact mod_arrayLen_lt i
  have hnoun : nounIndex g.platform i < g.nouns.length := by
    rw [length_nouns]
    exact mod_arrayLen_lt _
  exact ⟨_, g.adjectives_perm.mem_iff.mp (List.getElem_mem hadjective), _, g.nouns_perm.mem_iff.mp (List.getElem_mem hnoun),
    _, _, g.adjectives_wordlist.capitalize_getElem hadjective, g.nouns_wordlist.capitalize_getElem hnoun, rfl⟩

theorem exists_aliasAt {userAlias : String} (h : IsAlias userAlias) : ∃ i < 900, g.aliasAt i = userAlias := by
  obtain ⟨adjective, hadjective, noun, hnoun, first, second, hfirst, hsecond, rfl⟩ := h
  obtain ⟨a, ha, rfl⟩ := g.adjectives_wordlist.exists_capitalAt (g.adjectives_perm.mem_iff.mpr hadjective) hfirst
  obtain ⟨b, hb, rfl⟩ := g.nouns_wordlist.exists_capitalAt (g.nouns_perm.mem_iff.mpr hnoun) hsecond
  obtain ⟨i, hi, rfl, rfl⟩ := pair_surj (p := g.platform) ha hb
  exact ⟨i, hi, rfl⟩

end AliasGenerator

/-- **The generator goes through all aliases before it repeats itself.** Whatever `shuffle` has made of the lists, on
    any target and in any build, it does not panic at the first `2 ^ (w - 1)` aliases, for a `usize` of `w` bits. What
    it makes is an adjective and a noun with capital letters; two of these aliases are the same exactly when they are
    a multiple of 900 apart; and the first 900 are all that there are. -/
theorem aliases_cover (platform : Platform) (adjectives nouns : List String)
    (hadjectives : adjectives.Perm adjectiveWords) (hnouns : nouns.Perm nounWords) (n : Nat)
    (hn : n ≤ 2 ^ (platform.bits - 1)) :
    ∃ aliases g, generateAll n (new platform adjectives nouns hadjectives hnouns) = some (aliases, g) ∧
      aliases.length = n ∧
      (∀ i j first second, aliases[i]? = some first → aliases[j]? = some second →
        (first = second ↔ i % 900 = j % 900)) ∧
      (∀ userAlias ∈ aliases, IsAlias userAlias) ∧ (900 ≤ n → ∀ userAlias, IsAlias userAlias → userAlias ∈ aliases) := by
  let g := new platform adjectives nouns hadjectives hnouns
  have hhalf : n ≤ platform.isizeMax + 1 := by
    unfold Platform.isizeMax
    omega
  have hrun := g.generateAll_eq n (by show 0 + n ≤ platform.isizeMax + 1; omega)
  have hindex (i : Nat) (userAlias : String) (h : ((List.range' 0 n).map g.aliasAt)[i]? = some userAlias) :
      i < n ∧ g.aliasAt i = userAlias := by
    rw [List.getElem?_map] at h
    obtain ⟨k, hk, rfl⟩ := Option.map_eq_some_iff.mp h
    obtain ⟨hi, rfl⟩ := List.getElem?_eq_some_iff.mp hk
    rw [List.length_range'] at hi
    simp [hi]
  refine ⟨_, _, hrun, by simp, fun i j first second hfirst hsecond => ?_, fun userAlias hmem => ?_, fun hall userAlias h => ?_⟩
  · obtain ⟨hi, rfl⟩ := hindex i first hfirst
    obtain ⟨hj, rfl⟩ := hindex j second hsecond
    exact g.aliasAt_inj (by show i ≤ platform.isizeMax; omega) (by show j ≤ platform.isizeMax; omega)
  · obtain ⟨i, -, rfl⟩ := List.mem_map.mp hmem
    exact g.isAlias_aliasAt i
  · obtain ⟨i, hi, rfl⟩ := g.exists_aliasAt h
    exact List.mem_map_of_mem (List.mem_range'_1.mpr ⟨Nat.zero_le i, by show i < 0 + n; omega⟩)

/-- The target of `wasmer_server`, in a build with overflow checks. -/
def wasm32 : Platform :=
  .thirtyTwo true

theorem aliases_cover_unshuffled : ∃ aliases g,
    generateAll 1000 (new wasm32 adjectiveWords nounWords (.refl _) (.refl _)) = some (aliases, g) ∧
    aliases.length = 1000 ∧
    (∀ i j first second, aliases[i]? = some first → aliases[j]? = some second → (first = second ↔ i % 900 = j % 900)) ∧
    "Grim Mechanicus" ∈ aliases := by
  obtain ⟨aliases, g, hrun, hlength, hdistinct, -, hall⟩ :=
    aliases_cover wasm32 adjectiveWords nounWords (.refl _) (.refl _) 1000 (by decide)
  refine ⟨aliases, g, hrun, hlength, hdistinct, hall (by decide) _ ?_⟩
  exact ⟨"grim", by decide, "mechanicus", by decide, "Grim", "Mechanicus", by decide +kernel, by decide +kernel, by decide +kernel⟩

end Chat
end Wormhole
