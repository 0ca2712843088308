import Wormhole.Lib.HashMap
import Wormhole.Lib.Text

/-!
# `Derive.GenerateDeps` — `from_cargo_toml`

`derive_generate_deps.rs` reads a `Cargo.toml` line by line and lists the crates that are to be re-exported,
each with a `cfg` expression (none, if that is empty). Texts are lists of characters. A slice that Rust would
panic at is `none`.

The order in which a `HashMap` is iterated is not determined: it is an argument, `Iteration`.
-/

namespace Wormhole
namespace Derive
namespace GenerateDeps

open Text

/-- An order of the entries of a map. -/
structure Iteration where
  order : HashMap Text (List Text) → List (Sigma fun _ : Text => List Text)
  perm : ∀ m, (order m).Perm m.entries

/-! ## Sections -/

def startsWith (s : Text) (c : Char) : Bool := s.head? = some c

/-- The lines after a header, up to the next line that begins with a bracket. -/
def collect (ls : List Text) : Text := unlines (ls.takeWhile fun l => !startsWith (trim l) '[')

def sectionFrom (headerExact : Text) : List Text → Option Text
  | [] => none
  | line :: rest => if trim line = headerExact then some (collect rest) else sectionFrom headerExact rest

/-- `section_by_header`. -/
def sectionByHeader (content headerExact : Text) : Option Text := sectionFrom headerExact (lines content)

/-! ## Dependencies and features -/

/-- Lines that say nothing. -/
def isIgnored (line : Text) : Bool := line = [] || startsWith line '#'

/-- What `parse_deps_ordered` makes of a trimmed line. -/
def parseDep (line : Text) : Option (Text × Text) :=
  if isIgnored line then none
  else
    (splitOnce '=' line).bind fun (before, rhs) =>
      let namePart := trim before
      if startsWith namePart '[' || startsWith namePart '"' then none else some (namePart, rhs)

def parseDepsOrdered (sec : Text) : List (Text × Text) := (lines sec).filterMap fun l => parseDep (trim l)

/-- `s.trim_matches('"')`. -/
def trimQuotes (s : Text) : Text := (s.dropWhile (· = '"')).rdropWhile (· = '"')

/-- The items between the brackets of a feature. -/
def splitItems (inside : Text) : List Text :=
  ((inside.splitOn ',').map fun s => trimQuotes (trim s)).filter fun s => s ≠ []

/-- The right-hand side of a feature: from the first `[` to the last `]`. A `]` that only stands before the
    `[` makes the slice `&val[start + 1..end]` panic. -/
def parseItems (val : Text) : Option (List Text) :=
  match splitOnce '[' val with
  | none => some []
  | some (before, after) =>
    if ']' ∈ after then some (splitItems (after.rdropWhile (· ≠ ']')).dropLast)
    else if ']' ∈ before then none
    else some []

/-- What `parse_features` does with a trimmed line. -/
def parseFeature (features : HashMap Text (List Text)) (line : Text) : Option (HashMap Text (List Text)) :=
  if isIgnored line then some features
  else
    match splitOnce '=' line with
    | none => some features
    | some (key, val) => (parseItems (trim val)).map fun items => features.insert (trim key) items

def parseFeatures (sec : Text) : Option (HashMap Text (List Text)) :=
  (lines sec).foldlM (fun features l => parseFeature features (trim l)) ∅

/-- The item is the dependency, or one of its features. -/
def refersTo (depName item : Text) : Bool := item = depName || (depName ++ ['/']).isPrefixOf item

/-- `features_referencing`. -/
def featuresReferencing (iter : Iteration) (featuresMap : HashMap Text (List Text)) (depName : Text) : List Text :=
  ((iter.order featuresMap).filter fun entry => entry.2.any (refersTo depName)).map Sigma.fst

/-! ## The listing -/

/-- `name.replace('-', "_")`. -/
def crateIdent (name : Text) : Text := name.map fun c => if c = '-' then '_' else c

/-- `feature = "…"`. -/
def featureCfg (feature : Text) : Text := "feature = \"".toList ++ feature ++ ['"']

/-- One feature, or `any(…)` of several. -/
def featuresCfg : List Text → Text
  | [feature] => featureCfg feature
  | feats => "any(".toList ++ ", ".toList.intercalate (feats.map featureCfg) ++ [')']

/-- `rhs.contains("optional") && rhs.contains("true")`. -/
def saysOptional (rhs : Text) : Bool := contains rhs "optional".toList && contains rhs "true".toList

/-- The `cfg` of an entry of `[dependencies]`. -/
def mainCfg (feats : List Text) (dep rhs : Text) : Text :=
  -- any feature with such an item, be it that the item only switches on a feature of the dependency
  if feats ≠ [] then featuresCfg feats
  else if saysOptional rhs then featureCfg (crateIdent dep)
  else []

/-- The `cfg` of an entry of the wasm table. -/
def wasmCfg (feats : List Text) (dep rhs : Text) : Text :=
  let wasm := "target_arch = \"wasm32\"".toList
  let all := fun cfg => "all(".toList ++ wasm ++ ", ".toList ++ cfg ++ [')']
  if feats ≠ [] then all (featuresCfg feats)
  else if saysOptional rhs then all (featureCfg (crateIdent dep))
  else wasm

def deriveCrate : Text := "ractor_wormhole_derive".toList

def mainListing (iter : Iteration) (featuresMap : HashMap Text (List Text)) (content : Text) : List (Text × Text) :=
  ((parseDepsOrdered ((sectionByHeader content "[dependencies]".toList).getD [])).filter
    fun dep => dep.1 ≠ deriveCrate).map fun (dep, rhs) =>
      (crateIdent dep, mainCfg (featuresReferencing iter featuresMap dep) dep rhs)

/-- The section for wasm: under its usual header, or under the first one that speaks of it. -/
def wasmSection (content : Text) : Text :=
  match sectionByHeader content "[target.'cfg(target_arch = \"wasm32\")'.dependencies]".toList with
  | some sec => sec
  | none =>
    ((lines content).findSome? fun line =>
      if contains line "target_arch = \"wasm32\"".toList && startsWith (trim line) '[' then
        sectionByHeader content (trim line)
      else none).getD []

def wasmListing (iter : Iteration) (featuresMap : HashMap Text (List Text)) (content : Text) : List (Text × Text) :=
  (parseDepsOrdered (wasmSection content)).map fun (dep, rhs) =>
    (crateIdent dep, wasmCfg (featuresReferencing iter featuresMap dep) dep rhs)

def featuresMapOf (content : Text) : Option (HashMap Text (List Text)) :=
  parseFeatures ((sectionByHeader content "[features]".toList).getD [])

def fromCargoToml (iter : Iteration) (content : Text) : Option (List (Text × Text)) :=
  (featuresMapOf content).map fun featuresMap =>
    mainListing iter featuresMap content ++ wasmListing iter featuresMap content

end GenerateDeps
end Derive
end Wormhole
