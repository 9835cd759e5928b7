import PascalCheck.Numeral.Rounding
import PascalCheck.Settings.Key
import PascalCheck.Yaml.Meaning

namespace PascalCheck.Settings.Yaml

open PascalCheck.Yaml

/-- Words that count as truth values where one is wanted. -/
def looseBool? (s : String) : Option Bool :=
  if ["y", "Y", "yes", "Yes", "YES", "on", "On", "ON"].contains s then some true
  else if ["n", "N", "no", "No", "NO", "off", "Off", "OFF"].contains s then some false
  else none

/-- The integer of 64 bits that a real number is cut down to. One too small becomes the least,
as does one just beyond the greatest. -/
def truncate? (negative : Bool) (x : Numeral.Scientific) : Option Int :=
  let n := x.wholePart
  if negative then some (if n ≤ Nat.pow 2 63 then -n else -Nat.pow 2 63)
  else if n < Nat.pow 2 63 then some n
  else if n = Nat.pow 2 63 then some (-Nat.pow 2 63)
  else none

def bool? (m : Meaning) : Option Bool :=
  match m.value with
  | .bool b => some b
  | .text => looseBool? m.text
  | _ => none

def int? (m : Meaning) : Option Int :=
  match m.value with
  | .int n => if n < Nat.pow 2 63 then some n else none
  | .real negative x => truncate? negative x
  | .infinity true => some (-Nat.pow 2 63)
  | _ => none

def assignMeaning? (s : Settings) (key : Key) (m : Meaning) : Option Settings :=
  if m.value = .null then some s
  else
    match key with
    | .logLevel => some { s with logLevel := m.text }
    | .format => some { s with format := m.text }
    | .color => (bool? m).map fun b => { s with color := b }
    | .tokens => (bool? m).map fun b => { s with tokens := b }
    | .maxDiagnostics => (int? m).map fun n => { s with maxDiagnostics := n }

/-- What the text of a node means, directly or through an alias. -/
def nodeMeaning? : Node → Option Meaning
  | .text tag plain value => meaning? tag plain value
  | .alias _ (some (.text tag plain value)) => meaning? tag plain value
  | _ => none

def isMerge : Node → Bool
  | .text tag plain value => value == "<<" && (tag == some "!!merge" || (tag.isNone && plain))
  | _ => false

/-- The two nodes look the same as names: texts with the same characters, aliases of the same
anchor, or collections of the same kind. -/
def sameName : Node → Node → Bool
  | .text _ _ s, .text _ _ t => s == t
  | .alias s _, .alias t _ => s == t
  | .sequence _, .sequence _ => true
  | .mapping _, .mapping _ => true
  | _, _ => false

def areDistinct : List Node → Bool
  | [] => true
  | n :: ns => !ns.any (sameName n) && areDistinct ns

/-- What has been taken: the settings, and the names that later mappings cannot give. -/
structure Taken where
  settings : Settings
  names : List String

/-- Takes an entry, unless it is taken over and its name is given already. Of one mapping no
setting comes twice; the state holds those that came. -/
def takeField? (takenOver : Bool) (state : Taken × List Key) (field : Node × Node) :
    Option (Taken × List Key) := do
  let (taken, done) := state
  if isMerge field.1 then return state
  let name ← nodeMeaning? field.1
  if name.value = .null || (takenOver && taken.names.contains name.text) then return state
  let taken := { taken with names := name.text :: taken.names }
  match Key.ofName? name.text with
  | none => return (taken, done)
  | some key =>
    if done.contains key then none
    let settings ← assignMeaning? taken.settings key (← nodeMeaning? field.2)
    return ({ taken with settings }, key :: done)

def takeOwn? (takenOver : Bool) (taken : Taken) (entries : List (Node × Node)) : Option Taken :=
  if areDistinct (entries.map Prod.fst) then
    (entries.foldlM (takeField? takenOver) (taken, [])).map Prod.fst
  else none

mutual

/-- Takes over what a mapping gives, and then what it takes over itself. -/
def takeMapping? (taken : Taken) : Node → Option Taken
  | .mapping entries => do takeMerged? (← takeOwn? true taken entries) entries
  | .alias _ (some target) => takeTarget? taken target
  | _ => none

def takeTarget? (taken : Taken) : Node → Option Taken
  | .mapping entries => do takeMerged? (← takeOwn? true taken entries) entries
  | _ => none

def takeMerged? (taken : Taken) : List (Node × Node) → Option Taken
  | [] => some taken
  | (name, value) :: entries => do
    if isMerge name then takeMerged? (← takeValue? taken value) entries
    else takeMerged? taken entries

/-- Takes over what a mapping gives, or what several give, where the first goes first. -/
def takeValue? (taken : Taken) : Node → Option Taken
  | .sequence items => takeItems? taken items
  | .mapping entries => do takeMerged? (← takeOwn? true taken entries) entries
  | .alias _ (some target) => takeTarget? taken target
  | _ => none

def takeItems? (taken : Taken) : List Node → Option Taken
  | [] => some taken
  | n :: ns => do takeItems? (← takeMapping? taken n) ns

end

def read? (s : Settings) (text : String) : Option Settings := do
  match ← parse? text with
  | none => return s
  | some (.text tag plain value) =>
    if (← meaning? tag plain value).value = .null then return s else none
  | some (.mapping entries) =>
    return (← takeMerged? (← takeOwn? false ⟨s, []⟩ entries) entries).settings
  | some _ => none

end PascalCheck.Settings.Yaml
