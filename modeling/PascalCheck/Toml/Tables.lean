import PascalCheck.Toml.Statement

namespace PascalCheck.Toml

/-- A value that has no parts to look into. -/
inductive Leaf where
  | text (s : String)
  | int (n : Int)
  | bool (b : Bool)
  | other
deriving DecidableEq, Repr

/-- What a name stands for: a value, a table, or an array of tables, of which the last can still
change. -/
inductive Definition where
  | leaf (value : Leaf)
  | table (entries : List (String × Definition))
  | tables (last : List (String × Definition))

abbrev Entries := List (String × Definition)

def Definition.entries? : Definition → Option Entries
  | .leaf _ => none
  | .table es => some es
  | .tables es => some es

/-- A definition with another table in the place of the one it leads on to. -/
def Definition.withEntries : Definition → Entries → Definition
  | .tables _, es => .tables es
  | _, es => .table es

namespace Entries

def put (es : Entries) (name : String) (d : Definition) : Entries :=
  match es with
  | [] => [(name, d)]
  | (n, e) :: es => if n = name then (name, d) :: es else (n, e) :: put es name d

/-- Changes the table at a path; every name of the path leads on. -/
def change? (f : Entries → Option Entries) : List String → Entries → Option Entries
  | [], es => f es
  | name :: path, es => do
    let d ← es.lookup name
    let inner ← change? f path (← d.entries?)
    return put es name (d.withEntries inner)

def at? : List String → Entries → Option Entries
  | [], es => some es
  | name :: path, es => do at? path (← (← es.lookup name).entries?)

end Entries

/-- What a file has defined so far: the names, the table that statements belong to, the tables
that are implied only, and the paths whose value is an array. -/
structure Contents where
  entries : Entries
  scope : List String
  implied : List (List String)
  arrays : List (List String)

namespace Contents

def empty : Contents := ⟨[], [], [], []⟩

def imply (c : Contents) (path : List String) : Contents :=
  { c with implied := path :: c.implied }

def settle (c : Contents) (path : List String) : Contents :=
  { c with implied := c.implied.filter (· != path) }

/-- Notes whether the value of a name is an array. An empty name stands for its table, if that is
not the outermost. -/
def note (c : Contents) (name : String) (isArray : Bool) : Contents :=
  let path := if name = "" && !c.scope.isEmpty then c.scope else c.scope ++ [name]
  let others := c.arrays.filter (· != path)
  { c with arrays := if isArray then path :: others else others }

def define? (c : Contents) (name : String) (d : Definition) : Option Contents := do
  let path := c.scope ++ [name]
  let replace := do
    return { c with entries := ← c.entries.change? (fun es => some (es.put name d)) c.scope }
  if ((← c.entries.at? c.scope).lookup name).isNone then replace
  else if c.arrays.contains path then return (← replace).settle path
  else if c.implied.contains path then return c.settle path
  else none

/-- Makes the tables on the way to a path, from the outermost on, and enters the last of them.
The first argument holds the names already passed. -/
def reach? : List String → List String → Contents → Option Contents
  | before, [], c => some { c with scope := before }
  | before, name :: path, c => do
    match (← c.entries.at? before).lookup name with
    | some (.leaf _) => none
    | some _ => reach? (before ++ [name]) path c
    | none =>
      let entries ← c.entries.change? (fun es => some (es.put name (.table []))) before
      reach? (before ++ [name]) path ({ c with entries }.imply (before ++ [name]))

def enter? (c : Contents) (path : List String) : Option Contents := do
  match path.getLast? with
  | none => none
  | some name =>
    let c ← reach? [] path.dropLast c
    let c ← c.define? name (.table [])
    return { c with scope := path }

def enterNext? (c : Contents) (path : List String) : Option Contents := do
  match path.getLast? with
  | none => none
  | some name =>
    let c ← reach? [] path.dropLast c
    let extend (es : Entries) : Option Entries :=
      match es.lookup name with
      | none | some (.tables _) => some (es.put name (.tables []))
      | _ => none
    return { c with entries := ← c.entries.change? extend c.scope, scope := path }

def enterImplied? (c : Contents) (path : List String) : Option Contents :=
  path.foldlM (fun c name => (c.imply (c.scope ++ [name])).enter? (c.scope ++ [name])) c

end Contents

def Entries.putAt? (d : Definition) : List String → Entries → Option Entries
  | [], es => some es
  | [name], es => some (es.put name d)
  | name :: path, es =>
    match es.lookup name with
    | none => do return es.put name (.table (← putAt? d path []))
    | some (.table inner) => do return es.put name (.table (← putAt? d path inner))
    | some _ => none

namespace Contents

mutual

/-- What the value of a name is, and what has been defined inside it. -/
def evaluate? (c : Contents) (name : String) (inArray : Bool) :
    Expression → Option (Definition × Contents)
  | .text s => some (.leaf (.text s), c)
  | .int n => some (.leaf (.int n), c)
  | .bool b => some (.leaf (.bool b), c)
  | .real => some (.leaf .other, c)
  | .moment => some (.leaf .other, c)
  | .array items => do
    let c ← evaluateItems? (c.note name true) name items
    return (.leaf .other, c)
  | .inline fields => do
    let path := c.scope ++ [name]
    let inner := c.imply path
    let inner ← if inArray then inner.enterNext? path else inner.enter? path
    let (es, inner) ← evaluateFields? inner path [] fields
    return (.table es, { inner with scope := c.scope })

def evaluateItems? (c : Contents) (name : String) : List Expression → Option Contents
  | [] => some c
  | e :: es => do
    let (_, c) ← evaluate? c name true e
    evaluateItems? c name es

def evaluateFields? (c : Contents) (scope : List String) (done : Entries) :
    List (List String × Expression) → Option (Entries × Contents)
  | [] => some (done, c)
  | (path, e) :: fields => do
    let name := path.getLast?.getD ""
    let c ← c.enterImplied? path.dropLast
    let (d, c) ← evaluate? c name false e
    let c ← c.define? name d
    let isArray := match e with
      | .array _ => true
      | _ => false
    let c := c.note name isArray
    evaluateFields? { c with scope } scope (← done.putAt? d path) fields

end

def add? (c : Contents) : Statement → Option Contents
  | .table path => do return (← c.enter? path).note "" false
  | .arrayTable path => do return (← c.enterNext? path).note "" false
  | .entry path e => do
    let name := path.getLast?.getD ""
    let inner ← c.enterImplied? path.dropLast
    let (d, inner) ← inner.evaluate? name false e
    let inner ← inner.define? name d
    let isArray := match e with
      | .array _ => true
      | _ => false
    return { inner.note name isArray with scope := c.scope }

end Contents

def define? (statements : List Statement) : Option Entries := do
  return (← statements.foldlM Contents.add? .empty).entries

end PascalCheck.Toml
