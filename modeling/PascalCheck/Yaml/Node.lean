import PascalCheck.Yaml.Scanner

namespace PascalCheck.Yaml

/-- A node of a document. A tag in short form goes with a text, if the text has one. An alias
holds the node that its anchor marks, unless the alias stands inside that node. -/
inductive Node where
  | text (tag : Option String) (plain : Bool) (value : String)
  | sequence (items : List Node)
  | mapping (entries : List (Node × Node))
  | alias (name : String) (target : Option Node)

def Node.absent : Node := .text none true ""

/-- A node that an anchor marks: its name, the number of the token where it starts, and the node
itself once it is complete. -/
structure Marked where
  name : List Char
  number : Nat
  node : Option Node

/-- What is needed to read nodes: the tokens, what handles of tags stand for, and the nodes that
are marked. -/
structure Reader where
  scanner : Scanner
  handles : List (List Char × List Char)
  marked : List Marked

abbrev Read := StateT Reader Option

namespace Read

def fail {α : Type} : Read α := fun _ => none

def peek : Read Token := fun r => do
  let (t, scanner) ← r.scanner.peek?
  return (t, { r with scanner })

def skip : Read Unit := modify fun r => { r with scanner := r.scanner.drop }

def next : Read Token := do
  skip
  peek

def standardTags : String := "tag:yaml.org,2002:"

def standardHandles : List (List Char × List Char) :=
  [(['!'], ['!']), (['!', '!'], standardTags.toList)]

def shortTag? (tag : List Char) : Option String :=
  if tag = ['!'] then none
  else if standardTags.toList.isPrefixOf tag then
    some ("!!" ++ String.ofList (tag.drop standardTags.length))
  else some (String.ofList tag)

def resolveTag (handle suffix : List Char) : Read (List Char) := do
  if handle.isEmpty then return suffix
  match (← get).handles.lookup handle with
  | some uri => return uri ++ suffix
  | none => fail

/-- The properties of a node: its anchor and its tag, in either order. -/
structure Properties where
  anchor : Option (List Char)
  tag : Option (List Char)

def properties : Read (Properties × Token) := do
  match ← peek with
  | .anchor name =>
    match ← next with
    | .tag handle suffix =>
      let t ← next
      return (⟨some name, some (← resolveTag handle suffix)⟩, t)
    | t => return (⟨some name, none⟩, t)
  | .tag handle suffix =>
    match ← next with
    | .anchor name =>
      let t ← next
      return (⟨some name, some (← resolveTag handle suffix)⟩, t)
    | t => return (⟨none, some (← resolveTag handle suffix)⟩, t)
  | t => return (⟨none, none⟩, t)

/-- Reads a node that an anchor may mark; inside the node the anchor marks it, but it is not
complete. -/
def marking (anchor : Option (List Char)) (node : Read Node) : Read Node := do
  match anchor with
  | none => node
  | some name =>
    let number := (← get).scanner.taken
    modify fun r => { r with marked := ⟨name, number, none⟩ :: r.marked }
    let n ← node
    let complete (m : Marked) : Marked :=
      if m.name = name && m.number = number then { m with node := some n } else m
    modify fun r => { r with marked := r.marked.map complete }
    return n

def aliasNode (name : List Char) : Read Node := do
  match (← get).marked.find? (·.name = name) with
  | some m => return .alias (String.ofList name) m.node
  | none => fail

mutual

/-- A node. Inside brackets no block starts; a value of a block may be a sequence whose items are
not indented. The first argument bounds the depth. -/
def node (inBlock bare : Bool) : Nat → Read Node
  | 0 => fail
  | bound + 1 => do
    match ← peek with
    | .alias name =>
      skip
      aliasNode name
    | _ =>
      let (ps, t) ← properties
      let tag := ps.tag.bind shortTag?
      match t with
      | .text plain chars =>
        skip
        marking ps.anchor (return .text tag plain (String.ofList chars))
      | .flowSequenceStart =>
        marking ps.anchor do
          skip
          return .sequence (← flowItems bound true)
      | .flowMappingStart =>
        marking ps.anchor do
          skip
          return .mapping (← flowEntries bound true)
      | .blockEntry =>
        if bare then marking ps.anchor (return .sequence (← bareItems bound))
        else empty ps tag
      | .blockSequenceStart =>
        if inBlock then
          marking ps.anchor do
            skip
            return .sequence (← blockItems bound)
        else empty ps tag
      | .blockMappingStart =>
        if inBlock then
          marking ps.anchor do
            skip
            return .mapping (← blockEntries bound)
        else empty ps tag
      | _ => empty ps tag

def empty (ps : Properties) (tag : Option String) : Read Node :=
  if ps.anchor.isNone && ps.tag.isNone then fail
  else marking ps.anchor (return .text tag true "")

def blockItems : Nat → Read (List Node)
  | 0 => fail
  | bound + 1 => do
    match ← peek with
    | .blockEntry =>
      let item ← match ← next with
        | .blockEntry | .blockEnd => pure .absent
        | _ => node true false bound
      return item :: (← blockItems bound)
    | .blockEnd =>
      skip
      return []
    | _ => fail

def bareItems : Nat → Read (List Node)
  | 0 => fail
  | bound + 1 => do
    match ← peek with
    | .blockEntry =>
      let item ← match ← next with
        | .blockEntry | .key | .value | .blockEnd => pure .absent
        | _ => node true false bound
      return item :: (← bareItems bound)
    | _ => return []

def blockEntries : Nat → Read (List (Node × Node))
  | 0 => fail
  | bound + 1 => do
    match ← peek with
    | .key =>
      let key ← match ← next with
        | .key | .value | .blockEnd => pure .absent
        | _ => node true true bound
      let value ← match ← peek with
        | .value =>
          match ← next with
          | .key | .value | .blockEnd => pure .absent
          | _ => node true true bound
        | _ => pure .absent
      return (key, value) :: (← blockEntries bound)
    | .blockEnd =>
      skip
      return []
    | _ => fail

def flowItems : Nat → Bool → Read (List Node)
  | 0, _ => fail
  | bound + 1, isFirst => do
    match ← separated isFirst .flowSequenceEnd with
    | .flowSequenceEnd =>
      skip
      return []
    | .key =>
      skip
      let entry ← pair bound
      return .mapping [entry] :: (← flowItems bound false)
    | _ =>
      let item ← node false false bound
      return item :: (← flowItems bound false)

/-- The one entry of a mapping without braces, after its mark. -/
def pair : Nat → Read (Node × Node)
  | 0 => fail
  | bound + 1 => do
    let key ← match ← peek with
      | .value | .flowEntry | .flowSequenceEnd =>
        skip
        pure .absent
      | _ => node false false bound
    let value ← match ← peek with
      | .value =>
        match ← next with
        | .flowEntry | .flowSequenceEnd => pure .absent
        | _ => node false false bound
      | _ => pure .absent
    return (key, value)

def flowEntries : Nat → Bool → Read (List (Node × Node))
  | 0, _ => fail
  | bound + 1, isFirst => do
    match ← separated isFirst .flowMappingEnd with
    | .flowMappingEnd =>
      skip
      return []
    | .key =>
      let key ← match ← next with
        | .value | .flowEntry | .flowMappingEnd => pure .absent
        | _ => node false false bound
      let value ← match ← peek with
        | .value =>
          match ← next with
          | .flowEntry | .flowMappingEnd => pure .absent
          | _ => node false false bound
        | _ => pure .absent
      return (key, value) :: (← flowEntries bound false)
    | _ =>
      let key ← node false false bound
      return (key, .absent) :: (← flowEntries bound false)

def separated (isFirst : Bool) (closing : Token) : Read Token := do
  let t ← peek
  if isFirst || t = closing then return t
  else if t = .flowEntry then next
  else fail

end

/-- Reads the directives before a document. There is one version, and each handle is defined
once. -/
def directives : Nat → Bool → Read Unit
  | 0, _ => fail
  | bound + 1, versioned => do
    match ← peek with
    | .version major minor =>
      if versioned || major != 1 || minor != 1 then fail
      skip
      directives bound true
    | .tagHandle handle uri =>
      if ((← get).handles.lookup handle).isSome then fail
      modify fun r => { r with handles := (handle, uri) :: r.handles }
      skip
      directives bound versioned
    | _ => modify fun r => { r with handles := r.handles ++ standardHandles }

def document (bound : Nat) : Read (Option Node) := do
  match ← peek with
  | .streamEnd => return none
  | .version .. | .tagHandle .. | .documentStart =>
    directives bound false
    if (← peek) != .documentStart then fail
    let n ← match ← next with
      | .version .. | .tagHandle .. | .documentStart | .documentEnd | .streamEnd => pure .absent
      | _ => node true false bound
    let _ ← peek
    return some n
  | _ =>
    directives bound false
    let n ← node true false bound
    let _ ← peek
    return some n

end Read

def isWellFormed (cs : List Char) : Bool :=
  cs.all fun c =>
    let n := c.toNat
    n == 0x09 || n == 0x0A || n == 0x0D || (0x20 ≤ n && n ≤ 0x7E) || n == 0x85 ||
      (0xA0 ≤ n && n ≤ 0xFFFD) || 0x10000 ≤ n

/-- The first document of a text: nothing if the text is not well formed, and no node if it has no
document. -/
def parse? (text : String) : Option (Option Node) :=
  let cs := Text.withoutMark text
  if isWellFormed cs then
    let reader : Reader := ⟨.ofChars cs, [], []⟩
    ((Read.document (8 * cs.length + 64)).run reader).map Prod.fst
  else none

end PascalCheck.Yaml
