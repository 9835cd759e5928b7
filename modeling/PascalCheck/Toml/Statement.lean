import PascalCheck.Toml.Number
import PascalCheck.Toml.Text

namespace PascalCheck.Toml

open Text (isBlank)

/-- A value as it is written. -/
inductive Expression where
  | text (s : String)
  | int (n : Int)
  | bool (b : Bool)
  | real
  | moment
  | array (items : List Expression)
  | inline (fields : List (List String × Expression))

/-- A statement of a file. -/
inductive Statement where
  | table (path : List String)
  | arrayTable (path : List String)
  | entry (path : List String) (value : Expression)

def Number.expression : Number → Expression
  | .int n => .int n
  | .real => .real
  | .moment => .moment

def isBareChar (c : Char) : Bool := c.isAlphanum || c == '_' || c == '-'

def name? (cs : List Char) : Option (String × List Char) :=
  match quotedLine? cs with
  | some r => some r
  | none =>
    match cs.takeWhile isBareChar with
    | [] => none
    | name => some (String.ofList name, cs.dropWhile isBareChar)

/-- The names of a path up to a closing character, and what follows that. The first argument
bounds the number of names. -/
def path? (closing : Char) : Nat → List Char → Option (List String × List Char)
  | 0, _ => none
  | bound + 1, cs => do
    let (name, rest) ← name? (cs.dropWhile isBlank)
    match rest.dropWhile isBlank with
    | c :: rest =>
      if c = closing then return ([name], rest)
      else if c = '.' then
        let (names, rest) ← path? closing bound rest
        return (name :: names, rest)
      else none
    | [] => none

def afterComment (cs : List Char) : List Char := cs.dropWhile fun c => !isLineEnd c

def afterSpace : Nat → List Char → List Char
  | 0, cs => cs
  | bound + 1, cs =>
    match cs.dropWhile isSpace with
    | '#' :: cs => afterSpace bound (afterComment cs)
    | cs => cs

mutual

/-- A value, and what follows it. The first argument bounds the depth. -/
def value? : Nat → List Char → Option (Expression × List Char)
  | 0, _ => none
  | bound + 1, cs =>
    match cs with
    | '"' :: _ | '\'' :: _ => (quoted? cs).map fun (s, rest) => (.text s, rest)
    | 't' :: 'r' :: 'u' :: 'e' :: rest => some (.bool true, rest)
    | 'f' :: 'a' :: 'l' :: 's' :: 'e' :: rest => some (.bool false, rest)
    | '[' :: cs => (items? bound cs).map fun (items, rest) => (.array items, rest)
    | '\x7b' :: cs =>
      match cs.dropWhile isBlank with
      | '\x7d' :: rest => some (.inline [], rest)
      | cs => (fields? bound cs).map fun (fields, rest) => (.inline fields, rest)
    | cs => (Number.read? cs).map fun (n, rest) => (n.expression, rest)

def items? : Nat → List Char → Option (List Expression × List Char)
  | 0, _ => none
  | bound + 1, cs =>
    match afterSpace cs.length cs with
    | ']' :: rest => some ([], rest)
    | cs => do
      let (item, rest) ← value? bound cs
      match afterSpace rest.length rest with
      | ',' :: rest =>
        let (items, rest) ← items? bound rest
        return (item :: items, rest)
      | ']' :: rest => return ([item], rest)
      | _ => none

def fields? : Nat → List Char → Option (List (List String × Expression) × List Char)
  | 0, _ => none
  | bound + 1, cs => do
    let (path, rest) ← path? '=' cs.length cs
    let (value, rest) ← value? bound (rest.dropWhile isBlank)
    match rest.dropWhile isBlank with
    | ',' :: rest =>
      let (fields, rest) ← fields? bound rest
      return ((path, value) :: fields, rest)
    | '\x7d' :: rest => return ([(path, value)], rest)
    | _ => none

end

def afterLine? (cs : List Char) : Option (List Char) :=
  match cs.dropWhile isBlank with
  | [] => some []
  | c :: cs =>
    if c = '#' then some (afterComment cs)
    else if isLineEnd c then some cs
    else none

def statement? (cs : List Char) : Option (Statement × List Char) :=
  match cs with
  | '[' :: '[' :: cs => do
    let (path, rest) ← path? ']' cs.length cs
    match rest with
    | ']' :: rest => return (.arrayTable path, rest)
    | _ => none
  | '[' :: cs => do
    let (path, rest) ← path? ']' cs.length cs
    return (.table path, rest)
  | cs => do
    let (path, rest) ← path? '=' cs.length cs
    let (value, rest) ← value? (2 * rest.length + 2) (rest.dropWhile isBlank)
    return (.entry path value, rest)

def statements? : Nat → List Char → Option (List Statement)
  | 0, _ => none
  | bound + 1, cs =>
    match afterSpace cs.length cs with
    | [] => some []
    | cs => do
      let (s, rest) ← statement? cs
      return s :: (← statements? bound (← afterLine? rest))

def parse? (text : String) : Option (List Statement) :=
  let cs := Text.withoutMark text
  if isWellFormed cs then statements? (cs.length + 1) cs else none

end PascalCheck.Toml
