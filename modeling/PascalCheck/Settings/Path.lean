import PascalCheck.Text.LowerCase

namespace PascalCheck.Settings

def isSpecialVariable (c : Char) : Bool := "*#$@!?-".toList.contains c || c.isDigit

def isNameChar (c : Char) : Bool := c.isAlphanum || c == '_'

/-- What a dollar sign stands for: nothing, itself or a variable. -/
inductive Reference where
  | nothing
  | dollar
  | named (name : List Char)
deriving DecidableEq, Repr

/-- The reference after a dollar sign, and how many characters it takes. A brace that is never
closed is dropped by itself. -/
def reference : List Char → Reference × Nat
  | '\x7b' :: cs =>
    let name := cs.takeWhile (· != '\x7d')
    if name.length = cs.length then (.nothing, 1)
    else if name.isEmpty then (.nothing, 2)
    else (.named name, name.length + 2)
  | c :: cs =>
    if isSpecialVariable c then (.named [c], 1)
    else
      let name := (c :: cs).takeWhile isNameChar
      if name.isEmpty then (.dollar, 0) else (.named name, name.length)
  | [] => (.dollar, 0)

def Reference.value (env : String → String) : Reference → List Char
  | .nothing => []
  | .dollar => ['$']
  | .named name => (env (String.ofList name)).toList

def expandChars (env : String → String) : List Char → List Char
  | [] => []
  | c :: cs =>
    if c = '$' then
      (reference cs).1.value env ++ expandChars env (cs.drop (reference cs).2)
    else c :: expandChars env cs
termination_by cs => cs.length
decreasing_by
  · simp only [List.length_drop, List.length_cons]
    omega
  · simp

def expand (env : String → String) (path : String) : String :=
  String.ofList (expandChars env path.toList)

def variableNames : List Char → List String
  | [] => []
  | c :: cs =>
    if c = '$' then
      (match (reference cs).1 with
        | .named name => [String.ofList name]
        | _ => []) ++ variableNames (cs.drop (reference cs).2)
    else variableNames cs
termination_by cs => cs.length
decreasing_by
  · simp only [List.length_drop, List.length_cons]
    omega
  · simp

/-- The part of a path from the last point of its last element on. -/
def fileExtension (path : String) : String :=
  let name := (path.toList.reverse.takeWhile (· != '/')).reverse
  let tail := name.reverse.takeWhile (· != '.')
  if tail.length = name.length then "" else String.ofList ('.' :: tail.reverse)

def isYamlPath (path : String) : Bool :=
  [".yaml", ".yml"].contains (Text.lower (fileExtension path))

end PascalCheck.Settings
