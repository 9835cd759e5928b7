
namespace PascalCheck

/-- A document; the fields of a record keep their order. -/
inductive Document where
  | null
  | text (s : String)
  | int (n : Int)
  | bool (b : Bool)
  | list (items : List Document)
  | record (fields : List (String × Document))

namespace Document

def optionalField (name : String) (present : Bool) (value : Document) : List (String × Document) :=
  if present then [(name, value)] else []

def blanks (n : Nat) : String := String.ofList (List.replicate n ' ')

end Document

end PascalCheck
