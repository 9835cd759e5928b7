import PascalCheck.Document.Basic
import PascalCheck.Text.Quoted

namespace PascalCheck.Document

def jsonChar (c : Char) : String :=
  match c.toNat with
  | 0x22 => "\\\""
  | 0x5C => "\\\\"
  | 0x08 => "\\b"
  | 0x0C => "\\f"
  | 0x0A => "\\n"
  | 0x0D => "\\r"
  | 0x09 => "\\t"
  | n =>
    if n < 0x20 || c == '<' || c == '>' || c == '&' || n == 0x2028 || n == 0x2029 then
      "\\u" ++ Text.hex 4 n
    else c.toString

def jsonString (s : String) : String := "\"" ++ String.join (s.toList.map jsonChar) ++ "\""

def enclose (indent : Nat) (opening closing : String) (lines : List String) : String :=
  match lines with
  | [] => opening ++ closing
  | _ =>
    opening ++ "\n" ++ String.intercalate ",\n" (lines.map (blanks (indent + 2) ++ ·)) ++ "\n" ++
      blanks indent ++ closing

mutual

/-- A document that starts on a line indented by so many blanks. -/
def jsonAt (indent : Nat) : Document → String
  | .null => "null"
  | .text s => jsonString s
  | .int n => toString n
  | .bool b => if b then "true" else "false"
  | .list items => enclose indent "[" "]" (jsonItems (indent + 2) items)
  | .record fields => enclose indent "\x7b" "\x7d" (jsonFields (indent + 2) fields)

def jsonItems (indent : Nat) : List Document → List String
  | [] => []
  | d :: ds => jsonAt indent d :: jsonItems indent ds

def jsonFields (indent : Nat) : List (String × Document) → List String
  | [] => []
  | (name, d) :: fs => (jsonString name ++ ": " ++ jsonAt indent d) :: jsonFields indent fs

end

def toJson (d : Document) : String := jsonAt 0 d ++ "\n"

end PascalCheck.Document
