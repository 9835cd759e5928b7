import PascalCheck.Settings.Key
import PascalCheck.Toml.Tables

namespace PascalCheck.Settings.Toml

open PascalCheck.Toml

/-- A letter of a name without its case; the long s and the sign of the kelvin are letters too. -/
def foldChar (c : Char) : Char :=
  if c.toNat = 0x17F then 's' else if c.toNat = 0x212A then 'k' else c.toLower

def foldName (name : String) : String := String.ofList (name.toList.map foldChar)

def assign? (s : Settings) : Key → Definition → Option Settings
  | .logLevel, .leaf (.text v) => some { s with logLevel := v }
  | .format, .leaf (.text v) => some { s with format := v }
  | .color, .leaf (.bool b) => some { s with color := b }
  | .tokens, .leaf (.bool b) => some { s with tokens := b }
  | .maxDiagnostics, .leaf (.int n) => some { s with maxDiagnostics := n }
  | _, _ => none

def assignName? (s : Settings) (entry : String × Definition) : Option Settings :=
  match Key.ofName? (foldName entry.1) with
  | none => some s
  | some k => assign? s k entry.2

def read? (s : Settings) (text : String) : Option Settings := do
  (← define? (← parse? text)).foldlM assignName? s

end PascalCheck.Settings.Toml
