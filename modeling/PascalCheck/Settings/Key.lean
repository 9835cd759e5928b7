import PascalCheck.Settings.Basic

namespace PascalCheck.Settings

/-- A setting that a file can give. -/
inductive Key where
  | logLevel
  | format
  | color
  | tokens
  | maxDiagnostics
deriving DecidableEq, Repr

def Key.ofName? : String → Option Key
  | "log_level" => some .logLevel
  | "format" => some .format
  | "color" => some .color
  | "tokens" => some .tokens
  | "max_diagnostics" => some .maxDiagnostics
  | _ => none

end PascalCheck.Settings
