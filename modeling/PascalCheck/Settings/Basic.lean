import PascalCheck.Settings.LogLevel

namespace PascalCheck

/-- The settings shared by all commands. -/
structure Settings where
  logLevel : String
  format : String
  color : Bool
  tokens : Bool
  maxDiagnostics : Int
deriving DecidableEq, Repr

/-- A form of output. -/
inductive OutputFormat where
  | text
  | json
  | yaml
deriving DecidableEq, Repr

def OutputFormat.ofName? : String → Option OutputFormat
  | "text" => some .text
  | "json" => some .json
  | "yaml" => some .yaml
  | _ => none

/-- Why settings are refused. -/
inductive SettingsFault where
  | logLevel (given : String)
  | format (given : String)
  | maxDiagnostics (given : Int)
deriving DecidableEq, Repr

def SettingsFault.message : SettingsFault → String
  | .logLevel given => "log_level: " ++ LogLevel.refusal given
  | .format given => "format: unknown output format " ++ Text.quote given
  | .maxDiagnostics given =>
    "max_diagnostics: must not be negative, got " ++ toString given

namespace Settings

def defaults : Settings := ⟨"warn", "text", true, false, 0⟩

def fault? (s : Settings) : Option SettingsFault :=
  if (LogLevel.ofName? s.logLevel).isNone then some (.logLevel s.logLevel)
  else if (OutputFormat.ofName? s.format).isNone then some (.format s.format)
  else if s.maxDiagnostics < 0 then some (.maxDiagnostics s.maxDiagnostics)
  else none

end Settings

end PascalCheck
