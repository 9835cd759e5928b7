import PascalCheck.Files.Basic
import PascalCheck.Settings.Path
import PascalCheck.Settings.Toml
import PascalCheck.Settings.Yaml

namespace PascalCheck

namespace Settings

/-- Why settings cannot be loaded. -/
inductive LoadFault where
  | read (path : String) (fault : FileFault)
  | parse (path : String)
  | invalid (path : String) (fault : SettingsFault)
deriving DecidableEq, Repr

def LoadFault.message : LoadFault → String
  | .read path fault => "failed to read config: " ++ fault.message path
  | .parse path => "failed to parse config: " ++ path ++ " is not well formed"
  | .invalid path fault => "invalid config " ++ path ++ ": " ++ fault.message

def ofContents (path : String) (contents : List UInt8) : Except LoadFault Settings :=
  let settings? :=
    (String.fromUTF8? ⟨contents.toArray⟩).bind fun text =>
      if isYamlPath path then Yaml.read? defaults text else Toml.read? defaults text
  match settings? with
  | none => .error (.parse path)
  | some s =>
    match s.fault? with
    | none => .ok s
    | some fault => .error (.invalid path fault)

/-- Loads settings from the file with a path, in which variables stand for their values. -/
def load {m : Type → Type} [Monad m] (files : Files m) (path : String) :
    m (Except LoadFault Settings) := do
  let names := variableNames path.toList
  let values ← names.mapM files.valueOf
  let path := expand (fun name => ((names.zip values).lookup name).getD "") path
  match ← files.read path with
  | .error fault => return .error (.read path fault)
  | .ok contents => return ofContents path contents

end Settings

end PascalCheck
