import PascalCheck.Text.LowerCase
import PascalCheck.Text.Quoted

namespace PascalCheck

inductive LogLevel where
  | panic
  | fatal
  | error
  | warn
  | info
  | debug
  | trace
deriving DecidableEq, Repr

namespace LogLevel

def ofName? (name : String) : Option LogLevel :=
  match Text.lower name with
  | "panic" => some .panic
  | "fatal" => some .fatal
  | "error" => some .error
  | "warn" | "warning" => some .warn
  | "info" => some .info
  | "debug" => some .debug
  | "trace" => some .trace
  | _ => none

def refusal (name : String) : String := "not a valid logrus Level: " ++ Text.quote name

end LogLevel

end PascalCheck
