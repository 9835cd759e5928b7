import PascalCheck.Command.Run

open PascalCheck

def readSystemFile (path : String) : IO (Except FileFault (List UInt8)) := do
  try
    return .ok (← IO.FS.readBinFile path).toList
  catch
    | .noFileOrDirectory .. => return .error .notFound
    | .permissionDenied .. => return .error .denied
    | .inappropriateType _ 20 _ => return .error .notDirectory
    | .inappropriateType .. => return .error .isDirectory
    | .invalidArgument _ 36 _ => return .error .nameTooLong
    | _ => return .error .invalidName

/-- A random name for a run: 32 hexadecimal digits in five groups, of which six bits tell that
they are random. -/
def freshRunId : IO String := do
  let a ← IO.rand 0 0xFFFFFFFF
  let b ← IO.rand 0 0xFFFF
  let c ← IO.rand 0x4000 0x4FFF
  let d ← IO.rand 0x8000 0xBFFF
  let e ← IO.rand 0 0xFFFFFFFFFFFF
  return String.intercalate "-"
    [Text.hex 8 a, Text.hex 4 b, Text.hex 4 c, Text.hex 4 d, Text.hex 12 e]

def systemHost (terminal : Bool) : Command.Host IO where
  files := { read := readSystemFile, valueOf := fun name => return (← IO.getEnv name).getD "" }
  input := do return (← (← IO.getStdin).readBinToEnd).toList
  runId := freshRunId
  runtime := "native"
  platform := "any"
  colors := terminal

def main (args : List String) : IO UInt32 := do
  let outcome ← Command.execute (systemHost (← (← IO.getStdout).isTty)) args
  IO.print outcome.output
  IO.eprint outcome.errors
  return outcome.status.toUInt32
