import PascalCheck.Command.Flags
import PascalCheck.Document.Json
import PascalCheck.Document.Listing
import PascalCheck.Document.Report
import PascalCheck.Document.Yaml
import PascalCheck.Settings.Load

namespace PascalCheck.Command

/-- What a command line runs on. -/
structure Host (m : Type → Type) where
  files : Files m
  input : m (List UInt8)
  runId : m String
  runtime : String
  platform : String
  colors : Bool

/-- What a command line leaves behind: its exit status and its two outputs. -/
structure Outcome where
  status : Nat
  output : String
  errors : String
deriving DecidableEq, Repr

namespace Outcome

/-- An output; the status tells whether problems were found. -/
def printed (ok : Bool) (output : String) : Outcome := ⟨if ok then 0 else 1, output, ""⟩

def failed (message : String) : Outcome := ⟨1, "", "error: " ++ message ++ "\n"⟩

end Outcome

def adjust (fs : Flags) (s : Settings) : Settings :=
  { s with
    format := fs.format.getD s.format
    color := (fs.noColor.map not).getD s.color
    logLevel := if fs.verbose then "debug" else s.logLevel }

def options (fs : Flags) (s : Settings) : Options :=
  ⟨fs.tokens.getD s.tokens, fs.maxDiagnostics.getD s.maxDiagnostics⟩

def printReport (format : OutputFormat) (look : Look) (runId file : String) (r : Report) :
    Outcome :=
  .printed r.ok
    (match format with
      | .text => Listing.report look file r
      | .json => (r.document runId).toJson
      | .yaml => (r.document runId).toYaml)

def printTokens (format : OutputFormat) (look : Look) (file : String) (tokens : List Token)
    (diagnostics : List Diagnostic) : Outcome :=
  .printed diagnostics.isEmpty
    (match format with
      | .text => Listing.tokens look file tokens diagnostics
      | .json => (Document.ofTokens .null tokens diagnostics).toJson
      | .yaml => (Document.ofTokens (.list []) tokens diagnostics).toYaml)

def printCodes (format : OutputFormat) (look : Look) : Outcome :=
  .printed true
    (match format with
      | .text => Listing.codes look Code.table
      | .json => (Document.ofCodes Code.table).toJson
      | .yaml => (Document.ofCodes Code.table).toYaml)

def versionText (runtime platform : String) : String :=
  programName ++ " v0.1.0\n  Git Commit: development\n  Build Date: unknown\n  Go Version: " ++
    runtime ++ "\n  OS/Arch:    " ++ platform ++ "\n"

def usageText : String :=
  programName ++ " tokenizes, parses and checks programs written in a small Pascal subset.\n\n" ++
    "Commands:\n" ++
    "  check <file>    analyze a source file and list diagnostics\n" ++
    "  tokens <file>   print the classified token stream\n" ++
    "  codes           print the token code table\n" ++
    "  version         print version information\n\n" ++
    "Flags:\n" ++
    "  --config <file>, -f, --format <text|json|yaml>, --no-color, -v, --verbose\n" ++
    "  check: --tokens, --max-diagnostics <n>\n"

variable {m : Type → Type} [Monad m]

def settings (host : Host m) (fs : Flags) : m (Except String Settings) := do
  let loaded ← if fs.config = "" then pure (.ok Settings.defaults) else
    Settings.load host.files fs.config
  match loaded with
  | .error fault => return .error fault.message
  | .ok s =>
    match (adjust fs s).fault? with
    | none => return .ok (adjust fs s)
    | some fault => return .error fault.message

/-- Reads a source, from the input if its path is a dash. -/
def readSource (host : Host m) (path : String) : m (Except String (List UInt8)) := do
  if path = "-" then return .ok (← host.input)
  else
    match ← host.files.read path with
    | .ok source => return .ok source
    | .error fault => return .error ("failed to read source: " ++ fault.message path)

def perform (host : Host m) (verb : Verb) (fs : Flags) (args : List String) (s : Settings) :
    m Outcome := do
  let format := (OutputFormat.ofName? s.format).getD .text
  let look : Look := if s.color then .styled host.colors else .plain
  match verb, args with
  | .check, path :: _ =>
    match ← readSource host path with
    | .error message => return .failed message
    | .ok source =>
      let runId ← host.runId
      return printReport format look runId path (analyze source (options fs s))
  | .tokens, path :: _ =>
    match ← readSource host path with
    | .error message => return .failed message
    | .ok source =>
      let (tokens, diagnostics) := tokenize source
      return printTokens format look path tokens diagnostics
  | .codes, _ => return printCodes format look
  | .version, _ => return .printed true (versionText host.runtime host.platform)
  | _, _ => return .printed true usageText

/-- Runs a command line. Flags and arguments are checked before the settings are loaded, and
these before a source is read. -/
def execute (host : Host m) (words : List String) : m Outcome := do
  let parsed : Except UsageFault (Verb × Flags × List String) := do
    let (verb, words) ← findVerb words
    let (fs, args) ← readFlags verb words
    if !fs.help then checkArguments verb args
    return (verb, fs, args)
  match parsed with
  | .error fault => return .failed fault.message
  | .ok (verb, fs, args) =>
    if fs.help || verb = .root || verb = .help then return .printed true usageText
    else
      match ← settings host fs with
      | .error message => return .failed message
      | .ok s => perform host verb fs args s

end PascalCheck.Command
