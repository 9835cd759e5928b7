import PascalCheck.Numeral.Integer
import PascalCheck.Text.Quoted

namespace PascalCheck.Command

/-- A command, or the program by itself. -/
inductive Verb where
  | root
  | check
  | tokens
  | codes
  | version
  | help
deriving DecidableEq, Repr

def Verb.ofName? : String → Option Verb
  | "check" => some .check
  | "tokens" => some .tokens
  | "codes" => some .codes
  | "version" => some .version
  | "help" | "completion" => some .help
  | _ => none

def programName : String := "kompilator"

inductive Flag where
  | help
  | config
  | verbose
  | format
  | noColor
  | tokens
  | maxDiagnostics
deriving DecidableEq, Repr

namespace Flag

def name : Flag → String
  | .help => "help"
  | .config => "config"
  | .verbose => "verbose"
  | .format => "format"
  | .noColor => "no-color"
  | .tokens => "tokens"
  | .maxDiagnostics => "max-diagnostics"

def letter? : Flag → Option Char
  | .help => some 'h'
  | .verbose => some 'v'
  | .format => some 'f'
  | _ => none

def isSwitch : Flag → Bool
  | .help | .verbose | .noColor | .tokens => true
  | _ => false

def label (f : Flag) : String :=
  match f.letter? with
  | some c => "-" ++ c.toString ++ ", --" ++ f.name
  | none => "--" ++ f.name

def shared : List Flag := [.config, .verbose, .format, .noColor]

end Flag

def Verb.flags : Verb → List Flag
  | .check => .help :: Flag.shared ++ [.tokens, .maxDiagnostics]
  | _ => .help :: Flag.shared

/-- Why a command line is refused. -/
inductive UsageFault where
  | unknownCommand (word path : String)
  | badFlag (word : String)
  | unknownFlag (name : String)
  | unknownLetter (letters : List Char)
  | needsValue (word : String)
  | letterNeedsValue (letters : List Char)
  | badSwitch (flag : Flag) (value : String)
  | badNumber (flag : Flag) (value : String) (failure : Numeral.Failure)
  | argumentCount (given : Nat)
deriving DecidableEq, Repr

def quoteFirst (letters : List Char) : String :=
  match (String.ofList letters).toUTF8.toList with
  | [] => "''"
  | b :: _ =>
    if b = 0x27 then "'\\''"
    else if b = 0x22 then "'\"'"
    else "'" ++ Text.quoteChar (Char.ofUInt8 b) ++ "'"

def badValue (flag : Flag) (value reader reason : String) : String :=
  "invalid argument " ++ Text.quote value ++ " for " ++ Text.quote flag.label ++
    " flag: strconv." ++ reader ++ ": parsing " ++ Text.quote value ++ ": " ++ reason

def UsageFault.message : UsageFault → String
  | .unknownCommand word path =>
    "unknown command " ++ Text.quote word ++ " for " ++ Text.quote path
  | .badFlag word => "bad flag syntax: " ++ word
  | .unknownFlag name => "unknown flag: --" ++ name
  | .unknownLetter letters =>
    "unknown shorthand flag: " ++ quoteFirst letters ++ " in -" ++ String.ofList letters
  | .needsValue word => "flag needs an argument: " ++ word
  | .letterNeedsValue letters =>
    "flag needs an argument: " ++ quoteFirst letters ++ " in -" ++ String.ofList letters
  | .badSwitch flag value => badValue flag value "ParseBool" "invalid syntax"
  | .badNumber flag value .malformed => badValue flag value "ParseInt" "invalid syntax"
  | .badNumber flag value .outOfRange => badValue flag value "ParseInt" "value out of range"
  | .argumentCount given => "accepts 1 arg(s), received " ++ toString given

/-- The flags given on a command line; one that was not given has no value. -/
structure Flags where
  help : Bool
  config : String
  verbose : Bool
  format : Option String
  noColor : Option Bool
  tokens : Option Bool
  maxDiagnostics : Option Int
deriving DecidableEq, Repr

namespace Flags

def none : Flags := ⟨false, "", false, Option.none, Option.none, Option.none, Option.none⟩

def bool? (value : String) : Option Bool :=
  if ["1", "t", "T", "TRUE", "true", "True"].contains value then some true
  else if ["0", "f", "F", "FALSE", "false", "False"].contains value then some false
  else Option.none

def set (fs : Flags) (flag : Flag) (value : String) : Except UsageFault Flags :=
  let switch (give : Bool → Flags) : Except UsageFault Flags :=
    match bool? value with
    | some b => .ok (give b)
    | Option.none => .error (.badSwitch flag value)
  match flag with
  | .config => .ok { fs with config := value }
  | .format => .ok { fs with format := some value }
  | .help => switch fun b => { fs with help := b }
  | .verbose => switch fun b => { fs with verbose := b }
  | .noColor => switch fun b => { fs with noColor := some b }
  | .tokens => switch fun b => { fs with tokens := some b }
  | .maxDiagnostics =>
    match Numeral.parseInteger value with
    | .ok n => .ok { fs with maxDiagnostics := some n }
    | .error failure => .error (.badNumber flag value failure)

end Flags

/-- The word takes the next one as its value, as far as can be told before the command is
known. -/
def takesValue (word : String) : Bool :=
  match word.toList with
  | '-' :: '-' :: cs =>
    !cs.contains '=' && !Flag.shared.any fun f => f.name == String.ofList cs && f.isSwitch
  | ['-', c] =>
    c.toNat < 0x80 && c != '=' && !Flag.shared.any fun f => f.letter? == some c && f.isSwitch
  | _ => false

def isArgument (word : String) : Bool := word.toList.head? != some '-'

/-- The words that are neither flags nor values of flags. A flag before the last word hides
it. -/
def arguments : List String → List String
  | [] => []
  | w :: ws =>
    if w == "--" then []
    else if takesValue w then
      match ws with
      | _ :: v :: vs => arguments (v :: vs)
      | _ => []
    else if isArgument w && w != "" then w :: arguments ws
    else arguments ws

def withoutCommand (name : String) : List String → List String
  | [] => []
  | w :: ws =>
    if w == "--" then w :: ws
    else if takesValue w then
      match ws with
      | [] => [w]
      | v :: vs => w :: v :: withoutCommand name vs
    else if isArgument w && w == name then ws
    else w :: withoutCommand name ws

def findVerb (words : List String) : Except UsageFault (Verb × List String) :=
  match arguments words with
  | [] => .ok (.root, words)
  | name :: _ =>
    match Verb.ofName? name with
    | some verb => .ok (verb, withoutCommand name words)
    | none => .error (.unknownCommand name programName)

/-- Reads a run of letters after a single dash, and gives back the words left. Letters that start
like the flags of a test are passed over. -/
def readLetters (verb : Verb) (fs : Flags) (words : List String) :
    List Char → Except UsageFault (Flags × List String)
  | [] => .ok (fs, words)
  | c :: cs =>
    if "test.".toList.isPrefixOf (c :: cs) then .ok (fs, words)
    else
      match verb.flags.find? (·.letter? == some c) with
      | none => .error (.unknownLetter (c :: cs))
      | some flag =>
        match cs with
        | '=' :: v :: vs => do return (← fs.set flag (String.ofList (v :: vs)), words)
        | _ =>
          if flag.isSwitch then do
            let fs ← fs.set flag "true"
            readLetters verb fs words cs
          else
            match cs, words with
            | v :: vs, _ => do return (← fs.set flag (String.ofList (v :: vs)), words)
            | [], w :: ws => do return (← fs.set flag w, ws)
            | [], [] => .error (.letterNeedsValue (c :: cs))

def readLong (verb : Verb) (fs : Flags) (words : List String) (cs : List Char) :
    Except UsageFault (Flags × List String) :=
  let word := "--" ++ String.ofList cs
  if cs.head?.any fun c => c == '-' || c == '=' then .error (.badFlag word)
  else
    let name := String.ofList (cs.takeWhile (· != '='))
    match verb.flags.find? (·.name == name) with
    | none => .error (.unknownFlag name)
    | some flag =>
      match cs.dropWhile (· != '='), words with
      | _ :: value, _ => do return (← fs.set flag (String.ofList value), words)
      | [], [] =>
        if flag.isSwitch then do return (← fs.set flag "true", words)
        else .error (.needsValue word)
      | [], w :: ws =>
        if flag.isSwitch then do return (← fs.set flag "true", words)
        else do return (← fs.set flag w, ws)

/-- Reads all words as flags and arguments. The first argument bounds their number. -/
def readWords (verb : Verb) : Nat → Flags → List String → Except UsageFault (Flags × List String)
  | 0, fs, words => .ok (fs, words)
  | _ + 1, fs, [] => .ok (fs, [])
  | bound + 1, fs, w :: ws =>
    match w.toList with
    | ['-', '-'] => .ok (fs, ws)
    | '-' :: '-' :: cs => do
      let (fs, ws) ← readLong verb fs ws cs
      readWords verb bound fs ws
    | '-' :: c :: cs => do
      let (fs, ws) ← readLetters verb fs ws (c :: cs)
      readWords verb bound fs ws
    | _ => do
      let (fs, args) ← readWords verb bound fs ws
      return (fs, w :: args)

def readFlags (verb : Verb) (words : List String) : Except UsageFault (Flags × List String) :=
  readWords verb words.length .none words

def checkArguments (verb : Verb) (args : List String) : Except UsageFault Unit :=
  match verb, args with
  | .check, [_] => .ok ()
  | .tokens, [_] => .ok ()
  | .check, args => .error (.argumentCount args.length)
  | .tokens, args => .error (.argumentCount args.length)
  | .codes, word :: _ => .error (.unknownCommand word (programName ++ " codes"))
  | _, _ => .ok ()

end PascalCheck.Command
