import Attestation.CommandLine.Arguments
import Attestation.Service.Request

/-!
# Invocations

What can be asked for on the command line: an event log document, a report, or a register of one kind or another.
`Invocation.parse` gives the meaning of the words of a command line.
-/

namespace Attestation.CommandLine

/-- What to get. -/
inductive Operation where
  | eventLog (category : EventLogCategory) (start count : Int)
  /-- `decoded` asks for the fields of the report. -/
  | report (reportData : String) (decoded : Bool)
  | register (index : Int) (reportData : String)
  | tpm (index : Int)
  deriving DecidableEq, Repr

/-- What to get, with the settings file that was named. -/
structure Invocation where
  settingsPath? : Option String
  operation : Operation
  deriving DecidableEq, Repr

/-! ## Values -/

/-- A signed 32-bit number in decimal digits. -/
def number? (text : String) : Option Int :=
  let (negative, ds) := match text.toList with
    | '+' :: ds => (false, ds)
    | '-' :: ds => (true, ds)
    | ds => (false, ds)
  if ds.isEmpty || !ds.all Char.isDigit then none
  else
    let n : Int := Nat.ofDigitChars 10 ds 0
    let n := if negative then -n else n
    if -0x80000000 ≤ n ∧ n < 0x80000000 then some n else none

def category? : String → Option EventLogCategory
  | "tdx" => some .tdx
  | "tpm" => some .tpm
  | _ => none

/-! ## Arguments -/

def textArgument (long : String) (short : Char) : Argument := ⟨long, some short, .value fun _ => true⟩

def numberArgument (long : String) (short : Char) : Argument :=
  ⟨long, some short, .value fun v => (number? v).isSome⟩

def helpArgument : Argument := ⟨"help", some 'h', .help⟩

def globalArguments : List Argument :=
  [textArgument "config" 'c', helpArgument, ⟨"version", some 'V', .version⟩]

def eventLogArguments : List Argument :=
  [⟨"category", none, .value fun v => (category? v).isSome⟩, numberArgument "start" 's', numberArgument "count" 'c',
    helpArgument]

def reportArguments : List Argument := [textArgument "data" 'd', ⟨"decode", none, .switch⟩, helpArgument]

def registerArguments : List Argument := [numberArgument "index" 'i', textArgument "data" 'd', helpArgument]

/-- The arguments of a request for a register of the TPM. -/
def tpmArguments : List Argument := [numberArgument "index" 'i', helpArgument]

/-! ## Commands -/

def subcommands : List String := ["eventlog", "report", "rtmr", "tpm", "help"]

def scanAll (arguments : List Argument) (words : List String) : Except Stop Scan := do
  let (s, _) ← scan arguments [] .start words
  s.settle

def numberOf? (s : Scan) (long : String) : Option Int := (s.value? long).bind number?

/-- The operation of a subcommand with the words behind it. An argument without a default has to be there. -/
def operationOf (subcommand : String) (words : List String) : Except Stop Operation := do
  match subcommand with
  | "eventlog" =>
    let s ← scanAll eventLogArguments words
    return .eventLog (((s.value? "category").bind category?).getD .tdx) ((numberOf? s "start").getD 0)
      ((numberOf? s "count").getD 0)
  | "report" =>
    let s ← scanAll reportArguments words
    return .report ((s.value? "data").getD "") (s.value? "decode").isSome
  | "rtmr" =>
    let s ← scanAll registerArguments words
    match numberOf? s "index" with
    | some index => return .register index ((s.value? "data").getD "")
    | none => throw .refused
  | "tpm" =>
    let s ← scanAll tpmArguments words
    match numberOf? s "index" with
    | some index => return .tpm index
    | none => throw .refused
  -- Help on a subcommand, of which at most one may be named.
  | "help" => throw (match words with
    | [] => .help
    | [word] => if subcommands.contains word then .help else .refused
    | _ => .refused)
  | _ => throw .refused

def Invocation.parse (words : List String) : Except Stop Invocation := do
  let (s, subcommand?) ← scan globalArguments subcommands .start words
  match subcommand? with
  | none => throw .refused
  | some (subcommand, rest) =>
    let operation ← operationOf subcommand rest
    -- Only now a value that stood before the subcommand is looked at.
    let s ← s.settle
    return { settingsPath? := s.value? "config", operation }

end Attestation.CommandLine
