import Attestation.Text.Word

/-!
# Arguments of a command

A command declares the arguments that it takes, and `scan` reads the words of a command line from left to right until
a subcommand begins. The first word that does not fit ends the scan, as does a request for help or for the version.

* The value of a long argument follows after `=` or as the next word, that of a short one also directly.
* A word that begins with a dash is never the value of the word before it, unless it is a single dash.
* A value in a word of its own is looked at when the next argument or the end comes.
* No argument may be given twice, and no word may stand alone. Behind two dashes nothing may follow.
-/

namespace Attestation.CommandLine

/-- What an argument is given for. -/
inductive ArgumentKind where
  /-- A value, which has to pass a check. -/
  | value (check : String → Bool)
  /-- Something to be done that is off by default. -/
  | switch
  | help
  | version

/-- An argument of a command. -/
structure Argument where
  long : String
  short : Option Char
  kind : ArgumentKind

/-- Why a command line is not carried out. -/
inductive Stop where
  /-- The arguments are refused. -/
  | refused
  /-- The usage was asked for. -/
  | help
  /-- The version was asked for. -/
  | version
  deriving DecidableEq, Repr

/-- The arguments read so far. -/
structure Scan where
  /-- Each argument with its value, which is empty for a switch. -/
  given : List (String × String)
  /-- The last argument if its value stands in a word of its own, and that word once it was read. -/
  pending : Option (Argument × Option String)

namespace Scan

def start : Scan := ⟨[], none⟩

def value? (s : Scan) (long : String) : Option String := (s.given.find? fun g => g.1 = long).map (·.2)

def awaitsValue (s : Scan) : Bool :=
  match s.pending with
  | some (_, none) => true
  | _ => false

def add (s : Scan) (argument : Argument) (value : String) : Except Stop Scan :=
  let fits := match argument.kind with
    | .value check => check value
    | _ => true
  if (s.value? argument.long).isSome || !fits then .error .refused
  else .ok { s with given := s.given ++ [(argument.long, value)] }

def settle (s : Scan) : Except Stop Scan :=
  match s.pending with
  | none => .ok s
  | some (_, none) => .error .refused
  | some (argument, some value) => ({ s with pending := none } : Scan).add argument value

def act (s : Scan) (argument : Argument) : Except Stop Scan := do
  let s ← s.settle
  match argument.kind with
  | .help => throw .help
  | .version => throw .version
  | .switch | .value _ => s.add argument ""

/-- Begins an argument whose value, if not attached, is the next word. -/
def begin (s : Scan) (argument : Argument) (attached? : Option String) : Except Stop Scan := do
  let s ← s.settle
  match attached? with
  | some value => s.add argument value
  | none => return { s with pending := some (argument, none) }

/-! ## Words -/

def long (arguments : List Argument) (s : Scan) (name : String) (attached? : Option String) : Except Stop Scan :=
  match arguments.find? (·.long = name) with
  | none => .error .refused
  | some argument =>
    match argument.kind, attached? with
    | .value _, _ => s.begin argument attached?
    | _, none => s.act argument
    | _, some _ => .error .refused

/-- The letters of a word that begins with one dash. -/
def short (arguments : List Argument) : (s : Scan) → List Char → Except Stop Scan
  | s, [] => .ok s
  | s, c :: cs =>
    match arguments.find? (·.short = some c) with
    | none => .error .refused
    | some argument =>
      match argument.kind with
      | .value _ =>
        match cs with
        | [] => s.begin argument none
        | '=' :: value => s.begin argument (some (String.ofList value))
        | value => s.begin argument (some (String.ofList value))
      | _ => (s.act argument).bind fun s => short arguments s cs

/-- A word that is neither a subcommand nor two dashes. -/
def word (arguments : List Argument) (s : Scan) (word : String) : Except Stop Scan :=
  match word.toList with
  | '-' :: '-' :: cs =>
    let name := cs.takeWhile (· ≠ '=')
    let attached? := match cs.drop name.length with
      | [] => none
      | _ :: value => some (String.ofList value)
    s.long arguments (String.ofList name) attached?
  | '-' :: c :: cs => s.short arguments (c :: cs)
  | _ =>
    match s.pending with
    | some (argument, none) => .ok { s with pending := some (argument, some word) }
    | _ => .error .refused

end Scan

/-- Reads words up to the first that names a subcommand; gives it with the words behind it. -/
def scan (arguments : List Argument) (subcommands : List String) :
    (s : Scan) → (words : List String) → Except Stop (Scan × Option (String × List String))
  | s, [] => .ok (s, none)
  | s, w :: ws =>
    if !s.awaitsValue && subcommands.contains w then .ok (s, some (w, ws))
    else if w = "--" then if ws.isEmpty then .ok (s, none) else .error .refused
    else
      match s.word arguments w with
      | .ok s => scan arguments subcommands s ws
      | .error stop => .error stop

end Attestation.CommandLine
