import Attestation.Text.Hex

/-!
# The lexical parts of TOML

Each reader takes what it reads from the front of a text and gives the rest, or nothing where the text does not begin
with it: blanks, line ends, comments, the four kinds of strings, and keys. A reader that goes on for as long as it finds
something is given fuel, for which any number above the length of the text is enough.
-/

namespace Attestation.Toml

/-! ## Between the parts -/

/-- Whether a character is a blank within a line. -/
def isBlank (c : Char) : Bool := c = ' ' || c = '\t'

def skipBlanks (cs : List Char) : List Char := cs.dropWhile isBlank

def readNewline : List Char → Option (List Char)
  | '\n' :: cs => some cs
  | '\r' :: '\n' :: cs => some cs
  | _ => none

/-- What follows the end of a line, which the end of the text is too. -/
def readLineEnd : List Char → Option (List Char)
  | [] => some []
  | cs => readNewline cs

/-- Whether a character may stand in a comment or, but for its delimiter, in a string. -/
def isPlain (c : Char) : Bool := c = '\t' || (32 ≤ c.toNat && c.toNat ≠ 127)

def skipComment : List Char → List Char
  | '#' :: cs => cs.dropWhile isPlain
  | cs => cs

def finishLine (cs : List Char) : Option (List Char) := readLineEnd (skipComment (skipBlanks cs))

/-- What follows blanks, comments and line breaks. A comment without a line break is left. -/
def skipLines : (fuel : Nat) → List Char → List Char
  | 0, cs => cs
  | fuel + 1, cs =>
    match readNewline (skipComment (skipBlanks cs)) with
    | some rest => skipLines fuel rest
    | none => skipBlanks cs

/-! ## Strings -/

/-- A character from the value of so many hexadecimal digits. -/
def readCodePoint (width : Nat) (cs : List Char) : Option (Char × List Char) := do
  let ds ← (cs.take width).mapM Text.Hex.digitValue?
  let n := ds.foldl (fun n d => 16 * n + d) 0
  if ds.length = width ∧ n.isValidChar then some (Char.ofNat n, cs.drop width) else none

/-- The character of an escape, behind its backslash. -/
def readEscape : List Char → Option (Char × List Char)
  | 'b' :: cs => some ('\x08', cs)
  | 't' :: cs => some ('\t', cs)
  | 'n' :: cs => some ('\n', cs)
  | 'f' :: cs => some ('\x0c', cs)
  | 'r' :: cs => some ('\r', cs)
  | '"' :: cs => some ('"', cs)
  | '\\' :: cs => some ('\\', cs)
  | 'u' :: cs => readCodePoint 4 cs
  | 'U' :: cs => readCodePoint 8 cs
  | _ => none

/-- A string in one line up to its delimiter; only between double quotes a backslash escapes. -/
def readLine (quote : Char) : (fuel : Nat) → (acc : List Char) → List Char → Option (String × List Char)
  | 0, _, _ => none
  | _, _, [] => none
  | fuel + 1, acc, c :: cs =>
    if c = quote then some (String.ofList acc.reverse, cs)
    else if quote = '"' ∧ c = '\\' then
      match readEscape cs with
      | some (d, rest) => readLine quote fuel (d :: acc) rest
      | none => none
    else if isPlain c then readLine quote fuel (c :: acc) cs
    else none

def skipWhite : List Char → List Char
  | ' ' :: cs => skipWhite cs
  | '\t' :: cs => skipWhite cs
  | '\n' :: cs => skipWhite cs
  | '\r' :: '\n' :: cs => skipWhite cs
  | cs => cs

/-- What follows a backslash that ends a line, with all blanks and line breaks behind it. -/
def skipContinuation (cs : List Char) : Option (List Char) := (readNewline (skipBlanks cs)).map skipWhite

/-- A string over several lines up to three delimiters. Up to two more in front of those belong to the string, as do
one or two that stand alone; line breaks are read as line feeds. -/
def readLinesOnto (quote : Char) : (fuel : Nat) → (acc : List Char) → List Char → Option (String × List Char)
  | 0, _, _ => none
  | _, _, [] => none
  | fuel + 1, acc, c :: cs =>
    if c = quote then
      let run := (c :: cs).takeWhile (· = quote)
      let rest := (c :: cs).drop run.length
      if run.length < 3 then readLinesOnto quote fuel (run ++ acc) rest
      else
        let inside := min (run.length - 3) 2
        some (String.ofList (List.replicate inside quote ++ acc).reverse, (c :: cs).drop (inside + 3))
    else if quote = '"' ∧ c = '\\' then
      match skipContinuation cs with
      | some rest => readLinesOnto quote fuel acc rest
      | none =>
        match readEscape cs with
        | some (d, rest) => readLinesOnto quote fuel (d :: acc) rest
        | none => none
    else
      match readNewline (c :: cs) with
      | some rest => readLinesOnto quote fuel ('\n' :: acc) rest
      | none => if isPlain c then readLinesOnto quote fuel (c :: acc) cs else none

/-- A string over several lines, behind its three delimiters; a line break at its beginning is no part of it. -/
def readLines (quote : Char) (fuel : Nat) (cs : List Char) : Option (String × List Char) :=
  readLinesOnto quote fuel [] ((readNewline cs).getD cs)

def readString (fuel : Nat) : List Char → Option (String × List Char)
  | '"' :: '"' :: '"' :: cs => readLines '"' fuel cs
  | '\'' :: '\'' :: '\'' :: cs => readLines '\'' fuel cs
  | '"' :: cs => readLine '"' fuel [] cs
  | '\'' :: cs => readLine '\'' fuel [] cs
  | _ => none

/-! ## Keys -/

/-- Whether a character may stand in a key without quotes. -/
def isBare (c : Char) : Bool := c.isAlphanum || c = '_' || c = '-'

def readKeyPart (fuel : Nat) : List Char → Option (String × List Char)
  | '"' :: cs => readLine '"' fuel [] cs
  | '\'' :: cs => readLine '\'' fuel [] cs
  | cs =>
    let bare := cs.takeWhile isBare
    if bare.isEmpty then none else some (String.ofList bare, cs.drop bare.length)

/-- The number of parts from which on a key is refused, and the depth from which on nesting is. -/
def depthLimit : Nat := 80

/-- The parts of a key, separated by dots, with the blanks around them, of which there are at most `room`. -/
def readKeyParts (fuel : Nat) : (room : Nat) → List Char → Option (List String × List Char)
  | 0, _ => none
  | room + 1, cs =>
    match readKeyPart fuel (skipBlanks cs) with
    | none => none
    | some (part, rest) =>
      match skipBlanks rest with
      | '.' :: rest => (readKeyParts fuel room rest).map fun p => (part :: p.1, p.2)
      | rest => some ([part], rest)

/-- A key: the tables that it leads through, and the name in the last of them. -/
structure Key where
  path : List String
  name : String

def readKey (fuel : Nat) (cs : List Char) : Option (Key × List Char) :=
  match readKeyParts fuel (depthLimit - 1) cs with
  | none => none
  | some (parts, rest) =>
    match parts.reverse with
    | [] => none
    | name :: above => some (⟨above.reverse, name⟩, rest)

end Attestation.Toml
