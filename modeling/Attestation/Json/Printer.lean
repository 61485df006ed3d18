import Attestation.Datum

/-!
# Writing JSON

`Json.compact` writes a value without any blank; `Json.indented` puts each item and member on a line of its own,
indented by two blanks a level, with a blank after each colon. Members keep their order. In strings only quotes,
backslashes and control characters are escaped.
-/

namespace Attestation.Json

/-! ## Scalars -/

/-- A control character as four hexadecimal digits. -/
def unicodeEscape (c : Char) : List Char :=
  ['\\', 'u', '0', '0', Nat.digitChar (c.toNat / 16), Nat.digitChar (c.toNat % 16)]

def escapeChar (c : Char) : List Char :=
  if c = '"' then ['\\', '"']
  else if c = '\\' then ['\\', '\\']
  else if c = '\x08' then ['\\', 'b']
  else if c = '\x0c' then ['\\', 'f']
  else if c = '\n' then ['\\', 'n']
  else if c = '\r' then ['\\', 'r']
  else if c = '\t' then ['\\', 't']
  else if c.toNat < 32 then unicodeEscape c
  else [c]

def quoted (s : String) : List Char := '"' :: s.toList.flatMap escapeChar ++ ['"']

/-- A number in decimal digits, with a minus sign if it is negative. -/
def decimal : Int → List Char
  | .ofNat n => Nat.toDigits 10 n
  | .negSucc n => '-' :: Nat.toDigits 10 (n + 1)

/-- A number that JSON can write; others stand as `null`. -/
def number (x : Binary64) : List Char :=
  match x with
  | .finite .. => x.decimalText.toList
  | _ => "null".toList

/-! ## Without blanks -/

mutual

def compact : Datum → List Char
  | .null => "null".toList
  | .boolean b => (if b then "true" else "false").toList
  | .integer n => decimal n
  | .real x => number x
  | .text s => quoted s
  | .list items => '[' :: compactItems items ++ [']']
  | .table members => '{' :: compactMembers members ++ ['}']

def compactItems : List Datum → List Char
  | [] => []
  | [v] => compact v
  | v :: w :: rest => compact v ++ ',' :: compactItems (w :: rest)

/-- The members of a table, with commas between them. -/
def compactMembers : List (String × Datum) → List Char
  | [] => []
  | [(name, v)] => quoted name ++ ':' :: compact v
  | (name, v) :: m :: rest => quoted name ++ ':' :: compact v ++ ',' :: compactMembers (m :: rest)

end

/-! ## With line breaks -/

def newline (level : Nat) : List Char := '\n' :: List.replicate (2 * level) ' '

mutual

/-- A value whose first line is already indented to `level`. -/
def indentedAt (level : Nat) : Datum → List Char
  | .list [] => ['[', ']']
  | .list (v :: rest) => '[' :: indentedItems (level + 1) (v :: rest) ++ newline level ++ [']']
  | .table [] => ['{', '}']
  | .table (m :: rest) => '{' :: indentedMembers (level + 1) (m :: rest) ++ newline level ++ ['}']
  | v => compact v

def indentedItems (level : Nat) : List Datum → List Char
  | [] => []
  | [v] => newline level ++ indentedAt level v
  | v :: w :: rest => newline level ++ indentedAt level v ++ ',' :: indentedItems level (w :: rest)

def indentedMembers (level : Nat) : List (String × Datum) → List Char
  | [] => []
  | [(name, v)] => newline level ++ quoted name ++ ':' :: ' ' :: indentedAt level v
  | (name, v) :: m :: rest =>
    newline level ++ quoted name ++ ':' :: ' ' :: indentedAt level v ++ ',' :: indentedMembers level (m :: rest)

end

def indented (v : Datum) : List Char := indentedAt 0 v

/-! ## Texts -/

def compactText (v : Datum) : String := String.ofList (compact v)

def indentedText (v : Datum) : String := String.ofList (indented v)

end Attestation.Json
