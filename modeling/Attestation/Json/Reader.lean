import Attestation.Json.Number
import Attestation.Text.Hex
import Attestation.Text.Word

/-!
# Reading JSON

`Json.read?` reads one value and nothing behind it. The reading is strict: blanks are the four of the standard,
strings hold no bare control characters, their escapes come in the forms of the standard with surrogates in pairs,
and containers nest to a fixed depth. Of several members of one name the last counts.
-/

namespace Attestation.Json

/-- Whether a character may stand between the parts of a document. -/
def isBlank (c : Char) : Bool := c = ' ' || c = '\n' || c = '\t' || c = '\r'

def skipBlanks (cs : List Char) : List Char := cs.dropWhile isBlank

/-! ## Strings -/

def readUnit : List Char → Option (Nat × List Char)
  | a :: b :: c :: d :: rest => do
    let a ← Text.Hex.digitValue? a
    let b ← Text.Hex.digitValue? b
    let c ← Text.Hex.digitValue? c
    let d ← Text.Hex.digitValue? d
    some (((a * 16 + b) * 16 + c) * 16 + d, rest)
  | _ => none

/-- The character of an escape in hexadecimal digits; one beyond sixteen bits takes a pair of surrogates. -/
def readUnicode (cs : List Char) : Option (Char × List Char) := do
  let (u, rest) ← readUnit cs
  if 0xDC00 ≤ u ∧ u ≤ 0xDFFF then none
  else if 0xD800 ≤ u ∧ u ≤ 0xDBFF then
    match rest with
    | '\\' :: 'u' :: rest =>
      let (v, rest) ← readUnit rest
      if 0xDC00 ≤ v ∧ v ≤ 0xDFFF then some (Char.ofNat (0x10000 + (u - 0xD800) * 0x400 + (v - 0xDC00)), rest)
      else none
    | _ => none
  else some (Char.ofNat u, rest)

/-- The character of an escape, behind its backslash. -/
def readEscape : List Char → Option (Char × List Char)
  | '"' :: rest => some ('"', rest)
  | '\\' :: rest => some ('\\', rest)
  | '/' :: rest => some ('/', rest)
  | 'b' :: rest => some ('\x08', rest)
  | 'f' :: rest => some ('\x0c', rest)
  | 'n' :: rest => some ('\n', rest)
  | 'r' :: rest => some ('\r', rest)
  | 't' :: rest => some ('\t', rest)
  | 'u' :: rest => readUnicode rest
  | _ => none

/-- The characters up to the closing quote, with those read before in reverse. -/
def readStringOnto : (fuel : Nat) → (acc : List Char) → List Char → Option (String × List Char)
  | 0, _, _ => none
  | _, _, [] => none
  | fuel + 1, acc, c :: rest =>
    if c = '"' then some (String.ofList acc.reverse, rest)
    else if c = '\\' then
      match readEscape rest with
      | some (d, rest) => readStringOnto fuel (d :: acc) rest
      | none => none
    else if c.toNat < 32 then none
    else readStringOnto fuel (c :: acc) rest

def readString (fuel : Nat) (cs : List Char) : Option (String × List Char) := readStringOnto fuel [] cs

/-! ## Values -/

/-- The number of containers that must not be reached by nesting. -/
def depthLimit : Nat := 128

mutual

/-- A value, with `depth` levels of nesting left. -/
def readValue (depth : Nat) : (fuel : Nat) → List Char → Option (Datum × List Char)
  | 0, _ => none
  | fuel + 1, cs =>
    match cs with
    | 'n' :: _ => (Text.after? "null" cs).map (.null, ·)
    | 't' :: _ => (Text.after? "true" cs).map (.boolean true, ·)
    | 'f' :: _ => (Text.after? "false" cs).map (.boolean false, ·)
    | '"' :: rest => (readString fuel rest).map fun p => (.text p.1, p.2)
    | '[' :: rest =>
      if depth ≤ 1 then none
      else
        match skipBlanks rest with
        | ']' :: rest => some (.list [], rest)
        | rest => (readItems (depth - 1) fuel rest).map fun p => (.list p.1, p.2)
    | '{' :: rest =>
      if depth ≤ 1 then none
      else
        match skipBlanks rest with
        | '}' :: rest => some (.table [], rest)
        | rest => (readMembers (depth - 1) fuel [] rest).map fun p => (.table p.1, p.2)
    | cs => readNumber cs

/-- The items of a list up to its end, of which there is at least one. -/
def readItems (depth : Nat) : (fuel : Nat) → List Char → Option (List Datum × List Char)
  | 0, _ => none
  | fuel + 1, cs =>
    match readValue depth fuel cs with
    | none => none
    | some (v, rest) =>
      match skipBlanks rest with
      | ']' :: rest => some ([v], rest)
      | ',' :: rest => (readItems depth fuel (skipBlanks rest)).map fun p => (v :: p.1, p.2)
      | _ => none

/-- The members of a table up to its end, behind those read before. -/
def readMembers (depth : Nat) : (fuel : Nat) → (acc : Members) → List Char → Option (Members × List Char)
  | 0, _, _ => none
  | fuel + 1, acc, cs =>
    match cs with
    | '"' :: cs =>
      match readString fuel cs with
      | none => none
      | some (name, rest) =>
        match skipBlanks rest with
        | ':' :: rest =>
          match readValue depth fuel (skipBlanks rest) with
          | none => none
          | some (v, rest) =>
            match skipBlanks rest with
            | '}' :: rest => some (acc.put name v, rest)
            | ',' :: rest => readMembers depth fuel (acc.put name v) (skipBlanks rest)
            | _ => none
        | _ => none
    | _ => none

end

/-- The value that a text writes, with blanks around it. Of any two steps in a row at least one reads a character, so
the fuel is enough. -/
def read? (text : String) : Option Datum :=
  let cs := skipBlanks text.toList
  match readValue depthLimit (2 * cs.length + 2) cs with
  | some (v, rest) => if (skipBlanks rest).isEmpty then some v else none
  | none => none

end Attestation.Json
