import Attestation.Toml.Scalar
import Attestation.Toml.Table

/-!
# Values of TOML

A value is a string, a number, a truth value, a list or a table in one line. Lists may spread over lines and end with
a comma, tables may do neither. Of any two steps in a row at least one reads a character, so twice the length of the
text and two is fuel enough.
-/

namespace Attestation.Toml

mutual

/-- A value inside of `depth` others. -/
def readValue (depth : Nat) : (fuel : Nat) → List Char → Option (Datum × List Char)
  | 0, _ => none
  | fuel + 1, cs =>
    match cs with
    | '"' :: _ | '\'' :: _ => (readString fuel cs).map fun p => (.text p.1, p.2)
    | 't' :: _ => (Text.after? "true" cs).map (.boolean true, ·)
    | 'f' :: _ => (Text.after? "false" cs).map (.boolean false, ·)
    | '[' :: rest =>
      if depthLimit ≤ depth + 1 then none
      else
        match skipLines fuel rest with
        | ']' :: rest => some (.list [], rest)
        | rest => (readItems (depth + 1) fuel rest).map fun p => (.list p.1, p.2)
    | '\x7b' :: rest =>
      if depthLimit ≤ depth + 1 then none
      else
        match skipBlanks rest with
        | '\x7d' :: rest => some (.table [], rest)
        | rest => do
          let (pairs, rest) ← readPairs (depth + 1) fuel rest
          return (.table (← inlineMembers pairs), rest)
    | cs => readNumber cs

/-- The items of a list up to its end, of which there is at least one. -/
def readItems (depth : Nat) : (fuel : Nat) → List Char → Option (List Datum × List Char)
  | 0, _ => none
  | fuel + 1, cs =>
    match readValue depth fuel cs with
    | none => none
    | some (v, rest) =>
      match skipLines fuel rest with
      | ']' :: rest => some ([v], rest)
      | ',' :: rest =>
        match skipLines fuel rest with
        | ']' :: rest => some ([v], rest)
        | rest => (readItems depth fuel rest).map fun p => (v :: p.1, p.2)
      | _ => none

/-- The keys and values of a table up to its end, of which there is at least one. -/
def readPairs (depth : Nat) : (fuel : Nat) → List Char → Option (List (Key × Datum) × List Char)
  | 0, _ => none
  | fuel + 1, cs =>
    match readKey fuel cs with
    | none => none
    | some (key, rest) =>
      match rest with
      | '=' :: rest =>
        match readValue depth fuel (skipBlanks rest) with
        | none => none
        | some (v, rest) =>
          match skipBlanks rest with
          | '\x7d' :: rest => some ([(key, v)], rest)
          | ',' :: rest => (readPairs depth fuel rest).map fun p => ((key, v) :: p.1, p.2)
          | _ => none
      | _ => none

end

end Attestation.Toml
