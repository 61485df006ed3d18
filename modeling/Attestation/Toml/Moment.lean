import Attestation.Datum
import Attestation.Text.Word

/-!
# Moments of TOML

A moment is a date, a time, or both with maybe an offset. It is checked against the calendar and stands for its normal
text. While a document is read, a moment is a table whose first member has a reserved name. A document may also spell
such a table out, which then stands for a moment no less. In the end `resolve` puts text in the place of all of them.
-/

namespace Attestation.Toml

/-! ## Reading -/

/-- A number of exactly so many decimal digits. -/
def readFixed (width : Nat) (cs : List Char) : Option (Nat × List Char) :=
  let ds := cs.take width
  if ds.length = width ∧ ds.all Char.isDigit then some (Nat.ofDigitChars 10 ds 0, cs.drop width) else none

/-- The number in at least so many digits. -/
def padded (width n : Nat) : String :=
  let ds := Nat.toDigits 10 n
  String.ofList (List.replicate (width - ds.length) '0' ++ ds)

def daysOf (year month : Nat) : Nat :=
  if month = 2 then if year % 4 = 0 ∧ (year % 100 ≠ 0 ∨ year % 400 = 0) then 29 else 28
  else if month = 4 ∨ month = 6 ∨ month = 9 ∨ month = 11 then 30
  else 31

def readDate (cs : List Char) : Option (String × List Char) := do
  let (year, cs) ← readFixed 4 cs
  let cs ← Text.afterChar? '-' cs
  let (month, cs) ← readFixed 2 cs
  let cs ← Text.afterChar? '-' cs
  let (day, cs) ← readFixed 2 cs
  if 1 ≤ month ∧ month ≤ 12 ∧ 1 ≤ day ∧ day ≤ daysOf year month then
    some (padded 4 year ++ "-" ++ padded 2 month ++ "-" ++ padded 2 day, cs)
  else none

def readHourMinute (cs : List Char) : Option (Nat × Nat × List Char) := do
  let (hour, cs) ← readFixed 2 cs
  let cs ← Text.afterChar? ':' cs
  let (minute, cs) ← readFixed 2 cs
  if hour ≤ 23 ∧ minute ≤ 59 then some (hour, minute, cs) else none

/-- A fraction of a second, cut to nanoseconds, without zeros at its end. -/
def readFraction : List Char → String × List Char
  | '.' :: cs =>
    let ds := cs.takeWhile Char.isDigit
    let kept := ((ds.take 9).reverse.dropWhile (· = '0')).reverse
    if ds.isEmpty then ("", '.' :: cs)
    else (if kept.isEmpty then "" else String.ofList ('.' :: kept), cs.drop ds.length)
  | cs => ("", cs)

/-- A time of day, in which a minute may have a leap second. -/
def readTime (cs : List Char) : Option (String × List Char) := do
  let (hour, minute, cs) ← readHourMinute cs
  let cs ← Text.afterChar? ':' cs
  let (second, cs) ← readFixed 2 cs
  if second ≤ 60 then
    let (fraction, cs) := readFraction cs
    some (padded 2 hour ++ ":" ++ padded 2 minute ++ ":" ++ padded 2 second ++ fraction, cs)
  else none

/-- The offset of a time from universal time, if one is given. -/
def readOffset : List Char → Option (String × List Char)
  | 'Z' :: cs | 'z' :: cs => some ("Z", cs)
  | '+' :: cs => (readHourMinute cs).map fun (h, m, rest) => ("+" ++ padded 2 h ++ ":" ++ padded 2 m, rest)
  | '-' :: cs => (readHourMinute cs).map fun (h, m, rest) =>
    ((if h = 0 ∧ m = 0 then "+" else "-") ++ padded 2 h ++ ":" ++ padded 2 m, rest)
  | cs => some ("", cs)

/-- A date, a time, or a date with a time and maybe an offset. -/
def readMoment (cs : List Char) : Option (String × List Char) :=
  match readDate cs with
  | none => readTime cs
  | some (date, rest) =>
    match rest with
    | c :: after =>
      if c = 'T' ∨ c = 't' ∨ c = ' ' then
        match readTime after with
        | none => some (date, rest)
        | some (time, rest) => (readOffset rest).map fun (offset, rest) => (date ++ "T" ++ time ++ offset, rest)
      else some (date, rest)
    | [] => some (date, rest)

/-! ## Tables that stand for moments -/

/-- The name of the first member of a table that stands for a moment. -/
def momentName : String := "$__toml_private_datetime"

/-- The table that stands for the moment of this text. -/
def momentTable (text : String) : Datum := .table [(momentName, .text text)]

/-- Whether a table with these members stands for a moment. -/
def isMoment (ms : Members) : Bool := ms.head?.any fun m => m.1 = momentName

/-- The normal text of the moment in the first member; what comes behind that is ignored. -/
def momentText? : Members → Option String
  | (_, .text s) :: _ =>
    match readMoment s.toList with
    | some (normal, []) => some normal
    | _ => none
  | _ => none

mutual

/-- A value in which text has taken the place of each table that stands for a moment. -/
def resolve : Datum → Option Datum
  | .list items => (resolveItems items).map .list
  | .table ms => if isMoment ms then (momentText? ms).map .text else (resolveMembers ms).map .table
  | v => some v

def resolveItems : List Datum → Option (List Datum)
  | [] => some []
  | v :: rest => do return (← resolve v) :: (← resolveItems rest)

def resolveMembers : List (String × Datum) → Option Members
  | [] => some []
  | (name, v) :: rest => do return (name, ← resolve v) :: (← resolveMembers rest)

end

end Attestation.Toml
