import Attestation.Datum
import Attestation.Text.Word

/-!
# Key paths

A key at the root of a settings file may lead further down: `ccel.table` names a member of the table `ccel`, and
`list[2]` an item of a list, where negative numbers count from the end. A key that is no such path names itself.
-/

namespace Attestation.Settings

/-- One step of a key path. -/
inductive KeyStep where
  | member (name : String)
  | item (index : Int)
  deriving DecidableEq, Repr

/-- Whether a character may stand in a name of a key path; a space may. -/
def isNameChar (c : Char) : Bool := c.isAlphanum || c = '_' || c = '-' || c = ' '

def readName (cs : List Char) : Option (String × List Char) :=
  let name := cs.takeWhile isNameChar
  if name.isEmpty then none else some (String.ofList name, cs.drop name.length)

def skipBlanks (cs : List Char) : List Char := cs.dropWhile fun c => c = ' ' || c = '\t'

/-- A number in brackets, behind the first of them. -/
def readIndex (cs : List Char) : Option (Int × List Char) := do
  let cs := skipBlanks cs
  let (negative, cs) := match cs with
    | '-' :: cs => (true, cs)
    | cs => (false, cs)
  let ds := cs.takeWhile Char.isDigit
  if ds.isEmpty then none
  else
    let n : Int := Nat.ofDigitChars 10 ds 0
    let n := if negative then -n else n
    let rest ← Text.afterChar? ']' (skipBlanks (cs.drop ds.length))
    if -0x8000000000000000 ≤ n ∧ n < 0x8000000000000000 then some (n, rest) else none

def readSteps : (fuel : Nat) → List Char → Option (List KeyStep)
  | _, [] => some []
  | 0, _ => none
  | fuel + 1, '.' :: cs => do
    let (name, rest) ← readName cs
    return .member name :: (← readSteps fuel rest)
  | fuel + 1, '[' :: cs => do
    let (index, rest) ← readIndex cs
    return .item index :: (← readSteps fuel rest)
  | _, _ => none

def readPath (cs : List Char) : Option (List KeyStep) := do
  let (name, rest) ← readName cs
  return .member name :: (← readSteps rest.length rest)

/-- The steps that a key at the root stands for. -/
def stepsOf (key : String) : List KeyStep := (readPath key.toList).getD [.member key]

end Attestation.Settings
