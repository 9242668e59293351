import LdpScore.Analysis.State
import LdpScore.Decimal.Binary

/-!
# Values of leaves

Each function here reads one kind of value from the text of a node.  A value that
cannot be read is reported once and replaced by a default.
-/

namespace LdpScore.Analyser

/-- Integers from a least to a greatest one. -/
structure Interval where
  least : Int
  greatest : Int
deriving DecidableEq, Repr

/-- Signed integers of 32 bits: correlation numbers and voices. -/
def signedInterval : Interval := ⟨-0x80000000, 0x7fffffff⟩

/-- Unsigned integers of 32 bits: counts. -/
def countInterval : Interval := ⟨0, 0xffffffff⟩

/-- The integer at the front of a text, if it lies in an interval. -/
def Interval.read? (interval : Interval) (text : String) : Option Int :=
  match Decimal.leadingInteger? text.toList with
  | some number =>
      if interval.least ≤ number ∧ number ≤ interval.greatest then some number else none
  | none => none

def integerValue (node : Node) (default : Int) : Analyser Int := do
  match Decimal.leadingInteger? node.text.toList with
  | some number => return number
  | none =>
      report node.location (.invalidInteger node.text default)
      return default

def boundedValue (interval : Interval) (node : Node) (default : Int) : Analyser Int := do
  match interval.read? node.text with
  | some number => return number
  | none =>
      report node.location (.invalidInteger node.text default)
      return default

def numberValue (node : Node) (default : Int) : Analyser Int :=
  boundedValue signedInterval node default

def countValue (node : Node) (default : Nat) : Analyser Nat := do
  let count ← boundedValue countInterval node default
  return count.toNat

/-- A real number; zero if it cannot be read. -/
def realValue (node : Node) : Analyser Float32 := do
  match Decimal.leadingReal? node.text.toList with
  | some number => return number
  | none =>
      report node.location (.invalidReal node.text)
      return 0

def boolValue (node : Node) (default : Bool) : Analyser Bool := do
  match node.text with
  | "true" | "yes" => return true
  | "false" | "no" => return false
  | value =>
      report node.location (.invalidBoolean value default)
      return default

/-- A choice of yes and no; left open if it cannot be read. -/
def yesNoValue (node : Node) : Analyser YesNo := do
  match node.text with
  | "yes" => return .yes
  | "no" => return .no
  | value =>
      report node.location (.invalidYesNo value)
      return .default

def placementValue (node : Node) (fallback : Placement) : Analyser Placement := do
  match node.text with
  | "above" => return .above
  | "below" => return .below
  | value =>
      let replacement := match fallback with
        | .above => "above"
        | _ => "below"
      report node.location (.unknownPlacement value replacement)
      return fallback

/-- An alignment; centered if it cannot be read. -/
def alignmentValue (node : Node) : Analyser Alignment := do
  match Alignment.ofName? node.text with
  | some alignment => return alignment
  | none =>
      report node.location (.invalidAlignment node.text)
      return .center

/-- A note value; a quarter if it cannot be read. -/
def noteValue (node : Node) : Analyser NoteValue := do
  match NoteValue.ofText? node.text.toList with
  | some value => return value
  | none =>
      report node.location (.unknownNoteValue node.text)
      return ⟨.quarter, 0⟩

/-- The text after the letter of a label.  A letter takes one byte; nothing comes after
a first character that takes more. -/
def afterFirst (text : String) : String :=
  match text.toList with
  | letter :: rest => if letter.utf8Size = 1 then String.ofList rest else ""
  | [] => ""

/-- A staff number from one, as a staff counted from zero. -/
def staff? (text : String) : Option Nat :=
  match Decimal.leadingInteger? text.toList with
  | some number => if 1 ≤ number then some (number - 1).toNat else none
  | none => none

/-- Reads a label such as `p2` and makes its staff the current one. -/
def staffLabel (node : Node) : Analyser Unit := do
  let value := afterFirst node.text
  match staff? value with
  | some staff => modifyContext fun context => { context with staff := staff }
  | none =>
      report node.location (.invalidStaffLabel value)
      modifyContext fun context => { context with staff := 0 }

/-- Reads a label such as `v2` and makes its voice the current one. -/
def voiceLabel (node : Node) : Analyser Unit := do
  let value := afterFirst node.text
  match signedInterval.read? value with
  | some voice => modifyContext fun context => { context with voice := voice }
  | none =>
      report node.location (.invalidVoiceLabel value)
      modifyContext fun context => { context with voice := 1 }

/-- The first child of a property, reported missing if there is none. -/
def propertyValue (property : Node) (kind : ElementKind) : Analyser (Option Node) := do
  let value := property.children.head?
  if value.isNone then
    reportMissing property kind
  return value

/-- The text of the first child of an element. -/
def firstText (node : Node) : String :=
  (node.children.head?.map Node.text).getD ""

end LdpScore.Analyser
