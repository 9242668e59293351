import LdpScore.Analysis.Value

/-!
# Score options

Each known option has one type of value.  An option that is declared again
replaces the value it had, and an option under an old name counts as the one that
took its place.
-/

namespace LdpScore

/-- The types of option value. -/
inductive OptionType where
  | bool
  | long
  | float
deriving DecidableEq, Repr, Inhabited

namespace OptionType

def boolOptions : List String :=
  ["Score.FillPageWithEmptyStaves", "Score.JustifyFinalBarline", "StaffLines.StopAtFinalBarline",
   "StaffLines.Hide", "Staff.DrawLeftBarline"]

def longOptions : List String :=
  ["Render.SpacingMethod", "Render.SpacingOptions", "Render.SpacingValue",
   "Score.JustifyLastSystem", "Staff.UpperLegerLines.Displacement", "StaffLines.Truncate"]

def floatOptions : List String :=
  ["Render.SpacingFactor", "Render.SpacingFopt"]

/-- The type of the option with a given name. -/
def ofName? (name : String) : Option OptionType :=
  if boolOptions.contains name then some .bool
  else if longOptions.contains name then some .long
  else if floatOptions.contains name then some .float
  else none

def read? (type : OptionType) (text : String) : Option OptionValue :=
  match type with
  | .bool =>
      match text with
      | "true" | "yes" => some (.bool true)
      | "false" | "no" => some (.bool false)
      | _ => none
  | .long => (Decimal.leadingInteger? text.toList).map .long
  | .float => (Decimal.leadingReal? text.toList).map .float

end OptionType

/-- The option that took the place of an old one. -/
def OptionValue.successor? : String → Option String
  | "Score.JustifyFinalBarline" => some "Score.JustifyLastSystem"
  | "StaffLines.StopAtFinalBarline" => some "StaffLines.Truncate"
  | _ => none

/-- An option under its current name.  The old options are truth values; the new
ones are one or zero. -/
def OptionValue.modernize (name : String) (value : OptionValue) : String × OptionValue :=
  match successor? name with
  | some successor => (successor, if value = .bool true then .long 1 else .long 0)
  | none => (name, value)

namespace Analyser

def optionValueNode? : List Node → Option (Node × List Node)
  | [] => none
  | child :: rest =>
      if child.is .label || child.is .number || child.is .string then some (child, rest) else none

/-- Reads the name of an option and its value, and reports what is wrong with
them. -/
def readOption (node : Node) : Analyser (Option (String × OptionValue)) := do
  let (label, rest) ← mandatory node .label node.children
  let name := (label.map Node.text).getD ""
  match optionValueNode? rest with
  | none =>
      report node.location (.missingOptionValue name)
      return none
  | some (valueNode, rest) =>
      match OptionType.ofName? name with
      | none =>
          report valueNode.location (.unknownOption name)
          return none
      | some type =>
          match type.read? valueNode.text with
          | none =>
              report valueNode.location (.invalidOptionValue name)
              return none
          | some value =>
              reportExtra node rest
              return some (OptionValue.modernize name value)

/-- An option of a score; nothing if it is unknown or its value cannot be read. -/
def analyseOption (node : Node) (anchor : Option Handle) : Analyser (Option Handle) := do
  match ← readOption node with
  | none => return none
  | some (name, value) =>
      let current ← model
      match anchor.bind fun score => current.optionHandle? score name with
      | some option =>
          modifyModel fun model => model.modifyContent option fun _ => .scoreOption name value
          return some option
      | none => return some (← addObject node anchor (.scoreOption name value))

end Analyser

end LdpScore
