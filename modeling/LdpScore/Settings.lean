import LdpScore.Settings.Lines

/-!
# Settings

What a user can choose once and for all in a settings file: whether problems count
as failures, how much is shown, and how it looks.
-/

namespace LdpScore

/-- When output is colored. -/
inductive ColorChoice where
  | auto
  | always
  | never
deriving DecidableEq, Repr, Inhabited

/-- The choice of colors with a given name. -/
def ColorChoice.ofName? : String → Option ColorChoice
  | "auto" => some .auto
  | "always" => some .always
  | "never" => some .never
  | _ => none

/-- With which characters arrows are drawn. -/
inductive ArrowStyle where
  | unicode
  | ascii
deriving DecidableEq, Repr, Inhabited

namespace ArrowStyle

def ofName? : String → Option ArrowStyle
  | "unicode" => some .unicode
  | "ascii" => some .ascii
  | _ => none

def arrow : ArrowStyle → String
  | .unicode => "→"
  | .ascii => "->"

end ArrowStyle

/-- The contents of a settings file. -/
structure Settings where
  isStrict : Bool := false
  isVerbose : Bool := false
  /-- When output is colored, if the file says so. -/
  color : Option ColorChoice := none
  /-- How arrows are drawn, if the file says so. -/
  arrows : Option ArrowStyle := none
deriving DecidableEq, Repr

namespace Settings

/-- Takes one setting into account; nothing if the key is unknown or the value is
not one of its values. -/
def assign (settings : Settings) (line : Line) : Option Settings :=
  match String.ofList line.1, line.2 with
  | "strict", .flag value => some { settings with isStrict := value }
  | "verbose", .flag value => some { settings with isVerbose := value }
  | "color", value =>
      (value.name?.bind ColorChoice.ofName?).map fun choice =>
        { settings with color := some choice }
  | "arrows", value =>
      (value.name?.bind ArrowStyle.ofName?).map fun style =>
        { settings with arrows := some style }
  | _, _ => none

/-- Reads a settings file, in which no key may occur twice. -/
def ofText? (text : String) : Option Settings := do
  let lines ← readLines text
  if (lines.map Prod.fst).Nodup then lines.foldlM assign {} else none

end Settings

end LdpScore
