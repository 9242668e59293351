import LdpScore.Decimal.Shortest
import LdpScore.Score.Model

/-!
# The listing of a score

A listing shows the tree of a score with one object per line, indented by four
spaces per level: the kind and id, what matters most about the object, and the
relations it belongs to.
-/

namespace LdpScore

/-- Onsets are written with a decimal point and no exponent. -/
def onsetLayout : Decimal.Layout := ⟨none, false⟩

/-- Option values are written with a decimal point between one ten-thousandth and
ten to the sixteenth, and with an exponent beyond. -/
def optionLayout : Decimal.Layout := ⟨some (-4, 16), true⟩

def writeOnset (onset : Float) : String :=
  onsetLayout.write (Decimal.Format.double.decode onset.toBits.toNat)

def writeReal (value : Float32) : String :=
  optionLayout.write (Decimal.Format.single.decode value.toBits.toNat)

/-- The value of an option as text, with its type. -/
def OptionValue.describe : OptionValue → String
  | bool true => "Bool(true)"
  | bool false => "Bool(false)"
  | long value => s!"Long({value})"
  | float value => "Float(" ++ writeReal value ++ ")"

/-- A note or rest in a listing: its value and its onset. -/
def NoteRest.describe (noteRest : NoteRest) : String :=
  String.ofList noteRest.value.spelling ++ " @" ++ writeOnset noteRest.onset

namespace Content

/-- What a listing says about an object after its kind and id. -/
def details : Content → String
  | note it =>
      let pitch := match it.pitch with
        | some pitch => s!" {pitch.step.label}{pitch.octave} {pitch.accidentals.label}"
        | none => " unpitched"
      pitch ++ " " ++ it.noteRest.describe
  | rest it => " " ++ it.describe
  | score version _ => " " ++ version
  | clef kind _ _ => " " ++ kind.label
  | keySignature key _ => " " ++ key.label
  | timeSignature _ top bottom _ => s!" {top}/{bottom}"
  | scoreOption name value => " " ++ name ++ " = " ++ value.describe
  | _ => ""

end Content

namespace Model

def reference (model : Model) (handle : Handle) : String :=
  match model.get? handle with
  | some object => s!"{object.content.name}#{object.id}"
  | none => ""

def line (model : Model) (depth : Nat) (handle : Handle) : String :=
  let details := ((model.content? handle).map Content.details).getD ""
  let relations := model.relations handle
  let list :=
    if relations.isEmpty then ""
    else " [" ++ ", ".intercalate (relations.map model.reference) ++ "]"
  let margin := String.ofList (List.replicate (4 * depth) ' ')
  margin ++ model.reference handle ++ details ++ list ++ "\n"

/-- The lines of an object and of those below it, down to a number of levels. -/
def linesBelow (model : Model) : Nat → Nat → Handle → List String
  | 0, _, _ => []
  | levels + 1, depth, handle =>
      model.line depth handle ::
        (model.children handle).flatMap (linesBelow model levels (depth + 1))

/-- The listing of the tree below the root.  A tree is no deeper than the number
of its objects. -/
def listing (model : Model) : String :=
  match model.root with
  | some root => String.join (model.linesBelow model.size 0 root)
  | none => ""

end Model

end LdpScore
