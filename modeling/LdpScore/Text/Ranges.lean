/-!
# Ranges of code points

A character class of the Unicode standard is written down as a sorted list of
inclusive ranges of code points; the tables of this library follow version 17 of
the standard.  `Ranges.contains` is the membership test that all of them use.
-/

namespace LdpScore.Text

/-- Whether one of the inclusive `ranges` holds the code point of `character`. -/
def Ranges.contains (ranges : List (Nat × Nat)) (character : Char) : Bool :=
  ranges.any fun range => range.1 ≤ character.toNat && character.toNat ≤ range.2

end LdpScore.Text
