/-!
# Hexadecimal digits

Colors and character escapes are written with hexadecimal digits, in capitals or
small letters.
-/

namespace LdpScore.Text

def hexDigit? (character : Char) : Option Nat :=
  if character.isDigit then some (character.toNat - '0'.toNat)
  else if 'a' ≤ character ∧ character ≤ 'f' then some (character.toNat - 'a'.toNat + 10)
  else if 'A' ≤ character ∧ character ≤ 'F' then some (character.toNat - 'A'.toNat + 10)
  else none

end LdpScore.Text
