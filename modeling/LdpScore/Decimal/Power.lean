/-!
# Powers of two and ten

The bases of binary formats and of decimal numbers.
-/

namespace LdpScore.Decimal

def powerOfTwo (exponent : Nat) : Nat :=
  Nat.pow 2 exponent

def powerOfTen (exponent : Nat) : Nat :=
  Nat.pow 10 exponent

end LdpScore.Decimal
