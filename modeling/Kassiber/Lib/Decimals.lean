import Mathlib

/-!
Decimal arithmetic with a fixed number of significant digits: each result is rounded half to even.
-/

namespace Lib.Decimals

def halfEven (q : ℚ) : ℤ :=
  let below := ⌊q⌋
  if q - below < 1 / 2 then below
  else if 1 / 2 < q - below then below + 1
  else if below % 2 = 0 then below else below + 1

def significant (digits : ℕ) (q : ℚ) : ℚ :=
  if q = 0 then 0
  else
    let last : ℚ := 10 ^ (Int.log 10 |q| + 1 - digits)
    halfEven (q / last) * last

end Lib.Decimals
