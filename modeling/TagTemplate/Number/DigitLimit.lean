set_option autoImplicit false

/-! # The limit on integer digits

Decimal text becomes an integer, and an integer decimal text, only up to a limit on the number of
its digits. In text leading zeros count, and the sign does not. -/

namespace TagTemplate

/-- The most digits that are converted to or from an integer. -/
def maxIntegerDigits : Nat := 4300

/-- What the refusals of integers with too many digits have in common. -/
def digitLimitWording (detail : String) : String :=
  "Exceeds the limit (" ++ toString maxIntegerDigits ++ " digits) for integer string conversion" ++
    detail ++ "; use sys.set_int_max_str_digits() to increase the limit"

def digitLimitMessage (count : Nat) : String :=
  digitLimitWording (": value has " ++ toString count ++ " digits")

def longIntegerMessage : String := digitLimitWording ""

def isLongInteger (n : Int) : Bool :=
  Nat.pow 10 maxIntegerDigits ≤ n.natAbs

end TagTemplate
