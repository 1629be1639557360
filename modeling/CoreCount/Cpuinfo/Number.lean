import CoreCount.Arithmetic
import CoreCount.Text.Bytes

/-!
The number at the start of a field's value: blanks are skipped, one sign is allowed, and the
digits that follow are read until something else stands there. A value beyond 32 bits is the
nearest one that fits.
-/

namespace CoreCount.Cpuinfo

/-- The six blanks of ASCII: space, tab, line feed, vertical tab, form feed, carriage return. -/
def isBlank (b : UInt8) : Bool :=
  b == 32 || (9 ≤ b && b ≤ 13)

def isDigit (b : UInt8) : Bool :=
  48 ≤ b && b ≤ 57

/-- Whether a minus sign stands first, and what follows the sign if there is one. -/
def takeSign : Bytes → Bool × Bytes
  | 45 :: rest => (true, rest)
  | 43 :: rest => (false, rest)
  | rest => (false, rest)

/-- One more than the largest value of 32 bits, so that the smallest one survives its sign. -/
def magnitudeCap : Int64 := 2147483648

/-- The nearest value that 32 bits hold. -/
def clampTo32Bits (value : Int64) : Int64 :=
  if value < Int32.minValue.toInt64 then Int32.minValue.toInt64
  else if Int32.maxValue.toInt64 < value then Int32.maxValue.toInt64
  else value

section
variable {m : Type → Type} [Monad m] (arithmetic : Arithmetic m)

/-- Appends a decimal digit. The cap after every digit keeps the product in 64 bits. -/
def appendDigitIn (value : Int64) (digit : UInt8) : m Int64 := do
  let shifted ← arithmetic.product value 10
  let units ← arithmetic.difference digit 48
  let next ← arithmetic.sum shifted (Int64.ofNat units.toNat)
  return if magnitudeCap < next then magnitudeCap else next

def applySignIn (negative : Bool) (magnitude : Int64) : m Int64 :=
  if negative then arithmetic.negation magnitude else return magnitude

def leadingNumberIn (s : Bytes) : m Int32 := do
  let (negative, rest) := takeSign (s.dropWhile isBlank)
  let magnitude ← (rest.takeWhile isDigit).foldlM (appendDigitIn arithmetic) 0
  let value ← applySignIn arithmetic negative magnitude
  arithmetic.narrowed (clampTo32Bits value)

end

def leadingNumber (s : Bytes) : Int32 :=
  (leadingNumberIn .wrapping s).run

end CoreCount.Cpuinfo
