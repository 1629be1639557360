/-!
Arithmetic on machine words. A computation written over an `Arithmetic` leaves open what becomes of
a result that its word does not hold.
-/

namespace CoreCount

/-- The operations that make words out of words. The monad says what an operation without a result
comes to. -/
structure Arithmetic (m : Type → Type) where
  quotient : Int32 → Int32 → m Int32
  product : Int64 → Int64 → m Int64
  sum : Int64 → Int64 → m Int64
  negation : Int64 → m Int64
  difference : UInt8 → UInt8 → m UInt8
  narrowed : Int64 → m Int32

/-- Arithmetic that always has a result: of one beyond its word the low bits are kept, and a quotient
by zero is zero. -/
def Arithmetic.wrapping : Arithmetic Id where
  quotient a b := pure (a / b)
  product a b := pure (a * b)
  sum a b := pure (a + b)
  negation a := pure (-a)
  difference a b := pure (a - b)
  narrowed a := pure a.toInt32

end CoreCount
