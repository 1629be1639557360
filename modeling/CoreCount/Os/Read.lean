import CoreCount.Os.Failure
import CoreCount.Text.Bytes

/-!
What a source of bytes delivers, read by read.
-/

namespace CoreCount.Os

/-- One read: bytes, an interruption that is simply tried again, a failure, or nothing. After
the last read listed, every further one returns nothing. -/
inductive Read where
  | data (bytes : Bytes)
  | interrupted
  | failed (cause : Failure)
  | nothing
  deriving DecidableEq

end CoreCount.Os
