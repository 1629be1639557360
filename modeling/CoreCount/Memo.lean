import CoreCount.Strategy.Basic

/-!
The count of this machine, and the memo that keeps it so that the machine is questioned once.
-/

namespace CoreCount

/-- Questions the machine anew. No count is below the fallback. -/
def countHost : Probe UInt64 := do
  let n ← Strategy.host.count
  return if n < fallbackCount then fallbackCount else n

/-- The count that was found first, once there is one. -/
structure Memo where
  value? : Option UInt64 := none
  deriving DecidableEq

/-- The count in the memo, which is filled if it is empty. -/
def Memo.count (memo : Memo) : Probe (UInt64 × Memo) := do
  match memo.value? with
  | some n => return (n, memo)
  | none =>
    let n ← countHost
    return (n, ⟨some n⟩)

end CoreCount
