import CoreCount.Strategy.Source

/-!
Counting on Darwin: the logical processors available in the current power mode.
-/

namespace CoreCount.Strategy

def logicalTooFewText (n : Int32) : String :=
  s!"cores: {Os.SysctlKey.logicalProcessors} reported {n.toInt}, " ++
    s!"using {fallbackCount.toNat}\n"

def logicalFailedText (e : Os.SysctlFailure) : String :=
  s!"cores: {Os.SysctlKey.logicalProcessors}: {e.message}, using {fallbackCount.toNat}\n"

def countDarwin : Probe UInt64 := do
  match ← Probe.askSysctl Os.SysctlKey.logicalProcessors with
  | .ok n =>
    if 1 ≤ n then
      return n.toInt64.toUInt64
    else
      Probe.report DisplayLevel.trace (logicalTooFewText n)
      return fallbackCount
  | .error e =>
    Probe.report DisplayLevel.trace (logicalFailedText e)
    return fallbackCount

end CoreCount.Strategy
