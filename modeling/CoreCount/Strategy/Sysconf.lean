import CoreCount.Strategy.Source

/-!
Counting by the number of online processors alone.
-/

namespace CoreCount.Strategy

/-- The report where the number of online processors is unknown. -/
def onlineUnknownText : String :=
  s!"cores: sysconf(_SC_NPROCESSORS_ONLN) unavailable, using {fallbackCount.toNat}\n"

def countSysconf : Probe UInt64 := do
  match ← Probe.onlineProcessors with
  | some n => return n
  | none =>
    Probe.report DisplayLevel.trace onlineUnknownText
    return fallbackCount

end CoreCount.Strategy
