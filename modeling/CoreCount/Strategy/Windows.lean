import CoreCount.Strategy.Source

/-!
Counting on Windows: the processors in the masks of the core records, or the system's own count
where there are no records to ask for.
-/

namespace CoreCount.Strategy

/-- The set bits of all masks whose record describes a core. -/
def coreBits (records : List Os.LogicalProcessors) : UInt64 :=
  (records.filter (·.relationship = .processorCore)).foldl
    (fun sum r => sum + UInt64.ofNat (Os.setBits r.mask)) 0

def noRecordsText : String :=
  "cores: GetLogicalProcessorInformation unavailable, using GetSystemInfo\n"

def noCoresText : String :=
  s!"cores: no processor core records, using {fallbackCount.toNat}\n"

def countWindows : Probe UInt64 := do
  match ← Probe.askLogicalProcessors with
  | none =>
    Probe.report DisplayLevel.trace noRecordsText
    let n ← Probe.askSystemProcessorCount
    return if n = 0 then fallbackCount else n.toUInt64
  | some records =>
    let sum := coreBits records
    if sum = 0 then
      Probe.report DisplayLevel.trace noCoresText
      return fallbackCount
    else
      return sum

end CoreCount.Strategy
