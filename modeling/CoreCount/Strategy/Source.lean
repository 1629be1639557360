import CoreCount.Cpuinfo.Parser
import CoreCount.Probe

/-!
The questions that several strategies ask.
-/

namespace CoreCount

/-- The count where nothing better is known. -/
def fallbackCount : UInt64 := 1

namespace Probe

/-- The number of online processors. Every answer below 1 means that it is unknown. -/
def onlineProcessors : Probe (Option UInt64) := do
  let n ← askOnlineProcessors
  return if n < 1 then none else some n.toUInt64

/-- The topology that the file at a path describes. -/
def cpuinfo (path : Bytes) : Probe (Except Cpuinfo.Error Cpuinfo.Topology) := do
  match ← askFile path with
  | .error cause => return .error (.unreadable cause)
  | .ok reads => return Cpuinfo.parse reads

end Probe

end CoreCount
