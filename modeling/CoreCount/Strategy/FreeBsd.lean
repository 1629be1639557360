import CoreCount.Identity
import CoreCount.Strategy.Sysconf

/-!
Counting on FreeBSD: cores times threads per core. Kernels that do not tell the cores, or tell
nonsense, are asked for the number of online processors instead.
-/

namespace CoreCount.Strategy

def threadsFailedText (e : Os.SysctlFailure) : String :=
  s!"cores: {Os.SysctlKey.threadsPerCore}: {e.message}, using physical count\n"

def smpTooFewText (n : Int64) : String :=
  s!"cores: kern.smp reported {n.toInt} cores, trying sysconf\n"

def coresAbsentText : String :=
  s!"cores: {Os.SysctlKey.cores} not present, trying sysconf\n"

/-- The report where asking for the cores fails for no known reason. -/
def coresFailedText (e : Os.SysctlFailure) : String :=
  s!"{Identity.programName}: can't get number of cpus: {e.message}\n"

/-- Cores times threads per core, or the cores alone where the threads are unknown. The product
of two 32-bit values fits in 64 bits. -/
def smpCount : Probe (Except Os.SysctlFailure Int64) := do
  match ← Probe.askSysctl Os.SysctlKey.cores with
  | .error e => return .error e
  | .ok cores =>
    match ← Probe.askSysctl Os.SysctlKey.threadsPerCore with
    | .ok perCore => return .ok (cores.toInt64 * perCore.toInt64)
    | .error e =>
      Probe.report DisplayLevel.trace (threadsFailedText e)
      return .ok cores.toInt64

def largestCount : UInt64 := UInt64.ofNat (UInt64.size - 1)

/-- A number as a count. One that is no count becomes the largest count. -/
def saturatedCount (n : Int64) : UInt64 :=
  if 0 ≤ n then n.toUInt64 else largestCount

def countFreeBsd : Probe UInt64 := do
  match ← smpCount with
  | .ok n =>
    if 1 ≤ n then
      return saturatedCount n
    else
      Probe.report DisplayLevel.trace (smpTooFewText n)
      countSysconf
  | .error .notFound =>
    Probe.report DisplayLevel.trace coresAbsentText
    countSysconf
  | .error (.code number) =>
    Probe.report DisplayLevel.error (coresFailedText (.code number))
    countSysconf

end CoreCount.Strategy
