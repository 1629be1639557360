/-!
Named kernel values, read as 32-bit integers.
-/

namespace CoreCount.Os

namespace SysctlKey

def logicalProcessors : String := "hw.logicalcpu"
def cores : String := "kern.smp.cores"
def threadsPerCore : String := "kern.smp.threads_per_core"

end SysctlKey

inductive SysctlFailure where
  /-- The kernel does not know the key. -/
  | notFound
  | code (number : Int32)
  deriving DecidableEq

def SysctlFailure.message : SysctlFailure → String
  | .notFound => "sysctl key not found"
  | .code number => s!"sysctl failed with errno {number.toInt}"

end CoreCount.Os
