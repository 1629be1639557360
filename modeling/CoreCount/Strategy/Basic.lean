import CoreCount.Strategy.Darwin
import CoreCount.Strategy.FreeBsd
import CoreCount.Strategy.Linux
import CoreCount.Strategy.Windows

/-!
The ways of counting, one for each family of operating systems.
-/

namespace CoreCount

inductive Strategy where
  | linux (cpuinfoPath : Bytes)
  | freeBsd
  | darwin
  | windows
  | sysconf
  /-- For systems that offer nothing to ask. -/
  | unknown
  deriving DecidableEq

namespace Strategy

def count : Strategy → Probe UInt64
  | .linux cpuinfoPath => countLinux cpuinfoPath
  | .freeBsd => countFreeBsd
  | .darwin => countDarwin
  | .windows => countWindows
  | .sysconf => countSysconf
  | .unknown => return fallbackCount

/-- Where Linux keeps its cpuinfo file. -/
def cpuinfoPath : String := "/proc/cpuinfo"

/-- The strategy of the machine the program runs on. -/
def host : Strategy := .linux (Bytes.ofString cpuinfoPath)

def hostDescription : String := s!"sysconf + {cpuinfoPath}"

end Strategy

end CoreCount
