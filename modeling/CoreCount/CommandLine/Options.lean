import CoreCount.Display
import CoreCount.Text.Bytes

/-!
What a command line asks for.
-/

namespace CoreCount.CommandLine

structure Options where
  verbose : UInt8 := 0
  quiet : UInt8 := 0
  uncached : Bool := false
  cpuinfo : Option Bytes := none
  deriving DecidableEq

/-- Counts one more, up to the largest number of eight bits. -/
def countUp (n : UInt8) : UInt8 :=
  if n = 255 then n else n + 1

/-- Verbose raises the normal level and quiet lowers it, but not below silence. -/
def Options.displayLevel (o : Options) : UInt32 :=
  let raised := DisplayLevel.normal + o.verbose.toUInt32
  if raised ≤ o.quiet.toUInt32 then DisplayLevel.silent else raised - o.quiet.toUInt32

end CoreCount.CommandLine
