import CoreCount.Strategy.Sysconf
import CoreCount.Text.Utf8

/-!
Counting on Linux: the number of online processors. The topology in the cpuinfo file is reported
for who reads the trace, and never applied to the count.
-/

namespace CoreCount.Strategy

def topologyText (t : Cpuinfo.Topology) : String :=
  s!"cores: {t.siblings.toInt} siblings / {t.cpuCores.toInt} cpu cores, " ++
    s!"hyperthreading ratio {t.ratio.toInt} (not applied)\n"

def topologyUnknownText (path : Bytes) (e : Cpuinfo.Error) : String :=
  s!"cores: {Utf8.showBytes path}: {e.message}, keeping sysconf value\n"

def countLinux (cpuinfoPath : Bytes) : Probe UInt64 := do
  match ← Probe.onlineProcessors with
  | none =>
    Probe.report DisplayLevel.trace onlineUnknownText
    return fallbackCount
  | some n =>
    match ← Probe.cpuinfo cpuinfoPath with
    | .ok t => Probe.report DisplayLevel.trace (topologyText t)
    | .error e => Probe.report DisplayLevel.trace (topologyUnknownText cpuinfoPath e)
    return n

end CoreCount.Strategy
