import CoreCount.CommandLine.Parser
import CoreCount.Memo

/-!
One run of the program: what it prints and the code it exits with.
-/

namespace CoreCount

namespace Cpuinfo

/-- The report on a topology, a line for each field and one for their ratio. -/
def Topology.report (t : Topology) : String :=
  s!"siblings  : {t.siblings.toInt}\n" ++
  s!"cpu cores : {t.cpuCores.toInt}\n" ++
  s!"ratio     : {t.ratio.toInt}\n"

/-- An error followed by the failure that lies behind it. -/
def Error.chain (e : Error) : String :=
  match e.cause? with
  | some cause => s!"{e.message}: {cause.message}"
  | none => e.message

end Cpuinfo

/-- Standard output and the exit code. -/
structure Completion where
  exit : UInt32
  stdout : String
  deriving DecidableEq

namespace Run

def strategyText : String :=
  s!"strategy : {Strategy.hostDescription}\n"

def cpuinfoFailedText (path : Bytes) (e : Cpuinfo.Error) : String :=
  s!"{Identity.programName}: can't parse cpuinfo file {Utf8.showBytes path}: {e.chain}\n"

/-- The count, from a memo that is still empty or by a question of its own. -/
def coreCount (uncached : Bool) : Probe UInt64 := do
  if uncached then
    countHost
  else
    return (← Memo.count {}).1

/-- Prints the count after what is printed already. -/
def finish (o : CommandLine.Options) (printed : String) : Probe Completion := do
  let cores ← coreCount o.uncached
  return ⟨0, printed ++ s!"{cores.toNat}\n"⟩

/-- Reports on a cpuinfo file if one is named, then prints the count. A file that cannot be
read leaves standard output empty. -/
def run (o : CommandLine.Options) : Probe Completion := do
  Probe.report DisplayLevel.info Identity.banner
  Probe.report DisplayLevel.info strategyText
  match o.cpuinfo with
  | none => finish o ""
  | some path =>
    match ← Probe.cpuinfo path with
    | .ok t => finish o t.report
    | .error e =>
      Probe.report DisplayLevel.error (cpuinfoFailedText path e)
      return ⟨1, ""⟩

end Run

/-- What a run leaves behind. -/
structure Transcript where
  exit : UInt32
  stdout : String
  stderr : String
  deriving DecidableEq

/-- The transcript of a command line that asks for no count. -/
def CommandLine.Ending.transcript : Ending → Transcript
  | .help => ⟨0, helpText, ""⟩
  | .version => ⟨0, versionText, ""⟩
  | .usage e => ⟨2, "", e.line⟩

/-- Runs the program on a host. -/
def transcript (host : Host) (arguments : List Bytes) : Transcript :=
  match CommandLine.parse arguments with
  | .error ending => ending.transcript
  | .ok o =>
    let e := (Run.run o).execute host { level := o.displayLevel }
    ⟨e.value.exit, e.value.stdout, e.console.written⟩

end CoreCount
