import CoreCount.Os.ProcessorList
import CoreCount.Run

/-!
The command. It asks the machine it runs on what a run wants to know, and writes what the run
reports and prints.
-/

namespace CoreCount.Main

def failure : IO.Error → Os.Failure
  | .alreadyExists _ code _ | .otherError code _ | .resourceBusy code _
  | .resourceVanished code _ | .unsupportedOperation code _ | .hardwareFault code _
  | .unsatisfiedConstraints code _ | .illegalOperation code _ | .protocolError code _
  | .timeExpired code _ | .interrupted _ code _ | .noFileOrDirectory _ code _
  | .invalidArgument _ code _ | .permissionDenied _ code _ | .resourceExhausted _ code _
  | .inappropriateType _ code _ | .noSuchThing _ code _ => .code code.toInt32
  | .unexpectedEof => .reported "unexpected end of file"
  | .userError text => .reported text

/-- The reads of an open file, up to the first that returns nothing or fails. -/
partial def readAll (file : IO.FS.Handle) (before : Array Os.Read) : IO (Array Os.Read) := do
  try
    let bytes ← file.read 8192
    if bytes.isEmpty then
      return before
    readAll file (before.push (.data bytes.data.toList))
  catch e =>
    return before.push (.failed (failure e))

def openFile (path : Bytes) : IO (Except Os.Failure (List Os.Read)) := do
  if 0 ∈ path then
    return .error .zeroByteInPath
  match Utf8.decode? path with
  | none => return .error .noSuchEntry
  | some name =>
    try
      let file ← IO.FS.Handle.mk name .read
      return .ok (← readAll file #[]).toList
    catch e =>
      return .error (failure e)

def onlineProcessors : IO Int64 := do
  try
    let text ← IO.FS.readFile "/sys/devices/system/cpu/online"
    match Os.ProcessorList.size? text with
    | some n => return Int64.ofNat n
    | none => return -1
  catch _ =>
    return -1

/-- What this machine answers. It has no kernel values by name and keeps no records of logical
processors. -/
def answer : (query : Query) → IO query.Answer
  | .onlineProcessors => onlineProcessors
  | .sysctl _ => return .error .notFound
  | .logicalProcessors => return none
  | .systemProcessorCount => return 0
  | .file path => openFile path

/-- Runs a probe on this machine and shows its messages as they come. -/
def perform {α : Type} (level : UInt32) : Probe α → IO α
  | .done value => return value
  | .reporting message next => do
    (← IO.getStderr).putStr (message.textAt level)
    perform level next
  | .asking query next => do
    perform level (next (← answer query))

end CoreCount.Main

def main (arguments : List String) : IO UInt32 := do
  match CoreCount.CommandLine.parse (arguments.map CoreCount.Bytes.ofString) with
  | .error ending =>
    let t := ending.transcript
    (← IO.getStdout).putStr t.stdout
    (← IO.getStderr).putStr t.stderr
    return t.exit
  | .ok o =>
    let completion ← CoreCount.Main.perform o.displayLevel (CoreCount.Run.run o)
    (← IO.getStdout).putStr completion.stdout
    return completion.exit
