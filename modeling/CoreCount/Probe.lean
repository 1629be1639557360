import CoreCount.Display
import CoreCount.Os.LogicalProcessor
import CoreCount.Os.Read
import CoreCount.Os.Sysctl

/-!
Computations that question a machine. A probe fixes which question follows which answer and what
it reports on the way; a host says what the answers are. Running one on the other gives a value
together with the questions asked and the messages reported.
-/

namespace CoreCount

/-- The questions a machine can be asked. -/
inductive Query where
  | onlineProcessors
  | sysctl (key : String)
  | logicalProcessors
  | systemProcessorCount
  | file (path : Bytes)
  deriving DecidableEq

/-- The number of online processors is below 1 where the machine cannot tell it; there are no
records of logical processors where the machine keeps none; a file that opens answers by its
reads. -/
abbrev Query.Answer : Query → Type
  | .onlineProcessors => Int64
  | .sysctl _ => Except Os.SysctlFailure Int32
  | .logicalProcessors => Option (List Os.LogicalProcessors)
  | .systemProcessorCount => UInt32
  | .file _ => Except Os.Failure (List Os.Read)

/-- Everything a machine would answer. -/
structure Host where
  onlineProcessors : Int64
  sysctl : String → Except Os.SysctlFailure Int32
  logicalProcessors : Option (List Os.LogicalProcessors)
  systemProcessorCount : UInt32
  file : Bytes → Except Os.Failure (List Os.Read)

def Host.answer (host : Host) : (query : Query) → query.Answer
  | .onlineProcessors => host.onlineProcessors
  | .sysctl key => host.sysctl key
  | .logicalProcessors => host.logicalProcessors
  | .systemProcessorCount => host.systemProcessorCount
  | .file path => host.file path

inductive Probe (α : Type) where
  | done (value : α)
  | reporting (message : Message) (next : Probe α)
  | asking (query : Query) (next : query.Answer → Probe α)

/-- What a probe comes to on a host: its questions, and all of its messages whatever the level
at which they are read. -/
structure Outcome (α : Type) where
  value : α
  queries : List Query
  messages : List Message

namespace Probe

def bind {α β : Type} (p : Probe α) (f : α → Probe β) : Probe β :=
  match p with
  | .done value => f value
  | .reporting message next => .reporting message (next.bind f)
  | .asking query next => .asking query (fun answer => (next answer).bind f)

instance : Monad Probe where
  pure := .done
  bind := Probe.bind

def report (threshold : UInt32) (text : String) : Probe Unit :=
  .reporting ⟨threshold, text⟩ (.done ())

def askOnlineProcessors : Probe Int64 :=
  .asking .onlineProcessors .done

def askSysctl (key : String) : Probe (Except Os.SysctlFailure Int32) :=
  .asking (.sysctl key) .done

def askLogicalProcessors : Probe (Option (List Os.LogicalProcessors)) :=
  .asking .logicalProcessors .done

def askSystemProcessorCount : Probe UInt32 :=
  .asking .systemProcessorCount .done

def askFile (path : Bytes) : Probe (Except Os.Failure (List Os.Read)) :=
  .asking (.file path) .done

def run {α : Type} (host : Host) : Probe α → Outcome α
  | .done value => ⟨value, [], []⟩
  | .reporting message next =>
    let o := next.run host
    { o with messages := message :: o.messages }
  | .asking query next =>
    let o := (next (host.answer query)).run host
    { o with queries := query :: o.queries }

/-- What is left when a probe has run before a console. -/
structure Execution (α : Type) where
  value : α
  queries : List Query
  console : Console

/-- Runs a probe before a console, which sees each message as it is reported. -/
def execute {α : Type} (host : Host) (console : Console) : Probe α → Execution α
  | .done value => ⟨value, [], console⟩
  | .reporting message next => next.execute host (console.accept message)
  | .asking query next =>
    let e := (next (host.answer query)).execute host console
    { e with queries := query :: e.queries }

@[simp] theorem run_pure {α : Type} (host : Host) (value : α) :
    (pure value : Probe α).run host = ⟨value, [], []⟩ := rfl

@[simp] theorem run_report (host : Host) (threshold : UInt32) (text : String) :
    (report threshold text).run host = ⟨(), [], [⟨threshold, text⟩]⟩ := rfl

@[simp] theorem run_askOnlineProcessors (host : Host) :
    askOnlineProcessors.run host = ⟨host.onlineProcessors, [.onlineProcessors], []⟩ := rfl

@[simp] theorem run_askSysctl (host : Host) (key : String) :
    (askSysctl key).run host = ⟨host.sysctl key, [.sysctl key], []⟩ := rfl

@[simp] theorem run_askLogicalProcessors (host : Host) :
    askLogicalProcessors.run host = ⟨host.logicalProcessors, [.logicalProcessors], []⟩ := rfl

@[simp] theorem run_askSystemProcessorCount (host : Host) :
    askSystemProcessorCount.run host =
      ⟨host.systemProcessorCount, [.systemProcessorCount], []⟩ := rfl

@[simp] theorem run_askFile (host : Host) (path : Bytes) :
    (askFile path).run host = ⟨host.file path, [.file path], []⟩ := rfl

/-- A run of two probes in turn is the run of the first, then that of the second. -/
@[simp] theorem run_bind {α β : Type} (host : Host) (p : Probe α) (f : α → Probe β) :
    (p >>= f).run host =
      let first := p.run host
      let second := (f first.value).run host
      ⟨second.value, first.queries ++ second.queries, first.messages ++ second.messages⟩ := by
  change (p.bind f).run host = _
  induction p with
  | done value => rfl
  | reporting message next ih => simp [bind, run, ih]
  | asking query next ih => simp [bind, run, ih]

/-- A console shows the messages that its level lets through, and nothing else of a run depends
on it. -/
theorem execute_eq {α : Type} (host : Host) (console : Console) (p : Probe α) :
    p.execute host console =
      let o := p.run host
      ⟨o.value, o.queries,
        ⟨console.level, console.written ++ Message.shown console.level o.messages⟩⟩ := by
  induction p generalizing console with
  | done value => simp [execute, run]
  | reporting message next ih =>
    by_cases h : message.threshold ≤ console.level <;>
      simp [execute, run, ih, Console.accept, Message.shown, Message.textAt, h, String.append_assoc]
  | asking query next ih => simp [execute, run, ih]

end Probe

end CoreCount
