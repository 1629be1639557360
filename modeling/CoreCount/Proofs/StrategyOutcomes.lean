import CoreCount.Proofs.StrategyRuns

/-!
# What each strategy comes to

The count, the questions and the messages of every strategy, read off the answers of a host. An
answer gives a count that can be used, or there is a message that says why it does not.
-/

namespace CoreCount.Proofs

/-- A count that can be used, or the message that says why there is none. -/
abbrev Finding := Except Message UInt64

namespace Finding

def countOr (otherwise : UInt64) : Finding → UInt64
  | .ok n => n
  | .error _ => otherwise

def messages : Finding → List Message
  | .ok _ => []
  | .error m => [m]

end Finding

def onlineFinding (host : Host) : Finding :=
  if host.onlineProcessors < 1 then .error ⟨DisplayLevel.trace, Strategy.onlineUnknownText⟩
  else .ok host.onlineProcessors.toUInt64

def logicalFinding (host : Host) : Finding :=
  match host.sysctl Os.SysctlKey.logicalProcessors with
  | .ok n =>
    if 1 ≤ n then .ok n.toInt64.toUInt64
    else .error ⟨DisplayLevel.trace, Strategy.logicalTooFewText n⟩
  | .error e => .error ⟨DisplayLevel.trace, Strategy.logicalFailedText e⟩

/-- What the kernel tells of the cores and the threads of each. -/
def smpAnswer (host : Host) : Except Os.SysctlFailure Int64 :=
  match host.sysctl Os.SysctlKey.cores with
  | .error e => .error e
  | .ok cores =>
    match host.sysctl Os.SysctlKey.threadsPerCore with
    | .ok perCore => .ok (cores.toInt64 * perCore.toInt64)
    | .error _ => .ok cores.toInt64

/-- The threads are asked for only where the cores are known. -/
def smpQuestions (host : Host) : List Query :=
  match host.sysctl Os.SysctlKey.cores with
  | .error _ => [.sysctl Os.SysctlKey.cores]
  | .ok _ => [.sysctl Os.SysctlKey.cores, .sysctl Os.SysctlKey.threadsPerCore]

def threadsMessages (host : Host) : List Message :=
  match host.sysctl Os.SysctlKey.cores, host.sysctl Os.SysctlKey.threadsPerCore with
  | .ok _, .error e => [⟨DisplayLevel.trace, Strategy.threadsFailedText e⟩]
  | _, _ => []

def smpFinding (host : Host) : Finding :=
  match smpAnswer host with
  | .ok n =>
    if 1 ≤ n then .ok (Strategy.saturatedCount n)
    else .error ⟨DisplayLevel.trace, Strategy.smpTooFewText n⟩
  | .error .notFound => .error ⟨DisplayLevel.trace, Strategy.coresAbsentText⟩
  | .error (.code number) =>
    .error ⟨DisplayLevel.error, Strategy.coresFailedText (.code number)⟩

def recordsFinding (records : List Os.LogicalProcessors) : Finding :=
  if Strategy.coreBits records = 0 then .error ⟨DisplayLevel.trace, Strategy.noCoresText⟩
  else .ok (Strategy.coreBits records)

def systemCount (host : Host) : UInt64 :=
  if host.systemProcessorCount = 0 then fallbackCount else host.systemProcessorCount.toUInt64

def countOn (host : Host) : Strategy → UInt64
  | .linux _ | .sysconf => (onlineFinding host).countOr fallbackCount
  | .freeBsd => (smpFinding host).countOr ((onlineFinding host).countOr fallbackCount)
  | .darwin => (logicalFinding host).countOr fallbackCount
  | .windows =>
    match host.logicalProcessors with
    | none => systemCount host
    | some records => (recordsFinding records).countOr fallbackCount
  | .unknown => fallbackCount

def questionsOn (host : Host) : Strategy → List Query
  | .linux path =>
    match onlineFinding host with
    | .ok _ => [.onlineProcessors, .file path]
    | .error _ => [.onlineProcessors]
  | .sysconf => [.onlineProcessors]
  | .freeBsd =>
    match smpFinding host with
    | .ok _ => smpQuestions host
    | .error _ => smpQuestions host ++ [.onlineProcessors]
  | .darwin => [.sysctl Os.SysctlKey.logicalProcessors]
  | .windows =>
    match host.logicalProcessors with
    | none => [.logicalProcessors, .systemProcessorCount]
    | some _ => [.logicalProcessors]
  | .unknown => []

def messagesOn (host : Host) : Strategy → List Message
  | .linux path =>
    match onlineFinding host with
    | .ok _ => [⟨DisplayLevel.trace, topologyTrace host path⟩]
    | .error m => [m]
  | .sysconf => (onlineFinding host).messages
  | .freeBsd =>
    match smpFinding host with
    | .ok _ => threadsMessages host
    | .error m => threadsMessages host ++ m :: (onlineFinding host).messages
  | .darwin => (logicalFinding host).messages
  | .windows =>
    match host.logicalProcessors with
    | none => [⟨DisplayLevel.trace, Strategy.noRecordsText⟩]
    | some records => (recordsFinding records).messages
  | .unknown => []

lemma run_countSysconf_finding (host : Host) :
    Strategy.countSysconf.run host =
      ⟨(onlineFinding host).countOr fallbackCount, [.onlineProcessors],
        (onlineFinding host).messages⟩ := by
  rw [run_countSysconf]
  unfold onlineFinding
  split <;> rfl

lemma run_countDarwin (host : Host) :
    Strategy.countDarwin.run host =
      ⟨(logicalFinding host).countOr fallbackCount, [.sysctl Os.SysctlKey.logicalProcessors],
        (logicalFinding host).messages⟩ := by
  unfold Strategy.countDarwin logicalFinding
  rw [Probe.run_bind, Probe.run_askSysctl]
  cases host.sysctl Os.SysctlKey.logicalProcessors with
  | error e => rfl
  | ok n =>
    dsimp only
    split <;> rfl

lemma run_smpCount (host : Host) :
    Strategy.smpCount.run host = ⟨smpAnswer host, smpQuestions host, threadsMessages host⟩ := by
  unfold Strategy.smpCount smpAnswer smpQuestions threadsMessages
  rw [Probe.run_bind, Probe.run_askSysctl]
  cases host.sysctl Os.SysctlKey.cores with
  | error e => rfl
  | ok cores =>
    dsimp only
    rw [Probe.run_bind, Probe.run_askSysctl]
    cases host.sysctl Os.SysctlKey.threadsPerCore <;> rfl

/-- A report of what is wrong with the cores, then the count of the online processors. -/
lemma run_fallback (host : Host) (threshold : UInt32) (text : String) :
    (do Probe.report threshold text; Strategy.countSysconf : Probe UInt64).run host =
      ⟨(onlineFinding host).countOr fallbackCount, [.onlineProcessors],
        ⟨threshold, text⟩ :: (onlineFinding host).messages⟩ := by
  rw [Probe.run_bind, Probe.run_report]
  simp [run_countSysconf_finding]

lemma run_countFreeBsd (host : Host) :
    Strategy.countFreeBsd.run host =
      ⟨countOn host .freeBsd, questionsOn host .freeBsd, messagesOn host .freeBsd⟩ := by
  unfold Strategy.countFreeBsd countOn questionsOn messagesOn smpFinding
  rw [Probe.run_bind, run_smpCount]
  cases smpAnswer host with
  | ok n =>
    by_cases h : 1 ≤ n
    · simp [h, Finding.countOr]
    · simp only [h, if_false, run_fallback]
      rfl
  | error e =>
    cases e with
    | notFound => simp only [run_fallback]; rfl
    | code number => simp only [run_fallback]; rfl

lemma run_countWindows (host : Host) :
    Strategy.countWindows.run host =
      ⟨countOn host .windows, questionsOn host .windows, messagesOn host .windows⟩ := by
  unfold Strategy.countWindows countOn questionsOn messagesOn
  rw [Probe.run_bind, Probe.run_askLogicalProcessors]
  cases host.logicalProcessors with
  | none =>
    dsimp only
    rw [Probe.run_bind, Probe.run_report, Probe.run_bind, Probe.run_askSystemProcessorCount]
    rfl
  | some records =>
    unfold recordsFinding
    dsimp only
    split <;> rfl

lemma run_countLinux_finding (host : Host) (path : Bytes) :
    (Strategy.countLinux path).run host =
      ⟨countOn host (.linux path), questionsOn host (.linux path),
        messagesOn host (.linux path)⟩ := by
  rw [run_countLinux]
  unfold countOn questionsOn messagesOn onlineFinding
  split <;> rfl

/-- The count, the questions and the messages of a strategy are those that the host's answers
fix. -/
theorem run_count (host : Host) (strategy : Strategy) :
    strategy.count.run host =
      ⟨countOn host strategy, questionsOn host strategy, messagesOn host strategy⟩ := by
  cases strategy with
  | linux path => exact run_countLinux_finding host path
  | freeBsd => exact run_countFreeBsd host
  | darwin => exact run_countDarwin host
  | windows => exact run_countWindows host
  | sysconf => exact run_countSysconf_finding host
  | unknown => rfl

end CoreCount.Proofs
