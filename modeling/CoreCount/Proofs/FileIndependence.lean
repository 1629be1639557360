import CoreCount.Proofs.StrategyRuns

/-!
# The count does not depend on files

Counting on Linux reads a cpuinfo file, and comes to the count of the online processors whatever
the file is. Where the number of online processors is unknown, the file is not even read.
-/

namespace CoreCount.Proofs

def asksFile : Query → Bool
  | .file _ => true
  | .onlineProcessors | .sysctl _ | .logicalProcessors | .systemProcessorCount => false

lemma accept_eq_shown (console : Console) (m : Message) :
    console.accept m = ⟨console.level, console.written ++ Message.shown console.level [m]⟩ := by
  unfold Console.accept
  by_cases h : m.threshold ≤ console.level <;> simp [Message.shown, Message.textAt, h]

lemma execute_countSysconf (host : Host) (console : Console) :
    Strategy.sysconf.count.execute host console =
      if host.onlineProcessors < 1 then
        ⟨fallbackCount, [.onlineProcessors],
          console.accept ⟨DisplayLevel.trace, Strategy.onlineUnknownText⟩⟩
      else ⟨host.onlineProcessors.toUInt64, [.onlineProcessors], console⟩ := by
  change Strategy.countSysconf.execute host console = _
  rw [Probe.execute_eq, run_countSysconf]
  by_cases h : host.onlineProcessors < 1
  · simp [h, accept_eq_shown]
  · simp [h]

lemma execute_countLinux (host : Host) (path : Bytes) (console : Console) :
    (Strategy.linux path).count.execute host console =
      if host.onlineProcessors < 1 then Strategy.sysconf.count.execute host console
      else
        ⟨host.onlineProcessors.toUInt64, [.onlineProcessors, .file path],
          console.accept ⟨DisplayLevel.trace, topologyTrace host path⟩⟩ := by
  change (Strategy.countLinux path).execute host console = _
  rw [Probe.execute_eq, run_countLinux, execute_countSysconf]
  by_cases h : host.onlineProcessors < 1
  · simp [h, accept_eq_shown]
  · simp [h, accept_eq_shown]

lemma execute_countSysconf_files (host : Host) (files : Bytes → Except Os.Failure (List Os.Read))
    (console : Console) :
    Strategy.sysconf.count.execute { host with file := files } console =
      Strategy.sysconf.count.execute host console := by
  rw [execute_countSysconf, execute_countSysconf]

lemma queries_countLinux (host : Host) (path : Bytes) (console : Console) :
    ((Strategy.linux path).count.execute host console).queries.filter (!asksFile ·) =
      (Strategy.sysconf.count.execute host console).queries := by
  rw [execute_countLinux, execute_countSysconf]
  split <;> rfl

lemma value_countLinux (host : Host) (path : Bytes) (console : Console) :
    ((Strategy.linux path).count.execute host console).value =
      (Strategy.sysconf.count.execute host console).value := by
  rw [execute_countLinux, execute_countSysconf]
  split <;> rfl

/-- Whatever the count on Linux writes is one message of the trace. -/
lemma console_countLinux (host : Host) (path : Bytes) (console : Console) :
    ∃ text, ((Strategy.linux path).count.execute host console).console =
      console.accept ⟨DisplayLevel.trace, text⟩ := by
  rw [execute_countLinux, execute_countSysconf]
  split
  · exact ⟨Strategy.onlineUnknownText, rfl⟩
  · exact ⟨topologyTrace host path, rfl⟩

lemma accept_of_level_lt {console : Console} {m : Message} (h : console.level < m.threshold) :
    console.accept m = console := by
  unfold Console.accept
  rw [if_neg (UInt32.not_le.mpr h)]

/-- Counting on Linux comes to what the number of online processors alone comes to, by the same one
question about it, whatever the path and the files are. Two runs that differ in them differ in one
message of the trace at most, so in nothing below its level; and in nothing at all where the number
of online processors is unknown, since the file is not asked for then. -/
theorem count_linux_independent_of_files (host : Host)
    (files : Bytes → Except Os.Failure (List Os.Read)) (path otherPath : Bytes)
    (console : Console) :
    let linux := (Strategy.linux path).count.execute host console
    let other := (Strategy.linux otherPath).count.execute { host with file := files } console
    let plain := Strategy.sysconf.count.execute host console
    linux.value = plain.value ∧ other.value = plain.value ∧
    plain.queries = [.onlineProcessors] ∧
    linux.queries.filter (!asksFile ·) = plain.queries ∧
    other.queries.filter (!asksFile ·) = plain.queries ∧
    (∃ text otherText, linux.console = console.accept ⟨DisplayLevel.trace, text⟩ ∧
      other.console = console.accept ⟨DisplayLevel.trace, otherText⟩) ∧
    (console.level < DisplayLevel.trace → linux.console = console ∧ other.console = console) ∧
    (host.onlineProcessors < 1 → linux = plain ∧ other = plain ∧ plain.value = 1) := by
  intro linux other plain
  have hplain : Strategy.sysconf.count.execute { host with file := files } console = plain :=
    execute_countSysconf_files host files console
  obtain ⟨text, htext⟩ := console_countLinux host path console
  obtain ⟨otherText, hother⟩ := console_countLinux { host with file := files } otherPath console
  refine ⟨value_countLinux host path console, ?_, ?_, queries_countLinux host path console, ?_,
    ⟨text, otherText, htext, hother⟩, fun hlevel => ?_, fun hunknown => ?_⟩
  · rw [← hplain]
    exact value_countLinux _ otherPath console
  · simp only [plain, execute_countSysconf]
    split <;> rfl
  · rw [← hplain]
    exact queries_countLinux _ otherPath console
  · exact ⟨htext.trans (accept_of_level_lt hlevel), hother.trans (accept_of_level_lt hlevel)⟩
  · refine ⟨?_, ?_, ?_⟩
    · simp only [linux, execute_countLinux, if_pos hunknown]
      rfl
    · rw [← hplain]
      simp only [other, execute_countLinux, if_pos hunknown]
    · simp only [plain, execute_countSysconf, if_pos hunknown]
      rfl

end CoreCount.Proofs
