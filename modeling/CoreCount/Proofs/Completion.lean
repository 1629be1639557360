import CoreCount.Os.FileSystem
import CoreCount.Proofs.StrategyRuns
import CoreCount.Run

/-!
# How a run completes

A run that is to report on a cpuinfo file and cannot read it prints nothing and exits with 1. Every
other run exits with 0 and prints what it was asked for as a whole. The display level has no part in
this.
-/

namespace CoreCount.Proofs
open Cpuinfo

/-- A host with files and a number of online processors, and nothing else to tell. -/
def hostOver (online : Int64) (files : Os.FileSystem) : Host where
  onlineProcessors := online
  sysctl := fun _ => .error .notFound
  logicalProcessors := none
  systemProcessorCount := 0
  file := files.openPath

/-- The messages that every run begins with. -/
def opening : List Message :=
  [⟨DisplayLevel.info, Identity.banner⟩, ⟨DisplayLevel.info, Run.strategyText⟩]

def countLine (n : UInt64) : String :=
  s!"{n.toNat}\n"

@[simp] lemma run_coreCount (host : Host) (uncached : Bool) :
    (Run.coreCount uncached).run host = countHost.run host := by
  cases uncached with
  | true => rfl
  | false => simp [Run.coreCount, Memo.count]

lemma run_finish (host : Host) (o : CommandLine.Options) (printed : String) :
    (Run.finish o printed).run host =
      ⟨⟨0, printed ++ countLine (hostCount host)⟩, (countHost.run host).queries,
        (countHost.run host).messages⟩ := by
  simp [Run.finish, hostCount, countLine]

lemma run_without_file (host : Host) {o : CommandLine.Options} (h : o.cpuinfo = none) :
    (Run.run o).run host =
      ⟨⟨0, countLine (hostCount host)⟩, (countHost.run host).queries,
        opening ++ (countHost.run host).messages⟩ := by
  unfold Run.run
  rw [h]
  simp [run_finish, opening]

lemma run_with_file (host : Host) {o : CommandLine.Options} {path : Bytes} {t : Topology}
    (h : o.cpuinfo = some path) (ht : topologyAt host path = .ok t) :
    (Run.run o).run host =
      ⟨⟨0, t.report ++ countLine (hostCount host)⟩, .file path :: (countHost.run host).queries,
        opening ++ (countHost.run host).messages⟩ := by
  unfold Run.run
  rw [h]
  simp [ht, run_finish, opening]

lemma run_with_unreadable_file (host : Host) {o : CommandLine.Options} {path : Bytes} {e : Error}
    (h : o.cpuinfo = some path) (he : topologyAt host path = .error e) :
    (Run.run o).run host =
      ⟨⟨1, ""⟩, [.file path],
        opening ++ [⟨DisplayLevel.error, Run.cpuinfoFailedText path e⟩]⟩ := by
  unfold Run.run
  rw [h]
  simp [he, opening]

lemma shown_eq_empty {level : UInt32} {messages : List Message}
    (h : ∀ m ∈ messages, level < m.threshold) : Message.shown level messages = "" := by
  induction messages with
  | nil => rfl
  | cons m messages ih =>
    have hm : ¬m.threshold ≤ level := UInt32.not_le.mpr (h m (by simp))
    rw [Message.shown, ih (fun q hq => h q (by simp [hq]))]
    simp [Message.textAt, hm]

lemma threshold_countHost (host : Host) :
    ∀ m ∈ (countHost.run host).messages, m.threshold = DisplayLevel.trace := by
  have hmessages : (countHost.run host).messages = (Strategy.host.count.run host).messages := by
    simp [countHost]
  have hrun := run_countLinux host (Bytes.ofString Strategy.cpuinfoPath)
  change Strategy.host.count.run host = _ at hrun
  rw [hmessages, hrun]
  split <;> simp

/-- No message of a run is meant for the silent level. -/
lemma silent_lt_threshold (host : Host) (o : CommandLine.Options) :
    ∀ m ∈ ((Run.run o).run host).messages, DisplayLevel.silent < m.threshold := by
  have hopening : ∀ m ∈ opening, DisplayLevel.silent < m.threshold := by decide
  have hcount : ∀ m ∈ (countHost.run host).messages, DisplayLevel.silent < m.threshold := by
    intro m hm
    rw [threshold_countHost host m hm]
    decide
  intro m hm
  cases hpath : o.cpuinfo with
  | none =>
    rw [run_without_file host hpath] at hm
    exact (List.mem_append.mp hm).elim (hopening m) (hcount m)
  | some path =>
    cases ht : topologyAt host path with
    | ok t =>
      rw [run_with_file host hpath ht] at hm
      exact (List.mem_append.mp hm).elim (hopening m) (hcount m)
    | error e =>
      rw [run_with_unreadable_file host hpath ht] at hm
      rcases List.mem_append.mp hm with hm | hm
      · exact hopening m hm
      · rw [List.mem_singleton.mp hm]
        exact (by decide : DisplayLevel.silent < DisplayLevel.error)

/-- What a command line that asks for a count leaves behind. -/
lemma transcript_eq (host : Host) {arguments : List Bytes} {o : CommandLine.Options}
    (h : CommandLine.parse arguments = .ok o) :
    transcript host arguments =
      let r := (Run.run o).run host
      ⟨r.value.exit, r.value.stdout, Message.shown o.displayLevel r.messages⟩ := by
  unfold transcript
  rw [h]
  simp [Probe.execute_eq]

section Transcripts
variable (host : Host) {arguments : List Bytes} {o : CommandLine.Options} {path : Bytes}

lemma transcript_without_file (h : CommandLine.parse arguments = .ok o) (hpath : o.cpuinfo = none) :
    (transcript host arguments).exit = 0 ∧
      (transcript host arguments).stdout = countLine (hostCount host) := by
  rw [transcript_eq host h, run_without_file host hpath]
  exact ⟨rfl, rfl⟩

lemma transcript_with_file {t : Topology} (h : CommandLine.parse arguments = .ok o)
    (hpath : o.cpuinfo = some path) (ht : topologyAt host path = .ok t) :
    (transcript host arguments).exit = 0 ∧
      (transcript host arguments).stdout = t.report ++ countLine (hostCount host) := by
  rw [transcript_eq host h, run_with_file host hpath ht]
  exact ⟨rfl, rfl⟩

lemma transcript_with_unreadable_file {e : Error} (h : CommandLine.parse arguments = .ok o)
    (hpath : o.cpuinfo = some path) (he : topologyAt host path = .error e) :
    (transcript host arguments).exit = 1 ∧ (transcript host arguments).stdout = "" := by
  rw [transcript_eq host h, run_with_unreadable_file host hpath he]
  exact ⟨rfl, rfl⟩

lemma transcript_silent (h : CommandLine.parse arguments = .ok o)
    (hlevel : o.displayLevel = DisplayLevel.silent) : (transcript host arguments).stderr = "" := by
  rw [transcript_eq host h, hlevel]
  exact shown_eq_empty (silent_lt_threshold host o)

end Transcripts

lemma one_le_hostCount (host : Host) : 1 ≤ (hostCount host).toNat := by
  have hn := toNat_hostCount host
  omega

/-- A run that asks for a count, with any files, at any level and with or without the memo. It exits
with 1 if and only if a cpuinfo file is named and cannot be read, and has printed nothing then.
Otherwise it exits with 0 and has printed the report on that file, if one is named, and the count,
which is at least 1. At the silent level it writes no message, whether it fails or not. -/
theorem transcript_of_count (host : Host) (arguments : List Bytes) (o : CommandLine.Options)
    (h : CommandLine.parse arguments = .ok o) :
    let t := transcript host arguments
    let n := hostCount host
    (t.exit = 1 ↔ ∃ path e, o.cpuinfo = some path ∧ topologyAt host path = .error e) ∧
    (t.exit = 0 ∨ t.exit = 1) ∧
    (t.exit = 1 → t.stdout = "") ∧
    (t.exit = 0 → 1 ≤ n.toNat ∧
      (o.cpuinfo = none → t.stdout = s!"{n.toNat}\n") ∧
      ∀ path, o.cpuinfo = some path → ∃ info, topologyAt host path = .ok info ∧
        t.stdout = s!"siblings  : {info.siblings.toInt}\n" ++
          s!"cpu cores : {info.cpuCores.toInt}\n" ++
          s!"ratio     : {info.ratio.toInt}\n" ++ s!"{n.toNat}\n") ∧
    (o.displayLevel = DisplayLevel.silent → t.stderr = "") := by
  intro t n
  have hn : 1 ≤ n.toNat := one_le_hostCount host
  have hsilent : o.displayLevel = DisplayLevel.silent → t.stderr = "" := transcript_silent host h
  cases hpath : o.cpuinfo with
  | none =>
    obtain ⟨hexit, hstdout⟩ := transcript_without_file host h hpath
    refine ⟨?_, .inl hexit, ?_, fun _ => ⟨hn, fun _ => hstdout, ?_⟩, hsilent⟩
    · simp [t, hexit]
    · simp [t, hexit]
    · simp
  | some path =>
    cases hinfo : topologyAt host path with
    | ok info =>
      obtain ⟨hexit, hstdout⟩ := transcript_with_file host h hpath hinfo
      refine ⟨?_, .inl hexit, ?_, fun _ => ⟨hn, ?_, fun other hother => ?_⟩, hsilent⟩
      · simp [t, hexit, hinfo]
      · simp [t, hexit]
      · simp
      · obtain rfl := Option.some.inj hother
        exact ⟨info, hinfo, hstdout⟩
    | error e =>
      obtain ⟨hexit, hstdout⟩ := transcript_with_unreadable_file host h hpath hinfo
      refine ⟨?_, .inr hexit, fun _ => hstdout, ?_, hsilent⟩
      · simp [t, hexit, hinfo]
      · simp [t, hexit]

/-- The first line of the file is good, the second lacks its separator. -/
theorem transcript_of_count_malformed :
    let path := Bytes.ofString "snapshot"
    let files := ({} : Os.FileSystem).makePath path
      (.file (Bytes.ofString "siblings: 4\ncpu cores 2\n"))
    let host := hostOver 8 files
    let arguments := ["-q", "--cpuinfo", "snapshot", "--uncached", "-q"].map Bytes.ofString
    let o : CommandLine.Options := { quiet := 2, uncached := true, cpuinfo := some path }
    CommandLine.parse arguments = .ok o ∧ o.displayLevel = DisplayLevel.silent ∧
      topologyAt host path = .error (.malformed ⟨2, .cpuCores⟩) ∧
      (transcript host arguments).exit = 1 ∧ (transcript host arguments).stdout = "" ∧
      (transcript host arguments).stderr = "" := by
  intro path files host arguments o
  have hparse : CommandLine.parse arguments = .ok o := by rfl
  have hlevel : o.displayLevel = DisplayLevel.silent := by rfl
  have hfault : topologyAt host path = .error (.malformed ⟨2, .cpuCores⟩) := by rfl
  obtain ⟨hexit, -, hstdout, -, hstderr⟩ := transcript_of_count host arguments o hparse
  have hfailed := hexit.mpr ⟨path, _, rfl, hfault⟩
  exact ⟨hparse, hlevel, hfault, hfailed, hstdout hfailed, hstderr hlevel⟩

end CoreCount.Proofs
