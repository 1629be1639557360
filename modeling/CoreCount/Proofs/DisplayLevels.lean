import CoreCount.Proofs.Completion
import CoreCount.Proofs.StrategyOutcomes
import Mathlib.Data.List.Basic

/-!
# What a display level changes

The answers of a host fix one list of messages for each strategy and for each run of the program.
A level picks from this list what the error stream shows, a higher one no less than a lower one, and
nothing else depends on it.
-/

namespace CoreCount.Proofs
open CommandLine

def visible (level : UInt32) (messages : List Message) : List Message :=
  messages.filter (·.threshold ≤ level)

/-- What the error stream shows of messages at a level. -/
def visibleText (level : UInt32) (messages : List Message) : String :=
  String.join ((visible level messages).map (·.text))

lemma shown_eq_visibleText (level : UInt32) (messages : List Message) :
    Message.shown level messages = visibleText level messages := by
  unfold visibleText visible
  induction messages with
  | nil => simp
  | cons m messages ih =>
    rw [Message.shown, ih]
    by_cases h : m.threshold ≤ level <;> simp [Message.textAt, h]

lemma visible_sublist {lower higher : UInt32} (h : lower ≤ higher) (messages : List Message) :
    (visible lower messages).Sublist (visible higher messages) := by
  refine List.monotone_filter_right messages fun m hm => ?_
  simp only [decide_eq_true_eq] at hm ⊢
  exact UInt32.le_trans hm h

lemma execute_count (host : Host) (strategy : Strategy) (console : Console) :
    strategy.count.execute host console =
      ⟨countOn host strategy, questionsOn host strategy,
        ⟨console.level, console.written ++ visibleText console.level (messagesOn host strategy)⟩⟩ := by
  rw [Probe.execute_eq, run_count, ← shown_eq_visibleText]

/-- The messages of a run, with the cpuinfo file that it names, if any. -/
def messagesOfRun (host : Host) (cpuinfo? : Option Bytes) : List Message :=
  match cpuinfo?.map (fun path => (path, topologyAt host path)) with
  | none | some (_, .ok _) => opening ++ messagesOn host .host
  | some (path, .error e) => opening ++ [⟨DisplayLevel.error, Run.cpuinfoFailedText path e⟩]

lemma messages_run (host : Host) (o : Options) :
    ((Run.run o).run host).messages = messagesOfRun host o.cpuinfo := by
  unfold messagesOfRun
  cases hpath : o.cpuinfo with
  | none =>
    rw [run_without_file host hpath, messages_countHost, run_count]
    rfl
  | some path =>
    cases ht : topologyAt host path with
    | ok t => simp [run_with_file host hpath ht, messages_countHost, run_count, ht]
    | error e => simp [run_with_unreadable_file host hpath ht, ht]

/-- The level has no part in a run, and neither has the memo, which is empty. -/
lemma run_eq_of_cpuinfo (host : Host) {o o' : Options} (h : o.cpuinfo = o'.cpuinfo) :
    (Run.run o).run host = (Run.run o').run host := by
  cases hpath : o.cpuinfo with
  | none => rw [run_without_file host hpath, run_without_file host (h ▸ hpath)]
  | some path =>
    cases ht : topologyAt host path with
    | ok t => rw [run_with_file host hpath ht, run_with_file host (h ▸ hpath) ht]
    | error e =>
      rw [run_with_unreadable_file host hpath ht, run_with_unreadable_file host (h ▸ hpath) ht]

lemma transcript_eq_visible (host : Host) {arguments : List Bytes} {o : Options}
    (h : CommandLine.parse arguments = .ok o) :
    transcript host arguments =
      ⟨((Run.run o).run host).value.exit, ((Run.run o).run host).value.stdout,
        visibleText o.displayLevel (messagesOfRun host o.cpuinfo)⟩ := by
  rw [transcript_eq host h, ← messages_run, ← shown_eq_visibleText]

lemma queries_execute_run (host : Host) (o : Options) (console : Console) :
    ((Run.run o).execute host console).queries = ((Run.run o).run host).queries := by
  rw [Probe.execute_eq]

/-- For each strategy the answers of a host fix the count, the questions and one list of messages. The
error stream shows in order those of them whose threshold the level reaches, and the level stays as
it was. Two runs of the program that differ in their levels alone print the same, exit alike and ask
the same questions; what the lower level shows is a part of what the higher one shows. -/
theorem messages_by_level (host : Host) :
    (∀ strategy : Strategy, ∀ console : Console,
      let e := strategy.count.execute host console
      e.value = countOn host strategy ∧ e.queries = questionsOn host strategy ∧
      e.console.level = console.level ∧
      e.console.written = console.written ++ String.join
        (((messagesOn host strategy).filter (·.threshold ≤ console.level)).map (·.text))) ∧
    ∀ (arguments others : List Bytes) (o o' : Options),
      CommandLine.parse arguments = .ok o → CommandLine.parse others = .ok o' →
      o.uncached = o'.uncached → o.cpuinfo = o'.cpuinfo →
      let t := transcript host arguments
      let t' := transcript host others
      let messages := messagesOfRun host o.cpuinfo
      let lower := messages.filter (·.threshold ≤ o.displayLevel)
      let higher := messages.filter (·.threshold ≤ o'.displayLevel)
      t.exit = t'.exit ∧ t.stdout = t'.stdout ∧
      ((Run.run o).execute host { level := o.displayLevel }).queries =
        ((Run.run o').execute host { level := o'.displayLevel }).queries ∧
      t.stderr = String.join (lower.map (·.text)) ∧
      t'.stderr = String.join (higher.map (·.text)) ∧
      (o.displayLevel ≤ o'.displayLevel → lower.Sublist higher) := by
  refine ⟨fun strategy console => ?_, fun arguments others o o' h h' huncached hcpuinfo => ?_⟩
  · rw [execute_count]
    exact ⟨rfl, rfl, rfl, rfl⟩
  · have hrun := run_eq_of_cpuinfo host hcpuinfo
    have ht := transcript_eq_visible host h
    have ht' := transcript_eq_visible host h'
    rw [← hrun, ← hcpuinfo] at ht'
    dsimp only
    rw [ht, ht', queries_execute_run, queries_execute_run, hrun]
    exact ⟨rfl, rfl, rfl, rfl, rfl, fun hle => visible_sublist hle _⟩

/-- A file that is not there is reported at either level, the banner and the strategy only at the
higher one. -/
theorem messages_by_level_no_file :
    let host := hostOver 8 {}
    let arguments := ["-q", "--cpuinfo", "gone"].map Bytes.ofString
    let others := ["-vv", "--cpuinfo=gone"].map Bytes.ofString
    let path := Bytes.ofString "gone"
    let o : Options := { quiet := 1, cpuinfo := some path }
    let o' : Options := { verbose := 2, cpuinfo := some path }
    let messages := messagesOfRun host (some path)
    CommandLine.parse arguments = .ok o ∧ CommandLine.parse others = .ok o' ∧
      o.displayLevel ≤ o'.displayLevel ∧
      (transcript host arguments).exit = (transcript host others).exit ∧
      (transcript host arguments).stdout = (transcript host others).stdout ∧
      (visible o.displayLevel messages).Sublist (visible o'.displayLevel messages) ∧
      (visible o.displayLevel messages).length = 1 ∧
      (visible o'.displayLevel messages).length = 3 := by
  intro host arguments others path o o' messages
  have h : CommandLine.parse arguments = .ok o := by rfl
  have h' : CommandLine.parse others = .ok o' := by rfl
  have hle : o.displayLevel ≤ o'.displayLevel := by decide
  obtain ⟨hexit, hstdout, -, -, -, hsublist⟩ :=
    (messages_by_level host).2 arguments others o o' h h' rfl rfl
  exact ⟨h, h', hle, hexit, hstdout, hsublist hle, by decide +kernel, by decide +kernel⟩

end CoreCount.Proofs
