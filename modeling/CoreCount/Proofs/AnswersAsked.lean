import CoreCount.Proofs.StrategyOutcomes

/-!
# What a count depends on

A count depends on the answers that it asked for and on no other, and it asks for none twice.
-/

namespace CoreCount.Proofs

/-- A probe that gets the same answers to the questions of a run takes the same run. -/
theorem run_congr {α : Type} {host other : Host} (p : Probe α)
    (h : ∀ query ∈ (p.run host).queries, other.answer query = host.answer query) :
    p.run other = p.run host := by
  induction p with
  | done value => rfl
  | reporting message next ih => simp only [Probe.run, ih h]
  | asking query next ih =>
    have hquery : other.answer query = host.answer query := h query (by simp [Probe.run])
    have hnext : (next (host.answer query)).run other = (next (host.answer query)).run host :=
      ih _ fun q hq => h q (by simp [Probe.run, hq])
    simp only [Probe.run, hquery, hnext]

/-- Two hosts answer a question alike. Of a file it is the topology read from it that counts, or the
error met in reading it. -/
def AnswersAlike (host other : Host) : Query → Prop
  | .onlineProcessors => other.onlineProcessors = host.onlineProcessors
  | .sysctl key => other.sysctl key = host.sysctl key
  | .logicalProcessors => other.logicalProcessors = host.logicalProcessors
  | .systemProcessorCount => other.systemProcessorCount = host.systemProcessorCount
  | .file path => topologyAt other path = topologyAt host path

/-- Everything that a strategy may ask for, in the order in which it does. -/
def questionsNamed : Strategy → List Query
  | .linux path => [.onlineProcessors, .file path]
  | .freeBsd =>
    [.sysctl Os.SysctlKey.cores, .sysctl Os.SysctlKey.threadsPerCore, .onlineProcessors]
  | .darwin => [.sysctl Os.SysctlKey.logicalProcessors]
  | .windows => [.logicalProcessors, .systemProcessorCount]
  | .sysconf => [.onlineProcessors]
  | .unknown => []

lemma nodup_questionsNamed (strategy : Strategy) : (questionsNamed strategy).Nodup := by
  cases strategy with
  | linux path => simp [questionsNamed]
  | freeBsd | darwin | windows | sysconf | unknown => decide

lemma smpQuestions_sublist (host : Host) :
    (smpQuestions host).Sublist
      [.sysctl Os.SysctlKey.cores, .sysctl Os.SysctlKey.threadsPerCore] := by
  unfold smpQuestions
  cases host.sysctl Os.SysctlKey.cores <;> simp

lemma questionsOn_sublist (host : Host) (strategy : Strategy) :
    (questionsOn host strategy).Sublist (questionsNamed strategy) := by
  unfold questionsOn questionsNamed
  cases strategy with
  | linux path => cases onlineFinding host <;> simp
  | freeBsd =>
    have hsmp := smpQuestions_sublist host
    cases smpFinding host with
    | ok n => exact hsmp.trans (List.sublist_append_left _ [Query.onlineProcessors])
    | error m => exact hsmp.append (List.Sublist.refl [Query.onlineProcessors])
  | windows => cases host.logicalProcessors <;> simp
  | darwin | sysconf | unknown => exact List.Sublist.refl _

/-- Only on Linux is a file asked for, and only the one at the path of the strategy. -/
lemma linux_of_file_mem {strategy : Strategy} {path : Bytes}
    (h : .file path ∈ questionsNamed strategy) : strategy = .linux path := by
  cases strategy with
  | linux other => simp_all [questionsNamed]
  | freeBsd | darwin | windows | sysconf | unknown => simp [questionsNamed] at h

section Alike
variable {host other : Host}

lemma answer_eq_of_alike {query : Query} (hfile : ∀ path, query ≠ .file path)
    (h : AnswersAlike host other query) : other.answer query = host.answer query := by
  cases query with
  | file path => exact absurd rfl (hfile path)
  | onlineProcessors | sysctl key | logicalProcessors | systemProcessorCount => exact h

lemma run_countLinux_congr {path : Bytes}
    (honline : other.onlineProcessors = host.onlineProcessors)
    (hfile : ¬host.onlineProcessors < 1 → topologyAt other path = topologyAt host path) :
    (Strategy.countLinux path).run other = (Strategy.countLinux path).run host := by
  rw [run_countLinux, run_countLinux, honline]
  by_cases hunknown : host.onlineProcessors < 1
  · rw [if_pos hunknown, if_pos hunknown]
  · have htrace : topologyTrace other path = topologyTrace host path := by
      unfold topologyTrace
      rw [hfile hunknown]
    rw [if_neg hunknown, if_neg hunknown, htrace]

/-- A strategy comes to the same on every host that answers its questions alike. -/
theorem run_count_congr (strategy : Strategy)
    (h : ∀ query ∈ questionsOn host strategy, AnswersAlike host other query) :
    strategy.count.run other = strategy.count.run host := by
  -- the files of the two hosts may differ where they read alike, so `run_congr` is not for Linux
  by_cases hlinux : ∃ path, strategy = .linux path
  · obtain ⟨path, rfl⟩ := hlinux
    refine run_countLinux_congr (h .onlineProcessors ?_) fun hknown => h (.file path) ?_
    · unfold questionsOn
      cases onlineFinding host <;> simp
    · simp [questionsOn, onlineFinding, hknown]
  · refine run_congr _ fun query hquery => ?_
    rw [run_count] at hquery
    refine answer_eq_of_alike (fun path hpath => hlinux ⟨path, ?_⟩) (h query hquery)
    exact linux_of_file_mem ((questionsOn_sublist host strategy).subset (hpath ▸ hquery))

end Alike

lemma execute_count_congr {host other : Host} {strategy : Strategy}
    (h : ∀ query ∈ questionsOn host strategy, AnswersAlike host other query) (console : Console) :
    strategy.count.execute other console = strategy.count.execute host console := by
  rw [Probe.execute_eq, Probe.execute_eq, run_count_congr strategy h]

section NotAsked
variable (host : Host) (console : Console)

lemma queries_execute_count (strategy : Strategy) :
    (strategy.count.execute host console).queries = questionsOn host strategy := by
  rw [Probe.execute_eq, run_count]

lemma online_notMem_of_usable {n : Int64} (h : smpAnswer host = .ok n) (hn : 1 ≤ n) :
    .onlineProcessors ∉ questionsOn host .freeBsd := by
  have hfinding : smpFinding host = .ok (Strategy.saturatedCount n) := by simp [smpFinding, h, hn]
  have hquestions : questionsOn host .freeBsd = smpQuestions host := by
    simp [questionsOn, hfinding]
  intro hmem
  rw [hquestions] at hmem
  simpa using (smpQuestions_sublist host).subset hmem

lemma threads_notMem_of_error {e : Os.SysctlFailure} (h : host.sysctl Os.SysctlKey.cores = .error e) :
    .sysctl Os.SysctlKey.threadsPerCore ∉ questionsOn host .freeBsd := by
  have hkeys : Os.SysctlKey.threadsPerCore ≠ Os.SysctlKey.cores := by decide
  have hquestions : smpQuestions host = [.sysctl Os.SysctlKey.cores] := by simp [smpQuestions, h]
  unfold questionsOn
  cases smpFinding host <;> simp [hquestions, hkeys]

lemma system_notMem_of_records {records : List Os.LogicalProcessors}
    (h : host.logicalProcessors = some records) :
    .systemProcessorCount ∉ questionsOn host .windows := by
  simp [questionsOn, h]

lemma file_notMem_of_unknown {path : Bytes} (h : host.onlineProcessors < 1) (other : Bytes) :
    .file other ∉ questionsOn host (.linux path) := by
  simp [questionsOn, onlineFinding, h]

lemma execute_with_sysctl {strategy : Strategy} (sysctl : String → Except Os.SysctlFailure Int32)
    (h : ∀ key, .sysctl key ∈ questionsOn host strategy → sysctl key = host.sysctl key) :
    strategy.count.execute { host with sysctl := sysctl } console =
      strategy.count.execute host console := by
  apply execute_count_congr
  intro query hquery
  cases query with
  | sysctl key => exact h key hquery
  | onlineProcessors | logicalProcessors | systemProcessorCount | file path => rfl

lemma execute_with_online {strategy : Strategy} (h : .onlineProcessors ∉ questionsOn host strategy)
    (online : Int64) :
    strategy.count.execute { host with onlineProcessors := online } console =
      strategy.count.execute host console := by
  apply execute_count_congr
  intro query hquery
  cases query with
  | onlineProcessors => exact absurd hquery h
  | sysctl key | logicalProcessors | systemProcessorCount | file path => rfl

lemma execute_with_system {strategy : Strategy}
    (h : .systemProcessorCount ∉ questionsOn host strategy) (system : UInt32) :
    strategy.count.execute { host with systemProcessorCount := system } console =
      strategy.count.execute host console := by
  apply execute_count_congr
  intro query hquery
  cases query with
  | systemProcessorCount => exact absurd hquery h
  | onlineProcessors | sysctl key | logicalProcessors | file path => rfl

lemma execute_with_files {strategy : Strategy} (h : ∀ path, .file path ∉ questionsOn host strategy)
    (files : Bytes → Except Os.Failure (List Os.Read)) :
    strategy.count.execute { host with file := files } console =
      strategy.count.execute host console := by
  apply execute_count_congr
  intro query hquery
  cases query with
  | file path => exact absurd hquery (h path)
  | onlineProcessors | sysctl key | logicalProcessors | systemProcessorCount => rfl

end NotAsked

/-- A strategy that gets the same answers to its questions asks the same questions, writes the same
and comes to the same count, and it asks no question twice and none but those it names. So no other
answer has a part in the count, and none of these is asked for: the number of online processors
where the kernel tells of usable cores, the threads where it does not tell of the cores, the system's
count where there are records, a kernel value that the strategy does not name, and the cpuinfo file
where the number of online processors is unknown. -/
theorem count_of_answers_asked (host : Host) (console : Console) :
    (∀ strategy : Strategy,
      let e := strategy.count.execute host console
      (∀ other, (∀ query ∈ e.queries, AnswersAlike host other query) →
        strategy.count.execute other console = e) ∧
      e.queries.Nodup ∧ e.queries.Sublist (questionsNamed strategy) ∧
      ∀ sysctl, (∀ key, .sysctl key ∈ questionsNamed strategy → sysctl key = host.sysctl key) →
        strategy.count.execute { host with sysctl := sysctl } console = e) ∧
    (∀ n, (Strategy.smpCount.execute host console).value = .ok n → 1 ≤ n →
      let e := Strategy.freeBsd.count.execute host console
      .onlineProcessors ∉ e.queries ∧
      ∀ online, Strategy.freeBsd.count.execute { host with onlineProcessors := online } console = e) ∧
    (∀ failure, host.sysctl Os.SysctlKey.cores = .error failure →
      let e := Strategy.freeBsd.count.execute host console
      .sysctl Os.SysctlKey.threadsPerCore ∉ e.queries ∧
      ∀ sysctl, (∀ key, key ≠ Os.SysctlKey.threadsPerCore → sysctl key = host.sysctl key) →
        Strategy.freeBsd.count.execute { host with sysctl := sysctl } console = e) ∧
    (∀ records, host.logicalProcessors = some records →
      let e := Strategy.windows.count.execute host console
      .systemProcessorCount ∉ e.queries ∧
      ∀ system,
        Strategy.windows.count.execute { host with systemProcessorCount := system } console = e) ∧
    ∀ path, host.onlineProcessors < 1 →
      let e := (Strategy.linux path).count.execute host console
      (∀ other, .file other ∉ e.queries) ∧
      ∀ files, (Strategy.linux path).count.execute { host with file := files } console = e := by
  simp only [queries_execute_count]
  refine ⟨fun strategy => ?_, fun n hsmp hn => ?_, fun failure hcores => ?_, fun records hrecords => ?_,
    fun path hunknown => ?_⟩
  · have hnamed := questionsOn_sublist host strategy
    refine ⟨fun other h => execute_count_congr h console, hnamed.nodup (nodup_questionsNamed strategy),
      hnamed, fun sysctl h => ?_⟩
    exact execute_with_sysctl host console sysctl fun key hkey => h key (hnamed.subset hkey)
  · rw [Probe.execute_eq, run_smpCount] at hsmp
    have hunasked := online_notMem_of_usable host hsmp hn
    exact ⟨hunasked, execute_with_online host console hunasked⟩
  · have hunasked := threads_notMem_of_error host hcores
    refine ⟨hunasked, fun sysctl h => execute_with_sysctl host console sysctl fun key hkey => h key ?_⟩
    rintro rfl
    exact hunasked hkey
  · have hunasked := system_notMem_of_records host hrecords
    exact ⟨hunasked, execute_with_system host console hunasked⟩
  · have hunasked : ∀ other, .file other ∉ questionsOn host (.linux path) :=
      file_notMem_of_unknown host hunknown
    exact ⟨hunasked, execute_with_files host console hunasked⟩

/-- A kernel that fails to tell of its cores but knows of threads, one that tells of both, a list of
records without any, and a number of online processors that is unknown. -/
theorem count_of_answers_asked_fallbacks :
    let host : Host := {
      onlineProcessors := -1
      sysctl := fun _ => .error (.code 5)
      logicalProcessors := some []
      systemProcessorCount := 0
      file := fun _ => .error .noSuchEntry }
    let threaded : Host := { host with
      sysctl := fun key => if key = Os.SysctlKey.cores then .error (.code 5) else .ok 2
      systemProcessorCount := 9 }
    let usable : Host := { host with sysctl := fun _ => .ok 2 }
    let console : Console := { level := DisplayLevel.trace }
    let failed := Strategy.freeBsd.count.execute host console
    let counted := Strategy.freeBsd.count.execute usable console
    let recorded := Strategy.windows.count.execute host console
    let unknown := (Strategy.linux []).count.execute host console
    (∀ query ∈ failed.queries, AnswersAlike host threaded query) ∧
      Strategy.freeBsd.count.execute threaded console = failed ∧
      .sysctl Os.SysctlKey.threadsPerCore ∉ failed.queries ∧
      .onlineProcessors ∉ counted.queries ∧
      Strategy.freeBsd.count.execute { usable with onlineProcessors := 7 } console = counted ∧
      counted.value = 4 ∧
      .systemProcessorCount ∉ recorded.queries ∧
      Strategy.windows.count.execute { host with systemProcessorCount := 9 } console = recorded ∧
      .file [] ∉ unknown.queries ∧
      (Strategy.linux []).count.execute { host with file := fun _ => .ok [] } console = unknown := by
  intro host threaded usable console failed counted recorded unknown
  have hqueries : failed.queries = [.sysctl Os.SysctlKey.cores, .onlineProcessors] := by rfl
  have halike : ∀ query ∈ failed.queries, AnswersAlike host threaded query := by
    rw [hqueries]
    simp [AnswersAlike, host, threaded]
  obtain ⟨hasked, -, hthreads, hrecords, hfile⟩ := count_of_answers_asked host console
  obtain ⟨honline, husable⟩ := (count_of_answers_asked usable console).2.1 4 (by rfl) (by decide)
  obtain ⟨hsystem, hrecorded⟩ := hrecords [] rfl
  obtain ⟨hunread, hunknown⟩ := hfile [] (by decide)
  exact ⟨halike, (hasked .freeBsd).1 threaded halike, (hthreads (.code 5) rfl).1, honline, husable 7,
    by rfl, hsystem, hrecorded 9, hunread [], hunknown (fun _ => .ok [])⟩

end CoreCount.Proofs
