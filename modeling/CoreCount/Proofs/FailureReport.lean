import CoreCount.Proofs.DisplayLevels

/-!
# The report of a failed run

A cpuinfo file that cannot be read is reported by the run that was to report on it, and by the count
on Linux in its trace. Both show the path and the error in the same words. The run appends the
failure that lies behind the error, which the error has named already: a file that is malformed is
reported once, and a failure to read one twice in a line.
-/

namespace CoreCount.Proofs
open CommandLine Cpuinfo

/-- The line in which a run reports that it cannot read a file. -/
def failureLine (path : Bytes) (reason : String) : String :=
  "lz4-cores: can't parse cpuinfo file " ++ Utf8.showBytes path ++ ": " ++ reason ++ "\n"

/-- The line in which the count on Linux reports it. -/
def traceLine (path : Bytes) (reason : String) : String :=
  "cores: " ++ Utf8.showBytes path ++ ": " ++ reason ++ ", keeping sysconf value\n"

lemma failureLine_inj {path : Bytes} {reason other : String} :
    failureLine path reason = failureLine path other ↔ reason = other := by
  unfold failureLine
  rw [String.append_left_inj, String.append_right_inj]

lemma cpuinfoFailedText_eq (path : Bytes) (e : Error) :
    Run.cpuinfoFailedText path e = failureLine path e.chain := by
  have hhead : Identity.programName ++ ": can't parse cpuinfo file " =
      "lz4-cores: can't parse cpuinfo file " := by decide
  have htext : Run.cpuinfoFailedText path e =
      Identity.programName ++ ": can't parse cpuinfo file " ++ Utf8.showBytes path ++ ": " ++
        e.chain ++ "\n" := rfl
  rw [htext, hhead]
  rfl

lemma chain_unreadable (cause : Os.Failure) :
    (Error.unreadable cause).chain = (Error.unreadable cause).message ++ ": " ++ cause.message := rfl

/-- An error and the failure behind it say no more than the error alone only where there is no such
failure. -/
lemma chain_eq_message_iff (e : Error) : e.chain = e.message ↔ ∃ fault, e = .malformed fault := by
  cases e with
  | malformed fault => exact ⟨fun _ => ⟨fault, rfl⟩, fun _ => rfl⟩
  | unreadable cause =>
    rw [chain_unreadable]
    constructor
    · intro hchain
      have hlength := congrArg String.length hchain
      simp only [String.length_append] at hlength
      have hcolon : ": ".length = 2 := by decide
      omega
    · rintro ⟨fault, hfault⟩
      cases hfault

lemma visible_failed {level : UInt32} (h : DisplayLevel.error ≤ level) (host : Host) {path : Bytes}
    {e : Error} (he : topologyAt host path = .error e) :
    visible level (messagesOfRun host (some path)) =
      visible level opening ++ [⟨DisplayLevel.error, failureLine path e.chain⟩] := by
  have hmessages : messagesOfRun host (some path) =
      opening ++ [⟨DisplayLevel.error, Run.cpuinfoFailedText path e⟩] := by
    simp [messagesOfRun, he]
  rw [hmessages, cpuinfoFailedText_eq]
  simp [visible, h]

lemma messages_countLinux_failed {host : Host} {path : Bytes} {e : Error}
    (honline : ¬host.onlineProcessors < 1) (he : topologyAt host path = .error e) :
    ((Strategy.linux path).count.run host).messages =
      [⟨DisplayLevel.trace, traceLine path e.message⟩] := by
  rw [messages_countLinux honline, topologyTrace, he]
  rfl

/-- The last message of a run that cannot read its file, wherever errors are shown, names the path and
the error in the words in which the count on Linux names them. It is that and nothing more exactly
where the file is malformed. After an error that a failure lies behind, it tells this failure again,
though the words of the error end with it. -/
theorem last_message_of_failed_run (host : Host) {arguments : List Bytes} {o : Options}
    {path : Bytes} {e : Error} (h : CommandLine.parse arguments = .ok o)
    (hpath : o.cpuinfo = some path) (he : topologyAt host path = .error e)
    (hlevel : DisplayLevel.error ≤ o.displayLevel) :
    let seen := ((Run.run o).run host).messages.filter (·.threshold ≤ o.displayLevel)
    (transcript host arguments).stderr = String.join (seen.map (·.text)) ∧
    (∀ other : Host, other.file path = host.file path → ¬other.onlineProcessors < 1 →
      ((Strategy.linux path).count.run other).messages =
        [⟨DisplayLevel.trace, traceLine path e.message⟩]) ∧
    (seen.getLast? = some ⟨DisplayLevel.error, failureLine path e.message⟩ ↔
      ∃ fault, e = .malformed fault) ∧
    ∀ cause, e = .unreadable cause →
      e.message = "read error: " ++ cause.message ∧
      seen.getLast? =
        some ⟨DisplayLevel.error, failureLine path (e.message ++ ": " ++ cause.message)⟩ := by
  intro seen
  have hmessages : ((Run.run o).run host).messages = messagesOfRun host (some path) := by
    rw [messages_run, hpath]
  have hlast : seen.getLast? = some ⟨DisplayLevel.error, failureLine path e.chain⟩ := by
    have hseen : seen = visible o.displayLevel opening ++
        [⟨DisplayLevel.error, failureLine path e.chain⟩] := by
      rw [← visible_failed hlevel host he, ← hmessages]
      rfl
    rw [hseen, List.getLast?_concat]
  refine ⟨?_, fun other hfile honline => ?_, ?_, fun cause hcause => ?_⟩
  · rw [transcript_eq_visible host h, hpath, ← hmessages]
    rfl
  · have hother : topologyAt other path = .error e := by
      rw [← he]
      unfold topologyAt
      rw [hfile]
    exact messages_countLinux_failed honline hother
  · rw [hlast, ← chain_eq_message_iff, Option.some.injEq, Message.mk.injEq, failureLine_inj]
    exact ⟨fun heq => heq.2, fun heq => ⟨rfl, heq⟩⟩
  · subst hcause
    exact ⟨rfl, hlast⟩

/-- A field line without a colon, reported by a run whose errors alone are shown. -/
theorem last_message_of_failed_run_malformed :
    let path := Bytes.ofString "snapshot"
    let host := hostOver 8 (({} : Os.FileSystem).makePath path
      (.file (Bytes.ofString "siblings 8\n")))
    let arguments := ["-q", "--cpuinfo", "snapshot"].map Bytes.ofString
    let o : Options := { quiet := 1, cpuinfo := some path }
    let e : Error := .malformed ⟨1, .siblings⟩
    CommandLine.parse arguments = .ok o ∧ topologyAt host path = .error e ∧
      DisplayLevel.error ≤ o.displayLevel ∧
      (((Run.run o).run host).messages.filter (·.threshold ≤ o.displayLevel)).getLast? =
        some ⟨DisplayLevel.error, failureLine path e.message⟩ ∧
      ((Strategy.linux path).count.run host).messages =
        [⟨DisplayLevel.trace, traceLine path e.message⟩] ∧
      (transcript host arguments).stderr =
        "lz4-cores: can't parse cpuinfo file snapshot: " ++
          "line 1: 'siblings' entry has no ':' separator\n" := by
  intro path host arguments o e
  have h : CommandLine.parse arguments = .ok o := by rfl
  have he : topologyAt host path = .error e := by decide +kernel
  have hlevel : DisplayLevel.error ≤ o.displayLevel := by decide
  obtain ⟨hstderr, hlinux, hlast, -⟩ := last_message_of_failed_run host h rfl he hlevel
  refine ⟨h, he, hlevel, hlast.mpr ⟨_, rfl⟩, hlinux host rfl (by decide), ?_⟩
  rw [hstderr]
  decide +kernel

/-- A file that is not there: what the run writes does not end with the path and the error. -/
theorem last_message_of_failed_run_repeats :
    let path := Bytes.ofString "gone"
    let host := hostOver 8 {}
    let arguments := ["--cpuinfo", "gone"].map Bytes.ofString
    let o : Options := { cpuinfo := some path }
    let e : Error := .unreadable .noSuchEntry
    CommandLine.parse arguments = .ok o ∧ topologyAt host path = .error e ∧
      DisplayLevel.error ≤ o.displayLevel ∧
      e.message = "read error: No such file or directory (os error 2)" ∧
      (transcript host arguments).stderr =
        "lz4-cores: can't parse cpuinfo file gone: read error: " ++
          "No such file or directory (os error 2): No such file or directory (os error 2)\n" ∧
      ¬(failureLine path e.message).toList <:+ (transcript host arguments).stderr.toList := by
  intro path host arguments o e
  have h : CommandLine.parse arguments = .ok o := by rfl
  have he : topologyAt host path = .error e := by decide +kernel
  exact ⟨h, he, by decide, by decide, by decide +kernel, by decide +kernel⟩

end CoreCount.Proofs
