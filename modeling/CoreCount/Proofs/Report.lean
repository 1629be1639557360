import CoreCount.Proofs.Completion
import CoreCount.Proofs.DecimalText

/-!
# The report on a cpuinfo file

What a run prints of a cpuinfo file is a cpuinfo file in turn: the lines of the two fields give them
the same values, and the lines of the ratio and of the count give no field. So a run on what an
earlier run has printed prints the same once more.
-/

namespace CoreCount.Proofs
open Cpuinfo

/-- A line of a report, without its end. -/
def entry (name : String) (n : Int) : Bytes :=
  Bytes.ofString name ++ Bytes.ofString (toString n)

lemma ofString_report (t : Topology) (count : Nat) :
    Bytes.ofString (t.report ++ s!"{count}\n") =
      ([entry "siblings  : " t.siblings.toInt, entry "cpu cores : " t.cpuCores.toInt,
        entry "ratio     : " t.ratio.toInt, entry "" count].map (· ++ [Bytes.newline])).flatten := by
  have hend : Bytes.ofString "\n" = [Bytes.newline] := by decide
  have hcount : toString (count : Int) = toString count := rfl
  have htext : t.report ++ s!"{count}\n" =
      "siblings  : " ++ toString t.siblings.toInt ++ "\n" ++
        ("cpu cores : " ++ toString t.cpuCores.toInt ++ "\n") ++
        ("ratio     : " ++ toString t.ratio.toInt ++ "\n") ++ (toString count ++ "\n") := rfl
  rw [htext]
  simp only [entry, hcount, Bytes.ofString_append, hend, Bytes.ofString_empty, List.map_cons,
    List.map_nil, List.flatten_cons, List.flatten_nil, List.append_assoc, List.append_nil,
    List.nil_append]

lemma newline_notMem_entry {name : String} (h : Bytes.newline ∉ Bytes.ofString name) (n : Int) :
    Bytes.newline ∉ entry name n := by
  intro hmem
  rcases List.mem_append.mp hmem with hname | hnumber
  · exact h hname
  · rcases isDigit_or_minusSign_toString n _ hnumber with hdigit | hminus
    · exact absurd hdigit (by decide)
    · exact absurd hminus (by decide)

/-- A line gives a field only if it begins with the first byte of the field's label. -/
lemma Gives.head? {f : Field} {line : Bytes} (h : Gives f line) :
    line.head? = (Bytes.ofString f.label).head? := by
  obtain ⟨rest, rfl⟩ := h
  cases f <;> rfl

lemma not_gives_of_head? {line : Bytes} {b : UInt8} (hline : line.head? = some b)
    (h : ∀ f : Field, (Bytes.ofString f.label).head? ≠ some b) (f : Field) : ¬Gives f line :=
  fun hf => h f (hf.head?.symm.trans hline)

/-- The line of a field, which may have anything but a separator between label and separator, gives
the field its number. -/
lemma readLine_entry (t : Topology) (number : Nat) (f : Field) (name : String) (padding : Bytes)
    (hname : Bytes.ofString name = Bytes.ofString f.label ++ padding ++ separator :: [32])
    (hsep : separator ∉ Bytes.ofString f.label ++ padding) (n : Int32) :
    t.readLine number (entry name n.toInt ++ [Bytes.newline]) = .ok (t.set f n) := by
  have hspace : ∀ b ∈ [32], b ∈ blanks := List.forall_mem_singleton.mpr (by decide)
  have hend : ∀ b ∈ [Bytes.newline].head?, b ∉ decimals := by
    intro b hb
    obtain rfl : Bytes.newline = b := Option.some.inj hb
    decide
  have hvalue : leadingNumber ([32] ++ Bytes.ofString (toString n.toInt) ++ [Bytes.newline]) = n :=
    leadingNumber_toString [32] [Bytes.newline] hspace hend n
  have hline : entry name n.toInt ++ [Bytes.newline] =
      (Bytes.ofString f.label ++ padding) ++
        separator :: ([32] ++ Bytes.ofString (toString n.toInt) ++ [Bytes.newline]) := by
    simp [entry, hname]
  have hgives : Gives f (entry name n.toInt ++ [Bytes.newline]) := by
    rw [hline, List.append_assoc]
    exact List.prefix_append _ _
  unfold Topology.readLine
  rw [ofLine?_of_gives hgives, hline, after?_of_notMem hsep]
  simp only [hvalue]

lemma not_gives_ratioLine (n : Int) (f : Field) :
    ¬Gives f (entry "ratio     : " n ++ [Bytes.newline]) := by
  have hhead : (entry "ratio     : " n ++ [Bytes.newline]).head? = some 114 := rfl
  exact not_gives_of_head? hhead (by intro g; cases g <;> decide) f

lemma head?_label (f : Field) : ∃ b, (Bytes.ofString f.label).head? = some b ∧ ¬isDigit b := by
  cases f with
  | siblings => exact ⟨115, rfl, by decide⟩
  | cpuCores => exact ⟨99, rfl, by decide⟩

lemma not_gives_countLine (count : Nat) (f : Field) :
    ¬Gives f (entry "" count ++ [Bytes.newline]) := by
  obtain ⟨b, rest, hrepr⟩ := List.exists_cons_of_ne_nil (ofString_repr_ne_nil count)
  have hdigit : isDigit b := isDigit_repr count b (by simp [hrepr])
  have hline : entry "" count = b :: rest := hrepr
  have hhead : (entry "" count ++ [Bytes.newline]).head? = some b := by rw [hline]; rfl
  refine not_gives_of_head? hhead (fun g hg => ?_) f
  obtain ⟨c, hc, hletter⟩ := head?_label g
  rw [hc, Option.some.injEq] at hg
  exact hletter (hg ▸ hdigit)

lemma readLines_cons {t t' : Topology} {number : Nat} {line : Bytes}
    (h : t.readLine number line = .ok t') (rest : List Bytes) :
    t.readLines number (line :: rest) = t'.readLines (number + 1) rest := by
  rw [Topology.readLines, h]

/-- The report on a topology, with a count after it, is a cpuinfo file of that topology. -/
lemma readLines_report (t : Topology) (count : Nat) :
    Topology.readLines {} 1 (textLines (Bytes.ofString (t.report ++ s!"{count}\n"))) = .ok t := by
  rw [ofString_report, textLines_flatten]
  · simp only [List.map_cons, List.map_nil]
    rw [readLines_cons (readLine_entry {} _ .siblings "siblings  : " [32, 32] (by decide)
        (by decide) t.siblings),
      readLines_cons (readLine_entry _ _ .cpuCores "cpu cores : " [32] (by decide) (by decide)
        t.cpuCores),
      readLines_cons (readLine_none _ _ (not_gives_ratioLine _)),
      readLines_cons (readLine_none _ _ (not_gives_countLine _))]
    rfl
  · simp only [List.forall_mem_cons]
    exact ⟨newline_notMem_entry (by decide) _, newline_notMem_entry (by decide) _,
      newline_notMem_entry (by decide) _, newline_notMem_entry (by decide) _, by simp⟩

/-- The file at a path opens, and its reads deliver a text, in any pieces and without a failure. -/
def FileHolds (host : Host) (path : Bytes) (text : String) : Prop :=
  ∃ reads, host.file path = .ok reads ∧ (∀ r ∈ reads, passes r) ∧
    deliveredBytes reads = Bytes.ofString text

lemma topologyAt_report {host : Host} {path : Bytes} {t : Topology} {count : Nat}
    (h : FileHolds host path (t.report ++ s!"{count}\n")) : topologyAt host path = .ok t := by
  obtain ⟨reads, hfile, hpass, hbytes⟩ := h
  unfold topologyAt
  rw [hfile]
  dsimp only
  rw [parse_passing reads hpass, hbytes, readLines_report]
  rfl

/-- What is printed of a topology, with any count after it, is parsed as that topology, the least
and the greatest value of a field included. So a run on a file that holds what an earlier run has
printed of its file prints the same, if the count is the same. -/
theorem report_reads_back :
    (∀ (t : Topology) (count : Nat),
      parse [.data (Bytes.ofString (t.report ++ s!"{count}\n"))] = .ok t) ∧
    (∀ (host : Host) (arguments : List Bytes) (o : CommandLine.Options) (path : Bytes)
      (t : Topology),
      CommandLine.parse arguments = .ok o → o.cpuinfo = some path → topologyAt host path = .ok t →
      (transcript host arguments).stdout = t.report ++ s!"{(hostCount host).toNat}\n") ∧
    ∀ (host again : Host) (arguments argumentsAgain : List Bytes) (o oAgain : CommandLine.Options)
      (path pathAgain : Bytes),
      CommandLine.parse arguments = .ok o → o.cpuinfo = some path →
      (transcript host arguments).exit = 0 →
      CommandLine.parse argumentsAgain = .ok oAgain → oAgain.cpuinfo = some pathAgain →
      FileHolds again pathAgain (transcript host arguments).stdout →
      hostCount again = hostCount host →
      (transcript again argumentsAgain).exit = 0 ∧
        (transcript again argumentsAgain).stdout = (transcript host arguments).stdout := by
  refine ⟨fun t count => ?_, fun host arguments o path t h hpath ht => ?_, ?_⟩
  · rw [parse_data, readLines_report]
    rfl
  · exact (transcript_with_file host h hpath ht).2
  · intro host again arguments argumentsAgain o oAgain path pathAgain h hpath hexit hAgain
      hpathAgain hfile hcount
    cases ht : topologyAt host path with
    | error e =>
      have hfailed := (transcript_with_unreadable_file host h hpath ht).1
      rw [hexit] at hfailed
      contradiction
    | ok t =>
      have hstdout := (transcript_with_file host h hpath ht).2
      rw [hstdout] at hfile ⊢
      have htAgain : topologyAt again pathAgain = .ok t := topologyAt_report hfile
      rw [← hcount]
      exact transcript_with_file again hAgain hpathAgain htAgain

/-- A value below 32 bits is printed as the least one of them, and the rest stays as it is. -/
theorem report_reads_back_saturated :
    let files := ({} : Os.FileSystem).makePath (Bytes.ofString "snapshot")
      (.file (Bytes.ofString "cpu cores\t: 4\nsiblings: -99999999999\n"))
    let host := hostOver 8 files
    let arguments := ["--cpuinfo", "snapshot"].map Bytes.ofString
    let printed := "siblings  : -2147483648\ncpu cores : 4\nratio     : 1\n8\n"
    let again := hostOver 8 (files.makePath (Bytes.ofString "captured")
      (.file (Bytes.ofString printed)))
    let argumentsAgain := ["-v", "--cpuinfo=captured", "--uncached"].map Bytes.ofString
    (transcript host arguments).exit = 0 ∧ (transcript host arguments).stdout = printed ∧
      FileHolds again (Bytes.ofString "captured") printed ∧ hostCount again = hostCount host ∧
      (transcript again argumentsAgain).exit = 0 ∧
      (transcript again argumentsAgain).stdout = printed := by
  intro files host arguments printed again argumentsAgain
  have h : CommandLine.parse arguments =
      .ok { cpuinfo := some (Bytes.ofString "snapshot") } := by rfl
  have hAgain : CommandLine.parse argumentsAgain =
      .ok { verbose := 1, uncached := true, cpuinfo := some (Bytes.ofString "captured") } := by rfl
  have ht : topologyAt host (Bytes.ofString "snapshot") = .ok ⟨Int32.minValue, 4⟩ := by
    decide +kernel
  have htext : Topology.report ⟨Int32.minValue, 4⟩ ++ s!"{(hostCount host).toNat}\n" = printed := by
    decide +kernel
  have hstdout : (transcript host arguments).stdout = printed :=
    (report_reads_back.2.1 host arguments _ _ _ h rfl ht).trans htext
  have hexit : (transcript host arguments).exit = 0 := (transcript_with_file host h rfl ht).1
  have hcount : hostCount again = hostCount host := by rfl
  have hfile : FileHolds again (Bytes.ofString "captured") printed :=
    ⟨[.data (Bytes.ofString printed)], by rfl, by decide, by rfl⟩
  have hrun := report_reads_back.2.2 host again arguments argumentsAgain _ _ _ _ h rfl hexit hAgain
    rfl (hstdout ▸ hfile) hcount
  exact ⟨hexit, hstdout, hfile, hcount, hrun.1, hrun.2.trans hstdout⟩

end CoreCount.Proofs
