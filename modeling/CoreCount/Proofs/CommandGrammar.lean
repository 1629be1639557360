import CoreCount.Proofs.CommandReading
import CoreCount.Proofs.ParseMeaning
import CoreCount.Run
import Mathlib.Data.List.TakeWhile

/-!
# Which command lines ask for a count

Reading from left to right accepts exactly the sequences of items and comes to what the items ask
for. Every other command line asks for help or the version, or is a usage error.
-/

namespace CoreCount.Proofs
open CommandLine

lemma toNat_ofNat_ascii {n : Nat} (h : n < 128) : (Char.ofNat n).toNat = n := by
  unfold Char.ofNat
  rw [dif_pos (.inl (by omega))]
  rfl

lemma letter?_of_ofLetter? {c : Char} {f : Flag} (h : Flag.ofLetter? c = some f) :
    f.letter? = some c := by
  simpa using List.find?_some h

lemma ofLetter?_beyond {c : Char} (h : BeyondAscii c) : Flag.ofLetter? c = none := by
  cases hf : Flag.ofLetter? c with
  | none => rfl
  | some f =>
    have hc := letter?_of_ofLetter? hf
    have hascii : ∀ c, f.letter? = some c → ¬BeyondAscii c := by
      unfold BeyondAscii
      cases f <;> simp [Flag.letter?]
    exact absurd h (hascii c hc)

/-- A letter that reading accepts is one of a flag that counts. -/
lemma counting_of_actOn {o : Options} {t : Progress} {f : Flag} {b : UInt8} (hb : b < 0x80)
    (hf : Flag.ofLetter? (Char.ofNat b.toNat) = some f)
    (h : Progress.actOn ⟨o, .none⟩ f = .ok t) : ∃ c : Counting, f = c.flag ∧ b = c.letter := by
  have hletter := letter?_of_ofLetter? hf
  have hnumber : (Char.ofNat b.toNat).toNat = b.toNat := toNat_ofNat_ascii (by
    simpa [UInt8.lt_iff_toNat_lt] using hb)
  cases f with
  | verbose =>
    refine ⟨.verbose, rfl, UInt8.toNat_inj.mp ?_⟩
    rw [← hnumber, ← Option.some.inj hletter]
    rfl
  | quiet =>
    refine ⟨.quiet, rfl, UInt8.toNat_inj.mp ?_⟩
    rw [← hnumber, ← Option.some.inj hletter]
    rfl
  | uncached => cases hletter
  | help => cases h
  | version => cases h

lemma counted_of_readLetters {o : Options} {t : Progress} {s : Bytes}
    (h : Progress.readLetters ⟨o, .none⟩ (Utf8.pieces s) = .ok t) :
    ∃ counted : List Counting, s = counted.map Counting.letter := by
  induction s generalizing o with
  | nil => exact ⟨[], rfl⟩
  | cons b s ih =>
    by_cases hb : b < 0x80
    · rw [pieces_cons_ascii hb, Progress.readLetters] at h
      cases hf : Flag.ofLetter? (Char.ofNat b.toNat) with
      | none =>
        rw [hf] at h
        cases h
      | some f =>
        simp only [hf] at h
        cases hact : Progress.actOn ⟨o, .none⟩ f with
        | error e =>
          rw [hact] at h
          cases h
        | ok next =>
          obtain ⟨c, rfl, rfl⟩ := counting_of_actOn hb hf hact
          rw [actOn_counting] at h
          obtain ⟨counted, rfl⟩ := ih h
          exact ⟨c :: counted, rfl⟩
    · obtain ⟨piece, rest, hpieces, hbeyond⟩ := pieces_cons_beyond hb s
      rw [hpieces] at h
      cases piece with
      | illFormed => cases h
      | char c =>
        rw [Progress.readLetters, ofLetter?_beyond (hbeyond c rfl)] at h
        cases h

lemma takeWhile_of_after?_none {b : UInt8} {s : Bytes} (h : Bytes.after? b s = none) :
    s.takeWhile (· ≠ b) = s := by
  rw [after?_eq] at h
  have hnot : b ∉ s := by
    intro hmem
    simp [hmem] at h
  exact List.takeWhile_eq_self_iff.mpr fun c hc => by
    simpa using fun he : c = b => hnot (he ▸ hc)

lemma eq_takeWhile_append_of_after? {b : UInt8} {s rest : Bytes}
    (h : Bytes.after? b s = some rest) : s = s.takeWhile (· ≠ b) ++ b :: rest := by
  induction s with
  | nil => cases h
  | cons c s ih =>
    by_cases hc : c = b
    · simp_all [Bytes.after?]
    · have hs : Bytes.after? b s = some rest := by simpa [Bytes.after?, hc] using h
      simpa [hc] using ih hs

/-- The flags that do not end the reading are words of items. -/
lemma item_of_actOn {o : Options} {t : Progress} {f : Flag}
    (h : Progress.actOn ⟨o, .none⟩ f = .ok t) :
    (∃ item : Item, item.arguments = [dash :: dash :: Bytes.ofString f.longName]) ∧
      t.pending = .none := by
  obtain ⟨verbose, quiet, uncached, cpuinfo⟩ := o
  cases f with
  | verbose =>
    cases h
    exact ⟨⟨.word .verbose, rfl⟩, rfl⟩
  | quiet =>
    cases h
    exact ⟨⟨.word .quiet, rfl⟩, rfl⟩
  | uncached =>
    cases uncached with
    | true => cases h
    | false =>
      cases h
      exact ⟨⟨.uncached, rfl⟩, rfl⟩
  | help => cases h
  | version => cases h

lemma eq_of_ofLongName? {name : Bytes} {f : Flag} (h : Flag.ofLongName? name = some f) :
    Bytes.ofString f.longName = name := by
  simpa using List.find?_some h

/-- A word that reading accepts is that of a flag, or it is the option of the path. -/
lemma item_of_readLong {o : Options} {t : Progress} {body : Bytes}
    (h : Progress.readLong ⟨o, .none⟩ body = .ok t) :
    (∃ item : Item, item.arguments = [dash :: dash :: body] ∧ t.pending = .none) ∨
      dash :: dash :: body = Bytes.ofString "--cpuinfo" ∧ t.pending = .expected := by
  unfold Progress.readLong splitValue at h
  dsimp only at h
  by_cases hname : body.takeWhile (· ≠ equalsSign) = Bytes.ofString PathOption.longName
  · rw [if_pos hname] at h
    cases hvalue : Bytes.after? equalsSign body with
    | none =>
      rw [takeWhile_of_after?_none hvalue] at hname
      rw [hvalue] at h
      cases h
      exact .inr ⟨congrArg (fun s => dash :: dash :: s) hname, rfl⟩
    | some path =>
      have hbody := eq_takeWhile_append_of_after? hvalue
      rw [hname] at hbody
      rw [hvalue] at h
      change (Progress.store ⟨o, .none⟩ path).mapError Ending.usage = .ok t at h
      cases hstore : Progress.store ⟨o, .none⟩ path with
      | error e =>
        rw [hstore] at h
        cases h
      | ok stored =>
        rw [hstore] at h
        cases h
        obtain ⟨hpending, hpath⟩ := pending_of_store hstore
        refine .inl ⟨.pathAttached path hpath, ?_, hpending⟩
        rw [hbody]
        rfl
  · rw [if_neg hname] at h
    cases hf : Flag.ofLongName? (body.takeWhile (· ≠ equalsSign)) with
    | none =>
      rw [hf] at h
      cases h
    | some f =>
      cases hvalue : Bytes.after? equalsSign body with
      | some value =>
        rw [hf, hvalue] at h
        cases h
      | none =>
        have hbody := eq_of_ofLongName? hf
        rw [takeWhile_of_after?_none hvalue] at hbody
        rw [hf, hvalue] at h
        obtain ⟨⟨item, hitem⟩, hpending⟩ := item_of_actOn h
        exact .inl ⟨item, hbody ▸ hitem, hpending⟩

/-- What reading accepts where no path is expected. -/
lemma item_of_readArgument {o : Options} {t : Progress} {argument : Bytes}
    (h : Progress.readArgument ⟨o, .none⟩ argument = .ok t) :
    (∃ item : Item, item.arguments = [argument] ∧ t.pending = .none) ∨
      argument = Bytes.ofString "--cpuinfo" ∧ t.pending = .expected := by
  rcases plain_or_option argument with hplain | ⟨body, rfl⟩ | ⟨b, rest, hb, rfl⟩
  · rw [readArgument_plain hplain] at h
    cases h
  · exact item_of_readLong h
  · rw [readArgument_letters _ hb] at h
    obtain ⟨counted, hcounted⟩ := counted_of_readLetters h
    have hnonempty : counted ≠ [] := by
      rintro rfl
      cases hcounted
    rw [hcounted, readLetters_counted] at h
    cases h
    refine .inl ⟨.letters counted hnonempty, ?_, rfl⟩
    rw [hcounted]
    rfl

/-- What reading accepts where a path is expected. -/
lemma plain_of_readArgument {o : Options} {t : Progress} {argument : Bytes}
    (h : Progress.readArgument ⟨o, .expected⟩ argument = .ok t) :
    Plain argument ∧ t = ⟨o, .given argument⟩ := by
  have hsettle : Progress.settle ⟨o, .expected⟩ = .error .missingPath := rfl
  rcases plain_or_option argument with hplain | ⟨body, rfl⟩ | ⟨b, rest, hb, rfl⟩
  · rw [readArgument_plain hplain] at h
    cases h
    exact ⟨hplain, rfl⟩
  · have hnone := readLong_of_settle_error hsettle body
    rw [← readArgument_long, h] at hnone
    cases hnone
  · obtain ⟨piece, pieces, hpieces⟩ := exists_pieces_cons b rest
    have hnone := readLetters_of_settle_error hsettle piece pieces
    rw [← hpieces, ← readArgument_letters _ hb, h] at hnone
    cases hnone

lemma Spells.cons {items : List Item} {arguments : List Bytes} (h : Spells items arguments)
    (item : Item) : Spells (item :: items) (item.arguments ++ arguments) := by
  rcases h with rfl | rfl
  · exact .inl rfl
  · exact .inr (by simp)

/-- Where a path is expected, reading goes on behind a path that stands apart. -/
lemma path_of_completed {o o' : Options} {arguments : List Bytes}
    (h : completed ⟨o, .expected⟩ arguments = some o') :
    ∃ path rest next, arguments = path :: rest ∧ path ≠ [] ∧ Plain path ∧
      completed ⟨next, .none⟩ rest = some o' := by
  cases arguments with
  | nil => cases h
  | cons path rest =>
    by_cases hd : path = doubleDash
    · subst hd
      cases rest <;> cases h
    · rw [completed_cons hd] at h
      obtain ⟨t, ht, hrest⟩ := Option.bind_eq_some_iff.mp h
      obtain ⟨hplain, rfl⟩ := plain_of_readArgument (toOption_eq_some_iff.mp ht)
      rw [completed_settle (by simp)] at hrest
      obtain ⟨⟨next, pending⟩, hsettle, hnext⟩ := Option.bind_eq_some_iff.mp hrest
      obtain ⟨rfl, hpath⟩ := pending_of_store (toOption_eq_some_iff.mp hsettle)
      exact ⟨path, rest, next, rfl, hpath, hplain, hnext⟩

/-- Arguments that reading accepts are those of some items. -/
theorem spelled_of_completed {o o' : Options} {arguments : List Bytes}
    (h : completed ⟨o, .none⟩ arguments = some o') : ∃ items, Spells items arguments := by
  -- on the number of arguments, as a path that stands apart takes two of them
  induction hlength : arguments.length using Nat.strong_induction_on generalizing o arguments with
  | _ n ih =>
    cases arguments with
    | nil => exact ⟨[], .inl rfl⟩
    | cons argument rest =>
      by_cases hd : argument = doubleDash
      · subst hd
        cases rest with
        | nil => exact ⟨[], .inr rfl⟩
        | cons next rest => cases h
      · rw [completed_cons hd] at h
        obtain ⟨⟨next, pending⟩, hread, hrest⟩ := Option.bind_eq_some_iff.mp h
        rw [List.length_cons] at hlength
        rcases item_of_readArgument (toOption_eq_some_iff.mp hread) with
          ⟨item, hitem, rfl⟩ | ⟨rfl, rfl⟩
        · obtain ⟨items, hitems⟩ := ih rest.length (by omega) hrest rfl
          refine ⟨item :: items, ?_⟩
          have hspells := hitems.cons item
          rwa [hitem] at hspells
        · obtain ⟨path, others, after, rfl, hpath, hplain, hothers⟩ := path_of_completed hrest
          rw [List.length_cons] at hlength
          obtain ⟨items, hitems⟩ := ih others.length (by omega) hothers rfl
          exact ⟨.pathApart path hpath hplain :: items, hitems.cons _⟩

theorem parse_eq_ok_iff (arguments : List Bytes) (o : Options) :
    parse arguments = .ok o ↔ ∃ items, Spells items arguments ∧ Adds items {} o := by
  rw [← toOption_eq_some_iff, toOption_parse]
  constructor
  · intro h
    obtain ⟨items, hitems⟩ := spelled_of_completed h
    rw [completed_spelled {} hitems] at h
    exact ⟨items, hitems, (foldlM_afterItem_iff items {} o).mp h⟩
  · rintro ⟨items, hitems, hadds⟩
    rw [completed_spelled {} hitems]
    exact (foldlM_afterItem_iff items {} o).mpr hadds

lemma toNat_displayLevel (o : Options) :
    (o.displayLevel.toNat : Int) = max 0 (2 + o.verbose.toNat - o.quiet.toNat) := by
  have hverbose : o.verbose.toNat < 256 := o.verbose.toNat_lt
  have hraised : (DisplayLevel.normal + o.verbose.toUInt32).toNat = 2 + o.verbose.toNat := by
    have hnormal : DisplayLevel.normal.toNat = 2 := rfl
    rw [UInt32.toNat_add, UInt8.toNat_toUInt32, hnormal]
    omega
  unfold Options.displayLevel
  dsimp only
  split
  · rename_i hle
    rw [UInt32.le_iff_toNat_le, hraised, UInt8.toNat_toUInt32] at hle
    have hsilent : DisplayLevel.silent.toNat = 0 := rfl
    omega
  · rename_i hlt
    rw [UInt32.le_iff_toNat_le, hraised, UInt8.toNat_toUInt32] at hlt
    rw [UInt32.toNat_sub_of_le _ _ (by
      rw [UInt32.le_iff_toNat_le, hraised, UInt8.toNat_toUInt32]; omega), hraised,
      UInt8.toNat_toUInt32]
    omega

lemma adds_default_iff (items : List Item) (o : Options) :
    Adds items {} o ↔ items.countP Item.isUncached ≤ 1 ∧ (pathsGiven items).length ≤ 1 ∧
      (∀ c, (timesRead o c).toNat = min 255 (timesGiven c items)) ∧
      o.uncached = items.any Item.isUncached ∧ o.cpuinfo = (pathsGiven items).head? := by
  have hzero (c : Counting) : (timesRead {} c).toNat = 0 := by cases c <;> rfl
  simp [adds_iff, hzero]

lemma exists_adds (items : List Item) (huncached : items.countP Item.isUncached ≤ 1)
    (hpath : (pathsGiven items).length ≤ 1) : ∃ o, Adds items {} o := by
  let o : Options := {
    verbose := UInt8.ofNat (min 255 (timesGiven .verbose items))
    quiet := UInt8.ofNat (min 255 (timesGiven .quiet items))
    uncached := items.any Item.isUncached
    cpuinfo := (pathsGiven items).head? }
  refine ⟨o, (adds_default_iff items o).mpr ⟨huncached, hpath, fun c => ?_, rfl, rfl⟩⟩
  have hsize : min 255 (timesGiven c items) < 2 ^ 8 := by omega
  cases c <;> exact UInt8.toNat_ofNat_of_lt hsize

lemma exit_ending (ending : Ending) :
    (ending = .help ∨ ending = .version) ∧ ending.transcript.exit = 0 ∨
      (∃ e, ending = .usage e) ∧ ending.transcript.exit = 2 := by
  cases ending with
  | help => exact .inl ⟨.inl rfl, rfl⟩
  | version => exact .inl ⟨.inr rfl, rfl⟩
  | usage e => exact .inr ⟨⟨e, rfl⟩, rfl⟩

/-- A command line asks for a count if and only if it is a sequence of items among which `--uncached`
and a path stand at most once, and it may end with `--`. It asks for what the items say, in any
order: each flag counts how often it was given, up to 255, and the display level is what they
make of the normal one. Every other command line shows help or the version and exits with 0, or is
a usage error and exits with 2. -/
theorem parse_iff_items (arguments : List Bytes) :
    ((∃ o, parse arguments = .ok o) ↔
      ∃ items, Spells items arguments ∧ items.countP Item.isUncached ≤ 1 ∧
        (pathsGiven items).length ≤ 1) ∧
    (∀ o, parse arguments = .ok o ↔
      ∃ items, Spells items arguments ∧ items.countP Item.isUncached ≤ 1 ∧
        (pathsGiven items).length ≤ 1 ∧
        o.verbose.toNat = min 255 (timesGiven .verbose items) ∧
        o.quiet.toNat = min 255 (timesGiven .quiet items) ∧
        o.uncached = items.any Item.isUncached ∧
        o.cpuinfo = (pathsGiven items).head? ∧
        (o.displayLevel.toNat : Int) = max 0 (2 + o.verbose.toNat - o.quiet.toNat)) ∧
    ((∃ o, parse arguments = .ok o) ∨
      ∃ ending, parse arguments = .error ending ∧
        (∀ host, transcript host arguments = ending.transcript) ∧
        ((ending = .help ∨ ending = .version) ∧ ending.transcript.exit = 0 ∨
          (∃ e, ending = .usage e) ∧ ending.transcript.exit = 2)) := by
  refine ⟨⟨?_, ?_⟩, fun o => ⟨?_, ?_⟩, ?_⟩
  · rintro ⟨o, ho⟩
    obtain ⟨items, hitems, hadds⟩ := (parse_eq_ok_iff arguments o).mp ho
    obtain ⟨huncached, hpath, -⟩ := (adds_default_iff items o).mp hadds
    exact ⟨items, hitems, huncached, hpath⟩
  · rintro ⟨items, hitems, huncached, hpath⟩
    obtain ⟨o, hadds⟩ := exists_adds items huncached hpath
    exact ⟨o, (parse_eq_ok_iff arguments o).mpr ⟨items, hitems, hadds⟩⟩
  · intro ho
    obtain ⟨items, hitems, hadds⟩ := (parse_eq_ok_iff arguments o).mp ho
    obtain ⟨huncached, hpath, htimes, hasked, hgiven⟩ := (adds_default_iff items o).mp hadds
    exact ⟨items, hitems, huncached, hpath, htimes .verbose, htimes .quiet, hasked, hgiven,
      toNat_displayLevel o⟩
  · rintro ⟨items, hitems, huncached, hpath, hverbose, hquiet, hasked, hgiven, -⟩
    refine (parse_eq_ok_iff arguments o).mpr ⟨items, hitems, ?_⟩
    refine (adds_default_iff items o).mpr ⟨huncached, hpath, fun c => ?_, hasked, hgiven⟩
    cases c with
    | verbose => exact hverbose
    | quiet => exact hquiet
  · cases hparse : parse arguments with
    | ok o => exact .inl ⟨o, rfl⟩
    | error ending =>
      refine .inr ⟨ending, rfl, fun host => ?_, exit_ending ending⟩
      unfold transcript
      rw [hparse]

example : parse (["-vvq", "--cpuinfo=-x=", "--uncached", "--"].map Bytes.ofString) =
    .ok { verbose := 2, quiet := 1, uncached := true, cpuinfo := some (Bytes.ofString "-x=") } := by
  rfl

end CoreCount.Proofs
