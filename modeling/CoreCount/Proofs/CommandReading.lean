import CoreCount.Proofs.AsciiPieces
import CoreCount.Proofs.CommandItems

/-!
# Reading the items of a command line

Reading takes the items of a command line in turn. A path that stands apart is kept back until the
next option or the end of the line is reached, and it makes no difference to what reading comes to
whether it is stored then or at once.
-/

namespace CoreCount.Proofs
open CommandLine

section Completed
variable {α β ε ε' : Type}

lemma toOption_bind (x : Except ε α) (f : α → Except ε β) :
    (x >>= f).toOption = x.toOption.bind (fun a => (f a).toOption) := by
  cases x <;> rfl

lemma toOption_mapError (f : ε → ε') (x : Except ε α) : (x.mapError f).toOption = x.toOption := by
  cases x <;> rfl

lemma toOption_eq_some_iff {x : Except ε α} {a : α} : x.toOption = some a ↔ x = .ok a := by
  cases x <;> simp [Except.toOption]

end Completed

/-- The options that a command line comes to when some of it has been read, if it comes to any. -/
def completed (s : Progress) (arguments : List Bytes) : Option Options :=
  ((s.readAll arguments).toOption.bind (·.settle.toOption)).map (·.options)

lemma toOption_parse (arguments : List Bytes) :
    (parse arguments).toOption = completed {} arguments := by
  simp only [parse, completed, toOption_bind, toOption_mapError]
  cases (Progress.readAll {} arguments).toOption with
  | none => rfl
  | some s => cases h : s.settle <;> simp [h] <;> rfl

lemma completed_nil (s : Progress) : completed s [] = s.settle.toOption.map (·.options) := rfl

lemma completed_cons {argument : Bytes} (h : argument ≠ doubleDash) (s : Progress)
    (rest : List Bytes) :
    completed s (argument :: rest) = (s.readArgument argument).toOption.bind (completed · rest) := by
  simp only [completed, Progress.readAll, if_neg h, toOption_bind]
  cases (s.readArgument argument).toOption <;> rfl

lemma pending_of_store {s t : Progress} {path : Bytes} (h : s.store path = .ok t) :
    t.pending = .none ∧ path ≠ [] := by
  unfold Progress.store at h
  split at h
  · cases h
  · split at h
    · cases h
    · cases h
      exact ⟨rfl, ‹_›⟩

lemma pending_of_settle {s t : Progress} (h : s.settle = .ok t) : t.pending = .none := by
  obtain ⟨o, pending⟩ := s
  cases pending with
  | none => cases h; rfl
  | expected => cases h
  | given path => exact (pending_of_store h).1

lemma settle_of_pending {s : Progress} (h : s.pending = .none) : s.settle = .ok s := by
  unfold Progress.settle
  rw [h]

section Settled
variable {s t : Progress}

lemma actOn_of_settle (h : s.settle = .ok t) (f : Flag) : s.actOn f = t.actOn f := by
  unfold Progress.actOn
  rw [h, settle_of_pending (pending_of_settle h)]

lemma readLong_of_settle (h : s.settle = .ok t) (body : Bytes) :
    s.readLong body = t.readLong body := by
  unfold Progress.readLong
  simp only [h, settle_of_pending (pending_of_settle h), actOn_of_settle h]

lemma readLetters_of_settle (h : s.settle = .ok t) (piece : Utf8.Piece) (pieces : List Utf8.Piece) :
    s.readLetters (piece :: pieces) = t.readLetters (piece :: pieces) := by
  cases piece with
  | illFormed => rfl
  | char c => simp only [Progress.readLetters, actOn_of_settle h]

lemma actOn_of_settle_error {e : UsageError} (h : s.settle = .error e) (f : Flag) :
    (s.actOn f).toOption = none := by
  unfold Progress.actOn
  rw [h]
  rfl

lemma readLong_of_settle_error {e : UsageError} (h : s.settle = .error e) (body : Bytes) :
    (s.readLong body).toOption = none := by
  unfold Progress.readLong
  rw [h]
  split
  rename_i name value? _
  split
  · rfl
  · cases Flag.ofLongName? name with
    | none => rfl
    | some f =>
      cases value? with
      | none => exact actOn_of_settle_error h f
      | some value => rfl

lemma readLetters_of_settle_error {e : UsageError} (h : s.settle = .error e)
    (piece : Utf8.Piece) (pieces : List Utf8.Piece) :
    (s.readLetters (piece :: pieces)).toOption = none := by
  cases piece with
  | illFormed => rfl
  | char c =>
    rw [Progress.readLetters]
    cases Flag.ofLetter? c with
    | none => rfl
    | some f =>
      rw [toOption_bind, actOn_of_settle_error h f]
      rfl

end Settled

/-- An argument that does not look like an option. -/
def Plain (argument : Bytes) : Prop :=
  argument = [dash] ∨ argument.head? ≠ some dash

lemma readArgument_plain {argument : Bytes} (h : Plain argument) (s : Progress) :
    s.readArgument argument = s.readPlain argument := by
  unfold Progress.readArgument
  split
  · rename_i a b rest
    rcases h with h | h
    · simp at h
    · rw [if_pos (by simpa using h)]
  · rfl

lemma readArgument_long (s : Progress) (body : Bytes) :
    s.readArgument (dash :: dash :: body) = s.readLong body := rfl

lemma readArgument_letters (s : Progress) {b : UInt8} (h : b ≠ dash) (rest : Bytes) :
    s.readArgument (dash :: b :: rest) = s.readLetters (Utf8.pieces (b :: rest)) := by
  simp [Progress.readArgument, h]

/-- The three ways in which an argument is read. -/
lemma plain_or_option (argument : Bytes) :
    Plain argument ∨ (∃ body, argument = dash :: dash :: body) ∨
      ∃ b rest, b ≠ dash ∧ argument = dash :: b :: rest := by
  match argument with
  | [] => exact .inl (.inr (by simp))
  | [a] =>
    by_cases ha : a = dash
    · exact .inl (.inl (by rw [ha]))
    · exact .inl (.inr (by simpa using ha))
  | a :: b :: rest =>
    by_cases ha : a = dash
    · by_cases hb : b = dash
      · exact .inr (.inl ⟨rest, by rw [ha, hb]⟩)
      · exact .inr (.inr ⟨b, rest, hb, by rw [ha]⟩)
    · exact .inl (.inr (by simpa using ha))

lemma exists_pieces_cons (b : UInt8) (rest : Bytes) :
    ∃ piece pieces, Utf8.pieces (b :: rest) = piece :: pieces := by
  by_cases h : b < 0x80
  · exact ⟨_, _, pieces_cons_ascii h rest⟩
  · obtain ⟨piece, pieces, hpieces, -⟩ := pieces_cons_beyond h rest
    exact ⟨piece, pieces, hpieces⟩

lemma readPlain_of_pending {s : Progress} (h : s.pending ≠ .expected) (argument : Bytes) :
    (s.readPlain argument).toOption = none := by
  unfold Progress.readPlain
  cases hp : s.pending with
  | expected => exact absurd hp h
  | none => rfl
  | given path => rfl

/-- A path that was given may be stored before the next argument is read. -/
lemma readArgument_settle {s : Progress} (h : s.pending ≠ .expected) (argument : Bytes) :
    (s.readArgument argument).toOption =
      s.settle.toOption.bind (fun t => (t.readArgument argument).toOption) := by
  cases hs : s.settle with
  | ok t =>
    change (s.readArgument argument).toOption = (t.readArgument argument).toOption
    rcases plain_or_option argument with hplain | ⟨body, rfl⟩ | ⟨b, rest, hb, rfl⟩
    · have ht : t.pending ≠ .expected := by simp [pending_of_settle hs]
      rw [readArgument_plain hplain, readArgument_plain hplain, readPlain_of_pending h,
        readPlain_of_pending ht]
    · rw [readArgument_long, readArgument_long, readLong_of_settle hs]
    · obtain ⟨piece, pieces, hpieces⟩ := exists_pieces_cons b rest
      rw [readArgument_letters s hb, readArgument_letters t hb, hpieces, readLetters_of_settle hs]
  | error e =>
    change (s.readArgument argument).toOption = none
    rcases plain_or_option argument with hplain | ⟨body, rfl⟩ | ⟨b, rest, hb, rfl⟩
    · rw [readArgument_plain hplain, readPlain_of_pending h]
    · exact readLong_of_settle_error hs body
    · obtain ⟨piece, pieces, hpieces⟩ := exists_pieces_cons b rest
      rw [readArgument_letters s hb, hpieces, readLetters_of_settle_error hs]

lemma completed_settle {s : Progress} (h : s.pending ≠ .expected) (arguments : List Bytes) :
    completed s arguments = s.settle.toOption.bind (completed · arguments) := by
  have hnil : completed s [] = s.settle.toOption.bind (completed · []) := by
    cases hs : s.settle with
    | ok t =>
      change completed s [] = completed t []
      rw [completed_nil, completed_nil, hs, settle_of_pending (pending_of_settle hs)]
    | error e =>
      rw [completed_nil, hs]
      rfl
  cases arguments with
  | nil => exact hnil
  | cons argument rest =>
    by_cases hd : argument = doubleDash
    · subst hd
      cases rest with
      | nil => exact hnil
      | cons next rest => cases s.settle <;> rfl
    · rw [completed_cons hd, readArgument_settle h, Option.bind_assoc]
      simp only [completed_cons hd]

lemma toOption_store (o : Options) (pending : PendingPath) {path : Bytes} (h : path ≠ []) :
    (Progress.store ⟨o, pending⟩ path).toOption = (afterPath o path).map (⟨·, .none⟩) := by
  unfold Progress.store afterPath
  cases o.cpuinfo with
  | none => simp [h, Except.toOption]
  | some other => rfl

section Items
variable (o : Options) (rest : List Bytes)

lemma actOn_counting (c : Counting) :
    Progress.actOn ⟨o, .none⟩ c.flag = .ok ⟨countOne o c, .none⟩ := by
  cases c <;> rfl

lemma readLetters_counted (counted : List Counting) :
    Progress.readLetters ⟨o, .none⟩ (Utf8.pieces (counted.map Counting.letter)) =
      .ok ⟨counted.foldl countOne o, .none⟩ := by
  induction counted generalizing o with
  | nil => rfl
  | cons c counted ih =>
    have hascii : c.letter < 0x80 := by cases c <;> decide
    have hletter : Flag.ofLetter? (Char.ofNat c.letter.toNat) = some c.flag := by cases c <;> rfl
    rw [List.map_cons, pieces_cons_ascii hascii, Progress.readLetters, hletter]
    change (Progress.actOn ⟨o, .none⟩ c.flag >>= _) = _
    rw [actOn_counting]
    exact ih (countOne o c)

lemma completed_letters (counted : List Counting) (h : counted ≠ []) :
    completed ⟨o, .none⟩ ((dash :: counted.map Counting.letter) :: rest) =
      completed ⟨counted.foldl countOne o, .none⟩ rest := by
  obtain ⟨c, others, rfl⟩ := List.exists_cons_of_ne_nil h
  have hdash : c.letter ≠ dash := by cases c <;> decide
  have hread : Progress.readArgument ⟨o, .none⟩ (dash :: (c :: others).map Counting.letter) =
      .ok ⟨(c :: others).foldl countOne o, .none⟩ := by
    rw [List.map_cons, readArgument_letters _ hdash]
    exact readLetters_counted o (c :: others)
  have hd : dash :: (c :: others).map Counting.letter ≠ doubleDash := by
    simp [doubleDash, hdash]
  rw [completed_cons hd, hread]
  rfl

lemma completed_word (c : Counting) :
    completed ⟨o, .none⟩ (c.word :: rest) = completed ⟨countOne o c, .none⟩ rest := by
  cases c <;> rfl

lemma completed_uncached :
    completed ⟨o, .none⟩ (Bytes.ofString "--uncached" :: rest) =
      (afterUncached o).bind (completed ⟨·, .none⟩ rest) := by
  obtain ⟨verbose, quiet, uncached, cpuinfo⟩ := o
  cases uncached <;> rfl

lemma completed_pathAttached {path : Bytes} (h : path ≠ []) :
    completed ⟨o, .none⟩ ((Bytes.ofString "--cpuinfo=" ++ path) :: rest) =
      (afterPath o path).bind (completed ⟨·, .none⟩ rest) := by
  have hd : Bytes.ofString "--cpuinfo=" ++ path ≠ doubleDash := by
    intro he
    have hlength := congrArg List.length he
    have hword : (Bytes.ofString "--cpuinfo=").length = 10 := rfl
    have htwo : doubleDash.length = 2 := rfl
    rw [List.length_append] at hlength
    omega
  have hread : (Progress.readArgument ⟨o, .none⟩ (Bytes.ofString "--cpuinfo=" ++ path)).toOption =
      (Progress.store ⟨o, .none⟩ path).toOption := toOption_mapError _ _
  rw [completed_cons hd, hread, toOption_store o _ h, Option.bind_map]
  rfl

lemma completed_pathApart {path : Bytes} (h : path ≠ []) (hplain : Plain path) :
    completed ⟨o, .none⟩ (Bytes.ofString "--cpuinfo" :: path :: rest) =
      (afterPath o path).bind (completed ⟨·, .none⟩ rest) := by
  have hd : path ≠ doubleDash := by
    rintro rfl
    rcases hplain with he | he
    · exact absurd he (by decide)
    · exact he rfl
  have hread : Progress.readArgument ⟨o, .expected⟩ path = .ok ⟨o, .given path⟩ :=
    readArgument_plain hplain _
  have hsettle : (Progress.settle ⟨o, .given path⟩) = Progress.store ⟨o, .given path⟩ path := rfl
  calc completed ⟨o, .none⟩ (Bytes.ofString "--cpuinfo" :: path :: rest)
      = completed ⟨o, .expected⟩ (path :: rest) := rfl
    _ = completed ⟨o, .given path⟩ rest := by rw [completed_cons hd, hread]; rfl
    _ = (afterPath o path).bind (completed ⟨·, .none⟩ rest) := by
      rw [completed_settle (by simp), hsettle, toOption_store o _ h, Option.bind_map]
      rfl

lemma completed_item (item : Item) :
    completed ⟨o, .none⟩ (item.arguments ++ rest) =
      (afterItem o item).bind (completed ⟨·, .none⟩ rest) := by
  cases item with
  | letters counted nonempty => exact completed_letters o rest counted nonempty
  | word counted => exact completed_word o rest counted
  | uncached => exact completed_uncached o rest
  | pathApart path nonempty noOption => exact completed_pathApart o rest nonempty noOption
  | pathAttached path nonempty => exact completed_pathAttached o rest nonempty

lemma completed_items (items : List Item) (ending : List Bytes)
    (h : ∀ o, completed ⟨o, .none⟩ ending = some o) :
    completed ⟨o, .none⟩ (items.flatMap Item.arguments ++ ending) = items.foldlM afterItem o := by
  induction items generalizing o with
  | nil => exact h o
  | cons item items ih =>
    rw [List.flatMap_cons, List.append_assoc, completed_item, List.foldlM_cons]
    exact Option.bind_congr fun next _ => ih next

/-- Reading the arguments of items comes to what the items come to in turn. -/
theorem completed_spelled {items : List Item} {arguments : List Bytes}
    (h : Spells items arguments) :
    completed ⟨o, .none⟩ arguments = items.foldlM afterItem o := by
  rcases h with rfl | rfl
  · rw [← completed_items o items [] (fun _ => rfl), List.append_nil]
  · exact completed_items o items [doubleDash] (fun _ => rfl)

end Items

end CoreCount.Proofs
