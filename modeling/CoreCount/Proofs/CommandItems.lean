import CoreCount.CommandLine.Parser
import Mathlib.Tactic.Lemma
import Mathlib.Tactic.MkIffOfInductiveProp

/-!
# The items of a command line

A command line that asks for a count is a sequence of items, each of one or two arguments. What
these ask for is read off the sequence at once, in whatever order its items stand.
-/

namespace CoreCount.Proofs
open CommandLine

/-- The flags that count how often they are given. -/
inductive Counting where
  | verbose
  | quiet
  deriving DecidableEq

namespace Counting

def letter : Counting → UInt8
  | .verbose => 'v'.toUInt8
  | .quiet => 'q'.toUInt8

def word : Counting → Bytes
  | .verbose => Bytes.ofString "--verbose"
  | .quiet => Bytes.ofString "--quiet"

def flag : Counting → Flag
  | .verbose => .verbose
  | .quiet => .quiet

end Counting

/-- What may stand in a command line. A path that stands apart from its option does not look like an
option itself. -/
inductive Item where
  | letters (counted : List Counting) (nonempty : counted ≠ [])
  | word (counted : Counting)
  | uncached
  | pathApart (path : Bytes) (nonempty : path ≠ [])
      (noOption : path = [dash] ∨ path.head? ≠ some dash)
  | pathAttached (path : Bytes) (nonempty : path ≠ [])

namespace Item

/-- The arguments that an item is written as. -/
def arguments : Item → List Bytes
  | .letters counted _ => [dash :: counted.map Counting.letter]
  | .word counted => [counted.word]
  | .uncached => [Bytes.ofString "--uncached"]
  | .pathApart path .. => [Bytes.ofString "--cpuinfo", path]
  | .pathAttached path _ => [Bytes.ofString "--cpuinfo=" ++ path]

def counted : Item → List Counting
  | .letters counted _ => counted
  | .word counted => [counted]
  | .uncached | .pathApart .. | .pathAttached .. => []

def isUncached : Item → Bool
  | .uncached => true
  | .letters .. | .word _ | .pathApart .. | .pathAttached .. => false

def path? : Item → Option Bytes
  | .pathApart path .. | .pathAttached path _ => some path
  | .letters .. | .word _ | .uncached => none

end Item

/-- How often a flag is given, in all items together. -/
def timesGiven (c : Counting) (items : List Item) : Nat :=
  (items.flatMap Item.counted).count c

def pathsGiven (items : List Item) : List Bytes :=
  items.filterMap Item.path?

/-- The arguments are those of the items in turn, with or without `--` after the last. -/
def Spells (items : List Item) (arguments : List Bytes) : Prop :=
  arguments = items.flatMap Item.arguments ∨
    arguments = items.flatMap Item.arguments ++ [Bytes.ofString "--"]

/-- How often options say that a flag was given. -/
def timesRead (o : Options) : Counting → UInt8
  | .verbose => o.verbose
  | .quiet => o.quiet

def countOne (o : Options) : Counting → Options
  | .verbose => { o with verbose := countUp o.verbose }
  | .quiet => { o with quiet := countUp o.quiet }

def afterUncached (o : Options) : Option Options :=
  if o.uncached then none else some { o with uncached := true }

def afterPath (o : Options) (path : Bytes) : Option Options :=
  if o.cpuinfo.isSome then none else some { o with cpuinfo := some path }

/-- The options after one more item, unless it may not stand there again. -/
def afterItem (o : Options) : Item → Option Options
  | .letters counted _ => some (counted.foldl countOne o)
  | .word counted => some (countOne o counted)
  | .uncached => afterUncached o
  | .pathApart path .. | .pathAttached path _ => afterPath o path

/-- What items make of the options before them, told by all of the items at once. -/
@[mk_iff]
structure Adds (items : List Item) (o o' : Options) : Prop where
  uncached_once : o.uncached.toNat + items.countP Item.isUncached ≤ 1
  path_once : (o.cpuinfo.toList ++ pathsGiven items).length ≤ 1
  times : ∀ c, (timesRead o' c).toNat = min 255 ((timesRead o c).toNat + timesGiven c items)
  uncached : o'.uncached = (o.uncached || items.any Item.isUncached)
  path : o'.cpuinfo = (o.cpuinfo.toList ++ pathsGiven items).head?

lemma toNat_countUp (n : UInt8) : (countUp n).toNat = min 255 (n.toNat + 1) := by
  have hsize : n.toNat < 256 := n.toNat_lt
  unfold countUp
  by_cases h : n = 255
  · rw [if_pos h, h]
    rfl
  · have hn : n.toNat ≠ 255 := fun he => h (UInt8.toNat_inj.mp he)
    rw [if_neg h, UInt8.toNat_add, UInt8.toNat_one]
    omega

lemma toNat_timesRead_foldl (o : Options) (counted : List Counting) (c : Counting) :
    (timesRead (counted.foldl countOne o) c).toNat =
      min 255 ((timesRead o c).toNat + counted.count c) := by
  induction counted generalizing o with
  | nil =>
    have hsize : (timesRead o c).toNat < 256 := (timesRead o c).toNat_lt
    simp
    omega
  | cons d counted ih =>
    rw [List.foldl_cons, ih, List.count_cons]
    cases c <;> cases d <;> simp [timesRead, countOne, toNat_countUp] <;> omega

lemma uncached_foldl_countOne (o : Options) (counted : List Counting) :
    (counted.foldl countOne o).uncached = o.uncached := by
  induction counted generalizing o with
  | nil => rfl
  | cons c counted ih => rw [List.foldl_cons, ih]; cases c <;> rfl

lemma cpuinfo_foldl_countOne (o : Options) (counted : List Counting) :
    (counted.foldl countOne o).cpuinfo = o.cpuinfo := by
  induction counted generalizing o with
  | nil => rfl
  | cons c counted ih => rw [List.foldl_cons, ih]; cases c <;> rfl

lemma timesGiven_cons (c : Counting) (item : Item) (items : List Item) :
    timesGiven c (item :: items) = item.counted.count c + timesGiven c items := by
  simp [timesGiven]

lemma pathsGiven_cons (item : Item) (items : List Item) :
    pathsGiven (item :: items) = item.path?.toList ++ pathsGiven items := by
  cases h : item.path? <;> simp [pathsGiven, h]

lemma options_ext {o o' : Options} (htimes : ∀ c, timesRead o c = timesRead o' c)
    (huncached : o.uncached = o'.uncached) (hcpuinfo : o.cpuinfo = o'.cpuinfo) : o = o' := by
  obtain ⟨verbose, quiet, uncached, cpuinfo⟩ := o
  obtain ⟨verbose', quiet', uncached', cpuinfo'⟩ := o'
  have hverbose : verbose = verbose' := htimes .verbose
  have hquiet : quiet = quiet' := htimes .quiet
  subst hverbose hquiet huncached hcpuinfo
  rfl

lemma head?_toList_append_nil (path? : Option Bytes) : (path?.toList ++ []).head? = path? := by
  cases path? <;> rfl

lemma adds_nil_iff (o o' : Options) : Adds [] o o' ↔ o = o' := by
  have hsize (c : Counting) : (timesRead o c).toNat < 256 := (timesRead o c).toNat_lt
  have hzero (c : Counting) : timesGiven c [] = 0 := rfl
  constructor
  · rintro ⟨-, -, htimes, huncached, hpath⟩
    refine options_ext (fun c => UInt8.toNat_inj.mp ?_) ?_ ?_
    · have hc := htimes c
      have hlt := hsize c
      rw [hzero] at hc
      omega
    · simpa using huncached.symm
    · exact (hpath.trans (head?_toList_append_nil _)).symm
  · rintro rfl
    refine ⟨?_, ?_, fun c => ?_, ?_, (head?_toList_append_nil _).symm⟩
    · simpa using o.uncached.toNat_le
    · cases o.cpuinfo <;> simp [pathsGiven]
    · have hlt := hsize c
      rw [hzero]
      omega
    · simp

lemma adds_cons_counted {item : Item} (items : List Item) (o o' : Options)
    (huncached : item.isUncached = false) (hpath : item.path? = none) :
    Adds (item :: items) o o' ↔ Adds items (item.counted.foldl countOne o) o' := by
  have hmin (a b c : Nat) : min 255 (min 255 (a + b) + c) = min 255 (a + (b + c)) := by omega
  simp only [adds_iff, List.countP_cons, List.any_cons, pathsGiven_cons, timesGiven_cons, huncached,
    hpath, toNat_timesRead_foldl, uncached_foldl_countOne, cpuinfo_foldl_countOne, hmin,
    Option.toList_none, List.nil_append, Bool.false_or, Bool.false_eq_true, if_false, Nat.add_zero]

lemma adds_cons_uncached (items : List Item) (o o' : Options) :
    Adds (.uncached :: items) o o' ↔
      o.uncached = false ∧ Adds items { o with uncached := true } o' := by
  have htimes (c : Counting) : timesRead { o with uncached := true } c = timesRead o c := by
    cases c <;> rfl
  have hcount : (Item.uncached :: items).countP Item.isUncached =
      items.countP Item.isUncached + 1 := List.countP_cons_of_pos rfl
  have hpaths : pathsGiven (.uncached :: items) = pathsGiven items := rfl
  have hgiven (c : Counting) : timesGiven c (.uncached :: items) = timesGiven c items := rfl
  have hany : (Item.uncached :: items).any Item.isUncached = true := rfl
  simp only [adds_iff, htimes, hcount, hpaths, hgiven, hany, Bool.or_true, Bool.true_or,
    Bool.toNat_true]
  cases o.uncached with
  | true =>
    have hagain : ¬true.toNat + (items.countP Item.isUncached + 1) ≤ 1 := by
      rw [Bool.toNat_true]
      omega
    simp only [hagain, false_and, Bool.true_eq_false]
  | false => simp [Nat.add_comm]

lemma adds_cons_path {item : Item} {path : Bytes} (items : List Item) (o o' : Options)
    (hcounted : item.counted = []) (huncached : item.isUncached = false)
    (hpath : item.path? = some path) :
    Adds (item :: items) o o' ↔
      o.cpuinfo = none ∧ Adds items { o with cpuinfo := some path } o' := by
  have htimes (c : Counting) : timesRead { o with cpuinfo := some path } c = timesRead o c := by
    cases c <;> rfl
  simp only [adds_iff, htimes, List.countP_cons, List.any_cons, pathsGiven_cons, timesGiven_cons,
    hcounted, huncached, hpath, Option.toList_some, Bool.false_or, List.count_nil, Nat.zero_add,
    Bool.false_eq_true, if_false, Nat.add_zero]
  cases o.cpuinfo with
  | none => simp
  | some other => simp

lemma adds_cons_iff (item : Item) (items : List Item) (o o' : Options) :
    Adds (item :: items) o o' ↔ ∃ next, afterItem o item = some next ∧ Adds items next o' := by
  cases item with
  | letters counted nonempty =>
    rw [adds_cons_counted items o o' rfl rfl]
    simp [afterItem, Item.counted]
  | word counted =>
    rw [adds_cons_counted items o o' rfl rfl]
    simp [afterItem, Item.counted]
  | uncached =>
    rw [adds_cons_uncached]
    cases h : o.uncached <;> simp [afterItem, afterUncached, h]
  | pathApart path nonempty noOption =>
    rw [adds_cons_path items o o' rfl rfl rfl]
    cases h : o.cpuinfo <;> simp [afterItem, afterPath, h]
  | pathAttached path nonempty =>
    rw [adds_cons_path items o o' rfl rfl rfl]
    cases h : o.cpuinfo <;> simp [afterItem, afterPath, h]

/-- Items taken one after the other come to what they say together. -/
theorem foldlM_afterItem_iff (items : List Item) (o o' : Options) :
    items.foldlM afterItem o = some o' ↔ Adds items o o' := by
  induction items generalizing o with
  | nil => simp [adds_nil_iff]
  | cons item items ih =>
    rw [adds_cons_iff, List.foldlM_cons]
    cases afterItem o item <;> simp [ih]

end CoreCount.Proofs
