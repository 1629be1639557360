import CoreCount.Arithmetic
import CoreCount.Os.Failure

/-!
The topology that a cpuinfo file describes, and the ways in which reading it fails.
-/

namespace CoreCount.Cpuinfo

/-- The fields of a cpuinfo file that say how many threads a core runs. -/
inductive Field where
  | siblings
  | cpuCores
  deriving DecidableEq

/-- A line gives a field's value if it begins with the field's label. -/
def Field.label : Field → String
  | .siblings => "siblings"
  | .cpuCores => "cpu cores"

/-- Logical processors and physical cores of one package, 0 where the file does not say. -/
structure Topology where
  siblings : Int32 := 0
  cpuCores : Int32 := 0
  deriving DecidableEq

namespace Topology

def get (t : Topology) : Field → Int32
  | .siblings => t.siblings
  | .cpuCores => t.cpuCores

def set (t : Topology) (f : Field) (value : Int32) : Topology :=
  match f with
  | .siblings => { t with siblings := value }
  | .cpuCores => { t with cpuCores := value }

/-- Threads per core, truncated toward zero, or 1 where the fields do not give it. The strict
comparison leaves no quotient that would overflow. -/
def ratioIn {m : Type → Type} [Monad m] (arithmetic : Arithmetic m) (t : Topology) : m Int32 :=
  if t.siblings ≠ 0 ∧ t.cpuCores ≠ 0 ∧ t.cpuCores < t.siblings then
    arithmetic.quotient t.siblings t.cpuCores
  else return 1

def ratio (t : Topology) : Int32 :=
  (t.ratioIn .wrapping).run

@[simp] theorem get_set (t : Topology) (f : Field) (value : Int32) :
    (t.set f value).get f = value := by
  cases f <;> rfl

theorem get_set_of_ne (t : Topology) {f g : Field} (h : g ≠ f) (value : Int32) :
    (t.set f value).get g = t.get g := by
  cases f <;> cases g <;> first | rfl | contradiction

theorem ext_get {t u : Topology} (h : ∀ f, t.get f = u.get f) : t = u := by
  have hsiblings : t.siblings = u.siblings := h .siblings
  have hcores : t.cpuCores = u.cpuCores := h .cpuCores
  cases t
  cases u
  simp_all

end Topology

/-- A field line without the colon that separates label and value. -/
structure MissingSeparator where
  line : Nat
  field : Field
  deriving DecidableEq

/-- The report on a line, whatever the name of its field. -/
def missingSeparatorText (line : Nat) (label : String) : String :=
  s!"line {line}: '{label}' entry has no ':' separator"

def MissingSeparator.message (fault : MissingSeparator) : String :=
  missingSeparatorText fault.line fault.field.label

inductive Error where
  | unreadable (cause : Os.Failure)
  | malformed (fault : MissingSeparator)
  deriving DecidableEq

namespace Error

def message : Error → String
  | .unreadable cause => s!"read error: {cause.message}"
  | .malformed fault => fault.message

/-- The failure that lies behind an error, if it comes from outside the file's text. -/
def cause? : Error → Option Os.Failure
  | .unreadable cause => some cause
  | .malformed _ => none

end Error

end CoreCount.Cpuinfo
