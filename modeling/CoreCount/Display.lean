/-!
Messages, and the console whose display level decides which of them are shown.
-/

namespace CoreCount

namespace DisplayLevel

def silent : UInt32 := 0
def error : UInt32 := 1
def normal : UInt32 := 2
def info : UInt32 := 3
def trace : UInt32 := 4

end DisplayLevel

/-- A text for the error stream, shown from a threshold on. -/
structure Message where
  threshold : UInt32
  text : String
  deriving DecidableEq

namespace Message

def textAt (level : UInt32) (m : Message) : String :=
  if m.threshold ≤ level then m.text else ""

/-- What the error stream holds after some messages at one level. -/
def shown (level : UInt32) : List Message → String
  | [] => ""
  | m :: rest => m.textAt level ++ shown level rest

@[simp] theorem shown_nil (level : UInt32) : shown level [] = "" := rfl

theorem shown_append (level : UInt32) (xs ys : List Message) :
    shown level (xs ++ ys) = shown level xs ++ shown level ys := by
  induction xs with
  | nil => simp [shown]
  | cons m rest ih => simp [shown, ih, String.append_assoc]

end Message

/-- An error stream: the level at which it is read, and what has been written to it. -/
structure Console where
  level : UInt32 := DisplayLevel.normal
  written : String := ""
  deriving DecidableEq

namespace Console

def accept (c : Console) (m : Message) : Console :=
  if m.threshold ≤ c.level then { c with written := c.written ++ m.text } else c

end Console

end CoreCount
