/-!
Text without what would steer a terminal. Escape sequences and control characters are left out;
white space stays, also where it breaks into a sequence.
-/

namespace CoreCount.Terminal

/-- Where the reading of a text stands with escape sequences. -/
inductive State where
  | text
  | escape
  /-- After an escape and one or more intermediate characters. -/
  | intermediate
  /-- In a control sequence, which a final character ends. -/
  | control
  /-- In a command to the operating system, which a bell ends. -/
  | command
  /-- At the head of a device control string. -/
  | device
  | deviceParameters
  | deviceIntermediate
  /-- In a string, which only its terminator ends. -/
  | payload
  deriving DecidableEq

def isSpace (c : Char) : Bool :=
  c = ' ' || c = '\t' || c = '\n' || c = '\x0c' || c = '\r'

def isIntermediate (c : Char) : Bool :=
  ' ' ≤ c && c ≤ '/'

def isFinal (c : Char) : Bool :=
  '@' ≤ c && c ≤ '~'

/-- The terminator of a string is a single byte, also inside the encoding of a character. -/
def endsString (c : Char) : Bool :=
  (String.utf8EncodeChar c).contains 0x9c

/-- Whether a character is shown. A blank inside a sequence is a part of it. -/
def State.shows (state : State) (c : Char) : Bool :=
  match state with
  | .text => isSpace c || (' ' ≤ c && c ≠ '\x7f')
  | .escape | .intermediate | .control => c ≠ ' ' && isSpace c
  | .command | .device | .deviceParameters | .deviceIntermediate | .payload => false

/-- The state after a blank or a printed character of ASCII. -/
def State.afterGraphic (state : State) (c : Char) : State :=
  match state with
  | .escape =>
    if isIntermediate c then .intermediate
    else if c = '[' then .control
    else if c = ']' then .command
    else if c = 'P' then .device
    else if c = 'X' || c = '^' || c = '_' then .payload
    else .text
  | .intermediate => if isIntermediate c then .intermediate else .text
  | .control => if isFinal c then .text else .control
  | .device =>
    if isIntermediate c then .deviceIntermediate
    else if isFinal c then .payload
    else .deviceParameters
  | .deviceParameters =>
    if isIntermediate c then .deviceIntermediate
    else if c ≤ ';' then .deviceParameters
    else .payload
  | .deviceIntermediate => if isIntermediate c then .deviceIntermediate else .payload
  | .text | .command | .payload => state

/-- The state after a character that is not shown. An escape and the two cancellations have their
meaning everywhere; of other controls and of what is beyond ASCII, only a bell and a terminator
end anything. -/
def State.next (state : State) (c : Char) : State :=
  if c = '\x1b' then .escape
  else if c = '\x18' || c = '\x1a' then .text
  else if ' ' ≤ c && c ≤ '~' then state.afterGraphic c
  else
    match state with
    | .command => if c = '\x07' then .text else .command
    | .payload => if endsString c then .text else .payload
    | _ => state

/-- What white space does to the sequence that it breaks into. -/
inductive Interruption where
  | ends
  /-- The sequence goes on where the shown characters stop, unless one of them is beyond ASCII. -/
  | suspends
  deriving DecidableEq

def Interruption.stateAfter (interruption : Interruption) (state : State) (shown : Char) : State :=
  match interruption with
  | .ends => .text
  | .suspends => if '\x7f' < shown then .text else state

/-- A text read so far. -/
structure Reading where
  state : State := .text
  /-- Whether the last character was shown. What follows it is then read as text. -/
  showing : Bool := false
  kept : String := ""

def Reading.push (interruption : Interruption) (r : Reading) (c : Char) : Reading :=
  if (if r.showing then State.text else r.state).shows c then
    ⟨interruption.stateAfter r.state c, true, r.kept.push c⟩
  else
    ⟨r.state.next c, false, r.kept⟩

def plain (interruption : Interruption) (s : String) : String :=
  (s.toList.foldl (Reading.push interruption) {}).kept

end CoreCount.Terminal
