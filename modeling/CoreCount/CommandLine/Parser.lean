import CoreCount.CommandLine.Ending
import CoreCount.CommandLine.Options

/-!
Reading a command line from left to right. Flags act where they stand. A path may stand apart
from its option; it is checked and stored when the next option or the end of the line is
reached, so an argument that nothing takes is reported before a fault of the path.
-/

namespace CoreCount.CommandLine

/-- Where the reading stands with the path option. -/
inductive PendingPath where
  | none
  | expected
  | given (path : Bytes)
  deriving DecidableEq

/-- What has been read of a command line. -/
structure Progress where
  options : Options := {}
  pending : PendingPath := .none

def dash : UInt8 := 45
def equalsSign : UInt8 := 61
def doubleDash : Bytes := [dash, dash]

/-- What stands before the first `=`, and what follows it. -/
def splitValue (s : Bytes) : Bytes × Option Bytes :=
  (s.takeWhile (· ≠ equalsSign), Bytes.after? equalsSign s)

namespace Progress

def store (s : Progress) (path : Bytes) : Except UsageError Progress :=
  if s.options.cpuinfo.isSome then .error .repeatedPath
  else if path = [] then .error .missingPath
  else .ok ⟨{ s.options with cpuinfo := some path }, .none⟩

/-- Ends what is pending. -/
def settle (s : Progress) : Except UsageError Progress :=
  match s.pending with
  | .none => .ok s
  | .expected => .error .missingPath
  | .given path => s.store path

/-- Acts on a flag, after what was pending. -/
def actOn (s : Progress) (f : Flag) : Except Ending Progress := do
  let s ← s.settle.mapError .usage
  match f with
  | .verbose => return { s with options.verbose := countUp s.options.verbose }
  | .quiet => return { s with options.quiet := countUp s.options.quiet }
  | .uncached =>
    if s.options.uncached then throw (.usage (.repeatedFlag .uncached))
    return { s with options.uncached := true }
  | .help => throw .help
  | .version => throw .version

def unexpected {α : Type} (shown : String) : Except Ending α :=
  throw (.usage (.unexpectedArgument shown))

/-- Reads what follows `--`. -/
def readLong (s : Progress) (body : Bytes) : Except Ending Progress := do
  let (name, value?) := splitValue body
  if name = Bytes.ofString PathOption.longName then
    let s ← s.settle.mapError .usage
    match value? with
    | some path => (s.store path).mapError .usage
    | none => return { s with pending := .expected }
  else
    match Flag.ofLongName? name, value? with
    | none, _ => unexpected ("--" ++ Utf8.showBytes name)
    | some f, some value => throw (.usage (.unexpectedValue value f))
    | some f, none => s.actOn f

/-- Reads the letters that follow `-`. -/
def readLetters (s : Progress) : List Utf8.Piece → Except Ending Progress
  | [] => return s
  | .illFormed :: rest => unexpected ("-" ++ Utf8.showPieces (.illFormed :: rest))
  | .char c :: rest =>
    match Flag.ofLetter? c with
    | none => unexpected ("-" ++ String.singleton c)
    | some f => do (← s.actOn f).readLetters rest

/-- Reads an argument that is no option: the path that is expected, if one is. -/
def readPlain (s : Progress) (argument : Bytes) : Except Ending Progress :=
  match s.pending with
  | .expected => return { s with pending := .given argument }
  | .none | .given _ => unexpected (Utf8.showBytes argument)

def readArgument (s : Progress) (argument : Bytes) : Except Ending Progress :=
  match argument with
  | a :: b :: rest =>
    if a ≠ dash then s.readPlain argument
    else if b = dash then s.readLong rest
    else s.readLetters (Utf8.pieces (b :: rest))
  | _ => s.readPlain argument

/-- Reads arguments. After `--` there are no options, and nothing else takes an argument. -/
def readAll (s : Progress) : List Bytes → Except Ending Progress
  | [] => return s
  | argument :: rest =>
    if argument = doubleDash then
      match rest with
      | [] => return s
      | next :: _ => unexpected (Utf8.showBytes next)
    else do (← s.readArgument argument).readAll rest

end Progress

def parse (arguments : List Bytes) : Except Ending Options := do
  let s ← Progress.readAll {} arguments
  let s ← s.settle.mapError .usage
  return s.options

end CoreCount.CommandLine
