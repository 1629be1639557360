import CoreCount.Os.ErrorNumber

/-!
Why a file could not be opened or read.
-/

namespace CoreCount.Os

inductive Failure where
  /-- The system refused and gave an error number. -/
  | code (number : Int32)
  /-- The path holds a zero byte, so it cannot be handed to the system. -/
  | zeroByteInPath
  /-- A source of bytes other than the system's files reports in words of its own. -/
  | reported (text : String)
  deriving DecidableEq

namespace Failure

def noSuchEntry : Failure := .code 2
def notADirectory : Failure := .code 20
def isADirectory : Failure := .code 21
def nameTooLong : Failure := .code 36

def message : Failure → String
  | .code number => s!"{errorText number} (os error {number.toInt})"
  | .zeroByteInPath => "file name contained an unexpected NUL byte"
  | .reported text => text

end Failure

end CoreCount.Os
