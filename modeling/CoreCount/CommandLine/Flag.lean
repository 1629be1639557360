import CoreCount.Text.Bytes

/-!
The options of the command line and their spellings: flags, which stand for themselves, and the
one that takes a path.
-/

namespace CoreCount.CommandLine

inductive Flag where
  | verbose
  | quiet
  | uncached
  | help
  | version
  deriving DecidableEq

namespace Flag

def all : List Flag := [.verbose, .quiet, .uncached, .help, .version]

def longName : Flag → String
  | .verbose => "verbose"
  | .quiet => "quiet"
  | .uncached => "uncached"
  | .help => "help"
  | .version => "version"

def letter? : Flag → Option Char
  | .verbose => some 'v'
  | .quiet => some 'q'
  | .uncached => none
  | .help => some 'h'
  | .version => some 'V'

def ofLongName? (name : Bytes) : Option Flag :=
  all.find? (fun f => Bytes.ofString f.longName = name)

def ofLetter? (c : Char) : Option Flag :=
  all.find? (fun f => f.letter? = some c)

/-- How messages name a flag. Dots follow one that counts. -/
def shown : Flag → String
  | .verbose => "--verbose..."
  | .quiet => "--quiet..."
  | .uncached => "--uncached"
  | .help => "--help"
  | .version => "--version"

end Flag

namespace PathOption

def longName : String := "cpuinfo"

/-- How messages name the option that takes a path. -/
def shown : String := "--cpuinfo <PATH>"

end PathOption

end CoreCount.CommandLine
