import CoreCount.CommandLine.Flag
import CoreCount.Identity
import CoreCount.Text.Terminal
import CoreCount.Text.Utf8

/-!
Command lines that ask for no count: those that ask for help or the version, and those that are
wrong.
-/

namespace CoreCount.CommandLine

inductive UsageError where
  /-- Nothing takes this argument, or this part of one. -/
  | unexpectedArgument (shown : String)
  | unexpectedValue (value : Bytes) (flag : Flag)
  | missingPath
  | repeatedFlag (flag : Flag)
  | repeatedPath
  deriving DecidableEq

/-- The text of an error. What it shows of the user's own words cannot steer the terminal. -/
def UsageError.text (interruption : Terminal.Interruption) : UsageError → String
  | .unexpectedArgument shown =>
    s!"error: unexpected argument '{Terminal.plain interruption shown}' found"
  | .unexpectedValue value flag =>
    s!"error: unexpected value '{Terminal.plain interruption (Utf8.showBytes value)}' " ++
      s!"for '{flag.shown}' found; no more were expected"
  | .missingPath => s!"error: a value is required for '{PathOption.shown}' but none was supplied"
  | .repeatedFlag flag => s!"error: the argument '{flag.shown}' cannot be used multiple times"
  | .repeatedPath => s!"error: the argument '{PathOption.shown}' cannot be used multiple times"

def UsageError.message (e : UsageError) : String :=
  e.text .ends

/-- The line that the program writes of an error. A stream, which sees its text byte by byte, takes
up again the sequences that white space broke into. -/
def UsageError.line (e : UsageError) : String :=
  e.text .suspends ++ "\n"

/-- How a command line ends that is no request to count. -/
inductive Ending where
  | help
  | version
  | usage (error : UsageError)
  deriving DecidableEq

def helpText : String :=
  "Print the number of usable CPU cores\n" ++
  "\n" ++
  s!"Usage: {Identity.programName} [OPTIONS]\n" ++
  "\n" ++
  "Options:\n" ++
  "  -v, --verbose...      Increase verbosity (repeatable)\n" ++
  "  -q, --quiet...        Decrease verbosity (repeatable)\n" ++
  "      --uncached        Query the OS again instead of using the memoized value\n" ++
  "      --cpuinfo <PATH>  Parse a cpuinfo-format file and print its hyperthreading fields\n" ++
  "  -h, --help            Print help\n" ++
  "  -V, --version         Print version\n"

def versionText : String :=
  s!"{Identity.programName} {Identity.version}\n"

end CoreCount.CommandLine
