import CoreCount.Text.Utf8

/-!
Which build targets count by the number of online processors alone, and what the build is told
about a target.
-/

namespace CoreCount.Target

def sysconfSystems : List String :=
  ["netbsd", "openbsd", "dragonfly", "cygwin"]

def usesSysconf (system : String) : Bool :=
  sysconfSystems.contains system

/-- The directives for a target's operating system. A name that is absent or is no text counts
as empty. -/
def directives (system? : Option Bytes) : String :=
  let system := (system?.bind Utf8.decode?).getD ""
  "cargo:rerun-if-changed=build.rs\n" ++
    if usesSysconf system then "cargo:rustc-cfg=cores_posix_sysconf\n" else ""

end CoreCount.Target
