/-!
What the program says about itself.
-/

namespace CoreCount.Identity

def programName : String := "lz4-cores"
def version : String := "1.10.0"
def author : String := "Yann Collet"

/-- The width of an address on the machines the program is built for. -/
def addressBits : Nat := 64

def banner : String :=
  s!"*** {programName} v{version} {addressBits}-bit, by {author} ***\n"

end CoreCount.Identity
