/-!
Byte strings. Files, paths and command-line arguments are bytes; text is made of them only
where something is shown.
-/

namespace CoreCount

abbrev Bytes := List UInt8

namespace Bytes

/-- The UTF-8 encoding of a text. -/
def ofString (s : String) : Bytes :=
  s.toUTF8.data.toList

@[simp] theorem ofString_empty : ofString "" = [] := rfl

@[simp] theorem ofString_append (s t : String) : ofString (s ++ t) = ofString s ++ ofString t := by
  simp [ofString]

def newline : UInt8 := 10

/-- What follows the first `b`, if there is one. -/
def after? (b : UInt8) : Bytes → Option Bytes
  | [] => none
  | c :: rest => if c = b then some rest else after? b rest

end Bytes

end CoreCount
