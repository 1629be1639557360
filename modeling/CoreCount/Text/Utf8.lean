import CoreCount.Text.Bytes

/-!
Reading bytes as UTF-8. Every byte string falls into characters and ill-formed sequences, each
as long as some character still begins with it; what is shown of an ill-formed sequence is one
replacement character.
-/

namespace CoreCount.Utf8

/-- A character, or an ill-formed sequence. -/
inductive Piece where
  | char (c : Char)
  | illFormed
  deriving DecidableEq

/-- A character of which some bytes have been read: its bits so far, how many bytes it lacks,
and the bounds of the next one. -/
structure Partial where
  bits : Nat
  missing : Nat
  low : UInt8
  high : UInt8

/-- What a byte that does not continue a character is: a whole character, the first byte of a
longer one, or neither. The bounds exclude overlong forms, surrogates and values past the last
code point. -/
def begin (b : UInt8) : Piece ⊕ Partial :=
  if b < 0x80 then .inl (.char (Char.ofNat b.toNat))
  else if b < 0xC2 then .inl .illFormed
  else if b < 0xE0 then .inr ⟨b.toNat - 0xC0, 1, 0x80, 0xBF⟩
  else if b = 0xE0 then .inr ⟨0, 2, 0xA0, 0xBF⟩
  else if b = 0xED then .inr ⟨0xD, 2, 0x80, 0x9F⟩
  else if b < 0xF0 then .inr ⟨b.toNat - 0xE0, 2, 0x80, 0xBF⟩
  else if b = 0xF0 then .inr ⟨0, 3, 0x90, 0xBF⟩
  else if b < 0xF4 then .inr ⟨b.toNat - 0xF0, 3, 0x80, 0xBF⟩
  else if b = 0xF4 then .inr ⟨4, 3, 0x80, 0x8F⟩
  else .inl .illFormed

def Partial.accepts (p : Partial) (b : UInt8) : Bool :=
  p.low ≤ b && b ≤ p.high

/-- The character or the longer part of it that a further byte makes. -/
def Partial.push (p : Partial) (b : UInt8) : Char ⊕ Partial :=
  let bits := p.bits * 64 + (b.toNat - 0x80)
  if p.missing ≤ 1 then .inl (Char.ofNat bits) else .inr ⟨bits, p.missing - 1, 0x80, 0xBF⟩

def piecesFrom : Option Partial → Bytes → List Piece
  | none, [] => []
  | some _, [] => [.illFormed]
  | none, b :: rest =>
    match begin b with
    | .inl piece => piece :: piecesFrom none rest
    | .inr p => piecesFrom (some p) rest
  | some p, b :: rest =>
    if p.accepts b then
      match p.push b with
      | .inl c => .char c :: piecesFrom none rest
      | .inr p' => piecesFrom (some p') rest
    else
      .illFormed ::
        match begin b with
        | .inl piece => piece :: piecesFrom none rest
        | .inr p' => piecesFrom (some p') rest

def pieces (s : Bytes) : List Piece :=
  piecesFrom none s

def Piece.shown : Piece → Char
  | .char c => c
  | .illFormed => '\uFFFD'

def Piece.char? : Piece → Option Char
  | .char c => some c
  | .illFormed => none

/-- The text of pieces, with replacement characters. -/
def showPieces (ps : List Piece) : String :=
  String.ofList (ps.map Piece.shown)

/-- The text of a byte string, with replacement characters. -/
def showBytes (s : Bytes) : String :=
  showPieces (pieces s)

/-- The text that a byte string encodes, if all of it is well-formed. -/
def decode? (s : Bytes) : Option String :=
  ((pieces s).mapM Piece.char?).map String.ofList

end CoreCount.Utf8
