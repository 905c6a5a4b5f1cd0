import GraphStore.Json.Basic

/-!
# JSON strings

Between quotes, a backslash introduces an escape; a `\u` escape names a UTF-16 unit, and a leading
surrogate must be followed by the escape of a trailing one.  The writer escapes quotes, backslashes
and control characters and nothing else.
-/

namespace GraphStore
namespace Json
namespace Quoted

/-- What one escape or one plain character contributes. -/
inductive Piece where
  /-- A character. -/
  | char (c : Char)
  /-- A UTF-16 unit written as four hexadecimal digits. -/
  | unit (value : Nat)
  deriving DecidableEq

/-- The character of a one-letter escape. -/
def escapedChar? : Char → Option Char
  | '"' => some '"'
  | '\\' => some '\\'
  | '/' => some '/'
  | 'b' => some '\x08'
  | 'f' => some '\x0c'
  | 'n' => some '\n'
  | 'r' => some '\r'
  | 't' => some '\t'
  | _ => none

/-- The number that four hexadecimal digits write. -/
def unitValue? (a b c d : Char) : Option Nat := do
  let first ← Text.hexValue? a
  let second ← Text.hexValue? b
  let third ← Text.hexValue? c
  let fourth ← Text.hexValue? d
  some (((first * 16 + second) * 16 + third) * 16 + fourth)

/-- Put a piece in front of what was scanned after it. -/
def consPiece (piece : Piece) (scanned : Option (List Piece × List Char)) :
    Option (List Piece × List Char) :=
  scanned.map fun (pieces, rest) => (piece :: pieces, rest)

/-- Scan the inside of a string and its closing quote. -/
def scanPieces? : List Char → Option (List Piece × List Char)
  | [] => none
  | '"' :: rest => some ([], rest)
  | '\\' :: 'u' :: a :: b :: c :: d :: rest => do
    consPiece (.unit (← unitValue? a b c d)) (scanPieces? rest)
  | '\\' :: c :: rest => do
    consPiece (.char (← escapedChar? c)) (scanPieces? rest)
  | c :: rest => if c.toNat < 0x20 ∨ c = '\\' then none else consPiece (.char c) (scanPieces? rest)

/-- Whether a UTF-16 unit is the first half of a pair. -/
def isLeading (unit : Nat) : Bool :=
  0xD800 ≤ unit && unit < 0xDC00

/-- Whether a UTF-16 unit is the second half of a pair. -/
def isTrailing (unit : Nat) : Bool :=
  0xDC00 ≤ unit && unit < 0xE000

/-- The code point of a pair of units. -/
def pairValue (leading trailing : Nat) : Nat :=
  0x10000 + (leading - 0xD800) * 0x400 + (trailing - 0xDC00)

/-- Join the pieces of a string to characters; `none` if a surrogate stands alone. -/
def join? : List Piece → Option (List Char)
  | [] => some []
  | .char c :: rest => (join? rest).map (c :: ·)
  | .unit leading :: .unit trailing :: rest =>
    if isLeading leading then
      if isTrailing trailing then
        (join? rest).map (Char.ofNat (pairValue leading trailing) :: ·)
      else none
    else if isTrailing leading then none
    else (join? (.unit trailing :: rest)).map (Char.ofNat leading :: ·)
  | .unit value :: rest =>
    if isLeading value || isTrailing value then none
    else (join? rest).map (Char.ofNat value :: ·)

theorem scanPieces?_length (text : List Char) (pieces : List Piece) (rest : List Char)
    (scanned : scanPieces? text = some (pieces, rest)) : rest.length < text.length := by
  fun_induction scanPieces? text generalizing pieces with
  | case1 => simp at scanned
  | case2 => simp_all
  | case3 a b c d tail ih =>
    simp only [Option.bind_eq_bind, Option.bind_eq_some_iff, consPiece, Option.map_eq_some_iff]
      at scanned
    obtain ⟨_, _, ⟨morePieces, after⟩, equation, same⟩ := scanned
    have shorter := ih morePieces (by grind)
    simp only [List.length_cons]
    omega
  | case4 c tail _ ih =>
    simp only [Option.bind_eq_bind, Option.bind_eq_some_iff, consPiece, Option.map_eq_some_iff]
      at scanned
    obtain ⟨_, _, ⟨morePieces, after⟩, equation, same⟩ := scanned
    have shorter := ih morePieces (by grind)
    simp only [List.length_cons]
    omega
  | case5 => simp at scanned
  | case6 c tail _ _ _ _ ih =>
    simp only [consPiece, Option.map_eq_some_iff] at scanned
    obtain ⟨⟨morePieces, after⟩, equation, same⟩ := scanned
    have shorter := ih morePieces (by grind)
    simp only [List.length_cons]
    omega

/-! ## Writing -/

/-- One character as the writer puts it between quotes. -/
def escapeChar (c : Char) : List Char :=
  if c = '"' then ['\\', '"']
  else if c = '\\' then ['\\', '\\']
  else if c = '\x08' then ['\\', 'b']
  else if c = '\t' then ['\\', 't']
  else if c = '\n' then ['\\', 'n']
  else if c = '\x0c' then ['\\', 'f']
  else if c = '\r' then ['\\', 'r']
  else if c.toNat < 0x20 then '\\' :: 'u' :: Text.hexDigits 4 c.toNat
  else [c]

/-- A text between quotes. -/
def write (text : String) : List Char :=
  '"' :: text.toList.flatMap escapeChar ++ ['"']

end Quoted
end Json
end GraphStore
