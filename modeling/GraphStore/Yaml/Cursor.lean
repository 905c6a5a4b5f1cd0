/-!
# Places in a YAML text

A cursor is a place in a text together with its column and line, on which the structure of a YAML
document depends.
-/

namespace GraphStore
namespace Yaml

/-- Space and tab. -/
def isBlank (c : Char) : Bool :=
  c == ' ' || c == '\t'

/-- The characters that end a line. -/
def isBreak (c : Char) : Bool :=
  c == '\n' || c == '\r' || c == '\u0085' || c == '\u2028' || c == '\u2029'

/-- Whether a place is blank, at the end of a line or at the end of the text. -/
def isGap : Option Char → Bool
  | none => true
  | some c => isBlank c || isBreak c

/-- The characters that a document may hold. -/
def isPrintable (c : Char) : Bool :=
  let code := c.toNat
  code == 0x09 || code == 0x0A || code == 0x0D || (0x20 ≤ code && code ≤ 0x7E) || code == 0x85 ||
    (0xA0 ≤ code && code ≤ 0xFFFD) || 0x10000 ≤ code

/-- The characters of names: letters, digits, underscores and hyphens of ASCII. -/
def isWordChar (c : Char) : Bool :=
  c.isAlphanum || c == '_' || c == '-'

/-- How many bytes characters have. -/
def byteCount (text : List Char) : Nat :=
  text.foldl (fun count c => count + c.utf8Size) 0

/-- A place in a text. -/
structure Cursor where
  /-- What follows. -/
  rest : List Char
  /-- How many characters stand before on the same line. -/
  column : Nat := 0
  /-- How many lines stand before. -/
  line : Nat := 0
  /-- How many bytes stand before. -/
  index : Nat := 0

namespace Cursor

/-- The character at a distance. -/
def peek (cursor : Cursor) (distance : Nat) : Option Char :=
  cursor.rest[distance]?

/-- The next character. -/
def next (cursor : Cursor) : Option Char :=
  cursor.peek 0

/-- Whether the next character is a given one. -/
def isAt (cursor : Cursor) (c : Char) : Bool :=
  cursor.next == some c

/-- Go past characters of the same line. -/
def skip (cursor : Cursor) (count : Nat) : Cursor :=
  { cursor with
    rest := cursor.rest.drop count
    column := cursor.column + count
    index := cursor.index + byteCount (cursor.rest.take count) }

/-- Go past the end of a line; what it contributes to a scalar is the second result. -/
def skipBreak (cursor : Cursor) : Cursor × List Char :=
  match cursor.rest with
  | '\r' :: '\n' :: rest => (⟨rest, 0, cursor.line + 1, cursor.index + 2⟩, ['\n'])
  | c :: rest =>
    (⟨rest, 0, cursor.line + 1, cursor.index + c.utf8Size⟩,
      if c = '\u2028' ∨ c = '\u2029' then [c] else ['\n'])
  | [] => (cursor, [])

/-- Go past all characters of a class on the same line; the second result are these characters. -/
def skipWhile (cursor : Cursor) (keep : Char → Bool) : Cursor × List Char :=
  let run := cursor.rest.takeWhile keep
  (cursor.skip run.length, run)

/-- Whether a line starts here with a marker of documents. -/
def isDocumentMarker (cursor : Cursor) (marker : Char) : Bool :=
  cursor.column == 0 && cursor.rest.take 3 == [marker, marker, marker] && isGap (cursor.peek 3)

/-- Whether a document starts or ends here. -/
def isDocumentBoundary (cursor : Cursor) : Bool :=
  cursor.isDocumentMarker '-' || cursor.isDocumentMarker '.'

/-- Whether the next character is a blank. -/
def isAtBlank (cursor : Cursor) : Bool :=
  cursor.next.any isBlank

/-- Whether a line ends here. -/
def isAtBreak (cursor : Cursor) : Bool :=
  cursor.next.any isBreak

end Cursor
end Yaml
end GraphStore
