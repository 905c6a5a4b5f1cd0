import GraphStore.Text.Digits
import GraphStore.Yaml.Cursor

/-!
# YAML tags

A tag names the type of a node.  It is written verbatim, or with a handle in front that stands for
the beginning of the tag.  Directives of a document give handles their meanings.  A tag is a
sequence of bytes, since percent escapes write bytes.
-/

namespace GraphStore
namespace Yaml

/-- The bytes of a tag. -/
abbrev TagBytes := List UInt8

/-- The bytes of a text. -/
def bytesOf (text : String) : TagBytes :=
  text.toUTF8.toList

/-- A tag as it is written. -/
structure WrittenTag where
  /-- The handle; a tag that is complete by itself has a blank one. -/
  handle : String
  /-- The bytes after the handle. -/
  suffix : TagBytes
  deriving DecidableEq

/-! ## Characters of tags -/

/-- Whether a character may stand unescaped in a tag; brackets and commas may only if it is
verbatim. -/
def isTagChar (verbatim : Bool) (c : Char) : Bool :=
  isWordChar c || ";/?:@&=+$.!~*'()".toList.contains c || (verbatim && ",[]".toList.contains c)

/-- The byte of a percent escape. -/
def escapedByte? (cursor : Cursor) : Option (UInt8 × Cursor) :=
  match cursor.rest with
  | '%' :: high :: low :: _ => do
    let high ← Text.hexValue? high
    let low ← Text.hexValue? low
    some (UInt8.ofNat (high * 16 + low), cursor.skip 3)
  | _ => none

/-- How many bytes follow the first byte of a character. -/
def trailingBytes? (byte : UInt8) : Option Nat :=
  if byte < 0x80 then some 0
  else if byte < 0xC0 then none
  else if byte < 0xE0 then some 1
  else if byte < 0xF0 then some 2
  else if byte < 0xF8 then some 3
  else none

/-- Take the escapes of the further bytes of a character. -/
def takeTrailing? : Nat → Cursor → Option (TagBytes × Cursor)
  | 0, cursor => some ([], cursor)
  | count + 1, cursor => do
    let (byte, cursor) ← escapedByte? cursor
    if 0x80 ≤ byte ∧ byte < 0xC0 then
      let (more, after) ← takeTrailing? count cursor
      some (byte :: more, after)
    else none

/-- Take the escapes of one character. -/
def takeEscapes? (cursor : Cursor) : Option (TagBytes × Cursor) := do
  let (byte, cursor) ← escapedByte? cursor
  let (more, after) ← takeTrailing? (← trailingBytes? byte) cursor
  some (byte :: more, after)

/-- Take the characters of a tag. -/
def takeTagChars? (verbatim : Bool) : Nat → Cursor → Option (TagBytes × Cursor)
  | 0, cursor => some ([], cursor)
  | fuel + 1, cursor =>
    match cursor.next with
    | some '%' => do
      let (bytes, after) ← takeEscapes? cursor
      let (more, last) ← takeTagChars? verbatim fuel after
      some (bytes ++ more, last)
    | some c =>
      if isTagChar verbatim c then do
        let (more, last) ← takeTagChars? verbatim fuel (cursor.skip 1)
        some (UInt8.ofNat c.toNat :: more, last)
      else some ([], cursor)
    | none => some ([], cursor)

/-- Take the rest of a tag that has begun; a zero byte ends what it says. -/
def takeTagRest? (verbatim : Bool) (begun : List Char) (cursor : Cursor) :
    Option (TagBytes × Cursor) := do
  let (bytes, after) ← takeTagChars? verbatim cursor.rest.length cursor
  some ((bytesOf (String.ofList begun) ++ bytes).takeWhile (· != 0), after)

/-- Take a whole tag or the beginning of one, which is not blank. -/
def takeTagText? (verbatim : Bool) (cursor : Cursor) : Option (TagBytes × Cursor) := do
  let (bytes, after) ← takeTagRest? verbatim [] cursor
  if after.index = cursor.index then none else some (bytes, after)

/-! ## Handles -/

/-- Take an exclamation mark, a word, and another exclamation mark if there is one, which the flag
says. -/
def takeHandle? (cursor : Cursor) : Option (List Char × Bool × Cursor) :=
  if cursor.isAt '!' then
    let (after, word) := (cursor.skip 1).skipWhile isWordChar
    if after.isAt '!' then some (word, true, after.skip 1) else some (word, false, after)
  else none

/-- A handle with a word between its exclamation marks. -/
def handleOf (word : List Char) : String :=
  String.ofList ('!' :: word ++ ['!'])

/-- The handle of tags without a word. -/
def primaryHandle : String := "!"

/-- Take a tag.  What looks like a handle without its second exclamation mark belongs to the tag. -/
def takeWrittenTag? (cursor : Cursor) : Option (WrittenTag × Cursor) :=
  if cursor.peek 1 = some '<' then do
    let (suffix, after) ← takeTagText? true (cursor.skip 2)
    if after.isAt '>' then some (⟨"", suffix⟩, after.skip 1) else none
  else do
    let (word, isHandle, after) ← takeHandle? cursor
    if isHandle then
      let (suffix, after) ← takeTagText? false after
      some (⟨handleOf word, suffix⟩, after)
    else
      let (suffix, after) ← takeTagRest? false word after
      if suffix = [] then some (⟨"", bytesOf primaryHandle⟩, after)
      else some (⟨primaryHandle, suffix⟩, after)

/-- The meanings of handles. -/
abbrev TagHandles := List (String × TagBytes)

/-- The handles that every document has, unless its directives say otherwise. -/
def commonHandles : TagHandles :=
  [(primaryHandle, bytesOf "!"), (handleOf [], bytesOf "tag:yaml.org,2002:")]

/-- The whole tag, if its handle has a meaning. -/
def WrittenTag.expand? (handles : TagHandles) (tag : WrittenTag) : Option TagBytes :=
  if tag.handle = "" then some tag.suffix
  else (handles.lookup tag.handle).map fun beginning => beginning ++ tag.suffix

/-! ## Directives -/

/-- What a line in front of a document says. -/
inductive Directive where
  /-- The version of the format. -/
  | version (major minor : Nat)
  /-- The meaning of a handle. -/
  | handle (name : String) (beginning : TagBytes)
  deriving DecidableEq

/-- How many digits a number of a version may have. -/
def versionDigits : Nat := 9

/-- Take one number of a version. -/
def takeVersionNumber? (cursor : Cursor) : Option (Nat × Cursor) :=
  let (after, digits) := cursor.skipWhile Char.isDigit
  if digits = [] ∨ versionDigits < digits.length then none
  else some (Text.digitsValue digits, after)

/-- Take a version. -/
def takeVersion? (cursor : Cursor) : Option (Directive × Cursor) := do
  let (major, cursor) ← takeVersionNumber? cursor
  if cursor.isAt '.' then
    let (minor, cursor) ← takeVersionNumber? (cursor.skip 1)
    some (.version major minor, cursor)
  else none

/-- Take the meaning of a handle. -/
def takeHandleMeaning? (cursor : Cursor) : Option (Directive × Cursor) := do
  let (word, isClosed, cursor) ← takeHandle? cursor
  if (isClosed || word == []) && cursor.isAtBlank then
    let name := if isClosed then handleOf word else primaryHandle
    let (beginning, after) ← takeTagText? true (cursor.skipWhile isBlank).1
    if isGap after.next then some (.handle name beginning, after) else none
  else none

/-- Take a directive after its percent sign, up to the end of its line. -/
def takeDirective? (cursor : Cursor) : Option (Directive × Cursor) := do
  let (cursor, name) := cursor.skipWhile isWordChar
  if name = [] ∨ !isGap cursor.next then none
  else
    let cursor := (cursor.skipWhile isBlank).1
    let (directive, cursor) ←
      if name = "YAML".toList then takeVersion? cursor
      else if name = "TAG".toList then takeHandleMeaning? cursor
      else none
    let (cursor, _) := cursor.skipWhile isBlank
    let (cursor, _) :=
      if cursor.isAt '#' then cursor.skipWhile fun c => !isBreak c else (cursor, [])
    if cursor.next = none then some (directive, cursor)
    else if cursor.isAtBreak then some (directive, cursor.skipBreak.1)
    else none

end Yaml
end GraphStore
