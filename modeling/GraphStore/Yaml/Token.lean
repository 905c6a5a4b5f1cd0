import GraphStore.Yaml.Scalar
import GraphStore.Yaml.Tag

/-!
# YAML tokens

The scanner turns indentation into the starts and ends of blocks.  A node that may turn out to be a
key is remembered; when a colon follows it on the same line, the key token is put in front of it.
-/

namespace GraphStore
namespace Yaml

/-- The smallest part of a YAML text. -/
inductive Token where
  | directive (directive : Directive)
  | documentStart
  | documentEnd
  | blockSequenceStart
  | blockMappingStart
  | blockEnd
  | flowSequenceStart
  | flowSequenceEnd
  | flowMappingStart
  | flowMappingEnd
  | blockEntry
  | flowEntry
  | key
  | value
  | anchor (name : String)
  | alias (name : String)
  | tag (tag : WrittenTag)
  | scalar (style : ScalarStyle) (text : String)
  deriving DecidableEq

/-- A node that may turn out to be a key. -/
structure PossibleKey where
  /-- Whether it has to be one. -/
  required : Bool
  /-- How many tokens stand before it. -/
  position : Nat
  /-- The column of its first character. -/
  column : Nat
  /-- The line of its first character. -/
  line : Nat
  /-- How many bytes stand before it. -/
  index : Nat

/-- The state of the scanner. -/
structure Scan where
  /-- The place in the text. -/
  cursor : Cursor
  /-- The column of the innermost block, or minus one. -/
  indent : Int := -1
  /-- The columns of the outer blocks. -/
  outerIndents : List Int := []
  /-- Whether a node here may be a key. -/
  keyAllowed : Bool := true
  /-- The possible key of each level of brackets and braces, the innermost first. -/
  keys : List (Option PossibleKey) := [none]
  /-- The tokens so far. -/
  tokens : Array Token := #[]

namespace Scan

/-- How many bytes after its start a key may end. -/
def keyReach : Nat := 1024

/-- Whether the scanner is within brackets or braces. -/
def inFlow (scan : Scan) : Bool :=
  scan.keys.length > 1

/-- Add a token. -/
def push (scan : Scan) (token : Token) : Scan :=
  { scan with tokens := scan.tokens.push token }

/-- Move the cursor. -/
def goTo (scan : Scan) (cursor : Cursor) : Scan :=
  { scan with cursor }

/-- Set whether a node here may be a key. -/
def allowKey (scan : Scan) (allowed : Bool) : Scan :=
  { scan with keyAllowed := allowed }

/-! ## Possible keys -/

/-- Forget the possible keys that the cursor has left behind. -/
def dropStaleKeys? (scan : Scan) : Option Scan := do
  let keys ← scan.keys.mapM fun entry =>
    match entry with
    | none => some none
    | some key =>
      if key.line < scan.cursor.line ∨ key.index + keyReach < scan.cursor.index then
        if key.required then none else some none
      else some (some key)
  some { scan with keys }

/-- Forget the possible key of the innermost level. -/
def removeKey? (scan : Scan) : Option Scan :=
  match scan.keys with
  | [] => some scan
  | some key :: outer => if key.required then none else some { scan with keys := none :: outer }
  | none :: _ => some scan

/-- Note that the next node may be a key. -/
def saveKey? (scan : Scan) : Option Scan :=
  if scan.keyAllowed then do
    let scan ← scan.removeKey?
    let key : PossibleKey :=
      { required := !scan.inFlow && scan.indent == scan.cursor.column
        position := scan.tokens.size
        column := scan.cursor.column
        line := scan.cursor.line
        index := scan.cursor.index }
    some { scan with keys := some key :: scan.keys.drop 1 }
  else some scan

/-! ## Indentation -/

/-- Open a block at a column if it is deeper than the current one; its token is put at a position
or, without one, at the end. -/
def openBlock (scan : Scan) (column : Nat) (position : Option Nat) (token : Token) : Scan :=
  if scan.inFlow then scan
  else if scan.indent < column then
    { scan with
      outerIndents := scan.indent :: scan.outerIndents
      indent := column
      tokens := match position with
        | some position => scan.tokens.toList.take position ++ token ::
            scan.tokens.toList.drop position |>.toArray
        | none => scan.tokens.push token }
  else scan

/-- Close the blocks that are deeper than a column. -/
def closeBlocks (scan : Scan) (column : Int) : List Int → Scan
  | [] => scan
  | outer :: rest =>
    if !scan.inFlow && column < scan.indent then
      closeBlocks { scan.push .blockEnd with indent := outer, outerIndents := rest } column rest
    else scan

/-- Close the blocks that are deeper than a column. -/
def unroll (scan : Scan) (column : Int) : Scan :=
  scan.closeBlocks column scan.outerIndents

/-! ## Tokens -/

/-- Go past spaces, comments and line ends, and past a byte order mark at the start of a line. -/
def skipToToken : Nat → Scan → Scan
  | 0, scan => scan
  | fuel + 1, scan =>
    match scan.cursor.next with
    | none => scan
    | some c =>
      if c = ' ' ∨ (c = '\t' ∧ (scan.inFlow ∨ !scan.keyAllowed)) ∨
          (c = '\ufeff' ∧ scan.cursor.column = 0) then
        skipToToken fuel (scan.goTo (scan.cursor.skip 1))
      else if c = '#' then
        skipToToken fuel (scan.goTo (scan.cursor.skipWhile fun c => !isBreak c).1)
      else if isBreak c then
        let scan := scan.goTo scan.cursor.skipBreak.1
        skipToToken fuel (if scan.inFlow then scan else scan.allowKey true)
      else scan

/-- Take a marker of documents. -/
def takeMarker? (scan : Scan) (token : Token) : Option Scan := do
  let scan ← (scan.unroll (-1)).removeKey?
  some ((scan.goTo (scan.cursor.skip 3)).push token |>.allowKey false)

/-- Take a directive. -/
def takeDirective? (scan : Scan) : Option Scan := do
  let scan ← (scan.unroll (-1)).removeKey?
  let (directive, cursor) ← Yaml.takeDirective? (scan.cursor.skip 1)
  some ((scan.goTo cursor).push (.directive directive) |>.allowKey false)

/-- Take an opening bracket or brace. -/
def takeOpening? (scan : Scan) (token : Token) : Option Scan := do
  let scan ← scan.saveKey?
  some (({ scan with keys := none :: scan.keys }.goTo (scan.cursor.skip 1)).push token
    |>.allowKey true)

/-- Take a closing bracket or brace. -/
def takeClosing? (scan : Scan) (token : Token) : Option Scan := do
  let scan ← scan.removeKey?
  let keys := if scan.inFlow then scan.keys.drop 1 else scan.keys
  some (({ scan with keys }.goTo (scan.cursor.skip 1)).push token |>.allowKey false)

/-- Take a comma within brackets or braces. -/
def takeComma? (scan : Scan) : Option Scan := do
  let scan ← scan.removeKey?
  some ((scan.goTo (scan.cursor.skip 1)).push .flowEntry |>.allowKey true)

/-- Take the dash of a block sequence. -/
def takeDash? (scan : Scan) : Option Scan := do
  if !scan.inFlow && !scan.keyAllowed then none
  else
    let scan := scan.openBlock scan.cursor.column none .blockSequenceStart
    let scan ← scan.removeKey?
    some ((scan.goTo (scan.cursor.skip 1)).push .blockEntry |>.allowKey true)

/-- Take the question mark of an explicit key. -/
def takeQuestion? (scan : Scan) : Option Scan := do
  if !scan.inFlow && !scan.keyAllowed then none
  else
    let scan := scan.openBlock scan.cursor.column none .blockMappingStart
    let scan ← scan.removeKey?
    some ((scan.goTo (scan.cursor.skip 1)).push .key |>.allowKey !scan.inFlow)

/-- Take the colon of a value.  A possible key becomes a key. -/
def takeColon? (scan : Scan) : Option Scan :=
  match scan.keys with
  | some key :: outer =>
    let before := scan.tokens.toList.take key.position
    let after := scan.tokens.toList.drop key.position
    let scan := { scan with tokens := (before ++ Token.key :: after).toArray }
    let scan := scan.openBlock key.column (some key.position) .blockMappingStart
    let scan := { scan with keys := none :: outer }
    some ((scan.goTo (scan.cursor.skip 1)).push .value |>.allowKey false)
  | _ =>
    if !scan.inFlow && !scan.keyAllowed then none
    else
      let scan := scan.openBlock scan.cursor.column none .blockMappingStart
      some ((scan.goTo (scan.cursor.skip 1)).push .value |>.allowKey !scan.inFlow)

/-- Take an anchor or an alias. -/
def takeAnchor? (scan : Scan) (token : String → Token) : Option Scan := do
  let scan ← scan.saveKey?
  let (cursor, name) := (scan.cursor.skip 1).skipWhile isWordChar
  let ends : Bool := isGap cursor.next || cursor.next.any "?:,]\x7d%@`".toList.contains
  if name != [] && ends then
    some ((scan.goTo cursor).push (token (String.ofList name)) |>.allowKey false)
  else none

/-- Take a tag. -/
def takeTag? (scan : Scan) : Option Scan := do
  let scan ← scan.saveKey?
  let (tag, cursor) ← takeWrittenTag? scan.cursor
  if (scan.inFlow && cursor.isAt ',') || isGap cursor.next then
    some ((scan.goTo cursor).push (.tag tag) |>.allowKey false)
  else none

/-- Take a block scalar, which is literal or folded. -/
def takeBlockScalar? (scan : Scan) (style : ScalarStyle) : Option Scan := do
  let scan ← scan.removeKey?
  let (text, cursor) ← takeBlock? (style == .folded) scan.indent (scan.cursor.skip 1)
  some ((scan.goTo cursor).push (.scalar style (String.ofList text)) |>.allowKey true)

/-- Take a quoted scalar. -/
def takeQuotedScalar? (scan : Scan) (quote : Char) : Option Scan := do
  let scan ← scan.saveKey?
  let start := scan.cursor.skip 1
  let (text, cursor) ← takeQuoted quote (start.rest.length + 1) start
  some ((scan.goTo cursor).push (.scalar .quoted (String.ofList text)) |>.allowKey false)

/-- Take a plain scalar. -/
def takePlainScalar? (scan : Scan) : Option Scan := do
  let scan ← scan.saveKey?
  let (text, cursor, broke) ←
    takePlain scan.inFlow (scan.indent + 1).toNat (scan.cursor.rest.length + 1) scan.cursor []
      false
  some ((scan.goTo cursor).push (.scalar .plain (String.ofList text)) |>.allowKey broke)

/-- Whether a plain scalar may start at the cursor. -/
def startsPlain (scan : Scan) (c : Char) : Bool :=
  let following := scan.cursor.peek 1
  (!isBlank c && !isBreak c && !"-?:,[]\x7b\x7d#&*!|>'\"%@`".toList.contains c) ||
    (c == '-' && !following.any isBlank) ||
    (!scan.inFlow && (c == '?' || c == ':') && !isGap following)

/-- Take the token that starts with a given character. -/
def takeToken? (scan : Scan) (c : Char) : Option Scan :=
  let cursor := scan.cursor
  let beforeGap := isGap (cursor.peek 1)
  if cursor.column = 0 ∧ c = '%' then scan.takeDirective?
  else if cursor.isDocumentMarker '-' then scan.takeMarker? .documentStart
  else if cursor.isDocumentMarker '.' then scan.takeMarker? .documentEnd
  else if c = '[' then scan.takeOpening? .flowSequenceStart
  else if c = '\x7b' then scan.takeOpening? .flowMappingStart
  else if c = ']' then scan.takeClosing? .flowSequenceEnd
  else if c = '\x7d' then scan.takeClosing? .flowMappingEnd
  else if c = ',' then scan.takeComma?
  else if c = '-' ∧ beforeGap then scan.takeDash?
  else if c = '?' ∧ (scan.inFlow ∨ beforeGap) then scan.takeQuestion?
  else if c = ':' ∧ (scan.inFlow ∨ beforeGap) then scan.takeColon?
  else if c = '*' then scan.takeAnchor? .alias
  else if c = '&' then scan.takeAnchor? .anchor
  else if c = '!' then scan.takeTag?
  else if c = '|' ∧ !scan.inFlow then scan.takeBlockScalar? .literal
  else if c = '>' ∧ !scan.inFlow then scan.takeBlockScalar? .folded
  else if c = '\'' ∨ c = '"' then scan.takeQuotedScalar? c
  else if scan.startsPlain c then scan.takePlainScalar?
  else none

/-- Take tokens up to the end of the text. -/
def run? : Nat → Scan → Option Scan
  | 0, _ => none
  | fuel + 1, scan => do
    let scan := skipToToken (scan.cursor.rest.length + 1) scan
    let scan ← scan.dropStaleKeys?
    let scan := scan.unroll scan.cursor.column
    match scan.cursor.next with
    | none => (scan.unroll (-1)).removeKey?
    | some c =>
      let scan ← scan.takeToken? c
      run? fuel scan

end Scan

/-- Divide a text into tokens. -/
def tokens? (text : List Char) : Option (List Token) :=
  let text := match text with
    | '\ufeff' :: rest => rest
    | text => text
  if text.all isPrintable then
    (Scan.run? (2 * text.length + 2) { cursor := { rest := text } }).map fun scan =>
      scan.tokens.toList
  else none

end Yaml
end GraphStore
