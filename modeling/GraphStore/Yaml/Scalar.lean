import GraphStore.Text.Digits
import GraphStore.Yaml.Cursor

/-!
# YAML scalars

A scalar is plain, quoted or a block.  Within plain and quoted scalars a line end counts as a space,
and further empty lines count as line ends.
-/

namespace GraphStore
namespace Yaml

/-- How a scalar is written. -/
inductive ScalarStyle where
  | plain
  | quoted
  /-- A block whose line ends are kept. -/
  | literal
  /-- A block whose line ends count as spaces. -/
  | folded
  deriving DecidableEq

/-- Blanks and line ends between two parts of a scalar. -/
structure Gap where
  /-- The blanks before the first line end. -/
  blanks : List Char := []
  /-- The first line end, if there is one. -/
  firstBreak : Option (List Char) := none
  /-- The further line ends. -/
  moreBreaks : List Char := []
  /-- Whether a tab stands before a given column on a later line. -/
  hasEarlyTab : Bool := false

namespace Gap

/-- What a gap contributes to a scalar. -/
def text (gap : Gap) : List Char :=
  match gap.firstBreak with
  | none => gap.blanks
  | some ['\n'] => if gap.moreBreaks = [] then [' '] else gap.moreBreaks
  | some first => first ++ gap.moreBreaks

/-- Go past blanks and line ends. -/
def take (indent : Nat) : Nat → Cursor → Gap → Cursor × Gap
  | 0, cursor, gap => (cursor, gap)
  | fuel + 1, cursor, gap =>
    match cursor.next with
    | none => (cursor, gap)
    | some c =>
      if isBlank c then
        match gap.firstBreak with
        | none => take indent fuel (cursor.skip 1) { gap with blanks := gap.blanks ++ [c] }
        | some _ =>
          let early := c == '\t' && cursor.column < indent
          take indent fuel (cursor.skip 1)
            { gap with hasEarlyTab := gap.hasEarlyTab || early }
      else if isBreak c then
        let (after, written) := cursor.skipBreak
        match gap.firstBreak with
        | none => take indent fuel after { gap with firstBreak := some written }
        | some _ => take indent fuel after { gap with moreBreaks := gap.moreBreaks ++ written }
      else (cursor, gap)

end Gap

/-! ## Plain scalars -/

/-- Whether a character ends a plain scalar within brackets or braces. -/
def isFlowMark (c : Char) : Bool :=
  c == ',' || c == '[' || c == ']' || c == '\x7b' || c == '\x7d'

/-- Whether a plain scalar ends at its next character. -/
def endsPlain (inFlow : Bool) (cursor : Cursor) : Bool :=
  match cursor.next with
  | none => true
  | some c =>
    isBlank c || isBreak c || (c == ':' && isGap (cursor.peek 1)) || (inFlow && isFlowMark c)

/-- Whether a colon within brackets or braces stands where it may not. -/
def hasStrayColon (inFlow : Bool) (cursor : Cursor) : Bool :=
  inFlow && cursor.isAt ':' && (cursor.peek 1).any fun c => isFlowMark c || c == '?'

/-- Take the characters of a plain scalar up to the next gap or its end. -/
def takePlainRun (inFlow : Bool) : Nat → Cursor → Option (List Char × Cursor)
  | 0, cursor => some ([], cursor)
  | fuel + 1, cursor =>
    if hasStrayColon inFlow cursor then none
    else if endsPlain inFlow cursor then some ([], cursor)
    else
      match cursor.next with
      | none => some ([], cursor)
      | some c =>
        (takePlainRun inFlow fuel (cursor.skip 1)).map fun (run, after) => (c :: run, after)

/-- Take a plain scalar.  The third result says whether it ended after a line end. -/
def takePlain (inFlow : Bool) (indent : Nat) :
    Nat → Cursor → List Char → Bool → Option (List Char × Cursor × Bool)
  | 0, _, _, _ => none
  | fuel + 1, cursor, pending, broke =>
    if cursor.isDocumentBoundary || cursor.isAt '#' then some ([], cursor, broke)
    else
      match takePlainRun inFlow cursor.rest.length cursor with
      | none => none
      | some ([], after) => some ([], after, broke)
      | some (run, after) =>
        let (beyond, gap) := Gap.take indent after.rest.length after {}
        if gap.hasEarlyTab then none
        else
          let brokeNow := gap.firstBreak.isSome
          let ends := beyond.index = after.index ∨ (!inFlow && beyond.column < indent)
          if ends then some (pending ++ run, beyond, brokeNow)
          else
            (takePlain inFlow indent fuel beyond gap.text brokeNow).map fun (more, rest) =>
              (pending ++ run ++ more, rest)

/-! ## Quoted scalars -/

/-- The character of a one-letter escape. -/
def escaped? : Char → Option Char
  | '0' => some '\x00'
  | 'a' => some '\x07'
  | 'b' => some '\x08'
  | 't' => some '\t'
  | '\t' => some '\t'
  | 'n' => some '\n'
  | 'v' => some '\x0b'
  | 'f' => some '\x0c'
  | 'r' => some '\r'
  | 'e' => some '\x1b'
  | ' ' => some ' '
  | '"' => some '"'
  | '/' => some '/'
  | '\\' => some '\\'
  | 'N' => some '\u0085'
  | '_' => some '\u00a0'
  | 'L' => some '\u2028'
  | 'P' => some '\u2029'
  | _ => none

/-- How many hexadecimal digits follow the letter of an escape. -/
def escapeWidth? : Char → Option Nat
  | 'x' => some 2
  | 'u' => some 4
  | 'U' => some 8
  | _ => none

/-- The character of a number that is a code point. -/
def charOfCode? (code : Nat) : Option Char :=
  if code < 0xD800 ∨ (0xDFFF < code ∧ code < 0x110000) then some (Char.ofNat code) else none

/-- The character of an escape after its backslash, and how long the escape is. -/
def takeEscape? (rest : List Char) : Option (Char × Nat) :=
  match rest with
  | [] => none
  | letter :: digits =>
    match escapeWidth? letter with
    | none => (escaped? letter).map fun c => (c, 2)
    | some width => do
      let values ← (digits.take width).mapM Text.hexValue?
      if values.length = width then
        let c ← charOfCode? (values.foldl (fun code value => code * 16 + value) 0)
        some (c, width + 2)
      else none

/-- Take the inside of a quoted scalar up to its closing quote. -/
def takeQuoted (quote : Char) : Nat → Cursor → Option (List Char × Cursor)
  | 0, _ => none
  | fuel + 1, cursor =>
    if cursor.isDocumentBoundary then none
    else
      match cursor.rest with
      | [] => none
      | c :: rest =>
        if c = quote then
          if quote = '\'' ∧ rest.head? = some '\'' then
            (takeQuoted quote fuel (cursor.skip 2)).map fun (more, after) => ('\'' :: more, after)
          else some ([], cursor.skip 1)
        else if c = '\\' ∧ quote = '"' then
          if rest.head?.any isBreak then
            let (after, _) := (cursor.skip 1).skipBreak
            let (beyond, gap) := Gap.take 0 after.rest.length after { firstBreak := some [] }
            (takeQuoted quote fuel beyond).map fun (more, last) => (gap.text ++ more, last)
          else do
            let (character, length) ← takeEscape? rest
            let (more, after) ← takeQuoted quote fuel (cursor.skip length)
            some (character :: more, after)
        else if isBlank c ∨ isBreak c then
          let (beyond, gap) := Gap.take 0 cursor.rest.length cursor {}
          (takeQuoted quote fuel beyond).map fun (more, after) => (gap.text ++ more, after)
        else
          (takeQuoted quote fuel (cursor.skip 1)).map fun (more, after) => (c :: more, after)

/-! ## Block scalars -/

/-- What happens to the line ends at the end of a block scalar. -/
inductive Chomping where
  | strip
  | clip
  | keep
  deriving DecidableEq

/-- Take the chomping mark of a block scalar. -/
def takeChomping (cursor : Cursor) : Option Chomping × Cursor :=
  if cursor.isAt '+' then (some .keep, cursor.skip 1)
  else if cursor.isAt '-' then (some .strip, cursor.skip 1)
  else (none, cursor)

/-- Take the indentation digit of a block scalar, which is not zero. -/
def takeIndentDigit? (cursor : Cursor) : Option (Option Nat × Cursor) :=
  match cursor.next with
  | some c =>
    if c.isDigit then if c = '0' then none else some (some (Text.digitValue c), cursor.skip 1)
    else some (none, cursor)
  | none => some (none, cursor)

/-- Take the marks of a block scalar and the rest of their line. -/
def takeBlockHeader? (cursor : Cursor) : Option (Chomping × Option Nat × Cursor) := do
  let (first, cursor) := takeChomping cursor
  let (digit, cursor) ← takeIndentDigit? cursor
  let (second, cursor) := if first.isNone then takeChomping cursor else (none, cursor)
  let (cursor, _) := cursor.skipWhile isBlank
  let (cursor, _) :=
    if cursor.isAt '#' then cursor.skipWhile fun c => !isBreak c else (cursor, [])
  match cursor.next with
  | none => some ((first.or second).getD .clip, digit, cursor)
  | some c =>
    if isBreak c then some ((first.or second).getD .clip, digit, cursor.skipBreak.1) else none

/-- Go past the indentation and the empty lines in front of a line of a block scalar.  Without a
known indentation, the greatest one among these lines is found.  A tab in the indentation is an
error. -/
def takeBlockBreaks (indent : Option Nat) :
    Nat → Cursor → List Char → Nat → Option (List Char × Nat × Cursor)
  | 0, cursor, breaks, greatest => some (breaks, greatest, cursor)
  | fuel + 1, cursor, breaks, greatest =>
    let spaces := (cursor.rest.takeWhile (· == ' ')).length
    let wanted := match indent with
      | some column => min spaces (column - cursor.column)
      | none => spaces
    let cursor := cursor.skip wanted
    let greatest := max greatest cursor.column
    let isShallow := match indent with
      | some column => decide (cursor.column < column)
      | none => true
    if cursor.isAt '\t' && isShallow then none
    else if cursor.isAtBreak then
      let (after, written) := cursor.skipBreak
      takeBlockBreaks indent fuel after (breaks ++ written) greatest
    else some (breaks, greatest, cursor)

/-- Take the lines of a block scalar. -/
def takeBlockLines (folded : Bool) (indent : Nat) :
    Nat → Cursor → List Char → List Char → Bool → Option (List Char × List Char × Cursor)
  | 0, _, _, _, _ => none
  | fuel + 1, cursor, leadingBreak, breaks, wasBlank =>
    if cursor.column ≠ indent ∨ cursor.next = none then some ([], leadingBreak ++ breaks, cursor)
    else
      let startsBlank := cursor.isAtBlank
      let joint :=
        if folded && leadingBreak == ['\n'] && !wasBlank && !startsBlank then
          if breaks = [] then [' '] else breaks
        else leadingBreak ++ breaks
      let (atEnd, line) := cursor.skipWhile fun c => !isBreak c
      let (nextLine, written) := atEnd.skipBreak
      match takeBlockBreaks (some indent) nextLine.rest.length nextLine [] 0 with
      | none => none
      | some (more, _, cursor) =>
        (takeBlockLines folded indent fuel cursor written more startsBlank).map
          fun (text, trailing, after) => (joint ++ line ++ text, trailing, after)

/-- Take a block scalar after its first mark. -/
def takeBlock? (folded : Bool) (parentIndent : Int) (cursor : Cursor) :
    Option (List Char × Cursor) := do
  let (chomping, digit, cursor) ← takeBlockHeader? cursor
  let base : Nat := parentIndent.toNat
  let known := digit.map (base + ·)
  let (breaks, greatest, cursor) ← takeBlockBreaks known cursor.rest.length cursor [] 0
  let indent := known.getD (max greatest (max (parentIndent + 1).toNat 1))
  let (text, trailing, after) ←
    takeBlockLines folded indent (cursor.rest.length + 1) cursor [] breaks false
  match chomping with
  | .strip => some (text, after)
  | .clip => some (text ++ (if text = [] then [] else trailing.take 1), after)
  | .keep => some (text ++ trailing, after)

end Yaml
end GraphStore
