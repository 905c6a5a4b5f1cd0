import GraphStore.Text.Emoji
import GraphStore.Text.Wide

/-!
# Width of text in columns

The width of a line is the sum of the widths of its characters, except where several characters are
drawn as one: an emoji with its selector, its modifier or other emoji joined to it, a flag, and the
ligatures of some scripts.  The line is read from its end, so for each character it is known what
follows.
-/

namespace GraphStore
namespace Text

/-- What follows a character, as far as the width of the character depends on it. -/
inductive Follower where
  /-- Nothing that matters. -/
  | other
  /-- A modifier of tone. -/
  | modifier
  /-- One regional indicator. -/
  | indicator
  /-- Several regional indicators. -/
  | indicators
  /-- An emoji. -/
  | emoji
  /-- A joiner and an emoji. -/
  | joinedEmoji
  /-- A keycap, a joiner and an emoji. -/
  | joinedKeycap
  /-- One regional indicator, a joiner and an emoji. -/
  | joinedIndicator
  /-- An even number of regional indicators, a joiner and an emoji. -/
  | joinedPairs
  /-- An odd number of regional indicators, a joiner and an emoji. -/
  | joinedOddPairs
  /-- Tags up to the end of a tag sequence, a joiner and an emoji: first digits, then letters. -/
  | tags (digits letters : Nat)
  /-- An Arabic alef. -/
  | alef
  /-- A Hebrew lamed, with or without a joiner in front of it. -/
  | lamed (joined : Bool)
  /-- A Buginese ya, with or without a joiner in front of it. -/
  | ya (joined : Bool)
  /-- A Buginese vowel sign that is joined to a ya. -/
  | vowelYa
  /-- A Tifinagh consonant, with or without a joiner in front of it. -/
  | consonant (joined : Bool)
  /-- The Tifinagh joiner and a consonant. -/
  | joinerConsonant
  /-- A Lisu tone letter that may be the second of two. -/
  | toneLetter
  /-- An Old Turkic i, with or without a joiner in front of it. -/
  | orkhonI (joined : Bool)
  /-- A Khmer letter that may be written below another. -/
  | subscript
  /-- A Kirat Rai vowel sign e. -/
  | vowelE
  /-- A Kirat Rai vowel sign ai. -/
  | vowelAi
  deriving DecidableEq

namespace Follower

/-- Whether this is the end of a ligature of letters, which selectors do not separate. -/
def endsLigature : Follower → Bool
  | alef | lamed _ | ya _ | vowelYa | consonant _ | joinerConsonant | toneLetter | orkhonI _
  | subscript => true
  | _ => false

/-- Whether this is the end of a ligature that may hold joiners and ignorable marks. -/
def admitsJoiners (follower : Follower) : Bool :=
  follower.endsLigature && follower != alef

/-- The same with a joiner in front. -/
def joined : Follower → Follower
  | lamed _ => lamed true
  | ya _ => ya true
  | consonant _ => consonant true
  | orkhonI _ => orkhonI true
  | follower => follower

end Follower

/-- What follows a character, and which variation selectors stand in between. -/
structure Following where
  /-- What follows the selectors. -/
  follower : Follower := .other
  /-- Whether the emoji selector is in between. -/
  asEmoji : Bool := false
  /-- Whether the text selector is in between. -/
  asText : Bool := false
  /-- Whether the selector of wide quotation marks is in between. -/
  asWide : Bool := false
  deriving DecidableEq

namespace Following

/-- Put the emoji selector in front. -/
def withEmojiSelector (following : Following) : Following :=
  if following.follower.endsLigature then { following with asEmoji := true }
  else if following.follower = .joinedEmoji ∨ following.follower = .joinedKeycap then
    { follower := following.follower, asEmoji := true }
  else { asEmoji := true }

/-- Put the text selector in front. -/
def withTextSelector (following : Following) : Following :=
  if following.follower.endsLigature then { following with asText := true } else { asText := true }

/-- Put the selector of wide quotation marks in front. -/
def withWideSelector (following : Following) : Following :=
  if following.follower.endsLigature then { following with asWide := true } else { asWide := true }

/-- What follows if the emoji selector does not apply. -/
def withoutEmojiSelector (following : Following) : Following :=
  if !following.asEmoji || following.follower.endsLigature then { following with asEmoji := false }
  else {}

end Following

/-- Whether a code point lies between two others. -/
def isBetween (first last code : Nat) : Bool :=
  first ≤ code && code ≤ last

/-! ## Letters of ligatures -/

/-- Whether a code point is an Arabic alef. -/
def isAlef (code : Nat) : Bool :=
  inRanges [(0x622, 0x623), (0x625, 0x625), (0x627, 0x627), (0x671, 0x673), (0x675, 0x675),
    (0x773, 0x774), (0x870, 0x882)] code

/-- Whether a code point is an Arabic lam. -/
def isLam (code : Nat) : Bool :=
  inRanges [(0x644, 0x644), (0x6B5, 0x6B8), (0x76A, 0x76A), (0x8A6, 0x8A6), (0x8C7, 0x8C7)] code

/-- Whether a code point is a Khmer letter that may be written below another. -/
def isSubscript (code : Nat) : Bool :=
  inRanges [(0x1780, 0x1782), (0x1784, 0x1787), (0x1789, 0x178C), (0x178E, 0x1793),
    (0x1795, 0x1798), (0x179B, 0x179D), (0x17A0, 0x17A0), (0x17A2, 0x17A2), (0x17A7, 0x17A7),
    (0x17AB, 0x17AC), (0x17AF, 0x17AF)] code

/-- Whether a code point is a Tifinagh consonant. -/
def isTifinaghConsonant (code : Nat) : Bool :=
  isBetween 0x2D31 0x2D65 code || code == 0x2D6F

/-- Whether a code point is a mark that ligatures ignore. -/
def isIgnorableMark (code : Nat) : Bool :=
  inRanges [(0x34F, 0x34F), (0x17B4, 0x17B5), (0x180B, 0x180D), (0x180F, 0x180F),
    (0xFE00, 0xFE0F), (0xE0100, 0xE01EF)] code

/-! ## Characters -/

/-- What a character is for the one in front of it. -/
def followerOf (code : Nat) : Follower :=
  if isModifier code then .modifier
  else if isIndicator code then .indicator
  else if isEmoji code then .emoji
  else if isAlef code then .alef
  else if code = 0x5DC then .lamed false
  else if code = 0x1A10 then .ya false
  else if isTifinaghConsonant code then .consonant false
  else if isBetween 0xA4FC 0xA4FD code then .toneLetter
  else if code = 0x10C03 then .orkhonI false
  else if isSubscript code then .subscript
  else if code = 0x16D67 then .vowelE
  else if code = 0x16D68 then .vowelAi
  else .other

/-- What a tag adds to the tags that follow it. -/
def addTag? (digits letters code : Nat) : Option Follower :=
  if isBetween 0xE0061 0xE007A code ∧ digits = 0 ∧ letters < 6 then some (.tags 0 (letters + 1))
  else if isBetween 0xE0030 0xE0039 code ∧ digits = 0 ∧ letters < 5 then some (.tags 1 letters)
  else if isBetween 0xE0030 0xE0039 code ∧ 0 < digits ∧ digits < 3 then
    some (.tags (digits + 1) letters)
  else if code = 0x1F3F4 ∧ (digits = 3 ∨ (digits = 0 ∧ 3 ≤ letters)) then some .emoji
  else none

/-- What a character in front of a joiner and an emoji becomes. -/
def joinEmoji? (code : Nat) : Option (Int × Follower) :=
  if code = 0x20E3 then some (0, .joinedKeycap)
  else if isIndicator code then some (1, .joinedIndicator)
  else if isModifier code then some (0, .modifier)
  else if code = 0xE007F then some (0, .tags 0 0)
  else if isEmoji code then some (0, .emoji)
  else none

/-- The width of a character that is drawn together with what follows, and what both are for the
character in front of them. -/
def joinWidth? (code : Nat) : Follower → Option (Int × Follower)
  | .alef =>
    if isLam code then some (0, .other)
    else if isTransparent code then some (0, .alef)
    else none
  | .lamed true => if code = 0x5D0 then some (0, .other) else none
  | .subscript => if code = 0x17D2 then some (-1, .other) else none
  | .ya true => if code = 0x1A17 then some (0, .vowelYa) else none
  | .vowelYa => if code = 0x1A15 then some (0, .other) else none
  | .consonant joined =>
    if code = 0x2D7F then some (1, .joinerConsonant)
    else if joined && isTifinaghConsonant code then some (0, .other)
    else none
  | .joinerConsonant => if isTifinaghConsonant code then some (-1, .other) else none
  | .toneLetter => if isBetween 0xA4F8 0xA4FB code then some (0, .other) else none
  | .orkhonI true => if code = 0x10C32 then some (0, .other) else none
  | .modifier =>
    if isModifiable code then some (0, .emoji)
    else if code = 0x200D then some (0, .joinedEmoji)
    else none
  | .indicator => if isIndicator code then some (1, .indicators) else none
  | .indicators =>
    if isIndicator code then some (1, .indicators)
    else if code = 0x200D then some (0, .joinedEmoji)
    else none
  | .emoji => if code = 0x200D then some (0, .joinedEmoji) else none
  | .joinedEmoji => joinEmoji? code
  | .joinedIndicator => if isIndicator code then some (-1, .joinedPairs) else none
  | .joinedPairs =>
    if isIndicator code then some (3, .joinedOddPairs)
    else if code = 0x200D then some (0, .joinedEmoji)
    else none
  | .joinedOddPairs =>
    if isIndicator code then some (-1, .joinedPairs)
    else if code = 0x200D then some (0, .joinedEmoji)
    else none
  | .tags digits letters => (addTag? digits letters code).map fun follower => (0, follower)
  | .vowelE =>
    if code = 0x16D63 ∨ code = 0x16D69 then some (0, .other)
    else if code = 0x16D67 then some (0, .vowelAi)
    else if code = 0x16D68 then some (1, .vowelE)
    else none
  | .vowelAi => if code = 0x16D63 then some (0, .other) else none
  | _ => none

/-- The width of a character after which no selector stands, and what follows the character in front
of it. -/
def widthBefore (code : Nat) (follower : Follower) : Int × Following :=
  if follower.admitsJoiners && code == 0x200D then (0, { follower := follower.joined })
  else if follower.admitsJoiners && isIgnorableMark code then (0, { follower })
  else
    let (width, joined) := (joinWidth? code follower).getD (codeWidth code, followerOf code)
    (width, { follower := joined })

/-- Whether a code point is a quotation mark that a selector makes wide. -/
def isWidenable (code : Nat) : Bool :=
  [0x2018, 0x2019, 0x201C, 0x201D].contains code

/-- The width of a character in front of what follows, and what follows the character in front of
it. -/
def placeChar (c : Char) (following : Following) : Int × Following :=
  let code := c.toNat
  if following.asEmoji && isSelectable code then
    (if following.follower = .joinedEmoji ∨ following.follower = .joinedKeycap then 0 else 2,
      { follower := .emoji })
  else
    let following := following.withoutEmojiSelector
    if code ≤ 0xA0 then (1, {})
    else if code = 0xFE0F then (0, following.withEmojiSelector)
    else if code = 0xFE0E then (0, following.withTextSelector)
    else if code = 0xFE01 then (0, following.withWideSelector)
    else if following.asText && isNarrowable code then (1, {})
    else if following.asWide && isWidenable code then (2, {})
    else widthBefore code following.follower

/-- The number of columns that a line takes. -/
def width (line : List Char) : Nat :=
  (line.foldr (fun c (sum, following) =>
    let (width, before) := placeChar c following
    (sum + width, before)) ((0 : Int), ({} : Following))).1.toNat

/-- Fill a line with spaces up to a number of columns. -/
def padTo (columns : Nat) (line : List Char) : List Char :=
  line ++ List.replicate (columns - width line) ' '

end Text
end GraphStore
