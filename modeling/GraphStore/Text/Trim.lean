/-!
# Blanks and trimming

Text is handled as a list of characters.  A blank is a character with the Unicode property
`White_Space`; trimming removes blanks, or any other class of characters, from both ends.
-/

namespace GraphStore
namespace Text

/-- Characters of the Unicode property `White_Space`. -/
def isBlank (c : Char) : Bool :=
  let code := c.toNat
  (0x09 ≤ code && code ≤ 0x0D) || code == 0x20 || code == 0x85 || code == 0xA0 ||
    code == 0x1680 || (0x2000 ≤ code && code ≤ 0x200A) || code == 0x2028 || code == 0x2029 ||
    code == 0x202F || code == 0x205F || code == 0x3000

/-- Every character that the core library counts as white space is a blank. -/
theorem isBlank_of_isWhitespace (c : Char) (white : c.isWhitespace) : isBlank c := by
  simp only [Char.isWhitespace, Bool.or_eq_true, decide_eq_true_eq] at white
  rcases white with ((rfl | rfl) | rfl) | rfl <;> decide

/-- Remove the characters of a class from both ends. -/
def strip (drop : Char → Bool) (text : List Char) : List Char :=
  ((text.dropWhile drop).reverse.dropWhile drop).reverse

/-- Remove the blanks from both ends. -/
def trim (text : List Char) : List Char :=
  strip isBlank text

/-- Remove the blanks from both ends of a string. -/
def trimString (text : String) : String :=
  String.ofList (trim text.toList)

@[simp]
theorem strip_nil (drop : Char → Bool) : strip drop [] = [] := by
  simp [strip]

/-- A text whose two ends are kept is not changed. -/
theorem strip_eq_self (drop : Char → Bool) (text : List Char)
    (first : ∀ c ∈ text.head?, drop c = false) (last : ∀ c ∈ text.getLast?, drop c = false) :
    strip drop text = text := by
  have keep : ∀ chars : List Char, (∀ c ∈ chars.head?, drop c = false) →
      chars.dropWhile drop = chars := by
    intro chars kept
    cases chars with
    | nil => rfl
    | cons c rest => simp [kept c (by simp)]
  rw [strip, keep text first, keep text.reverse (by simpa using last), List.reverse_reverse]

/-- The ASCII letters are compared without regard to case, all else exactly. -/
def equalsIgnoringCase (left right : List Char) : Bool :=
  left.map Char.toLower == right.map Char.toLower

end Text
end GraphStore
