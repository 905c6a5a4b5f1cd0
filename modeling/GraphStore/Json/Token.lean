import GraphStore.Json.Number
import GraphStore.Json.Quoted

/-!
# JSON tokens

A text is divided into punctuation, strings and other scalars; blanks between them are dropped.
-/

namespace GraphStore
namespace Json

/-- The smallest part of a JSON text. -/
inductive Token where
  | openArray
  | closeArray
  | openObject
  | closeObject
  | comma
  | colon
  /-- A string; `none` if it holds a lone surrogate. -/
  | string (value : Option String)
  /-- A number or a word. -/
  | scalar (value : Json)

namespace Token

/-- The characters that may stand between tokens. -/
def isSpace (c : Char) : Bool :=
  c == ' ' || c == '\t' || c == '\n' || c == '\r'

/-- Take one token off the front of a text that starts with none of the spaces. -/
def scan? : List Char → Option (Token × List Char)
  | '[' :: rest => some (openArray, rest)
  | ']' :: rest => some (closeArray, rest)
  | '\x7b' :: rest => some (openObject, rest)
  | '\x7d' :: rest => some (closeObject, rest)
  | ',' :: rest => some (comma, rest)
  | ':' :: rest => some (colon, rest)
  | '"' :: rest =>
    (Quoted.scanPieces? rest).map fun (pieces, after) =>
      (string ((Quoted.join? pieces).map String.ofList), after)
  | 'n' :: 'u' :: 'l' :: 'l' :: rest => some (scalar null, rest)
  | 't' :: 'r' :: 'u' :: 'e' :: rest => some (scalar (boolean true), rest)
  | 'f' :: 'a' :: 'l' :: 's' :: 'e' :: rest => some (scalar (boolean false), rest)
  | other => (NumberText.scan? other).map fun (number, after) => (scalar number.value, after)

end Token

theorem spanDigits_snd_length (text : List Char) :
    (Text.spanDigits text).2.length ≤ text.length := by
  have whole := congrArg List.length (Text.spanDigits_append text)
  simp only [List.length_append] at whole
  omega

theorem spanDigits_snd_length_lt (text : List Char) (some_digit : (Text.spanDigits text).1 ≠ []) :
    (Text.spanDigits text).2.length < text.length := by
  have whole := congrArg List.length (Text.spanDigits_append text)
  have positive := List.length_pos_iff.2 some_digit
  simp only [List.length_append] at whole
  omega

theorem takeSign_snd_length (text : List Char) : (Text.takeSign text).2.length ≤ text.length := by
  unfold Text.takeSign
  split <;> simp

namespace NumberText

theorem takeMinus_snd_length (text : List Char) : (takeMinus text).2.length ≤ text.length := by
  unfold takeMinus
  split <;> simp

theorem scanFraction?_length (text rest : List Char) (digits : Option (List Char))
    (scanned : scanFraction? text = some (digits, rest)) : rest.length ≤ text.length := by
  unfold scanFraction? at scanned
  split at scanned
  · next tail =>
    have shorter := spanDigits_snd_length tail
    grind
  · grind

theorem scanExponent?_length (text rest : List Char) (digits : Option (Bool × List Char))
    (scanned : scanExponent? text = some (digits, rest)) : rest.length ≤ text.length := by
  unfold scanExponent? at scanned
  split at scanned
  · grind
  · next mark tail =>
    have shorter := spanDigits_snd_length (Text.takeSign tail).2
    have unsigned := takeSign_snd_length tail
    grind

theorem scan?_length (text rest : List Char) (number : NumberText)
    (scanned : scan? text = some (number, rest)) : rest.length < text.length := by
  unfold scan? at scanned
  simp only [Option.bind_eq_bind] at scanned
  split at scanned
  · simp at scanned
  · next valid =>
    simp only [Option.bind_eq_some_iff, Prod.exists] at scanned
    obtain ⟨fraction, afterFraction, fractionScanned, exponent, after, exponentScanned, same⟩ :=
      scanned
    have wholeShorter := spanDigits_snd_length_lt (takeMinus text).2 (by grind)
    have unsigned := takeMinus_snd_length text
    have fractionShorter := scanFraction?_length _ _ _ fractionScanned
    have exponentShorter := scanExponent?_length _ _ _ exponentScanned
    grind

end NumberText

namespace Token

theorem scan?_length (text rest : List Char) (token : Token)
    (scanned : scan? text = some (token, rest)) : rest.length < text.length := by
  unfold scan? at scanned
  split at scanned
  case h_7 tail =>
    simp only [Option.map_eq_some_iff, Prod.exists] at scanned
    obtain ⟨pieces, after, equation, same⟩ := scanned
    have shorter := Quoted.scanPieces?_length _ _ _ equation
    grind
  case h_11 =>
    simp only [Option.map_eq_some_iff, Prod.exists] at scanned
    obtain ⟨number, after, equation, same⟩ := scanned
    have shorter := NumberText.scan?_length _ _ _ equation
    grind
  all_goals grind

/-- Divide a text into tokens. -/
def ofText? (text : List Char) : Option (List Token) :=
  match text with
  | [] => some []
  | c :: tail =>
    if isSpace c then ofText? tail
    else
      match scanned : scan? (c :: tail) with
      | none => none
      | some (token, rest) =>
        have := scan?_length _ _ _ scanned
        (ofText? rest).map (token :: ·)
termination_by text.length
decreasing_by
  · simp
  · assumption

end Token
end Json
end GraphStore
