import Mathlib
import GraphStore.Json.Quoted
import GraphStore.Json.Token

/-!
# Reading written strings

Every text is read back from its written form.
-/

namespace GraphStore
namespace Json
namespace Quoted

/-- Whether a character is written by its number. -/
def isNumbered (c : Char) : Bool :=
  c.toNat < 0x20 && !"\x08\t\n\x0c\r".toList.contains c

/-- The piece as which a written character is read. -/
def pieceOf (c : Char) : Piece :=
  if isNumbered c then .unit c.toNat else .char c

private theorem unitValue?_hexDigits : ∀ value : Fin 32,
    unitValue? (Text.hexDigit (value / 16 / 16 / 16 % 16)) (Text.hexDigit (value / 16 / 16 % 16))
      (Text.hexDigit (value / 16 % 16)) (Text.hexDigit (value % 16)) = some value.val := by
  decide

theorem scanPieces?_escapeChar (c : Char) (rest : List Char) :
    scanPieces? (escapeChar c ++ rest) = consPiece (pieceOf c) (scanPieces? rest) := by
  by_cases named : c ∈ "\"\\\x08\t\n\x0c\r".toList
  · simp only [String.reduceToList, List.mem_cons, List.not_mem_nil, or_false] at named
    rcases named with rfl | rfl | rfl | rfl | rfl | rfl | rfl <;> rfl
  · have others := named
    simp only [String.reduceToList, List.mem_cons, List.not_mem_nil, or_false, not_or] at others
    obtain ⟨notQuote, notBackslash, notBackspace, notTab, notNewline, notFeed, notReturn⟩ := others
    by_cases control : c.toNat < 0x20
    · have numbered : isNumbered c = true := by
        simp [isNumbered, control, notBackspace, notTab, notNewline, notFeed, notReturn]
      have escaped : escapeChar c = '\\' :: 'u' :: Text.hexDigits 4 c.toNat := by
        simp [escapeChar, control, notQuote, notBackslash, notBackspace, notTab, notNewline,
          notFeed, notReturn]
      have value := unitValue?_hexDigits ⟨c.toNat, control⟩
      simp only at value
      rw [escaped, pieceOf, if_pos numbered]
      simp only [Text.hexDigits, List.nil_append, List.cons_append, scanPieces?, value,
        Option.bind_eq_bind, Option.bind_some]
    · have numbered : isNumbered c = false := by simp [isNumbered, control]
      have escaped : escapeChar c = [c] := by
        simp [escapeChar, control, notQuote, notBackslash, notBackspace, notTab, notNewline,
          notFeed, notReturn]
      rw [escaped, pieceOf, numbered]
      have plain : ¬(c.toNat < 0x20 ∨ c = '\\') := by simp [control, notBackslash]
      simp only [List.cons_append, List.nil_append, Bool.false_eq_true, if_false]
      rw [scanPieces?, if_neg plain] <;> simp_all

theorem scanPieces?_written (text : List Char) (rest : List Char) :
    scanPieces? (text.flatMap escapeChar ++ '"' :: rest) = some (text.map pieceOf, rest) := by
  induction text with
  | nil => simp [scanPieces?]
  | cons c text ih =>
      rw [List.flatMap_cons, List.append_assoc, scanPieces?_escapeChar, ih]
      rfl

private theorem join?_unit {value : Nat} (small : value < 0x20) (pieces : List Piece) :
    join? (.unit value :: pieces) = (join? pieces).map (Char.ofNat value :: ·) := by
  have notLeading : isLeading value = false := by simp [isLeading]; omega
  have notTrailing : isTrailing value = false := by simp [isTrailing]; omega
  cases pieces with
  | nil => simp [join?, notLeading, notTrailing]
  | cons piece pieces => cases piece <;> simp [join?, notLeading, notTrailing]

theorem join?_written (text : List Char) : join? (text.map pieceOf) = some text := by
  induction text with
  | nil => rfl
  | cons c text ih =>
      by_cases numbered : isNumbered c
      · have small : c.toNat < 0x20 := by
          simp only [isNumbered, Bool.and_eq_true, decide_eq_true_eq] at numbered
          exact numbered.1
        rw [List.map_cons, pieceOf, if_pos numbered, join?_unit small, ih]
        simp
      · rw [List.map_cons, pieceOf, if_neg numbered, join?, ih]
        rfl

end Quoted

theorem Token.scan?_string (text : String) (rest : List Char) :
    Token.scan? (Quoted.write text ++ rest) = some (.string (some text), rest) := by
  have scanned := Quoted.scanPieces?_written text.toList rest
  simp [Quoted.write, Token.scan?, scanned, Quoted.join?_written]

end Json
end GraphStore
