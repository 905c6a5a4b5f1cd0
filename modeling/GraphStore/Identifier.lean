import GraphStore.Text.Digits

/-!
# Identifiers

Ids and tokens are made from numbers that were never drawn before.
-/

namespace GraphStore
namespace Identifier

/-- The id of a number below `2 ^ 122`, in the form of a random UUID. -/
def ofNumber (number : Nat) : String :=
  let group (width shift : Nat) : List Char := Text.hexDigits width (number / Nat.pow 2 shift)
  String.ofList <|
    group 8 90 ++ '-' :: group 4 74 ++ '-' :: '4' :: group 3 62 ++
      '-' :: Text.hexDigit (8 + number / Nat.pow 2 60 % 4) :: group 3 48 ++ '-' :: group 12 0

/-- A token of thirty-two hexadecimal digits. -/
def token (number : Nat) : String :=
  String.ofList (Text.hexDigits 32 number)

end Identifier
end GraphStore
