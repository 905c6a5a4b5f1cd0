/-!
# Scanners

A scanner takes a value off the front of a text or fails.  A choice tries its second branch only
where its first branch failed, and a branch that succeeded is never given up later.
-/

namespace GraphStore

/-- A function that takes a value off the front of a text. -/
abbrev Scanner : Type → Type := StateT (List Char) Option

namespace Scanner

/-- Take the longest run of characters of a class, possibly none. -/
def span (keep : Char → Bool) : Scanner (List Char) := fun input =>
  some (input.takeWhile keep, input.dropWhile keep)

/-- Take a non-empty run of characters of a class. -/
def span1 (keep : Char → Bool) : Scanner (List Char) := fun input =>
  match input.takeWhile keep with
  | [] => none
  | run => some (run, input.dropWhile keep)

/-- Take an exact text. -/
def exactly (expected : List Char) : Scanner Unit := fun input =>
  if expected.isPrefixOf input then some ((), input.drop expected.length) else none

/-- Succeed only where the rest of the text has a property, and take nothing. -/
def ahead (condition : List Char → Bool) : Scanner Unit := fun input =>
  if condition input then some ((), input) else none

/-- Succeed only at the end of the text. -/
def finish : Scanner Unit :=
  ahead List.isEmpty

/-- Take items for as long as they follow.  An item that takes nothing ends the list. -/
def many {α : Type} (item : Scanner α) : Scanner (List α) := fun input =>
  match item input with
  | none => some ([], input)
  | some (value, rest) =>
    if rest.length < input.length then
      (many item rest).map fun (values, after) => (value :: values, after)
    else
      some ([], input)
termination_by input => input.length

/-- Run a scanner on a whole text. -/
def run? {α : Type} (scanner : Scanner α) (text : List Char) : Option α :=
  (scanner text).map Prod.fst

end Scanner
end GraphStore
