import GraphStore.Json.Token

/-!
# Reading JSON

The reader goes through the tokens once and keeps a stack of the arrays and objects that are open.
`parse?` accepts every well-formed text.  A `document?` is stricter: all of it must be readable and
it may not nest too deeply.  A `sortedDocument?` moreover has the fields of its objects in the order
of their keys, without repetition.
-/

namespace GraphStore
namespace Json

/-- An array or object that is still open, with what it holds so far in reverse. -/
inductive Frame where
  /-- An array that waits for an item. -/
  | array (items : List Json)
  /-- An object that waits for the value of a key. -/
  | object (fields : List (Option String × Json)) (key : Option String)

/-- What the reader waits for. -/
inductive Reader where
  /-- A value. -/
  | valueNext (stack : List Frame)
  /-- The first item of an array, or its end. -/
  | itemOrEnd (stack : List Frame)
  /-- Either a comma or the end of an array. -/
  | afterItem (items : List Json) (stack : List Frame)
  /-- The first key of an object, or its end. -/
  | keyOrEnd (stack : List Frame)
  /-- A key after a comma. -/
  | keyNext (fields : List (Option String × Json)) (stack : List Frame)
  /-- The colon after a key. -/
  | colonNext (fields : List (Option String × Json)) (key : Option String) (stack : List Frame)
  /-- Either a comma or the end of an object. -/
  | afterField (fields : List (Option String × Json)) (stack : List Frame)
  /-- Nothing: the text is complete. -/
  | complete (result : Json)

namespace Reader

/-- Hand a complete value to the innermost open array or object. -/
def deliver (value : Json) : List Frame → Reader
  | [] => complete value
  | .array items :: stack => afterItem (value :: items) stack
  | .object fields key :: stack => afterField ((key, value) :: fields) stack

/-- The object of fields in reverse, which is unreadable if one of its keys is. -/
def objectOf (fields : List (Option String × Json)) : Json :=
  match fields.reverse.mapM (fun field => field.1.map fun key => (key, field.2)) with
  | some fields => object fields
  | none => unreadable

/-- Read the first token of a value. -/
def startValue? (stack : List Frame) : Token → Option Reader
  | .openArray => some (itemOrEnd stack)
  | .openObject => some (keyOrEnd stack)
  | .string value => some (deliver ((value.map text).getD unreadable) stack)
  | .scalar value => some (deliver value stack)
  | _ => none

/-- Read one token. -/
def next? : Reader → Token → Option Reader
  | valueNext stack, token => startValue? stack token
  | itemOrEnd stack, .closeArray => some (deliver (array []) stack)
  | itemOrEnd stack, token => startValue? (.array [] :: stack) token
  | afterItem items stack, .comma => some (valueNext (.array items :: stack))
  | afterItem items stack, .closeArray => some (deliver (array items.reverse) stack)
  | keyOrEnd stack, .closeObject => some (deliver (object []) stack)
  | keyOrEnd stack, .string name => some (colonNext [] name stack)
  | keyNext fields stack, .string name => some (colonNext fields name stack)
  | colonNext fields name stack, .colon => some (valueNext (.object fields name :: stack))
  | afterField fields stack, .comma => some (keyNext fields stack)
  | afterField fields stack, .closeObject => some (deliver (objectOf fields) stack)
  | _, _ => none

/-- The value that was read, if the text is complete. -/
def result? : Reader → Option Json
  | complete result => some result
  | _ => none

/-- Read all tokens of one value. -/
def run? (reader : Reader) (tokens : List Token) : Option Reader :=
  tokens.foldlM next? reader

end Reader

/-- Read a well-formed text. -/
def parse? (source : String) : Option Json := do
  let tokens ← Token.ofText? source.toList
  let reader ← Reader.run? (.valueNext []) tokens
  reader.result?

/-- How deep the arrays and objects of a document may be nested. -/
def nestingLimit : Nat := 127

/-- Read a text all of whose parts are readable and that does not nest too deeply. -/
def document? (source : String) : Option Json :=
  (parse? source).filter fun json => json.readable && json.depth ≤ nestingLimit

/-- Read a document and sort the fields of its objects; of a repeated key the last value stays. -/
def sortedDocument? (source : String) : Option Json :=
  (document? source).map sorted

end Json
end GraphStore
