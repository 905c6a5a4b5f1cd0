import GraphStore.Yaml.Token

/-!
# YAML documents

A node is a scalar, a sequence or a mapping, or an alias of a node with an anchor.  Nodes with
anchors are numbered.  A new anchor gets the number of the names so far, so one whose name is taken
again may share its number with a later one; an alias then stands for the last of them.
-/

namespace GraphStore
namespace Yaml

/-- A node of a document. -/
inductive Node where
  | scalar (style : ScalarStyle) (tag : Option TagBytes) (text : String)
  | sequence (items : List Node)
  | mapping (entries : List (Node × Node))
  | alias (number : Nat)

instance : Inhabited Node :=
  ⟨.scalar .plain none ""⟩

namespace Node

/-- The node that stands where nothing is written but, perhaps, a tag. -/
def blank (tag : Option TagBytes) : Node :=
  scalar .plain tag ""

end Node

/-! ## Anchors -/

/-- The anchors so far. -/
structure Anchors where
  /-- The number that each name has now. -/
  numbers : List (String × Nat) := []
  /-- The nodes with anchors and their numbers, in the order in which they start. -/
  nodes : List (Nat × Node) := []

namespace Anchors

/-- Give a name to a node that starts. -/
def start (anchors : Anchors) (name : String) : Anchors :=
  let number := anchors.numbers.length
  { numbers := (name, number) :: anchors.numbers.filter fun entry => entry.1 != name
    nodes := anchors.nodes ++ [(number, .blank none)] }

/-- Note the node that started as the one at a given position. -/
def finish (anchors : Anchors) (position : Nat) (node : Node) : Anchors :=
  { anchors with nodes := anchors.nodes.modify position fun entry => (entry.1, node) }

/-- The node that a number stands for. -/
def find? (anchors : Anchors) (number : Nat) : Option Node :=
  anchors.nodes.reverse.lookup number

end Anchors

/-! ## Reading nodes -/

/-- What stands in front of the content of a node. -/
structure Decoration where
  /-- The name of its anchor. -/
  anchor : Option String := none
  /-- Its tag. -/
  tag : Option WrittenTag := none
  deriving DecidableEq

/-- Take the anchor and the tag in front of a node, at most one of each. -/
def takeDecoration : List Token → Decoration × List Token
  | .anchor name :: .tag tag :: rest => (⟨some name, some tag⟩, rest)
  | .tag tag :: .anchor name :: rest => (⟨some name, some tag⟩, rest)
  | .anchor name :: rest => (⟨some name, none⟩, rest)
  | .tag tag :: rest => (⟨none, some tag⟩, rest)
  | rest => ({}, rest)

/-- Expand a tag, if there is one; its handle must have a meaning. -/
def expandTag? (handles : TagHandles) : Option WrittenTag → Option (Option TagBytes)
  | none => some none
  | some tag => (tag.expand? handles).map some

/-- Whether the next token is one of the given ones. -/
def startsWithOne (expected : List Token) (tokens : List Token) : Bool :=
  tokens.head?.any expected.contains

/-- Where a node stands: within brackets or braces, in a block, or in a block where a sequence need
not be indented. -/
inductive Place where
  | flow
  | block
  | blockValue
  deriving DecidableEq

/-- What was read, the anchors so far, and the tokens that are left. -/
abbrev Reading (α : Type) : Type :=
  α × Anchors × List Token

mutual

/-- Read a node. -/
def readNode? (handles : TagHandles) :
    Nat → Place → Anchors → List Token → Option (Reading Node)
  | 0, _, _, _ => none
  | fuel + 1, place, anchors, tokens =>
    match tokens with
    | .alias name :: rest =>
      (anchors.numbers.lookup name).map fun number => (.alias number, anchors, rest)
    | _ => do
      let (decoration, content) := takeDecoration tokens
      let tag ← expandTag? handles decoration.tag
      let blank? := if decoration = {} then none else some (Node.blank tag)
      match decoration.anchor with
      | none => readContent? handles fuel place tag blank? anchors content
      | some name =>
        let position := anchors.nodes.length
        let (node, anchors, rest) ←
          readContent? handles fuel place tag blank? (anchors.start name) content
        some (node, anchors.finish position node, rest)

/-- Read a node after its anchor and tag.  Without content it is the blank node, if that is
allowed. -/
def readContent? (handles : TagHandles) :
    Nat → Place → Option TagBytes → Option Node → Anchors → List Token → Option (Reading Node)
  | 0, _, _, _, _, _ => none
  | fuel + 1, place, tag, blank?, anchors, tokens =>
    match tokens with
    | .scalar style text :: rest => some (.scalar style tag text, anchors, rest)
    | .flowSequenceStart :: rest =>
      (readFlowItems? handles fuel true anchors rest).map fun (items, after) =>
        (.sequence items, after)
    | .flowMappingStart :: rest =>
      (readFlowEntries? handles fuel true anchors rest).map fun (entries, after) =>
        (.mapping entries, after)
    | .blockSequenceStart :: rest =>
      if place = .flow then none
      else (readBlockItems? handles fuel false anchors rest).map fun (items, after) =>
        (.sequence items, after)
    | .blockMappingStart :: rest =>
      if place = .flow then none
      else (readBlockEntries? handles fuel anchors rest).map fun (entries, after) =>
        (.mapping entries, after)
    | .blockEntry :: _ =>
      if place = .blockValue then
        (readBlockItems? handles fuel true anchors tokens).map fun (items, after) =>
          (.sequence items, after)
      else blank?.map fun node => (node, anchors, tokens)
    | _ => blank?.map fun node => (node, anchors, tokens)

/-- Read a node unless one of the given tokens follows, where nothing is written. -/
def readUnless? (handles : TagHandles) :
    Nat → List Token → Place → Anchors → List Token → Option (Reading Node)
  | 0, _, _, _, _ => none
  | fuel + 1, ends, place, anchors, tokens =>
    if startsWithOne ends tokens then some (.blank none, anchors, tokens)
    else readNode? handles fuel place anchors tokens

/-- Read the items of a block sequence.  One that is not indented is open-ended: it has no end of
its own. -/
def readBlockItems? (handles : TagHandles) :
    Nat → Bool → Anchors → List Token → Option (Reading (List Node))
  | 0, _, _, _ => none
  | fuel + 1, openEnded, anchors, tokens =>
    match tokens with
    | .blockEntry :: rest => do
      let ends : List Token :=
        if openEnded then [.blockEntry, .key, .value, .blockEnd] else [.blockEntry, .blockEnd]
      let (item, anchors, rest) ← readUnless? handles fuel ends .block anchors rest
      let (items, after) ← readBlockItems? handles fuel openEnded anchors rest
      some (item :: items, after)
    | .blockEnd :: rest => some ([], anchors, if openEnded then tokens else rest)
    | _ => if openEnded then some ([], anchors, tokens) else none

/-- Read the entries of a block mapping and its end. -/
def readBlockEntries? (handles : TagHandles) :
    Nat → Anchors → List Token → Option (Reading (List (Node × Node)))
  | 0, _, _ => none
  | fuel + 1, anchors, tokens =>
    match tokens with
    | .key :: rest => do
      let ends : List Token := [.key, .value, .blockEnd]
      let (key, anchors, rest) ← readUnless? handles fuel ends .blockValue anchors rest
      let (value, anchors, rest) ←
        match rest with
        | .value :: rest => readUnless? handles fuel ends .blockValue anchors rest
        | _ => some (.blank none, anchors, rest)
      let (entries, after) ← readBlockEntries? handles fuel anchors rest
      some ((key, value) :: entries, after)
    | .blockEnd :: rest => some ([], anchors, rest)
    | _ => none

/-- Read the value of an entry within brackets or braces, if a colon follows. -/
def readFlowValue? (handles : TagHandles) :
    Nat → List Token → Anchors → List Token → Option (Reading Node)
  | 0, _, _, _ => none
  | fuel + 1, ends, anchors, tokens =>
    match tokens with
    | .value :: rest => readUnless? handles fuel ends .flow anchors rest
    | _ => some (.blank none, anchors, tokens)

/-- Read the items of a flow sequence and its end.  A question mark without a key uses up the token
after it. -/
def readFlowItems? (handles : TagHandles) :
    Nat → Bool → Anchors → List Token → Option (Reading (List Node))
  | 0, _, _, _ => none
  | fuel + 1, first, anchors, tokens =>
    match tokens with
    | .flowSequenceEnd :: rest => some ([], anchors, rest)
    | _ => do
      let tokens ←
        if first then some tokens
        else match tokens with
          | .flowEntry :: rest => some rest
          | _ => none
      match tokens with
      | .flowSequenceEnd :: rest => if first then none else some ([], anchors, rest)
      | .key :: rest =>
        let ends : List Token := [.flowEntry, .flowSequenceEnd]
        let (key, anchors, rest) ←
          if startsWithOne (.value :: ends) rest then some (.blank none, anchors, rest.drop 1)
          else readNode? handles fuel .flow anchors rest
        let (value, anchors, rest) ← readFlowValue? handles fuel ends anchors rest
        let (items, after) ← readFlowItems? handles fuel false anchors rest
        some (.mapping [(key, value)] :: items, after)
      | _ =>
        let (item, anchors, rest) ← readNode? handles fuel .flow anchors tokens
        let (items, after) ← readFlowItems? handles fuel false anchors rest
        some (item :: items, after)

/-- Read the entries of a flow mapping and its end. -/
def readFlowEntries? (handles : TagHandles) :
    Nat → Bool → Anchors → List Token → Option (Reading (List (Node × Node)))
  | 0, _, _, _ => none
  | fuel + 1, first, anchors, tokens =>
    match tokens with
    | .flowMappingEnd :: rest => some ([], anchors, rest)
    | _ => do
      let tokens ←
        if first then some tokens
        else match tokens with
          | .flowEntry :: rest => some rest
          | _ => none
      match tokens with
      | .flowMappingEnd :: rest => if first then none else some ([], anchors, rest)
      | .key :: rest =>
        let ends : List Token := [.flowEntry, .flowMappingEnd]
        let (key, anchors, rest) ← readUnless? handles fuel (.value :: ends) .flow anchors rest
        let (value, anchors, rest) ← readFlowValue? handles fuel ends anchors rest
        let (entries, after) ← readFlowEntries? handles fuel false anchors rest
        some ((key, value) :: entries, after)
      | _ =>
        let (key, anchors, rest) ← readNode? handles fuel .flow anchors tokens
        let (entries, after) ← readFlowEntries? handles fuel false anchors rest
        some ((key, .blank none) :: entries, after)

end

/-! ## Documents -/

/-- A document: its node and the nodes for which aliases stand. -/
structure Document where
  /-- The outermost node. -/
  root : Node
  /-- The anchors. -/
  anchors : Anchors

/-- The node itself, or the one for which an alias stands. -/
def Document.resolve? (document : Document) : Node → Option Node
  | .alias number => document.anchors.find? number
  | node => some node

/-- Whether a version of the format is known. -/
def isKnownVersion (major minor : Nat) : Bool :=
  major == 1 && (minor == 1 || minor == 2)

/-- Read the directives in front of a document.  The version and the meaning of a handle are given
once each. -/
def readDirectives? : Bool → TagHandles → List Token → Option (TagHandles × List Token)
  | hasVersion, handles, .directive (.version major minor) :: rest =>
    if hasVersion || !isKnownVersion major minor then none else readDirectives? true handles rest
  | hasVersion, handles, .directive (.handle name beginning) :: rest =>
    if (handles.lookup name).isSome then none
    else readDirectives? hasVersion ((name, beginning) :: handles) rest
  | _, handles, rest => some (handles, rest)

/-- Whether a token ends the content of a document that was started by a marker. -/
def Token.endsDocument : Token → Bool
  | .directive _ | .documentStart | .documentEnd => true
  | _ => false

/-- Read the content of a document. -/
def readRoot? (handles : TagHandles) (tokens : List Token) :
    Option (Option Document × List Token) :=
  (readNode? (handles ++ commonHandles) (4 * tokens.length + 4) .block {} tokens).map
    fun (node, anchors, rest) => (some ⟨node, anchors⟩, rest)

/-- Read the first document of a text; a text without tokens has none. -/
def readDocument? (tokens : List Token) : Option (Option Document × List Token) := do
  if tokens = [] then some (none, [])
  else
    let (handles, rest) ← readDirectives? false [] tokens
    match rest with
    | .documentStart :: rest =>
      if rest.head?.all Token.endsDocument then some (some ⟨.blank none, {}⟩, rest)
      else readRoot? handles rest
    | _ =>
      if tokens.head?.any Token.endsDocument then none
      else readRoot? handles tokens

/-- Read a text that holds at most one document. -/
def parse? (source : String) : Option (Option Document) := do
  let (document, rest) ← readDocument? (← tokens? source.toList)
  if rest.all (· == .documentEnd) then some document else none

end Yaml
end GraphStore
