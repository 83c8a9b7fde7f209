import QueueScript.Document.Mark

/-! # The nodes of a document

The marks of a document spell one node: a scalar, a list or a mapping. Lists and mappings come in
two forms, with lines and indentation or with brackets and braces, and the second form may stand
inside the first but not the other way round. Whatever is left out is an empty plain scalar.
-/

namespace QueueScript.Document

/-- A part of a document, with scalars as they are written. -/
inductive Node where
  | scalar (t : Text) (plain : Bool)
  | list (items : List Node)
  | map (entries : List (Node × Node))
  deriving Repr

namespace Node

/-- What is left out. -/
def empty : Node :=
  .scalar [] true

/-- Whether the next mark is one of some. -/
def nextIn (stops : List Mark) (marks : List Mark) : Bool :=
  marks.head?.any stops.contains

/-- The marks without an anchor and a tag in front, whether there were any, and whether there was
    a tag. -/
def properties : List Mark → List Mark × Bool × Bool
  | .anchor :: .openTag :: marks | .openTag :: .anchor :: marks | .openTag :: marks =>
      (marks, true, true)
  | .anchor :: marks => (marks, true, false)
  | marks => (marks, false, false)

mutual
/-- The node at the front of the marks, and the marks after it. With `block` it may have lines of
    its own, and with `bare` it may be a list that is not indented. The first argument bounds the
    depth of the recursion. -/
def parse (block bare : Bool) : Nat → List Mark → Option (Node × List Mark)
  | 0, _ => none
  | fuel + 1, marks =>
      let (marks, present, tagged) := properties marks
      match marks with
      | .scalar t plain :: rest => some (.scalar t (plain || tagged), rest)
      | .openList :: rest => (parseFlowItems true fuel rest).map fun (is, rest) => (.list is, rest)
      | .openMap :: rest => (parseFlowEntries true fuel rest).map fun (es, rest) => (.map es, rest)
      | mark :: rest =>
          if bare && mark == .item then
            (parseBareItems fuel marks).map fun (items, rest) => (.list items, rest)
          else if block && mark == .listStart then
            (parseItems fuel rest).map fun (items, rest) => (.list items, rest)
          else if block && mark == .mapStart then
            (parseEntries fuel rest).map fun (entries, rest) => (.map entries, rest)
          else if present then some (.empty, marks)
          else none
      | [] => if present then some (.empty, []) else none

/-- A node, or an empty one if the next mark is one of some. -/
def parseUnless (stops : List Mark) (block bare : Bool) : Nat → List Mark → Option (Node × List Mark)
  | 0, _ => none
  | fuel + 1, marks =>
      if nextIn stops marks then some (.empty, marks) else parse block bare fuel marks

/-- The value after a colon, or an empty one if there is no colon. -/
def parseValue (stops : List Mark) (block bare : Bool) : Nat → List Mark → Option (Node × List Mark)
  | 0, _ => none
  | fuel + 1, marks =>
      match marks with
      | .colon :: rest => parseUnless stops block bare fuel rest
      | marks => some (.empty, marks)

def parseItems : Nat → List Mark → Option (List Node × List Mark)
  | 0, _ => none
  | fuel + 1, marks =>
      match marks with
      | .item :: rest => do
          let (item, rest) ← parseUnless [.item, .blockEnd] true false fuel rest
          let (items, rest) ← parseItems fuel rest
          return (item :: items, rest)
      | .blockEnd :: rest => some ([], rest)
      | _ => none

/-- The items of a list that is not indented. -/
def parseBareItems : Nat → List Mark → Option (List Node × List Mark)
  | 0, _ => none
  | fuel + 1, marks =>
      match marks with
      | .item :: rest => do
          let (item, rest) ← parseUnless [.item, .key, .colon, .blockEnd] true false fuel rest
          let (items, rest) ← parseBareItems fuel rest
          return (item :: items, rest)
      | marks => some ([], marks)

def parseEntries : Nat → List Mark → Option (List (Node × Node) × List Mark)
  | 0, _ => none
  | fuel + 1, marks =>
      match marks with
      | .key :: rest => do
          let stops := [.key, .colon, .blockEnd]
          let (key, rest) ← parseUnless stops true true fuel rest
          let (value, rest) ← parseValue stops true true fuel rest
          let (entries, rest) ← parseEntries fuel rest
          return ((key, value) :: entries, rest)
      | .blockEnd :: rest => some ([], rest)
      | _ => none

/-- The items of a list in brackets; all but the first follow a comma. A key makes the item a
    mapping of one entry. -/
def parseFlowItems (first : Bool) : Nat → List Mark → Option (List Node × List Mark)
  | 0, _ => none
  | fuel + 1, marks =>
      match first, marks with
      | _, .closeList :: rest => some ([], rest)
      | true, .key :: rest => do
          let (key, rest) ← parseUnless [.colon, .comma, .closeList] false false fuel rest
          let (value, rest) ← parseValue [.comma, .closeList] false false fuel rest
          let (items, rest) ← parseFlowItems false fuel rest
          return (.map [(key, value)] :: items, rest)
      | true, marks => do
          let (item, rest) ← parse false false fuel marks
          let (items, rest) ← parseFlowItems false fuel rest
          return (item :: items, rest)
      | false, .comma :: rest => parseFlowItems true fuel rest
      | false, _ => none

/-- The entries of a mapping in braces; all but the first follow a comma. What is no key has an
    empty value. -/
def parseFlowEntries (first : Bool) : Nat → List Mark → Option (List (Node × Node) × List Mark)
  | 0, _ => none
  | fuel + 1, marks =>
      match first, marks with
      | _, .closeMap :: rest => some ([], rest)
      | true, .key :: rest => do
          let (key, rest) ← parseUnless [.colon, .comma, .closeMap] false false fuel rest
          let (value, rest) ← parseValue [.comma, .closeMap] false false fuel rest
          let (entries, rest) ← parseFlowEntries false fuel rest
          return ((key, value) :: entries, rest)
      | true, marks => do
          let (key, rest) ← parse false false fuel marks
          let (entries, rest) ← parseFlowEntries false fuel rest
          return ((key, .empty) :: entries, rest)
      | false, .comma :: rest => parseFlowEntries true fuel rest
      | false, _ => none
end

/-- The node that marks spell; nothing may follow it but the ends of documents. No mark is looked
    at more than three times. -/
def ofMarks? (marks : List Mark) : Option Node := do
  let fuel := 3 * marks.length + 3
  let (node, rest) ←
    match marks with
    | [] | [.start] => some (empty, [])
    | .start :: rest => parseUnless [.start, .stop] true false fuel rest
    | marks => parse true false fuel marks
  if rest.all (· == Mark.stop) then some node else none

end Node

end QueueScript.Document
