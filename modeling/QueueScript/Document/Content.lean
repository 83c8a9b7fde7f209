import QueueScript.Document.Node
import QueueScript.Document.Scalar

/-! # The content of a document

The content of a node is a datum. The keys of a mapping must be scalars, and the last value of a
key counts. A key with the merge sign adds the entries of other mappings, which come before those
of the mapping itself.
-/

namespace QueueScript.Document

namespace Node

/-- The scalar that a key stands for. -/
def keyContent : Node → Except DocumentFault Scalar
  | .scalar t true => if t = valueSign then .ok (.text t) else plainContent t
  | .scalar t false => .ok (.text t)
  | .list _ | .map _ => .error .malformed

def isMerge : Node → Bool
  | .scalar t plain => plain && t == mergeSign
  | .list _ | .map _ => false

def entriesOf : Datum → Except DocumentFault (List (Scalar × Datum))
  | .map entries => .ok entries
  | _ => .error .malformed

/-- The entries that the value of a merge sign adds: those of a mapping, or of a list of mappings
    from the last to the first. -/
def merged : Datum → Except DocumentFault (List (Scalar × Datum))
  | .map entries => .ok entries
  | .list items => (items.reverse.mapM entriesOf).map List.flatten
  | .scalar _ => .error .malformed

mutual
def content : Node → Except DocumentFault Datum
  | .scalar t true => (plainContent t).map .scalar
  | .scalar t false => .ok (.scalar (.text t))
  | .list items => (itemContents items).map .list
  | .map entries => do
      let (added, own) ← entryContents entries
      return .map ((added ++ own).foldl (fun es (k, v) => Datum.insertEntry k v es) [])

def itemContents : List Node → Except DocumentFault (List Datum)
  | [] => .ok []
  | item :: items => do
      let item ← content item
      let items ← itemContents items
      return item :: items

/-- The entries that are merged in, and the others. -/
def entryContents :
    List (Node × Node) → Except DocumentFault (List (Scalar × Datum) × List (Scalar × Datum))
  | [] => .ok ([], [])
  | (key, value) :: entries => do
      if key.isMerge then
        let new ← merged (← content value)
        let (added, own) ← entryContents entries
        return (new ++ added, own)
      else
        let key ← key.keyContent
        let value ← content value
        let (added, own) ← entryContents entries
        return (added, (key, value) :: own)
end

end Node

def read (t : Text) : Except DocumentFault Datum := do
  let marks ← marks t
  match Node.ofMarks? marks with
  | some node => node.content
  | none => .error .malformed

def readFault : DocumentFault → ReadFault
  | .malformed => .malformed DocumentFault.malformed.message
  | fault => .other "ValueError".toList fault.message

def reader : Reader :=
  { read := fun t => (read t).mapError readFault, depth := 900 }

end QueueScript.Document
