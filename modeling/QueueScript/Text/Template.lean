import QueueScript.Text.Quoted
import QueueScript.Text.Space

/-! # Templates

A template is text with tags in double braces. A tag names a text to stand in its place, as in
`{{name}}`, `{{{name}}}` or `{{&name}}`, with white space allowed around the name; a name that is
not known stands for nothing, and a point for all names with their texts. A tag that begins with an exclamation mark is a comment, which
takes its line with it if it stands alone there. Braces that do not close are plain text.
-/

namespace QueueScript.Text

inductive Piece where
  | char (c : Char)
  | name (key : Text)
  | comment
  deriving Repr, DecidableEq

namespace Piece

/-- The white space in front of a text may be skipped as a whole, in part, or not at all; the
    first of these that `f` accepts, from the longest to the shortest. -/
def afterSpace {α : Type} (t : Text) (f : Text → Option α) : Option α :=
  (List.range ((t.takeWhile isSpace).length + 1)).reverse.findSome? fun n => f (t.drop n)

/-- What follows two closing braces, which white space may precede. -/
def closed? (t : Text) : Option Text :=
  match t.dropWhile isSpace with
  | '\x7d' :: '\x7d' :: rest => some rest
  | _ => none

/-- What follows three closing braces, with white space before the first and the second. -/
def tripleClosed? (t : Text) : Option Text :=
  match t.dropWhile isSpace with
  | '\x7d' :: rest => closed? rest
  | _ => none

/-- The shortest nonempty key of characters of a class that braces close, and what follows
    them. -/
def key? (f : Char → Bool) (close : Text → Option Text) : Text → Option (Text × Text)
  | [] => none
  | c :: rest =>
      if !f c then none
      else
        match close rest with
        | some rest => some ([c], rest)
        | none => (key? f close rest).map fun (key, rest) => (c :: key, rest)

/-- What follows two opening braces: the piece and the rest. Between three braces a name has no
    line feed. -/
def tag? (t : Text) : Option (Piece × Text) :=
  let key (t : Text) : Option (Text × Text) := afterSpace t (key? (fun _ => true) closed?)
  let named (found : Text × Text) : Piece × Text := (.name found.1, found.2)
  afterSpace t fun t =>
    let special :=
      match t with
      | '\x7b' :: rest => (afterSpace rest (key? (· != '\n') tripleClosed?)).map named
      | '&' :: rest => (key rest).map named
      | '!' :: rest => (key rest).map fun (found : Text × Text) => (.comment, found.2)
      | _ => none
    special.or ((key t).map named)

/-- A line feed or a carriage return. -/
def endsLine (c : Char) : Bool :=
  c == '\n' || c == '\r'

def skipLineEnd : Text → Text
  | '\r' :: '\n' :: rest => rest
  | '\r' :: rest => rest
  | '\n' :: rest => rest
  | t => t

/-- The pieces of a template; `lineStart` tells whether it begins a line. -/
def parse : Bool → Text → List Piece
  | _, [] => []
  | lineStart, c :: tail =>
      let gap := (c :: tail).takeWhile fun c => c == ' ' || c == '\t'
      let tag :=
        match (c :: tail).drop gap.length with
        | '\x7b' :: '\x7b' :: body => tag? body
        | _ => none
      match tag with
      | none => .char c :: parse (endsLine c) tail
      | some (piece, rest) =>
          if piece = .comment ∧ lineStart ∧ rest.head?.all endsLine then
            if (skipLineEnd rest).length ≤ tail.length then parse true (skipLineEnd rest) else []
          else
            gap.map .char ++ piece :: (if rest.length ≤ tail.length then parse false rest else [])
termination_by _ t => t.length

def citeNames (names : List (Text × Text)) : Text :=
  let entries := names.map fun (key, t) => cite key ++ [':', ' '] ++ cite t
  ['\x7b'] ++ commaSeparated entries ++ ['\x7d']

def render (names : List (Text × Text)) : Piece → Text
  | .char c => [c]
  | .name key => if key = ['.'] then citeNames names else (names.lookup key).getD []
  | .comment => []

end Piece

/-- The template with the given texts in place of their names. What is put in is not read as a
    template again. -/
def renderTemplate (template : Text) (names : List (Text × Text)) : Text :=
  (Piece.parse true template).flatMap (Piece.render names)

end QueueScript.Text
