import QueueScript.Text.Quoted

/-! # Files by name

What a command can see of the files around it: what each path leads to. `Directory.ofFiles` is a
directory that holds some files and nothing else. There a path is a list of names between slashes, where
empty names and single dots mean nothing and two dots lead back.
-/

namespace QueueScript

/-- What a path leads to. -/
inductive Entry where
  | file (content : ByteArray)
  /-- There is a file, which cannot be read for this reason. -/
  | unreadable (reason : Text)
  /-- There is no file, for this reason. -/
  | absent (reason : Text)
  /-- The path holds a character that no name may hold. -/
  | invalidPath

structure Directory where
  find : Text → Entry

namespace Directory

def root : Text := ['/']

/-- The names of a path, the first of them the root if the path begins there. -/
def names (path : Text) : List Text :=
  (if path.head? = some '/' then [root] else []) ++
    (Text.fragments root path).filter fun name => name ≠ [] ∧ name ≠ ['.']

/-- The path without what means nothing in it. -/
def normalPath (path : Text) : Text :=
  match names path with
  | [] => ['.']
  | first :: rest =>
      if first = root then root ++ List.intercalate root rest
      else List.intercalate root (first :: rest)

/-- The names without those that others lead back from. -/
def straighten (path : List Text) : List Text :=
  path.foldl
    (fun walked name =>
      if name = ['.', '.'] ∧ walked.getLast?.any (· ≠ ['.', '.']) then
        if walked = [root] then walked else walked.dropLast
      else walked ++ [name])
    []

def nameSize (name : Text) : Nat :=
  (String.ofList name).utf8ByteSize

/-- The longest name, in bytes. -/
def maxName : Nat := 255

/-- The longest path, in bytes. -/
def maxPath : Nat := 4095

/-- Why a path cannot be read as a file, in the words of the system. -/
def refusal (path : Text) (words : String) : Entry :=
  .absent (words.toList ++ ": ".toList ++ Text.cite (normalPath path))

section Files

variable (files : List (Text × ByteArray)) (path : Text)

/-- Follows names from a place that the names walked so far lead to. -/
def walk (walked : List Text) : List Text → Entry
  | [] => refusal path "[Errno 21] Is a directory"
  | name :: rest =>
      let here := straighten (walked ++ [name])
      if maxName < nameSize name then refusal path "[Errno 36] File name too long"
      else
        match files.find? fun (path, _) => straighten (names path) = here with
        | some (_, content) =>
            if rest.isEmpty then .file content else refusal path "[Errno 20] Not a directory"
        | none =>
            if here.all fun name => name = root ∨ name = ['.', '.'] then walk here rest
            else if files.any fun (path, _) => here.isPrefixOf (straighten (names path)) then
              walk here rest
            else refusal path "[Errno 2] No such file or directory"

end Files

/-- A directory that holds some files, by their paths. -/
def ofFiles (files : List (Text × ByteArray)) : Directory where
  find path :=
    if path.contains '\x00' then .invalidPath
    else if maxPath < nameSize (normalPath path) then refusal path "[Errno 36] File name too long"
    else walk files path [] (names path)

end Directory

end QueueScript
