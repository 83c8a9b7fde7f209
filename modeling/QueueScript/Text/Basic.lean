/-! # Text

Text is the list of its code points, so every length and every offset counts code points.
A signed position counts from the front, or from the end when it is negative, and is clamped
to the text; `suffixFrom`, `upTo` and `segment` cut at such positions.

`isBlank` is the class of characters that may stand between two instructions. It is smaller
than the class of white space, which lives in `QueueScript.Text.Space`.
-/

namespace QueueScript

/-- Text, as the list of its code points. -/
abbrev Text := List Char

namespace Text

/-- The offset that a signed position denotes in a text of `length` characters. -/
def clamp (length : Nat) (pos : Int) : Nat :=
  if pos < 0 then (pos + length).toNat else min pos.toNat length

/-- The text from a signed position to its end. -/
def suffixFrom (t : Text) (pos : Int) : Text :=
  t.drop (clamp t.length pos)

/-- The text up to a signed position. -/
def upTo (t : Text) (pos : Int) : Text :=
  t.take (clamp t.length pos)

/-- The text between two signed positions; empty when they are crossed. -/
def segment (t : Text) (first last : Int) : Text :=
  (t.upTo last).drop (clamp t.length first)

/-- Characters that may stand between instructions: space, tab, line feed, form feed and
    carriage return. -/
def isBlank (c : Char) : Bool :=
  c == ' ' || c == '\t' || c == '\n' || c == '\x0c' || c == '\r'

def skipBlanks (t : Text) : Text :=
  t.dropWhile isBlank

/-- The offset of the first character at or after `pos` that is not a blank. -/
def firstNonBlank (t : Text) (pos : Int) : Nat :=
  t.length - (skipBlanks (t.suffixFrom pos)).length

/-- The text padded on the left with spaces to `width` characters. -/
def padLeft (width : Nat) (t : Text) : Text :=
  List.replicate (width - t.length) ' ' ++ t

def commaSeparated (parts : List Text) : Text :=
  List.intercalate [',', ' '] parts

/-- What stands before and after the first occurrence of `pattern`. -/
def breakOn (pattern : Text) : Text → Option (Text × Text)
  | [] => if pattern.isEmpty then some ([], []) else none
  | c :: rest =>
      if pattern.isPrefixOf (c :: rest) then some ([], (c :: rest).drop pattern.length)
      else (breakOn pattern rest).map fun (before, after) => (c :: before, after)

theorem eq_append_of_breakOn {pattern t before after : Text}
    (h : breakOn pattern t = some (before, after)) : t = before ++ pattern ++ after := by
  induction t generalizing before after with
  | nil =>
      simp only [breakOn] at h
      split at h
      · simp_all
      · simp at h
  | cons c rest ih =>
      simp only [breakOn] at h
      split at h
      · rename_i found
        obtain ⟨tail, ht⟩ := List.isPrefixOf_iff_prefix.mp found
        simp only [Option.some.injEq, Prod.mk.injEq] at h
        obtain ⟨rfl, rfl⟩ := h
        simp [← ht]
      · obtain ⟨⟨front, back⟩, found, eq⟩ := Option.map_eq_some_iff.mp h
        simp only [Prod.mk.injEq] at eq
        obtain ⟨rfl, rfl⟩ := eq
        simp [ih found]

/-- The fragments of a text between the occurrences of a nonempty pattern, taken from the
    left; an empty pattern leaves the text whole. -/
def fragments (pattern t : Text) : List Text :=
  if _empty : pattern = [] then [t]
  else
    match _found : breakOn pattern t with
    | some (before, after) => before :: fragments pattern after
    | none => [t]
termination_by t.length
decreasing_by
  have := List.length_pos_iff.mpr _empty
  rw [eq_append_of_breakOn _found]
  simp only [List.length_append]
  omega

theorem length_skipBlanks_le (t : Text) : (skipBlanks t).length ≤ t.length :=
  (List.dropWhile_suffix isBlank).length_le

end Text

end QueueScript
