import QueueScript.Proofs.Locations

/-! # What an excerpt shows

A report counts lines at line feeds, and an excerpt cuts its lines at every character that a terminal
breaks a line at. The two agree on a place if every break up to there is a line feed, alone or behind
a carriage return (`BreaksAtFeeds`). Then the marked line is the line of the place, and the carets
begin below its character and stay within the line. Otherwise the excerpt marks an earlier line.
-/

namespace QueueScript

namespace Text

/-- Every line break is a line feed, or a carriage return in front of one. -/
def BreaksAtFeeds (t : Text) : Prop :=
  ∀ front c back, t = front ++ c :: back → isLineBreak c = true →
    c = '\n' ∨ c = '\r' ∧ back.head? = some '\n'

def Unbroken (t : Text) : Prop :=
  ∀ c ∈ t, isLineBreak c = false

theorem breaksAtFeeds_cons {c : Char} {t : Text} :
    BreaksAtFeeds (c :: t) ↔
      (isLineBreak c = true → c = '\n' ∨ c = '\r' ∧ t.head? = some '\n') ∧ BreaksAtFeeds t := by
  constructor
  · intro h
    refine ⟨h [] c t rfl, ?_⟩
    intro front d back same
    exact h (c :: front) d back (by rw [same]; rfl)
  · rintro ⟨here, later⟩ front d back same
    cases front with
    | nil =>
        cases same
        exact here
    | cons e front =>
        cases same
        exact later front d back rfl

theorem unbroken_cons {c : Char} {t : Text} :
    Unbroken (c :: t) ↔ isLineBreak c = false ∧ Unbroken t :=
  List.forall_mem_cons

theorem unbroken_singleton {c : Char} (solid : isLineBreak c = false) : Unbroken [c] :=
  List.forall_mem_singleton.mpr solid

theorem BreaksAtFeeds.of_unbroken {t : Text} (h : Unbroken t) : BreaksAtFeeds t := by
  rintro front c back rfl breaks
  have solid := h c (List.mem_append_right front (List.mem_cons_self ..))
  cases solid.symm.trans breaks

theorem unbroken_append {a b : Text} : Unbroken (a ++ b) ↔ Unbroken a ∧ Unbroken b :=
  List.forall_mem_append

/-! ## Lines -/

/-- The lines of a text with one more character, which breaks no line, in front. -/
def prepend (c : Char) : List Text → List Text
  | [] => [[c]]
  | line :: more => (c :: line) :: more

theorem length_prepend (c : Char) {rest : List Text} (h : rest ≠ []) :
    (prepend c rest).length = rest.length := by
  cases rest with
  | nil => exact absurd rfl h
  | cons => rfl

/-- One more character in front is the first half of a break, breaks a line, or stands in the first
    line. -/
theorem lines_cons_cases (c : Char) (t : Text) :
    (c = '\r' ∧ t.head? = some '\n' ∧ lines (c :: t) = lines t) ∨
    (isLineBreak c = true ∧ ¬ (c = '\r' ∧ t.head? = some '\n') ∧ lines (c :: t) = [] :: lines t) ∨
    (isLineBreak c = false ∧ lines (c :: t) = prepend c (lines t)) := by
  by_cases pair : c = '\r' ∧ t.head? = some '\n'
  · obtain ⟨rfl, head⟩ := pair
    refine .inl ⟨rfl, head, ?_⟩
    cases t with
    | nil => cases head
    | cons d t =>
        cases head
        rfl
  · have cut : lines (c :: t) = if isLineBreak c then [] :: lines t else prepend c (lines t) := by
      rw [lines.eq_def]
      split
      · rename_i same
        cases same
      · rename_i same
        cases same
        exact absurd ⟨rfl, rfl⟩ pair
      · rename_i same
        cases same
        rfl
    cases breaks : isLineBreak c with
    | true => exact .inr (.inl ⟨rfl, pair, by rw [cut, breaks]; rfl⟩)
    | false => exact .inr (.inr ⟨rfl, by rw [cut, breaks]; rfl⟩)

theorem lines_feed (t : Text) : lines ('\n' :: t) = [] :: lines t := rfl

theorem lines_solid {c : Char} (solid : isLineBreak c = false) (t : Text) :
    lines (c :: t) = prepend c (lines t) := by
  rcases lines_cons_cases c t with ⟨rfl, -, -⟩ | ⟨breaks, -, -⟩ | ⟨-, cut⟩
  · cases solid
  · cases solid.symm.trans breaks
  · exact cut

theorem lines_ne_nil {t : Text} (h : t ≠ []) : lines t ≠ [] := by
  induction t with
  | nil => exact absurd rfl h
  | cons c t ih =>
      rcases lines_cons_cases c t with ⟨-, head, cut⟩ | ⟨-, -, cut⟩ | ⟨-, cut⟩
      · rw [cut]
        apply ih
        rintro rfl
        cases head
      · rw [cut]
        nofun
      · rw [cut]
        cases lines t <;> nofun

theorem unbroken_of_mem_lines {t line : Text} (h : line ∈ lines t) : Unbroken line := by
  induction t generalizing line with
  | nil => cases h
  | cons c t ih =>
      rcases lines_cons_cases c t with ⟨-, -, cut⟩ | ⟨-, -, cut⟩ | ⟨solid, cut⟩
      · rw [cut] at h
        exact ih h
      · rw [cut] at h
        rcases List.mem_cons.mp h with rfl | member
        · nofun
        · exact ih member
      · rw [cut] at h
        cases rest : lines t with
        | nil =>
            rw [rest] at h
            rw [List.mem_singleton.mp h]
            exact unbroken_singleton solid
        | cons first more =>
            rw [rest] at h ih
            rcases List.mem_cons.mp h with rfl | member
            · exact unbroken_cons.mpr ⟨solid, ih (List.mem_cons_self ..)⟩
            · exact ih (List.mem_cons_of_mem first member)

theorem lines_append_feed {t : Text} (h : Unbroken t) (rest : Text) :
    lines (t ++ '\n' :: rest) = t :: lines rest := by
  induction t with
  | nil => exact lines_feed rest
  | cons c t ih =>
      obtain ⟨solid, later⟩ := unbroken_cons.mp h
      rw [List.cons_append, lines_solid solid, ih later]
      rfl

theorem lines_of_unbroken {t : Text} (h : Unbroken t) (nonempty : t ≠ []) : lines t = [t] := by
  induction t with
  | nil => exact absurd rfl nonempty
  | cons c t ih =>
      obtain ⟨solid, later⟩ := unbroken_cons.mp h
      rw [lines_solid solid]
      cases t with
      | nil => rfl
      | cons d t =>
          rw [ih later nofun]
          rfl

/-- Rows with a line feed between neighbours are the lines of the whole. -/
theorem lines_intercalate {rows : List Text} (h : ∀ row ∈ rows, Unbroken row ∧ row ≠ []) :
    lines (List.intercalate ['\n'] rows) = rows := by
  induction rows with
  | nil => rfl
  | cons row rows ih =>
      obtain ⟨unbroken, nonempty⟩ := h row (List.mem_cons_self ..)
      have later := ih fun r member => h r (List.mem_cons_of_mem row member)
      cases rows with
      | nil =>
          rw [List.intercalate_singleton]
          exact lines_of_unbroken unbroken nonempty
      | cons next rows =>
          rw [List.intercalate_cons_cons, List.append_assoc, List.singleton_append,
            lines_append_feed unbroken, later]

/-! ## The line of a place -/

theorem lastLine_feed (t : Text) : lastLine ('\n' :: t) = lastLine t := by
  by_cases feed : '\n' ∈ t
  · exact lastLine_append_of_mem (a := ['\n']) feed
  · exact (lastLine_append_of_not_mem (a := ['\n']) feed).trans
      (lastLine_append_of_not_mem (a := []) feed).symm

section Place

variable {c : Char} (solid : isLineBreak c = false)
include solid

/-- If all breaks up to a place are line feeds, the line of the place begins behind the last of
    them, and they count the lines above. -/
theorem exists_line_of_place {before : Text} (h : BreaksAtFeeds (before ++ [c])) (after : Text) :
    ∃ above more below,
      lines (before ++ c :: after) = above ++ (before.lastLine ++ c :: more) :: below ∧
      above.length = before.count '\n' := by
  induction before with
  | nil =>
      rw [List.nil_append, lines_solid solid]
      cases lines after with
      | nil => exact ⟨[], [], [], rfl, rfl⟩
      | cons line more => exact ⟨[], line, more, rfl, rfl⟩
  | cons d before ih =>
      obtain ⟨here, later⟩ := breaksAtFeeds_cons.mp h
      obtain ⟨above, more, below, cut, counted⟩ := ih later
      have sameHead : (before ++ c :: after).head? = (before ++ [c]).head? := by
        cases before <;> rfl
      rw [List.cons_append]
      rcases lines_cons_cases d (before ++ c :: after) with
        ⟨rfl, head, whole⟩ | ⟨breaks, notPair, whole⟩ | ⟨within, whole⟩
      · have feed : '\n' ∈ before := by
          cases before with
          | nil =>
              cases head
              cases solid
          | cons e before =>
              cases head
              exact List.mem_cons_self ..
        refine ⟨above, more, below, ?_, ?_⟩
        · rw [whole, cut, ← lastLine_append_of_mem (a := ['\r']) feed]
          rfl
        · rw [counted, List.count_cons_of_ne (by decide)]
      · obtain rfl | pair := here breaks
        · refine ⟨[] :: above, more, below, ?_, ?_⟩
          · rw [whole, cut, lastLine_feed]
            rfl
          · rw [List.count_cons_self, List.length_cons, counted]
        · exact absurd ⟨pair.1, sameHead.trans pair.2⟩ notPair
      · have notFeed : d ≠ '\n' := by
          rintro rfl
          cases within
        rw [List.count_cons_of_ne notFeed, whole, cut]
        -- The character stands in the line of the place if no line feed comes between.
        cases above with
        | nil =>
            have unfed : '\n' ∉ before := List.count_eq_zero.mp counted.symm
            have same : lastLine before = before := lastLine_append_of_not_mem (a := []) unfed
            have unfed' : '\n' ∉ d :: before :=
              List.not_mem_cons_of_ne_of_not_mem notFeed.symm unfed
            have joined : lastLine (d :: before) = d :: before :=
              lastLine_append_of_not_mem (a := []) unfed'
            rw [same, joined]
            exact ⟨[], more, below, rfl, counted⟩
        | cons first above =>
            have feed : '\n' ∈ before := by
              rw [← List.count_pos_iff, ← counted]
              exact Nat.succ_pos _
            refine ⟨(d :: first) :: above, more, below, ?_, counted⟩
            rw [← lastLine_append_of_mem (a := [d]) feed]
            rfl

/-- Counted at all breaks, the line of a place is the same or later, and it is the same if and only
    if all breaks up to the place are line feeds. -/
theorem count_feeds_lt_length_lines (before : Text) :
    before.count '\n' < (lines (before ++ [c])).length ∧
      ((lines (before ++ [c])).length = before.count '\n' + 1 ↔ BreaksAtFeeds (before ++ [c])) := by
  induction before with
  | nil =>
      have alone := unbroken_singleton solid
      rw [List.nil_append, lines_of_unbroken alone (List.cons_ne_nil c [])]
      exact ⟨Nat.one_pos, iff_of_true rfl (.of_unbroken alone)⟩
  | cons d before ih =>
      obtain ⟨le, exact_iff⟩ := ih
      rw [List.cons_append, breaksAtFeeds_cons]
      rcases lines_cons_cases d (before ++ [c]) with
        ⟨rfl, head, cut⟩ | ⟨breaks, notPair, cut⟩ | ⟨within, cut⟩
      · rw [cut, List.count_cons_of_ne (by decide), exact_iff]
        exact ⟨le, by simp [head]⟩
      · rw [cut, List.length_cons]
        by_cases feed : d = '\n'
        · subst feed
          rw [List.count_cons_self, Nat.add_right_cancel_iff, exact_iff]
          exact ⟨Nat.succ_lt_succ le, by simp⟩
        · rw [List.count_cons_of_ne feed]
          refine ⟨by omega, iff_of_false (by omega) ?_⟩
          rintro ⟨here, -⟩
          exact (here breaks).elim feed notPair
      · have notFeed : d ≠ '\n' := by
          rintro rfl
          cases within
        have nonempty : lines (before ++ [c]) ≠ [] :=
          lines_ne_nil (List.append_ne_nil_of_right_ne_nil before (List.cons_ne_nil c []))
        rw [cut, length_prepend d nonempty, List.count_cons_of_ne notFeed, exact_iff]
        exact ⟨le, by simp [within]⟩

end Place

theorem length_ofNat_mono {a b : Nat} (le : a ≤ b) : (ofNat a).length ≤ (ofNat b).length := by
  have room : 0 < (ofNat b).length := List.length_pos_iff.mpr (ofNat_ne_nil b)
  have bounded := (Nat.length_toDigits_le_iff (by decide) room).mp (Nat.le_refl _)
  exact (Nat.length_toDigits_le_iff (by decide) room).mpr (Nat.lt_of_le_of_lt le bounded)

theorem unbroken_replicate {c : Char} (solid : isLineBreak c = false) (n : Nat) :
    Unbroken (List.replicate n c) := by
  intro d member
  rw [List.eq_of_mem_replicate member]
  exact solid

theorem unbroken_ofNat (n : Nat) : Unbroken (ofNat n) := by
  intro c member
  have digit := isDigit_of_mem_ofNat member
  rw [Bool.eq_false_iff]
  intro breaks
  simp only [isLineBreak, Bool.or_eq_true, beq_iff_eq, or_assoc] at breaks
  rcases breaks with rfl | rfl | rfl | rfl | rfl | rfl | rfl | rfl | rfl | rfl <;> cases digit

theorem solid_of_firstNonBlank {before rest : Text} {c : Char} {pos : Int}
    (h : (before ++ c :: rest).firstNonBlank pos = before.length) : isBlank c = false := by
  have suffix : skipBlanks ((before ++ c :: rest).suffixFrom pos) <:+ before ++ c :: rest :=
    (List.dropWhile_suffix isBlank).trans (List.drop_suffix ..)
  have short := suffix.length_le
  have left : skipBlanks ((before ++ c :: rest).suffixFrom pos) = c :: rest := by
    refine (List.suffix_of_suffix_length_le suffix (List.suffix_append before _) ?_).eq_of_length ?_
    all_goals
      rw [firstNonBlank] at h
      rw [List.length_append, List.length_cons] at h short
      rw [List.length_cons]
      omega
  have head := List.head?_dropWhile_not isBlank ((before ++ c :: rest).suffixFrom pos)
  rw [skipBlanks] at left
  rw [left] at head
  exact head

end Text

/-! ## Rows -/

namespace Report

/-- An excerpt shows a character at a line and a column. One row is marked, and has the line's number
    and the character in its column. The row below has carets from this column on, which end with the
    line at the latest. -/
def Shows (printed : Text) (line col : Nat) (c : Char) : Prop :=
  ∃ (above below : List Text) (pad content : Text) (carets : Nat),
    Text.lines printed = above ++ row '>' (pad ++ Text.ofNat line) content ::
      row ' ' (List.replicate (pad ++ Text.ofNat line).length ' ')
        (List.replicate (col - 1) ' ' ++ List.replicate carets '^') :: below ∧
    (∀ r ∈ above ++ below, r.head? ≠ some '>') ∧ (∀ d ∈ pad, d = ' ') ∧
    content[col - 1]? = some c ∧ 0 < carets ∧ col - 1 + carets ≤ content.length

theorem unbroken_row {marker : Char} {number content : Text} (hm : Text.isLineBreak marker = false)
    (hn : Text.Unbroken number) (hc : Text.Unbroken content) :
    Text.Unbroken (row marker number content) := by
  have bar : Text.Unbroken [' ', '|', ' '] :=
    Text.unbroken_cons.mpr ⟨rfl, Text.unbroken_cons.mpr ⟨rfl, Text.unbroken_singleton rfl⟩⟩
  exact Text.unbroken_append.mpr ⟨Text.unbroken_append.mpr
    ⟨Text.unbroken_cons.mpr ⟨hm, Text.unbroken_cons.mpr ⟨rfl, hn⟩⟩, bar⟩, hc⟩

theorem unbroken_number (digits n : Nat) : Text.Unbroken (Text.padLeft digits (Text.ofNat n)) :=
  Text.unbroken_append.mpr ⟨Text.unbroken_replicate rfl _, Text.unbroken_ofNat n⟩

theorem unbroken_caretRow (digits : Nat) (content : Text) (col width : Int) :
    Text.Unbroken (caretRow digits content col width) :=
  unbroken_row rfl (Text.unbroken_replicate rfl _)
    (Text.unbroken_append.mpr ⟨Text.unbroken_replicate rfl _, Text.unbroken_replicate rfl _⟩)

/-- The rows for one line, given with its number. -/
def rowsAt (digits : Nat) (line col width : Int) (entry : Text × Nat) : List Text :=
  let number := Text.padLeft digits (Text.ofNat entry.2)
  if (entry.2 : Int) = line then
    [row '>' number entry.1, caretRow digits entry.1 col width]
  else [row ' ' number entry.1]

theorem rowsAt_unbroken {digits : Nat} {line col width : Int} {entry : Text × Nat} {r : Text}
    (h : Text.Unbroken entry.1) (member : r ∈ rowsAt digits line col width entry) :
    Text.Unbroken r ∧ r ≠ [] := by
  rw [rowsAt] at member
  split at member
  · rcases List.mem_cons.mp member with rfl | member
    · exact ⟨unbroken_row rfl (unbroken_number _ _) h, nofun⟩
    · rw [List.mem_singleton.mp member]
      exact ⟨unbroken_caretRow _ _ _ _, nofun⟩
  · rw [List.mem_singleton.mp member]
    exact ⟨unbroken_row rfl (unbroken_number _ _) h, nofun⟩

theorem rowsAt_unmarked {digits : Nat} {line col width : Int} {entry : Text × Nat} {r : Text}
    (other : (entry.2 : Int) ≠ line) (member : r ∈ rowsAt digits line col width entry) :
    r.head? ≠ some '>' := by
  rw [rowsAt, if_neg other] at member
  rw [List.mem_singleton.mp member]
  nofun

theorem lines_excerpt {source content : Text} {above below : List Text}
    (cut : Text.lines source = above ++ content :: below) (col width : Int) {radius : Int}
    (around : 0 ≤ radius) :
    ∃ digits rowsAbove rowsBelow,
      Text.lines (excerpt source (above.length + 1 : Nat) (some col) width radius) =
        rowsAbove ++ row '>' (Text.padLeft digits (Text.ofNat (above.length + 1))) content ::
          caretRow digits content col width :: rowsBelow ∧
      (∀ r ∈ rowsAbove ++ rowsBelow, r.head? ≠ some '>') ∧
      (Text.ofNat (above.length + 1)).length ≤ digits := by
  have total : (Text.lines source).length = above.length + (below.length + 1) := by
    rw [cut, List.length_append, List.length_cons]
  obtain ⟨last, atLeast, lastEq⟩ : ∃ last : Nat, above.length + 1 ≤ last ∧
      min ((Text.lines source).length : Int) ((above.length + 1 : Nat) + radius) = last :=
    ⟨(min ((Text.lines source).length : Int) ((above.length + 1 : Nat) + radius)).toNat,
      by omega, by omega⟩
  let digits := (Text.ofNat last).length
  let rows := rowsAt digits (above.length + 1 : Nat) col width
  let near (entry : Text × Nat) : Bool :=
    decide (max 1 (((above.length + 1 : Nat) : Int) - radius) ≤ entry.2 ∧ (entry.2 : Int) ≤ last)
  have printed : excerpt source (above.length + 1 : Nat) (some col) width radius =
      List.intercalate ['\n'] ((((Text.lines source).zipIdx 1).filter near).flatMap rows) := by
    rw [excerpt, if_neg (by omega), lastEq]
    rfl
  have whole : Text.lines (excerpt source (above.length + 1 : Nat) (some col) width radius) =
      (((Text.lines source).zipIdx 1).filter near).flatMap rows := by
    rw [printed]
    apply Text.lines_intercalate
    intro r member
    obtain ⟨entry, inside, member⟩ := List.mem_flatMap.mp member
    have listed := List.fst_mem_of_mem_zipIdx (List.mem_filter.mp inside).1
    exact rowsAt_unbroken (Text.unbroken_of_mem_lines listed) member
  have kept : near (content, 1 + above.length) = true := by
    simp only [near, decide_eq_true_eq]
    omega
  rw [whole, cut, List.zipIdx_append, List.zipIdx_cons, List.filter_append,
    List.filter_cons_of_pos kept, List.flatMap_append, List.flatMap_cons]
  refine ⟨digits, ((above.zipIdx 1).filter near).flatMap rows,
    ((below.zipIdx (1 + above.length + 1)).filter near).flatMap rows, ?_, ?_, ?_⟩
  · have marked : rows (content, 1 + above.length) =
        [row '>' (Text.padLeft digits (Text.ofNat (above.length + 1))) content,
          caretRow digits content col width] := by
      rw [Nat.add_comm]
      exact if_pos rfl
    rw [marked]
    rfl
  · intro r member
    rcases List.mem_append.mp member with member | member
    · obtain ⟨entry, inside, member⟩ := List.mem_flatMap.mp member
      have early := List.snd_lt_add_of_mem_zipIdx (List.mem_filter.mp inside).1
      exact rowsAt_unmarked (by omega) member
    · obtain ⟨entry, inside, member⟩ := List.mem_flatMap.mp member
      have late := List.le_snd_of_mem_zipIdx (List.mem_filter.mp inside).1
      exact rowsAt_unmarked (by omega) member
  · exact Text.length_ofNat_mono atLeast

theorem exists_carets (digits : Nat) {content : Text} {front : Nat} (inside : front < content.length)
    (width : Int) :
    ∃ carets, 0 < carets ∧ front + carets ≤ content.length ∧
      caretRow digits content (front + 1 : Nat) width =
        row ' ' (List.replicate digits ' ')
          (List.replicate front ' ' ++ List.replicate carets '^') := by
  refine ⟨(max (min width (content.length - (front + 1 : Nat) + 1)) 1).toNat, by omega, by omega, ?_⟩
  have sameFront : (((front + 1 : Nat) : Int) - 1).toNat = front := by omega
  rw [caretRow, sameFront]

/-- If all breaks up to a place are line feeds, the excerpt shows the place. -/
theorem shows_excerpt {before after : Text} {c : Char} (solid : Text.isLineBreak c = false)
    (feeds : Text.BreaksAtFeeds (before ++ [c])) (width : Int) {radius : Int} (around : 0 ≤ radius) :
    Shows (excerpt (before ++ c :: after) (before.count '\n' + 1 : Nat)
        (some (before.lastLine.length + 1 : Nat)) width radius)
      (before.count '\n' + 1) (before.lastLine.length + 1) c := by
  obtain ⟨above, more, below, cut, counted⟩ := Text.exists_line_of_place solid feeds after
  obtain ⟨digits, rowsAbove, rowsBelow, printed, unmarked, room⟩ :=
    lines_excerpt cut (before.lastLine.length + 1 : Nat) width around
  have inside : before.lastLine.length < (before.lastLine ++ c :: more).length := by
    rw [List.length_append, List.length_cons]
    omega
  obtain ⟨carets, positive, within, caretsBelow⟩ := exists_carets digits inside width
  let pad : Text := List.replicate (digits - (Text.ofNat (above.length + 1)).length) ' '
  have wide : (pad ++ Text.ofNat (above.length + 1)).length = digits := by
    rw [List.length_append, List.length_replicate, Nat.sub_add_cancel room]
  rw [← counted]
  refine ⟨rowsAbove, rowsBelow, pad, before.lastLine ++ c :: more, carets, ?_, unmarked, ?_, ?_,
    positive, within⟩
  · rw [printed, wide, caretsBelow]
    rfl
  · intro d member
    exact List.eq_of_mem_replicate member
  · rw [Nat.add_sub_cancel, List.getElem?_append_right (Nat.le_refl _), Nat.sub_self]
    rfl

theorem Shows.solid {printed : Text} {line col : Nat} {c : Char} (h : Shows printed line col c) :
    Text.isLineBreak c = false := by
  obtain ⟨above, below, pad, content, carets, rows, -, -, found, -⟩ := h
  have listed : row '>' (pad ++ Text.ofNat line) content ∈ Text.lines printed := by
    rw [rows]
    exact List.mem_append_right above (List.mem_cons_self ..)
  have unbroken := Text.unbroken_of_mem_lines listed
  exact (Text.unbroken_append.mp unbroken).2 c (List.mem_of_getElem? found)

theorem Shows.exists_marked {printed : Text} {line col : Nat} {c : Char}
    (h : Shows printed line col c) :
    ∃ r ∈ Text.lines printed, r.head? = some '>' ∧ col + 5 ≤ r.length := by
  obtain ⟨above, below, pad, content, carets, rows, -, -, found, -⟩ := h
  refine ⟨row '>' (pad ++ Text.ofNat line) content, ?_, rfl, ?_⟩
  · rw [rows]
    exact List.mem_append_right above (List.mem_cons_self ..)
  · have inside := (List.getElem?_eq_some_iff.mp found).1
    have bar : " | ".toList.length = 3 := rfl
    simp only [row, List.cons_append, List.length_cons, List.length_append, bar]
    omega

end Report

namespace Problem

/-- Excerpts show the place of a problem as far as lines break at line feeds. Where a report gives a
    line and a column, an excerpt follows. It marks the line that the place is in, with the place's
    character at this column and carets from there on, if and only if every line break up to the place
    is a line feed, alone or behind a carriage return. -/
theorem excerpt_shows_place (p : Problem) (span : Span) (before rest : Text) (c : Char)
    (whole : span.program = before ++ c :: rest)
    (start : span.program.firstNonBlank span.start = before.length)
    (visible : Text.isAllSpace span.program = false) :
    ∃ line col printed, Text.PlacedAt before line col ∧
      p.report (some span) = p.locatedHeadline line col ++ printed ∧
      (Report.Shows printed line col c ∧ (Text.lines (before ++ [c])).length = line ↔
        Text.BreaksAtFeeds (before ++ [c])) ∧
      (Text.isLineBreak c = false → line ≤ (Text.lines (before ++ [c])).length) := by
  have report := p.report_of_place whole start
  rw [visible] at report
  refine ⟨_, _, _, Text.placedAt before, report, ?_,
    fun solid => (Text.count_feeds_lt_length_lines solid before).1⟩
  rw [whole] at start ⊢
  constructor
  · rintro ⟨shown, sameLine⟩
    exact (Text.count_feeds_lt_length_lines shown.solid before).2.mp sameLine
  · intro feeds
    -- Blanks are skipped, so the place itself is no line feed.
    have solid : Text.isLineBreak c = false := by
      have notBlank := Text.solid_of_firstNonBlank start
      rw [Bool.eq_false_iff]
      intro breaks
      obtain rfl | ⟨rfl, -⟩ := feeds before c [] rfl breaks
      · cases notBlank
      · cases notBlank
    exact ⟨Report.shows_excerpt solid feeds _ (by decide),
      (Text.count_feeds_lt_length_lines solid before).2.mpr feeds⟩

/-- A carriage return and a line feed are one break, so the second line is shown. -/
theorem excerpt_shows_place_second_line :
    let span : Span := ⟨['<', '\r', '\n', ' ', '~'], 1, 4⟩
    let p : Problem := .fault (.kind (.queueTooShort 2 1))
    span.program.firstNonBlank span.start = 4 ∧ Text.isAllSpace span.program = false ∧
    Text.BreaksAtFeeds ['<', '\r', '\n', ' ', '~'] ∧
    ∃ line col printed, Text.PlacedAt ['<', '\r', '\n', ' '] line col ∧
      p.report (some span) = p.locatedHeadline line col ++ printed ∧
      Report.Shows printed line col '~' := by
  intro span p
  have feeds : Text.BreaksAtFeeds ['<', '\r', '\n', ' ', '~'] := by
    iterate 4 refine Text.breaksAtFeeds_cons.mpr ⟨by decide, ?_⟩
    exact .of_unbroken (Text.unbroken_singleton rfl)
  obtain ⟨line, col, printed, placed, report, shown, -⟩ :=
    excerpt_shows_place p span ['<', '\r', '\n', ' '] [] '~' rfl (by decide) (by decide)
  exact ⟨by decide, by decide, feeds, line, col, printed, placed, report, (shown.mpr feeds).1⟩

/-- A form feed ends the first line of the excerpt, but the place behind it is still on line 1. -/
theorem form_feed_hides_place :
    ∃ fault span printed,
      ({} : Machine).runProgram ['\x0c', '>'] [] false = (.failure fault span, {}) ∧
      span.program.firstNonBlank span.start = 1 ∧
      (Problem.fault fault).report (some span) =
        (Problem.fault fault).locatedHeadline 1 2 ++ printed ∧
      ¬ Report.Shows printed 1 2 '>' := by
  have read : tokenize ['\x0c', '>'] = .ok [(.output, 2)] := by
    rw [tokenize_of_scan rfl, tokenize_of_empty rfl]
    rfl
  have failed : ({} : Machine).runProgram ['\x0c', '>'] [] false =
      (.failure (.kind (.queueTooShort 1 0)) ⟨['\x0c', '>'], 0, 2⟩, {}) :=
    Run.runProgram_of_tokenize read rfl false
  refine ⟨_, _, "> 1 | \n    |  ^\n  2 | >".toList, failed, by decide, by decide, ?_⟩
  intro shown
  have rows : Text.lines "> 1 | \n    |  ^\n  2 | >".toList =
      ["> 1 | ".toList, "    |  ^".toList, "  2 | >".toList] := by decide
  obtain ⟨r, member, marked, long⟩ := shown.exists_marked
  rw [rows] at member
  rcases List.mem_cons.mp member with rfl | member
  · exact absurd long (by decide)
  · rcases List.mem_cons.mp member with rfl | member
    · cases marked
    · rw [List.mem_singleton.mp member] at marked
      cases marked

end Problem

end QueueScript
