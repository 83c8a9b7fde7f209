import QueueScript.Dump

/-! # Dumps tell queues apart

A dump puts texts between quotes and lists between brackets, at two levels: a queue holds lists, and lists
hold texts. What it takes to read such a form back is that each item ends where its own form says so,
whatever stands behind it (`Delimited`). Quotes give this to texts, because a quote inside is escaped.
Brackets pass it on from the items of a list to the list (`Delimited.bracketed`), so it holds of lists of
texts, of values, and of queues.
-/

namespace QueueScript

namespace Text

/-- The character that an escape stands for, by the one behind the backslash. -/
def ofEscape? : Char → Option Char
  | '\\' => some '\\'
  | '"' => some '"'
  | 'n' => some '\n'
  | _ => none

/-- Reads escaped text up to the quote that closes it; what stands behind the quote is left. -/
def readEscaped? : Text → Option (Text × Text)
  | [] => none
  | c :: rest =>
      if c = '"' then some ([], rest)
      else if c = '\n' then none
      else if c = '\\' then
        match rest with
        | [] => none
        | e :: rest =>
            match ofEscape? e with
            | none => none
            | some d => (readEscaped? rest).map fun (t, left) => (d :: t, left)
      else (readEscaped? rest).map fun (t, left) => (c :: t, left)

def readQuoted? : Text → Option (Text × Text)
  | [] => none
  | c :: rest => if c = '"' then readEscaped? rest else none

/-- The text with another text in place of every occurrence of a character. -/
def replaceEach (c : Char) (replacement : Text) (t : Text) : Text :=
  t.flatMap fun d => if d = c then replacement else [d]

theorem escapeChar_of_ofEscape? {e d : Char} (h : ofEscape? e = some d) : escapeChar d = ['\\', e] := by
  unfold ofEscape? at h
  split at h
  · cases h
    rfl
  · cases h
    rfl
  · cases h
    rfl
  · cases h

theorem escapeChar_of_ne {c : Char} (noSlash : c ≠ '\\') (noQuote : c ≠ '"') (noFeed : c ≠ '\n') :
    escapeChar c = [c] := by
  unfold escapeChar
  split
  · exact absurd rfl noSlash
  · exact absurd rfl noQuote
  · exact absurd rfl noFeed
  · rfl

theorem escapeChar_cases (c : Char) :
    (∃ e, ofEscape? e = some c ∧ escapeChar c = ['\\', e]) ∨
      (c ≠ '\\' ∧ c ≠ '"' ∧ c ≠ '\n') ∧ escapeChar c = [c] := by
  by_cases slash : c = '\\'
  · exact .inl ⟨'\\', by rw [slash]; rfl, by rw [slash]; rfl⟩
  by_cases mark : c = '"'
  · exact .inl ⟨'"', by rw [mark]; rfl, by rw [mark]; rfl⟩
  by_cases feed : c = '\n'
  · exact .inl ⟨'n', by rw [feed]; rfl, by rw [feed]; rfl⟩
  exact .inr ⟨⟨slash, mark, feed⟩, escapeChar_of_ne slash mark feed⟩

theorem readEscaped?_escape {e d : Char} (h : ofEscape? e = some d) (rest : Text) :
    readEscaped? ('\\' :: e :: rest) = (readEscaped? rest).map fun (t, left) => (d :: t, left) := by
  rw [readEscaped?, if_neg (by decide), if_neg (by decide), if_pos rfl]
  simp only [h]

theorem readEscaped?_plain {c : Char} (noSlash : c ≠ '\\') (noQuote : c ≠ '"') (noFeed : c ≠ '\n')
    (rest : Text) :
    readEscaped? (c :: rest) = (readEscaped? rest).map fun (t, left) => (c :: t, left) := by
  rw [readEscaped?.eq_def]
  simp only [noSlash, noQuote, noFeed, if_false]

theorem readEscaped?_append (t rest : Text) :
    readEscaped? (t.flatMap escapeChar ++ '"' :: rest) = some (t, rest) := by
  induction t with
  | nil =>
      rw [List.flatMap_nil, List.nil_append, readEscaped?.eq_def]
      simp only [if_true]
  | cons c t ih =>
      rw [List.flatMap_cons, List.append_assoc]
      obtain ⟨e, escape, written⟩ | ⟨⟨noSlash, noQuote, noFeed⟩, written⟩ := escapeChar_cases c
      · rw [written, List.cons_append, List.singleton_append, readEscaped?_escape escape, ih]
        rfl
      · rw [written, List.singleton_append, readEscaped?_plain noSlash noQuote noFeed, ih]
        rfl

theorem eq_append_of_readEscaped? {s t rest : Text} (h : readEscaped? s = some (t, rest)) :
    s = t.flatMap escapeChar ++ '"' :: rest := by
  fun_induction readEscaped? s generalizing t rest with
  | case1 => cases h
  | case2 =>
      cases h
      rfl
  | case3 => cases h
  | case4 => cases h
  | case5 => cases h
  | case6 e s d escape _ _ ih =>
      obtain ⟨⟨t, left⟩, read, same⟩ := Option.map_eq_some_iff.mp h
      cases same
      rw [List.flatMap_cons, escapeChar_of_ofEscape? escape, ih read]
      rfl
  | case7 c s noQuote noFeed noSlash ih =>
      obtain ⟨⟨t, left⟩, read, same⟩ := Option.map_eq_some_iff.mp h
      cases same
      rw [List.flatMap_cons, escapeChar_of_ne noSlash noQuote noFeed, ih read]
      rfl

theorem quote_append (t rest : Text) :
    quote t ++ rest = '"' :: (t.flatMap escapeChar ++ '"' :: rest) := by
  simp [quote]

/-- Exactly the quoted texts are read back. -/
theorem readQuoted?_eq_some_iff {s t rest : Text} :
    readQuoted? s = some (t, rest) ↔ s = quote t ++ rest := by
  constructor
  · intro h
    cases s with
    | nil => cases h
    | cons c s =>
        rw [readQuoted?] at h
        split at h
        · rename_i opens
          rw [opens, eq_append_of_readEscaped? h, quote_append]
        · cases h
  · rintro rfl
    rw [quote_append, readQuoted?, if_pos rfl, readEscaped?_append]

/-- To escape is to replace backslashes first, then quotes, then line feeds. In this order no
    replacement meets a backslash that another one has written. -/
theorem quote_eq_replaceEach (t : Text) :
    quote t = '"' :: replaceEach '\n' ['\\', 'n']
      (replaceEach '"' ['\\', '"'] (replaceEach '\\' ['\\', '\\'] t)) ++ ['"'] := by
  have escaped : t.flatMap escapeChar = replaceEach '\n' ['\\', 'n']
      (replaceEach '"' ['\\', '"'] (replaceEach '\\' ['\\', '\\'] t)) := by
    simp only [replaceEach, List.flatMap_assoc]
    congr 1
    funext c
    by_cases slash : c = '\\'
    · rw [slash]
      rfl
    by_cases mark : c = '"'
    · rw [mark]
      rfl
    by_cases feed : c = '\n'
    · rw [feed]
      rfl
    simp [escapeChar_of_ne slash mark feed, slash, mark, feed]
  rw [quote, escaped]

theorem feed_not_mem_quote (t : Text) : '\n' ∉ quote t := by
  intro member
  rw [quote, List.cons_append, List.mem_cons, List.mem_append, List.mem_singleton] at member
  obtain opens | inside | closes := member
  · cases opens
  · obtain ⟨c, -, written⟩ := List.mem_flatMap.mp inside
    obtain ⟨e, escape, same⟩ | ⟨⟨-, -, noFeed⟩, same⟩ := escapeChar_cases c
    · rw [same, List.mem_cons, List.mem_singleton] at written
      obtain slash | rfl := written
      · cases slash
      · cases escape
    · rw [same, List.mem_singleton] at written
      exact noFeed written.symm
  · cases closes

/-- What stands behind an item of a list, by the items that follow it. -/
def behindItem (following : List Text) (rest : Text) : Text :=
  match following with
  | [] => ']' :: rest
  | _ :: _ => ',' :: ' ' :: (commaSeparated following ++ ']' :: rest)

theorem commaSeparated_cons (part : Text) (parts : List Text) (rest : Text) :
    commaSeparated (part :: parts) ++ ']' :: rest = part ++ behindItem parts rest := by
  cases parts with
  | nil => simp [commaSeparated, behindItem]
  | cons next parts => simp [commaSeparated, behindItem, List.intercalate_cons_cons]

/-- Nothing but a comma and a space is put between the parts, and brackets around them. -/
theorem not_mem_bracketed {c : Char} {parts : List Text} (apart : c ∉ ['[', ',', ' ', ']'])
    (h : ∀ part ∈ parts, c ∉ part) : c ∉ ['['] ++ commaSeparated parts ++ [']'] := by
  have inside : c ∉ commaSeparated parts := by
    induction parts with
    | nil => exact List.not_mem_nil
    | cons part parts ih =>
        have first := h part (List.mem_cons_self ..)
        have later := ih fun other member => h other (List.mem_cons_of_mem _ member)
        cases parts with
        | nil => simpa [commaSeparated] using first
        | cons next parts =>
            simp only [commaSeparated, List.intercalate_cons_cons] at later ⊢
            simp_all
  simp_all

end Text

/-! ## Items that tell where they end -/

/-- Forms of which none is the front of another one, even with more text behind. None of them begins as
    if there were no item. -/
structure Delimited {α : Type} (form : α → Text) : Prop where
  opens : ∀ x, ∃ c t, form x = c :: t ∧ c ≠ ']'
  unique : ∀ {x y : α} {s t : Text}, form x ++ s = form y ++ t → x = y ∧ s = t

namespace Delimited

variable {α : Type} {form : α → Text}

theorem ne_closed (h : Delimited form) (x : α) (s t : Text) : form x ++ s ≠ ']' :: t := by
  intro same
  obtain ⟨c, tail, written, solid⟩ := h.opens x
  rw [written, List.cons_append] at same
  exact solid (List.cons.inj same).1

theorem commaSeparated (h : Delimited form) {xs ys : List α} {s t : Text}
    (same : Text.commaSeparated (xs.map form) ++ ']' :: s =
      Text.commaSeparated (ys.map form) ++ ']' :: t) : xs = ys ∧ s = t := by
  induction xs generalizing ys with
  | nil =>
      cases ys with
      | nil =>
          cases same
          exact ⟨rfl, rfl⟩
      | cons y ys =>
          rw [List.map_cons, Text.commaSeparated_cons] at same
          exact absurd same.symm (h.ne_closed y _ _)
  | cons x xs ih =>
      cases ys with
      | nil =>
          rw [List.map_cons, Text.commaSeparated_cons] at same
          exact absurd same (h.ne_closed x _ _)
      | cons y ys =>
          rw [List.map_cons, List.map_cons, Text.commaSeparated_cons, Text.commaSeparated_cons] at same
          -- The items in front are the same, and what is behind them tells whether others follow.
          obtain ⟨rfl, behind⟩ := h.unique same
          cases xs with
          | nil =>
              cases ys with
              | nil =>
                  cases behind
                  exact ⟨rfl, rfl⟩
              | cons y ys => cases behind
          | cons x' xs =>
              cases ys with
              | nil => cases behind
              | cons y ys =>
                  obtain ⟨others, rest⟩ := ih (List.cons.inj (List.cons.inj behind).2).2
                  exact ⟨congrArg (x :: ·) others, rest⟩

theorem bracketed (h : Delimited form) :
    Delimited fun xs : List α => ['['] ++ Text.commaSeparated (xs.map form) ++ [']'] where
  opens xs := ⟨'[', Text.commaSeparated (xs.map form) ++ [']'], rfl, by decide⟩
  unique := by
    intro xs ys s t same
    simp only [List.append_assoc, List.cons_append, List.nil_append] at same
    exact h.commaSeparated (List.cons.inj same).2

end Delimited

theorem delimited_quote : Delimited Text.quote where
  opens t := ⟨'"', t.flatMap Text.escapeChar ++ ['"'], rfl, by decide⟩
  unique := by
    intro x y s t same
    have left := Text.readQuoted?_eq_some_iff.mpr same
    have right := Text.readQuoted?_eq_some_iff.mpr (rfl : Text.quote x ++ s = Text.quote x ++ s)
    cases left.symm.trans right
    exact ⟨rfl, rfl⟩

namespace Value

theorem delimited_dump : Delimited dump where
  opens v := by
    cases v with
    | string t => exact delimited_quote.opens t
    | list items => exact delimited_quote.bracketed.opens items
    | bool truth =>
        cases truth with
        | true => exact ⟨'t', "rue".toList, rfl, by decide⟩
        | false => exact ⟨'f', "alse".toList, rfl, by decide⟩
  unique := by
    intro v w s t same
    -- Values of different kinds differ in the first character already.
    cases v with
    | string a =>
        cases w with
        | string b =>
            obtain ⟨rfl, rfl⟩ := delimited_quote.unique same
            exact ⟨rfl, rfl⟩
        | list items => cases (List.cons.inj same).1
        | bool truth => cases truth <;> cases (List.cons.inj same).1
    | list items =>
        cases w with
        | string b => cases (List.cons.inj same).1
        | list others =>
            obtain ⟨rfl, rfl⟩ := delimited_quote.bracketed.unique same
            exact ⟨rfl, rfl⟩
        | bool truth => cases truth <;> cases (List.cons.inj same).1
    | bool truth =>
        cases w with
        | string b => cases truth <;> cases (List.cons.inj same).1
        | list others => cases truth <;> cases (List.cons.inj same).1
        | bool other =>
            cases truth <;> cases other
            · exact ⟨rfl, List.append_cancel_left same⟩
            · cases (List.cons.inj same).1
            · cases (List.cons.inj same).1
            · exact ⟨rfl, List.append_cancel_left same⟩

theorem delimited_dumpQueue : Delimited dumpQueue :=
  delimited_dump.bracketed

theorem feed_not_mem_dump (v : Value) : '\n' ∉ v.dump := by
  cases v with
  | string t => exact t.feed_not_mem_quote
  | list items =>
      apply Text.not_mem_bracketed (by decide)
      intro part member
      obtain ⟨t, -, rfl⟩ := List.mem_map.mp member
      exact t.feed_not_mem_quote
  | bool truth => cases truth <;> decide

theorem feed_not_mem_dumpQueue (queue : List Value) : '\n' ∉ dumpQueue queue := by
  apply Text.not_mem_bracketed (by decide)
  intro part member
  obtain ⟨v, -, rfl⟩ := List.mem_map.mp member
  exact v.feed_not_mem_dump

/-- Dumps tell queues apart. Queues with the same dump are the same, and a dump is one line. Quoting
    replaces backslashes, then quotes, then line feeds, and the reader of these three escapes takes a
    quoted text off the front of any text and gives it back, so it accepts nothing else; different texts
    are quoted differently. -/
theorem dumps_tell_queues_apart :
    (∀ queue : List Value, Exhibit.dump (.sequence (queue.map .value)) = dumpQueue queue) ∧
    (∀ a b : List Value, dumpQueue a = dumpQueue b ↔ a = b) ∧
    (∀ queue : List Value, '\n' ∉ dumpQueue queue) ∧
    (∀ t : Text, Text.quote t = '"' :: Text.replaceEach '\n' ['\\', 'n'] (Text.replaceEach '"' ['\\', '"']
      (Text.replaceEach '\\' ['\\', '\\'] t)) ++ ['"']) ∧
    (∀ s t rest : Text, Text.readQuoted? s = some (t, rest) ↔ s = Text.quote t ++ rest) ∧
    ∀ t u : Text, Text.quote t = Text.quote u ↔ t = u := by
  refine ⟨Exhibit.dump_queue, ?_, feed_not_mem_dumpQueue, Text.quote_eq_replaceEach,
    fun _ _ _ => Text.readQuoted?_eq_some_iff, ?_⟩
  · intro a b
    constructor
    · intro same
      exact (delimited_dumpQueue.unique (congrArg (· ++ []) same)).1
    · rintro rfl
      rfl
  · intro t u
    constructor
    · intro same
      exact (delimited_quote.unique (congrArg (· ++ []) same)).1
    · rintro rfl
      rfl

end Value

end QueueScript
