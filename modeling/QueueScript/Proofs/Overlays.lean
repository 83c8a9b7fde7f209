import Mathlib
import QueueScript.Proofs.UnusableSettings

/-! # Overlays compose

To overlay settings with one document and then with another is to overlay them once, with the two
combined: the second overrides the first key by key, and the prompts are merged template by template.

The argument is about a `Sheet`, which is settings kept by name. Its type does not say which names there
are, so looking one up can fail. An overlay writes on the sheet what the document says (`Sheet.write`), and
of all that is written under a name the last counts (`latest`). A document that is accepted says nothing
under a new name. So what becomes of the standard sheet is always the sheet of some settings
(`Settings.sheet_change?`), and nothing that is looked up there is missing.
-/

namespace QueueScript

theorem Scalar.sameKey_text (key : Scalar) (t : Text) : key.sameKey (.text t) = (key == .text t) := by
  unfold sameKey
  cases key.quotient? <;> rfl

namespace Datum

/-- The entries of a mapping; anything else has none. -/
def entries : Datum → List (Scalar × Datum)
  | .map entries => entries
  | _ => []

/-- Entries that are overridden by others, key by key. -/
def override (first second : List (Scalar × Datum)) : List (Scalar × Datum) :=
  first.filter (fun entry => !second.any fun other => other.1.sameKey entry.1) ++ second

@[simp]
theorem entries_map (entries : List (Scalar × Datum)) : (Datum.map entries).entries = entries :=
  rfl

theorem entries_of_void {d : Datum} (h : d.isVoid = true) : d.entries = [] := by
  cases d with
  | map entries => exact List.isEmpty_iff.mp h
  | scalar | list => rfl

theorem override_nil (entries : List (Scalar × Datum)) : override entries [] = entries := by
  simp [override]

theorem nil_override (entries : List (Scalar × Datum)) : override [] entries = entries :=
  rfl

theorem mem_override {first second : List (Scalar × Datum)} {entry : Scalar × Datum}
    (h : entry ∈ override first second) : entry ∈ first ∨ entry ∈ second :=
  (List.mem_append.mp h).imp_left List.mem_of_mem_filter

theorem lookup_filter_fst (keep : Scalar → Bool) (entries : List (Scalar × Datum)) (key : Scalar) :
    (entries.filter fun entry => keep entry.1).lookup key =
      if keep key then entries.lookup key else none := by
  induction entries with
  | nil => simp
  | cons entry entries ih =>
      obtain ⟨other, d⟩ := entry
      by_cases same : key = other
      · subst same
        cases kept : keep key with
        | true => simp [kept]
        | false => simpa [kept] using ih
      · have differ : (key == other) = false := beq_eq_false_iff_ne.mpr same
        cases kept : keep other <;> simp [kept, List.lookup_cons, differ, ih]

theorem isSome_lookup_text (entries : List (Scalar × Datum)) (t : Text) :
    (entries.lookup (.text t)).isSome = entries.any fun other => other.1.sameKey (.text t) := by
  induction entries with
  | nil => rfl
  | cons entry entries ih =>
      obtain ⟨key, d⟩ := entry
      rw [List.lookup_cons, List.any_cons, ← ih, Scalar.sameKey_text, Bool.beq_comm]
      cases key == Scalar.text t <;> rfl

theorem lookup_override (first second : List (Scalar × Datum)) (t : Text) :
    (override first second).lookup (.text t) =
      (second.lookup (.text t)).or (first.lookup (.text t)) := by
  rw [override, List.lookup_append,
    lookup_filter_fst (fun key => !second.any fun other => other.1.sameKey key),
    ← isSome_lookup_text]
  cases second.lookup (.text t) <;> simp

end Datum

namespace Settings

def promptsKey : Scalar :=
  .text "prompts".toList

/-- The entries of the prompts; none if there are no prompts or void ones. -/
def promptEntries (entries : List (Scalar × Datum)) : List (Scalar × Datum) :=
  ((entries.lookup promptsKey).map Datum.entries).getD []

/-- The document that says what two documents say one after the other. The second overrides the first
    key by key, but if both have prompts these are merged template by template. -/
def combine (first second : Datum) : Datum :=
  let entries := Datum.override first.entries second.entries
  match first.entries.lookup promptsKey, second.entries.lookup promptsKey with
  | some early, some late =>
      .map (Datum.override entries [(promptsKey, .map (Datum.override early.entries late.entries))])
  | _, _ => .map entries

theorem lookup_combine (first second : Datum) {t : Text} (other : t ≠ "prompts".toList) :
    (combine first second).entries.lookup (.text t) =
      (second.entries.lookup (.text t)).or (first.entries.lookup (.text t)) := by
  unfold combine
  split
  · have absent (d : Datum) : [(promptsKey, d)].lookup (.text t) = none := by
      have differ : (Scalar.text t == promptsKey) = false := by
        simpa [promptsKey] using other
      rw [List.lookup_cons, differ]
      rfl
    rw [Datum.entries_map, Datum.lookup_override, absent, Option.none_or, Datum.lookup_override]
  · rw [Datum.entries_map, Datum.lookup_override]

theorem promptEntries_combine (first second : Datum) :
    promptEntries (combine first second).entries =
      Datum.override (promptEntries first.entries) (promptEntries second.entries) := by
  have found := Datum.lookup_override first.entries second.entries "prompts".toList
  rw [← promptsKey] at found
  unfold combine promptEntries
  cases early : first.entries.lookup promptsKey with
  | none =>
      rw [early, Option.or_none] at found
      simp only [Datum.entries_map, found, Option.map_none, Option.getD_none, Datum.nil_override]
  | some p =>
      cases late : second.entries.lookup promptsKey with
      | none =>
          rw [early, late, Option.none_or] at found
          simp only [Datum.entries_map, found, Option.map_none, Option.getD_none, Datum.override_nil]
      | some q =>
          simp only [Datum.entries_map]
          rw [promptsKey, Datum.lookup_override]
          rfl

/-! ## What is accepted -/

section Accepted

variable {depth : Nat}

/-- Entries with known keys only and something usable under each. -/
def EntriesUsable (depth : Nat) (entries : List (Scalar × Datum)) : Prop :=
  (∀ entry ∈ entries, entry.1 ∈ knownKeys) ∧ ∀ field ∈ fields depth, field.UsableIn entries

theorem Usable.entries {given : Datum} (h : Usable depth given) : EntriesUsable depth given.entries := by
  obtain void | ⟨entries, rfl, usable⟩ := h
  · rw [Datum.entries_of_void void]
    exact ⟨List.forall_mem_nil _, fun field _ given found => by cases found⟩
  · exact usable

theorem EntriesUsable.usable {entries : List (Scalar × Datum)} (h : EntriesUsable depth entries) :
    Usable depth (.map entries) :=
  .inr ⟨entries, rfl, h⟩

theorem PromptsUsable.entries {given : Datum} (h : PromptsUsable depth given) :
    ∀ entry ∈ given.entries, TemplateUsable depth entry := by
  obtain void | ⟨entries, rfl, usable⟩ := h
  · rw [Datum.entries_of_void void]
    exact List.forall_mem_nil _
  · exact usable

theorem Field.UsableIn.override {field : Field} {first second : List (Scalar × Datum)}
    (h : field.UsableIn first) (h' : field.UsableIn second) :
    field.UsableIn (Datum.override first second) := by
  intro given found
  rw [Datum.lookup_override, Option.or_eq_some_iff] at found
  obtain found | ⟨-, found⟩ := found
  · exact h' given found
  · exact h given found

theorem EntriesUsable.override {first second : List (Scalar × Datum)} (h : EntriesUsable depth first)
    (h' : EntriesUsable depth second) : EntriesUsable depth (Datum.override first second) := by
  refine ⟨fun entry member => ?_, fun field member => (h.2 field member).override (h'.2 field member)⟩
  exact (Datum.mem_override member).elim (h.1 entry) (h'.1 entry)

theorem entriesUsable_prompts {given : Datum} (h : PromptsUsable depth given) :
    EntriesUsable depth [(promptsKey, given)] := by
  have known : promptsKey ∈ knownKeys := by decide
  refine ⟨List.forall_mem_singleton.mpr known, ?_⟩
  have here : ∀ d, [(promptsKey, given)].lookup promptsKey = some d → PromptsUsable depth d := by
    intro d found
    cases found
    exact h
  have absent {field : Field} (key : String) (same : field.key = key)
      (other : (Scalar.text key.toList == promptsKey) = false) : field.UsableIn [(promptsKey, given)] := by
    intro d found
    rw [same, List.lookup_cons, other] at found
    cases found
  simp only [fields, List.forall_mem_cons]
  exact ⟨absent "mode" rfl (by decide), absent "color" rfl (by decide), absent "log_level" rfl (by decide),
    here, List.forall_mem_nil _⟩

theorem EntriesUsable.prompts {entries : List (Scalar × Datum)} (h : EntriesUsable depth entries)
    {given : Datum} (found : entries.lookup promptsKey = some given) : PromptsUsable depth given := by
  have usable := h.2
  simp only [fields, List.forall_mem_cons] at usable
  exact usable.2.2.2.1 given found

theorem usable_combine {first second : Datum} (h : Usable depth first) (h' : Usable depth second) :
    Usable depth (combine first second) := by
  have both := h.entries.override h'.entries
  unfold combine
  split
  · rename_i early late foundEarly foundLate
    have merged : PromptsUsable depth (.map (Datum.override early.entries late.entries)) := by
      refine .inr ⟨_, rfl, fun entry member => ?_⟩
      exact (Datum.mem_override member).elim ((h.entries.prompts foundEarly).entries entry)
        ((h'.entries.prompts foundLate).entries entry)
    exact (both.override (entriesUsable_prompts merged)).usable
  · exact both.usable

end Accepted

end Settings

/-! ## Sheets -/

/-- Settings kept by name: the name of the level, and templates under the names of channels. -/
structure Sheet where
  mode : Mode
  color : Bool
  level : Text
  templates : List (Text × Text)
  deriving Repr, DecidableEq

def Settings.sheet (s : Settings) : Sheet where
  mode := s.mode
  color := s.color
  level := s.level.name
  templates := Channel.all.map fun channel => (channel.name, s.prompts.get channel)

def Datum.truth? : Datum → Option Bool
  | .scalar (.bool truth) => some truth
  | _ => none

namespace Sheet

/-- The template of a channel, if there is one under its name. -/
def template? (s : Sheet) (channel : Channel) : Option Text :=
  s.templates.lookup channel.name

/-- The least severity that is logged, if the level is the name of one. -/
def severity? (s : Sheet) : Option Nat :=
  (LogLevel.all.map fun level => (level.name, level.severity)).lookup s.level

/-- The sheet with the next level in the list of levels or the one before, not beyond its ends; `none` if
    the level is not in the list. -/
def adjust? (s : Sheet) (increase : Bool) : Option Sheet :=
  let names := LogLevel.all.map LogLevel.name
  (names.idxOf? s.level).bind fun place =>
    let moved := if increase then place + 1 else place - 1
    names[min moved (names.length - 1)]?.map fun level => { s with level }

/-- The templates with one more. It replaces what is there under its name. -/
def put (templates : List (Text × Text)) (entry : Text × Text) : List (Text × Text) :=
  if entry.1 ∈ templates.map Prod.fst then
    templates.map fun old => if old.1 = entry.1 then entry else old
  else templates ++ [entry]

/-- The entries of prompts as templates under names. -/
def named (entries : List (Scalar × Datum)) : List (Text × Text) :=
  entries.filterMap fun (key, template) =>
    (Settings.keyText? key).map fun name => (name, template.plainText)

/-- What the entries have under a key, as it is read there. -/
def said {α : Type} (entries : List (Scalar × Datum)) (key : String) (read : Datum → Option α) :
    Option α :=
  (entries.lookup (.text key.toList)).bind read

/-- The sheet with what the entries of a document say. -/
def write (s : Sheet) (entries : List (Scalar × Datum)) : Sheet where
  mode := (said entries "mode" fun given => Mode.ofName? given.plainText).getD s.mode
  color := (said entries "color" Datum.truth?).getD s.color
  level := (said entries "log_level" fun given => some (given.plainText.map Char.toLower)).getD s.level
  templates := (named (Settings.promptEntries entries)).foldl put s.templates

/-- The sheet overlaid with a document; `none` if the document is refused, which it is whatever it is
    laid over. -/
def overlay? (depth : Nat) (s : Sheet) (given : Datum) : Option Sheet :=
  (({} : Settings).overlay depth given).toOption.map fun _ => s.write given.entries

def Complete (s : Sheet) : Prop :=
  ∀ channel : Channel, channel.name ∈ s.templates.map Prod.fst

/-! ### What stands under a name in the end -/

/-- The last template under a name, or else the one that was there. -/
def latest (name : Text) (entries : List (Text × Text)) (template : Text) : Text :=
  entries.foldl (fun old entry => if entry.1 = name then entry.2 else old) template

theorem latest_cons (name : Text) (entry : Text × Text) (entries : List (Text × Text)) (template : Text) :
    latest name (entry :: entries) template =
      latest name entries (if entry.1 = name then entry.2 else template) :=
  rfl

theorem latest_append (name : Text) (early late : List (Text × Text)) (template : Text) :
    latest name (early ++ late) template = latest name late (latest name early template) :=
  List.foldl_append

theorem latest_of_not_mem {name : Text} {entries : List (Text × Text)}
    (h : name ∉ entries.map Prod.fst) (template : Text) : latest name entries template = template := by
  induction entries with
  | nil => rfl
  | cons entry entries ih =>
      obtain ⟨differ, absent⟩ := List.ne_and_not_mem_of_not_mem_cons h
      rw [latest_cons, if_neg (Ne.symm differ), ih absent]

theorem latest_of_mem {name : Text} {entries : List (Text × Text)} (h : name ∈ entries.map Prod.fst)
    (template other : Text) : latest name entries template = latest name entries other := by
  induction entries generalizing template other with
  | nil => cases h
  | cons entry entries ih =>
      rw [latest_cons, latest_cons]
      by_cases later : name ∈ entries.map Prod.fst
      · exact ih later _ _
      · have here : entry.1 = name := ((List.mem_cons.mp h).resolve_right later).symm
        rw [if_pos here, if_pos here]

theorem latest_latest (name : Text) (entries : List (Text × Text)) (template : Text) :
    latest name entries (latest name entries template) = latest name entries template := by
  by_cases h : name ∈ entries.map Prod.fst
  · exact latest_of_mem h _ _
  · rw [latest_of_not_mem h, latest_of_not_mem h]

theorem foldl_put {templates entries : List (Text × Text)}
    (known : ∀ entry ∈ entries, entry.1 ∈ templates.map Prod.fst) :
    entries.foldl put templates = templates.map fun old => (old.1, latest old.1 entries old.2) := by
  induction entries generalizing templates with
  | nil => exact (List.map_id templates).symm
  | cons entry entries ih =>
      obtain ⟨here, later⟩ := List.forall_mem_cons.mp known
      have replaced : put templates entry =
          templates.map fun old => if old.1 = entry.1 then entry else old := if_pos here
      have name (old : Text × Text) : (if old.1 = entry.1 then entry else old).1 = old.1 := by
        split
        · rename_i same
          exact same.symm
        · rfl
      have names : (put templates entry).map Prod.fst = templates.map Prod.fst := by
        rw [replaced, List.map_map]
        exact List.map_congr_left fun old _ => name old
      -- The names are still the same, so the later templates find theirs.
      rw [List.foldl_cons, ih (by rwa [names]), replaced, List.map_map]
      refine List.map_congr_left fun old _ => ?_
      have template : (if old.1 = entry.1 then entry else old).2 =
          if entry.1 = old.1 then entry.2 else old.2 := by
        by_cases same : old.1 = entry.1
        · rw [if_pos same, if_pos same.symm]
        · rw [if_neg same, if_neg (Ne.symm same)]
      rw [Function.comp_apply, name, template, latest_cons]

theorem mem_named_iff {entries : List (Scalar × Datum)} {name : Text} :
    name ∈ (named entries).map Prod.fst ↔
      (entries.any fun other => other.1.sameKey (.text name)) = true := by
  induction entries with
  | nil => simp [named]
  | cons entry entries ih =>
      obtain ⟨key, d⟩ := entry
      rw [List.any_cons, Bool.or_eq_true, ← ih, Scalar.sameKey_text, beq_iff_eq]
      cases key with
      | text t =>
          rw [Scalar.text.injEq, eq_comm]
          exact List.mem_cons
      | null | bool | int | real | date =>
          simp only [reduceCtorEq, false_or]
          exact Iff.rfl

theorem latest_named_filter (keep : Scalar → Bool) {name : Text} (kept : keep (.text name) = true)
    (entries : List (Scalar × Datum)) (template : Text) :
    latest name (named (entries.filter fun entry => keep entry.1)) template =
      latest name (named entries) template := by
  induction entries generalizing template with
  | nil => rfl
  | cons entry entries ih =>
      obtain ⟨key, d⟩ := entry
      cases keeps : keep key with
      | true =>
          rw [List.filter_cons_of_pos (a := (key, d)) keeps]
          cases key with
          | text t => exact ih _
          | null | bool | int | real | date => exact ih _
      | false =>
          rw [List.filter_cons_of_neg (a := (key, d)) (Bool.not_eq_true _ ▸ keeps), ih]
          cases key with
          | text t =>
              have differ : t ≠ name := by
                rintro rfl
                cases keeps.symm.trans kept
              exact congrArg (latest name (named entries)) (if_neg differ).symm
          | null | bool | int | real | date => rfl

theorem latest_named_override (first second : List (Scalar × Datum)) (name template : Text) :
    latest name (named (Datum.override first second)) template =
      latest name (named second) (latest name (named first) template) := by
  rw [Datum.override, named, List.filterMap_append, ← named, ← named, latest_append]
  -- Either the first templates do not matter to the name, or none of them under it was dropped.
  by_cases overridden : name ∈ (named second).map Prod.fst
  · exact latest_of_mem overridden _ _
  · have kept : (!second.any fun other => other.1.sameKey (.text name)) = true := by
      rw [Bool.not_eq_true', ← Bool.not_eq_true, ← mem_named_iff]
      exact overridden
    rw [latest_named_filter (fun key => !second.any fun other => other.1.sameKey key) kept]

/-! ### Writing twice -/

section Write

open Settings

variable {depth : Nat} {s : Sheet} {first second given : Datum}

theorem said_combine {α : Type} (first : Datum) (key : String) (read : Datum → Option α)
    (other : key.toList ≠ "prompts".toList)
    (readable : ∀ d, second.entries.lookup (.text key.toList) = some d → (read d).isSome = true)
    (old : α) :
    (said (combine first second).entries key read).getD old =
      (said second.entries key read).getD ((said first.entries key read).getD old) := by
  unfold said
  rw [lookup_combine first second other]
  cases found : second.entries.lookup (.text key.toList) with
  | none => rfl
  | some d =>
      obtain ⟨a, reads⟩ := Option.isSome_iff_exists.mp (readable d found)
      simp only [Option.some_or, Option.bind_some, reads, Option.getD_some]

/-- An accepted document says nothing under a new name. -/
theorem Complete.known (complete : s.Complete) (h : Usable depth given) :
    ∀ entry ∈ named (promptEntries given.entries), entry.1 ∈ s.templates.map Prod.fst := by
  have usable : ∀ entry ∈ promptEntries given.entries, TemplateUsable depth entry := by
    unfold promptEntries
    cases found : given.entries.lookup promptsKey with
    | none => exact List.forall_mem_nil _
    | some d => exact (h.entries.prompts found).entries
  intro entry member
  obtain ⟨⟨key, d⟩, isEntry, same⟩ := List.mem_filterMap.mp member
  obtain ⟨⟨channel, named⟩, -⟩ := usable _ isEntry
  cases named
  cases same
  exact complete channel

theorem Complete.templates_write (complete : s.Complete) (h : Usable depth given) :
    (s.write given.entries).templates =
      s.templates.map fun old =>
        (old.1, latest old.1 (named (promptEntries given.entries)) old.2) :=
  foldl_put (complete.known h)

theorem Complete.names_write (complete : s.Complete) (h : Usable depth given) :
    (s.write given.entries).templates.map Prod.fst = s.templates.map Prod.fst := by
  rw [complete.templates_write h, List.map_map]
  rfl

theorem Complete.write (complete : s.Complete) (h : Usable depth given) :
    (s.write given.entries).Complete := by
  intro channel
  rw [complete.names_write h]
  exact complete channel

theorem Complete.write_combine (complete : s.Complete) (h : Usable depth first) (h' : Usable depth second) :
    s.write (combine first second).entries = (s.write first.entries).write second.entries := by
  have usable := h'.entries.2
  simp only [fields, List.forall_mem_cons] at usable
  obtain ⟨mode, color, -, -, -⟩ := usable
  have sameMode := said_combine first "mode" (fun given => Mode.ofName? given.plainText) (by decide)
    (fun d found => Mode.ofName?_isSome_iff.mpr (mode d found).2) s.mode
  have sameColor := said_combine first "color" Datum.truth? (by decide)
    (fun d found => by obtain ⟨truth, rfl⟩ := color d found; rfl) s.color
  have sameLevel : (said (combine first second).entries "log_level" _).getD s.level = _ :=
    said_combine first "log_level" (fun given => some (given.plainText.map Char.toLower)) (by decide)
      (fun _ _ => rfl) s.level
  have sameTemplates : (s.write (combine first second).entries).templates =
      ((s.write first.entries).write second.entries).templates := by
    rw [complete.templates_write (usable_combine h h'), (complete.write h).templates_write h',
      complete.templates_write h, List.map_map, promptEntries_combine]
    exact List.map_congr_left fun old _ => congrArg _ (latest_named_override ..)
  rw [Sheet.mk.injEq]
  exact ⟨sameMode, sameColor, sameLevel, sameTemplates⟩

theorem Complete.write_write (complete : s.Complete) (h : Usable depth given) :
    (s.write given.entries).write given.entries = s.write given.entries := by
  have once {α : Type} (x : Option α) (old : α) : x.getD (x.getD old) = x.getD old := by
    cases x <;> rfl
  have sameTemplates : ((s.write given.entries).write given.entries).templates =
      (s.write given.entries).templates := by
    rw [(complete.write h).templates_write h, complete.templates_write h, List.map_map]
    exact List.map_congr_left fun old _ => congrArg _ (latest_latest ..)
  rw [Sheet.mk.injEq]
  exact ⟨once _ s.mode, once _ s.color, once _ s.level, sameTemplates⟩

theorem overlay?_eq_some_iff {t : Sheet} :
    s.overlay? depth given = some t ↔ Usable depth given ∧ s.write given.entries = t := by
  have accepted := (judged_overlay depth {} given).ok_iff
  unfold overlay?
  cases result : ({} : Settings).overlay depth given with
  | error fault =>
      rw [result] at accepted
      refine ⟨nofun, fun both => ?_⟩
      obtain ⟨_, impossible⟩ := accepted.mpr both.1
      cases impossible
  | ok s' =>
      have usable := accepted.mp ⟨s', result⟩
      simp only [Except.toOption, Option.map_some, Option.some.injEq, usable, true_and]

theorem Complete.overlay?_combine (complete : s.Complete) {t u : Sheet}
    (h : s.overlay? depth first = some t) (h' : t.overlay? depth second = some u) :
    s.overlay? depth (combine first second) = some u := by
  obtain ⟨use, rfl⟩ := overlay?_eq_some_iff.mp h
  obtain ⟨use', rfl⟩ := overlay?_eq_some_iff.mp h'
  exact overlay?_eq_some_iff.mpr ⟨usable_combine use use', complete.write_combine use use'⟩

theorem Complete.overlay?_again (complete : s.Complete) {t : Sheet} (h : s.overlay? depth given = some t) :
    t.overlay? depth given = some t := by
  obtain ⟨use, rfl⟩ := overlay?_eq_some_iff.mp h
  exact overlay?_eq_some_iff.mpr ⟨use, complete.write_write use⟩

end Write

end Sheet

/-! ## Settings and their sheets -/

theorem Channel.mem_all (channel : Channel) : channel ∈ all := by
  cases channel <;> decide

theorem Channel.name_of_ofName? {t : Text} {channel : Channel} (h : ofName? t = some channel) :
    channel.name = t := by
  have found := List.find?_some (show all.find? _ = some channel from h)
  exact of_decide_eq_true found

theorem LogLevel.name_of_ofName? {t : Text} {level : LogLevel} (h : ofName? t = some level) :
    level.name = t.map Char.toLower := by
  have found := List.find?_some (show all.find? _ = some level from h)
  exact of_decide_eq_true found

theorem LogLevel.name_injective : Function.Injective name := by
  rintro (_ | _ | _ | _ | _) (_ | _ | _ | _ | _) <;> decide

theorem Prompts.ext_get {p q : Prompts} (h : ∀ channel, p.get channel = q.get channel) : p = q := by
  cases p
  cases q
  rw [Prompts.mk.injEq]
  exact ⟨h .input, h .output, h .info, h .warning, h .error⟩

namespace Settings

open Sheet (named put said)

section Overlay

variable {depth : Nat} {s s' : Settings} {given : Datum} {entries : List (Scalar × Datum)}

theorem names_sheet (s : Settings) :
    s.sheet.templates.map Prod.fst = Channel.all.map Channel.name := by
  rw [sheet, List.map_map]
  rfl

theorem complete_sheet (s : Settings) : s.sheet.Complete := by
  intro channel
  rw [names_sheet]
  exact List.mem_map_of_mem channel.mem_all

theorem sheet_injective : Function.Injective sheet := by
  rintro ⟨mode, color, level, prompts⟩ ⟨mode', color', level', prompts'⟩ same
  simp only [sheet, Sheet.mk.injEq, List.map_inj_left, Prod.mk.injEq, true_and] at same
  obtain ⟨rfl, rfl, sameLevel, sameTemplates⟩ := same
  have samePrompts : prompts = prompts' :=
    Prompts.ext_get fun channel => sameTemplates channel channel.mem_all
  rw [LogLevel.name_injective sameLevel, samePrompts]

theorem exists_of_bind {α β : Type} {x : Except SettingsFault α} {f : α → Except SettingsFault β}
    {b : β} (h : x >>= f = .ok b) : ∃ a, x = .ok a ∧ f a = .ok b := by
  cases x with
  | error fault => cases h
  | ok a => exact ⟨a, rfl, h⟩

theorem sheet_overlayMode (h : s.overlayMode depth given = .ok s') :
    s'.sheet = { s.sheet with mode := (Mode.ofName? given.plainText).getD s.mode } := by
  obtain ⟨-, -, h⟩ := exists_of_bind h
  cases found : Mode.ofName? given.plainText with
  | none =>
      rw [found] at h
      cases h
  | some mode =>
      rw [found] at h
      cases h
      rfl

theorem sheet_overlayColor (h : s.overlayColor depth given = .ok s') :
    s'.sheet = { s.sheet with color := given.truth?.getD s.color } := by
  obtain ⟨-, -, h⟩ := exists_of_bind h
  split at h
  · cases h
    rfl
  · cases h

theorem sheet_overlayLevel (h : s.overlayLevel depth given = .ok s') :
    s'.sheet = { s.sheet with level := given.plainText.map Char.toLower } := by
  obtain ⟨-, -, h⟩ := exists_of_bind h
  cases found : LogLevel.ofName? given.plainText with
  | none =>
      rw [found] at h
      cases h
  | some level =>
      rw [found] at h
      cases h
      rw [← LogLevel.name_of_ofName? found]
      rfl

theorem sheet_set (s : Settings) (channel : Channel) (template : Text) :
    { s with prompts := s.prompts.set channel template }.sheet =
      { s.sheet with templates := put s.sheet.templates (channel.name, template) } := by
  cases channel <;> rfl

theorem sheet_overlayTemplates (h : s.overlayTemplates depth entries = .ok s') :
    s'.sheet = { s.sheet with templates := (named entries).foldl put s.sheet.templates } := by
  induction entries generalizing s with
  | nil =>
      cases h
      rfl
  | cons entry entries ih =>
      obtain ⟨key, template⟩ := entry
      rw [overlayTemplates] at h
      cases found : (keyText? key).bind Channel.ofName? with
      | none =>
          rw [found] at h
          obtain ⟨-, -, impossible⟩ := exists_of_bind h
          cases impossible
      | some channel =>
          rw [found] at h
          obtain ⟨-, -, later⟩ := exists_of_bind h
          obtain ⟨name, isName, isChannel⟩ := Option.bind_eq_some_iff.mp found
          have first : named ((key, template) :: entries) =
              (channel.name, template.plainText) :: named entries := by
            cases key <;> cases isName
            rw [Channel.name_of_ofName? isChannel]
            rfl
          rw [ih later, sheet_set, first]
          rfl

theorem sheet_overlayPrompts (h : s.overlayPrompts depth given = .ok s') :
    s'.sheet = { s.sheet with templates := (named given.entries).foldl put s.sheet.templates } := by
  cases given with
  | map entries => exact sheet_overlayTemplates h
  | scalar | list =>
      simp only [overlayPrompts] at h
      split at h
      · cases h
        rfl
      · cases h

theorem sheet_overlayKey {key : String} {step : Settings → Datum → Except SettingsFault Settings}
    (update : Sheet → Datum → Sheet)
    (writes : ∀ given s', step s given = .ok s' → s'.sheet = update s.sheet given)
    (h : overlayKey entries key step s = .ok s') :
    s'.sheet = (entries.lookup (.text key.toList)).elim s.sheet (update s.sheet) := by
  unfold overlayKey at h
  cases found : entries.lookup (.text key.toList) with
  | none =>
      rw [found] at h
      cases h
      rfl
  | some given =>
      rw [found] at h
      exact writes given s' h

/-- An overlay that succeeds writes on the sheet what the document says. -/
theorem sheet_overlay (h : s.overlay depth given = .ok s') : s'.sheet = s.sheet.write given.entries := by
  by_cases void : given.isVoid = true
  · have kept : s.overlay depth given = .ok s := by
      simp only [overlay, void, if_true]
      rfl
    cases kept.symm.trans h
    rw [Datum.entries_of_void void]
    rfl
  · cases given with
    | map entries =>
        have filled : entries ≠ [] := fun empty => void (List.isEmpty_iff.mpr empty)
        rw [overlay_map depth s filled] at h
        obtain ⟨-, -, h⟩ := exists_of_bind h
        simp only [fields, List.foldlM_cons, List.foldlM_nil, bind_pure] at h
        obtain ⟨s₁, mode, h⟩ := exists_of_bind h
        obtain ⟨s₂, color, h⟩ := exists_of_bind h
        obtain ⟨s₃, level, prompts⟩ := exists_of_bind h
        have afterMode := sheet_overlayKey
          (fun t d => { t with mode := (Mode.ofName? d.plainText).getD t.mode })
          (fun _ _ => sheet_overlayMode) mode
        have afterColor := sheet_overlayKey (fun t d => { t with color := d.truth?.getD t.color })
          (fun _ _ => sheet_overlayColor) color
        have afterLevel := sheet_overlayKey (fun t d => { t with level := d.plainText.map Char.toLower })
          (fun _ _ => sheet_overlayLevel) level
        have afterPrompts := sheet_overlayKey
          (fun t d => { t with templates := (named d.entries).foldl put t.templates })
          (fun _ _ => sheet_overlayPrompts) prompts
        rw [afterPrompts, afterLevel, afterColor, afterMode]
        -- Each key writes its own part of the sheet, or nothing.
        simp only [Sheet.write, said, promptEntries, promptsKey, Datum.entries_map]
        cases entries.lookup (.text "mode".toList) <;> cases entries.lookup (.text "color".toList) <;>
          cases entries.lookup (.text "log_level".toList) <;>
          cases entries.lookup (.text "prompts".toList) <;> rfl
    | scalar | list =>
        simp only [overlay, void] at h
        cases h

theorem sheet_overlay? (depth : Nat) (s : Settings) (given : Datum) :
    s.sheet.overlay? depth given = (s.overlay depth given).toOption.map sheet := by
  cases result : s.overlay depth given with
  | ok s' =>
      have usable := (judged_overlay depth s given).ok_iff.mp ⟨s', result⟩
      exact Sheet.overlay?_eq_some_iff.mpr ⟨usable, (sheet_overlay result).symm⟩
  | error fault =>
      refine Option.eq_none_iff_forall_ne_some.mpr fun t taken => ?_
      obtain ⟨s', accepted⟩ := (judged_overlay depth s given).ok_iff.mpr (Sheet.overlay?_eq_some_iff.mp taken).1
      cases result.symm.trans accepted

theorem overlay_eq_ok_iff : s.overlay depth given = .ok s' ↔ s.sheet.overlay? depth given = some s'.sheet := by
  rw [sheet_overlay?]
  cases s.overlay depth given with
  | ok t => simp [Except.toOption, sheet_injective.eq_iff]
  | error fault => exact ⟨nofun, nofun⟩

end Overlay

/-! ## Any number of changes -/

/-- What can be done to settings. -/
inductive Change where
  | overlay (given : Datum)
  /-- An overlay with the document that a text holds. -/
  | load (content : Text)
  | adjust (increase : Bool)

def change? (reader : Reader) (s : Settings) : Change → Option Settings
  | .overlay given => (s.overlay reader.depth given).toOption
  | .load content => (s.overlayDocument reader content).toOption
  | .adjust increase => some { s with level := s.level.adjust increase }

end Settings

namespace Sheet

/-- The sheet of the settings that nothing was done to. -/
def standard : Sheet :=
  ({} : Settings).sheet

/-- The sheet after a change; `none` if it is refused or something is not found on the sheet. -/
def change? (reader : Reader) (s : Sheet) : Settings.Change → Option Sheet
  | .overlay given => s.overlay? reader.depth given
  | .load content => (reader.read content).toOption.bind (s.overlay? reader.depth)
  | .adjust increase => s.adjust? increase

/-- There are templates for the channels and nothing else, and a level. -/
structure Sound (s : Sheet) : Prop where
  names : s.templates.map Prod.fst = Channel.all.map Channel.name
  level : s.level ∈ LogLevel.all.map LogLevel.name

end Sheet

namespace Settings

theorem sound_sheet (s : Settings) : s.sheet.Sound := by
  have listed : s.level ∈ LogLevel.all := by cases s.level <;> decide
  exact ⟨names_sheet s, List.mem_map_of_mem listed⟩

theorem template?_sheet (s : Settings) (channel : Channel) :
    s.sheet.template? channel = some (s.prompts.get channel) := by
  cases channel <;> rfl

theorem severity?_sheet (s : Settings) : s.sheet.severity? = some s.level.severity := by
  unfold Sheet.severity? sheet
  cases s.level <;> rfl

theorem adjust?_sheet (s : Settings) (increase : Bool) :
    s.sheet.adjust? increase = some { s with level := s.level.adjust increase }.sheet := by
  obtain ⟨mode, color, level, prompts⟩ := s
  cases level <;> cases increase <;> rfl

theorem sheet_change? (reader : Reader) (s : Settings) (change : Change) :
    s.sheet.change? reader change = (s.change? reader change).map sheet := by
  cases change with
  | overlay given => exact sheet_overlay? reader.depth s given
  | adjust increase => exact adjust?_sheet s increase
  | load content =>
      simp only [change?, Sheet.change?, overlayDocument]
      cases reader.read content with
      | error fault => rfl
      | ok given => exact sheet_overlay? reader.depth s given

theorem sheet_changes (reader : Reader) (s : Settings) (changes : List Change) :
    changes.foldlM (Sheet.change? reader) s.sheet = (changes.foldlM (change? reader) s).map sheet := by
  induction changes generalizing s with
  | nil => rfl
  | cons change changes ih =>
      rw [List.foldlM_cons, List.foldlM_cons, sheet_change?]
      cases s.change? reader change with
      | none => rfl
      | some s' => exact ih s'

/-- Overlays compose. What two documents make of settings one after the other, their combination makes of
    them at once, and a document that is laid over settings twice does no more than once. This holds of
    every sheet with a template for every channel too, whatever else stands there. Any changes of the
    standard settings, by documents and by steps of the level, do on their sheet what they do to the
    settings, however documents are read. So the sheet has the five channels and a level, and everything
    that is looked up there is found, and is what the settings have. -/
theorem overlays_compose (reader : Reader) (d₁ d₂ : Datum) (changes : List Change) :
    (∀ base first : Settings, base.overlay reader.depth d₁ = .ok first →
      first.overlay reader.depth d₁ = .ok first ∧
      ∀ second, first.overlay reader.depth d₂ = .ok second →
        base.overlay reader.depth (combine d₁ d₂) = .ok second) ∧
    (∀ base first : Sheet, base.Complete → base.overlay? reader.depth d₁ = some first →
      first.overlay? reader.depth d₁ = some first ∧
      ∀ second, first.overlay? reader.depth d₂ = some second →
        base.overlay? reader.depth (combine d₁ d₂) = some second) ∧
    changes.foldlM (Sheet.change? reader) Sheet.standard =
      (changes.foldlM (change? reader) {}).map sheet ∧
    ∀ t, changes.foldlM (Sheet.change? reader) Sheet.standard = some t →
      t.Sound ∧
      ∃ s, changes.foldlM (change? reader) {} = some s ∧ t = s.sheet ∧
        (∀ channel, t.template? channel = some (s.prompts.get channel)) ∧
        t.severity? = some s.level.severity ∧
        ∀ increase, t.adjust? increase = some { s with level := s.level.adjust increase }.sheet := by
  refine ⟨?_, ?_, sheet_changes reader {} changes, ?_⟩
  · intro base first once
    rw [overlay_eq_ok_iff] at once ⊢
    refine ⟨(complete_sheet base).overlay?_again once, fun second twice => ?_⟩
    rw [overlay_eq_ok_iff] at twice ⊢
    exact (complete_sheet base).overlay?_combine once twice
  · intro base first complete once
    exact ⟨complete.overlay?_again once, fun second twice => complete.overlay?_combine once twice⟩
  · intro t reached
    rw [Sheet.standard, sheet_changes] at reached
    obtain ⟨s, changed, rfl⟩ := Option.map_eq_some_iff.mp reached
    exact ⟨sound_sheet s, s, changed, rfl, template?_sheet s, severity?_sheet s, adjust?_sheet s⟩

/-- The first document has prompts that the second overrides in part, and each has something that the
    other has not. -/
theorem overlays_compose_prompts :
    let entry (key value : String) : Scalar × Datum := (.text key.toList, .scalar (.text value.toList))
    let d₁ : Datum :=
      .map [entry "mode" "Muted", (.text "prompts".toList, .map [entry "input" "a", entry "info" "b"])]
    let d₂ : Datum :=
      .map [(.text "prompts".toList, .map [entry "output" "c", entry "input" "d"]),
        entry "log_level" "Error"]
    let first : Settings :=
      { mode := .muted, prompts := { Prompts.standard with input := ['a'], info := ['b'] } }
    let second : Settings :=
      { mode := .muted, level := .error
        prompts := { Prompts.standard with input := ['d'], output := ['c'], info := ['b'] } }
    let reader := Document.reader
    ({} : Settings).overlay reader.depth d₁ = .ok first ∧ first.overlay reader.depth d₂ = .ok second ∧
      first.overlay reader.depth d₁ = .ok first ∧
      ({} : Settings).overlay reader.depth (combine d₁ d₂) = .ok second ∧
      Sheet.standard.Complete ∧
      Sheet.standard.overlay? reader.depth (combine d₁ d₂) = some second.sheet ∧
      ∃ t, [.overlay d₁, .adjust true].foldlM (Sheet.change? reader) Sheet.standard = some t ∧ t.Sound ∧
        t.severity? = some 20 := by
  intro entry d₁ d₂ first second reader
  have once : ({} : Settings).overlay reader.depth d₁ = .ok first := rfl
  have twice : first.overlay reader.depth d₂ = .ok second := rfl
  have complete : Sheet.standard.Complete := complete_sheet {}
  obtain ⟨settings, sheets, -, changed⟩ := overlays_compose reader d₁ d₂ [.overlay d₁, .adjust true]
  obtain ⟨again, together⟩ := settings {} first once
  obtain ⟨-, together'⟩ := sheets Sheet.standard first.sheet complete rfl
  have reached : [.overlay d₁, .adjust true].foldlM (Sheet.change? reader) Sheet.standard =
      some { first with level := .info }.sheet := rfl
  obtain ⟨sound, s, -, -, -, -, -⟩ := changed _ reached
  exact ⟨once, twice, again, together second twice, complete, together' second.sheet rfl, _, reached,
    sound, rfl⟩

end Settings

end QueueScript
