import Mathlib
import QueueScript.Proofs.ExitCodes

/-! # Settings that cannot be used

A document of settings is read entry by entry, and the first entry that cannot be used decides. Most of
these are foreseen: the fault is reported to the user, and a command then ends with 1. Some are not,
and the fault takes the command with it: keys that are no text, prompts that have no entries, and data
that cannot be written, because an integer is too long or the nesting too deep.

`Judged` keeps these three ends of a reading apart. It goes through a sequence of steps
(`Judged.bind`, `Judged.foldlM`), so that a document is judged by what its entries are.
-/

namespace QueueScript

/-- The faults that are reported to the user. -/
def SettingsFault.Reported : SettingsFault → Prop
  | .unreadable (.malformed _) | .notMapping _ | .unknownKeys _ | .invalidMode _ | .invalidColor _
  | .invalidLevel _ | .unknownPrompt _ => True
  | .unreadable (.other ..) | .unwritable _ | .keysNotText _ | .keysNotOrdered .. | .promptsNotMapping _ =>
      False

/-- How a reading ends, if what is read is `usable`, or `unforeseen`, or neither. -/
inductive Judged {α : Type} (usable unforeseen : Prop) : Except SettingsFault α → Prop where
  | used (result : α) : usable → ¬ unforeseen → Judged usable unforeseen (.ok result)
  | refused {fault : SettingsFault} : fault.Reported → ¬ usable → ¬ unforeseen →
      Judged usable unforeseen (.error fault)
  | escaped {fault : SettingsFault} : ¬ fault.Reported → ¬ usable → unforeseen →
      Judged usable unforeseen (.error fault)

namespace Judged

variable {α β : Type} {usable unforeseen : Prop} {x : Except SettingsFault α}

theorem congr {usable' unforeseen' : Prop} (h : Judged usable unforeseen x) (sameUse : usable ↔ usable')
    (same : unforeseen ↔ unforeseen') : Judged usable' unforeseen' x := by
  rwa [propext sameUse, propext same] at h

/-- The second of two readings is begun if what the first reads is usable. -/
theorem bind {usable' unforeseen' : Prop} {f : α → Except SettingsFault β}
    (h : Judged usable unforeseen x) (h' : ∀ a, Judged usable' unforeseen' (f a)) :
    Judged (usable ∧ usable') (unforeseen ∨ usable ∧ unforeseen') (x >>= f) := by
  cases h with
  | used a use foreseen =>
      refine (h' a).congr ?_ ?_
      · exact ⟨fun use' => ⟨use, use'⟩, And.right⟩
      · exact ⟨fun trips => .inr ⟨use, trips⟩, fun trips => trips.elim (absurd · foreseen) And.right⟩
  | refused reported useless foreseen =>
      refine .refused reported (fun both => useless both.1) ?_
      exact fun trips => trips.elim foreseen (fun both => useless both.1)
  | escaped silent useless trips => exact .escaped silent (fun both => useless both.1) (.inl trips)

theorem ok_iff (h : Judged usable unforeseen x) : (∃ a, x = .ok a) ↔ usable := by
  cases h with
  | used a use _ => exact ⟨fun _ => use, fun _ => ⟨a, rfl⟩⟩
  | refused _ useless _ | escaped _ useless _ => exact ⟨nofun, fun use => absurd use useless⟩

theorem reported_iff (h : Judged usable unforeseen x) :
    (∃ fault, x = .error fault ∧ fault.Reported) ↔ ¬ usable ∧ ¬ unforeseen := by
  cases h with
  | used a use _ => exact ⟨nofun, fun neither => absurd use neither.1⟩
  | refused reported useless foreseen =>
      exact ⟨fun _ => ⟨useless, foreseen⟩, fun _ => ⟨_, rfl, reported⟩⟩
  | escaped silent _ trips =>
      refine ⟨?_, fun neither => absurd trips neither.2⟩
      rintro ⟨_, same, reported⟩
      cases same
      exact absurd reported silent

theorem escaped_iff (h : Judged usable unforeseen x) :
    (∃ fault, x = .error fault ∧ ¬ fault.Reported) ↔ unforeseen := by
  cases h with
  | used a _ foreseen => exact ⟨nofun, fun trips => absurd trips foreseen⟩
  | refused reported _ foreseen =>
      refine ⟨?_, fun trips => absurd trips foreseen⟩
      rintro ⟨_, same, silent⟩
      cases same
      exact absurd reported silent
  | escaped silent _ trips => exact ⟨fun _ => trips, fun _ => ⟨_, rfl, silent⟩⟩

end Judged

/-- The first of the items that is not usable is not foreseen either. -/
def Stumbles {α : Type} (usable unforeseen : α → Prop) (items : List α) : Prop :=
  ∃ early item late, items = early ++ item :: late ∧ (∀ other ∈ early, usable other) ∧ unforeseen item

theorem stumbles_cons {α : Type} {usable unforeseen : α → Prop} {item : α} {items : List α} :
    Stumbles usable unforeseen (item :: items) ↔
      unforeseen item ∨ usable item ∧ Stumbles usable unforeseen items := by
  constructor
  · rintro ⟨early, other, late, same, before, trips⟩
    cases early with
    | nil =>
        cases same
        exact .inl trips
    | cons first early =>
        cases same
        obtain ⟨use, before⟩ := List.forall_mem_cons.mp before
        exact .inr ⟨use, early, other, late, rfl, before, trips⟩
  · rintro (trips | ⟨use, early, other, late, rfl, before, trips⟩)
    · exact ⟨[], item, items, rfl, List.forall_mem_nil _, trips⟩
    · exact ⟨item :: early, other, late, rfl, List.forall_mem_cons.mpr ⟨use, before⟩, trips⟩

theorem Judged.foldlM {α β : Type} {usable unforeseen : α → Prop} {f : β → α → Except SettingsFault β}
    (h : ∀ b item, Judged (usable item) (unforeseen item) (f b item)) (items : List α) (b : β) :
    Judged (∀ item ∈ items, usable item) (Stumbles usable unforeseen items) (items.foldlM f b) := by
  induction items generalizing b with
  | nil =>
      refine .used b (List.forall_mem_nil _) ?_
      rintro ⟨early, item, late, same, -⟩
      cases early <;> cases same
  | cons item items ih =>
      rw [List.foldlM_cons]
      exact ((h b item).bind ih).congr List.forall_mem_cons.symm stumbles_cons.symm

/-! ## Entries -/

theorem find?_isSome_iff {α : Type} (all : List α) (complete : ∀ a, a ∈ all) (p : α → Prop)
    [DecidablePred p] : (all.find? fun a => p a).isSome = true ↔ ∃ a, p a := by
  rw [List.find?_isSome]
  constructor
  · rintro ⟨a, -, holds⟩
    exact ⟨a, of_decide_eq_true holds⟩
  · rintro ⟨a, holds⟩
    exact ⟨a, complete a, decide_eq_true holds⟩

theorem Mode.ofName?_isSome_iff {t : Text} :
    (ofName? t).isSome = true ↔ ∃ mode : Mode, mode.name = t.map Char.toUpper :=
  find?_isSome_iff [muted, plain, prompted] (by rintro (_ | _ | _) <;> decide) _

theorem LogLevel.ofName?_isSome_iff {t : Text} :
    (ofName? t).isSome = true ↔ ∃ level : LogLevel, level.name = t.map Char.toLower :=
  find?_isSome_iff all (by rintro (_ | _ | _ | _ | _) <;> decide) _

theorem Channel.ofName?_isSome_iff {t : Text} :
    (ofName? t).isSome = true ↔ ∃ channel : Channel, channel.name = t :=
  find?_isSome_iff all (by rintro (_ | _ | _ | _ | _) <;> decide) _

/-- The datum can be written, where so many levels of nesting can be. -/
def Datum.Writable (depth : Nat) (given : Datum) : Prop :=
  given.obstacle? depth = none

namespace Settings

variable (depth : Nat)

theorem judged_checkWritable (given : Datum) :
    Judged (given.Writable depth) (¬ given.Writable depth) (checkWritable depth given) := by
  unfold checkWritable Datum.Writable
  cases given.obstacle? depth with
  | none => exact .used () rfl (fun unwritable => unwritable rfl)
  | some obstacle => exact .escaped id nofun nofun

theorem judged_writable {α : Type} (given : Datum) {usable : Prop} {x : Except SettingsFault α}
    (h : Judged usable False x) :
    Judged (given.Writable depth ∧ usable) (¬ given.Writable depth)
      (checkWritable depth given >>= fun _ => x) := by
  refine ((judged_checkWritable depth given).bind fun _ => h).congr .rfl ?_
  exact ⟨fun trips => trips.elim id (fun both => both.2.elim), .inl⟩

theorem judged_mode (s : Settings) (given : Datum) :
    Judged (given.Writable depth ∧ ∃ mode : Mode, mode.name = given.plainText.map Char.toUpper)
      (¬ given.Writable depth) (s.overlayMode depth given) := by
  rw [← Mode.ofName?_isSome_iff]
  refine judged_writable depth given ?_
  cases Mode.ofName? given.plainText with
  | some mode => exact .used _ rfl id
  | none => exact .refused trivial nofun id

theorem judged_level (s : Settings) (given : Datum) :
    Judged (given.Writable depth ∧ ∃ level : LogLevel, level.name = given.plainText.map Char.toLower)
      (¬ given.Writable depth) (s.overlayLevel depth given) := by
  rw [← LogLevel.ofName?_isSome_iff]
  refine judged_writable depth given ?_
  cases LogLevel.ofName? given.plainText with
  | some level => exact .used _ rfl id
  | none => exact .refused trivial nofun id

theorem judged_color (s : Settings) (given : Datum) :
    Judged (∃ color, given = .scalar (.bool color)) (¬ given.Writable depth)
      (s.overlayColor depth given) := by
  by_cases isBool : ∃ color, given = .scalar (.bool color)
  · obtain ⟨color, rfl⟩ := isBool
    exact .used _ ⟨color, rfl⟩ (fun unwritable => unwritable rfl)
  · have last : Judged (α := Settings) False False (.error (.invalidColor given)) :=
      .refused trivial id id
    have refused : s.overlayColor depth given =
        (checkWritable depth given >>= fun _ => .error (.invalidColor given)) := by
      unfold overlayColor
      congr 1
      funext
      split
      · rename_i color
        exact absurd ⟨color, rfl⟩ isBool
      · rfl
    rw [refused]
    refine (judged_writable depth given last).congr ?_ .rfl
    exact ⟨fun both => both.2.elim, fun use => absurd use isBool⟩

/-! ### Prompts -/

def NamesChannel (key : Scalar) : Prop :=
  ∃ channel : Channel, key = .text channel.name

/-- An entry of the prompts that gives a template for a channel. -/
def TemplateUsable (entry : Scalar × Datum) : Prop :=
  NamesChannel entry.1 ∧ entry.2.Writable depth

/-- An entry of the prompts whose template cannot be written, or whose key should be cited and cannot be
    written. -/
def TemplateUnforeseen (entry : Scalar × Datum) : Prop :=
  NamesChannel entry.1 ∧ ¬ entry.2.Writable depth ∨
    ¬ NamesChannel entry.1 ∧ ¬ (Datum.scalar entry.1).Writable depth

/-- Prompts without entries, or with usable ones. -/
def PromptsUsable (given : Datum) : Prop :=
  given.isVoid = true ∨ ∃ entries, given = .map entries ∧ ∀ entry ∈ entries, TemplateUsable depth entry

/-- Prompts that are something else than entries, or entries the first bad one of which is not foreseen. -/
def PromptsUnforeseen (given : Datum) : Prop :=
  (given.isVoid = false ∧ ∀ entries, given ≠ .map entries) ∨
    ∃ entries, given = .map entries ∧ Stumbles (TemplateUsable depth) (TemplateUnforeseen depth) entries

def overlayTemplate (s : Settings) (entry : Scalar × Datum) : Except SettingsFault Settings :=
  match (keyText? entry.1).bind Channel.ofName? with
  | none => do
      checkWritable depth (.scalar entry.1)
      .error (.unknownPrompt entry.1)
  | some channel => do
      checkWritable depth entry.2
      return { s with prompts := s.prompts.set channel entry.2.plainText }

theorem overlayTemplates_eq_foldlM (s : Settings) (entries : List (Scalar × Datum)) :
    s.overlayTemplates depth entries = entries.foldlM (overlayTemplate depth) s := by
  induction entries generalizing s with
  | nil => rfl
  | cons entry entries ih =>
      obtain ⟨key, template⟩ := entry
      simp only [overlayTemplates, List.foldlM_cons, overlayTemplate]
      cases (keyText? key).bind Channel.ofName? with
      | none => cases checkWritable depth (.scalar key) <;> rfl
      | some channel =>
          cases checkWritable depth template with
          | error fault => rfl
          | ok _ => exact ih _

theorem namesChannel_iff {key : Scalar} :
    ((keyText? key).bind Channel.ofName?).isSome = true ↔ NamesChannel key := by
  cases key with
  | text t =>
      rw [keyText?, Option.bind_some, Channel.ofName?_isSome_iff]
      constructor
      · rintro ⟨channel, rfl⟩
        exact ⟨channel, rfl⟩
      · rintro ⟨channel, same⟩
        cases same
        exact ⟨channel, rfl⟩
  | null | bool | int | real | date => exact ⟨nofun, nofun⟩

theorem judged_template (s : Settings) (entry : Scalar × Datum) :
    Judged (TemplateUsable depth entry) (TemplateUnforeseen depth entry) (overlayTemplate depth s entry) := by
  have names := @namesChannel_iff entry.1
  unfold overlayTemplate
  cases found : (keyText? entry.1).bind Channel.ofName? with
  | none =>
      have nameless : ¬ NamesChannel entry.1 := by
        rw [← names, found]
        nofun
      have cited : Judged (α := Settings) False False (.error (.unknownPrompt entry.1)) :=
        .refused trivial id id
      refine (judged_writable depth (.scalar entry.1) cited).congr ?_ ?_
      · exact ⟨fun both => both.2.elim, fun use => absurd use.1 nameless⟩
      · exact ⟨fun trips => .inr ⟨nameless, trips⟩,
          fun trips => trips.elim (fun named => absurd named.1 nameless) And.right⟩
  | some channel =>
      have named : NamesChannel entry.1 := by
        rw [← names, found]
        rfl
      have set : Judged True False
          (Except.ok { s with prompts := s.prompts.set channel entry.2.plainText }) :=
        .used _ trivial id
      refine (judged_writable depth entry.2 set).congr ?_ ?_
      · exact ⟨fun both => ⟨named, both.1⟩, fun use => ⟨use.2, trivial⟩⟩
      · exact ⟨fun trips => .inl ⟨named, trips⟩,
          fun trips => trips.elim And.right (fun nameless => absurd named nameless.1)⟩

theorem judged_prompts (s : Settings) (given : Datum) :
    Judged (PromptsUsable depth given) (PromptsUnforeseen depth given) (s.overlayPrompts depth given) := by
  cases given with
  | map entries =>
      rw [overlayPrompts, overlayTemplates_eq_foldlM]
      refine (Judged.foldlM (judged_template depth) entries s).congr ?_ ?_
      · constructor
        · exact fun all => .inr ⟨entries, rfl, all⟩
        · rintro (void | ⟨_, same, all⟩)
          · rw [List.isEmpty_iff.mp void]
            exact List.forall_mem_nil _
          · cases same
            exact all
      · have isMap : ¬ ∀ others, Datum.map entries ≠ .map others := fun other => other entries rfl
        simp only [PromptsUnforeseen, isMap, and_false, Datum.map.injEq, exists_eq_left', false_or]
  | scalar | list =>
      simp only [overlayPrompts]
      split
      · rename_i void
        refine .used s (.inl void) ?_
        rintro (⟨filled, -⟩ | ⟨_, same, -⟩)
        · cases void.symm.trans filled
        · cases same
      · rename_i filled
        refine .escaped id ?_ (.inl ⟨Bool.eq_false_iff.mpr filled, nofun⟩)
        rintro (void | ⟨_, same, -⟩)
        · exact filled void
        · cases same

/-! ### Whole documents -/

/-- What a document may have under a key: how it is overlaid, what can be used there, and what is neither
    used nor reported. -/
structure Field where
  key : String
  overlay : Settings → Datum → Except SettingsFault Settings
  Usable : Datum → Prop
  Unforeseen : Datum → Prop
  judged : ∀ s given, Judged (Usable given) (Unforeseen given) (overlay s given)

/-- The fields in the order in which they are overlaid. -/
def fields : List Field :=
  [{ key := "mode"
     overlay := overlayMode depth
     Usable given :=
       given.Writable depth ∧ ∃ mode : Mode, mode.name = given.plainText.map Char.toUpper
     Unforeseen given := ¬ given.Writable depth
     judged := judged_mode depth },
   { key := "color"
     overlay := overlayColor depth
     Usable given := ∃ color, given = .scalar (.bool color)
     Unforeseen given := ¬ given.Writable depth
     judged := judged_color depth },
   { key := "log_level"
     overlay := overlayLevel depth
     Usable given :=
       given.Writable depth ∧ ∃ level : LogLevel, level.name = given.plainText.map Char.toLower
     Unforeseen given := ¬ given.Writable depth
     judged := judged_level depth },
   { key := "prompts"
     overlay := overlayPrompts depth
     Usable := PromptsUsable depth
     Unforeseen := PromptsUnforeseen depth
     judged := judged_prompts depth }]

namespace Field

/-- What the entries have for the field can be used. -/
def UsableIn (entries : List (Scalar × Datum)) (field : Field) : Prop :=
  ∀ given, entries.lookup (.text field.key.toList) = some given → field.Usable given

/-- What the entries have for the field is not foreseen. -/
def UnforeseenIn (entries : List (Scalar × Datum)) (field : Field) : Prop :=
  ∃ given, entries.lookup (.text field.key.toList) = some given ∧ field.Unforeseen given

theorem judgedIn (entries : List (Scalar × Datum)) (s : Settings) (field : Field) :
    Judged (field.UsableIn entries) (field.UnforeseenIn entries)
      (overlayKey entries field.key field.overlay s) := by
  unfold overlayKey UsableIn UnforeseenIn
  cases entries.lookup (.text field.key.toList) with
  | none => exact .used s nofun nofun
  | some given =>
      refine (field.judged s given).congr ?_ ?_
      · simp only [Option.some.injEq, forall_eq']
      · simp only [Option.some.injEq, exists_eq_left']

end Field

/-- A document without content, or one with known keys only and something usable under each. -/
def Usable (given : Datum) : Prop :=
  given.isVoid = true ∨
    ∃ entries, given = .map entries ∧ (∀ entry ∈ entries, entry.1 ∈ knownKeys) ∧
      ∀ field ∈ fields depth, field.UsableIn entries

/-- A document with a key that is no text, or with known keys only where the first thing that cannot be
    used is not foreseen. -/
def Unforeseen (given : Datum) : Prop :=
  ∃ entries, given = .map entries ∧
    ((∃ entry ∈ entries, keyText? entry.1 = none) ∨
      (∀ entry ∈ entries, entry.1 ∈ knownKeys) ∧
        Stumbles (Field.UsableIn entries) (Field.UnforeseenIn entries) (fields depth))

theorem keyText?_of_known {key : Scalar} (h : key ∈ knownKeys) : keyText? key ≠ none := by
  have texts : knownKeys.all (fun key => (keyText? key).isSome) = true := by decide
  intro none
  have known := List.all_eq_true.mp texts key h
  rw [none] at known
  cases known

theorem reported_unknownFault_iff {unknown : List Scalar} (nonempty : unknown ≠ []) :
    (unknownFault unknown).Reported ↔ ∀ key ∈ unknown, keyText? key ≠ none := by
  have texts : unknown.all (fun key => (keyText? key).isSome) = true ↔
      ∀ key ∈ unknown, keyText? key ≠ none := by
    rw [List.all_eq_true]
    exact forall₂_congr fun key _ => Option.isSome_iff_ne_none
  unfold unknownFault
  split
  · rename_i all
    exact ⟨fun _ => texts.mp all, fun _ => trivial⟩
  · rename_i notAll
    rw [← texts]
    refine ⟨fun reported => ?_, fun all => absurd all notAll⟩
    split at reported
    · rename_i sorted
      have length : (unknown.mergeSort before).length = unknown.length := List.length_mergeSort unknown
      rw [sorted] at length
      exact absurd (List.length_eq_zero_iff.mp length.symm) nonempty
    · exact reported.elim
    · split at reported <;> exact reported.elim

theorem judged_checkKeys (entries : List (Scalar × Datum)) :
    Judged (∀ entry ∈ entries, entry.1 ∈ knownKeys) (∃ entry ∈ entries, keyText? entry.1 = none)
      (checkKeys entries) := by
  have mem_unknown : ∀ key, key ∈ (entries.map Prod.fst).filter (!knownKeys.contains ·) ↔
      key ∈ entries.map Prod.fst ∧ key ∉ knownKeys := by
    intro key
    rw [List.mem_filter, Bool.not_eq_true', ← Bool.not_eq_true, List.contains_iff_mem]
  unfold checkKeys
  generalize (entries.map Prod.fst).filter (!knownKeys.contains ·) = unknown at mem_unknown
  cases unknown with
  | nil =>
      have known : ∀ entry ∈ entries, entry.1 ∈ knownKeys := by
        intro entry member
        refine Decidable.byContradiction fun other => ?_
        exact List.not_mem_nil ((mem_unknown entry.1).mpr ⟨List.mem_map_of_mem member, other⟩)
      refine .used () known ?_
      rintro ⟨entry, member, noText⟩
      exact keyText?_of_known (known entry member) noText
  | cons key rest =>
      have useless : ¬ ∀ entry ∈ entries, entry.1 ∈ knownKeys := by
        intro known
        obtain ⟨isKey, other⟩ := (mem_unknown key).mp (List.mem_cons_self ..)
        obtain ⟨entry, member, rfl⟩ := List.mem_map.mp isKey
        exact other (known entry member)
      have reported := reported_unknownFault_iff (List.cons_ne_nil key rest)
      by_cases texts : ∃ entry ∈ entries, keyText? entry.1 = none
      · refine .escaped ?_ useless texts
        obtain ⟨entry, member, noText⟩ := texts
        have isUnknown : entry.1 ∈ key :: rest := by
          refine (mem_unknown entry.1).mpr ⟨List.mem_map_of_mem member, ?_⟩
          exact fun known => keyText?_of_known known noText
        exact fun told => reported.mp told entry.1 isUnknown noText
      · refine .refused (reported.mpr ?_) useless texts
        intro other isUnknown noText
        obtain ⟨entry, member, rfl⟩ := List.mem_map.mp ((mem_unknown other).mp isUnknown).1
        exact texts ⟨entry, member, noText⟩

theorem overlay_map (base : Settings) {entries : List (Scalar × Datum)} (filled : entries ≠ []) :
    base.overlay depth (.map entries) = (checkKeys entries >>= fun _ =>
      (fields depth).foldlM (fun s field => overlayKey entries field.key field.overlay s) base) := by
  have notVoid : (Datum.map entries).isVoid = false := by
    cases entries with
    | nil => exact absurd rfl filled
    | cons => rfl
  simp only [overlay, notVoid, Bool.false_eq_true, if_false, fields, List.foldlM_cons, List.foldlM_nil,
    bind_pure]

theorem judged_overlay (base : Settings) (given : Datum) :
    Judged (Usable depth given) (Unforeseen depth given) (base.overlay depth given) := by
  by_cases void : given.isVoid = true
  · have kept : base.overlay depth given = .ok base := by
      simp only [overlay, void, if_true]
      rfl
    rw [kept]
    refine .used base (.inl void) ?_
    rintro ⟨entries, rfl, trips⟩
    cases List.isEmpty_iff.mp void
    -- No entries, so none that could trip.
    obtain ⟨_, none, -⟩ | ⟨-, _, _, _, -, -, _, none, -⟩ := trips
    · cases none
    · cases none
  · cases given with
    | map entries =>
        have filled : entries ≠ [] := fun empty => void (List.isEmpty_iff.mpr empty)
        rw [overlay_map depth base filled]
        refine ((judged_checkKeys entries).bind fun _ =>
          Judged.foldlM (Field.judgedIn entries) (fields depth) base).congr ?_ ?_
        · simp only [Usable, void, Bool.false_eq_true, Datum.map.injEq, exists_eq_left', false_or]
        · simp only [Unforeseen, Datum.map.injEq, exists_eq_left']
    | scalar | list =>
        simp only [overlay, void]
        refine .refused trivial ?_ ?_
        · rintro (isVoid | ⟨_, same, -⟩)
          · exact void isVoid
          · cases same
        · rintro ⟨_, same, -⟩
          cases same

end Settings

namespace CommandLine

open Settings

theorem refuse_of_reported {fault : SettingsFault} (h : fault.Reported) (path : Text) :
    ∃ message, refuse path fault = .shown message := by
  cases fault with
  | unreadable fault =>
      cases fault with
      | malformed note => exact ⟨_, rfl⟩
      | other => exact h.elim
  | notMapping | unknownKeys | invalidMode | invalidColor | invalidLevel | unknownPrompt => exact ⟨_, rfl⟩
  | unwritable | keysNotText | keysNotOrdered | promptsNotMapping => exact h.elim

theorem refuse_of_not_reported {fault : SettingsFault} (h : ¬ fault.Reported) (path : Text) :
    refuse path fault = .crash (.settings fault) := by
  cases fault with
  | unreadable fault =>
      cases fault with
      | malformed => exact absurd trivial h
      | other => rfl
  | notMapping | unknownKeys | invalidMode | invalidColor | invalidLevel | unknownPrompt =>
      exact absurd trivial h
  | unwritable | keysNotText | keysNotOrdered | promptsNotMapping => rfl

/-- The text of a document of settings that can be used. -/
def TextUsable (reader : Reader) (t : Text) : Prop :=
  ∃ given, reader.read t = .ok given ∧ Usable reader.depth given

/-- The text of a document that is not malformed and yet has no content, or has one that is not
    foreseen. -/
def TextUnforeseen (reader : Reader) (t : Text) : Prop :=
  (∃ name note, reader.read t = .error (.other name note)) ∨
    ∃ given, reader.read t = .ok given ∧ Unforeseen reader.depth given

theorem judged_overlayDocument (reader : Reader) (base : Settings) (t : Text) :
    Judged (TextUsable reader t) (TextUnforeseen reader t) (base.overlayDocument reader t) := by
  unfold overlayDocument TextUsable TextUnforeseen
  cases reader.read t with
  | error fault =>
      cases fault with
      | malformed note =>
          refine .refused trivial nofun ?_
          rintro (⟨_, _, same⟩ | ⟨_, same, -⟩) <;> cases same
      | other name note => exact .escaped id nofun (.inl ⟨name, note, rfl⟩)
  | ok given =>
      refine (judged_overlay reader.depth base given).congr ?_ ?_
      · simp only [Except.ok.injEq, exists_eq_left']
      · simp only [Except.ok.injEq, exists_eq_left', reduceCtorEq, exists_false, false_or]

theorem start_of_refusal {invocation : Invocation} {o : Options} {program path : Text} {refusal : Refusal}
    (parsed : Options.parse invocation.arguments = .ok o) (given : o.program = some program)
    (config : o.config = some path) (named : path ≠ []) :
    loadSettings invocation.reader invocation.directory path = .error refusal → start invocation =
      match refusal with
      | .shown message =>
          (.exit 1, (console invocation {}).record (.notice ("Error: ".toList ++ message ++ ['\n'])))
      | .crash cause => (.crash cause, console invocation {}) := by
  intro refused
  have kept : o.config.filter (!·.isEmpty) = some path := by
    rw [config]
    cases path with
    | nil => exact absurd rfl named
    | cons => rfl
  have failed (interactive : Bool) : settings o interactive invocation = .error refusal := by
    simp only [settings, kept, baseSettings, refused]
    rfl
  simp only [start, parsed, given, runOptions, failed]
  cases refusal <;> rfl

/-- The bytes of a file of settings that can be used. -/
def FileUsable (reader : Reader) (bytes : ByteArray) : Prop :=
  ∃ t, decodeFile? bytes = some t ∧ TextUsable reader t

/-- The bytes of a file of settings that has no text, or one that is not foreseen. -/
def FileUnforeseen (reader : Reader) (bytes : ByteArray) : Prop :=
  decodeFile? bytes = none ∨ ∃ t, decodeFile? bytes = some t ∧ TextUnforeseen reader t

section File

variable {invocation : Invocation} {o : Options} {program path : Text} {bytes : ByteArray}
  (parsed : Options.parse invocation.arguments = .ok o) (toRun : o.program = some program)
  (config : o.config = some path) (named : path ≠ [])
  (found : invocation.directory.find path = .file bytes)

include found in
theorem loadSettings_of_error {t : Text} {fault : SettingsFault} (decoded : decodeFile? bytes = some t)
    (failed : ({} : Settings).overlayDocument invocation.reader t = .error fault) :
    loadSettings invocation.reader invocation.directory path = .error (refuse path fault) := by
  simp only [loadSettings, found, decoded, failed]
  rfl

include parsed toRun config named found

theorem run_of_foreseen_file (useless : ¬ FileUsable invocation.reader bytes)
    (foreseen : ¬ FileUnforeseen invocation.reader bytes) :
    ∃ t fault message c, decodeFile? bytes = some t ∧
      ({} : Settings).overlayDocument invocation.reader t = .error fault ∧ refuse path fault = .shown message ∧
      run invocation = (.exit 1, c) ∧ c.errWithLog = "Error: ".toList ++ message ++ ['\n'] ∧
      c.out = [] := by
  cases decoded : decodeFile? bytes with
  | none => exact absurd (.inl decoded) foreseen
  | some t =>
      have neither : ¬ TextUsable invocation.reader t ∧ ¬ TextUnforeseen invocation.reader t :=
        ⟨fun use => useless ⟨t, decoded, use⟩, fun trips => foreseen (.inr ⟨t, decoded, trips⟩)⟩
      obtain ⟨fault, failed, reported⟩ := (judged_overlayDocument invocation.reader {} t).reported_iff.mpr neither
      obtain ⟨message, shown⟩ := refuse_of_reported reported path
      have started :=
        start_of_refusal parsed toRun config named (loadSettings_of_error found decoded failed)
      rw [shown] at started
      refine ⟨t, fault, message, _, rfl, failed, shown, by rw [run, started], ?_, ?_⟩
      · rw [Console.errWithLog_notice]
        rfl
      · rw [Console.out_notice]
        rfl

theorem run_of_unforeseen_file (trips : FileUnforeseen invocation.reader bytes) :
    ∃ cause, run invocation = (.crash cause, console invocation {}) := by
  have begun {refusal : Refusal}
      (refused : loadSettings invocation.reader invocation.directory path = .error refusal) :=
    start_of_refusal parsed toRun config named refused
  obtain undecodable | ⟨t, decoded, trips⟩ := trips
  · have refused : loadSettings invocation.reader invocation.directory path =
        .error (.crash .undecodable) := by
      simp only [loadSettings, found, undecodable]
    exact ⟨.undecodable, by rw [run, begun refused]⟩
  · obtain ⟨fault, failed, silent⟩ := (judged_overlayDocument invocation.reader {} t).escaped_iff.mpr trips
    have started := begun (loadSettings_of_error found decoded failed)
    rw [refuse_of_not_reported silent] at started
    exact ⟨.settings fault, by rw [run, started]⟩

end File

/-- Settings that cannot be used are reported, but for those that are not foreseen. Overlaying a document
    on any settings succeeds if and only if the document is usable. If it is neither usable nor
    unforeseen, the fault is one of those that are reported, and a command with such a file of settings
    ends with 1, the report on the error stream, and nothing else done. The fault is of another kind if
    and only if the document is unforeseen, and then the command has no exit code. This is so however
    documents are read and however deep a datum may be nested. -/
theorem unusable_settings_are_reported (depth : Nat) (base : Settings) (given : Datum) :
    (((∃ s, base.overlay depth given = .ok s) ↔ Usable depth given) ∧
      ((∃ fault, base.overlay depth given = .error fault ∧ fault.Reported) ↔
        ¬ Usable depth given ∧ ¬ Unforeseen depth given) ∧
      ((∃ fault, base.overlay depth given = .error fault ∧ ¬ fault.Reported) ↔
        Unforeseen depth given)) ∧
    ∀ (invocation : Invocation) (o : Options) (program path : Text) (bytes : ByteArray),
      Options.parse invocation.arguments = .ok o → o.program = some program → o.config = some path →
      path ≠ [] → invocation.directory.find path = .file bytes →
      (¬ FileUsable invocation.reader bytes → ¬ FileUnforeseen invocation.reader bytes →
        ∃ t fault message c, decodeFile? bytes = some t ∧
          ({} : Settings).overlayDocument invocation.reader t = .error fault ∧
          refuse path fault = .shown message ∧
          run invocation = (.exit 1, c) ∧ c.errWithLog = "Error: ".toList ++ message ++ ['\n'] ∧
          c.out = []) ∧
      (FileUnforeseen invocation.reader bytes →
        ∃ cause, run invocation = (.crash cause, console invocation {})) := by
  have judged := judged_overlay depth base given
  refine ⟨⟨judged.ok_iff, judged.reported_iff, judged.escaped_iff⟩, ?_⟩
  intro invocation o program path bytes parsed toRun config named found
  exact ⟨run_of_foreseen_file parsed toRun config named found,
    run_of_unforeseen_file parsed toRun config named found⟩

/-- A document that is one word. -/
theorem unusable_settings_are_reported_word :
    let directory := Directory.ofFiles [(['c'], "x".toUTF8)]
    let invocation : Invocation := { arguments := ["--config".toList, ['c'], ['>']], directory }
    Options.parse invocation.arguments = .ok { config := some ['c'], program := some ['>'] } ∧
    directory.find ['c'] = .file "x".toUTF8 ∧
    ¬ FileUsable invocation.reader "x".toUTF8 ∧ ¬ FileUnforeseen invocation.reader "x".toUTF8 ∧
    ∃ c, run invocation = (.exit 1, c) ∧
      c.errWithLog = "Error: config must be a mapping, not str\n".toList := by
  intro directory invocation
  have parsed : Options.parse invocation.arguments =
      .ok { config := some ['c'], program := some ['>'] } := by
    cbv
  have found : directory.find ['c'] = .file "x".toUTF8 := by
    cbv
  have decoded : decodeFile? "x".toUTF8 = some ['x'] := by
    cbv
  have read : Document.reader.read ['x'] = .ok (.scalar (.text ['x'])) := by
    cbv
  have useless : ¬ FileUsable invocation.reader "x".toUTF8 := by
    rintro ⟨t, same, given, same', use⟩
    cases decoded.symm.trans same
    cases read.symm.trans same'
    obtain void | ⟨_, other, -⟩ := use
    · cases void
    · cases other
  have foreseen : ¬ FileUnforeseen invocation.reader "x".toUTF8 := by
    rintro (none | ⟨t, same, ⟨_, _, failed⟩ | ⟨given, same', _, rfl, -⟩⟩)
    · cases decoded.symm.trans none
    · cases decoded.symm.trans same
      cases read.symm.trans failed
    · cases decoded.symm.trans same
      cases read.symm.trans same'
  obtain ⟨t, fault, message, c, same, failed, shown, ran, told, -⟩ :=
    ((unusable_settings_are_reported 0 {} (.scalar (.text ['x']))).2 invocation _ ['>'] ['c'] _ parsed rfl
      rfl (List.cons_ne_nil 'c' []) found).1 useless foreseen
  cases decoded.symm.trans same
  have failed' : ({} : Settings).overlayDocument Document.reader ['x'] =
      .error (.notMapping "str".toList) := by
    rw [overlayDocument, read]
    rfl
  cases failed'.symm.trans failed
  cases shown
  exact ⟨parsed, found, useless, foreseen, c, ran, told⟩

/-- Prompts given as a list. -/
theorem prompts_without_entries_are_not_reported :
    let given : Datum := .map [(.text "prompts".toList, .list [.scalar (.text "input".toList)])]
    let invocation : Invocation :=
      { arguments := ["--config".toList, ['c'], ['>']]
        directory := .ofFiles [(['c'], "prompts: [input]".toUTF8)] }
    let fault : SettingsFault := .promptsNotMapping "list".toList
    (∀ (depth : Nat) (base : Settings), base.overlay depth given = .error fault) ∧ ¬ fault.Reported ∧
      run invocation = (.crash (.settings fault), console invocation {}) := by
  refine ⟨fun depth base => rfl, id, ?_⟩
  cbv

end CommandLine

end QueueScript
