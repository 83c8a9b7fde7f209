import QueueScript.Settings.Basic
import QueueScript.Datum

/-! # Settings from a document

A document overlays its entries on settings that are there already. What it leaves out stays as
it is; the first thing in it that cannot be used is reported, and nothing is changed then. The names in
a document are compared in their written form, so a datum that cannot be written cannot be used.
-/

namespace QueueScript

/-- Why a document cannot be used for settings. -/
inductive SettingsFault where
  /-- The document has no content. -/
  | unreadable (fault : ReadFault)
  /-- A datum cannot be written. -/
  | unwritable (obstacle : Obstacle)
  /-- The document is not a mapping. -/
  | notMapping (kindName : Text)
  /-- Some keys are not known. -/
  | unknownKeys (keys : List Text)
  /-- Some keys are not known and not even text. -/
  | keysNotText (kindName : Text)
  /-- Some keys are not known and of kinds that have no common order. -/
  | keysNotOrdered (kindName other : Text)
  | invalidMode (given : Datum)
  | invalidColor (given : Datum)
  | invalidLevel (given : Datum)
  | unknownPrompt (key : Scalar)
  /-- The prompts are given as something that has no entries. -/
  | promptsNotMapping (kindName : Text)
  deriving Repr

def SettingsFault.message : SettingsFault → Text
  | .unreadable fault => fault.message
  | .unwritable .tooLong => (Text.digitLimit ++ Text.digitAdvice).toList
  | .unwritable .tooDeep =>
      "maximum recursion depth exceeded while getting the repr of an object".toList
  | .notMapping kindName => "config must be a mapping, not ".toList ++ kindName
  | .unknownKeys keys => "unknown config keys: ".toList ++ Text.commaSeparated keys
  | .keysNotText kindName =>
      "sequence item 0: expected str instance, ".toList ++ kindName ++ " found".toList
  | .keysNotOrdered kindName other =>
      "'<' not supported between instances of '".toList ++ kindName ++ "' and '".toList ++ other ++
        "'".toList
  | .invalidMode given => "invalid mode: ".toList ++ given.cite
  | .invalidColor given => "color must be true or false, not ".toList ++ given.cite
  | .invalidLevel given => "invalid log level: ".toList ++ given.cite
  | .unknownPrompt key => "unknown prompt: ".toList ++ key.cite
  | .promptsNotMapping kindName =>
      "'".toList ++ kindName ++ "' object has no attribute 'items'".toList

namespace Settings

def knownKeys : List Scalar :=
  ["mode", "color", "log_level", "prompts"].map fun key => .text key.toList

def keyText? : Scalar → Option Text
  | .text t => some t
  | _ => none

/-- Whether a text comes after another one, character by character. -/
def follows (a b : Text) : Bool :=
  List.lex b a fun c d => c.toNat < d.toNat

/-- Whether a key comes before another one, as numbers. -/
def before (a b : Scalar) : Bool :=
  match a.quotient?, b.quotient? with
  | some (m, d), some (n, e) => m * e ≤ n * d
  | _, _ => true

/-- What is wrong with unknown keys. They are named in order, if all of them are text. -/
def unknownFault (unknown : List Scalar) : SettingsFault :=
  if unknown.all fun key => (keyText? key).isSome then
    .unknownKeys ((unknown.filterMap keyText?).mergeSort fun a b => !follows a b)
  else
    match unknown.mergeSort before with
    | [] => .unknownKeys []
    | [key] => .keysNotText key.fullName
    | first :: second :: rest =>
        if (first :: second :: rest).all fun key => key.quotient?.isSome then
          .keysNotText first.fullName
        else .keysNotOrdered second.fullName first.fullName

def checkKeys (entries : List (Scalar × Datum)) : Except SettingsFault Unit :=
  match (entries.map Prod.fst).filter (!knownKeys.contains ·) with
  | [] => .ok ()
  | unknown => .error (unknownFault unknown)

def checkWritable (depth : Nat) (given : Datum) : Except SettingsFault Unit :=
  match given.obstacle? depth with
  | none => .ok ()
  | some obstacle => .error (.unwritable obstacle)

def overlayMode (depth : Nat) (s : Settings) (given : Datum) : Except SettingsFault Settings := do
  checkWritable depth given
  match Mode.ofName? given.plainText with
  | some mode => return { s with mode }
  | none => .error (.invalidMode given)

def overlayColor (depth : Nat) (s : Settings) (given : Datum) : Except SettingsFault Settings := do
  checkWritable depth given
  match given with
  | .scalar (.bool color) => return { s with color }
  | _ => .error (.invalidColor given)

def overlayLevel (depth : Nat) (s : Settings) (given : Datum) : Except SettingsFault Settings := do
  checkWritable depth given
  match LogLevel.ofName? given.plainText with
  | some level => return { s with level }
  | none => .error (.invalidLevel given)

/-- The settings with the templates of some entries. -/
def overlayTemplates (depth : Nat) (s : Settings) :
    List (Scalar × Datum) → Except SettingsFault Settings
  | [] => .ok s
  | (key, template) :: entries => do
      match (keyText? key).bind Channel.ofName? with
      | none =>
          checkWritable depth (.scalar key)
          .error (.unknownPrompt key)
      | some channel =>
          checkWritable depth template
          overlayTemplates depth { s with prompts := s.prompts.set channel template.plainText } entries

def overlayPrompts (depth : Nat) (s : Settings) (given : Datum) : Except SettingsFault Settings :=
  match given with
  | .map entries => s.overlayTemplates depth entries
  | d => if d.isVoid then .ok s else .error (.promptsNotMapping d.fullName)

/-- One step of an overlay, if the document has its key. -/
def overlayKey (entries : List (Scalar × Datum)) (key : String)
    (step : Settings → Datum → Except SettingsFault Settings) (s : Settings) :
    Except SettingsFault Settings :=
  match entries.lookup (.text key.toList) with
  | none => .ok s
  | some given => step s given

/-- The settings with everything that a document gives. A void document gives nothing. -/
def overlay (depth : Nat) (base : Settings) (given : Datum) : Except SettingsFault Settings := do
  if given.isVoid then return base
  match given with
  | .map entries =>
      checkKeys entries
      let s ← overlayKey entries "mode" (overlayMode depth) base
      let s ← overlayKey entries "color" (overlayColor depth) s
      let s ← overlayKey entries "log_level" (overlayLevel depth) s
      overlayKey entries "prompts" (overlayPrompts depth) s
  | d => .error (.notMapping d.kindName)

/-- The settings with everything that the text of a document gives. -/
def overlayDocument (reader : Reader) (base : Settings) (t : Text) : Except SettingsFault Settings :=
  match reader.read t with
  | .error fault => .error (.unreadable fault)
  | .ok given => base.overlay reader.depth given

end Settings

end QueueScript
