import QueueScript.Text.Decimal
import QueueScript.Text.Quoted

/-! # Options

Arguments are first sorted into options and operands, and then taken one after the other. Short
options may be bundled, and long ones may be shortened as long as they stay unambiguous. A double
dash ends the options. The program and its inputs are taken together from the first run of
operands; operands after a later option are not expected.
-/

namespace QueueScript

inductive ColorChoice where
  | on
  | off
  | auto
  deriving Repr, DecidableEq

/-- What the arguments ask for. -/
structure Options where
  color : Option ColorChoice := none
  verbose : Nat := 0
  quiet : Bool := false
  config : Option Text := none
  program : Option Text := none
  inputs : List Text := []
  deriving Repr, DecidableEq

namespace Options

inductive Flag where
  | help
  | color
  | verbose
  | quiet
  | config
  deriving Repr, DecidableEq

/-- Why the arguments are not taken to their end. -/
inductive Stop where
  /-- Help was asked for. -/
  | help
  /-- The arguments are misused. -/
  | misuse (message : Text)
  deriving Repr, DecidableEq

def spellings : List (Text × Flag) :=
  [("-h", .help), ("--help", .help), ("-c", .color), ("--color", .color), ("-v", .verbose),
    ("--verbose", .verbose), ("-q", .quiet), ("--quiet", .quiet), ("--config", .config)].map
      fun ((spelling, flag) : String × Flag) => (spelling.toList, flag)

def colorChoices : List (Text × ColorChoice) :=
  [("on".toList, .on), ("off".toList, .off), ("auto".toList, .auto)]

namespace Flag

def takesValue : Flag → Bool
  | .color | .config => true
  | .help | .verbose | .quiet => false

/-- A complaint about the option, which is named by all its spellings. -/
def misuse (flag : Flag) (complaint : Text) : Stop :=
  let names := (spellings.filter (·.2 = flag)).map Prod.fst
  .misuse ("argument ".toList ++ List.intercalate ['/'] names ++ ": ".toList ++ complaint)

end Flag

/-- An argument by its role. -/
inductive Argument where
  | operand (t : Text)
  /-- The double dash that ends the options. -/
  | separator
  /-- An option, whether it is a short one, and what is written together with it. -/
  | option (flag : Flag) (short : Bool) (attached : Option Text)
  /-- Something that looks like an option and is none. -/
  | stray (t : Text)
  deriving Repr, DecidableEq

def doubleDash : Text :=
  ['-', '-']

/-- Whether an option is a short one: one dash and one letter. -/
def isShort (spelling : Text) : Bool :=
  !doubleDash.isPrefixOf spelling

def isNegativeNumber (t : Text) : Bool :=
  match t with
  | '-' :: body =>
      let body := if body.getLast? == some '\n' then body.dropLast else body
      match body.dropWhile Text.isAnyDigit with
      | [] => !body.isEmpty
      | '.' :: decimals => !decimals.isEmpty && decimals.all Text.isAnyDigit
      | _ => false
  | _ => false

/-- The text before the first equals sign, and the text after it if there is one. -/
def splitValue (t : Text) : Text × Option Text :=
  match Text.breakOn ['='] t with
  | some (name, value) => (name, some value)
  | none => (t, none)

/-- The options that a spelling which is not exact may mean. -/
def candidates (t : Text) : List (Text × Flag × Option Text) :=
  if isShort t then
    (spellings.filter (·.1 = t.take 2)).map fun (spelling, flag) =>
      (spelling, flag, some (t.drop 2))
  else
    let (name, value) := splitValue t
    (spellings.filter fun (spelling, _) => name.isPrefixOf spelling).map fun (spelling, flag) =>
      (spelling, flag, value)

/-- The role of an argument before any double dash. -/
def classify (t : Text) : Except Stop Argument :=
  if t.head? ≠ some '-' then .ok (.operand t)
  else
    let (name, value) := splitValue t
    match spellings.lookup t, value.bind fun _ => spellings.lookup name with
    | some flag, _ => .ok (.option flag (isShort t) none)
    | none, some flag => .ok (.option flag (isShort name) value)
    | none, none =>
        if t.length = 1 then .ok (.operand t)
        else
          match candidates t with
          | [(spelling, flag, attached)] => .ok (.option flag (isShort spelling) attached)
          | [] => .ok (if isNegativeNumber t || t.contains ' ' then .operand t else .stray t)
          | several =>
              .error (.misuse ("ambiguous option: ".toList ++ t ++ " could match ".toList ++
                Text.commaSeparated (several.map Prod.fst)))

def classifyAll : List Text → Except Stop (List Argument)
  | [] => .ok []
  | t :: ts =>
      if t = doubleDash then .ok (.separator :: ts.map .operand)
      else do
        let argument ← classify t
        let arguments ← classifyAll ts
        return argument :: arguments

/-- The complaint about a value written together with an option that takes none. -/
def Flag.ignores (flag : Flag) (value : Text) : Stop :=
  flag.misuse ("ignored explicit argument ".toList ++ Text.cite value)

/-- The options in what is written together with an option, with their values. After a short
    option that takes no value the next letter is an option again, also behind an equals sign. -/
def unbundle (flag : Flag) (short : Bool) : Text → Except Stop (List (Flag × Option Text))
  | [] => if flag.takesValue then .ok [(flag, some [])] else .error (flag.ignores [])
  | c :: rest =>
      if flag.takesValue then .ok [(flag, some (c :: rest))]
      else if !short then .error (flag.ignores (c :: rest))
      else
        match spellings.lookup ['-', c], rest with
        | none, rest => .error (flag.ignores (c :: rest))
        | some next, [] => .ok [(flag, none), (next, none)]
        | some next, d :: rest => (unbundle next true (d :: rest)).map ((flag, none) :: ·)

/-- Takes one option with its value. A double dash as the value takes back what was given for
    the option before. -/
def take (o : Options) (flag : Flag) (value : Option Text) : Except Stop Options :=
  match flag, value.filter (· ≠ doubleDash) with
  | .help, _ => .error .help
  | .verbose, _ => .ok { o with verbose := o.verbose + 1 }
  | .quiet, _ => .ok { o with quiet := true }
  | .config, value => .ok { o with config := value }
  | .color, none => .ok { o with color := none }
  | .color, some value =>
      match colorChoices.lookup value with
      | some choice => .ok { o with color := some choice }
      | none =>
          .error (Flag.color.misuse ("invalid choice: ".toList ++ Text.cite value ++
            " (choose from ".toList ++
            Text.commaSeparated (colorChoices.map (Text.cite ·.1)) ++ ")".toList))

def takeAll (o : Options) : List (Flag × Option Text) → Except Stop Options
  | [] => .ok o
  | (flag, value) :: rest => do
      let o ← o.take flag value
      o.takeAll rest

namespace Argument

/-- Whether the argument is no option. -/
def isPlain : Argument → Bool
  | .operand _ | .separator => true
  | _ => false

def plainText : Argument → Text
  | .operand t => t
  | .separator => doubleDash
  | _ => []

end Argument

/-- How many arguments of a run belong to the program: one operand, and a separator beside it. -/
def programShare : List Argument → Nat
  | .operand _ :: .separator :: _ => 2
  | .operand _ :: _ => 1
  | .separator :: .operand _ :: _ => 2
  | .separator :: _ => 1
  | _ => 0

/-- Takes the program and the inputs from a run of operands. From each the first double dash
    is dropped. -/
def takeOperands (o : Options) (run : List Argument) : Options :=
  let texts := run.map Argument.plainText
  let share := programShare run
  { o with
    program := ((texts.take share).erase doubleDash).head?
    inputs := (texts.drop share).erase doubleDash }

/-- The options of a bundle, the last one with the operand after the bundle if it needs a value,
    and the number of arguments used for that. -/
def complete (bundle : List (Flag × Option Text)) (rest : List Argument) :
    Except Stop (List (Flag × Option Text) × Nat) :=
  match bundle.getLast? with
  | some (last, none) =>
      if last.takesValue then
        match rest with
        | .operand t :: _ => .ok (bundle.dropLast ++ [(last, some t)], 1)
        | _ => .error (last.misuse "expected one argument".toList)
      else .ok (bundle, 0)
  | _ => .ok (bundle, 0)

/-- Takes the arguments in order; `filled` tells whether operands were taken before, and
    `extras` holds what was not expected. -/
def consume (o : Options) (filled : Bool) (extras : List Text) :
    List Argument → Except Stop Options
  | [] =>
      if extras.isEmpty then .ok o
      else .error (.misuse ("unrecognized arguments: ".toList ++ List.intercalate [' '] extras))
  | .stray t :: rest => consume o filled (extras ++ [t]) rest
  | .option flag short attached :: rest => do
      let bundle ←
        match attached with
        | some t => unbundle flag short t
        | none => .ok [(flag, none)]
      let (options, used) ← complete bundle rest
      let o ← o.takeAll options
      consume o filled extras (rest.drop used)
  | first :: rest =>
      let run := first :: rest.takeWhile Argument.isPlain
      if filled then
        consume o filled (extras ++ run.map Argument.plainText) (rest.dropWhile Argument.isPlain)
      else consume (o.takeOperands run) true extras (rest.dropWhile Argument.isPlain)
termination_by arguments => arguments.length
decreasing_by
  · simp
  · simp only [List.length_drop, List.length_cons]
    omega
  all_goals
    have := (List.dropWhile_suffix (l := rest) Argument.isPlain).length_le
    simp only [List.length_cons]
    omega

def parse (arguments : List Text) : Except Stop Options := do
  let arguments ← classifyAll arguments
  consume {} false [] arguments

def usage : String :=
  "usage: eolina [-h] [-c \x7bon,off,auto\x7d] [-v] [-q] [--config FILE]\n" ++
  "              [PROGRAM|PATH] [INPUTS ...]\n"

def help : String :=
  usage ++
  "\n" ++
  "Execute and interpret Eolina programs.\n" ++
  "\n" ++
  "positional arguments:\n" ++
  "  PROGRAM|PATH          a program or path to a file containing a program\n" ++
  "  INPUTS                the inputs to the program, read from stdin if not given\n" ++
  "\n" ++
  "options:\n" ++
  "  -h, --help            show this help message and exit\n" ++
  "  -c \x7bon,off,auto\x7d, --color \x7bon,off,auto\x7d\n" ++
  "                        whether or not to use colored output (default: auto)\n" ++
  "  -v, --verbose         log output verbosity [-v, -vv]\n" ++
  "  -q, --quiet           hide any log messages\n" ++
  "  --config FILE         a YAML file with io settings\n" ++
  "\n" ++
  "'eolina repl' enters an interactive read-eval-print-loop.\n" ++
  "\n" ++
  "exit codes:\n" ++
  "  0    ok\n" ++
  "  1    runtime error\n" ++
  "  2    missing argument/subcommand\n"

def complaint (message : Text) : Text :=
  usage.toList ++ "eolina: error: ".toList ++ message ++ ['\n']

end Options

end QueueScript
