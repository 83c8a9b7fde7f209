import QueueScript.CommandLine.Basic

/-! # The program

The outer layer of the command: it reads the arguments, the files they name and the lines of
input, and shows what `CommandLine.start` has written.

The command is a function of its input. When it breaks off because a line is missing, the line is
read and the command is run again on the longer input; what was shown before is not shown again.
-/

namespace QueueScript.Main

/-- Shows an event on the stream it belongs to. -/
def emit (color : Bool) (event : Event) : IO Unit := do
  let out ← IO.getStdout
  let err ← IO.getStderr
  out.putStr (String.ofList event.out)
  out.flush
  err.putStr (String.ofList (event.errWithLog color))
  err.flush

/-- Why a path cannot be read, in the words of the system. -/
def reason (path : Text) (error : IO.Error) : Text :=
  let words (code : UInt32) (details : String) : Text :=
    "[Errno ".toList ++ Text.ofNat code.toNat ++ "] ".toList ++ details.toList ++ ": ".toList ++
      Text.cite (Directory.normalPath path)
  match error with
  | .noFileOrDirectory _ code details => words code details
  | .permissionDenied _ code details | .inappropriateType _ code details => words code details
  | error => error.toString.toList

def isFile (path : Text) : IO Bool := do
  let found ← IO.FS.realPath (String.ofList path)
  return (← found.metadata).type == .file

def look (path : Text) : IO Entry := do
  if path.contains '\x00' then return .invalidPath
  match ← (IO.FS.readBinFile (String.ofList path)).toBaseIO with
  | .ok bytes => return .file bytes
  | .error error =>
      match ← (isFile path).toBaseIO with
      | .ok true => return .unreadable (reason path error)
      | _ => return .absent (reason path error)

/-- What the paths in the arguments lead to. -/
def readFiles (arguments : List Text) : IO Directory := do
  let paths :=
    match Options.parse arguments with
    | .ok o => o.config.toList ++ o.program.toList
    | .error _ => []
  let entries ← paths.mapM fun path => return (path, ← look path)
  return ⟨fun path => (entries.lookup path).getD (.absent [])⟩

def exitCode : CommandLine.Ending → UInt32
  | .exit code => code.toUInt32
  | .interrupted | .crash _ => 1

/-- Runs the command, with `shown` events shown already, until it needs no further line. -/
partial def serve (invocation : CommandLine.Invocation) (shown : Nat) : IO UInt32 := do
  let (ending, console) := CommandLine.start invocation
  for event in console.events.drop shown do
    emit console.settings.color event
  match ending with
  | .interrupted =>
      let line ← (← IO.getStdin).getLine
      let inputEnd := if line.isEmpty then .endOfFile else .failure .interrupted
      serve { invocation with input := invocation.input ++ line.toList, inputEnd }
        console.events.length
  | ending => return exitCode ending

end QueueScript.Main

def main (arguments : List String) : IO UInt32 := do
  let arguments := arguments.map String.toList
  let directory ← QueueScript.Main.readFiles arguments
  let terminal ← (← IO.getStderr).isTty
  QueueScript.Main.serve { arguments, inputEnd := .failure .interrupted, directory, terminal } 0
