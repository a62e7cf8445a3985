import Std.Time.Zoned.Database
import WhereEditor.Shell

/-!
The program: a session over standard input and output, with the settings file named by the first
argument.
-/

namespace WhereEditor.Terminal

/-- The time now and the offset of the local time zone, which is UTC where none is configured. -/
def systemClock : IO Clock := do
  let now ← Std.Time.Timestamp.now
  let offset ←
    try
      let rules ← Std.Time.Database.defaultGetLocalZoneRules
      pure (rules.timezoneAt now).offset.second.val
    catch _ => pure 0
  let sinceEpoch := now.toNanosecondsSinceUnixEpoch.val
  return { now := ⟨sinceEpoch / Instant.billion, (sinceEpoch % Instant.billion).toNat⟩, offset }

def readSettings (path : String) : IO (Except LoadError Settings) := do
  try
    return Settings.load (some (← IO.FS.readBinFile path))
  catch
    | .noFileOrDirectory .. => return .error .missing
    | _ => return .error .unreadable

partial def answerLines (input output : IO.FS.Stream) (draft : Draft) : IO Nat := do
  let line ← input.getLine
  if line.isEmpty then return 0
  match Shell.typed? line.toList with
  | none => return Shell.failureCode
  | some line =>
      let (text, changed) := Shell.respond (← systemClock) draft line
      output.putStr text
      output.flush
      match changed with
      | some draft => answerLines input output draft
      | none => return 0

def run (arguments : List String) : IO Nat := do
  let path := arguments.headD Shell.defaultPath
  let loaded ← readSettings path
  let output ← IO.getStdout
  output.putStr (Shell.greeting path loaded)
  output.flush
  answerLines (← IO.getStdin) output (Shell.start loaded)

end WhereEditor.Terminal

def main (arguments : List String) : IO UInt32 := do
  return UInt32.ofNat (← WhereEditor.Terminal.run arguments)
