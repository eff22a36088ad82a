import ChipEight.Console
import ChipEight.Settings

/-!
The command line. The state of the program is the host; this layer reads the clock, the input and
the program file, and shows the effects.
-/

namespace ChipEight.Main

/-- The name of the program in its messages. -/
def program : String := "chip8"

/-- Seconds on the clock. -/
def now : IO Float := do
  return (← IO.monoNanosNow).toFloat / 1000000000

/-- An error of the system about a path. -/
def fileError (path : String) : IO.Error → FileError
  | .alreadyExists _ code words | .interrupted _ code words | .noFileOrDirectory _ code words
  | .invalidArgument _ code words | .permissionDenied _ code words
  | .resourceExhausted _ code words | .inappropriateType _ code words | .noSuchThing _ code words
  | .otherError code words | .resourceBusy code words | .resourceVanished code words
  | .unsupportedOperation code words | .hardwareFault code words
  | .unsatisfiedConstraints code words | .illegalOperation code words | .protocolError code words
  | .timeExpired code words => .numbered code.toNat words path
  | .unexpectedEof => .worded "end of file"
  | .userError words => .worded words

/-- What is read under a path at this moment. -/
def readFile (path : String) : IO (Except FileError (List Byte)) := do
  try
    return .ok (← IO.FS.readBinFile path).toList
  catch e =>
    return .error (fileError path e)

/-- The bytes of the program file that is given. -/
def readRom (file : Given String) : IO (Except RomError (List Byte)) := do
  let content ← readFile (file.value?.getD "")
  return Rom.readGiven (fun _ => content) file

/-- A clock that counts with doubles paces frames at a number that has a double. -/
def pace : Given Int → Except PaceError Unit
  | .nothing => .error .notANumber
  | .value hz => do
      let _ ← (Double.ofRate (.whole hz)).mapError fun _ => PaceError.tooLarge

/-- Prints lines and what effects show. -/
def emit (printed : List String) (effects : List (Effect Surface)) : IO Unit := do
  for line in printed do
    IO.println line
  for text in effects.filterMap Console.display do
    IO.println text

/-- Tells how a run has ended and gives the exit code. -/
def conclude : Ending → IO UInt32
  | .returned => return 0
  | .abandoned text => do
      IO.eprintln text
      return 1
  | .notRun .help => do
      for line in Flag.helpLines program do
        IO.println line
      return 0
  | .notRun (.refused e) => do
      for line in e.report program do
        IO.eprintln line
      return 2
  | .unreadable e => do
      IO.eprintln e.message
      return 1
  | .windowless e => do
      IO.eprintln e.message
      return 1
  | .unpaced e => do
      IO.eprintln e.message
      return 1
  | .broken f => do
      IO.eprintln f.message
      return 1

/-- Runs a frame for each line of input, and a request to quit after the last. -/
partial def frames (host : Host Surface) (tracing : Bool) (hz : Given Int) : IO UInt32 := do
  let line ← (← IO.getStdin).getLine
  let heard := if line.isEmpty then [.quit] else Console.frameOfLine line
  let events ← heard.mapM fun event => return (⟨event, ← now⟩ : TimedEvent)
  let number ← IO.rand 0 255
  let played := host.frame ⟨tracing, hz, fun _ => number⟩ ⟨events, ← now⟩
  emit played.printed played.effects
  match played.ending with
  | some ending => conclude ending
  | none => frames played.host tracing hz

end ChipEight.Main

open ChipEight in
def main (argv : List String) : IO UInt32 := do
  match Settings.tracing (← IO.getEnv "DEBUG") with
  | .error e =>
      IO.eprintln e.message
      return 1
  | .ok tracing =>
      match Arguments.parse argv with
      | .error reason => Main.conclude (.notRun reason)
      | .ok args =>
          let rom ← Main.readRom args.file
          Main.emit (Rom.printed tracing (Host.filePath args) rom) []
          match Host.boot args rom (Machine.start (← Main.now)) >>= Host.setUp .words args with
          | .error ending => Main.conclude ending
          | .ok (host, effects) =>
              Main.emit [] effects
              match Main.pace args.hz with
              | .error e => Main.conclude (.unpaced e)
              | .ok () => Main.frames host tracing args.hz
