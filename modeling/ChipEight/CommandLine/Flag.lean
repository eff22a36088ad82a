/-!
The flags of the command line, how they are spelled, and the help text made from them.
-/

namespace ChipEight

/-- What can be said on the command line. -/
inductive Flag where
  | help | file | hz | scale | beep
  deriving DecidableEq, Repr

namespace Flag

/-- All flags in the order of the help text. -/
def all : List Flag := [help, file, hz, scale, beep]

/-- The spellings of a flag, a short one first. -/
def spellings : Flag → List String
  | help => ["-h", "--help"]
  | file => ["-f", "--file"]
  | hz => ["--hz"]
  | scale => ["--scale"]
  | beep => ["--beep"]

/-- What stands for the value of a flag in the help text; a flag without one takes no value. -/
def metavar? : Flag → Option String
  | help => none
  | file => some "FILE"
  | hz => some "HZ"
  | scale => some "SCALE"
  | beep => some "BEEP"

/-- The flag must be given. -/
def required : Flag → Bool
  | file => true
  | _ => false

/-- What a flag is for. -/
def summary : Flag → String
  | help => "show this help message and exit"
  | file => "input rom file"
  | hz => "instructions executed per second"
  | scale => "size in pixels of a CHIP-8 pixel"
  | beep => "sound file looped while the buzzer is active"

/-- All spellings of a flag in one word. -/
def label (f : Flag) : String := "/".intercalate f.spellings

/-- Every spelling with its flag. -/
def vocabulary : List (String × Flag) := all.flatMap fun f => f.spellings.map fun s => (s, f)

/-- A spelling followed by what stands for the value. -/
def withMetavar (f : Flag) (spelling : String) : String :=
  match f.metavar? with
  | none => spelling
  | some m => spelling ++ " " ++ m

/-- The flag in the usage line, in brackets if it may be left out. -/
def usage (f : Flag) : String :=
  let text := f.withMetavar (f.spellings.headD "")
  if f.required then text else "[" ++ text ++ "]"

/-- The flag in the list of options; the summaries stand in one column. -/
def helpLine (f : Flag) : String :=
  let spelled := ", ".intercalate (f.spellings.map f.withMetavar)
  let gap := String.ofList (List.replicate (22 - spelled.length) ' ')
  "  " ++ spelled ++ gap ++ f.summary

/-- How the program is called. -/
def usageLine (program : String) : String :=
  "usage: " ++ program ++ " " ++ " ".intercalate (all.map usage)

/-- The lines of the help text. -/
def helpLines (program : String) : List String :=
  [usageLine program, "", "CHIP-8 emulator", "", "options:"] ++ all.map helpLine

end Flag

end ChipEight
