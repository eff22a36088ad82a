import ChipEight.Host

/-!
The host on a terminal. A line of input holds the events of one frame as words, `down` and `up`
before a key code, `quit` alone; the window is shown as text whenever it is flipped, and the sound
is a bell.
-/

namespace ChipEight.Console

/-- The events in the words of a line; a word that is no event is passed over. -/
def events : List String → List Event
  | "quit" :: rest => .quit :: events rest
  | "down" :: code :: rest => keyed Event.keyDown code (events rest)
  | "up" :: code :: rest => keyed Event.keyUp code (events rest)
  | _ :: rest => events rest
  | [] => []
where
  /-- An event about a key, if the word is a key code. -/
  keyed (event : Int → Event) (code : String) (later : List Event) : List Event :=
    match IntegerText.read code with
    | .ok key => event key :: later
    | .error _ => later

/-- The words of a line, which blanks set apart. -/
def words (line : String) : List String :=
  let runs := line.toList.splitBy fun a b => IntegerText.isBlank a == IntegerText.isBlank b
  (runs.filter fun run => !run.all IntegerText.isBlank).map String.ofList

/-- The events in a line. -/
def frameOfLine (line : String) : List Event := events (words line)

/-- The picture in a window. -/
def picture (w : Window Surface) : String :=
  let line (row : List Bool) := String.ofList (row.map fun lit => if lit then '#' else '.')
  "\n".intercalate (w.shown.map line)

/-- What an effect shows on the terminal. -/
def display : Effect Surface → Option String
  | .flip w => some (picture w)
  | .sound .play => some "\x07"
  | _ => none

end ChipEight.Console
