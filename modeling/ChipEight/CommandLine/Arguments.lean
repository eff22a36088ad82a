import ChipEight.CommandLine.Given
import ChipEight.CommandLine.Word
import ChipEight.Text.Integer

/-!
Reading the command line. Words are first classified one by one; then flags take their values from
left to right, and what nobody takes is collected. A call for help ends the reading at its place, so
only mistakes to the left of it are reported, save an ambiguous word, which is noticed anywhere.
-/

namespace ChipEight

/-- What the user asked for. -/
structure Arguments where
  file : Given String
  hz : Given Int
  scale : Given Int
  beep : Option (Given String)
  deriving DecidableEq, Repr

/-- Why a command line is refused. -/
inductive UsageError where
  | ambiguous (word : String) (spellings : List String)
  | missingValue (flag : Flag)
  | unwantedValue (flag : Flag) (value : String)
  | notAnInteger (flag : Flag) (value : String)
  | missingFlags (flags : List Flag)
  | unrecognized (words : List String)
  deriving DecidableEq, Repr

/-- The wording of a usage error. -/
def UsageError.message : UsageError → String
  | ambiguous word spellings =>
      "ambiguous option: " ++ word ++ " could match " ++ ", ".intercalate spellings
  | missingValue flag => "argument " ++ flag.label ++ ": expected one argument"
  | unwantedValue flag value =>
      "argument " ++ flag.label ++ ": ignored explicit argument " ++ Quoted.literal value
  | notAnInteger flag value =>
      "argument " ++ flag.label ++ ": invalid int value: " ++ Quoted.literal value
  | missingFlags flags =>
      "the following arguments are required: " ++ ", ".intercalate (flags.map Flag.label)
  | unrecognized words => "unrecognized arguments: " ++ " ".intercalate words

/-- The lines shown when a command line is refused. -/
def UsageError.report (program : String) (e : UsageError) : List String :=
  [Flag.usageLine program, program ++ ": error: " ++ e.message]

/-- Why the program is not to be run. -/
inductive NoRun where
  | help
  | refused (error : UsageError)
  deriving DecidableEq, Repr

namespace Arguments

/-- Instructions per second unless told otherwise. -/
def standardHz : Int := 500

/-- Surface pixels to a pixel unless told otherwise. -/
def standardScale : Int := 15

/-- What has been read so far. -/
structure Draft where
  file : Option (Given String)
  hz : Given Int
  scale : Given Int
  beep : Option (Given String)
  /-- Words that nobody took. -/
  extras : List String

/-- Nothing has been read. -/
def Draft.empty : Draft := ⟨none, .value standardHz, .value standardScale, none, []⟩

/-- Reads what a flag is given as an integer. -/
def integer (flag : Flag) : Given String → Except NoRun (Given Int)
  | .nothing => .ok .nothing
  | .value text =>
      match IntegerText.read text with
      | .ok v => .ok (.value v)
      | .error _ => .error (.refused (.notAnInteger flag text))

/-- Notes down what a flag is given. -/
def Draft.set (d : Draft) (flag : Flag) (given : Given String) : Except NoRun Draft :=
  match flag with
  | .help => .error .help
  | .file => .ok { d with file := some given }
  | .hz => (integer flag given).map fun v => { d with hz := v }
  | .scale => (integer flag given).map fun v => { d with scale := v }
  | .beep => .ok { d with beep := some given }

/-- The letters behind a short call for help are short flags of their own: more calls for help and
then perhaps a flag with its value, which may be the next word. Anything else is unwanted. -/
def helpTail (valueFollows : Bool) : List Char → NoRun
  | ['h'] => .help
  | 'h' :: rest => helpTail valueFollows rest
  | ['f'] => if valueFollows then .help else .refused (.missingValue .file)
  | 'f' :: _ => .help
  | text => .refused (.unwantedValue .help (String.ofList text))

/-- What a call for help leads to. -/
def callHelp (attached : Option Attachment) (valueFollows : Bool) : NoRun :=
  match attached with
  | none => .help
  | some ⟨true, text⟩ => helpTail valueFollows text
  | some ⟨false, text⟩ => .refused (.unwantedValue .help (String.ofList text))

/-- The next word is a value. -/
def valueFollows : List (String × Word) → Bool
  | (_, .value) :: _ => true
  | _ => false

/-- Lets the flags take their values from left to right. -/
def collect (d : Draft) : List (String × Word) → Except NoRun Draft
  | [] => .ok d
  | (_, .flag .help attached) :: rest => .error (callHelp attached (valueFollows rest))
  | (_, .flag f (some a)) :: rest => do
      collect (← d.set f (Given.attached (String.ofList a.text))) rest
  | (_, .flag f none) :: (text, .value) :: rest => do collect (← d.set f (.value text)) rest
  | (_, .flag f none) :: _ => .error (.refused (.missingValue f))
  | (word, _) :: rest => collect { d with extras := d.extras ++ [word] } rest

/-- Classifies every word; behind the separator all are values. -/
def classify : List String → Except NoRun (List (String × Word))
  | [] => .ok []
  | w :: rest =>
      if w = Given.separator then .ok ((w, .separator) :: rest.map fun v => (v, .value))
      else
        match Word.classify w.toList with
        | .error spellings => .error (.refused (.ambiguous w spellings))
        | .ok word => (classify rest).map ((w, word) :: ·)

/-- Reads a command line. -/
def parse (argv : List String) : Except NoRun Arguments := do
  let d ← collect Draft.empty (← classify argv)
  match d.file with
  | none => .error (.refused (.missingFlags [.file]))
  | some file =>
      if d.extras.isEmpty then .ok ⟨file, d.hz, d.scale, d.beep⟩
      else .error (.refused (.unrecognized d.extras))

end Arguments

end ChipEight
