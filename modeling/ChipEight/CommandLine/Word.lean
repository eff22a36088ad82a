import ChipEight.CommandLine.Flag
import ChipEight.Text.DecimalDigit

/-!
The words of a command line. A word is a flag in full, a flag with a value attached to it, the
unique beginning of a long flag, the mark after which no flags come, or a value. A word that
begins with a dash is a value only if it looks like a negative number or holds a space.
-/

namespace ChipEight

/-- A value written in the same word as its flag. -/
structure Attachment where
  /-- The flag is spelled with one letter, so the text may be read as more letters. -/
  short : Bool
  text : List Char
  deriving DecidableEq, Repr

/-- What a word of the command line is. -/
inductive Word where
  | value
  /-- Two dashes; only values follow. -/
  | separator
  | flag (flag : Flag) (attached : Option Attachment)
  /-- It looks like a flag and is none. -/
  | unknown
  deriving DecidableEq, Repr

namespace Word

/-- The flag with exactly this spelling. -/
def spelled? (word : List Char) : Option Flag := Flag.vocabulary.lookup (String.ofList word)

/-- A word before its first equals sign, and after it if there is one. -/
def splitEquals (word : List Char) : List Char × Option (List Char) :=
  (word.takeWhile (· != '='), (word.dropWhile (· != '=')).tail?)

/-- A dash and digits, perhaps with a point before the last of them; one line end may follow. -/
def looksNegative : List Char → Bool
  | '-' :: cs =>
      let body := if cs.getLast? = some '\n' then cs.dropLast else cs
      let isDigit (c : Char) := (DecimalDigit.value? c).isSome
      let decimals (ds : List Char) := !ds.isEmpty && ds.all isDigit
      decimals body ||
        match body.dropWhile isDigit with
        | '.' :: ds => decimals ds
        | _ => false
  | _ => false

/-- The flags a word may mean by a beginning of a long spelling or by a short spelling with the
value right behind it, each with its spelling. -/
def candidates (word : List Char) : List (String × Flag × Option Attachment) :=
  match word with
  | '-' :: '-' :: _ =>
      let (front, back) := splitEquals word
      let attached := back.map fun text => Attachment.mk false text
      (Flag.vocabulary.filter fun (s, _) => front.isPrefixOf s.toList).map fun (s, f) =>
        (s, f, attached)
  | d :: c :: rest =>
      (Flag.vocabulary.filter fun (s, _) => s.toList = [d, c]).map fun (s, f) =>
        (s, f, some ⟨true, rest⟩)
  | _ => []

/-- What a word is, or the spellings it leaves open. -/
def classify (word : List Char) : Except (List String) Word :=
  if word.head? ≠ some '-' then .ok .value
  else
    match spelled? word with
    | some f => .ok (.flag f none)
    | none =>
      if word.length = 1 then .ok .value
      else
        match splitEquals word with
        | (front, some text) =>
            match spelled? front with
            | some f => .ok (.flag f (some ⟨front.length = 2, text⟩))
            | none => guess word
        | (_, none) => guess word
where
  /-- The only flag the word may mean, if it may mean one. -/
  guess (word : List Char) : Except (List String) Word :=
    match candidates word with
    | [(_, f, attached)] => .ok (.flag f attached)
    | [] => .ok (if looksNegative word || word.contains ' ' then .value else .unknown)
    | several => .error (several.map (·.1))

end Word

end ChipEight
