import ChipEight.Text.DecimalDigit
import ChipEight.Text.Quoted

/-!
Reading an integer from text. Blanks around it are dropped, one sign may stand in front, digits may
come from any script, and single underscores may stand between digits. Very long numbers are
refused.
-/

namespace ChipEight

/-- Why a text is not read as an integer. -/
inductive IntegerError where
  | malformed (text : String)
  | tooManyDigits (count : Nat)
  deriving DecidableEq, Repr

namespace IntegerText

/-- How many digits a number may have. -/
def digitLimit : Nat := 4300

/-- The characters that may stand around a number. -/
def isBlank (c : Char) : Bool :=
  let n := c.toNat
  (9 ≤ n && n ≤ 13) || n == 0x20 || n == 0x85 || n == 0xA0 || n == 0x1680 ||
    (0x2000 ≤ n && n ≤ 0x200A) || n == 0x2028 || n == 0x2029 || n == 0x202F || n == 0x205F ||
    n == 0x3000

/-- The character may stand inside a number. -/
def isNumeral (c : Char) : Bool := c == '_' || (DecimalDigit.value? c).isSome

/-- The values of digits between which single underscores may stand; `afterDigit` tells whether an
underscore may come next. -/
def digits : (afterDigit : Bool) → List Char → Option (List Nat)
  | afterDigit, [] => if afterDigit then some [] else none
  | afterDigit, c :: cs =>
      match DecimalDigit.value? c with
      | some d => (digits true cs).map (d :: ·)
      | none => if c == '_' && afterDigit then digits false cs else none

/-- The number that digits stand for, the highest first. -/
def value (ds : List Nat) : Nat := ds.foldl (fun n d => 10 * n + d) 0

/-- The sign in front of a number and what follows it. -/
def signed : List Char → Bool × List Char
  | '-' :: cs => (true, cs)
  | '+' :: cs => (false, cs)
  | cs => (false, cs)

/-- The integer that a text stands for. -/
def read (text : String) : Except IntegerError Int :=
  let (negative, body) := signed (text.toList.dropWhile isBlank)
  match digits false (body.takeWhile isNumeral) with
  | none => .error (.malformed text)
  | some ds =>
      if ds.length > digitLimit then .error (.tooManyDigits ds.length)
      else if (body.dropWhile isNumeral).all isBlank then
        .ok (if negative then -(value ds : Int) else value ds)
      else .error (.malformed text)

end IntegerText

/-- The wording of an integer error. Only the beginning of a long text is shown. -/
def IntegerError.message : IntegerError → String
  | malformed text =>
      "invalid literal for int() with base 10: " ++
        String.ofList ((Quoted.literal text).toList.take 200)
  | tooManyDigits count =>
      s!"Exceeds the limit ({IntegerText.digitLimit} digits) for integer string conversion: " ++
        s!"value has {count} digits; use sys.set_int_max_str_digits() to increase the limit"

end ChipEight
