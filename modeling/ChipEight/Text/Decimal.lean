/-!
Decimal fractions as text. A fraction is written out while its point stands near its digits, and
otherwise as digits and a power of ten; either way it can be told from an integer.
-/

namespace ChipEight

/-- A decimal fraction: a sign, which zero has too, and digits as a number, the last `decimals` of
them behind the point. -/
structure Decimal where
  negative : Bool
  digits : Nat
  decimals : Nat
  deriving DecidableEq, Repr

namespace Decimal

/-- A point at most this far behind the first digit is written where it stands. -/
def pointLimit : Int := 16

/-- A point more than this far before the first digit is not written where it stands. -/
def zeroLimit : Int := 3

/-- The digits without zeros at their end. -/
def significant (d : Decimal) : List Char :=
  ((Nat.toDigits 10 d.digits).reverse.dropWhile (· == '0')).reverse

/-- How far behind the first digit the point stands. -/
def point (d : Decimal) : Int := (Nat.toDigits 10 d.digits).length - (d.decimals : Int)

/-- Digits with a point among them, filled up with zeros on either side. -/
def writtenOut (digits : List Char) (point : Int) : List Char :=
  let whole := digits.take point.toNat ++ List.replicate (point.toNat - digits.length) '0'
  let decimals := List.replicate (-point).toNat '0' ++ digits.drop point.toNat
  let orZero (cs : List Char) := if cs.isEmpty then ['0'] else cs
  orZero whole ++ '.' :: orZero decimals

/-- A power of ten, with a sign and at least two digits. -/
def exponent (e : Int) : List Char :=
  let digits := Nat.toDigits 10 e.natAbs
  (if e < 0 then '-' else '+') :: (List.replicate (2 - digits.length) '0' ++ digits)

/-- The first digit, the others behind a point, and the power of ten. -/
def scaled (digits : List Char) (point : Int) : List Char :=
  let others := digits.drop 1
  digits.take 1 ++ (if others.isEmpty then [] else '.' :: others) ++ 'e' :: exponent (point - 1)

/-- The fraction as it is written. -/
def text (d : Decimal) : String :=
  let sign := if d.negative then ['-'] else []
  let digits := d.significant
  let body :=
    if digits.isEmpty then writtenOut [] 0
    else if -zeroLimit ≤ d.point ∧ d.point ≤ pointLimit then writtenOut digits d.point
    else scaled digits d.point
  String.ofList (sign ++ body)

end Decimal

end ChipEight
