import ChipEight.Clock

/-!
Time in double precision. Sums, differences and products are those of the format, each rounded
once. Two operations are stated on the bits of a double: the integer part of a double, and the
double nearest to a quotient of integers, where a half goes to the even neighbour.
-/

namespace ChipEight

/-- Ticks in a unit of time: a whole number of any size, or a double. -/
inductive Rate where
  | whole (n : Int)
  | real (x : Float)

namespace Double

/-- The fraction field of a double. -/
def fraction (x : Float) : Nat := x.toBits.toNat % Nat.pow 2 52

/-- The exponent field of a double, 2047 where the double is not a number of finite size. -/
def exponent (x : Float) : Nat := x.toBits.toNat / Nat.pow 2 52 % Nat.pow 2 11

/-- The sign bit of a double. -/
def negative (x : Float) : Bool := x.toBits.toNat / Nat.pow 2 63 == 1

/-- The magnitude of a finite double without its fractional part. -/
def wholePart (x : Float) : Nat :=
  if exponent x = 0 then 0
  else (Nat.pow 2 52 + fraction x) * Nat.pow 2 (exponent x) / Nat.pow 2 1075

/-- The integer next to a double on the side of zero. -/
def truncate (x : Float) : Except ClockFault Int :=
  if exponent x = 2047 then
    .error (if fraction x = 0 then .infinite else .notANumber)
  else
    .ok (if negative x then -(wholePart x : Int) else wholePart x)

/-- The integer nearest to a quotient; a half goes to the even neighbour. -/
def roundHalfEven (num den : Nat) : Nat :=
  let q := num / den
  let r := num % den
  if 2 * r < den ∨ (2 * r = den ∧ q % 2 = 0) then q else q + 1

/-- The double nearest to `num / den`, where neither is zero. The grid of doubles near the quotient
has the spacing `2 ^ (e - 1075)`, and the bits of a double count the points of its grid. -/
def ofQuotient (num den : Nat) : Float :=
  let coarse : Int := 1075 + num.log2 - den.log2 - 53
  let onGrid (e : Int) : Nat :=
    roundHalfEven (num * Nat.pow 2 (1075 - e).toNat) (den * Nat.pow 2 (e - 1075).toNat)
  let small (e : Int) : Bool :=
    num * Nat.pow 2 (1075 - e).toNat < Nat.pow 2 53 * (den * Nat.pow 2 (e - 1075).toNat)
  let e : Int := max 1 (if small coarse then coarse else coarse + 1)
  let bits := (e.toNat - 1) * Nat.pow 2 52 + onGrid e
  Float.ofBits (UInt64.ofNat (min bits 0x7FF0000000000000))

/-- The double nearest to a quotient of integers, where the divisor is not zero. -/
def quotient (num den : Int) : Float :=
  if num = 0 then 0
  else
    let q := ofQuotient num.natAbs den.natAbs
    if (num < 0) == (den < 0) then q else -q

/-- A rate as a double. -/
def ofRate : Rate → Except ClockFault Float
  | .real x => .ok x
  | .whole n =>
      let x := Float.ofInt n
      if exponent x = 2047 then .error .rateTooLarge else .ok x

instance clockwork : Clockwork Float Rate where
  zero := 0
  add := (· + ·)
  sub := (· - ·)
  ticks elapsed rate := do truncate (elapsed * (← ofRate rate))
  span n
    | .whole rate => quotient n rate
    | .real rate => Float.ofInt n / rate

end Double

end ChipEight
