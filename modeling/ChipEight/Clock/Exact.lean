import ChipEight.Clock

/-!
Time in exact numbers. Readings and rates are fractions, and no sum, product or quotient is rounded.
-/

namespace ChipEight.Exact

/-- The integer next to a fraction on the side of zero. -/
def truncate (q : Rat) : Int := q.num.tdiv q.den

instance clockwork : Clockwork Rat Rat where
  zero := 0
  add := (· + ·)
  sub := (· - ·)
  ticks elapsed rate := .ok (truncate (elapsed * rate))
  span n rate := n / rate

end ChipEight.Exact
