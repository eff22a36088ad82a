/-!
The arithmetic a timer counts with. A clock gives readings of some type, a rate says how many ticks
make up a unit of time, and `Clockwork` asks for the few operations that counting needs, so that
the same timers run on rounded and on exact numbers. Turning time into ticks can fail.
-/

namespace ChipEight

/-- Why a span of time is no number of ticks. -/
inductive ClockFault where
  | infinite
  | notANumber
  | rateTooLarge
  deriving DecidableEq, Repr

/-- The wording of a clock fault. -/
def ClockFault.message : ClockFault → String
  | infinite => "cannot convert float infinity to integer"
  | notANumber => "cannot convert float NaN to integer"
  | rateTooLarge => "int too large to convert to float"

/-- Numbers that measure time, and rates that turn it into ticks. -/
class Clockwork (time rate : Type) where
  zero : time
  add : time → time → time
  sub : time → time → time
  /-- The whole ticks in a span of time, rounded toward zero. -/
  ticks : time → rate → Except ClockFault Int
  /-- The time that a number of ticks takes. -/
  span : Int → rate → time

end ChipEight
