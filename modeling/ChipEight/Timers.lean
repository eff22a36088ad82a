import ChipEight.Clock

/-!
The delay and the sound timer. Both count down to zero at a fixed rate of real time: an update adds
the time since the last one to what is left over, applies the whole ticks in it and keeps the
rest. The timers themselves never go below zero, and time that runs backwards applies no tick.
-/

namespace ChipEight

/-- Two timers, their rate, the last reading of the clock and the time not yet turned into ticks. -/
structure Timers (time rate : Type) where
  rate : rate
  delay : Int
  sound : Int
  last : time
  elapsed : time

namespace Timers

variable {time rate : Type}

/-- Ticks in a second on the machine. -/
def machineRate : Int := 60

/-- Both timers at zero, the clock just read. -/
def start [Clockwork time rate] (hz : rate) (now : time) : Timers time rate :=
  ⟨hz, 0, 0, now, Clockwork.zero rate⟩

/-- Counts both timers down, not below zero. -/
def tick (t : Timers time rate) (n : Int) : Timers time rate :=
  { t with delay := max 0 (t.delay - n), sound := max 0 (t.sound - n) }

/-- Accounts for the time since the last reading and gives the number of ticks found in it. The
reading is taken down even where the ticks cannot be told. -/
def update [Clockwork time rate] (t : Timers time rate) (now : time) :
    Timers time rate × Except ClockFault Int :=
  let elapsed := Clockwork.add rate t.elapsed (Clockwork.sub rate now t.last)
  let read := { t with last := now, elapsed := elapsed }
  match Clockwork.ticks elapsed t.rate with
  | .error fault => (read, .error fault)
  | .ok ticks =>
      if 0 < ticks then
        let rest := Clockwork.sub rate elapsed (Clockwork.span ticks t.rate)
        ({ read with elapsed := rest }.tick ticks, .ok ticks)
      else
        (read, .ok ticks)

end Timers

end ChipEight
