/-!
The buzzer of the host. It follows the machine's signal and plays a looped sound while the signal is
on, so the sound is started and stopped only where the signal changes. A buzzer may have no sound.
-/

namespace ChipEight

/-- What a sound is told to do. -/
inductive SoundCall where
  /-- Play in a loop without end. -/
  | play
  | stop
  deriving DecidableEq, Repr

/-- Whether there is a sound, and the last signal. -/
structure Buzzer where
  hasSound : Bool
  active : Bool
  deriving DecidableEq, Repr

namespace Buzzer

/-- A buzzer that is off. -/
def silent (hasSound : Bool) : Buzzer := ⟨hasSound, false⟩

/-- Follows the signal and gives what the sound is told. -/
def update (b : Buzzer) (signal : Bool) : Buzzer × List SoundCall :=
  if signal = b.active then (b, [])
  else
    let calls := if b.hasSound then [if signal then .play else .stop] else []
    ({ b with active := signal }, calls)

end Buzzer

end ChipEight
