import ChipEight.Proofs.Cycle

/-!
The place in the sequence of random numbers. A machine counts the random numbers it has used only in
order to take the next one, so what it does hangs on the numbers that come and not on how many came
before. `shift` puts a machine further on in its sequence, `after` puts the sequence further on, and
a machine whose sequence has been moved along with it goes through the same cycles (`cycle_shift`).
-/

namespace ChipEight

/-- The same surroundings for a machine that has used some random numbers before: the sequence
starts behind them. -/
def Surroundings.after (used : Nat) (env : Surroundings) : Surroundings :=
  { env with random := fun n => env.random (n - used) }

namespace Machine

/-- The machine with so many more random numbers used before. -/
def shift (m : Machine) (used : Nat) : Machine := { m with randoms := m.randoms + used }

/-- The machine with its random numbers counted from a later one on. -/
def since (m : Machine) (used : Nat) : Machine := { m with randoms := m.randoms - used }

end Machine

/-- The outcome with so many more random numbers used before. -/
def Outcome.shift (o : Outcome) (used : Nat) : Outcome := { o with machine := o.machine.shift used }

namespace Machine

@[simp] theorem since_shift (m : Machine) (used : Nat) : (m.shift used).since used = m := by
  rw [shift, since, Nat.add_sub_cancel]

theorem shift_shift (m : Machine) (used more : Nat) :
    (m.shift used).shift more = m.shift (used + more) := by
  rw [shift, shift, shift, Nat.add_assoc]

/-- Every machine is one that has used no random number, put further on. -/
theorem shift_since (m : Machine) : (m.since m.randoms).shift m.randoms = m := by
  rw [shift, since, Nat.sub_self, Nat.zero_add]

section

variable {m : Machine} {used : Nat}

theorem skipIf_shift (condition : Bool) :
    (m.shift used).skipIf condition = (m.skipIf condition).shift used := by
  cases condition <;> rfl

theorem poised_shift (keys : Keys) : (m.shift used).poised keys = (m.poised keys).shift used := by
  unfold poised
  change ((m.shift used).resume (m.awaitedKey keys)).advance = _
  rcases m.awaitedKey keys with _ | key <;> rfl

theorem assignRandom_shift (random : Nat → Int) (x : Fin 16) (mask : Int) :
    (m.shift used).assignRandom (fun n => random (n - used)) x mask =
      (m.assignRandom random x mask).shift used := by
  unfold assignRandom shift assign
  simp only [Nat.add_sub_cancel, Nat.add_right_comm]

/-- An instruction takes the next random number, wherever the machine stands in its sequence. -/
theorem execute_shift (env : Surroundings) (i : Instruction) :
    (m.shift used).execute (env.after used).keys (env.after used).random i =
      (m.execute env.keys env.random i).map (·.shift used) := by
  unfold execute
  cases i.operation
  case ret =>
    change (m.stack.pop >>= _) = ((m.stack.pop >>= _).map _)
    rcases m.stack.pop with f | ⟨address, stack⟩ <;> rfl
  case call =>
    change (m.stack.push m.pc >>= _) = ((m.stack.push m.pc >>= _).map _)
    rcases m.stack.push m.pc with f | stack <;> rfl
  case skipEqByte | skipNeByte | skipEqReg | skipNeReg | skipPressed | skipReleased =>
    exact congrArg Except.ok (skipIf_shift _)
  case random => exact congrArg Except.ok (assignRandom_shift ..)
  all_goals rfl

theorem perform_shift (tracing : Bool) (env : Surroundings) (i : Instruction) :
    (m.shift used).perform tracing (env.after used) i = (m.perform tracing env i).shift used := by
  unfold perform
  rw [execute_shift]
  rcases m.execute env.keys env.random i with f | m' <;> rfl

theorem step_shift (tracing : Bool) (env : Surroundings) :
    (m.shift used).step tracing (env.after used) = (m.step tracing env).shift used := by
  by_cases hidle : m.Idle env.keys
  · rw [step_of_idle hidle]
    exact step_of_idle (m := m.shift used) hidle
  rcases hcode : decode m.fetch with _ | i
  · rw [step_of_decode_none hidle hcode]
    exact step_of_decode_none (m := m.shift used) hidle hcode
  have hbusy : ¬ (m.shift used).Idle (env.after used).keys := hidle
  have hshift : ((m.shift used).poised env.keys).execute (env.after used).keys
      (env.after used).random i =
        ((m.poised env.keys).execute env.keys env.random i).map (·.shift used) := by
    rw [poised_shift]
    exact execute_shift env i
  rcases hexec : (m.poised env.keys).execute env.keys env.random i with f | m'
  · rw [hexec] at hshift
    rw [step_of_error hidle hcode hexec]
    calc (m.shift used).step tracing (env.after used)
        = ⟨(m.shift used).poised env.keys, ((m.shift used).poised env.keys).trace tracing i,
            some (.fault f)⟩ := step_of_error (m := m.shift used) hbusy hcode hshift
      _ = _ := by rw [poised_shift]; rfl
  · rw [hexec] at hshift
    rw [step_of_ok hidle hcode hexec]
    calc (m.shift used).step tracing (env.after used)
        = ⟨(m'.shift used).gateBuzzer, ((m.shift used).poised env.keys).trace tracing i, none⟩ :=
          step_of_ok (m := m.shift used) hbusy hcode hshift
      _ = _ := by rw [poised_shift]; rfl

/-- A cycle goes the same way, wherever the machine stands in its sequence of random numbers. -/
theorem cycle_shift (tracing : Bool) (env : Surroundings) :
    (m.shift used).cycle tracing (env.after used) = (m.cycle tracing env).shift used := by
  rcases hclock : (m.timers.update env.now).2 with f | k
  · rw [cycle_of_error hclock]
    exact cycle_of_error (m := m.shift used) hclock
  · rw [cycle_of_ok hclock]
    calc (m.shift used).cycle tracing (env.after used)
        = ((m.ticked env.now).shift used).step tracing (env.after used) :=
          cycle_of_ok (m := m.shift used) hclock
      _ = ((m.ticked env.now).step tracing env).shift used := step_shift tracing env

theorem outcomes_shift (tracing : Bool) (envs : List Surroundings) :
    (m.shift used).outcomes tracing (envs.map (·.after used)) =
      (m.outcomes tracing envs).map (·.shift used) := by
  induction envs generalizing m with
  | nil => rfl
  | cons env envs ih =>
    rw [List.map_cons, outcomes, outcomes, List.map_cons, cycle_shift]
    exact congrArg _ ih

end

end Machine

end ChipEight
