import ChipEight.Host
import ChipEight.Proofs.Reach

/-!
The ways a frame can end, and what a run is made of. Once the events of a frame have been heard and
the machine has done its cycle, there are four ways: the machine has faulted, its timers could not
count with the clock, the run goes on, or it was asked to end. `Finished` lists them with what each
of them does to the host, and `finish_finished` says that every frame ends in one of these ways;
nothing later opens `Turn.finish` again. A run with a program that can be loaded is its setting up
and then its loop (`run_eq`).
-/

namespace ChipEight.Host

variable {σ : Type}

/-! ### Frames -/

/-- The host once its machine has come to another state. -/
def withMachine (h : Host σ) (m : Machine) : Host σ := { h with machine := m }

/-- Passes the signals of the machine on: one to the buzzer, and one to the window if the machine
has drawn. -/
def follow (h : Host σ) : Host σ × List (Effect σ) :=
  let sounded := h.signal h.machine.buzzer
  let shown := if h.machine.drew then sounded.1.redraw else (sounded.1, [])
  (shown.1, sounded.2 ++ shown.2)

/-- What comes of a turn when its cycle has this outcome. -/
inductive Finished (t : Turn σ) (o : Outcome) : Played σ → Prop
  | crashed (f : Fault) (hfailure : o.failure = some (.fault f)) :
      Finished t o ((t.host.withMachine o.machine).leave t.effects o.printed
        (.abandoned (crashText o.machine f)))
  | broken (f : ClockFault) (hfailure : o.failure = some (.clock f)) :
      Finished t o ⟨t.host.withMachine o.machine, t.effects, o.printed, some (.broken f)⟩
  | goesOn (hfailure : o.failure = none) (hrunning : t.running = true) :
      Finished t o ⟨(t.host.withMachine o.machine).follow.1,
        t.effects ++ (t.host.withMachine o.machine).follow.2, o.printed, none⟩
  | returns (hfailure : o.failure = none) (hrunning : t.running = false) :
      Finished t o ((t.host.withMachine o.machine).follow.1.leave
        (t.effects ++ (t.host.withMachine o.machine).follow.2) o.printed .returned)

/-- What the machine of a turn hears during its cycle. -/
def Turn.surroundings (t : Turn σ) (settings : HostSettings) (now : Float) : Surroundings :=
  ⟨now, t.host.keypad.keys, settings.random⟩

/-- The cycle that the machine of a turn does. -/
def Turn.outcome (t : Turn σ) (settings : HostSettings) (now : Float) : Outcome :=
  t.host.machine.cycle settings.tracing (t.surroundings settings now)

section

variable {t : Turn σ} {settings : HostSettings} {now : Float}

theorem finish_of_fault {f : Fault} (h : (t.outcome settings now).failure = some (.fault f)) :
    t.finish settings now = (t.host.withMachine (t.outcome settings now).machine).leave t.effects
      (t.outcome settings now).printed
      (.abandoned (crashText (t.outcome settings now).machine f)) := by
  rw [Turn.outcome, Turn.surroundings] at h
  unfold Turn.finish
  simp only [h]
  rfl

theorem finish_of_clock {f : ClockFault} (h : (t.outcome settings now).failure = some (.clock f)) :
    t.finish settings now = ⟨t.host.withMachine (t.outcome settings now).machine, t.effects,
      (t.outcome settings now).printed, some (.broken f)⟩ := by
  rw [Turn.outcome, Turn.surroundings] at h
  unfold Turn.finish
  simp only [h]
  rfl

theorem finish_of_none (h : (t.outcome settings now).failure = none) :
    t.finish settings now =
      let followed := (t.host.withMachine (t.outcome settings now).machine).follow
      if t.running then
        ⟨followed.1, t.effects ++ followed.2, (t.outcome settings now).printed, none⟩
      else
        followed.1.leave (t.effects ++ followed.2) (t.outcome settings now).printed .returned := by
  rw [Turn.outcome, Turn.surroundings] at h
  unfold Turn.finish follow
  simp only [h, ← List.append_assoc]
  rfl

end

theorem finish_finished (t : Turn σ) (settings : HostSettings) (now : Float) :
    Finished t (t.outcome settings now) (t.finish settings now) := by
  rcases hfailure : (t.outcome settings now).failure with _ | f | f
  · rw [finish_of_none hfailure]
    cases hrunning : t.running with
    | false => exact .returns hfailure hrunning
    | true => exact .goesOn hfailure hrunning
  · rw [finish_of_fault hfailure]
    exact .crashed f hfailure
  · rw [finish_of_clock hfailure]
    exact .broken f hfailure

/-! ### Runs -/

/-- The first of several frames is played, and the others are if it has not ended the run. -/
theorem stretches_play_cons (settings : HostSettings) (h : Host σ) (now : Float) (f : Frame)
    (fs : List Frame) :
    (play settings h now (f :: fs)).stretches =
      let p := h.frame settings f
      p.host.stretch p.effects ::
        if p.ending.isSome then [] else (play settings p.host f.now fs).stretches := by
  rw [play]
  dsimp only
  rcases (h.frame settings f).ending with _ | ending <;> rfl

/-- A program that was read and fits is loaded. -/
theorem boot_of_fits {data : List Byte} (h : data.length ≤ Memory.programLimit) (args : Arguments)
    (now : Float) :
    boot args (.ok data) (Machine.start now) = .ok
      { Machine.start now with
        memory := Memory.initial.copy Memory.programStart data
        program := some data } := by
  rcases (Machine.start now).load_cases data with ⟨-, hload⟩ | ⟨hlong, -⟩
  · rw [boot, hload]
    rfl
  · omega

/-- A display that makes a surface of the size of the screen opens a window at this scale. -/
theorem openWindow_of_create {display : Display σ} {scale : Int} {surface : σ}
    (h : display.create (64 * scale) (32 * scale) = .ok surface) :
    openWindow display (.value scale) =
      .ok (.onSurface display Framebuffer.screenWidth Framebuffer.screenHeight scale Window.blue
        Window.lightBlue surface) := by
  unfold openWindow Window.create Window.surfaceSize
  change (display.create (64 * scale) (32 * scale)).map _ = _
  rw [h]
  rfl

/-- A display with surfaces of all sizes opens a window at every scale that leaves pixels. -/
theorem openWindow_of_ample {display : Display σ} (hample : display.Ample) {scale : Int}
    (h : 1 ≤ scale) :
    ∃ surface, openWindow display (.value scale) =
      .ok (.onSurface display Framebuffer.screenWidth Framebuffer.screenHeight scale Window.blue
        Window.lightBlue surface) := by
  obtain ⟨surface, hcreate⟩ := hample (64 * scale) (32 * scale) (by omega) (by omega)
  exact ⟨surface, openWindow_of_create hcreate⟩

/-- A window that opens is on a surface of the size of the screen at its scale, has the colours of
the screen and starts in the background. -/
theorem onSurface_of_openWindow {display : Display σ} {scale : Int} {window : Window σ}
    (h : openWindow display (.value scale) = .ok window) :
    ∃ surface, display.create (64 * scale) (32 * scale) = .ok surface ∧
      window = .onSurface display Framebuffer.screenWidth Framebuffer.screenHeight scale
        Window.blue Window.lightBlue surface := by
  change (display.create (64 * scale) (32 * scale)).map _ = _ at h
  rcases hsurface : display.create (64 * scale) (32 * scale) with e | surface <;>
    rw [hsurface] at h
  · cases h
  · exact ⟨surface, rfl, (Except.ok.inj h).symm⟩

theorem setUp_of_window {display : Display σ} {args : Arguments} {m : Machine} {window : Window σ}
    (h : openWindow display args.scale = .ok window) :
    ∃ sounds, (sounds = [] ∨ ∃ path, sounds = [.startSound, .loadSound path]) ∧
      setUp display args m = .ok
        (⟨m, Keypad.idle Layout.standard, Buzzer.silent (beep? args).isSome, window⟩,
          opening args ++
            [.openWindow (Window.surfaceSize window.width window.height window.scale).1
              (Window.surfaceSize window.width window.height window.scale).2] ++ sounds) := by
  unfold setUp
  rw [h]
  rcases beep? args with _ | path
  · exact ⟨_, .inl rfl, rfl⟩
  · exact ⟨_, .inr ⟨path, rfl⟩, rfl⟩

section

variable {on : Platform σ} (tracing : Bool) (random : Nat → Int) {argv : List String} {now : Float}
  (frames : List Frame) {args : Arguments} {m : Machine}

/-- A run with a host is the setting up and then the loop. -/
theorem run_eq {h : Host σ} {effects : List (Effect σ)} (hargs : Arguments.parse argv = .ok args)
    (hboot : boot args (Rom.readGiven on.files args.file) (Machine.start now) = .ok m)
    (hset : setUp on.display args m = .ok (h, effects)) :
    let rest := h.loop on ⟨tracing, args.hz, random⟩ now frames
    (run on tracing random argv now frames).stretches = h.stretch effects :: rest.stretches ∧
      (run on tracing random argv now frames).ending = rest.ending := by
  unfold run
  simp only [hargs, hboot, hset]
  exact ⟨trivial, trivial⟩

/-- Without a window there is no host and no frame. -/
theorem stretches_run_windowless {e : SurfaceError} (hargs : Arguments.parse argv = .ok args)
    (hboot : boot args (Rom.readGiven on.files args.file) (Machine.start now) = .ok m)
    (h : openWindow on.display args.scale = .error e) :
    (run on tracing random argv now frames).stretches = [⟨opening args, some m, none⟩] := by
  have hset : setUp on.display args m = .error (.windowless e) := by
    unfold setUp
    rw [h]
    rfl
  unfold run
  simp only [hargs, hboot, hset]

end

end ChipEight.Host
