import ChipEight.Buzzer
import ChipEight.CommandLine.Arguments
import ChipEight.Keypad
import ChipEight.Machine.Cycle
import ChipEight.Machine.Dump
import ChipEight.Rom
import ChipEight.Window

/-!
The program around the machine. It reads the command line and the program file, opens a window and
then runs frame by frame: it hears the events of the frame, lets the machine do one cycle, passes
its signals on to buzzer and window, and ends when asked to or when the machine faults. What it does
to the outside is a list of effects; what it hears is a list of frames, and a request to quit comes
after the last of them. The display, the files and the pace of the frames are those of the platform
it runs on.
-/

namespace ChipEight

/-- What the host does to the world outside. -/
inductive Effect (σ : Type) where
  | start
  | caption (text : String)
  | openWindow (width height : Int)
  | startSound
  | loadSound (path : String)
  /-- Waits for the next frame, at a rate if there is one. -/
  | tick (hz : Given Int)
  | sound (call : SoundCall)
  /-- Shows a window as it is. -/
  | flip (window : Window σ)
  | finish

/-- An event and the reading of the clock at the time when it is heard. -/
structure TimedEvent where
  event : Event
  now : Float

/-- A frame: what happens in it, and the reading of the clock for the cycle of the machine. -/
structure Frame where
  events : List TimedEvent
  now : Float

/-- The frame after all others, in which there is a request to quit. -/
def Frame.closing (now : Float) : Frame := ⟨[⟨.quit, now⟩], now⟩

/-- Why frames cannot be paced at a rate. -/
inductive PaceError where
  | notANumber
  | tooLarge
  deriving DecidableEq, Repr

/-- The wording of a pace error. -/
def PaceError.message : PaceError → String
  | notANumber => "must be real number, not list"
  | tooLarge => "int too large to convert to float"

/-- What a host runs on: a display, a file system and a clock that paces the frames at a rate, if it
takes the rate. -/
structure Platform (σ : Type) where
  display : Display σ
  files : FileSystem
  pace : Given Int → Except PaceError Unit

/-- An exact display, files, and a clock that takes every rate. -/
def Platform.ideal (files : FileSystem) : Platform Surface := ⟨.exact, files, fun _ => .ok ()⟩

/-- How a run of the host ends. -/
inductive Ending where
  | returned
  /-- The run is given up with a text for the user. -/
  | abandoned (text : String)
  | notRun (reason : NoRun)
  /-- Failures that the host does not expect. -/
  | unreadable (error : RomError)
  | windowless (error : SurfaceError)
  | unpaced (error : PaceError)
  | broken (fault : ClockFault)

/-- What does not change during a run. -/
structure HostSettings where
  tracing : Bool
  hz : Given Int
  random : Nat → Int

/-- The parts that a host keeps together. -/
structure Host (σ : Type) where
  machine : Machine
  keypad : Keypad
  buzzer : Buzzer
  window : Window σ

/-- Effects in a row and what there is at their end: the machine, and the host around it. -/
structure Stretch (σ : Type) where
  effects : List (Effect σ)
  machine : Option Machine
  host : Option (Host σ)

/-- A whole run; its first stretch is what comes before the first frame. -/
structure Transcript (σ : Type) where
  stretches : List (Stretch σ)
  printed : List String
  ending : Ending

namespace Host

variable {σ : Type}

/-- Effects at whose end stands this host. -/
def stretch (h : Host σ) (effects : List (Effect σ)) : Stretch σ :=
  ⟨effects, some h.machine, some h⟩

/-- Shows the machine's screen in the window. A display that has opened the window takes the squares
of every screen, so that there is no error to pass on. -/
def redraw (h : Host σ) : Host σ × List (Effect σ) :=
  let window := h.window.render h.machine.screen.rows
  ({ h with window := window }, [.flip window])

/-- Passes a signal on to the buzzer. -/
def signal (h : Host σ) (on : Bool) : Host σ × List (Effect σ) :=
  let (buzzer, calls) := h.buzzer.update on
  ({ h with buzzer := buzzer }, calls.map .sound)

/-- A host in the middle of a frame. -/
structure Turn (σ : Type) where
  host : Host σ
  effects : List (Effect σ)
  running : Bool

/-- Hears one event. -/
def Turn.hear (t : Turn σ) (e : TimedEvent) : Turn σ :=
  if e.event = .quit ∨ e.event = .keyDown Event.escapeCode then { t with running := false }
  else if e.event = .keyDown Event.resetCode then
    let (host, effects) := { t.host with machine := t.host.machine.reset e.now }.redraw
    { t with host := host, effects := t.effects ++ effects }
  else
    { t with host := { t.host with keypad := (t.host.keypad.handle e.event).1 } }

/-- Hears the events of a frame in order. -/
def Turn.hearAll (t : Turn σ) (es : List TimedEvent) : Turn σ := es.foldl Turn.hear t

/-- A frame that has been run; the run is over if there is an ending. -/
structure Played (σ : Type) where
  host : Host σ
  effects : List (Effect σ)
  printed : List String
  ending : Option Ending

/-- Turns the buzzer off and leaves. -/
def leave (h : Host σ) (effects : List (Effect σ)) (printed : List String) (ending : Ending) :
    Played σ :=
  let (host, calls) := h.signal false
  ⟨host, effects ++ calls ++ [.finish], printed, some ending⟩

/-- The text for a machine that has faulted. -/
def crashText (m : Machine) (f : Fault) : String :=
  "********** THE EMULATOR CRASHED WITH THE FOLLOWING STATE\n" ++ f.message ++ "\n" ++ m.dump

/-- Lets the machine do its cycle after the events have been heard. -/
def Turn.finish (settings : HostSettings) (now : Float) (t : Turn σ) : Played σ :=
  let env : Surroundings := ⟨now, t.host.keypad.keys, settings.random⟩
  let outcome := t.host.machine.cycle settings.tracing env
  let host := { t.host with machine := outcome.machine }
  match outcome.failure with
  | some (.fault f) =>
      host.leave t.effects outcome.printed (.abandoned (crashText outcome.machine f))
  | some (.clock f) => ⟨host, t.effects, outcome.printed, some (.broken f)⟩
  | none =>
      let (host, calls) := host.signal outcome.machine.buzzer
      let (host, flips) := if outcome.machine.drew then host.redraw else (host, [])
      let effects := t.effects ++ calls ++ flips
      if t.running then ⟨host, effects, outcome.printed, none⟩
      else host.leave effects outcome.printed .returned

/-- Runs one frame. -/
def frame (h : Host σ) (settings : HostSettings) (f : Frame) : Played σ :=
  ((Turn.mk h [.tick settings.hz] true).hearAll f.events).finish settings f.now

/-- Runs frames until one ends the run, and then a closing one, the clock having stood at `now`
before. -/
def play (settings : HostSettings) (h : Host σ) (now : Float) : List Frame → Transcript σ
  | [] =>
      let p := h.frame settings (.closing now)
      ⟨[p.host.stretch p.effects], p.printed, p.ending.getD .returned⟩
  | f :: fs =>
      let p := h.frame settings f
      match p.ending with
      | some ending => ⟨[p.host.stretch p.effects], p.printed, ending⟩
      | none =>
          let rest := play settings p.host f.now fs
          ⟨p.host.stretch p.effects :: rest.stretches, p.printed ++ rest.printed, rest.ending⟩

/-- The last component of a path. -/
def baseName (path : String) : String := (path.splitOn "/").getLastD ""

/-- The path of the program file. -/
def filePath (args : Arguments) : String := args.file.value?.getD ""

/-- The sound to play, if one is named. -/
def beep? (args : Arguments) : Option String := (args.beep.bind Given.value?).filter (· ≠ "")

/-- What is done before a window is opened. -/
def opening (args : Arguments) : List (Effect σ) :=
  [.start, .caption (baseName (filePath args))]

/-- The window for a scale; without one it has no size. -/
def openWindow (display : Display σ) : Given Int → Except SurfaceError (Window σ)
  | .nothing => .error .unsized
  | .value scale =>
      Window.create display Framebuffer.screenWidth Framebuffer.screenHeight scale Window.blue
        Window.lightBlue

/-- Opens everything around a machine that holds its program. -/
def setUp (display : Display σ) (args : Arguments) (m : Machine) :
    Except Ending (Host σ × List (Effect σ)) := do
  let window ← (openWindow display args.scale).mapError .windowless
  let (width, height) := Window.surfaceSize window.width window.height window.scale
  let sounds := match beep? args with
    | some path => [.startSound, .loadSound path]
    | none => []
  return (⟨m, Keypad.idle Layout.standard, Buzzer.silent (beep? args).isSome, window⟩,
    opening args ++ [.openWindow width height] ++ sounds)

/-- The text for a program that could not be loaded. -/
def loadText (path : String) (reason : String) : String :=
  "********** THE ROM AT PATH " ++ path ++ " COULD NOT BE LOADED\n" ++ reason

/-- Gives a machine the program that was read, or the reason to give up. -/
def boot (args : Arguments) (rom : Except RomError (List Byte)) (m : Machine) :
    Except Ending Machine :=
  match rom with
  | .error (.file e) => .error (.abandoned (loadText (filePath args) e.message))
  | .error e => .error (.unreadable e)
  | .ok data => (m.load data).mapError fun f => .abandoned (loadText (filePath args) f.message)

/-- The frames of a run, if the clock can pace them. It paces each of them at one rate, so that it
refuses the first if it refuses any. -/
def loop (platform : Platform σ) (settings : HostSettings) (h : Host σ) (now : Float)
    (frames : List Frame) : Transcript σ :=
  match platform.pace settings.hz with
  | .error e => ⟨[], [], .unpaced e⟩
  | .ok () => h.play settings now frames

/-- A whole run on a platform, the clock standing at `now` in the beginning. -/
def run (platform : Platform σ) (tracing : Bool) (random : Nat → Int) (argv : List String)
    (now : Float) (frames : List Frame) : Transcript σ :=
  match Arguments.parse argv with
  | .error reason => ⟨[⟨[], none, none⟩], [], .notRun reason⟩
  | .ok args =>
      let m := Machine.start now
      let rom := Rom.readGiven platform.files args.file
      let printed := Rom.printed tracing (filePath args) rom
      match boot args rom m with
      | .error ending => ⟨[⟨[], some m, none⟩], printed, ending⟩
      | .ok m =>
          match setUp platform.display args m with
          | .error ending => ⟨[⟨opening args, some m, none⟩], printed, ending⟩
          | .ok (host, effects) =>
              let rest := host.loop platform ⟨tracing, args.hz, random⟩ now frames
              ⟨host.stretch effects :: rest.stretches, printed ++ rest.printed, rest.ending⟩

end Host

end ChipEight
