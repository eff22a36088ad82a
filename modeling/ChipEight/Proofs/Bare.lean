import ChipEight.Directory
import ChipEight.Proofs.Loop
import ChipEight.Proofs.Picture

/-!
A host does nothing to its machine that cannot be done by hand. `Bare` is a machine and a keypad
with nothing around them; in a round it hears the events of a frame and then does one cycle. A host
goes through the same states, round by round, until a round ends the run: with a fault of its cycle,
or else with a request to quit among its events (`run_drives`). A program that cannot be loaded ends
the run before anything is opened.
-/

namespace ChipEight

/-- A machine and its keypad, and nothing around them. -/
structure Bare where
  machine : Machine
  keypad : Keypad

/-- What a round has heard, the machine and the keypad after it, and how its cycle has failed if it
has. -/
structure Round where
  events : List TimedEvent
  bare : Bare
  failure : Option Failure

namespace Round

/-- There is a request to quit among the events of the round. -/
def quits (r : Round) : Bool := r.events.any (·.event.quits)

/-- How a round ends the run of a host, if it does: a failure comes before a request to quit. -/
def ending (r : Round) : Option Ending :=
  match r.failure with
  | some (.fault f) =>
      some (.abandoned ("********** THE EMULATOR CRASHED WITH THE FOLLOWING STATE\n" ++ f.message ++
        "\n" ++ r.bare.machine.dump))
  | some (.clock f) => some (.broken f)
  | none => if r.quits then some .returned else none

theorem ending_of_none {r : Round} (h : r.failure = none) :
    r.ending = if r.quits then some .returned else none := by
  rw [ending, h]

theorem goesOn_of_ending {r : Round} (h : r.ending = none) :
    r.failure = none ∧ r.quits = false := by
  rcases hfailure : r.failure with _ | f | f
  · rw [ending_of_none hfailure] at h
    exact ⟨rfl, by simpa using h⟩
  · rw [ending, hfailure] at h
    cases h
  · rw [ending, hfailure] at h
    cases h

end Round

namespace Bare

/-- Hears one event: the reset key starts the machine over, a request to quit is nothing to it, and
everything else is for the keypad. -/
def hear (b : Bare) (e : TimedEvent) : Bare :=
  if e.event.quits then b
  else if e.event = .keyDown Event.resetCode then { b with machine := b.machine.reset e.now }
  else { b with keypad := (b.keypad.handle e.event).1 }

/-- Hears the events of a frame in order and does one cycle. -/
def round (settings : HostSettings) (b : Bare) (f : Frame) : Round :=
  let heard := f.events.foldl hear b
  let outcome := heard.machine.cycle settings.tracing ⟨f.now, heard.keypad.keys, settings.random⟩
  ⟨f.events, ⟨outcome.machine, heard.keypad⟩, outcome.failure⟩

/-- Rounds in a row, whether they would end a run or not. -/
def rounds (settings : HostSettings) (b : Bare) : List Frame → List Round
  | [] => []
  | f :: later => b.round settings f :: (b.round settings f).bare.rounds settings later

theorem rounds_cons (settings : HostSettings) (b : Bare) (f : Frame) (later : List Frame) :
    b.rounds settings (f :: later) =
      b.round settings f :: (b.round settings f).bare.rounds settings later := by
  rw [rounds]

end Bare

variable {σ : Type}

/-- The machine and the keypad of a host. -/
def Host.bare (h : Host σ) : Bare := ⟨h.machine, h.keypad⟩

/-- The machine and the keypad at the end of a stretch. -/
def Stretch.bare? (s : Stretch σ) : Option Bare := s.host.map Host.bare

namespace Host

/-! ### One frame -/

theorem bare_hear (t : Turn σ) (e : TimedEvent) : (t.hear e).host.bare = t.host.bare.hear e := by
  unfold Turn.hear Bare.hear
  by_cases hquit : e.event = .quit ∨ e.event = .keyDown Event.escapeCode
  · have hquits : e.event.quits = true := by simpa [Event.quits] using hquit
    rw [if_pos hquit, if_pos hquits]
  have hstays : ¬ e.event.quits = true := by simpa [Event.quits] using hquit
  rw [if_neg hquit, if_neg hstays]
  by_cases hreset : e.event = .keyDown Event.resetCode
  · rw [if_pos hreset, if_pos hreset]
    rfl
  · rw [if_neg hreset, if_neg hreset]
    rfl

theorem bare_hearAll (t : Turn σ) (events : List TimedEvent) :
    (t.hearAll events).host.bare = events.foldl Bare.hear t.host.bare := by
  induction events generalizing t with
  | nil => rfl
  | cons e es ih =>
    rw [List.foldl_cons, ← bare_hear]
    exact ih (t.hear e)

/-- The round of a frame is what the host has heard and the cycle its machine does then. -/
theorem round_bare (h : Host σ) (settings : HostSettings) (f : Frame) :
    h.bare.round settings f =
      ⟨f.events, ⟨((h.heardAt settings f).outcome settings f.now).machine,
        (h.heardAt settings f).host.keypad⟩,
        ((h.heardAt settings f).outcome settings f.now).failure⟩ := by
  have hheard : f.events.foldl Bare.hear h.bare = (h.heardAt settings f).host.bare :=
    (bare_hearAll (Turn.mk h [.tick settings.hz] true) f.events).symm
  rw [Bare.round, hheard]
  rfl

theorem bare_follow (h : Host σ) : h.follow.1.bare = h.bare := by
  unfold follow
  cases h.machine.drew <;> rfl

/-- A frame leaves machine and keypad as its round does, and ends the run if that does. -/
theorem frame_round (h : Host σ) (settings : HostSettings) (f : Frame) :
    (h.frame settings f).host.bare = (h.bare.round settings f).bare ∧
      (h.frame settings f).ending = (h.bare.round settings f).ending := by
  have hrunning := h.running_heardAt settings f
  have hfinished := h.frame_finished settings f
  have hround := h.round_bare settings f
  generalize h.frame settings f = p at hfinished
  generalize h.bare.round settings f = r at hround
  have hquits : r.quits = f.quits := by rw [hround]; rfl
  cases hfinished with
  | crashed fault hfailure =>
    exact ⟨by rw [hround]; rfl, by rw [hround, Round.ending, hfailure]; rfl⟩
  | broken fault hfailure => exact ⟨by rw [hround]; rfl, by rw [hround, Round.ending, hfailure]⟩
  | goesOn hfailure hgoes =>
    have hnone : r.failure = none := by rw [hround]; exact hfailure
    have hstays : f.quits = false := by simpa [hgoes] using hrunning
    refine ⟨?_, ?_⟩
    · rw [hround]
      exact bare_follow _
    · rw [Round.ending_of_none hnone, hquits, hstays]
      rfl
  | returns hfailure hstops =>
    have hnone : r.failure = none := by rw [hround]; exact hfailure
    have hasks : f.quits = true := by simpa [hstops] using hrunning
    refine ⟨?_, ?_⟩
    · rw [hround]
      exact bare_follow _
    · rw [Round.ending_of_none hnone, hquits, hasks]
      rfl

/-! ### The end of a run -/

/-- The window is closed at the end and only there, unless the clock has broken the run off. -/
def Closes (effects : List (Effect σ)) (ending : Ending) : Prop :=
  (∃ f, ending = .broken f) ∨
    ∃ earlier, Effect.finish ∉ earlier ∧ effects = earlier ++ [.finish]

theorem Closes.append {effects : List (Effect σ)} {ending : Ending} (h : Closes effects ending)
    {earlier : List (Effect σ)} (hopen : Effect.finish ∉ earlier) :
    Closes (earlier ++ effects) ending := by
  refine h.imp_right ?_
  rintro ⟨more, hmore, rfl⟩
  refine ⟨earlier ++ more, ?_, (List.append_assoc ..).symm⟩
  rw [List.mem_append, not_or]
  exact ⟨hopen, hmore⟩

theorem closes_leave (h : Host σ) {effects : List (Effect σ)} (hopen : Effect.finish ∉ effects)
    (printed : List String) (ending : Ending) :
    Closes (h.leave effects printed ending).effects ending := by
  refine .inr ⟨effects ++ (h.signal false).2, ?_, rfl⟩
  rw [List.mem_append, not_or]
  exact ⟨hopen, by simp [signal]⟩

theorem finish_not_mem_follow (h : Host σ) : Effect.finish ∉ h.follow.2 := by
  unfold follow
  cases h.machine.drew <;> simp [signal, redraw]

/-- A frame leaves the window open if the run goes on, and closes it last of all otherwise. -/
theorem frame_closes (h : Host σ) (settings : HostSettings) (f : Frame) :
    ((h.frame settings f).ending = none → Effect.finish ∉ (h.frame settings f).effects) ∧
      ∀ ending, (h.frame settings f).ending = some ending →
        Closes (h.frame settings f).effects ending := by
  have hfinished := h.frame_finished settings f
  have hheard : Effect.finish ∉ (h.heardAt settings f).effects := by
    obtain ⟨windows, heffects⟩ := h.effects_heardAt settings f
    rw [heffects]
    simp
  have hfollowed (m : Machine) : Effect.finish ∉ (h.heardAt settings f).effects ++
      ((h.heardAt settings f).host.withMachine m).follow.2 := by
    rw [List.mem_append, not_or]
    exact ⟨hheard, finish_not_mem_follow _⟩
  generalize h.frame settings f = p at hfinished
  cases hfinished with
  | crashed =>
    refine ⟨nofun, ?_⟩
    rintro _ ⟨⟩
    exact closes_leave _ hheard _ _
  | broken fault =>
    refine ⟨nofun, ?_⟩
    rintro _ ⟨⟩
    exact .inl ⟨fault, rfl⟩
  | goesOn => exact ⟨fun _ => hfollowed _, nofun⟩
  | returns =>
    refine ⟨nofun, ?_⟩
    rintro _ ⟨⟩
    exact closes_leave _ (hfollowed _) _ _

theorem Plays.closes {settings : HostSettings} {h : Host σ} {fs : List Frame}
    {stretches : List (Stretch σ)} {ending : Ending}
    (hplays : Plays settings h fs stretches ending) :
    Closes (stretches.flatMap Stretch.effects) ending := by
  induction hplays with
  | @ends h f later ending hending =>
    rw [List.flatMap_singleton]
    exact (h.frame_closes settings f).2 ending hending
  | @goesOn h f later stretches ending hending hrest ih =>
    rw [List.flatMap_cons]
    exact ih.append ((h.frame_closes settings f).1 hending)

/-! ### Whole runs -/

/-- Of these rounds the last one is the first that ends a run, and the stretches come one by one to
the same machine and the same keypad. -/
structure Drives (earlier : List Round) (last : Round) (stretches : List (Stretch σ))
    (ending : Ending) : Prop where
  goesOn : ∀ r ∈ earlier, r.failure = none ∧ r.quits = false
  /-- The text is the heading, the message of the fault and the dump of the machine. -/
  crashes : ∀ f, last.failure = some (.fault f) → ending = .abandoned
    ("********** THE EMULATOR CRASHED WITH THE FOLLOWING STATE\n" ++ f.message ++ "\n" ++
      last.bare.machine.dump)
  breaks : ∀ f, last.failure = some (.clock f) → ending = .broken f
  returns : last.failure = none → last.quits = true ∧ ending = .returned
  same : stretches.map Stretch.bare? = (earlier ++ [last]).map fun r => some r.bare

/-- A round that ends a run makes up a run of its own. -/
theorem drives_of_ending {r : Round} {ending : Ending} (h : r.ending = some ending)
    {s : Stretch σ} (hsame : s.bare? = some r.bare) : Drives [] r [s] ending where
  goesOn := List.forall_mem_nil _
  crashes f hfailure := by
    rw [Round.ending, hfailure] at h
    exact (Option.some.inj h).symm
  breaks f hfailure := by
    rw [Round.ending, hfailure] at h
    exact (Option.some.inj h).symm
  returns hfailure := by
    rw [Round.ending_of_none hfailure] at h
    cases hquits : r.quits with
    | false =>
      rw [hquits] at h
      cases h
    | true =>
      rw [hquits] at h
      exact ⟨rfl, (Option.some.inj h).symm⟩
  same := congrArg (fun b => [b]) hsame

/-- A round that does not end the run may go before. -/
theorem Drives.cons {earlier : List Round} {last : Round} {stretches : List (Stretch σ)}
    {ending : Ending} (h : Drives earlier last stretches ending) {r : Round}
    (hgoes : r.ending = none) {s : Stretch σ} (hsame : s.bare? = some r.bare) :
    Drives (r :: earlier) last (s :: stretches) ending :=
  { h with
    goesOn := List.forall_mem_cons.mpr ⟨Round.goesOn_of_ending hgoes, h.goesOn⟩
    same := by rw [List.map_cons, h.same, hsame]; rfl }

theorem Plays.drives {settings : HostSettings} {h : Host σ} {fs : List Frame}
    {stretches : List (Stretch σ)} {ending : Ending}
    (hplays : Plays settings h fs stretches ending) :
    ∃ earlier last later, h.bare.rounds settings fs = earlier ++ last :: later ∧
      Drives earlier last stretches ending := by
  induction hplays with
  | @ends h f later ending hending =>
    obtain ⟨hbare, hround⟩ := h.frame_round settings f
    rw [hround] at hending
    exact ⟨[], h.bare.round settings f, _, Bare.rounds_cons ..,
      drives_of_ending hending (congrArg some hbare)⟩
  | @goesOn h f later stretches ending hending hrest ih =>
    obtain ⟨hbare, hround⟩ := h.frame_round settings f
    obtain ⟨earlier, last, unheard, hrounds, hdrives⟩ := ih
    rw [hround] at hending
    refine ⟨h.bare.round settings f :: earlier, last, unheard, ?_,
      hdrives.cons hending (congrArg some hbare)⟩
    rw [Bare.rounds_cons, ← hbare, hrounds]
    rfl

/-- A program that cannot be loaded ends a run before anything is opened. -/
theorem run_of_boot {on : Platform σ} {tracing : Bool} {random : Nat → Int} {argv : List String}
    {now : Float} {frames : List Frame} {args : Arguments} {text : String}
    (hargs : Arguments.parse argv = .ok args)
    (hboot : boot args (Rom.readGiven on.files args.file) (Machine.start now) =
      .error (.abandoned text)) :
    let t := run on tracing random argv now frames
    t.ending = .abandoned text ∧ ∀ s ∈ t.stretches, s.effects = [] := by
  intro t
  have hrun : t = ⟨[⟨[], some (Machine.start now), none⟩],
      Rom.printed tracing (filePath args) (Rom.readGiven on.files args.file),
      .abandoned text⟩ := by
    simp only [t, run, hargs, hboot]
  rw [hrun]
  exact ⟨rfl, by simp⟩

section

variable {files : FileSystem} {args : Arguments} {path : String}

theorem readGiven_of_path (hpath : args.file = .value path) (hnull : '\x00' ∉ path.toList) :
    Rom.readGiven files args.file = (files path).mapError .file := by
  rw [hpath]
  exact if_neg (by simpa using hnull)

theorem boot_of_unreadable (hpath : args.file = .value path) {e : FileError} (m : Machine) :
    boot args (.error (.file e)) m = .error (.abandoned (loadText path e.message)) := by
  rw [boot, filePath, hpath]
  rfl

theorem boot_of_long (hpath : args.file = .value path) {data : List Byte}
    (hlong : Memory.programLimit < data.length) (m : Machine) :
    boot args (.ok data) m = .error (.abandoned (loadText path
      ("ROM too large: " ++ toString data.length ++ " bytes, max 3584"))) := by
  have hmessage : (Fault.programTooLarge data.length Memory.programLimit).message =
      "ROM too large: " ++ toString data.length ++ " bytes, max 3584" := by
    change "ROM too large: " ++ toString data.length ++ " bytes, max " ++ "3584" = _
    rw [String.append_assoc]
    rfl
  rcases m.load_cases data with ⟨hfits, -⟩ | ⟨-, hload⟩
  · exact absurd hfits (Nat.not_le_of_lt hlong)
  · rw [boot, hload, filePath, hpath, ← hmessage]
    rfl

end

/-- Nothing is finished while a host is set up. -/
theorem finish_not_mem_setUp {display : Display σ} {args : Arguments} {m : Machine} {h : Host σ}
    {effects : List (Effect σ)} (hset : setUp display args m = .ok (h, effects)) :
    Effect.finish ∉ effects ∧ h.bare = ⟨m, Keypad.idle Layout.standard⟩ := by
  obtain ⟨⟨window, rfl⟩, width, height, sounds, hsounds, rfl⟩ := eq_of_setUp hset
  refine ⟨?_, rfl⟩
  rcases hsounds with rfl | ⟨path, rfl⟩ <;> simp [opening]

/-- A window that opens lets a host be set up. -/
theorem exists_setUp {display : Display σ} {args : Arguments} {scale : Int}
    (hscale : args.scale = .value scale) (hpos : 1 ≤ scale)
    (hwindow : display.Ample ∨ (openWindow display args.scale).isOk = true) (m : Machine) :
    ∃ h effects, setUp display args m = .ok (h, effects) := by
  obtain ⟨window, hopen⟩ : ∃ window, openWindow display args.scale = .ok window := by
    rcases hwindow with hample | hok
    · obtain ⟨surface, hopen⟩ := openWindow_of_ample hample hpos
      exact ⟨_, hscale ▸ hopen⟩
    · rcases hopen : openWindow display args.scale with e | window
      · rw [hopen] at hok
        cases hok
      · exact ⟨window, rfl⟩
  obtain ⟨sounds, -, hset⟩ := setUp_of_window (m := m) hopen
  exact ⟨_, _, hset⟩

/-- A run with a host that has been set up around a machine takes it through the rounds of the
script, up to the first that ends the run. -/
theorem run_of_setUp {on : Platform σ} {tracing : Bool} {random : Nat → Int} {argv : List String}
    {now : Float} {frames : List Frame} {args : Arguments} {m : Machine} {h : Host σ}
    {effects : List (Effect σ)} (hargs : Arguments.parse argv = .ok args)
    (hboot : boot args (Rom.readGiven on.files args.file) (Machine.start now) = .ok m)
    (hset : setUp on.display args m = .ok (h, effects)) :
    let t := run on tracing random argv now frames
    ∃ opened stretches, t.stretches = opened :: stretches ∧
      opened.bare? = some ⟨m, Keypad.idle Layout.standard⟩ ∧
      (∀ e, on.pace args.hz = .error e → stretches = [] ∧ t.ending = .unpaced e) ∧
      (on.pace args.hz = .ok () → ∃ earlier last later,
        (Bare.mk m (Keypad.idle Layout.standard)).rounds ⟨tracing, args.hz, random⟩
          (script now frames) = earlier ++ last :: later ∧
        Drives earlier last stretches t.ending ∧
        Closes (t.stretches.flatMap Stretch.effects) t.ending) := by
  intro t
  obtain ⟨hopen, hbare⟩ := finish_not_mem_setUp hset
  have hopened : (h.stretch effects).bare? = some ⟨m, _⟩ := congrArg some hbare
  rcases run_plays on tracing random now frames hargs hboot hset with
    ⟨e, hpace, hstretches, hending⟩ | ⟨stretches, hpace, hstretches, hplays⟩
  · refine ⟨_, [], hstretches, hopened, fun e' he' => ?_, fun hok => ?_⟩
    · obtain rfl : e = e' := Except.error.inj (hpace.symm.trans he')
      exact ⟨rfl, hending⟩
    · cases hpace.symm.trans hok
  · obtain ⟨earlier, last, later, hrounds, hdrives⟩ := hplays.drives
    rw [hbare] at hrounds
    refine ⟨_, stretches, hstretches, hopened, fun e he => ?_,
      fun _ => ⟨earlier, last, later, hrounds, hdrives, ?_⟩⟩
    · cases hpace.symm.trans he
    · rw [hstretches, List.flatMap_cons]
      exact hplays.closes.append hopen

/-- A run drives its machine as it could be driven by hand, whatever the files under its path. If
the program cannot be read or is too large, the run is given up before anything is opened, with the
path and the reason. Otherwise the machine that holds it goes through the rounds of the script, and
the run ends with the first round that ends it: with the text of a crash if the cycle has faulted,
whatever else was asked for, and else because it was asked to. Then the window is closed, once and
last of all. A clock that cannot pace the frames lets none of them begin. -/
theorem run_drives (on : Platform σ) (tracing : Bool) (random : Nat → Int) {argv : List String}
    (now : Float) (frames : List Frame) {args : Arguments}
    (hargs : Arguments.parse argv = .ok args) {path : String} (hpath : args.file = .value path)
    (hnull : '\x00' ∉ path.toList) {scale : Int} (hscale : args.scale = .value scale)
    (hpos : 1 ≤ scale)
    (hwindow : on.display.Ample ∨ (openWindow on.display args.scale).isOk = true) :
    let t := run on tracing random argv now frames
    let heading := "********** THE ROM AT PATH " ++ path ++ " COULD NOT BE LOADED\n"
    (∀ e, on.files path = .error e →
      t.ending = .abandoned (heading ++ e.message) ∧ ∀ s ∈ t.stretches, s.effects = []) ∧
    (∀ data, on.files path = .ok data → 3584 < data.length →
      t.ending = .abandoned
          (heading ++ ("ROM too large: " ++ toString data.length ++ " bytes, max 3584")) ∧
        ∀ s ∈ t.stretches, s.effects = []) ∧
    ∀ data, on.files path = .ok data → data.length ≤ 3584 →
      ∃ m opened stretches, (Machine.start now).load data = .ok m ∧
        t.stretches = opened :: stretches ∧
        opened.bare? = some ⟨m, Keypad.idle Layout.standard⟩ ∧
        (∀ e, on.pace args.hz = .error e → stretches = [] ∧ t.ending = .unpaced e) ∧
        (on.pace args.hz = .ok () → ∃ earlier last later,
          (Bare.mk m (Keypad.idle Layout.standard)).rounds ⟨tracing, args.hz, random⟩
            (script now frames) = earlier ++ last :: later ∧
          Drives earlier last stretches t.ending ∧
          Closes (t.stretches.flatMap Stretch.effects) t.ending) := by
  intro t heading
  have hgiven : Rom.readGiven on.files args.file = (on.files path).mapError .file :=
    readGiven_of_path hpath hnull
  refine ⟨fun e he => ?_, fun data hdata hlong => ?_, fun data hdata hfits => ?_⟩
  · rw [he] at hgiven
    exact run_of_boot hargs (hgiven ▸ boot_of_unreadable hpath _)
  · rw [hdata] at hgiven
    exact run_of_boot hargs (hgiven ▸ boot_of_long hpath hlong _)
  · rw [hdata] at hgiven
    rcases (Machine.start now).load_cases data with ⟨-, hload⟩ | ⟨hlong, -⟩
    · have hboot := boot_of_fits hfits args now
      rw [← show Rom.readGiven on.files args.file = .ok data from hgiven] at hboot
      obtain ⟨h, effects, hset⟩ := exists_setUp hscale hpos hwindow _
      obtain ⟨opened, stretches, hdriven⟩ := run_of_setUp hargs hboot hset
      exact ⟨_, opened, stretches, hload, hdriven⟩
    · exact absurd hfits (Nat.not_le_of_lt hlong)

/-- A program that returns from nowhere. -/
def strayRom : List Byte := [0x00, 0xEE]

/-- A platform with this program in its working directory. -/
def strayPlatform : Platform Surface := .ideal (Directory.files ⟨[(["game"], strayRom)], []⟩)

/-- A platform on which nothing may be read. -/
def guardedPlatform : Platform Surface :=
  .ideal fun path => .error (.numbered 13 "Permission denied" path)

/-- The user quits and goes on typing in the very frame in which the machine faults. -/
def strayFrame : Frame :=
  ⟨[⟨.keyDown 49, 0⟩, ⟨.quit, 0⟩, ⟨.keyDown Event.resetCode, 0⟩, ⟨.keyUp 49, 0⟩], 0⟩

theorem read_stray : strayPlatform.files "game" = .ok strayRom := by rfl

/-- What is seen of the machine that has faulted: nothing but the program counter has moved. -/
def strayDump : String :=
  "PC_REGISTER:0x0202 | IDX_REGISTER:0x0000 | VARIABLE_REGISTERS:Registers([" ++
    ", ".intercalate (List.replicate 16 "'0x0'") ++
    "])\nSTACK:Stack(sp=0, addresses=[])\nDELAY_TIMER:0 | SOUND_TIMER:0\n" ++
    "DRAW:False | BLOCKED:False | BUZZER:False"

/-- Whoever drives it, the machine with this program faults in its first round. -/
theorem round_stray {m : Machine} (hload : (Machine.start 0).load strayRom = .ok m) :
    let r := (Bare.mk m (Keypad.idle Layout.standard)).round ⟨false, digitArgs.hz, fun _ => 0⟩
      strayFrame
    r.failure = some (.fault .stackUnderflow) ∧ r.bare.machine.dump = strayDump := by
  rcases (Machine.start 0).load_cases strayRom with ⟨-, hm⟩ | ⟨hlong, -⟩
  · rw [hm] at hload
    obtain rfl := Except.ok.inj hload
    exact ⟨by decide +kernel, by decide +kernel⟩
  · exact absurd hlong (by decide)

theorem run_drives_stray :
    (run guardedPlatform false (fun _ => 0) ["-f", "game"] 0 []).ending =
        .abandoned ("********** THE ROM AT PATH game COULD NOT BE LOADED\n" ++
          "[Errno 13] Permission denied: 'game'") ∧
      let t := run strayPlatform false (fun _ => 0) ["-f", "game"] 0 [strayFrame]
      t.ending = .abandoned ("********** THE EMULATOR CRASHED WITH THE FOLLOWING STATE\n" ++
          "Tried to return from a subroutine with an empty stack" ++ "\n" ++ strayDump) ∧
        Closes (t.stretches.flatMap Stretch.effects) t.ending := by
  constructor
  · obtain ⟨hrefused, -, -⟩ := run_drives guardedPlatform false (fun _ => 0) 0 [] parse_digit rfl
      (by decide) rfl (by decide) (.inl Display.ample_exact)
    exact (hrefused _ rfl).1.trans (congrArg Ending.abandoned (by decide +kernel))
  · intro t
    obtain ⟨-, -, hdriven⟩ := run_drives strayPlatform false (fun _ => 0) 0 [strayFrame]
      parse_digit rfl (by decide) rfl (by decide) (.inl Display.ample_exact)
    obtain ⟨m, opened, stretches, hload, -, -, -, hpaced⟩ :=
      hdriven strayRom read_stray (by decide)
    obtain ⟨earlier, last, later, hrounds, hdrives, hcloses⟩ := hpaced rfl
    obtain ⟨hfailure, hdump⟩ := round_stray hload
    rw [script, Bare.rounds_cons] at hrounds
    rcases earlier with _ | ⟨r, earlier⟩
    · obtain ⟨rfl, -⟩ := List.cons.inj hrounds
      refine ⟨(hdrives.crashes _ hfailure).trans ?_, hcloses⟩
      rw [hdump]
      rfl
    · obtain ⟨rfl, -⟩ := List.cons.inj hrounds
      obtain ⟨hnone, -⟩ := hdrives.goesOn _ List.mem_cons_self
      cases hfailure.symm.trans hnone

end Host

end ChipEight
