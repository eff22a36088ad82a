import ChipEight.Proofs.Host

/-!
The loop of a host. A script is its frames and a closing one with a request to quit, and a run plays
them one by one until a frame ends it. `Plays` says so, and `plays_play` says that every run is of
this kind, as the closing frame ends it at the latest. What a frame keeps is carried to the
beginning of every later frame by `Plays.split`.
-/

namespace ChipEight

/-- The event asks for the end of the run. -/
def Event.quits (e : Event) : Bool := e = .quit || e = .keyDown escapeCode

/-- There is a request to quit among the events of the frame. -/
def Frame.quits (f : Frame) : Bool := f.events.any (·.event.quits)

/-- The frames of a script with the closing one, the clock having stood at `now` before. -/
def script (now : Float) : List Frame → List Frame
  | [] => [.closing now]
  | f :: fs => f :: script f.now fs

namespace Host

variable {σ : Type}

/-- The stretch that a frame makes. -/
def Played.stretch (p : Played σ) : Stretch σ := p.host.stretch p.effects

/-- What a host has heard by the time its machine does its cycle. -/
def heardAt (h : Host σ) (settings : HostSettings) (f : Frame) : Turn σ :=
  (Turn.mk h [.tick settings.hz] true).hearAll f.events

/-! ### Events -/

/-- Events make a turn flip windows and perhaps stop; the buzzer is not concerned. -/
structure Heard (t : Turn σ) (events : List TimedEvent) (t' : Turn σ) : Prop where
  buzzer : t'.host.buzzer = t.host.buzzer
  running : t'.running = (t.running && !events.any (·.event.quits))
  effects : ∃ windows : List (Window σ), t'.effects = t.effects ++ windows.map .flip

theorem heard_hear (t : Turn σ) (e : TimedEvent) : Heard t [e] (t.hear e) := by
  unfold Turn.hear
  by_cases hquit : e.event = .quit ∨ e.event = .keyDown Event.escapeCode
  · rw [if_pos hquit]
    have hquits : e.event.quits = true := by simpa [Event.quits] using hquit
    exact ⟨rfl, by simp [hquits], [], by simp⟩
  have hstays : e.event.quits = false := by simpa [Event.quits] using hquit
  have hrunning : t.running = (t.running && !([e].any (·.event.quits))) := by simp [hstays]
  rw [if_neg hquit]
  by_cases hreset : e.event = .keyDown Event.resetCode
  · rw [if_pos hreset]
    exact ⟨rfl, hrunning, [_], rfl⟩
  · rw [if_neg hreset]
    exact ⟨rfl, hrunning, [], by simp⟩

theorem heard_hearAll (t : Turn σ) (events : List TimedEvent) :
    Heard t events (t.hearAll events) := by
  induction events generalizing t with
  | nil => exact ⟨rfl, by simp [Turn.hearAll], [], by simp [Turn.hearAll]⟩
  | cons e es ih =>
    have hfirst := heard_hear t e
    have hrest := ih (t.hear e)
    obtain ⟨shown, hshown⟩ := hfirst.effects
    obtain ⟨later, hlater⟩ := hrest.effects
    refine ⟨hrest.buzzer.trans hfirst.buzzer, ?_, shown ++ later, ?_⟩
    · change ((t.hear e).hearAll es).running = _
      rw [hrest.running, hfirst.running, List.any_cons, List.any_cons, List.any_nil, Bool.or_false,
        Bool.not_or, Bool.and_assoc]
    · change ((t.hear e).hearAll es).effects = _
      rw [hlater, hshown, List.map_append, List.append_assoc]

section

variable (h : Host σ) (settings : HostSettings) (f : Frame)

theorem running_heardAt : (h.heardAt settings f).running = !f.quits :=
  (heard_hearAll (Turn.mk h [.tick settings.hz] true) f.events).running

theorem buzzer_heardAt : (h.heardAt settings f).host.buzzer = h.buzzer :=
  (heard_hearAll (Turn.mk h [.tick settings.hz] true) f.events).buzzer

theorem effects_heardAt :
    ∃ windows : List (Window σ),
      (h.heardAt settings f).effects = .tick settings.hz :: windows.map .flip :=
  (heard_hearAll (Turn.mk h [.tick settings.hz] true) f.events).effects

/-- A frame ends in one of the ways in which turns end. -/
theorem frame_finished :
    Finished (h.heardAt settings f) ((h.heardAt settings f).outcome settings f.now)
      (h.frame settings f) :=
  finish_finished (h.heardAt settings f) settings f.now

end

/-! ### Runs -/

/-- Frames in a row, up to the first that ends the run. -/
inductive Plays (settings : HostSettings) :
    Host σ → List Frame → List (Stretch σ) → Ending → Prop
  | ends {h : Host σ} {f : Frame} {later : List Frame} {ending : Ending}
      (hending : (h.frame settings f).ending = some ending) :
      Plays settings h (f :: later) [(h.frame settings f).stretch] ending
  | goesOn {h : Host σ} {f : Frame} {later : List Frame} {stretches : List (Stretch σ)}
      {ending : Ending} (hending : (h.frame settings f).ending = none)
      (hrest : Plays settings (h.frame settings f).host later stretches ending) :
      Plays settings h (f :: later) ((h.frame settings f).stretch :: stretches) ending

/-- The frame with a request to quit is the last one, whatever its cycle does. -/
theorem ending_of_quits (h : Host σ) (settings : HostSettings) {f : Frame}
    (hquits : f.quits = true) : ∃ ending, (h.frame settings f).ending = some ending := by
  have hstops := h.running_heardAt settings f
  have hfinished := h.frame_finished settings f
  generalize h.frame settings f = p at hfinished
  cases hfinished with
  | crashed => exact ⟨_, rfl⟩
  | broken => exact ⟨_, rfl⟩
  | goesOn _ hrunning =>
    rw [hrunning, hquits] at hstops
    cases hstops
  | returns => exact ⟨_, rfl⟩

/-- Every run plays its script. -/
theorem plays_play (settings : HostSettings) (h : Host σ) (now : Float) (frames : List Frame) :
    Plays settings h (script now frames) (play settings h now frames).stretches
      (play settings h now frames).ending := by
  induction frames generalizing h now with
  | nil =>
    obtain ⟨ending, hending⟩ := h.ending_of_quits settings (f := .closing now) rfl
    have hlast : (play settings h now []).ending = ending := by
      change (h.frame settings (.closing now)).ending.getD .returned = ending
      rw [hending]
      rfl
    rw [hlast]
    exact .ends hending
  | cons f fs ih =>
    rw [play]
    dsimp only
    rcases hending : (h.frame settings f).ending with _ | ending
    · exact .goesOn hending (ih _ _)
    · exact .ends hending

/-- What every frame keeps holds where any frame of a run begins. The frame is the last one exactly
if it has an ending, and then that is the ending of the run. -/
theorem Plays.split {settings : HostSettings} {P : List (Effect σ) → Host σ → Prop}
    (hkeeps : ∀ past h f, P past h →
      P (past ++ (h.frame settings f).effects) (h.frame settings f).host)
    {h : Host σ} {fs : List Frame} {stretches : List (Stretch σ)} {ending : Ending}
    (hplays : Plays settings h fs stretches ending) {past : List (Effect σ)} (hP : P past h)
    {before : List (Stretch σ)} {s : Stretch σ} {after : List (Stretch σ)}
    (hsplit : stretches = before ++ s :: after) :
    ∃ g f, P (past ++ before.flatMap Stretch.effects) g ∧ s = (g.frame settings f).stretch ∧
      (g.frame settings f).ending = if after = [] then some ending else none := by
  induction hplays generalizing past before with
  | @ends h f later ending hending =>
    cases before with
    | nil =>
      obtain ⟨rfl, rfl⟩ := List.cons.inj hsplit
      exact ⟨h, f, by simpa using hP, rfl, hending⟩
    | cons b before => simp at hsplit
  | @goesOn h f later stretches ending hending hrest ih =>
    cases before with
    | nil =>
      obtain ⟨rfl, rfl⟩ := List.cons.inj hsplit
      refine ⟨h, f, by simpa using hP, rfl, ?_⟩
      cases hrest <;> exact hending
    | cons b before =>
      obtain ⟨rfl, htail⟩ := List.cons.inj hsplit
      obtain ⟨g, y, hg, hs, hlast⟩ := ih (hkeeps past h f hP) htail
      refine ⟨g, y, ?_, hs, hlast⟩
      rw [List.flatMap_cons, ← List.append_assoc]
      exact hg

/-- The last frame of a run is the one whose ending the run has. -/
theorem Plays.last {settings : HostSettings} {P : List (Effect σ) → Host σ → Prop}
    (hkeeps : ∀ past h f, P past h →
      P (past ++ (h.frame settings f).effects) (h.frame settings f).host)
    {h : Host σ} {fs : List Frame} {stretches : List (Stretch σ)} {ending : Ending}
    (hplays : Plays settings h fs stretches ending) {past : List (Effect σ)} (hP : P past h) :
    ∃ before g f, stretches = before ++ [(g.frame settings f).stretch] ∧
      P (past ++ before.flatMap Stretch.effects) g ∧
      (g.frame settings f).ending = some ending := by
  rcases stretches.eq_nil_or_concat with rfl | ⟨before, s, rfl⟩
  · cases hplays
  · rw [List.concat_eq_append] at hplays ⊢
    obtain ⟨g, f, hg, rfl, hlast⟩ := hplays.split hkeeps hP rfl
    exact ⟨before, g, f, rfl, hg, hlast⟩

/-- What there is once everything has been opened. -/
theorem eq_of_setUp {display : Display σ} {args : Arguments} {m : Machine} {h : Host σ}
    {effects : List (Effect σ)} (hset : setUp display args m = .ok (h, effects)) :
    (∃ window, h = ⟨m, Keypad.idle Layout.standard, Buzzer.silent (beep? args).isSome, window⟩) ∧
      ∃ width height sounds, (sounds = [] ∨ ∃ path, sounds = [.startSound, .loadSound path]) ∧
        effects = opening args ++ [.openWindow width height] ++ sounds := by
  rcases hopen : openWindow display args.scale with e | window
  · unfold setUp at hset
    rw [hopen] at hset
    cases hset
  · obtain ⟨sounds, hsounds, hwindow⟩ := setUp_of_window (m := m) hopen
    obtain ⟨rfl, rfl⟩ := Prod.mk.inj (Except.ok.inj (hset.symm.trans hwindow))
    exact ⟨⟨window, rfl⟩, _, _, sounds, hsounds, rfl⟩

/-- Giving up is not returning. -/
theorem boot_ne_returned (args : Arguments) (rom : Except RomError (List Byte)) (m : Machine) :
    boot args rom m ≠ .error .returned := by
  unfold boot
  rcases rom with e | data
  · cases e <;> exact nofun
  · dsimp only
    rcases m.load data with f | m <;> exact nofun

theorem setUp_ne_returned (display : Display σ) (args : Arguments) (m : Machine) :
    setUp display args m ≠ .error .returned := by
  unfold setUp
  rcases openWindow display args.scale with e | window <;> exact nofun

section

variable (on : Platform σ) (tracing : Bool) (random : Nat → Int) {argv : List String} (now : Float)
  (frames : List Frame) {args : Arguments}

/-- A run without a host does nothing but open up and does not return. -/
theorem run_cases (hargs : Arguments.parse argv = .ok args) :
    (∃ s : Stretch σ, (s.effects = [] ∨ s.effects = opening args) ∧ s.host = none ∧
      (run on tracing random argv now frames).stretches = [s] ∧
      (run on tracing random argv now frames).ending ≠ .returned) ∨
    ∃ m h effects, boot args (Rom.readGiven on.files args.file) (Machine.start now) = .ok m ∧
      setUp on.display args m = .ok (h, effects) := by
  rcases hboot : boot args (Rom.readGiven on.files args.file) (Machine.start now) with ending | m
  · refine .inl ⟨⟨[], some (Machine.start now), none⟩, .inl rfl, rfl, ?_, ?_⟩
    · simp only [run, hargs, hboot]
    · simp only [run, hargs, hboot]
      rintro rfl
      exact boot_ne_returned _ _ _ hboot
  rcases hset : setUp on.display args m with ending | ⟨h, effects⟩
  · refine .inl ⟨⟨opening args, some m, none⟩, .inr rfl, rfl, ?_, ?_⟩
    · simp only [run, hargs, hboot, hset]
    · simp only [run, hargs, hboot, hset]
      rintro rfl
      exact setUp_ne_returned _ _ _ hset
  · exact .inr ⟨m, h, effects, rfl, hset⟩

/-- A run whose host could be set up is the setting up and then the frames of its script, unless the
clock cannot pace them: then it is the setting up alone. -/
theorem run_plays {m : Machine} {h : Host σ} {effects : List (Effect σ)}
    (hargs : Arguments.parse argv = .ok args)
    (hboot : boot args (Rom.readGiven on.files args.file) (Machine.start now) = .ok m)
    (hset : setUp on.display args m = .ok (h, effects)) :
    let t := run on tracing random argv now frames
    (∃ e, on.pace args.hz = .error e ∧ t.stretches = [h.stretch effects] ∧
      t.ending = .unpaced e) ∨
    ∃ stretches, on.pace args.hz = .ok () ∧ t.stretches = h.stretch effects :: stretches ∧
      Plays ⟨tracing, args.hz, random⟩ h (script now frames) stretches t.ending := by
  intro t
  obtain ⟨hstretches, hending⟩ := run_eq tracing random frames hargs hboot hset
  rw [hstretches, hending, loop]
  rcases on.pace args.hz with e | _
  · exact .inl ⟨e, rfl, rfl, rfl⟩
  · exact .inr ⟨_, rfl, rfl, plays_play ..⟩

end

end Host

end ChipEight
