import ChipEight.Proofs.Gate
import ChipEight.Proofs.Loop

/-!
When the sound plays. The calls on the sound of a host are a row of `play` and `stop` in turns, as
the buzzer makes one only where its signal changes. `Tuned` ties that row to the buzzer and is kept
by every signal, hence by every frame. A frame that is completed passes on the signal of a machine
that has just set it by the sound timer, so the sound plays exactly while the timer runs (`InTune`),
and whoever leaves has turned the buzzer off before (`run_sounds`).
-/

namespace ChipEight

variable {σ : Type}

/-! ### Calls in turns -/

/-- The call on the sound that an effect is. -/
def Effect.call? : Effect σ → Option SoundCall
  | .sound call => some call
  | _ => none

/-- The calls on the sound among some effects. -/
def soundCalls (effects : List (Effect σ)) : List SoundCall := effects.filterMap Effect.call?

/-- The sound plays after these effects. -/
def Playing (effects : List (Effect σ)) : Prop := (soundCalls effects).getLast? = some .play

/-- So many calls in turns, the first of them to play. -/
def inTurns (n : Nat) : List SoundCall :=
  (List.range n).map fun k => if k % 2 = 0 then .play else .stop

theorem inTurns_succ (n : Nat) :
    inTurns (n + 1) = inTurns n ++ [if n % 2 = 0 then .play else .stop] := by
  rw [inTurns, List.range_succ, List.map_append]
  rfl

@[simp] theorem length_inTurns (n : Nat) : (inTurns n).length = n := by simp [inTurns]

theorem getLast?_inTurns (n : Nat) : (inTurns n).getLast? = some .play ↔ n % 2 = 1 := by
  cases n with
  | zero => simp [inTurns]
  | succ n =>
    rw [inTurns_succ, List.getLast?_concat, Option.some.injEq]
    split
    · exact ⟨fun _ => by omega, fun _ => rfl⟩
    · exact ⟨nofun, fun _ => by omega⟩

theorem soundCalls_append (past effects : List (Effect σ)) :
    soundCalls (past ++ effects) = soundCalls past ++ soundCalls effects :=
  List.filterMap_append ..

/-! ### The buzzer -/

/-- The calls so far are in turns, and they have left the sound as the buzzer has it; without a
sound there have been none. -/
structure Tuned (sounding : Bool) (past : List (Effect σ)) (b : Buzzer) : Prop where
  hasSound : b.hasSound = sounding
  turns : soundCalls past = inTurns (soundCalls past).length
  playing : Playing past ↔ sounding = true ∧ b.active = true
  soundless : sounding = false → soundCalls past = []

/-- A buzzer that is not to be heard has made no call. -/
theorem tuned_of_none {sounding : Bool} {past : List (Effect σ)} {b : Buzzer}
    (hsound : b.hasSound = sounding) (hnone : soundCalls past = [])
    (hquiet : ¬ (sounding = true ∧ b.active = true)) : Tuned sounding past b := by
  refine ⟨hsound, ?_, ?_, fun _ => hnone⟩
  · rw [hnone]
    rfl
  · rw [Playing, hnone]
    exact ⟨nofun, fun h => absurd h hquiet⟩

namespace Tuned

variable {sounding : Bool} {past effects : List (Effect σ)} {b : Buzzer}

/-- Other effects than calls on the sound do not matter. -/
theorem append (ht : Tuned sounding past b) (hnone : soundCalls effects = []) :
    Tuned sounding (past ++ effects) b := by
  have hcalls : soundCalls (past ++ effects) = soundCalls past := by
    rw [soundCalls_append, hnone, List.append_nil]
  refine ⟨ht.hasSound, ?_, ?_, ?_⟩
  · rw [hcalls]
    exact ht.turns
  · rw [Playing, hcalls]
    exact ht.playing
  · rw [hcalls]
    exact ht.soundless

/-- A buzzer that follows a signal makes the call whose turn it is, or none. -/
theorem update (ht : Tuned sounding past b) (on : Bool) :
    Tuned sounding (past ++ (b.update on).2.map .sound) (b.update on).1 := by
  unfold Buzzer.update
  by_cases hsame : on = b.active
  · rw [if_pos hsame]
    exact ht.append rfl
  rw [if_neg hsame, ht.hasSound]
  cases sounding with
  | false =>
    have hnone : soundCalls (past ++ []) = [] := (ht.append rfl).soundless rfl
    exact tuned_of_none rfl hnone fun h => nomatch h.1
  | true =>
    have hactive : b.active = !on := by cases on <;> simpa using Ne.symm hsame
    -- The number of calls so far tells by its parity whose turn it is.
    have hparity : (soundCalls past).length % 2 = 0 ↔ on = true := by
      have hplaying := ht.playing
      rw [Playing, ht.turns, getLast?_inTurns, hactive] at hplaying
      rw [← Nat.mod_two_ne_one, Ne, hplaying]
      simp
    have hcalls : soundCalls (past ++ [Effect.sound (if on then .play else .stop)]) =
        inTurns ((soundCalls past).length + 1) := by
      rw [soundCalls_append, inTurns_succ, ← ht.turns]
      simp only [hparity]
      rfl
    have hnext : ((soundCalls past).length + 1) % 2 = 1 ↔ (soundCalls past).length % 2 = 0 := by
      omega
    refine ⟨rfl, ?_, ?_, nofun⟩
    · change soundCalls (past ++ [_]) = inTurns (soundCalls (past ++ [_])).length
      rw [hcalls, length_inTurns]
    · change (soundCalls (past ++ [_])).getLast? = _ ↔ _
      rw [hcalls, getLast?_inTurns, hnext, hparity]
      simp

end Tuned

namespace Host

/-! ### One frame -/

/-- Sound and buzzer are on exactly while the sound timer runs, the sound only if there is one. -/
structure InTune (sounding : Bool) (past : List (Effect σ)) (h : Host σ) : Prop where
  active : h.buzzer.active = true ↔ 0 < h.machine.timers.sound
  playing : Playing past ↔ sounding = true ∧ 0 < h.machine.timers.sound

/-- Sound and buzzer are off. -/
structure Hushed (past : List (Effect σ)) (h : Host σ) : Prop where
  inactive : h.buzzer.active = false
  silent : ¬ Playing past

section

variable {sounding : Bool} {past effects : List (Effect σ)} {h : Host σ}

theorem active_signal (h : Host σ) (on : Bool) : (h.signal on).1.buzzer.active = on := by
  change (h.buzzer.update on).1.active = on
  unfold Buzzer.update
  by_cases hsame : on = h.buzzer.active
  · rw [if_pos hsame, hsame]
  · rw [if_neg hsame]

theorem tuned_signal (ht : Tuned sounding past h.buzzer) (on : Bool) :
    Tuned sounding (past ++ (h.signal on).2) (h.signal on).1.buzzer :=
  ht.update on

theorem tuned_follow (ht : Tuned sounding past h.buzzer) :
    Tuned sounding (past ++ h.follow.2) h.follow.1.buzzer := by
  have hsignal := tuned_signal ht h.machine.buzzer
  unfold follow
  cases h.machine.drew with
  | false => simpa using hsignal
  | true =>
    rw [← List.append_assoc]
    exact hsignal.append rfl

/-- A host that follows a machine whose buzzer is right is in tune with it. -/
theorem inTune_follow (hgated : h.machine.Gated) (ht : Tuned sounding past h.buzzer) :
    InTune sounding (past ++ h.follow.2) h.follow.1 := by
  have hfollow : h.follow.1.machine = h.machine ∧
      h.follow.1.buzzer.active = h.machine.buzzer := by
    unfold follow
    cases h.machine.drew <;> exact ⟨rfl, h.active_signal _⟩
  have hactive : h.follow.1.buzzer.active = true ↔ 0 < h.follow.1.machine.timers.sound := by
    rw [hfollow.1, hfollow.2]
    exact hgated
  refine ⟨hactive, ?_⟩
  rw [(tuned_follow ht).playing, hactive]

theorem tuned_leave (ht : Tuned sounding (past ++ effects) h.buzzer) (printed : List String)
    (ending : Ending) :
    Tuned sounding (past ++ (h.leave effects printed ending).effects)
      (h.leave effects printed ending).host.buzzer := by
  change Tuned sounding (past ++ (effects ++ (h.signal false).2 ++ [.finish])) _
  rw [← List.append_assoc, ← List.append_assoc]
  exact (tuned_signal ht false).append rfl

theorem tuned_heardAt (ht : Tuned sounding past h.buzzer) (settings : HostSettings) (f : Frame) :
    Tuned sounding (past ++ (h.heardAt settings f).effects)
      (h.heardAt settings f).host.buzzer := by
  obtain ⟨windows, heffects⟩ := h.effects_heardAt settings f
  have hflips : soundCalls (windows.map .flip) = [] := by
    rw [soundCalls, List.filterMap_map]
    exact List.filterMap_eq_nil_iff.mpr fun _ _ => rfl
  rw [buzzer_heardAt, heffects]
  exact ht.append hflips

theorem hushed_leave (ht : Tuned sounding (past ++ effects) h.buzzer) (printed : List String)
    (ending : Ending) :
    Hushed (past ++ (h.leave effects printed ending).effects)
      (h.leave effects printed ending).host := by
  have hinactive : (h.leave effects printed ending).host.buzzer.active = false :=
    h.active_signal false
  refine ⟨hinactive, ?_⟩
  rw [(tuned_leave ht printed ending).playing, hinactive]
  exact nofun

/-- What a frame does to sound and buzzer. -/
structure Beeps (sounding : Bool) (past : List (Effect σ)) (p : Played σ) : Prop where
  tuned : Tuned sounding (past ++ p.effects) p.host.buzzer
  goesOn : p.ending = none → InTune sounding (past ++ p.effects) p.host
  /-- The frame has been completed before the host leaves. -/
  returns : p.ending = some .returned →
    ∃ g own printed, p = g.leave own printed .returned ∧ InTune sounding (past ++ own) g
  leaves : ∀ ending, p.ending = some ending → (∀ f, ending ≠ .broken f) →
    Hushed (past ++ p.effects) p.host

theorem beeps_frame (ht : Tuned sounding past h.buzzer) (settings : HostSettings) (f : Frame) :
    Beeps sounding past (h.frame settings f) := by
  have hfinished := h.frame_finished settings f
  generalize h.frame settings f = p at hfinished
  -- What has been heard and the cycle after it leave the buzzer alone.
  have hcycled : Tuned sounding (past ++ (h.heardAt settings f).effects)
      ((h.heardAt settings f).host.withMachine
        ((h.heardAt settings f).outcome settings f.now).machine).buzzer :=
    tuned_heardAt ht settings f
  cases hfinished with
  | crashed fault hfailure =>
    refine ⟨tuned_leave hcycled _ _, nofun, nofun, ?_⟩
    rintro _ - -
    exact hushed_leave hcycled _ _
  | broken fault hfailure =>
    refine ⟨hcycled, nofun, nofun, ?_⟩
    rintro _ ⟨⟩ hwhole
    exact absurd rfl (hwhole fault)
  | goesOn hfailure hrunning =>
    have hfollowed := inTune_follow (Machine.gated_of_returns hfailure) hcycled
    have htuned := tuned_follow hcycled
    rw [List.append_assoc] at hfollowed htuned
    exact ⟨htuned, fun _ => hfollowed, nofun, nofun⟩
  | returns hfailure hrunning =>
    have hfollowed := inTune_follow (Machine.gated_of_returns hfailure) hcycled
    have htuned := tuned_follow hcycled
    rw [List.append_assoc] at hfollowed htuned
    refine ⟨tuned_leave htuned _ _, nofun, fun _ => ⟨_, _, _, rfl, hfollowed⟩, ?_⟩
    rintro _ - -
    exact hushed_leave htuned _ _

end

/-! ### Whole runs -/

/-- What a whole run does to sound and buzzer. -/
structure Sounds (sounding : Bool) (t : Transcript σ) : Prop where
  turns : soundCalls (t.stretches.flatMap Stretch.effects) =
    inTurns (soundCalls (t.stretches.flatMap Stretch.effects)).length
  soundless : sounding = false → soundCalls (t.stretches.flatMap Stretch.effects) = []
  /-- Wherever a frame has been completed and another one follows. -/
  goesOn : ∀ before s after, t.stretches = before ++ s :: after → after ≠ [] →
    ∃ h, s.host = some h ∧ InTune sounding (before.flatMap Stretch.effects ++ s.effects) h
  /-- The last frame of a run that returns has been completed before the host leaves. -/
  returns : t.ending = .returned → ∃ before g own printed,
    t.stretches = before ++ [(g.leave own printed .returned).stretch] ∧
    InTune sounding (before.flatMap Stretch.effects ++ own) g
  /-- However the run ends, but for a clock that the timers cannot count with. -/
  leaves : (∀ f, t.ending ≠ .broken f) →
    ¬ Playing (t.stretches.flatMap Stretch.effects) ∧
    ∀ s h, t.stretches.getLast? = some s → s.host = some h → h.buzzer.active = false

/-- A machine that has been given its program is as silent as before. -/
theorem timers_boot {args : Arguments} {rom : Except RomError (List Byte)} {m m' : Machine}
    (hboot : boot args rom m = .ok m') : m'.timers = m.timers := by
  unfold boot at hboot
  rcases rom with e | data
  · cases e <;> cases hboot
  · dsimp only at hboot
    rcases m.load_cases data with ⟨-, hload⟩ | ⟨-, hload⟩ <;> rw [hload] at hboot <;> cases hboot
    rfl

/-- A host that has just been set up is silent, as is the machine it has been given. -/
theorem inTune_setUp {display : Display σ} {args : Arguments} {m : Machine} {h : Host σ}
    {effects : List (Effect σ)} (hsound : m.timers.sound = 0)
    (hset : setUp display args m = .ok (h, effects)) :
    (soundCalls effects = [] ∧ h.buzzer.active = false) ∧
      Tuned (beep? args).isSome effects h.buzzer ∧ InTune (beep? args).isSome effects h := by
  obtain ⟨⟨window, rfl⟩, width, height, sounds, hsounds, rfl⟩ := eq_of_setUp hset
  have hnone : soundCalls (opening args ++ [.openWindow width height] ++ sounds) = [] := by
    rcases hsounds with rfl | ⟨path, rfl⟩ <;> rfl
  refine ⟨⟨hnone, rfl⟩, tuned_of_none rfl hnone (fun h => nomatch h.2), ?_, ?_⟩
  · change false = true ↔ 0 < m.timers.sound
    rw [hsound]
    decide
  · change Playing _ ↔ _ ∧ 0 < m.timers.sound
    rw [Playing, hnone, hsound]
    exact ⟨nofun, fun h => absurd h.2 (by decide)⟩

/-- A run that ends before the first frame makes no call. -/
theorem sounds_of_frameless {sounding : Bool} {t : Transcript σ} {s : Stretch σ}
    (hstretches : t.stretches = [s]) (hnone : soundCalls s.effects = [])
    (hoff : ∀ h, s.host = some h → h.buzzer.active = false) (hending : t.ending ≠ .returned) :
    Sounds sounding t := by
  have hcalls : soundCalls (t.stretches.flatMap Stretch.effects) = [] := by
    rw [hstretches, List.flatMap_singleton, hnone]
  refine ⟨?_, fun _ => hcalls, ?_, fun h => absurd h hending, fun _ => ⟨?_, ?_⟩⟩
  · rw [hcalls]
    rfl
  · intro before s after hsplit hafter
    rw [hstretches] at hsplit
    cases before with
    | nil => exact absurd (List.cons.inj hsplit).2.symm hafter
    | cons b before => simp at hsplit
  · rw [Playing, hcalls]
    exact nofun
  · intro s' h hlast hsome
    rw [hstretches, List.getLast?_singleton] at hlast
    obtain rfl := Option.some.inj hlast
    exact hoff h hsome

theorem sounds_of_plays {sounding : Bool} {t : Transcript σ} {settings : HostSettings} {h : Host σ}
    {opened : List (Effect σ)} {fs : List Frame} {stretches : List (Stretch σ)}
    (hstretches : t.stretches = h.stretch opened :: stretches)
    (htuned : Tuned sounding opened h.buzzer) (hinTune : InTune sounding opened h)
    (hplays : Plays settings h fs stretches t.ending) : Sounds sounding t := by
  have hkeeps (past : List (Effect σ)) (h : Host σ) (f : Frame)
      (ht : Tuned sounding past h.buzzer) :=
    (beeps_frame ht settings f).tuned
  obtain ⟨earlier, g, f, rfl, hg, hending⟩ := hplays.last hkeeps htuned
  have hbeeps := beeps_frame hg settings f
  have heffects : t.stretches.flatMap Stretch.effects =
      opened ++ earlier.flatMap Stretch.effects ++ (g.frame settings f).effects := by
    rw [hstretches, List.flatMap_cons, List.flatMap_append, List.flatMap_singleton,
      List.append_assoc]
    rfl
  refine ⟨?_, ?_, ?_, ?_, ?_⟩
  · rw [heffects]
    exact hbeeps.tuned.turns
  · rw [heffects]
    exact hbeeps.tuned.soundless
  · intro before s after hsplit hafter
    rw [hstretches] at hsplit
    cases before with
    | nil =>
      obtain ⟨rfl, -⟩ := List.cons.inj hsplit
      exact ⟨h, rfl, hinTune⟩
    | cons b before =>
      obtain ⟨rfl, htail⟩ := List.cons.inj hsplit
      obtain ⟨g', y, hg', rfl, hnext⟩ := hplays.split hkeeps htuned htail
      rw [if_neg hafter] at hnext
      exact ⟨_, rfl, (beeps_frame hg' settings y).goesOn hnext⟩
  · intro hreturned
    rw [hreturned] at hending
    obtain ⟨last, own, printed, hleave, hlast⟩ := hbeeps.returns hending
    refine ⟨h.stretch opened :: earlier, last, own, printed, ?_, hlast⟩
    rw [hstretches, hleave]
    rfl
  · intro hwhole
    have hhushed := hbeeps.leaves _ hending hwhole
    rw [heffects]
    refine ⟨hhushed.silent, ?_⟩
    rintro s h' hs hhost
    rw [hstretches, ← List.cons_append, List.getLast?_concat] at hs
    obtain rfl := Option.some.inj hs
    obtain rfl := Option.some.inj hhost
    exact hhushed.inactive

/-- In a run the calls on the sound are in turns, the first one to play, and there are none without
a sound. Wherever a frame has been completed, sound and buzzer are on exactly while the sound timer
runs; whoever returns or gives up, after a crash say, leaves them off. -/
theorem run_sounds (on : Platform σ) (tracing : Bool) (random : Nat → Int) {argv : List String}
    (now : Float) (frames : List Frame) {args : Arguments}
    (hargs : Arguments.parse argv = .ok args) :
    Sounds (beep? args).isSome (run on tracing random argv now frames) := by
  rcases run_cases on tracing random now frames hargs with
    ⟨s, hquiet, hhost, hstretches, hending⟩ | ⟨m, h, opened, hboot, hset⟩
  · refine sounds_of_frameless hstretches ?_ (fun h hsome => ?_) hending
    · rcases hquiet with heffects | heffects <;> rw [heffects] <;> rfl
    · rw [hhost] at hsome
      cases hsome
  · have hsound : m.timers.sound = 0 := congrArg Timers.sound (timers_boot hboot)
    obtain ⟨⟨hnone, hoff⟩, htuned, hinTune⟩ := inTune_setUp hsound hset
    rcases run_plays on tracing random now frames hargs hboot hset with
      ⟨e, -, hstretches, hending⟩ | ⟨stretches, -, hstretches, hplays⟩
    · refine sounds_of_frameless hstretches hnone ?_ (hending ▸ nofun)
      rintro _ ⟨⟩
      exact hoff
    · exact sounds_of_plays hstretches htuned hinTune hplays

/-- A program that sounds for five ticks and stays where it is. -/
def chimeRom : List Byte := [0x6A, 0x05, 0xFA, 0x18, 0x12, 0x04]

/-- A platform that finds this program under every path. -/
def chimePlatform : Platform Surface := .ideal fun _ => .ok chimeRom

/-- The sound has been started in the second frame; the user starts over, and later quits. -/
def chimeFrames : List Frame :=
  [⟨[], 0⟩, ⟨[], 0⟩, ⟨[⟨.keyDown Event.resetCode, 0⟩], 0⟩, ⟨[], 0⟩, ⟨[⟨.quit, 0⟩], 0⟩]

/-- What the command line below asks for. -/
def chimeArgs : Arguments := ⟨.value "game", .value 500, .value 15, some (.value "beep")⟩

theorem parse_chime : Arguments.parse ["-f", "game", "--beep", "beep"] = .ok chimeArgs := by rfl

theorem read_chime : Rom.readGiven chimePlatform.files chimeArgs.file = .ok chimeRom := rfl

/-- A run of this program. -/
def chimeRun : Transcript Surface :=
  run chimePlatform false (fun _ => 0) ["-f", "game", "--beep", "beep"] 0 chimeFrames

theorem run_sounds_chime :
    soundCalls (chimeRun.stretches.flatMap Stretch.effects) = [.play, .stop, .play, .stop] ∧
      ¬ Playing (chimeRun.stretches.flatMap Stretch.effects) := by
  have hlength : (soundCalls (chimeRun.stretches.flatMap Stretch.effects)).length = 4 := by
    have hboot := boot_of_fits (by decide : chimeRom.length ≤ Memory.programLimit) chimeArgs 0
    rw [← read_chime] at hboot
    rw [chimeRun, (run_eq (h := ⟨_, _, _, _⟩) _ _ _ parse_chime hboot rfl).1]
    decide +kernel
  have hsounds : Sounds true chimeRun :=
    run_sounds chimePlatform false (fun _ => 0) 0 chimeFrames parse_chime
  have hcalls : soundCalls (chimeRun.stretches.flatMap Stretch.effects) =
      [.play, .stop, .play, .stop] := by
    rw [hsounds.turns, hlength]
    decide
  refine ⟨hcalls, ?_⟩
  rw [Playing, hcalls]
  decide

end Host

end ChipEight
