import ChipEight.Proofs.Frame
import ChipEight.Proofs.Host
import ChipEight.Proofs.Reach

/-!
The picture in the window is never out of date. By the two laws of its display a window that has
been drawn shows each pixel in one of two colours, whatever was on the surface before
(`pixel?_render`). It is drawn only where the machine says that it has drawn, or where it starts over, so the screen
may not change anywhere else: `cycle_kept` says so of cycles. `Fresh` is what a host keeps from one
event and one frame to the next, and `run_upToDate` is what follows for whole runs.
-/

namespace ChipEight

variable {σ : Type}

/-! ### Drawing -/

namespace Window

/-- A pixel of the surface is covered by what is painted for the squares of some pixels. -/
def inked (w : Window σ) (l : List (Nat × Nat)) (x y : Nat) : Bool :=
  l.any fun p => w.display.covers (w.square p) x y

/-- Painting squares leaves the sides of the surface. -/
theorem sides_foldl_paintSquare (w : Window σ) (l : List (Nat × Nat)) (s : σ) :
    w.display.width (l.foldl w.paintSquare s) = w.display.width s ∧
      w.display.height (l.foldl w.paintSquare s) = w.display.height s := by
  induction l generalizing s with
  | nil => exact ⟨rfl, rfl⟩
  | cons p l ih =>
    obtain ⟨hwidth, hheight⟩ := w.display.sides_paint s w.foreground (w.square p)
    obtain ⟨hwidth', hheight'⟩ := ih (w.paintSquare s p)
    exact ⟨hwidth'.trans hwidth, hheight'.trans hheight⟩

theorem sides_render (w : Window σ) (picture : List (List Bool)) :
    w.display.width (w.render picture).surface = w.display.width w.surface ∧
      w.display.height (w.render picture).surface = w.display.height w.surface := by
  obtain ⟨hwidth, hheight⟩ := w.display.sides_fill w.surface w.background
  obtain ⟨hwidth', hheight'⟩ := w.sides_foldl_paintSquare (litPositions picture)
    (w.display.fill w.surface w.background)
  exact ⟨hwidth'.trans hwidth, hheight'.trans hheight⟩

/-- Painting squares changes the pixels that are covered for one of them, and no others. -/
theorem pixel?_foldl_paintSquare (w : Window σ) (l : List (Nat × Nat)) (s : σ) (x y : Nat) :
    w.display.pixel? (l.foldl w.paintSquare s) x y =
      (w.display.pixel? s x y).map fun old => if w.inked l x y then w.foreground else old := by
  induction l generalizing s with
  | nil => simp [inked]
  | cons p l ih =>
    have hcons : w.inked (p :: l) x y = (w.display.covers (w.square p) x y || w.inked l x y) := rfl
    rw [List.foldl_cons, ih, paintSquare, w.display.pixel?_paint, Option.map_map, hcons]
    congr 1
    funext old
    rw [Function.comp_apply]
    cases w.display.covers (w.square p) x y <;> cases w.inked l x y <;> rfl

/-- What a window shows of a picture: the foreground where a square is painted, the background
everywhere else. -/
theorem pixel?_render (w : Window σ) (picture : List (List Bool)) (x y : Nat) :
    (w.render picture).pixel? x y =
      if x < w.display.width w.surface ∧ y < w.display.height w.surface then
        some (if w.inked (litPositions picture) x y then w.foreground else w.background)
      else none := by
  change w.display.pixel? ((litPositions picture).foldl w.paintSquare _) x y = _
  rw [pixel?_foldl_paintSquare, w.display.pixel?_fill]
  by_cases hinside : x < w.display.width w.surface ∧ y < w.display.height w.surface
  · rw [if_pos hinside, if_pos hinside, Option.map_some]
  · rw [if_neg hinside, if_neg hinside, Option.map_none]

/-- Of the surface there was before, only the sides matter to what is drawn. -/
theorem render_congr (w : Window σ) {old : σ} (picture : List (List Bool))
    (hwidth : w.display.width old = w.display.width w.surface)
    (hheight : w.display.height old = w.display.height w.surface) (x y : Nat) :
    (({ w with surface := old } : Window σ).render picture).pixel? x y =
      (w.render picture).pixel? x y := by
  rw [pixel?_render, pixel?_render]
  simp only [hwidth, hheight]
  rfl

/-- What was in the window does not matter to what is drawn in it. -/
theorem render_render (w : Window σ) (old new : List (List Bool)) (x y : Nat) :
    ((w.render old).render new).pixel? x y = (w.render new).pixel? x y :=
  w.render_congr new (w.sides_render old).1 (w.sides_render old).2 x y

/-- A dark screen leaves a window in its background colour. -/
theorem render_screen (display : Display σ) (width height scale : Int)
    (background foreground : Colour) (surface : σ) (x y : Nat) :
    let w := onSurface display width height scale background foreground surface
    (w.render Framebuffer.screen.rows).pixel? x y = w.pixel? x y := by
  have hdark : litPositions Framebuffer.screen.rows = [] := by decide +kernel
  obtain ⟨hwidth, hheight⟩ := display.sides_fill surface background
  intro w
  rw [pixel?_render, hdark]
  simp only [w, pixel?, onSurface, hwidth, hheight, display.pixel?_fill]
  rfl

end Window

/-! ### Flips -/

/-- The window that an effect flips. -/
def Effect.flipped? : Effect σ → Option (Window σ)
  | .flip w => some w
  | _ => none

/-- The window of the last flip among some effects. -/
def lastFlip (effects : List (Effect σ)) : Option (Window σ) :=
  (effects.filterMap Effect.flipped?).getLast?

theorem lastFlip_append (past effects : List (Effect σ)) :
    lastFlip (past ++ effects) = (lastFlip effects).or (lastFlip past) := by
  rw [lastFlip, List.filterMap_append, List.getLast?_append]
  rfl

theorem lastFlip_sounds (calls : List SoundCall) :
    lastFlip (calls.map (.sound : SoundCall → Effect σ)) = none := by
  have hnone :
      (calls.map (Effect.sound : SoundCall → Effect σ)).filterMap Effect.flipped? = [] := by
    rw [List.filterMap_map]
    exact List.filterMap_eq_nil_iff.mpr fun _ _ => rfl
  rw [lastFlip, hnone]
  rfl

namespace Host

/-- The window is as drawing the screen again would leave it, and it has been flipped since it was
drawn, or else nothing has ever been drawn. -/
structure Fresh (past : List (Effect σ)) (h : Host σ) : Prop where
  drawn : ∀ x y, h.window.pixel? x y = (h.window.render h.machine.screen.rows).pixel? x y
  flipped : lastFlip past = some h.window ∨
    (lastFlip past = none ∧ h.machine.screen = Framebuffer.screen)

namespace Fresh

variable {past : List (Effect σ)} {h : Host σ}

/-- Other effects than flips do not matter. -/
theorem append (hf : Fresh past h) {effects : List (Effect σ)} (he : lastFlip effects = none) :
    Fresh (past ++ effects) h := by
  refine ⟨hf.drawn, ?_⟩
  rw [lastFlip_append, he]
  exact hf.flipped

/-- The machine may go on as long as its screen stays. -/
theorem withMachine (hf : Fresh past h) {m : Machine} (hscreen : m.screen = h.machine.screen) :
    Fresh past (h.withMachine m) := by
  refine ⟨?_, ?_⟩
  · change ∀ x y, h.window.pixel? x y = (h.window.render m.screen.rows).pixel? x y
    rw [hscreen]
    exact hf.drawn
  · change _ ∨ (_ ∧ m.screen = _)
    rw [hscreen]
    exact hf.flipped

/-- Drawing and flipping sets everything right, whatever has been there before. -/
theorem redraw (past : List (Effect σ)) (h : Host σ) :
    Fresh (past ++ h.redraw.2) h.redraw.1 := by
  refine ⟨fun x y => (h.window.render_render _ _ x y).symm, .inl ?_⟩
  rw [lastFlip_append]
  rfl

theorem signal (hf : Fresh past h) (on : Bool) :
    Fresh (past ++ (h.signal on).2) (h.signal on).1 := by
  have hsounds := hf.append (lastFlip_sounds (h.buzzer.update on).2)
  exact ⟨hsounds.drawn, hsounds.flipped⟩

theorem leave {effects : List (Effect σ)} (hf : Fresh (past ++ effects) h) (printed : List String)
    (ending : Ending) :
    Fresh (past ++ (h.leave effects printed ending).effects)
      (h.leave effects printed ending).host := by
  change Fresh (past ++ (effects ++ (h.signal false).2 ++ [.finish])) (h.signal false).1
  rw [List.append_assoc, ← List.append_assoc past, ← List.append_assoc]
  exact (hf.signal false).append rfl

/-- A machine that says it has drawn may have any screen, since that is drawn at once. -/
theorem follow (hf : Fresh past h) {m : Machine}
    (hscreen : m.drew = true ∨ m.screen = h.machine.screen) :
    Fresh (past ++ (h.withMachine m).follow.2) (h.withMachine m).follow.1 := by
  unfold Host.follow
  dsimp only
  cases hdrew : (h.withMachine m).machine.drew with
  | true =>
    rw [if_pos rfl, ← List.append_assoc]
    exact redraw _ _
  | false =>
    have hsame : m.screen = h.machine.screen :=
      hscreen.resolve_left fun hd => absurd (hdrew.symm.trans hd) nofun
    rw [if_neg nofun, List.append_nil]
    exact (hf.withMachine hsame).signal _

/-! ### Frames -/

theorem hear {t : Turn σ} (hf : Fresh (past ++ t.effects) t.host) (e : TimedEvent) :
    Fresh (past ++ (t.hear e).effects) (t.hear e).host := by
  unfold Turn.hear
  split
  · exact hf
  split
  · dsimp only
    rw [← List.append_assoc]
    exact redraw _ _
  · exact ⟨hf.drawn, hf.flipped⟩

theorem hearAll {t : Turn σ} (hf : Fresh (past ++ t.effects) t.host) (es : List TimedEvent) :
    Fresh (past ++ (t.hearAll es).effects) (t.hearAll es).host := by
  induction es generalizing t with
  | nil => exact hf
  | cons e es ih => exact ih (hf.hear e)

theorem finish {t : Turn σ} (hf : Fresh (past ++ t.effects) t.host) (settings : HostSettings)
    (now : Float) :
    Fresh (past ++ (t.finish settings now).effects) (t.finish settings now).host := by
  have hscreen : _ ∨ (t.outcome settings now).machine.screen = _ :=
    (t.host.machine.cycle_kept settings.tracing (t.surroundings settings now)).screen
  have hfinished := finish_finished t settings now
  -- a cycle that fails has not changed the screen, since it has not completed
  have hstill {f : Failure} (h : (t.outcome settings now).failure = some f) :
      (t.outcome settings now).machine.screen = t.host.machine.screen :=
    hscreen.resolve_left fun hd => absurd (h.symm.trans hd.1) nofun
  have hfollow := hf.follow (hscreen.imp_left fun hd => hd.2)
  rw [List.append_assoc] at hfollow
  generalize t.finish settings now = p at hfinished ⊢
  cases hfinished with
  | crashed f hfailure => exact (hf.withMachine (hstill hfailure)).leave _ _
  | broken f hfailure => exact hf.withMachine (hstill hfailure)
  | goesOn => exact hfollow
  | returns => exact hfollow.leave _ _

theorem frame (hf : Fresh past h) (settings : HostSettings) (f : Frame) :
    Fresh (past ++ (h.frame settings f).effects) (h.frame settings f).host :=
  ((hf.append rfl).hearAll f.events).finish settings f.now

end Fresh

/-! ### Runs -/

/-- Every stretch ends with a host whose window is fresh by then. -/
def KeepsFresh (past : List (Effect σ)) (stretches : List (Stretch σ)) : Prop :=
  ∀ before s after, stretches = before ++ s :: after →
    ∃ h, s.host = some h ∧ Fresh (past ++ before.flatMap Stretch.effects ++ s.effects) h

theorem keepsFresh_nil (past : List (Effect σ)) : KeepsFresh past [] := by
  intro before s after h
  simp at h

theorem Fresh.keepsFresh_cons {past effects : List (Effect σ)} {h : Host σ}
    (hf : Fresh (past ++ effects) h) {stretches : List (Stretch σ)}
    (hrest : KeepsFresh (past ++ effects) stretches) :
    KeepsFresh past (h.stretch effects :: stretches) := by
  intro before s after heq
  cases before with
  | nil =>
    obtain ⟨rfl, -⟩ := List.cons.inj heq
    refine ⟨h, rfl, ?_⟩
    rw [List.flatMap_nil, List.append_nil]
    exact hf
  | cons b before =>
    obtain ⟨rfl, htail⟩ := List.cons.inj heq
    obtain ⟨h', hhost, hf'⟩ := hrest before s after htail
    refine ⟨h', hhost, ?_⟩
    rw [List.flatMap_cons, ← List.append_assoc]
    exact hf'

theorem Fresh.play {past : List (Effect σ)} {h : Host σ} (hf : Fresh past h)
    (settings : HostSettings) (now : Float) (frames : List Frame) :
    KeepsFresh past (play settings h now frames).stretches := by
  induction frames generalizing past h now with
  | nil => exact (hf.frame settings (.closing now)).keepsFresh_cons (keepsFresh_nil _)
  | cons f fs ih =>
    have hframe := hf.frame settings f
    rw [stretches_play_cons]
    refine hframe.keepsFresh_cons ?_
    split
    · exact keepsFresh_nil _
    · exact ih hframe _

/-- At a moment of a run, the surface shows pixel for pixel what drawing the machine's screen would
show, and so did the window that was flipped last. Before the first flip the screen is dark. -/
structure UpToDate (past : List (Effect σ)) (h : Host σ) : Prop where
  surface : ∀ x y, h.window.pixel? x y = (h.window.render h.machine.screen.rows).pixel? x y
  flipped : ∀ w, lastFlip past = some w →
    ∀ x y, w.pixel? x y = (h.window.render h.machine.screen.rows).pixel? x y
  unflipped : lastFlip past = none → h.machine.screen = Framebuffer.screen

theorem Fresh.upToDate {past : List (Effect σ)} {h : Host σ} (hf : Fresh past h) :
    UpToDate past h := by
  refine ⟨hf.drawn, fun w hw => ?_, fun hnone => ?_⟩
  · rcases hf.flipped with hflip | ⟨hnone, -⟩
    · obtain rfl : h.window = w := Option.some.inj (hflip.symm.trans hw)
      exact hf.drawn
    · exact absurd (hnone.symm.trans hw) nofun
  · rcases hf.flipped with hflip | ⟨-, hdark⟩
    · exact absurd (hnone.symm.trans hflip) nofun
    · exact hdark

/-- A window that has just been opened is as dark as the machine behind it. -/
theorem fresh_setUp {display : Display σ} {scale : Int} {surface : σ} {m : Machine}
    (hdark : m.screen = Framebuffer.screen) {args : Arguments}
    (hwindow : openWindow display args.scale = .ok (.onSurface display Framebuffer.screenWidth
      Framebuffer.screenHeight scale Window.blue Window.lightBlue surface)) :
    ∃ h effects, setUp display args m = .ok (h, effects) ∧ Fresh effects h := by
  obtain ⟨sounds, hsounds, hset⟩ := setUp_of_window (m := m) hwindow
  refine ⟨_, _, hset, ?_, .inr ⟨?_, hdark⟩⟩
  · change ∀ x y, _ = (Window.render _ m.screen.rows).pixel? x y
    rw [hdark]
    exact fun x y => (Window.render_screen _ _ _ _ _ _ _ x y).symm
  · rw [lastFlip_append]
    rcases hsounds with rfl | ⟨path, rfl⟩ <;> rfl

/-- The frames of a run keep the window fresh, if they can be paced. -/
theorem Fresh.loop {past : List (Effect σ)} {h : Host σ} (hf : Fresh past h) (on : Platform σ)
    (settings : HostSettings) (now : Float) (frames : List Frame) :
    KeepsFresh past (h.loop on settings now frames).stretches := by
  unfold Host.loop
  rcases on.pace settings.hz with e | _
  · exact keepsFresh_nil _
  · exact hf.play settings now frames

/-- In a run with a program that can be loaded, each stretch of it, whatever has happened so far,
ends with a host whose window is up to date. There is no host where the display has no surface of
the size of the screen at this scale, which an ample display has at every scale. -/
theorem run_upToDate (on : Platform σ) (tracing : Bool) (random : Nat → Int) {argv : List String}
    (now : Float) (frames : List Frame) {args : Arguments}
    (hargs : Arguments.parse argv = .ok args) {data : List Byte}
    (hrom : Rom.readGiven on.files args.file = .ok data)
    (hfits : data.length ≤ Memory.programLimit) {scale : Int} (hscale : args.scale = .value scale)
    (hpos : 1 ≤ scale) {before : List (Stretch σ)} {s : Stretch σ} {after : List (Stretch σ)}
    (hrun : (run on tracing random argv now frames).stretches = before ++ s :: after) :
    (on.display.Ample ∨ (openWindow on.display args.scale).isOk = true → s.host.isSome = true) ∧
      ∀ h, s.host = some h → UpToDate (before.flatMap Stretch.effects ++ s.effects) h := by
  obtain ⟨m, hboot, hdark⟩ : ∃ m, boot args (Rom.readGiven on.files args.file) (Machine.start now) =
      .ok m ∧ m.screen = Framebuffer.screen := ⟨_, hrom ▸ boot_of_fits hfits args now, rfl⟩
  rcases hopen : openWindow on.display args.scale with e | window
  · have hmem : s ∈ before ++ s :: after := List.mem_append_right before List.mem_cons_self
    rw [← hrun, stretches_run_windowless tracing random frames hargs hboot hopen] at hmem
    obtain rfl := List.mem_singleton.mp hmem
    refine ⟨?_, fun h hhost => ?_⟩
    · rintro (hample | hok)
      · obtain ⟨surface, hwindow⟩ := openWindow_of_ample hample hpos
        rw [hscale, hwindow] at hopen
        cases hopen
      · cases hok
    · have hnone : (none : Option (Host σ)) = some h := hhost
      cases hnone
  · obtain ⟨surface, -, rfl⟩ := onSurface_of_openWindow (hscale ▸ hopen)
    obtain ⟨h, effects, hset, hfresh⟩ := fresh_setUp hdark hopen
    rw [(run_eq tracing random frames hargs hboot hset).1] at hrun
    have hopened : Fresh ([] ++ effects) h := hfresh
    obtain ⟨h', hhost, hf⟩ :=
      hopened.keepsFresh_cons (hopened.loop on _ now frames) before s after hrun
    refine ⟨fun _ => hhost ▸ rfl, fun g hg => ?_⟩
    obtain rfl : h' = g := Option.some.inj (hhost.symm.trans hg)
    exact hf.upToDate

/-- A program that draws a digit and then stays where it is. -/
def digitRom : List Byte := [0xF0, 0x29, 0xD0, 0x05, 0x12, 0x04]

/-- A platform that finds this program under every path. -/
def digitPlatform : Platform Surface := .ideal fun _ => .ok digitRom

/-- The digit is drawn in the second frame. The third one starts over among other events, so that it
is drawn once more in the fourth one, where the run ends. -/
def digitFrames : List Frame :=
  [⟨[], 0⟩, ⟨[⟨.motion, 0⟩], 0⟩,
    ⟨[⟨.keyDown 49, 0⟩, ⟨.keyDown Event.resetCode, 0⟩, ⟨.keyUp 49, 0⟩], 0⟩, ⟨[⟨.quit, 0⟩], 0⟩]

/-- What the command line below asks for. -/
def digitArgs : Arguments := ⟨.value "game", .value 500, .value 15, none⟩

theorem parse_digit : Arguments.parse ["-f", "game"] = .ok digitArgs := by rfl

theorem read_digit : Rom.readGiven digitPlatform.files digitArgs.file = .ok digitRom := rfl

/-- The stretches of a run of this program. -/
def digitRun : List (Stretch Surface) :=
  (run digitPlatform false (fun _ => 0) ["-f", "game"] 0 digitFrames).stretches

theorem run_upToDate_digit :
    ∃ before s after h, digitRun = before ++ s :: after ∧ before.length = 4 ∧ s.host = some h ∧
      UpToDate (before.flatMap Stretch.effects ++ s.effects) h ∧
      h.window.pixel? 0 0 = some Window.lightBlue := by
  have hlit : (digitRun[4]?.bind Stretch.host).bind (·.window.pixel? 0 0) =
      some Window.lightBlue := by
    have hfits : digitRom.length ≤ Memory.programLimit := by decide
    have hboot := boot_of_fits hfits digitArgs 0
    rw [← read_digit] at hboot
    rw [digitRun, (run_eq (h := ⟨_, _, _, _⟩) _ _ _ parse_digit hboot rfl).1]
    decide +kernel
  obtain ⟨h, hstretch, hpixel⟩ := Option.bind_eq_some_iff.mp hlit
  obtain ⟨s, hs, hhost⟩ := Option.bind_eq_some_iff.mp hstretch
  obtain ⟨hlt, rfl⟩ := List.getElem?_eq_some_iff.mp hs
  have hsplit : digitRun = digitRun.take 4 ++ digitRun[4] :: digitRun.drop 5 := by
    rw [← List.drop_eq_getElem_cons hlt, List.take_append_drop]
  have hup := run_upToDate digitPlatform false (fun _ => 0) 0 digitFrames parse_digit read_digit
    (by decide) rfl (by decide) hsplit
  have hlength := List.length_take_of_le (Nat.le_of_lt hlt)
  exact ⟨_, _, _, _, hsplit, hlength, hhost, hup.2 h hhost, hpixel⟩

end Host

end ChipEight
