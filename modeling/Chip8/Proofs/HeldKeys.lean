import Chip8.Proofs.Exchange
import Chip8.Proofs.FaultReport

/-! The keypad that an interpreter is told of mirrors the keyboard. A key of the keypad is held
exactly if its physical key was pressed when it was last heard of, whatever else happens to the
front end and whether or not a step of it fails.
-/

namespace Chip8

-----------------------------------------------------------------------------------------
-- Keyboards
-----------------------------------------------------------------------------------------

namespace Keyboard

theorem layout_injective
    : ∀ key other : Nibble, layout.get key = layout.get other → key = other := by
  decide

/-- A physical key stands for the key of the keypad at its place in the layout, as no code has two
places.
-/
theorem keypadKey?_eq_some_iff {code : String} {key : Nibble}
    : keypadKey? code = some key ↔ layout.get key = code := by
  have alone (key other : Nibble) (named : (layout.get key == code) = true)
      (named_other : (layout.get other == code) = true)
      : key = other :=
    layout_injective _ _ ((beq_iff_eq.mp named).trans (beq_iff_eq.mp named_other).symm)
  exact (Nibble.find?_eq_some_iff alone).trans beq_iff_eq

end Keyboard

-----------------------------------------------------------------------------------------
-- No interpreter changes the keypad
-----------------------------------------------------------------------------------------

namespace Handoff

theorem keypad_receive (handoff : Handoff) (call : Call)
    : (Host.receive handoff call).keypad = handoff.keypad := by
  cases call <;> rfl

theorem keypad_receiveAll (handoff : Handoff) (calls : List Call)
    : (Host.receiveAll handoff calls).keypad = handoff.keypad := by
  induction calls generalizing handoff with
  | nil => rfl
  | cons call rest ih => exact (ih (Host.receive handoff call)).trans (keypad_receive handoff call)

end Handoff

namespace Scheduler

theorem keypad_serve (scheduler : Scheduler) (handoff : Handoff) (wake : Wake)
    : (scheduler.serve handoff wake).host.keypad = handoff.keypad := by
  cases wake with
  | cancelled => rfl
  | instruction => exact handoff.keypad_receiveAll _
  | timer => exact handoff.keypad_receiveAll _

/-- By induction over the wakes; the end of a run silences the tone and leaves the keypad. -/
theorem keypad_serveAll (scheduler : Scheduler) (handoff : Handoff) (wakes : List Wake)
    : (scheduler.serveAll handoff wakes).host.keypad = handoff.keypad := by
  induction wakes generalizing scheduler handoff with
  | nil => rfl
  | cons wake rest ih =>
      have served := scheduler.keypad_serve handoff wake
      simp only [serveAll]
      split
      · exact (Handoff.keypad_receive _ .stopTone).trans served
      · exact (ih _ _).trans served

end Scheduler

namespace Worker

theorem keypad_pass (worker : Worker) (handoff : Handoff) (wake : Wake)
    : (worker.pass handoff wake).2.keypad = handoff.keypad := by
  rw [pass]
  split
  · exact worker.scheduler.keypad_serveAll handoff [wake]
  · rfl

theorem keypad_passAll (worker : Worker) (handoff : Handoff) (wakes : List Wake)
    : (worker.passAll handoff wakes).2.keypad = handoff.keypad := by
  induction wakes generalizing worker handoff with
  | nil => rfl
  | cons wake rest ih =>
      rw [passAll_cons]
      exact (ih _ _).trans (worker.keypad_pass handoff wake)

end Worker

-----------------------------------------------------------------------------------------
-- What a step does to the keypad
-----------------------------------------------------------------------------------------

namespace FrontEnd

/-- To what a step sets a key of the keypad, if it sets this one: its physical key was pressed or
released, and did not mean Escape.
-/
def Step.press? (key : Nibble) : Step → Option Bool
  | .event (.key code false pressed) .. =>
      if Keyboard.layout.get key = code then some pressed else none
  | _ => none

theorem keypad_interpret (frontEnd : FrontEnd) (wakes : List Wake)
    : (frontEnd.interpret wakes).handoff.keypad = frontEnd.handoff.keypad := by
  rw [interpret]
  split
  · rfl
  · next worker _ => exact worker.keypad_passAll frontEnd.handoff wakes

theorem keypad_shutdown (frontEnd : FrontEnd) (before : List Wake)
    : (frontEnd.shutdown before).1.handoff.keypad = frontEnd.handoff.keypad := by
  rw [shutdown]
  split
  · rfl
  · next worker _ => exact worker.stop.keypad_passAll frontEnd.handoff (before ++ [.cancelled])

theorem keypad_close (frontEnd : FrontEnd) (before : List Wake)
    : (frontEnd.close before).1.handoff.keypad = frontEnd.handoff.keypad :=
  frontEnd.exit.keypad_shutdown before

/-- A redraw keeps the keypad whether it closes, fails for want of a surface, is not rendered or
draws.
-/
theorem keypad_redrawAgainst (frontEnd : FrontEnd) (refusal? : Option Refusal) (dt : Float32)
    (before checked taken : List Wake)
    : (frontEnd.redrawAgainst refusal? dt before checked taken).1.handoff.keypad
      = frontEnd.handoff.keypad := by
  rw [redrawAgainst]
  split
  · exact frontEnd.keypad_close before
  · obtain ⟨_, _, _, _, drawn, _⟩ :=
      drawAgainst_eq ((frontEnd.interpret checked).refresh.interpret taken).syncTone refusal? dt
    rw [drawn]
    exact (keypad_interpret _ taken).trans (frontEnd.keypad_interpret checked)

theorem handoff_resizeAgainst (frontEnd : FrontEnd) (refusal? : Option Refusal)
    (width height : UInt32)
    : (frontEnd.resizeAgainst refusal? width height).1.handoff = frontEnd.handoff := by
  rw [resizeAgainst]
  split <;> rfl

theorem keypad_setKey (frontEnd : FrontEnd) (code : String) (pressed : Bool) (key : Nibble)
    : (frontEnd.setKey code pressed).handoff.keypad.get key
      = if Keyboard.layout.get key = code then pressed else frontEnd.handoff.keypad.get key := by
  cases found : Keyboard.keypadKey? code with
  | none =>
      have foreign : Keyboard.layout.get key ≠ code := by
        rw [Ne, ← Keyboard.keypadKey?_eq_some_iff, found]
        nofun
      rw [if_neg foreign, setKey, found]
  | some other =>
      have changed := frontEnd.handoff.keypad_perform (.setKey other pressed) key
      have named : Keyboard.layout.get key = code ↔ other = key := by
        rw [← Keyboard.keypadKey?_eq_some_iff, found, Option.some.injEq]
      rw [Handoff.Operation.press?] at changed
      simp only [setKey, found, named]
      refine changed.trans ?_
      split <;> rfl

/-- A step sets the keys that its event names, and every other key stays as it is. -/
theorem keypad_step (frontEnd : FrontEnd) (step : Step) (key : Nibble)
    : (frontEnd.perform step).1.handoff.keypad.get key
      = (step.press? key).getD (frontEnd.handoff.keypad.get key) := by
  cases step with
  | interpret wakes => exact congrArg (·.get key) (frontEnd.keypad_interpret wakes)
  | resume refusal? => rcases refusal? with _ | _ | _ | _ | _ <;> rfl
  | shutdown before => exact congrArg (·.get key) (frontEnd.keypad_shutdown before)
  | event event before checked taken refusal? =>
      cases event with
      | close => exact congrArg (·.get key) (frontEnd.keypad_close before)
      | key code escape pressed =>
          cases escape with
          | true => exact congrArg (·.get key) (frontEnd.keypad_close before)
          | false =>
              refine (frontEnd.keypad_setKey code pressed key).trans ?_
              rw [Step.press?]
              split <;> rfl
      | resized width height =>
          exact congrArg (·.keypad.get key) (frontEnd.handoff_resizeAgainst refusal? width height)
      | redraw dt =>
          exact congrArg (·.get key)
            (frontEnd.keypad_redrawAgainst refusal? dt before checked taken)
      | other => rfl

/-- After any steps a key is as the last of them that set it has left it, by induction over the
steps from their end.
-/
theorem keypad_performAll (frontEnd : FrontEnd) (steps : List Step) (key : Nibble)
    : (frontEnd.performAll steps).handoff.keypad.get key
      = (steps.filterMap (Step.press? key)).getLast?.getD (frontEnd.handoff.keypad.get key) := by
  induction steps using List.reverseRecOn with
  | nil => rfl
  | append_singleton earlier step ih =>
      rw [performAll_append]
      refine (keypad_step _ step key).trans ?_
      rw [List.filterMap_append, List.getLast?_append, ih]
      cases sets : step.press? key <;> simp [sets]

/-- A step that sets no key leaves the whole keypad. -/
theorem pressedKeys_of_sets_none {frontEnd : FrontEnd} {step : Step}
    (sets : ∀ key, step.press? key = none)
    : (frontEnd.perform step).1.handoff.pressedKeys = frontEnd.handoff.pressedKeys := by
  have same (key : Nibble)
      : (frontEnd.perform step).1.handoff.keypad.get key = frontEnd.handoff.keypad.get key := by
    rw [keypad_step, sets, Option.getD_none]
  simp only [Handoff.pressedKeys, same]

end FrontEnd

open FrontEnd in
/-- A front end that begins with a fresh handoff is led through any steps, of which each may fail:
events of its window, with whatever its interpreter does and the window system refuses meanwhile,
and what else happens to it. Then the interpreter is told in ascending order of exactly those keys
of the keypad whose physical key was pressed, not as Escape, when it was last pressed or released
other than as Escape. A step that is no such event of one of these sixteen physical keys leaves
what it is told, from wherever it is taken.
-/
theorem keypad_mirrors_keyboard {frontEnd : FrontEnd} (fresh : frontEnd.handoff = .fresh)
    : (∀ steps : List Step,
        let keys := Host.pressedKeys (frontEnd.performAll steps).handoff
        keys.Pairwise (· < ·)
        ∧ (∀ byte ∈ keys, byte ≤ 15)
        ∧ ∀ key : Nibble,
            key.toByte ∈ keys ↔ (steps.filterMap (Step.press? key)).getLast? = some true)
      ∧ ∀ (steps : List Step) (step : Step),
          let reached := frontEnd.performAll steps
          (∀ key pressed before checked taken refusal?,
            step
            ≠ .event (.key (Keyboard.layout.get key) false pressed) before checked taken refusal?)
          → Host.pressedKeys (reached.perform step).1.handoff
            = Host.pressedKeys reached.handoff := by
  constructor
  · intro steps keys
    refine ⟨Handoff.pressedKeys_ascending _, fun _ => Handoff.le_of_mem_pressedKeys, ?_⟩
    intro key
    have released : frontEnd.handoff.keypad.get key = false := by
      rw [fresh]
      exact Vector.getElem_replicate key.isLt
    have default_false (said : Option Bool) : said.getD false = true ↔ said = some true := by
      cases said <;> simp
    refine Handoff.toByte_mem_pressedKeys.trans ?_
    rw [keypad_performAll, released, default_false]
  · intro steps step reached other
    apply pressedKeys_of_sets_none
    intro key
    rw [Step.press?.eq_def]
    split
    · next code pressed before checked taken refusal? =>
        apply if_neg
        rintro rfl
        exact other key pressed before checked taken refusal? rfl
    · rfl

open FrontEnd in
/-- Two keys are pressed, one of them again while it is held, a redraw fails, and one is released.
To release the other as Escape closes the window and leaves that key held.
-/
theorem key_released_as_escape_stays_held
    : ∃ frontEnd,
        FrontEnd.start
            { path := "keys", clock := 500, scale := 10, frequency := 350
              foreground := ⟨0x3D, 0x80, 0x26⟩, background := ⟨0xF9, 0xFF, 0xB3⟩
              dialect := .modern, seed? := none, verbose := false }
            #[0xF0, 0x0A] (KeyStream.keyOfSeed 0)
          = .ok frontEnd
        ∧ let steps : List Step :=
            [.event (.key "KeyX" false true) [] [] [] none,
              .event (.key "KeyQ" false true) [] [] [] none,
              .event (.key "KeyQ" false true) [] [] [] none,
              .event (.redraw 0) [] [] [.instruction] none,
              .event (.key "KeyQ" false false) [] [] [] none,
              .event (.key "Space" false true) [] [] [] none]
          let escape : Step := .event (.key "KeyX" true false) [] [] [] none
          let reached := frontEnd.performAll steps
          frontEnd.handoff = .fresh
          ∧ (steps.filterMap (Step.press? 0x0)).getLast? = some true
          ∧ (steps.filterMap (Step.press? 0x4)).getLast? = some false
          ∧ 0x0 ∈ Host.pressedKeys reached.handoff
          ∧ 0x4 ∉ Host.pressedKeys reached.handoff
          ∧ Host.pressedKeys (reached.perform escape).1.handoff
            = Host.pressedKeys reached.handoff := by
  let commandLine : CommandLine :=
    { path := "keys", clock := 500, scale := 10, frequency := 350
      foreground := ⟨0x3D, 0x80, 0x26⟩, background := ⟨0xF9, 0xFF, 0xB3⟩
      dialect := .modern, seed? := none, verbose := false }
  let scheduler : Scheduler := .ready (.boot #[0xF0, 0x0A] .modern (.ofSeed 0)) 2 .standard
  let frontEnd : FrontEnd :=
    { detached commandLine commandLine.title with
      worker? := some (Worker.spawn scheduler Handoff.fresh).1
      handoff := (Worker.spawn scheduler Handoff.fresh).2 }
  have fresh : frontEnd.handoff = .fresh := rfl
  refine ⟨frontEnd, rfl, ?_⟩
  intro steps escape reached
  obtain ⟨mirrored, others⟩ := keypad_mirrors_keyboard fresh
  obtain ⟨_, _, held⟩ := mirrored steps
  have pressed : (steps.filterMap (Step.press? 0x0)).getLast? = some true := by decide
  have released : (steps.filterMap (Step.press? 0x4)).getLast? = some false := by decide
  refine ⟨fresh, pressed, released, (held 0x0).mpr pressed, ?_, others steps escape ?_⟩
  · intro listed
    have last := (held 0x4).mp listed
    rw [released] at last
    contradiction
  · intro key pressed before checked taken refusal? same
    injection same with same
    injection same with _ same
    contradiction

end Chip8
