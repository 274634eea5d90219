import Chip8.Proofs.Checked.Drawing
import Chip8.Proofs.RunEnd

/-! Whole cycles, and a scheduler that runs them, with every operation checked. The machine and its
scheduler come to what the checked ones come to, whatever is asked of them and in which order.
-/

namespace Chip8.Checked

-----------------------------------------------------------------------------------------
-- Instructions
-----------------------------------------------------------------------------------------

/-- The reported keys that a keypad has, each made a nibble behind a comparison. -/
def heldKeys (report : List UInt8) : Checked (List Nibble) :=
  (report.filter (· ≤ 0x0F)).mapM digit

@[simp] theorem heldKeys_eq (report : List UInt8) : heldKeys report = .ok (Keypad.held report) := by
  induction report with
  | nil => rfl
  | cons key rest ih =>
      rw [heldKeys] at ih
      by_cases small : key ≤ 0x0F
      · have inside : key.toNat < 16 := Nat.lt_succ_of_le (UInt8.le_iff_toNat_le.mp small)
        have named : Nibble.ofByte? key = some ⟨key.toNat, inside⟩ := dif_pos inside
        rw [heldKeys, List.filter_cons_of_pos (by simpa using small), List.mapM_cons, ih,
          digit_of_ofByte? named, Keypad.held, Keypad.held, List.filterMap_cons_some named]
        rfl
      · have foreign : Nibble.ofByte? key = none :=
          dif_neg fun inside => small (UInt8.le_iff_toNat_le.mpr (Nat.le_of_lt_succ inside))
        rw [heldKeys, List.filter_cons_of_neg (by simpa using small), ih, Keypad.held, Keypad.held,
          List.filterMap_cons_none foreign]

/-- Whether a report holds the key with a given value. -/
def isHeld (report : List UInt8) (key : UInt8) : Checked Bool := do
  return (← heldKeys report).any fun nibble => nibble.toByte == key

@[simp] theorem isHeld_eq (report : List UInt8) (key : UInt8)
    : isHeld report key = .ok (Keypad.isHeld report key) := by
  rw [isHeld, heldKeys_eq]
  rfl

def takeKey (machine : Machine) (x : Nibble) : List Nibble → Checked Machine
  | key :: _ => setRegister machine x key.toByte
  | [] => return { machine with pc := machine.pc - 2 }

@[simp] theorem takeKey_eq (machine : Machine) (x : Nibble) (keys : List Nibble)
    : takeKey machine x keys = .ok (machine.takeKey x keys) := by
  cases keys with
  | nil => rfl
  | cons key rest => exact setRegister_eq machine x key.toByte

def execute (machine : Machine) (instruction : Instruction) (report : List UInt8)
    : Checked Turn := do
  match instruction with
  | .clear => return .publishing { machine with display := .blank }
  | .ret =>
      match machine.stack with
      | [] => return { machine := machine, fault? := some (.emptyStack machine.lastAddress) }
      | address :: rest => return { machine := { machine with pc := address, stack := rest } }
  | .jump nnn => return { machine := { machine with pc := UInt16.ofNat nnn.val } }
  | .call nnn =>
      return { machine :=
        { machine with
          stack := machine.pc :: machine.stack
          pc := UInt16.ofNat nnn.val } }
  | .skipEqualByte x nn =>
      return { machine := machine.skipWhen ((← register machine x) == nn) }
  | .skipUnequalByte x nn =>
      return { machine := machine.skipWhen ((← register machine x) != nn) }
  | .skipEqual x y =>
      return { machine := machine.skipWhen ((← register machine x) == (← register machine y)) }
  | .skipUnequal x y =>
      return { machine := machine.skipWhen ((← register machine x) != (← register machine y)) }
  | .setByte x nn => return { machine := ← setRegister machine x nn }
  | .addByte x nn => return { machine := ← setRegister machine x ((← register machine x) + nn) }
  | .alu x y op => return { machine := ← applyAlu machine x y op }
  | .setIndex nnn => return { machine := { machine with index := UInt16.ofNat nnn.val } }
  | .jumpOffset nnn =>
      let offset ← register machine (← offsetRegister machine nnn)
      return { machine := { machine with pc := UInt16.ofNat nnn.val + offset.toUInt16 } }
  | .random x nn =>
      let drawn ← setRegister machine x (machine.random.peek &&& nn)
      return { machine := { drawn with random := machine.random.advance } }
  | .draw x y n => return .publishing (← drawSprite machine x y n)
  | .skipPressed x =>
      let held ← isHeld report (← register machine x)
      return .polling report (machine.skipWhen held)
  | .skipReleased x =>
      let held ← isHeld report (← register machine x)
      return .polling report (machine.skipWhen !held)
  | .awaitKey x => return .polling report (← takeKey machine x (← heldKeys report))
  | .readDelay x => return { machine := ← setRegister machine x machine.delayTimer }
  | .setDelay x => return { machine := { machine with delayTimer := ← register machine x } }
  | .setSound x => return { machine := { machine with soundTimer := ← register machine x } }
  | .addIndex x => return { machine := ← advanceIndex machine x }
  | .pointGlyph x =>
      let index ← glyphAddress (← register machine x)
      return { machine := { machine with index } }
  | .storeDecimal x => return { machine := ← storeDecimal machine x }
  | .store x => return { machine := ← storeRegisters machine x }
  | .load x => return { machine := ← loadRegisters machine x }

/-- No operation of an instruction is refused, by cases over the instructions. -/
@[simp] theorem execute_eq (machine : Machine) (instruction : Instruction) (report : List UInt8)
    : execute machine instruction report = .ok (machine.execute instruction report) := by
  cases instruction with
  | ret =>
      cases stack : machine.stack <;> simp [execute, Machine.execute, stack]
  | _ => simp [execute, Machine.execute, drawSprite_eq]

def cycle (machine : Machine) (report : List UInt8) : Checked Turn := do
  let machine ← fetch machine
  match ← decode machine.fetched with
  | none =>
      return {
        machine := machine
        fault? := some (.unknownInstruction machine.lastAddress machine.fetched) }
  | some instruction =>
      let turn ← execute machine instruction report
      return { turn with notes := .executing machine.lastAddress instruction :: turn.notes }

@[simp] theorem cycle_eq (machine : Machine) (report : List UInt8)
    : cycle machine report = .ok (machine.cycle report) := by
  rw [cycle, Machine.cycle, fetch_eq, ok_bind, decode_eq, ok_bind]
  cases Instruction.decode? machine.fetch.fetched with
  | none => rfl
  | some instruction => simp

-----------------------------------------------------------------------------------------
-- Schedulers
-----------------------------------------------------------------------------------------

/-- Builds a machine and its scheduler. -/
def build (program : Array UInt8) (dialect : Dialect) (random : Generator) (hertz : UInt32)
    : Checked (Except Fault Scheduler) := do
  match ← load program dialect random with
  | .error fault => return .error fault
  | .ok machine =>
      return (ClockRate.ofHertz hertz).map (Scheduler.ready machine program.size)

theorem build_eq {program : Array UInt8} (size : program.size ≤ 9223372036854775807)
    (dialect : Dialect) (random : Generator) (hertz : UInt32)
    : build program dialect random hertz = .ok (Scheduler.build program dialect random hertz) := by
  rw [build, load_eq size, ok_bind, Scheduler.build]
  cases Machine.load program dialect random with
  | error fault => rfl
  | ok machine => cases ClockRate.ofHertz hertz <;> rfl

section Scheduling

variable {σ : Type} [Host σ]

def serve (scheduler : Scheduler) (host : σ) : Wake → Checked (Progress σ)
  | .cancelled => return { scheduler, host, result? := some (.ok ()) }
  | .instruction => do
      return scheduler.absorb host (← cycle scheduler.machine (Host.pressedKeys host))
  | .timer => return scheduler.timerTick host

def serveAll (scheduler : Scheduler) (host : σ) : List Wake → Checked (Progress σ)
  | [] => return { scheduler, host }
  | wake :: rest => do
      let progress ← serve scheduler host wake
      match progress.result? with
      | some result => return progress.scheduler.conclude progress.host result
      | none => serveAll progress.scheduler progress.host rest

/-- Runs, after the periods of both clocks were found by division. -/
def run (scheduler : Scheduler) (host : σ) (wakes : List Wake) : Checked (Progress σ) := do
  if scheduler.stopped then return scheduler.refuse host
  let _ ← quotient 1000000000 scheduler.rate.hertz.toNat
  let _ ← quotient 1000000000 timerRate
  serveAll scheduler.start host wakes

def perform (scheduler : Scheduler) (host : σ) : Request → Checked (Progress σ)
  | .instructionTick => serve scheduler host .instruction
  | .timerTick => serve scheduler host .timer
  | .run wakes => run scheduler host wakes

/-- Performs requests in order, also behind a fault. -/
def performAll (scheduler : Scheduler) (host : σ) (requests : List Request)
    : Checked (Progress σ) :=
  requests.foldlM (fun progress request => perform progress.scheduler progress.host request)
    { scheduler, host }

@[simp] theorem serve_eq (scheduler : Scheduler) (host : σ) (wake : Wake)
    : serve scheduler host wake = .ok (scheduler.serve host wake) := by
  cases wake with
  | instruction => rw [serve, cycle_eq, ok_bind]; rfl
  | _ => rfl

/-- By induction over the wakes. -/
@[simp] theorem serveAll_eq (scheduler : Scheduler) (host : σ) (wakes : List Wake)
    : serveAll scheduler host wakes = .ok (scheduler.serveAll host wakes) := by
  induction wakes generalizing scheduler host with
  | nil => rfl
  | cons wake rest ih =>
      rw [serveAll, serve_eq, ok_bind, Scheduler.serveAll]
      cases (scheduler.serve host wake).result? with
      | some result => rfl
      | none => exact ih _ _

theorem run_eq (scheduler : Scheduler) (host : σ) (wakes : List Wake)
    : run scheduler host wakes = .ok (scheduler.run host wakes) := by
  have positive : scheduler.rate.hertz.toNat ≠ 0 := fun zero =>
    scheduler.rate.positive (UInt32.toNat_inj.mp zero)
  have period := quotient_of_ne positive 1000000000
  have timerPeriod := quotient_of_ne (by decide : timerRate ≠ 0) 1000000000
  rw [run, Scheduler.run]
  split
  · rfl
  · rw [period, ok_bind, timerPeriod, ok_bind]
    exact serveAll_eq _ _ _

theorem perform_eq (scheduler : Scheduler) (host : σ) (request : Request)
    : perform scheduler host request = .ok (scheduler.perform host request) := by
  cases request with
  | instructionTick => exact serve_eq scheduler host .instruction
  | timerTick => exact serve_eq scheduler host .timer
  | run wakes => exact run_eq scheduler host wakes

theorem performAll_eq (scheduler : Scheduler) (host : σ) (requests : List Request)
    : performAll scheduler host requests = .ok (scheduler.performAll host requests) := by
  have step (progress : Progress σ) (request : Request) :=
    perform_eq progress.scheduler progress.host request
  rw [performAll, foldlM_of_ok step, Scheduler.performAll]

end Scheduling

end Chip8.Checked
