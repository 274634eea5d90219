import Chip8.Machine.Execute

/-!
The two cycles of a machine: one instruction, and one count of the timers.
-/

namespace Chip8.Machine

/-- Fetches, decodes and executes one word. A word that stands for no instruction is a fault and
has no other effect than being fetched. -/
def cycle (machine : Machine) (report : List UInt8) : Turn :=
  let machine := machine.fetch
  match Instruction.decode? machine.fetched with
  | none =>
      { machine := machine,
        fault? := some (.unknownInstruction machine.lastAddress machine.fetched) }
  | some instruction =>
      let turn := machine.execute instruction report
      { turn with notes := .executing machine.lastAddress instruction :: turn.notes }

/-- One less, but never less than zero. -/
def oneLess (timer : UInt8) : UInt8 :=
  if timer = 0 then 0 else timer - 1

/-- Counts both timers down, then sets the tone by the sound timer. -/
def countDown (machine : Machine) : Turn :=
  let machine :=
    { machine with
      delayTimer := oneLess machine.delayTimer
      soundTimer := oneLess machine.soundTimer }
  { machine := machine, calls := [if machine.beeping then .startTone else .stopTone] }

end Chip8.Machine
