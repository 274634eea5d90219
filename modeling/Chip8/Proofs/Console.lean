import Chip8.Machine.Cycle

/-! Machines driven against a host, input after input. A fault does not end such a run, and the
state of the host is arbitrary, so every driver and every schedule of the two clocks is covered.
-/

namespace Chip8

/-- A machine and the host that it is driven against. -/
structure Console (σ : Type) where
  machine : Machine
  host : σ

namespace Console

variable {σ τ : Type} [Host σ]

/-- Takes a turn over: its machine goes on, its calls reach the host. -/
def after (console : Console σ) (turn : Turn) : Console σ where
  machine := turn.machine
  host := Host.receiveAll console.host turn.calls

/-- Turns with equal calls leave equal hosts, whichever machines they come from. -/
theorem host_after_congr (left right : Console σ) (hosts : left.host = right.host)
    {turn other : Turn} (calls : turn.calls = other.calls)
    : (left.after turn).host = (right.after other).host := by
  rw [after, after, hosts, calls]

/-- The console after inputs in order, where `step` says to which turn an input leads. -/
def runBy (step : Console σ → τ → Turn) (console : Console σ) : List τ → Console σ
  | [] => console
  | input :: rest => (console.after (step console input)).runBy step rest

/-- The turns that inputs lead to, in order. -/
def turnsBy (step : Console σ → τ → Turn) (console : Console σ) : List τ → List Turn
  | [] => []
  | input :: rest =>
      step console input :: (console.after (step console input)).turnsBy step rest

end Console

-----------------------------------------------------------------------------------------
-- The two clocks
-----------------------------------------------------------------------------------------

/-- What a driver asks of a machine: one instruction, or one count of the timers. -/
inductive Tick where
  | instruction
  | timer
  deriving DecidableEq, Repr

namespace Console

variable {σ : Type} [Host σ]

/-- The turn that a tick leads to. -/
def turn (console : Console σ) : Tick → Turn
  | .instruction => console.machine.cycle (Host.pressedKeys console.host)
  | .timer => console.machine.countDown

/-- The console after ticks in order. -/
def run (console : Console σ) (ticks : List Tick) : Console σ :=
  console.runBy turn ticks

/-- The turns that ticks lead to, in order. -/
def turns (console : Console σ) (ticks : List Tick) : List Turn :=
  console.turnsBy turn ticks

end Console

end Chip8
