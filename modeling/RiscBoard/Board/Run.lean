import RiscBoard.Board.Basic
import RiscBoard.Clock

/-!
Running a board until its core halts or a budget of cycles is used up. The run may be slowed down to
a given speed; whoever watches it sees the events of each cycle and is told when to wait, and can do
nothing to the board.
-/

namespace RiscBoard

structure Throttle where
  divider : ClockDivider
  slices : UInt64

namespace Throttle

def checkHz : UInt64 := 100

def ofSpeed? (speed : UInt64) : Option Throttle :=
  if speed = 0 then none else some ⟨ClockDivider.create speed checkHz, 0⟩

/-- One cycle. When the slow clock ticks, the time in milliseconds from the start of the run at
which the next cycle is due. The product is exact for the first 2^64 / 1000 slices, which take more than
five million years. -/
def tick (throttle : Throttle) : Option UInt64 × Throttle :=
  let (fired, divider) := throttle.divider.tick
  if fired then
    let slices := throttle.slices + 1
    (some (slices * 1000 / divider.hz), ⟨divider, slices⟩)
  else
    (none, ⟨divider, throttle.slices⟩)

end Throttle

structure Observer (m : Type → Type) where
  observe : List Event → m Unit
  waitUntil : UInt64 → m Unit

namespace Board

def isFinished (board : Board) (budget : Option UInt64) : Bool :=
  board.core.halted || budget.any fun limit => limit ≤ board.core.cycles

/-- More cycles than a run can have. -/
def cycleBound (board : Board) : Option UInt64 → Nat
  | some limit => limit.toNat - board.core.cycles.toNat
  | none => UInt64.size

def runFor {m : Type → Type} [Monad m] (observer : Observer m) (budget : Option UInt64) :
    Nat → Option Throttle → Board → m Board
  | 0, _, board => pure board
  | fuel + 1, throttle, board =>
    if board.isFinished budget then pure board
    else do
      let ticked := board.tick
      observer.observe ticked.events
      match throttle with
      | none => runFor observer budget fuel none ticked.value
      | some throttle =>
        let (due, next) := throttle.tick
        match due with
        | none => pure ()
        | some time => observer.waitUntil time
        runFor observer budget fuel (some next) ticked.value

def run {m : Type → Type} [Monad m] (observer : Observer m) (speed : UInt64)
    (budget : Option UInt64) (board : Board) : m Board :=
  runFor observer budget (board.cycleBound budget) (Throttle.ofSpeed? speed) board

end Board

end RiscBoard
