/-!
A slower clock derived from a master clock. Over any `masterHz` ticks of the master the derived
clock ticks `hz` times, whether or not one rate divides the other.
-/

namespace RiscBoard

structure ClockDivider where
  masterHz : UInt64
  hz : UInt64
  elapsed : UInt64
  deriving DecidableEq

namespace ClockDivider

/-- A derived clock is never faster than its master. -/
def create (masterHz hz : UInt64) : ClockDivider where
  masterHz := masterHz
  hz := min hz masterHz
  elapsed := 0

def tick (clock : ClockDivider) : Bool × ClockDivider :=
  let elapsed := clock.elapsed + clock.hz
  if elapsed ≥ clock.masterHz && clock.hz > 0 then
    (true, { clock with elapsed := elapsed - clock.masterHz })
  else
    (false, { clock with elapsed := elapsed })

end ClockDivider

end RiscBoard
