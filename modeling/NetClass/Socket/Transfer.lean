import NetClass.Socket.Poll
import NetClass.Socket.Select

/-!
Contract: the four transfer functions under one name.

Owns: the two builds, and for each build and direction its loop, its call and the
answers on which it steps the pointer.
-/

set_option autoImplicit false

namespace NetClass.Socket

/-- The preprocessor's choice: `HAVE_POLL`, or `USE_SELECT_READ_WRITE`. -/
inductive Build where
  | poll
  | select
deriving DecidableEq, Repr

namespace Build

def loop : Build → Direction → NcSocket → Int → AnswerLoop Locals Answer RetCode
  | .poll => Poll.loop
  | .select => Select.loop

/-- `writeData` or `readData` of the build. -/
def call (build : Build) (direction : Direction) (sock : NcSocket) (bufLen : Int)
    (counted : Bool) (answers : List Answer) : Option (Locals × RetCode) :=
  (build.loop direction sock bufLen).run (.start bufLen counted) answers

def policy : Build → Direction → Policy
  | .poll => Poll.policy
  | .select => Select.policy

theorem isTransferLoop (build : Build) (direction : Direction) (sock : NcSocket)
    (bufLen : Int) :
    IsTransferLoop (build.policy direction) direction sock bufLen
      (build.loop direction sock bufLen) := by
  cases build with
  | poll => exact Poll.isTransferLoop direction sock bufLen
  | select => exact Select.isTransferLoop direction sock bufLen

/-- No loop spins on a wait that answers -1, 0 or 1. -/
theorem settles (build : Build) (direction : Direction) {answer : Answer}
    (plain : answer.wait.Plain) : ¬ (build.policy direction).spins answer := by
  cases build with
  | poll => exact fun odd => odd plain
  | select => exact id

end Build

end NetClass.Socket
