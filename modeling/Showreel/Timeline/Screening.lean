import Showreel.Spring.Memory
import Showreel.Timeline.Basic

/-!
# Screenings

A timeline is asked one question after the other. A question may find a spring that is to be
measured first; then it is asked again with that spring measured. What was measured stays known for
the questions behind it, whether or not a question found its answer.

A screening stands for the calls made on one `Timeline` while `measure_spring` remembers what it
measured for the calls before.
-/

namespace Showreel

/-- A timeline, how it is made, and the memory with which it was made. -/
structure Screening where
  /-- The timeline whose springs move by a memory. -/
  make : Spring.Memory → Except Fault (Timeline Document)
  memory : Spring.Memory
  timeline : Timeline Document

namespace Screening

/-- The screening of what is made, beginning with a memory. -/
def start (make : Spring.Memory → Except Fault (Timeline Document)) (memory : Spring.Memory) :
    Except Fault Screening := do
  return { make, memory, timeline := ← make memory }

/-- The screening with one more spring measured. -/
def measure (s : Screening) (i : Nat) : Except Fault Screening := do
  start s.make (← s.memory.measure i)

variable {β : Type}

/-- Asks until no spring is to be measured first, at most `fuel` times more. A spring that cannot be
measured leaves the question without an answer. -/
def askAgain (question : Screening → Except Fault β) : Nat → Screening → Except Fault β × Screening
  | 0, s => (question s, s)
  | fuel + 1, s =>
    match question s with
    | .error (.unmeasured i) =>
      match s.measure i with
      | .ok next => askAgain question fuel next
      | .error fault => (.error fault, s)
    | answer => (answer, s)

/-- The answer to a question, and the screening that goes on behind it. No spring is measured
twice. -/
def ask (s : Screening) (question : Screening → Except Fault β) : Except Fault β × Screening :=
  askAgain question s.memory.motions.length s

end Screening

end Showreel
