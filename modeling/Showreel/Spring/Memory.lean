import Showreel.Spring.Motion

/-!
# Memory of springs

To measure a spring takes long, so motions that were made once are kept and used again for the same
spring at the same rate of frames. Springs are equal if their parameters are equal as numbers. Some
of them may be written in numbers that are too large to be measured with; these settle together with
one that was measured. A memory holds the motions at hand and the measured springs; it makes values
a number system with spring-driven motion of its own.

This is the cache that `lru_cache` puts around `measure_spring`, as far as it shows: which springs
are measured as one.
-/

namespace Showreel.Spring

def Config.identical (a b : Config Document) : Bool :=
  a.mass.identical b.mass && a.damping.identical b.damping && a.stiffness.identical b.stiffness
    && a.overshootClamping.identical b.overshootClamping

/-- Whether the parameters of two springs are equal as numbers. -/
def Config.equal (a b : Config Document) : Bool :=
  a.mass.equal b.mass && a.damping.equal b.damping && a.stiffness.equal b.stiffness
    && a.overshootClamping.equal b.overshootClamping

/-- The motion of a spring at a rate of frames. -/
structure Known where
  fps : Document
  config : Config Document
  motion : Motion Document

namespace Known

/-- The motion of a spring at a rate, measured by itself. -/
def ofSpring (fps : Document) (config : Config Document) : Known :=
  { fps, config, motion := Spring.motion fps config }

/-- Whether a known motion is that of a spring at a rate. -/
def fits (k : Known) (fps : Document) (config : Config Document) : Bool :=
  k.fps.identical fps && k.config.identical config

/-- Whether a known motion is that of an equal spring at an equal rate. -/
def isLike (k : Known) (fps : Document) (config : Config Document) : Bool :=
  k.fps.equal fps && k.config.equal config

/-- Whether the spring is one to measure with. -/
def oscillates (k : Known) : Bool :=
  match (k.config.oscillator : Except Fault (Oscillator Float)) with
  | .ok _ => true
  | .error _ => false

end Known

/-- The motions at hand, and those of springs that were measured for all springs equal to them. -/
structure Memory where
  motions : List Known := []
  measured : List Known := []

namespace Memory

/-- Remembers the motion of a spring at a rate, behind those that are known. -/
def insert (m : Memory) (fps : Document) (config : Config Document) : Memory :=
  if m.motions.any fun k => k.fits fps config then m
  else { m with motions := m.motions ++ [.ofSpring fps config] }

/-- A spring and the known ones that are equal to it, each once. -/
def equals (m : Memory) (config : Config Document) : List (Config Document) :=
  m.motions.foldl (fun found k =>
    if k.config.equal config && !found.any k.config.identical then found ++ [k.config] else found)
    [config]

/-- Remembers the motions of a spring and of its equals at a rate. -/
def learn (m : Memory) (fps : Document) (config : Config Document) : Memory :=
  (m.equals config).foldl (fun m c => m.insert fps c) m

/-- Whether the springs equal to one are of both sorts, so that the order in which they are asked
for decides which of them can be measured. -/
def isDivided (m : Memory) (fps : Document) (config : Config Document) : Bool :=
  let alike := m.motions.filter fun k => k.isLike fps config
  alike.any Known.oscillates && !alike.all Known.oscillates

/-- The motion of a spring at a rate. It settles with an equal one that was measured, or else by
itself; where the order decides, it waits to be measured. -/
def motionOf (m : Memory) (fps : Document) (config : Config Document) : Motion Document :=
  match m.measured.find? fun k => k.isLike fps config with
  | some k => settlingMotion k.motion.natural fps config
  | none =>
    match m.motions.findIdx? fun k => k.fits fps config with
    | none => Spring.motion fps config
    | some i =>
      if m.isDivided fps config then
        settlingMotion (.pure (.error (.unmeasured i))) fps config
      else (m.motions[i]?.getD (.ofSpring fps config)).motion

/-- Measures a spring at hand for all springs equal to it. -/
def measure (m : Memory) (i : Nat) : Except Fault Memory := do
  let k ← entryAt m.motions i
  let _ ← k.motion.natural.get
  return { m with measured := k :: m.measured }

/-- Values, with the motions of a memory. -/
@[reducible] def animated (m : Memory) : Animated Document where
  motion := m.motionOf

end Memory

end Showreel.Spring
