import Showreel.Text.Quoted

/-!
# Faults

Everything that can go wrong while a composition is authored or sampled. A `Rejection` is an
authored mistake and carries what its message tells; the other faults are failures of arithmetic, of
a value's kind or of a look-up. Numbers and settings reach a rejection already shown as text, since
they may come from any number system.

A `Rejection` is `ConfigurationError` with each of its messages in the program; the other faults are
the built-in errors it meets, such as `TypeError` (`wrongType`), `ValueError` (`badValue`),
`OverflowError`, `ZeroDivisionError`, `KeyError` and `IndexError`.
-/

namespace Showreel

/-- Why a composition was refused. -/
inductive Rejection where
  | unknownEasing (name : String) (known : List String)
  | keyframeCounts (breakpoints values : Nat)
  | tooFewKeyframes
  | decreasingBreakpoints (breakpoints : List String)
  | unknownExtrapolation (policy : String)
  | unequalVectors
  | massNotPositive (got : String)
  | stiffnessNotPositive (got : String)
  | dampingNegative (got : String)
  | thresholdNotPositive (got : String)
  | fpsNotPositive (got : String)
  | springLengthNotPositive (got : String)
  | unknownScene (name : String) (known : List String)
  | unknownFadeDirection (direction : String)
  | unknownSlideDirection (direction : String)
  | unsupportedPresentation (shown : String)
  | segmentTooShort (name got : String)
  | transitionNegative (got : String)
  | transitionTooLong (index : Nat) (length before beforeLength after afterLength : String)
  | partsMismatch (segments needed got : Nat)
  | emptyTimeline
  | misplacedItem (position : Nat) (expected got : String)
  | endsInTransition
  | emptyStoryboard (name : String)
  | unknownPreset (name : String) (known : List String)
  | unknownMember (family value : String) (known : List String)
  | unknownComposition (name : String) (known : List String)
  deriving DecidableEq, Repr

def Rejection.message : Rejection → String
  | .unknownEasing name known =>
    "Unknown easing '" ++ name ++ "', expected one of " ++ Text.quoteAll known
  | .keyframeCounts b v =>
    "Keyframe set has " ++ toString b ++ " breakpoints but " ++ toString v ++ " values"
  | .tooFewKeyframes => "Keyframe set needs at least two breakpoints"
  | .decreasingBreakpoints bs =>
    "Keyframe breakpoints must be non-decreasing, got " ++ Text.bracketed bs
  | .unknownExtrapolation policy =>
    "Unknown extrapolation '" ++ policy ++ "', expected clamp or extend"
  | .unequalVectors => "All keyframe vectors must have the same length"
  | .massNotPositive got => "Spring mass must be positive, got " ++ got
  | .stiffnessNotPositive got => "Spring stiffness must be positive, got " ++ got
  | .dampingNegative got => "Spring damping must not be negative, got " ++ got
  | .thresholdNotPositive got => "Settle threshold must be positive, got " ++ got
  | .fpsNotPositive got => "fps must be positive, got " ++ got
  | .springLengthNotPositive got => "Spring duration must be positive, got " ++ got
  | .unknownScene name known =>
    "Unknown scene '" ++ name ++ "', expected one of " ++ Text.quoteAll known
  | .unknownFadeDirection direction => "Unknown fade direction '" ++ direction ++ "'"
  | .unknownSlideDirection direction => "Unknown slide direction '" ++ direction ++ "'"
  | .unsupportedPresentation shown => "Unsupported transition type: " ++ shown
  | .segmentTooShort name got =>
    "Segment '" ++ name ++ "' must last at least one frame, got " ++ got
  | .transitionNegative got => "Transition duration must not be negative, got " ++ got
  | .transitionTooLong index length before beforeLength after afterLength =>
    "Transition " ++ toString index ++ " (" ++ length ++ " frames) is longer than '" ++ before
      ++ "' (" ++ beforeLength ++ ") or '" ++ after ++ "' (" ++ afterLength ++ ")"
  | .partsMismatch segments needed got =>
    toString segments ++ " segments need " ++ toString needed ++ " transitions, got "
      ++ toString got
  | .emptyTimeline => "A timeline needs at least one segment"
  | .misplacedItem position expected got =>
    "Timeline item " ++ toString position ++ " should be a " ++ expected ++ ", got " ++ got
  | .endsInTransition => "A timeline must end with a segment, not a transition"
  | .emptyStoryboard name => "Storyboard '" ++ name ++ "' has no scenes"
  | .unknownPreset name known =>
    "Unknown spring preset '" ++ name ++ "', expected one of " ++ Text.quoteAll known
  | .unknownMember family value known =>
    "Unknown " ++ family ++ " '" ++ value ++ "', expected one of " ++ Text.quoteAll known
  | .unknownComposition name known =>
    "Unknown composition '" ++ name ++ "', expected one of " ++ Text.quoteAll known

inductive Fault where
  /-- The composition was authored wrong. -/
  | rejected (cause : Rejection)
  /-- A name that nothing answers to; what is no text leaves no name. -/
  | unknownName (name : Option String)
  | divisionByZero
  /-- A number too large for the place it is put. -/
  | overflow
  /-- More parts than there is room for. -/
  | outOfMemory
  /-- A value of the right kind outside the domain of the operation. -/
  | badValue
  /-- A value of the wrong kind. -/
  | wrongType
  /-- A setting was sought in something that holds none. -/
  | notMapping
  | noSuchIndex
  | missingFile
  /-- A directory where a file is needed. -/
  | isDirectory
  /-- A path that goes on behind a file. -/
  | notDirectory
  /-- A file where a directory is to be made. -/
  | fileExists
  | nameTooLong
  /-- Directories in directories, too many to be made at once. -/
  | tooDeep
  /-- A spring at a position in a memory that has to be measured first. -/
  | unmeasured (position : Nat)
  deriving DecidableEq, Repr

def Fault.message : Fault → String
  | .rejected cause => cause.message
  | .unknownName name => "no such name: " ++ name.getD "?"
  | .divisionByZero => "division by zero"
  | .overflow => "number too large"
  | .outOfMemory => "not enough room"
  | .badValue => "value out of range"
  | .wrongType => "value of the wrong kind"
  | .notMapping => "no settings where settings are needed"
  | .noSuchIndex => "no such position"
  | .missingFile => "no such file"
  | .isDirectory => "a directory, not a file"
  | .notDirectory => "not a directory"
  | .fileExists => "a file of that name exists"
  | .nameTooLong => "name too long"
  | .tooDeep => "too many directories to make"
  | .unmeasured _ => "spring not measured yet"

/-- There is no room for texts of so many characters. -/
def roomFor : Nat := Nat.pow 2 35

def reject {β : Type u} (cause : Rejection) : Except Fault β :=
  .error (.rejected cause)

/-- The entry at a position, which must exist. -/
def entryAt {β : Type u} (xs : List β) (i : Nat) : Except Fault β :=
  match xs[i]? with
  | some x => .ok x
  | none => .error .noSuchIndex

end Showreel
