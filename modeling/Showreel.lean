import Showreel.Clock
import Showreel.Main
import Showreel.Proofs.Arith.Whole
import Showreel.Proofs.Arith.Rational
import Showreel.Proofs.Fallible
import Showreel.Proofs.Timeline.Layout
import Showreel.Proofs.Timeline.Accepted
import Showreel.Proofs.Timeline.Shown
import Showreel.Proofs.Timeline.Windows
import Showreel.Proofs.Easing
import Showreel.Proofs.Easing.Pieces
import Showreel.Proofs.Presentation
import Showreel.Proofs.Timeline.Bounds
import Showreel.Proofs.Timeline.Progress
import Showreel.Proofs.Timeline.Crossfade
import Showreel.Proofs.Timeline.Spliced
import Showreel.Proofs.Timeline.Nested
import Showreel.Proofs.Timeline.Flattened
import Showreel.Proofs.Document.Entries
import Showreel.Proofs.Document.Shown
import Showreel.Proofs.Document.Same
import Showreel.Proofs.Snapshot.Written
import Showreel.Proofs.Snapshot.Kept
import Showreel.Proofs.Scene.Records
import Showreel.Proofs.Timeline.Tags
import Showreel.Proofs.Timeline.Refused
import Showreel.Proofs.Timeline.Items
import Showreel.Proofs.Timeline.Joined
import Showreel.Proofs.Timeline.Checked
import Showreel.Proofs.Director.Names
import Showreel.Proofs.Director.Plans
import Showreel.Proofs.Director.Presented
import Showreel.Proofs.Director.Lengths
import Showreel.Proofs.Storyboard.Board
import Showreel.Proofs.Storyboard.Authored
import Showreel.Proofs.Storyboard.Desk
import Showreel.Proofs.CommandLine.Refusals
import Showreel.Proofs.Number.Order
import Showreel.Proofs.Number.Unordered
import Showreel.Proofs.Number.Floor
import Showreel.Proofs.Scene.Threshold
import Showreel.Proofs.Timeline.Agreed
import Showreel.Proofs.Director.Threshold
import Showreel.Proofs.Document.Within
import Showreel.Proofs.Document.Faults
import Showreel.Proofs.Curve
import Showreel.Proofs.Curve.Rational
import Showreel.Proofs.Curve.Runs
import Showreel.Proofs.Curve.Shape
import Showreel.Proofs.Curve.Redundant
import Showreel.Proofs.Curve.Linear
import Showreel.Proofs.Curve.Refused
import Showreel.Proofs.Curve.Channels
import Showreel.Proofs.Scene.Parts
import Showreel.Proofs.Scene.Asked
import Showreel.Proofs.Scene.PartBounds
import Showreel.Proofs.Scene.Bounds
import Showreel.Proofs.Timeline.Asked
import Showreel.Proofs.Director.Sampled
import Showreel.Proofs.Timeline.Sampled
import Showreel.Proofs.Export
import Showreel.Proofs.CommandLine.Step
import Showreel.Proofs.Scene.Typed
import Showreel.Proofs.Scene.CrossFade
import Showreel.Proofs.Arith.Real
import Showreel.Proofs.Spring.Config
import Showreel.Proofs.Spring.Response
import Showreel.Proofs.Spring.Settling
import Showreel.Proofs.Spring.Swing
import Showreel.Proofs.Spring.Stretched
import Showreel.Proofs.Colour.Hexadecimal
import Showreel.Proofs.Colour.Blended
import Showreel.Proofs.Spring.Presets
import Showreel.Proofs.Range
