import LineAsm.Number
import LineAsm.Text.Blank

/-!
# Suspicious lines

A linear score over three counts of a line: its characters, its spaces and its equals signs. A line
with a positive score is suspicious.
-/
namespace LineAsm

/-- What an adviser can fail at. -/
inductive AdviserFailure where
  | predictor (reason : String)
  | suggester (reason : String)
  | visualizer (reason : String)
  deriving DecidableEq

def AdviserFailure.message : AdviserFailure → String
  | .predictor reason => s!"error predictor failed: {reason}"
  | .suggester reason => s!"suggestion engine failed: {reason}"
  | .visualizer reason => s!"visualizer failed: {reason}"

/-- What is counted in a line. -/
structure LineFeatures where
  length : Nat
  spaces : Nat
  equals : Nat
  deriving DecidableEq

def LineFeatures.of (line : String) : LineFeatures :=
  ⟨line.toList.length, line.toList.count ' ', line.toList.count '='⟩

/-- A verdict on a line. -/
structure Prediction where
  suspicious : Bool
  score : Number.Binary64
  deriving DecidableEq

/-- The verdict on a line nothing is known against. -/
def Prediction.clean : Prediction := ⟨false, .ofFloat 0.0⟩

/-- The weights of the linear score. -/
structure Weights where
  length : Number.Binary64 := .ofFloat 0.02
  spaces : Number.Binary64 := .ofFloat (-0.3)
  equals : Number.Binary64 := .ofFloat 0.6
  bias : Number.Binary64 := .ofFloat (-0.5)
  deriving DecidableEq

namespace Weights

/-- The score of a line, summed from the left. -/
def score (w : Weights) (f : LineFeatures) : Float :=
  w.length.toFloat * Number.ofInt f.length + w.spaces.toFloat * Number.ofInt f.spaces +
    w.equals.toFloat * Number.ofInt f.equals + w.bias.toFloat

/-- The verdict on a line. A score that is no finite number is a failure. -/
def predict (w : Weights) (line : String) : Except AdviserFailure Prediction :=
  let score := w.score (.of line)
  if score.isFinite then .ok ⟨decide (0.0 < score), .ofFloat score⟩
  else .error (.predictor s!"non-finite score for line '{line}'")

end Weights

end LineAsm
