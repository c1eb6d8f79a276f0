import LineAsm.Advice.Predictor
import LineAsm.Machine.Basic
import LineAsm.Toml.Document

/-!
# Settings

What can be set: the limits of the machine, the weights of the predictor, how many lines are
suggested, and whether a response shows the trace. Every setting has a default. Settings are read
from a document with a section for each group; a section is a table, or an array of its settings in
order. A name that is not known is refused.
-/
namespace LineAsm

/-- The settings of an engine. -/
structure Settings where
  limits : Limits := {}
  predictorEnabled : Bool := true
  weights : Weights := {}
  suggestionsEnabled : Bool := true
  maxSuggestions : Nat := 5
  traceInResponse : Bool := true
  deriving DecidableEq

/-- Why settings cannot be used. -/
inductive SettingsError where
  | unreadable
  | invalid (field reason : String)
  deriving DecidableEq

def SettingsError.message : SettingsError → String
  | .unreadable => "failed to parse config"
  | .invalid field reason => s!"invalid config value for '{field}': {reason}"

namespace Settings

open Toml

/-! ## Checking -/

/-- Refuses limits of zero, calls that nest too deep, and weights that are not finite; the first
reason is given. -/
def validate (s : Settings) : Except SettingsError Settings :=
  if s.limits.maxSteps = 0 then .error (.invalid "limits.max_steps" "must be greater than zero")
  else if s.limits.maxCallDepth = 0 then
    .error (.invalid "limits.max_call_depth" "must be greater than zero")
  else if greatestCallDepth < s.limits.maxCallDepth then
    .error (.invalid "limits.max_call_depth"
      "must not exceed 512; calls nest on the host thread stack")
  else if [s.weights.length, s.weights.spaces, s.weights.equals, s.weights.bias].all (·.isFinite)
  then .ok s
  else .error (.invalid "predictor" "weights must be finite numbers")

/-! ## Reading -/

def natural? : Value → Option Nat
  | .integer (.ofNat n) => some n
  | _ => none

def flag? : Value → Option Bool
  | .boolean b => some b
  | _ => none

/-- A number; an integer counts as one. -/
def real? : Value → Option Number.Binary64
  | .float x => some (.ofFloat x)
  | .integer n => some (.ofFloat (Number.ofInt n))
  | _ => none

/-- A setting: its name and how a value changes the settings. -/
abbrev Field := String × (Settings → Value → Option Settings)

/-- The sections of a document and their settings in order. -/
def sections : List (String × List Field) :=
  [("limits",
    [("max_steps", fun s v => (natural? v).map fun n => { s with limits.maxSteps := n }),
     ("max_call_depth", fun s v =>
       (natural? v).map fun n => { s with limits.maxCallDepth := n })]),
   ("predictor",
    [("enabled", fun s v => (flag? v).map fun b => { s with predictorEnabled := b }),
     ("length_weight", fun s v => (real? v).map fun x => { s with weights.length := x }),
     ("space_weight", fun s v => (real? v).map fun x => { s with weights.spaces := x }),
     ("equals_weight", fun s v => (real? v).map fun x => { s with weights.equals := x }),
     ("bias", fun s v => (real? v).map fun x => { s with weights.bias := x })]),
   ("suggestions",
    [("enabled", fun s v => (flag? v).map fun b => { s with suggestionsEnabled := b }),
     ("max_suggestions", fun s v => (natural? v).map fun n => { s with maxSuggestions := n })]),
   ("trace",
    [("include_in_response", fun s v => (flag? v).map fun b => { s with traceInResponse := b })])]

/-- Sets one setting of a section by its name. -/
def setField? (fields : List Field) (s : Settings) (name : String) (v : Value) : Option Settings :=
  (fields.lookup name).bind fun set => set s v

/-- Sets what a section says. In an array the values stand in the order of the settings, and what
follows the last setting is ignored. -/
def setSection? (fields : List Field) (s : Settings) : Node → Option Settings
  | .value (.array items) => (fields.zip items).foldlM (fun s (field, v) => field.2 s v) s
  | .value (.table _ entries) => entries.foldlM (fun s (name, v) => setField? fields s name v) s
  | .table _ entries =>
    entries.foldlM (fun s (name, node) =>
      match node with
      | .value v => setField? fields s name v
      | _ => none) s
  | _ => none

/-- The settings that the entries of a document give. -/
def ofEntries? (entries : Entries Node) : Option Settings :=
  entries.foldlM (fun s (name, node) =>
    (sections.lookup name).bind fun fields => setSection? fields s node) {}

/-- Reads and checks settings. -/
def ofText (text : String) : Except SettingsError Settings :=
  match (Toml.parse text).bind ofEntries? with
  | none => .error .unreadable
  | some s => s.validate

end Settings

end LineAsm
