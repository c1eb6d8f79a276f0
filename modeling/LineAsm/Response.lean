import LineAsm.Engine
import LineAsm.Json

/-!
# Responses

What a caller of the engine gets to see: whether the run came to its end, a summary, suggestions,
the trace if it is wanted, and the diagnostics as messages.
-/
namespace LineAsm

namespace Report

/-- The messages of the compiler and then those of the machine. -/
def messages (r : Report) : List String :=
  (r.diagnostics.map fun d => "compile error: " ++ d.render) ++
    (r.errors.map fun e => "execution error: " ++ e.render)

def diagnosticCount (r : Report) : Nat := r.diagnostics.length + r.errors.length

/-- A headline, what was printed, and the messages. -/
def summary (r : Report) : String :=
  let headline :=
    if r.diagnosticCount = 0 then "Code executed successfully"
    else "Code executed with " ++ r.diagnosticCount.repr ++ " diagnostic(s)"
  "\n".intercalate (headline :: (r.output ++ r.messages))

end Report

/-- What a caller gets. -/
structure Response where
  succeeded : Bool
  output : String
  suggestions : List String
  trace : Option (List TraceEntry)
  diagnostics : List String

namespace Response

def ofReport (withTrace : Bool) (r : Report) : Response where
  succeeded := !r.halted
  output := r.summary
  suggestions := r.suggestions
  trace := if withTrace then some r.trace else none
  diagnostics := r.messages

def ofFailure (f : AdviserFailure) : Response where
  succeeded := false
  output := "Error: " ++ f.message
  suggestions := []
  trace := none
  diagnostics := []

def of (withTrace : Bool) : Except AdviserFailure Report → Response
  | .ok report => ofReport withTrace report
  | .error failure => ofFailure failure

def status (r : Response) : String := if r.succeeded then "success" else "error"

/-- A trace entry as a JSON object. -/
def entryJson (style : TimeStyle) (e : TraceEntry) : Json.Value :=
  Json.object
    [("line", Json.number e.line.repr), ("instruction", Json.string e.instruction),
     ("elapsed_secs", Json.number (style.response e.elapsed))]

/-- The response as JSON text. A trace that is not wanted is left out. -/
def render (style : TimeStyle) (r : Response) : String :=
  let trace :=
    match r.trace with
    | none => []
    | some entries => [("trace", Json.array (entries.map (entryJson style)))]
  Json.object
    ([("status", Json.string r.status), ("output", Json.string r.output),
      ("suggestions", Json.array (r.suggestions.map Json.string))] ++ trace ++
     [("diagnostics", Json.array (r.diagnostics.map Json.string))]) 0

end Response

end LineAsm
