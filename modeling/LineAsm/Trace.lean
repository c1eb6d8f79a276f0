import LineAsm.Number
import LineAsm.Program.Basic
import LineAsm.Text.Padded

/-!
# Traces

A trace entry is an executed instruction and the time since the start at which it was done, in
nanoseconds. The log has a line for every entry; the timeline draws a bar for it, as long in
proportion as its time to that of the last entry.

How times are written is a `TimeStyle`, so that a text without times can be had too.
-/
namespace LineAsm

open Text

/-- An executed instruction and when it was done. -/
structure TraceEntry where
  line : Nat
  instruction : String
  /-- Nanoseconds since the start. -/
  elapsed : Nat
  deriving DecidableEq

/-- Nanoseconds in seconds: the whole seconds plus the rest as a fraction. -/
def seconds (nanos : Nat) : Float :=
  Number.ofInt (nanos / 1000000000) + Number.ofInt (nanos % 1000000000 : Nat) / 1000000000.0

/-- How times are written. -/
structure TimeStyle where
  /-- A time in the log. -/
  log : (nanos : Nat) → String
  /-- A time in a response. -/
  response : (nanos : Nat) → String
  /-- The bar and the time in the timeline, given the time of the last entry. -/
  bar : (last nanos : Nat) → String

namespace TimeStyle

/-- A bar of at most `width` signs. Without any time passed all bars are full. -/
def drawBar (width last nanos : Nat) : String :=
  let filled :=
    if 0.0 < seconds last then
      Number.roundHalfUp (seconds nanos / seconds last * Number.ofInt width)
    else width
  padRight ' ' width (String.ofList (List.replicate (min filled width) '#'))

/-- Seconds with the digits of the nanoseconds, without zeros at the end beyond the first place. -/
def plainSeconds (nanos : Nat) : String :=
  let digits := ((nanos % 1000000000).repr.toList.leftpad 9 '0').reverse.dropWhile (· == '0')
  (nanos / 1000000000).repr ++ "." ++ String.ofList (digits.reverse.rightpad 1 '0')

/-- Times as numbers, with bars of at least one sign. -/
def measured (width : Nat) : TimeStyle where
  log nanos := Number.fixed 4 (seconds nanos)
  response := plainSeconds
  bar last nanos :=
    drawBar (max width 1) last nanos ++ " | " ++
      padLeft ' ' 9 (Number.fixed 3 (seconds nanos * 1000.0)) ++ " ms"

/-- The same mark for every time. -/
def masked (mark : String) : TimeStyle where
  log _ := mark
  response _ := mark
  bar _ _ := mark

end TimeStyle

/-- The log of a trace. -/
def renderLog (style : TimeStyle) (trace : List TraceEntry) : String :=
  String.join (trace.map fun e =>
    "Instruction: " ++ e.instruction ++ ", Elapsed Time: " ++ style.log e.elapsed ++ " seconds\n")

/-- The timeline of a trace. -/
def renderTimeline (style : TimeStyle) (trace : List TraceEntry) : String :=
  let last := (trace.getLast?.map (·.elapsed)).getD 0
  "line | timeline | elapsed | instruction\n" ++
    String.join (trace.map fun e =>
      padLeft ' ' 4 e.line.repr ++ " | " ++ style.bar last e.elapsed ++ " | " ++ e.instruction
        ++ "\n")

/-- Puts the times of a clock to executed instructions; the clock is asked for each by its
position. -/
def stamp (clock : Nat → Nat) (code : List Instruction) : List TraceEntry :=
  code.mapIdx fun n i => ⟨i.line, i.text, clock n⟩

end LineAsm
