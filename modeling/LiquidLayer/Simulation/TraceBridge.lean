/-
  The visualizer's trace bridge: `_stream_child` and `_validate_trace_line` of
  apps/visualizer/server.py.

  The bridge reads what the trace process writes in chunks, puts its lines together again,
  passes every event on that its checks accept, and withholds a terminal event until the
  process has exited. Neither the time limit nor a client that disconnects is in the model.

  * `validateTraceLine`: the checks of one line.
  * `streamChild`: the events the bridge writes for a list of reads and an exit status.
  * `Concluded`: a response with one verdict, at its end.
-/
import LiquidLayer.Lib.Segments
import LiquidLayer.Simulation.Scenario

namespace LiquidLayer

namespace TraceBridge

open Scenario (Interpreter Raised Fields get decodeJson hashable)

def maxTraceLineBytes : Nat := 65536
def maxTraceBytes : Nat := 8 * 1024 * 1024
def maxTraceEvents : Nat := 8192
def maxStderrBytes : Nat := 4096
def traceSchema : Json.Text := Json.text "liquid.trace.v2"
def terminalEvents : List Json.Text := ["run_completed", "run_failed"].map Json.text

/-- The fields of a trace event. -/
abbrev Event := Fields

/-! ## The checks of a line -/

def bridgeProblem {α : Type} (message : String) : Except Raised α :=
  .error (.requestProblem 502 (Json.text message))

/-- `type(sequence) is int` (a `bool` is not), not negative and above the one before. -/
def nextSequence (value : Option Json.Value) (lastSequence : Int) : Option Int :=
  match value with
  | some (.integer sequence) =>
      if sequence < 0 ∨ (lastSequence < 0 ∧ sequence ≠ 0) ∨ sequence ≤ lastSequence then none
      else some sequence
  | _ => none

/-- A `str` that is not empty. -/
def eventName (value : Option Json.Value) : Option Json.Text :=
  match value with
  | some (.string name) => if name.isEmpty then none else some name
  | _ => none

def isSchema : Option Json.Value → Bool
  | some (.string schema) => schema == traceSchema
  | _ => false

/-- The checks of an event. -/
def validateEvent (lastSequence : Int) (event : Event) : Except Raised (Int × Bool × Event) :=
  if !isSchema (get event "schema") then
    bridgeProblem "trace event has an unsupported schema"
  else
    match nextSequence (get event "seq") lastSequence with
    | none => bridgeProblem "trace sequence must be strictly increasing"
    | some sequence =>
        match eventName (get event "event") with
        | none => bridgeProblem "trace event name must be a non-empty string"
        | some name => .ok (sequence, terminalEvents.contains name, event)

/-- `_validate_trace_line`. -/
def validateTraceLine (python : Interpreter) (line : Bytes) (lastSequence : Int) :
    Except Raised (Int × Bool × Event) :=
  if line.isEmpty then bridgeProblem "trace process emitted an empty line"
  else if line.length > maxTraceLineBytes then
    bridgeProblem "trace process emitted an oversized line"
  else
    match decodeJson python line with
    | .error (.requestProblem _ message) =>
        .error (.requestProblem 502
          (Json.text "trace process emitted invalid JSON: " ++ message))
    | .error raised => .error raised
    | .ok (.object event) => validateEvent lastSequence event
    | .ok _ => bridgeProblem "trace event must be a JSON object"

/-! ## Writing -/

/-- How a pass over the output stops early: at a failure that the bridge reports, or with an
    exception that leaves the method. -/
inductive Halt where
  | failure (message : Json.Text)
  | raised

/-- The variables of `_stream_child` that its lines change, and the events the client got. A
    terminal event has been seen exactly if there is one. -/
structure Trace where
  lastSequence : Int
  terminalEvent : Option Event
  traceBytes : Nat
  traceEvents : Nat
  written : List Event

/-- `_write_event`: `json.dumps` raises before anything is written. -/
def writeEvent (python : Interpreter) (event : Event) (trace : Trace) : Trace × Option Halt :=
  if Json.dumpable python.limits (.object event) then
    ({ trace with written := trace.written ++ [event] }, none)
  else (trace, some .raised)

def transportFailed (sequence : Int) (diagnostic : Json.Text) : Event :=
  [(Json.text "schema", .string traceSchema),
    (Json.text "seq", .integer sequence),
    (Json.text "event", .string (Json.text "transport_failed")),
    (Json.text "diagnostic", .string (diagnostic.take maxStderrBytes))]

/-- `_write_transport_failure(last_sequence + 1, diagnostic)`. -/
def writeTransportFailure (python : Interpreter) (diagnostic : Json.Text) (trace : Trace) :
    Trace × Option Halt :=
  writeEvent python (transportFailed (trace.lastSequence + 1) diagnostic) trace

/-! ## Reading -/

/-- A line of the output; the last one may not have ended. -/
structure Line where
  text : Bytes
  ended : Bool

/-- With its newline. -/
def Line.bytes (line : Line) : Nat := line.text.length + line.ended.toNat

def failure (message : String) : Option Halt := some (.failure (Json.text message))

/-- One line. The code is there twice, in the loop and behind it for a line that has not ended;
    only the loop catches what `_validate_trace_line` raises. -/
def takeLine (python : Interpreter) (line : Line) (trace : Trace) : Trace × Option Halt :=
  if trace.terminalEvent.isSome then
    (trace, failure "trace process emitted data after its terminal event")
  else
    let trace := { trace with
      traceBytes := trace.traceBytes + line.bytes
      traceEvents := trace.traceEvents + 1 }
    if trace.traceBytes > maxTraceBytes then
      (trace, failure "trace process exceeded the aggregate output limit")
    else if trace.traceEvents > maxTraceEvents then
      (trace, failure "trace process exceeded the event count limit")
    else
      match validateTraceLine python line.text trace.lastSequence with
      | .error (.requestProblem _ message) =>
          (trace, if line.ended then some (.failure message) else some .raised)
      | .error _ => (trace, some .raised)
      | .ok (sequence, terminal, event) =>
          let trace := { trace with lastSequence := sequence }
          if terminal then ({ trace with terminalEvent := some event }, none)
          else writeEvent python event trace

/-- Lines in turn, up to the first that stops the bridge. -/
def takeLines (python : Interpreter) : List Line → Trace → Trace × Option Halt
  | [], trace => (trace, none)
  | line :: lines, trace =>
      match takeLine python line trace with
      | (trace, none) => takeLines python lines trace
      | stopped => stopped

def isNewline (c : UInt8) : Bool := c == 10

def endedLine (text : Bytes) : Line := ⟨text, true⟩

/-- What `os.read` gives; the empty chunk, the end of a stream, is none of them. -/
inductive Read where
  | stdout (chunk : Bytes)
  | stderr (chunk : Bytes)

structure Loop where
  stdoutBuffer : Bytes
  stderrBuffer : Bytes
  trace : Trace

/-- A turn of the loop. Every line that ends in the buffer is taken out of it; behind a stop
    nothing looks at the buffer again. -/
def takeRead (python : Interpreter) (read : Read) (loop : Loop) : Loop × Option Halt :=
  match read with
  | .stderr chunk =>
      let available := maxStderrBytes - loop.stderrBuffer.length
      ({ loop with stderrBuffer := loop.stderrBuffer ++ chunk.take available }, none)
  | .stdout chunk =>
      let buffer := loop.stdoutBuffer ++ chunk
      let (trace, halt) :=
        takeLines python ((Segments.segments isNewline buffer).map endedLine) loop.trace
      let loop := { loop with
        stdoutBuffer := Segments.openFrom isNewline [] buffer
        trace := trace }
      if halt.isSome then (loop, halt)
      else if loop.stdoutBuffer.length > maxTraceLineBytes then
        (loop, failure "trace process emitted an oversized line")
      else (loop, none)

def takeReads (python : Interpreter) : List Read → Loop → Loop × Option Halt
  | [], loop => (loop, none)
  | read :: reads, loop =>
      match takeRead python read loop with
      | (loop, none) => takeReads python reads loop
      | stopped => stopped

/-- What is left in the buffer when both streams are closed. -/
def takeRest (python : Interpreter) (rest : Bytes) (trace : Trace) : Trace × Option Halt :=
  if rest.isEmpty then (trace, none) else takeLine python ⟨rest, false⟩ trace

/-! ## The end -/

def isWhitespace (c : Nat) : Bool :=
  decide (9 ≤ c ∧ c ≤ 13) || decide (28 ≤ c ∧ c ≤ 32) || decide (8192 ≤ c ∧ c ≤ 8202) ||
    [133, 160, 5760, 8232, 8233, 8239, 8287, 12288].contains c

/-- `str.strip`. -/
def strip (text : Json.Text) : Json.Text :=
  ((text.dropWhile isWhitespace).reverse.dropWhile isWhitespace).reverse

/-- `str` of an `int`. -/
def strInt (n : Int) : Json.Text := (Scenario.str n).map UInt8.toNat

/-- What the bridge reports when there is no terminal event. -/
def exitDetail (exitCode : Int) (stderrBuffer : Bytes) : Json.Text :=
  let diagnostic := strip (Utf8.decodeReplacing stderrBuffer)
  let detail := Json.text "trace process exited with status " ++ strInt exitCode
  if diagnostic.isEmpty then detail else detail ++ Json.text ": " ++ diagnostic

def isString (value : Option Json.Value) (expected : String) : Bool :=
  match value with
  | some (.string text) => text == Json.text expected
  | _ => false

/-- `value not in {...}` raises for it. -/
def unhashable (value : Option Json.Value) : Bool := value.any fun value => !hashable value

/-- A terminal event when the process has exited. -/
def writeTerminal (python : Interpreter) (event : Event) (exitCode : Int) (trace : Trace) :
    Trace × Option Halt :=
  let completed := isString (get event "event") "run_completed"
  let outcome := get event "outcome"
  let success := isString outcome "success"
  if completed && unhashable outcome then (trace, some .raised)
  else if completed && !(success || isString outcome "script_error") then
    writeTransportFailure python (Json.text "terminal event has an invalid completed outcome") trace
  else if isString (get event "event") "run_failed" && !isString outcome "host_error" then
    writeTransportFailure python (Json.text "terminal event has an invalid failed outcome") trace
  else
    let expectedExit : Int := if completed then (if success then 0 else 3) else 4
    if exitCode ≠ expectedExit then
      writeTransportFailure python
        (Json.text "terminal event conflicts with trace process status " ++ strInt exitCode) trace
    else writeEvent python event trace

/-- Behind the loop, when nothing has stopped it. There is no exit status if the process is
    still there after half a second. -/
def conclude (python : Interpreter) (exitCode : Option Int) (stderrBuffer : Bytes)
    (trace : Trace) : Trace × Option Halt :=
  match exitCode with
  | none =>
      writeTransportFailure python
        (Json.text "trace process did not exit after closing output") trace
  | some exitCode =>
      match trace.terminalEvent with
      | none => writeTransportFailure python (exitDetail exitCode stderrBuffer) trace
      | some event => writeTerminal python event exitCode trace

/-- The end of the method, by what has stopped the reading. -/
def finish (python : Interpreter) (exitCode : Option Int) (stderrBuffer : Bytes) :
    Trace × Option Halt → Trace × Option Halt
  | (trace, none) => conclude python exitCode stderrBuffer trace
  | (trace, some (.failure message)) => writeTransportFailure python message trace
  | (trace, some .raised) => (trace, some .raised)

def Trace.initial : Trace where
  lastSequence := -1
  terminalEvent := none
  traceBytes := 0
  traceEvents := 0
  written := []

def Loop.initial : Loop where
  stdoutBuffer := []
  stderrBuffer := []
  trace := .initial

/-- `_stream_child`. -/
def streamChild (python : Interpreter) (reads : List Read) (exitCode : Option Int) :
    Trace × Option Halt :=
  match takeReads python reads .initial with
  | (loop, none) =>
      finish python exitCode loop.stderrBuffer (takeRest python loop.stdoutBuffer loop.trace)
  | (loop, halt) => finish python exitCode loop.stderrBuffer (loop.trace, halt)

/-! ## The verdict -/

/-- Everything the process writes to stdout. -/
def stdoutOf (reads : List Read) : Bytes :=
  reads.flatMap fun read =>
    match read with
    | .stdout chunk => chunk
    | .stderr _ => []

/-- The lines of the output, without their newlines. -/
def linesOf (output : Bytes) : List Bytes :=
  let rest := Segments.openFrom isNewline [] output
  Segments.segments isNewline output ++ if rest.isEmpty then [] else [rest]

def sequenceOf (event : Event) : Option Int :=
  match get event "seq" with
  | some (.integer sequence) => some sequence
  | _ => none

def isNamed (event : Event) (name : String) : Bool := isString (get event "event") name

def isTerminal (event : Event) : Bool := isNamed event "run_completed" || isNamed event "run_failed"

def isVerdict (event : Event) : Bool := isTerminal event || isNamed event "transport_failed"

/-- The exit status a terminal event stands for. -/
def statusOf (event : Event) : Option Int :=
  let outcome := get event "outcome"
  if isNamed event "run_completed" then
    if isString outcome "success" then some 0
    else if isString outcome "script_error" then some 3
    else none
  else if isNamed event "run_failed" && isString outcome "host_error" then some 4
  else none

/-- The event agrees with the exit status. -/
def Agrees (exitCode : Option Int) (event : Event) : Prop :=
  ∃ status, exitCode = some status ∧ statusOf event = some status

/-- The event is the last line of the output. -/
def IsLast (python : Interpreter) (output : Bytes) (event : Event) : Prop :=
  ∃ front line, linesOf output = front ++ [line] ∧ decodeJson python line = .ok (.object event)

/-- A response with one verdict, at its end. -/
structure Concluded (python : Interpreter) (output : Bytes) (exitCode : Option Int)
    (written : List Event) : Prop where
  increasing : ∃ sequences : List Int,
    written.map sequenceOf = sequences.map some ∧ sequences.Pairwise (· < ·)
  verdict : ∃ front last, written = front ++ [last] ∧ isVerdict last = true ∧
    ∀ event ∈ front, isVerdict event = false
  trusted : ∀ event ∈ written, isTerminal event = true →
    IsLast python output event ∧ Agrees exitCode event

end TraceBridge

end LiquidLayer
