/-
  What the trace bridge reads: the events it passes on, and what comes of the rest.

  How the output was cut into chunks shows in diagnostics only (`readAll_alike`). The checks
  pass events on up to some line, and what comes of that line is an `Ending`; `Reading` says it
  of a list of lines.

  * `reading_total`, `Reading.comes`: every list of lines has a reading, and it is what taking
    the lines comes to.
  * `readAll_comes`: the same of the bridge, for every way the output comes in.
-/
import LiquidLayer.Simulation.TraceBridge

namespace LiquidLayer

namespace TraceBridge

open Scenario (Interpreter Raised get decodeJson)

/-! ## What the checks pass on -/

/-- The lines of the output as the checks meet them: one that is too long is refused in the
    loop, whether it has ended or not. -/
def checkedFrom (pending output : Bytes) : List Line :=
  let rest := Segments.openFrom isNewline pending output
  (Segments.segmentsFrom isNewline pending output).map endedLine ++
    if rest.isEmpty then [] else [⟨rest, decide (maxTraceLineBytes < rest.length)⟩]

def checkedLines (output : Bytes) : List Line := checkedFrom [] output

/-- The lines are within the aggregate limits. -/
def Fits (lines : List Line) : Prop :=
  (lines.map Line.bytes).sum ≤ maxTraceBytes ∧ lines.length ≤ maxTraceEvents

def writable (python : Interpreter) (event : Event) : Bool :=
  Json.dumpable python.limits (.object event)

/-- Lines that the bridge passes on: their events, and the last of their sequence numbers. -/
inductive Passes (python : Interpreter) : List Line → List Event → Int → Prop
  | nil : Passes python [] [] (-1)
  | more {front events last line sequence event} :
      Passes python front events last → Fits (front ++ [line]) →
      validateTraceLine python line.text last = .ok (sequence, false, event) →
      writable python event = true →
      Passes python (front ++ [line]) (events ++ [event]) sequence

/-- What comes of the lines behind those that are passed on. -/
inductive Ending where
  /-- There are none. -/
  | silent
  /-- There is one, a terminal event. -/
  | terminal (event : Event)
  /-- There is something that the bridge refuses and reports. -/
  | refused
  /-- There is something at which an exception leaves the method. -/
  | raised

/-- The events that are passed on, the last sequence number that was accepted, and what comes
    of the rest. -/
inductive Reading (python : Interpreter) : List Line → List Event → Int → Ending → Prop
  | silent {lines events last} : Passes python lines events last →
      Reading python lines events last .silent
  | terminal {front events last line sequence event} : Passes python front events last →
      Fits (front ++ [line]) →
      validateTraceLine python line.text last = .ok (sequence, true, event) →
      Reading python (front ++ [line]) events sequence (.terminal event)
  | late {front events last line next behind sequence event} : Passes python front events last →
      Fits (front ++ [line]) →
      validateTraceLine python line.text last = .ok (sequence, true, event) →
      Reading python (front ++ line :: next :: behind) events sequence .refused
  | excess {front events last line behind} : Passes python front events last →
      ¬Fits (front ++ [line]) →
      Reading python (front ++ line :: behind) events last .refused
  | refused {front events last line behind raised} : Passes python front events last →
      Fits (front ++ [line]) → line.ended = true →
      validateTraceLine python line.text last = .error raised →
      Reading python (front ++ line :: behind) events last .refused
  | torn {front events last line behind raised} : Passes python front events last →
      Fits (front ++ [line]) → line.ended = false →
      validateTraceLine python line.text last = .error raised →
      Reading python (front ++ line :: behind) events last .raised
  | unwritable {front events last line behind sequence event} : Passes python front events last →
      Fits (front ++ [line]) →
      validateTraceLine python line.text last = .ok (sequence, false, event) →
      writable python event = false →
      Reading python (front ++ line :: behind) events sequence .raised

/-! ## The checks of a line -/

section Validate

variable {python : Interpreter} {line : Bytes} {last sequence : Int} {terminal : Bool}
  {event : Event}

/-- What `validateTraceLine` raises is a `RequestProblem`. -/
theorem validate_error {raised : Raised}
    (h : validateTraceLine python line last = .error raised) :
    ∃ status message, raised = .requestProblem status message := by
  unfold validateTraceLine validateEvent bridgeProblem decodeJson at h
  split at h
  · exact ⟨_, _, (Except.error.inj h).symm⟩
  split at h
  · exact ⟨_, _, (Except.error.inj h).symm⟩
  split at h
  · exact ⟨_, _, (Except.error.inj h).symm⟩
  · next hdecode =>
      cases h
      split at hdecode
      · cases hdecode
      · exact ⟨_, _, (Except.error.inj hdecode).symm⟩
  · split at h
    · exact ⟨_, _, (Except.error.inj h).symm⟩
    split at h
    · exact ⟨_, _, (Except.error.inj h).symm⟩
    split at h
    · exact ⟨_, _, (Except.error.inj h).symm⟩
    · cases h
  · exact ⟨_, _, (Except.error.inj h).symm⟩

theorem nextSequence_eq_some {value : Option Json.Value}
    (h : nextSequence value last = some sequence) :
    value = some (.integer sequence) ∧ last < sequence ∧ 0 ≤ sequence := by
  unfold nextSequence at h
  split at h
  · split at h
    · cases h
    · cases h
      exact ⟨rfl, by omega, by omega⟩
  · cases h

theorem validateEvent_ok {accepted : Event}
    (h : validateEvent last event = .ok (sequence, terminal, accepted)) :
    accepted = event ∧ sequenceOf event = some sequence ∧ last < sequence ∧
      isTerminal event = terminal := by
  unfold validateEvent bridgeProblem at h
  split at h
  · cases h
  split at h
  · cases h
  · next hsequence =>
      split at h
      · cases h
      · next name hname =>
          cases h
          obtain ⟨hvalue, hlt, -⟩ := nextSequence_eq_some hsequence
          refine ⟨rfl, ?_, hlt, ?_⟩
          · rw [sequenceOf, hvalue]
          · unfold eventName at hname
            split at hname
            · next found hevent =>
                split at hname
                · cases hname
                · cases hname
                  simp [isTerminal, isNamed, isString, hevent, terminalEvents, beq_eq_decide]
            · cases hname

theorem validate_ok (h : validateTraceLine python line last = .ok (sequence, terminal, event)) :
    line.length ≤ maxTraceLineBytes ∧ decodeJson python line = .ok (.object event) ∧
      sequenceOf event = some sequence ∧ last < sequence ∧ isTerminal event = terminal := by
  unfold validateTraceLine bridgeProblem at h
  split at h
  · cases h
  split at h
  · cases h
  · next hlength =>
      split at h
      · cases h
      · cases h
      · next hdecode =>
          obtain ⟨rfl, hsequence, hlt, hterminal⟩ := validateEvent_ok h
          exact ⟨Nat.le_of_not_lt hlength, hdecode, hsequence, hlt, hterminal⟩
      · cases h

end Validate

/-! ## One line -/

/-- The variables behind lines that are passed on. -/
def passed (lines : List Line) (events : List Event) (last : Int) : Trace where
  lastSequence := last
  terminalEvent := none
  traceBytes := (lines.map Line.bytes).sum
  traceEvents := lines.length
  written := events

/-- What the reading comes to. -/
def endingOf : Trace × Option Halt → Ending
  | (trace, none) =>
      match trace.terminalEvent with
      | none => .silent
      | some event => .terminal event
  | (_, some (.failure _)) => .refused
  | (_, some .raised) => .raised

def Comes (result : Trace × Option Halt) (events : List Event) (last : Int) (ending : Ending) :
    Prop :=
  result.1.written = events ∧ result.1.lastSequence = last ∧ endingOf result = ending

theorem writeEvent_of_writable {python : Interpreter} {event : Event} {trace : Trace}
    (h : writable python event = true) : writeEvent python event trace =
      ({ trace with written := trace.written ++ [event] }, none) := if_pos h

theorem writeEvent_of_not_writable {python : Interpreter} {event : Event} {trace : Trace}
    (h : writable python event = false) :
    writeEvent python event trace = (trace, some .raised) :=
  if_neg (Bool.eq_false_iff.mp h)

section TakeLine

variable {python : Interpreter} {front : List Line} {events : List Event} {last : Int}
  {line : Line} {sequence : Int} {event : Event}

/-- The counters behind one line more. -/
theorem passed_bytes (front : List Line) (line : Line) :
    (front.map Line.bytes).sum + line.bytes = ((front ++ [line]).map Line.bytes).sum := by
  rw [List.map_append, List.sum_append, List.map_singleton, List.sum_singleton]

theorem takeLine_excess (h : ¬Fits (front ++ [line])) :
    ∃ trace message, takeLine python line (passed front events last) =
      (trace, some (.failure message)) ∧ trace.written = events ∧ trace.lastSequence = last := by
  unfold takeLine
  rw [if_neg (show ¬(passed front events last).terminalEvent.isSome = true from nofun)]
  dsimp only [passed]
  rw [passed_bytes]
  by_cases hbytes : ((front ++ [line]).map Line.bytes).sum > maxTraceBytes
  · rw [if_pos hbytes]
    exact ⟨_, _, rfl, rfl, rfl⟩
  · have hevents : front.length + 1 > maxTraceEvents := by
      by_contra hle
      exact h ⟨by omega, by rw [List.length_append, List.length_singleton]; omega⟩
    rw [if_neg hbytes, if_pos hevents]
    exact ⟨_, _, rfl, rfl, rfl⟩

theorem takeLine_fits (h : Fits (front ++ [line])) :
    takeLine python line (passed front events last) =
      match validateTraceLine python line.text last with
      | .error (.requestProblem _ message) => (passed (front ++ [line]) events last,
          if line.ended then some (.failure message) else some .raised)
      | .error _ => (passed (front ++ [line]) events last, some .raised)
      | .ok (sequence, terminal, event) =>
          if terminal then ({ passed (front ++ [line]) events sequence with
            terminalEvent := some event }, none)
          else writeEvent python event (passed (front ++ [line]) events sequence) := by
  obtain ⟨hbytes, hevents⟩ := h
  rw [List.length_append, List.length_singleton] at hevents
  unfold takeLine
  rw [if_neg (show ¬(passed front events last).terminalEvent.isSome = true from nofun)]
  dsimp only [passed]
  rw [passed_bytes, List.length_append, List.length_singleton, if_neg (by omega)]
  exact if_neg (by omega)

theorem takeLine_refused {raised : Raised} (hfits : Fits (front ++ [line]))
    (hvalidate : validateTraceLine python line.text last = .error raised) :
    Comes (takeLine python line (passed front events last)) events last
        (if line.ended then .refused else .raised) ∧
      (takeLine python line (passed front events last)).2 ≠ none := by
  obtain ⟨status, message, rfl⟩ := validate_error hvalidate
  rw [takeLine_fits hfits, hvalidate]
  dsimp only
  cases line.ended with
  | true => exact ⟨⟨rfl, rfl, rfl⟩, nofun⟩
  | false => exact ⟨⟨rfl, rfl, rfl⟩, nofun⟩

theorem takeLine_terminal (hfits : Fits (front ++ [line]))
    (hvalidate : validateTraceLine python line.text last = .ok (sequence, true, event)) :
    takeLine python line (passed front events last) =
      ({ passed (front ++ [line]) events sequence with terminalEvent := some event }, none) := by
  rw [takeLine_fits hfits, hvalidate]
  rfl

theorem takeLine_passes (hfits : Fits (front ++ [line]))
    (hvalidate : validateTraceLine python line.text last = .ok (sequence, false, event))
    (hwritable : writable python event = true) :
    takeLine python line (passed front events last) =
      (passed (front ++ [line]) (events ++ [event]) sequence, none) := by
  rw [takeLine_fits hfits, hvalidate]
  dsimp only
  rw [if_neg Bool.false_ne_true, writeEvent_of_writable hwritable]
  rfl

theorem takeLine_unwritable (hfits : Fits (front ++ [line]))
    (hvalidate : validateTraceLine python line.text last = .ok (sequence, false, event))
    (hwritable : writable python event = false) :
    takeLine python line (passed front events last) =
      (passed (front ++ [line]) events sequence, some .raised) := by
  rw [takeLine_fits hfits, hvalidate]
  dsimp only
  rw [if_neg Bool.false_ne_true, writeEvent_of_not_writable hwritable]

theorem takeLine_late {trace : Trace} (h : trace.terminalEvent = some event) :
    takeLine python line trace =
      (trace, failure "trace process emitted data after its terminal event") := by
  unfold takeLine
  rw [h]
  rfl

/-- A line that is too long, whatever has come before. -/
theorem takeLine_oversized (trace : Trace) (hended : line.ended = true)
    (hlong : maxTraceLineBytes < line.text.length) :
    ∃ stopped message, takeLine python line trace = (stopped, some (.failure message)) ∧
      stopped.written = trace.written ∧ stopped.lastSequence = trace.lastSequence := by
  have hvalidate : ∀ last, ∃ message, validateTraceLine python line.text last =
      .error (.requestProblem 502 message) := by
    intro last
    have hne : ¬line.text.isEmpty = true := by
      rw [List.isEmpty_iff]
      intro hnil
      rw [hnil] at hlong
      exact absurd hlong (Nat.not_lt_zero _)
    unfold validateTraceLine
    rw [if_neg hne, if_pos hlong]
    exact ⟨_, rfl⟩
  unfold takeLine
  dsimp only
  rw [hended]
  split_ifs
  · exact ⟨_, _, rfl, rfl, rfl⟩
  · exact ⟨_, _, rfl, rfl, rfl⟩
  · exact ⟨_, _, rfl, rfl, rfl⟩
  · obtain ⟨message, hmessage⟩ := hvalidate trace.lastSequence
    rw [hmessage]
    exact ⟨_, _, rfl, rfl, rfl⟩
  · next hfalse => exact absurd rfl hfalse

end TakeLine

/-! ## Many lines -/

theorem takeLines_cons (python : Interpreter) (line : Line) (lines : List Line) (trace : Trace) :
    takeLines python (line :: lines) trace =
      match takeLine python line trace with
      | (trace, none) => takeLines python lines trace
      | stopped => stopped := rfl

theorem takeLines_append (python : Interpreter) (lines lines' : List Line) (trace : Trace) :
    takeLines python (lines ++ lines') trace =
      match takeLines python lines trace with
      | (trace, none) => takeLines python lines' trace
      | stopped => stopped := by
  induction lines generalizing trace with
  | nil => rfl
  | cons line lines ih =>
      rw [List.cons_append, takeLines_cons, takeLines_cons]
      obtain ⟨next, halt⟩ := takeLine python line trace
      cases halt with
      | none => exact ih next
      | some halt => rfl

theorem takeLines_cons_none {python : Interpreter} {line : Line} {trace next : Trace}
    (h : takeLine python line trace = (next, none)) (lines : List Line) :
    takeLines python (line :: lines) trace = takeLines python lines next := by
  rw [takeLines_cons, h]

theorem takeLines_cons_some {python : Interpreter} {line : Line} {trace : Trace}
    (h : (takeLine python line trace).2 ≠ none) (lines : List Line) :
    takeLines python (line :: lines) trace = takeLine python line trace := by
  rw [takeLines_cons]
  revert h
  obtain ⟨next, halt⟩ := takeLine python line trace
  intro h
  cases halt with
  | none => exact absurd rfl h
  | some halt => rfl

theorem Passes.takeLines {python : Interpreter} {front : List Line} {events : List Event}
    {last : Int} (h : Passes python front events last) (behind : List Line) :
    takeLines python (front ++ behind) .initial =
      takeLines python behind (passed front events last) := by
  induction h generalizing behind with
  | nil => rfl
  | more hpasses hfits hvalidate hwritable ih =>
      rw [List.append_assoc, ih, List.singleton_append,
        takeLines_cons_none (takeLine_passes hfits hvalidate hwritable)]

/-- The bridge comes to what a reading of the lines says. -/
theorem Reading.comes {python : Interpreter} {lines : List Line} {events : List Event}
    {last : Int} {ending : Ending} (h : Reading python lines events last ending) :
    Comes (takeLines python lines .initial) events last ending := by
  cases h with
  | silent hpasses =>
      have hlines := hpasses.takeLines []
      rw [List.append_nil] at hlines
      rw [hlines]
      exact ⟨rfl, rfl, rfl⟩
  | terminal hpasses hfits hvalidate =>
      rw [hpasses.takeLines, takeLines_cons_none (takeLine_terminal hfits hvalidate)]
      exact ⟨rfl, rfl, rfl⟩
  | late hpasses hfits hvalidate =>
      rw [hpasses.takeLines, takeLines_cons_none (takeLine_terminal hfits hvalidate),
        takeLines_cons_some (by rw [takeLine_late rfl]; nofun), takeLine_late rfl]
      exact ⟨rfl, rfl, rfl⟩
  | excess hpasses hfits =>
      obtain ⟨trace, message, htake, hwritten, hlast⟩ := takeLine_excess hfits
      rw [hpasses.takeLines, takeLines_cons_some (by rw [htake]; nofun), htake]
      exact ⟨hwritten, hlast, rfl⟩
  | refused hpasses hfits hended hvalidate =>
      obtain ⟨hcomes, hhalt⟩ := takeLine_refused hfits hvalidate
      rw [hpasses.takeLines, takeLines_cons_some hhalt]
      rwa [if_pos hended] at hcomes
  | torn hpasses hfits hended hvalidate =>
      obtain ⟨hcomes, hhalt⟩ := takeLine_refused hfits hvalidate
      rw [hpasses.takeLines, takeLines_cons_some hhalt]
      rwa [if_neg (by rw [hended]; exact Bool.false_ne_true)] at hcomes
  | unwritable hpasses hfits hvalidate hwritable =>
      rw [hpasses.takeLines,
        takeLines_cons_some (by rw [takeLine_unwritable hfits hvalidate hwritable]; nofun),
        takeLine_unwritable hfits hvalidate hwritable]
      exact ⟨rfl, rfl, rfl⟩

theorem Passes.reading {python : Interpreter} {front : List Line} {events : List Event}
    {last : Int} (h : Passes python front events last) (behind : List Line) :
    ∃ events last ending, Reading python (front ++ behind) events last ending := by
  induction behind generalizing front events last with
  | nil =>
      rw [List.append_nil]
      exact ⟨_, _, _, .silent h⟩
  | cons line behind ih =>
      by_cases hfits : Fits (front ++ [line])
      · cases hvalidate : validateTraceLine python line.text last with
        | error raised =>
            cases hended : line.ended with
            | true => exact ⟨_, _, _, .refused h hfits hended hvalidate⟩
            | false => exact ⟨_, _, _, .torn h hfits hended hvalidate⟩
        | ok accepted =>
            obtain ⟨sequence, terminal, event⟩ := accepted
            cases terminal with
            | true =>
                cases behind with
                | nil => exact ⟨_, _, _, .terminal h hfits hvalidate⟩
                | cons next behind => exact ⟨_, _, _, .late h hfits hvalidate⟩
            | false =>
                cases hwritable : writable python event with
                | true =>
                    have hnext := ih (.more h hfits hvalidate hwritable)
                    rwa [List.append_assoc] at hnext
                | false => exact ⟨_, _, _, .unwritable h hfits hvalidate hwritable⟩
      · exact ⟨_, _, _, .excess h hfits⟩

/-- Every list of lines has a reading. -/
theorem reading_total (python : Interpreter) (lines : List Line) :
    ∃ events last ending, Reading python lines events last ending := Passes.nil.reading lines

/-! ## Chunks -/

/-- The reading up to the end of the output. -/
def readAll (python : Interpreter) (reads : List Read) (loop : Loop) : Trace × Option Halt :=
  match takeReads python reads loop with
  | (loop, none) => takeRest python loop.stdoutBuffer loop.trace
  | (loop, halt) => (loop.trace, halt)

/-- The same but for what a failure reports. -/
def Alike (result result' : Trace × Option Halt) : Prop :=
  result = result' ∨ ∃ trace message trace' message',
    result = (trace, some (.failure message)) ∧ result' = (trace', some (.failure message')) ∧
      trace.written = trace'.written ∧ trace.lastSequence = trace'.lastSequence

theorem Alike.comes {result result' : Trace × Option Halt} (h : Alike result result')
    {events : List Event} {last : Int} {ending : Ending}
    (hcomes : Comes result' events last ending) : Comes result events last ending := by
  obtain rfl | ⟨trace, message, trace', message', rfl, rfl, hwritten, hlast⟩ := h
  · exact hcomes
  · obtain ⟨hevents, hsequence, hending⟩ := hcomes
    exact ⟨hwritten.trans hevents, hlast.trans hsequence, hending⟩

theorem streamChild_eq (python : Interpreter) (reads : List Read) (exitCode : Option Int) :
    streamChild python reads exitCode =
      finish python exitCode (takeReads python reads .initial).1.stderrBuffer
        (readAll python reads .initial) := by
  unfold streamChild readAll
  obtain ⟨loop, halt⟩ := takeReads python reads .initial
  cases halt with
  | none => rfl
  | some halt => rfl

theorem readAll_cons_none {python : Interpreter} {read : Read} {loop next : Loop}
    (h : takeRead python read loop = (next, none)) (reads : List Read) :
    readAll python (read :: reads) loop = readAll python reads next := by
  unfold readAll
  rw [takeReads, h]

theorem readAll_cons_some {python : Interpreter} {read : Read} {loop next : Loop} {halt : Halt}
    (h : takeRead python read loop = (next, some halt)) (reads : List Read) :
    readAll python (read :: reads) loop = (next.trace, some halt) := by
  unfold readAll
  rw [takeReads, h]

theorem checkedFrom_nil (pending : Bytes) : checkedFrom pending [] =
    if pending.isEmpty then [] else [⟨pending, decide (maxTraceLineBytes < pending.length)⟩] := rfl

theorem checkedFrom_append (pending chunk output : Bytes) :
    checkedFrom pending (chunk ++ output) =
      (Segments.segmentsFrom isNewline pending chunk).map endedLine ++
        checkedFrom (Segments.openFrom isNewline pending chunk) output := by
  unfold checkedFrom
  rw [Segments.segmentsFrom_append, Segments.openFrom_append, List.map_append, List.append_assoc]

/-- A buffer that is too long gives a line that is refused, whatever comes behind it. -/
theorem checkedFrom_oversized {pending : Bytes} (h : maxTraceLineBytes < pending.length)
    (output : Bytes) : ∃ line behind, checkedFrom pending output = line :: behind ∧
      line.ended = true ∧ maxTraceLineBytes < line.text.length := by
  unfold checkedFrom
  obtain ⟨hsegments, hopen⟩ | ⟨more, behind, hsegments⟩ :=
    Segments.from_cases isNewline pending output
  · have hlong : maxTraceLineBytes < (pending ++ output).length := by
      rw [List.length_append]
      omega
    have hne : ¬(pending ++ output).isEmpty = true := by
      rw [List.isEmpty_iff]
      intro hnil
      rw [hnil] at hlong
      exact absurd hlong (Nat.not_lt_zero _)
    rw [hsegments, hopen]
    dsimp only
    rw [if_neg hne]
    exact ⟨_, _, rfl, decide_eq_true hlong, hlong⟩
  · rw [hsegments]
    refine ⟨_, _, rfl, rfl, ?_⟩
    show maxTraceLineBytes < (pending ++ more).length
    rw [List.length_append]
    omega

section Chunk

variable {python : Interpreter} {loop : Loop} {chunk : Bytes} {trace : Trace}

theorem takeRead_stopped {halt : Halt} (hclear : ∀ c ∈ loop.stdoutBuffer, isNewline c = false)
    (h : takeLines python ((Segments.segmentsFrom isNewline loop.stdoutBuffer chunk).map endedLine)
      loop.trace = (trace, some halt)) :
    ∃ next, takeRead python (.stdout chunk) loop = (next, some halt) ∧ next.trace = trace := by
  obtain ⟨hsegments, hopen⟩ := Segments.segments_append isNewline hclear chunk
  unfold takeRead
  dsimp only
  rw [hsegments, h]
  exact ⟨_, rfl, rfl⟩

theorem takeRead_next (hclear : ∀ c ∈ loop.stdoutBuffer, isNewline c = false)
    (h : takeLines python ((Segments.segmentsFrom isNewline loop.stdoutBuffer chunk).map endedLine)
      loop.trace = (trace, none)) :
    takeRead python (.stdout chunk) loop =
      ({ loop with
          stdoutBuffer := Segments.openFrom isNewline loop.stdoutBuffer chunk
          trace := trace },
        if (Segments.openFrom isNewline loop.stdoutBuffer chunk).length > maxTraceLineBytes then
          failure "trace process emitted an oversized line"
        else none) := by
  obtain ⟨hsegments, hopen⟩ := Segments.segments_append isNewline hclear chunk
  unfold takeRead
  dsimp only
  rw [hsegments, hopen, h]
  dsimp only
  rw [if_neg (show ¬(none : Option Halt).isSome = true from nofun)]
  split_ifs
  · rfl
  · rfl

end Chunk

/-- How the output is cut shows in what a failure reports and nowhere else. -/
theorem readAll_alike (python : Interpreter) (reads : List Read) {loop : Loop}
    (hclear : ∀ c ∈ loop.stdoutBuffer, isNewline c = false)
    (hshort : loop.stdoutBuffer.length ≤ maxTraceLineBytes) :
    Alike (readAll python reads loop)
      (takeLines python (checkedFrom loop.stdoutBuffer (stdoutOf reads)) loop.trace) := by
  induction reads generalizing loop with
  | nil =>
      left
      show takeRest python loop.stdoutBuffer loop.trace =
        takeLines python (checkedFrom loop.stdoutBuffer []) loop.trace
      rw [checkedFrom_nil, decide_eq_false (Nat.not_lt_of_le hshort), takeRest]
      split
      · rfl
      · rw [takeLines_cons]
        obtain ⟨next, halt⟩ := takeLine python ⟨loop.stdoutBuffer, false⟩ loop.trace
        cases halt with
        | none => rfl
        | some halt => rfl
  | cons read reads ih =>
      cases read with
      | stderr chunk =>
          rw [readAll_cons_none rfl]
          exact ih hclear hshort
      | stdout chunk =>
          have hstream : stdoutOf (.stdout chunk :: reads) = chunk ++ stdoutOf reads := rfl
          rw [hstream, checkedFrom_append, takeLines_append]
          cases htake : takeLines python
              ((Segments.segmentsFrom isNewline loop.stdoutBuffer chunk).map endedLine)
              loop.trace with
          | mk trace halt =>
              cases halt with
              | some halt =>
                  obtain ⟨next, hread, htrace⟩ := takeRead_stopped hclear htake
                  rw [readAll_cons_some hread, htrace]
                  exact .inl rfl
              | none =>
                  have hread := takeRead_next hclear htake
                  split_ifs at hread with hlong
                  · -- the buffer is too long, so what comes next is refused here as well
                    obtain ⟨line, behind, hchecked, hended, hline⟩ :=
                      checkedFrom_oversized hlong (stdoutOf reads)
                    obtain ⟨stopped, message, hstop, hwritten, hlast⟩ :=
                      takeLine_oversized trace hended hline
                    rw [readAll_cons_some hread]
                    dsimp only
                    rw [hchecked, takeLines_cons_some (by rw [hstop]; nofun), hstop]
                    exact .inr ⟨_, _, _, _, rfl, rfl, hwritten.symm, hlast.symm⟩
                  · rw [readAll_cons_none hread]
                    exact ih (Segments.openFrom_clear isNewline hclear chunk)
                      (Nat.le_of_not_lt hlong)

/-- The bridge comes to what a reading of the output's lines says. -/
theorem readAll_comes {python : Interpreter} {reads : List Read} {events : List Event} {last : Int}
    {ending : Ending} (h : Reading python (checkedLines (stdoutOf reads)) events last ending) :
    Comes (readAll python reads .initial) events last ending :=
  (readAll_alike python reads (fun _ hmem => absurd hmem List.not_mem_nil) (Nat.zero_le _)).comes
    h.comes

end TraceBridge

end LiquidLayer
