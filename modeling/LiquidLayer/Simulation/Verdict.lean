/-
  The one verdict of the trace bridge: when `streamChild` ends with exactly one.

  It does if no exception leaves the method and the process itself names no event
  `transport_failed` (`Sound`).

  * `Reading.concluded_iff`: when the response is concluded, by the reading of the output.
  * `streamChild_concluded_iff`: the same without the reading.
  * `streamChild_torn`: it is not when the output stops in the middle of a line.
-/
import LiquidLayer.Simulation.TraceReading

namespace LiquidLayer

namespace TraceBridge

open Scenario (Interpreter get decodeJson)

/-- The process names an event as the bridge names its own. -/
def forged (event : Event) : Bool := isNamed event "transport_failed"

/-- Whether an exception leaves the method: before the end, at a terminal event whose outcome
    cannot be looked up or that cannot be written, or at a failure whose number cannot. -/
def Raises (python : Interpreter) (exitCode : Option Int) (last : Int) : Ending → Prop
  | .raised => True
  | .terminal event =>
      (Agrees exitCode event ∧ writable python event = false) ∨
      (exitCode ≠ none ∧ isNamed event "run_completed" = true ∧
        unhashable (get event "outcome") = true) ∨
      (¬Agrees exitCode event ∧ Json.printable python.limits (last + 1) = false)
  | _ => Json.printable python.limits (last + 1) = false

/-- Nothing is raised and the process names no event `transport_failed`; or it names one so and
    the exception comes right behind it. -/
def Sound (python : Interpreter) (output : Bytes) (exitCode : Option Int) : Prop :=
  ∃ events last ending, Reading python (checkedLines output) events last ending ∧
    ((¬Raises python exitCode last ending ∧ ∀ event ∈ events, forged event = false) ∨
      (Raises python exitCode last ending ∧ ∃ front event, events = front ++ [event] ∧
        forged event = true ∧ ∀ event ∈ front, forged event = false))

/-! ## Sequence numbers -/

/-- Events with rising sequence numbers up to `bound`, none of them terminal. -/
structure Proper (events : List Event) (bound : Int) : Prop where
  increasing : ∃ sequences : List Int, events.map sequenceOf = sequences.map some ∧
    sequences.Pairwise (· < ·) ∧ ∀ sequence ∈ sequences, sequence ≤ bound
  plain : ∀ event ∈ events, isTerminal event = false

theorem Proper.concat {events : List Event} {bound sequence : Int} {event : Event}
    (h : Proper events bound) (hsequence : sequenceOf event = some sequence)
    (hlt : bound < sequence) : ∃ sequences : List Int,
      (events ++ [event]).map sequenceOf = sequences.map some ∧ sequences.Pairwise (· < ·) ∧
        ∀ number ∈ sequences, number ≤ sequence := by
  obtain ⟨sequences, hmap, hpairwise, hle⟩ := h.increasing
  refine ⟨sequences ++ [sequence], ?_, ?_, ?_⟩
  · rw [List.map_append, List.map_append, hmap, List.map_singleton, List.map_singleton, hsequence]
  · refine List.pairwise_append.mpr ⟨hpairwise, List.pairwise_singleton .., ?_⟩
    intro number hnumber number' hnumber'
    rw [List.mem_singleton.mp hnumber']
    exact lt_of_le_of_lt (hle number hnumber) hlt
  · intro number hnumber
    cases List.mem_append.mp hnumber with
    | inl hnumber => exact ((hle number hnumber).trans_lt hlt).le
    | inr hnumber => rw [List.mem_singleton.mp hnumber]

theorem Passes.proper {python : Interpreter} {front : List Line} {events : List Event}
    {last : Int} (h : Passes python front events last) : Proper events last := by
  induction h with
  | nil => exact ⟨⟨[], rfl, .nil, nofun⟩, nofun⟩
  | more hpasses hfits hvalidate hwritable ih =>
      obtain ⟨-, -, hsequence, hlt, hterminal⟩ := validate_ok hvalidate
      refine ⟨ih.concat hsequence hlt, fun event hevent => ?_⟩
      cases List.mem_append.mp hevent with
      | inl hevent => exact ih.plain event hevent
      | inr hevent => rw [List.mem_singleton.mp hevent, hterminal]

/-- What a terminal event at the end of the lines is. -/
def EndsWith (python : Interpreter) (lines : List Line) (last bound : Int) (event : Event) : Prop :=
  sequenceOf event = some last ∧ bound < last ∧ isTerminal event = true ∧
    ∃ front line, lines = front ++ [line] ∧ decodeJson python line.text = .ok (.object event)

theorem Reading.proper {python : Interpreter} {lines : List Line} {events : List Event}
    {last : Int} {ending : Ending} (h : Reading python lines events last ending) :
    ∃ bound ≤ last, Proper events bound ∧
      ∀ event, ending = .terminal event → EndsWith python lines last bound event := by
  cases h with
  | silent hpasses => exact ⟨_, le_rfl, hpasses.proper, nofun⟩
  | terminal hpasses hfits hvalidate =>
      obtain ⟨-, hdecode, hsequence, hlt, hterminal⟩ := validate_ok hvalidate
      refine ⟨_, hlt.le, hpasses.proper, fun event hevent => ?_⟩
      cases hevent
      exact ⟨hsequence, hlt, hterminal, _, _, rfl, hdecode⟩
  | late hpasses hfits hvalidate =>
      exact ⟨_, (validate_ok hvalidate).2.2.2.1.le, hpasses.proper, nofun⟩
  | excess hpasses hfits => exact ⟨_, le_rfl, hpasses.proper, nofun⟩
  | refused hpasses hfits hended hvalidate => exact ⟨_, le_rfl, hpasses.proper, nofun⟩
  | torn hpasses hfits hended hvalidate => exact ⟨_, le_rfl, hpasses.proper, nofun⟩
  | unwritable hpasses hfits hvalidate hwritable =>
      exact ⟨_, (validate_ok hvalidate).2.2.2.1.le, hpasses.proper, nofun⟩

/-! ## The end of the method -/

theorem writable_transportFailed (python : Interpreter) (sequence : Int) (diagnostic : Json.Text) :
    writable python (transportFailed sequence diagnostic) =
      Json.printable python.limits sequence := by
  simp [writable, transportFailed, Json.dumpable, Json.dumpableFields]

section Finish

variable (python : Interpreter) (trace : Trace) {event : Event} {exitCode : Int}

/-- What a failure adds to the response. -/
theorem writeTransportFailure_cases (diagnostic : Json.Text) :
    (Json.printable python.limits (trace.lastSequence + 1) = true ∧
        (writeTransportFailure python diagnostic trace).1.written =
          trace.written ++ [transportFailed (trace.lastSequence + 1) diagnostic]) ∨
      (Json.printable python.limits (trace.lastSequence + 1) = false ∧
        (writeTransportFailure python diagnostic trace).1.written = trace.written) := by
  unfold writeTransportFailure
  rw [← writable_transportFailed python _ diagnostic]
  cases hwritable : writable python (transportFailed (trace.lastSequence + 1) diagnostic) with
  | true => exact .inl ⟨rfl, by rw [writeEvent_of_writable hwritable]⟩
  | false => exact .inr ⟨rfl, by rw [writeEvent_of_not_writable hwritable]⟩

theorem unhashable_of_isString {value : Option Json.Value} {expected : String}
    (h : isString value expected = true) : unhashable value = false := by
  unfold isString at h
  split at h
  · rfl
  · cases h

theorem isString_ne {value : Option Json.Value} {a b : String} (h : isString value a = true)
    (hne : Json.text a ≠ Json.text b) : isString value b = false := by
  unfold isString at h ⊢
  split at h
  · next text =>
      have htext : text = Json.text a := eq_of_beq h
      exact beq_eq_false_iff_ne.mpr (htext ▸ hne)
  · cases h

theorem completed_not_failed (h : isNamed event "run_completed" = true) :
    isNamed event "run_failed" = false := isString_ne h (by decide)

theorem writeTerminal_agrees (h : statusOf event = some exitCode) :
    writeTerminal python event exitCode trace = writeEvent python event trace := by
  unfold statusOf at h
  unfold writeTerminal
  cases hcompleted : isNamed event "run_completed" with
  | true =>
      have hfailed := completed_not_failed hcompleted
      unfold isNamed at hcompleted hfailed h
      cases hsuccess : isString (get event "outcome") "success" with
      | true =>
          have hhash := unhashable_of_isString hsuccess
          simp_all
      | false =>
          cases herror : isString (get event "outcome") "script_error" with
          | true =>
              have hhash := unhashable_of_isString herror
              simp_all
          | false => simp_all
  | false =>
      unfold isNamed at hcompleted h
      simp_all

theorem writeTerminal_unhashable (hcompleted : isNamed event "run_completed" = true)
    (hhash : unhashable (get event "outcome") = true) :
    writeTerminal python event exitCode trace = (trace, some .raised) := by
  unfold isNamed at hcompleted
  unfold writeTerminal
  dsimp only
  rw [hcompleted, hhash]
  rfl

theorem writeTerminal_disagrees (hterminal : isTerminal event = true)
    (hhash : ¬(isNamed event "run_completed" = true ∧ unhashable (get event "outcome") = true))
    (h : statusOf event ≠ some exitCode) :
    ∃ diagnostic, writeTerminal python event exitCode trace =
      writeTransportFailure python diagnostic trace := by
  unfold isTerminal at hterminal
  unfold statusOf at h
  have hexcludes : isNamed event "run_completed" = true → isNamed event "run_failed" = false :=
    completed_not_failed
  unfold writeTerminal
  unfold isNamed at *
  dsimp only
  rw [if_neg (by rwa [Bool.and_eq_true])]
  by_cases hcompleted : (isString (get event "event") "run_completed" &&
      !(isString (get event "outcome") "success" ||
        isString (get event "outcome") "script_error")) = true
  · rw [if_pos hcompleted]
    exact ⟨_, rfl⟩
  by_cases hfailed : (isString (get event "event") "run_failed" &&
      !isString (get event "outcome") "host_error") = true
  · rw [if_neg hcompleted, if_pos hfailed]
    exact ⟨_, rfl⟩
  rw [if_neg hcompleted, if_neg hfailed, if_pos]
  · exact ⟨_, rfl⟩
  · -- the outcome fits the name, so the expected status is the one it stands for
    intro hexit
    apply h
    rw [hexit]
    cases hname : isString (get event "event") "run_completed" with
    | true => cases hsuccess : isString (get event "outcome") "success" <;> simp_all
    | false => simp_all

end Finish

theorem agrees_some {event : Event} {exitCode : Int} :
    Agrees (some exitCode) event ↔ statusOf event = some exitCode := by
  constructor
  · rintro ⟨status, hexit, hstatus⟩
    cases hexit
    exact hstatus
  · exact fun h => ⟨exitCode, rfl, h⟩

/-- The last event of a response: the withheld terminal event, or one of the bridge's own. -/
def Final (exitCode : Option Int) (last : Int) (ending : Ending) (final : Event) : Prop :=
  (ending = .terminal final ∧ Agrees exitCode final) ∨
    ∃ diagnostic, final = transportFailed (last + 1) diagnostic

/-- Either an exception leaves the method and nothing more is written, or one event is. -/
def Ends (python : Interpreter) (exitCode : Option Int) (events : List Event) (last : Int)
    (ending : Ending) (written : List Event) : Prop :=
  (Raises python exitCode last ending ∧ written = events) ∨
    (¬Raises python exitCode last ending ∧ ∃ final, written = events ++ [final] ∧
      Final exitCode last ending final)

section Ends

variable {python : Interpreter} {exitCode : Option Int} {trace : Trace} {ending : Ending}

theorem writeTransportFailure_ends (diagnostic : Json.Text)
    (hraises : Raises python exitCode trace.lastSequence ending ↔
      Json.printable python.limits (trace.lastSequence + 1) = false) :
    Ends python exitCode trace.written trace.lastSequence ending
      (writeTransportFailure python diagnostic trace).1.written := by
  unfold Ends
  rw [hraises]
  obtain ⟨hprintable, hwritten⟩ | ⟨hprintable, hwritten⟩ :=
    writeTransportFailure_cases python trace diagnostic
  · exact .inr ⟨by rw [hprintable]; nofun, _, hwritten, .inr ⟨diagnostic, rfl⟩⟩
  · exact .inl ⟨hprintable, hwritten⟩

theorem writeTerminal_ends {event : Event} {code : Int} (hterminal : isTerminal event = true) :
    Ends python (some code) trace.written trace.lastSequence (.terminal event)
      (writeTerminal python event code trace).1.written := by
  by_cases hagrees : statusOf event = some code
  · have hagrees' := agrees_some.mpr hagrees
    have hhash : ¬(isNamed event "run_completed" = true ∧
        unhashable (get event "outcome") = true) := by
      rintro ⟨hcompleted, hhash⟩
      unfold statusOf at hagrees
      dsimp only at hagrees
      rw [if_pos hcompleted] at hagrees
      split_ifs at hagrees with hsuccess herror
      · rw [unhashable_of_isString hsuccess] at hhash
        cases hhash
      · rw [unhashable_of_isString herror] at hhash
        cases hhash
    rw [writeTerminal_agrees python trace hagrees]
    cases hwritable : writable python event with
    | true =>
        rw [writeEvent_of_writable hwritable]
        refine .inr ⟨?_, event, rfl, .inl ⟨rfl, hagrees'⟩⟩
        rintro (⟨-, hnot⟩ | ⟨-, hboth⟩ | ⟨hnot, -⟩)
        · rw [hwritable] at hnot
          cases hnot
        · exact hhash hboth
        · exact hnot hagrees'
    | false =>
        rw [writeEvent_of_not_writable hwritable]
        exact .inl ⟨.inl ⟨hagrees', hwritable⟩, rfl⟩
  · have hagrees' : ¬Agrees (some code) event := fun h => hagrees (agrees_some.mp h)
    by_cases hhash : isNamed event "run_completed" = true ∧ unhashable (get event "outcome") = true
    · rw [writeTerminal_unhashable python trace hhash.1 hhash.2]
      exact .inl ⟨.inr (.inl ⟨nofun, hhash⟩), rfl⟩
    · obtain ⟨diagnostic, hreport⟩ := writeTerminal_disagrees python trace hterminal
         hhash hagrees
      rw [hreport]
      refine writeTransportFailure_ends diagnostic ⟨?_, fun h => .inr (.inr ⟨hagrees', h⟩)⟩
      rintro (⟨h, -⟩ | ⟨-, h⟩ | ⟨-, h⟩)
      · exact absurd h hagrees'
      · exact absurd h hhash
      · exact h

theorem finish_ends (python : Interpreter) (exitCode : Option Int) (stderrBuffer : Bytes)
    {result : Trace × Option Halt} {events : List Event} {last : Int} {ending : Ending}
    (hcomes : Comes result events last ending)
    (hterminal : ∀ event, ending = .terminal event → isTerminal event = true) :
    Ends python exitCode events last ending
      (finish python exitCode stderrBuffer result).1.written := by
  obtain ⟨trace, halt⟩ := result
  obtain ⟨rfl, rfl, rfl⟩ := hcomes
  cases halt with
  | some halt =>
      cases halt with
      | failure message => exact writeTransportFailure_ends message Iff.rfl
      | raised => exact .inl ⟨trivial, rfl⟩
  | none =>
      obtain ⟨lastSequence, terminalEvent, traceBytes, traceEvents, written⟩ := trace
      cases terminalEvent with
      | none =>
          cases exitCode with
          | none => exact writeTransportFailure_ends _ Iff.rfl
          | some code => exact writeTransportFailure_ends _ Iff.rfl
      | some event =>
          cases exitCode with
          | none =>
              have hagrees : ¬Agrees none event := by
                rintro ⟨status, hexit, -⟩
                cases hexit
              refine writeTransportFailure_ends _ ⟨?_, fun h => .inr (.inr ⟨hagrees, h⟩)⟩
              rintro (⟨h, -⟩ | ⟨h, -⟩ | ⟨-, h⟩)
              · exact absurd h hagrees
              · exact absurd rfl h
              · exact h
          | some code => exact writeTerminal_ends (hterminal event rfl)

end Ends

/-! ## The verdict -/

theorem isVerdict_of_plain {event : Event} (h : isTerminal event = false) :
    isVerdict event = forged event := by
  unfold isVerdict
  rw [h]
  rfl

theorem lines_text (output : Bytes) : (checkedLines output).map Line.text = linesOf output := by
  unfold checkedLines checkedFrom linesOf Segments.segments
  dsimp only
  have hended : Line.text ∘ endedLine = id := rfl
  rw [List.map_append, List.map_map, hended, List.map_id]
  congr 1
  split
  · rfl
  · rfl

section Verdict

variable {python : Interpreter} {output : Bytes} {exitCode : Option Int} {events : List Event}
  {bound : Int}

/-- The response without an event of the bridge's own. -/
theorem concluded_stopped (h : Proper events bound) : Concluded python output exitCode events ↔
    ∃ front event, events = front ++ [event] ∧ forged event = true ∧
      ∀ event ∈ front, forged event = false := by
  constructor
  · intro hconcluded
    obtain ⟨front, last, rfl, hlast, hfront⟩ := hconcluded.verdict
    refine ⟨front, last, rfl, ?_, fun event hevent => ?_⟩
    · rwa [isVerdict_of_plain (h.plain last List.mem_concat_self)] at hlast
    · have hplain := h.plain event (List.mem_append_left _ hevent)
      rw [← isVerdict_of_plain hplain]
      exact hfront event hevent
  · rintro ⟨front, last, rfl, hlast, hfront⟩
    obtain ⟨sequences, hmap, hpairwise, -⟩ := h.increasing
    refine ⟨⟨sequences, hmap, hpairwise⟩, ⟨front, last, rfl, ?_, fun event hevent => ?_⟩, ?_⟩
    · rwa [isVerdict_of_plain (h.plain last List.mem_concat_self)]
    · have hplain := h.plain event (List.mem_append_left _ hevent)
      rw [isVerdict_of_plain hplain]
      exact hfront event hevent
    · intro event hevent hterminal
      rw [h.plain event hevent] at hterminal
      cases hterminal

/-- The response with a last event behind those that are passed on. -/
theorem concluded_final {final : Event} {sequence : Int} (h : Proper events bound)
    (hsequence : sequenceOf final = some sequence) (hlt : bound < sequence)
    (hverdict : isVerdict final = true)
    (htrusted : isTerminal final = true → IsLast python output final ∧ Agrees exitCode final) :
    Concluded python output exitCode (events ++ [final]) ↔
      ∀ event ∈ events, forged event = false := by
  constructor
  · intro hconcluded event hevent
    obtain ⟨front, last, hwritten, -, hfront⟩ := hconcluded.verdict
    obtain ⟨rfl, -⟩ := List.append_inj' hwritten rfl
    rw [← isVerdict_of_plain (h.plain event hevent)]
    exact hfront event hevent
  · intro hplain
    obtain ⟨sequences, hmap, hpairwise, -⟩ := h.concat hsequence hlt
    refine ⟨⟨sequences, hmap, hpairwise⟩, ⟨events, final, rfl, hverdict, fun event hevent => ?_⟩,
      ?_⟩
    · rw [isVerdict_of_plain (h.plain event hevent)]
      exact hplain event hevent
    · intro event hevent hterminal
      cases List.mem_append.mp hevent with
      | inl hevent =>
          rw [h.plain event hevent] at hterminal
          cases hterminal
      | inr hevent =>
          cases List.mem_singleton.mp hevent
          exact htrusted hterminal

end Verdict

theorem transportFailed_named (sequence : Int) (diagnostic : Json.Text) :
    sequenceOf (transportFailed sequence diagnostic) = some sequence ∧
      isVerdict (transportFailed sequence diagnostic) = true ∧
      isTerminal (transportFailed sequence diagnostic) = false := ⟨rfl, rfl, rfl⟩

/-- A response by the reading of the output. -/
theorem Reading.concluded_iff {python : Interpreter} {reads : List Read} {events : List Event}
    {last : Int} {ending : Ending}
    (h : Reading python (checkedLines (stdoutOf reads)) events last ending)
    (exitCode : Option Int) :
    Concluded python (stdoutOf reads) exitCode (streamChild python reads exitCode).1.written ↔
      (¬Raises python exitCode last ending ∧ ∀ event ∈ events, forged event = false) ∨
      (Raises python exitCode last ending ∧ ∃ front event, events = front ++ [event] ∧
        forged event = true ∧ ∀ event ∈ front, forged event = false) := by
  obtain ⟨bound, hle, hproper, hends⟩ := h.proper
  have hwritten := finish_ends python exitCode (takeReads python reads .initial).1.stderrBuffer
    (readAll_comes h) fun event hevent => (hends event hevent).2.2.1
  rw [← streamChild_eq] at hwritten
  obtain ⟨hraises, hwritten⟩ | ⟨hraises, final, hwritten, hfinal⟩ := hwritten
  · rw [hwritten, concluded_stopped hproper]
    exact ⟨fun h => .inr ⟨hraises, h⟩, fun h => h.elim (fun h => absurd hraises h.1) And.right⟩
  · have hconcluded : Concluded python (stdoutOf reads) exitCode (events ++ [final]) ↔
        ∀ event ∈ events, forged event = false := by
      obtain ⟨hending, hagrees⟩ | ⟨diagnostic, rfl⟩ := hfinal
      · obtain ⟨hsequence, hlt, hterminal, front, line, hlines, hdecode⟩ := hends final hending
        refine concluded_final hproper hsequence hlt ?_ fun _ => ⟨?_, hagrees⟩
        · unfold isVerdict
          rw [hterminal, Bool.true_or]
        · refine ⟨front.map Line.text, line.text, ?_, hdecode⟩
          rw [← lines_text, hlines, List.map_append, List.map_singleton]
      · obtain ⟨hsequence, hverdict, hplain⟩ := transportFailed_named (last + 1) diagnostic
        refine concluded_final hproper hsequence (by omega) hverdict fun hterminal => ?_
        rw [hplain] at hterminal
        cases hterminal
    rw [hwritten, hconcluded]
    exact ⟨fun h => .inl ⟨hraises, h⟩, fun h => h.elim And.right fun h => absurd h.1 hraises⟩

/-- The response has one verdict, at its end, exactly if the output is sound. -/
theorem streamChild_concluded_iff (python : Interpreter) (reads : List Read)
    (exitCode : Option Int) :
    Concluded python (stdoutOf reads) exitCode (streamChild python reads exitCode).1.written ↔
      Sound python (stdoutOf reads) exitCode := by
  constructor
  · intro h
    obtain ⟨events, last, ending, hreading⟩ :=
      reading_total python (checkedLines (stdoutOf reads))
    exact ⟨events, last, ending, hreading, (hreading.concluded_iff exitCode).mp h⟩
  · rintro ⟨events, last, ending, hreading, hsound⟩
    exact (hreading.concluded_iff exitCode).mpr hsound

/-- The process starts a run and crashes in the middle of its second line. -/
def tornOutput : Bytes :=
  utf8 "\x7b\"schema\":\"liquid.trace.v2\",\"seq\":0,\"event\":\"run_started\"\x7d\n\x7b\"schema\":"

/-- The bounds of a common interpreter. -/
def commonPython : Interpreter := ⟨⟨1000, 4300⟩, fun _ => []⟩

theorem streamChild_torn : ¬Concluded commonPython (stdoutOf [.stdout tornOutput]) (some (-6))
    (streamChild commonPython [.stdout tornOutput] (some (-6))).1.written := by
  have hlast : (streamChild commonPython [.stdout tornOutput] (some (-6))).1.written.getLast?.map
      isVerdict = some false := by decide +kernel
  intro h
  obtain ⟨front, last, hwritten, hverdict, -⟩ := h.verdict
  rw [hwritten, List.getLast?_concat, Option.map_some, hverdict] at hlast
  cases hlast

end TraceBridge

end LiquidLayer
