/-
  A scenario on its way from a request to the simulator: `validate_scenario` and the argument
  vector of `_run_trace` (apps/visualizer/server.py), and `parse_simulation_arguments`
  (apps/SimulationInput.cpp), which reads the vector again.

  * `validateScenario`: what the server raises or returns for a request body.
  * `arguments`, `parseSimulationArguments`: the two sides of the command line.
  * `parse_arguments`: the parser reads from the vector the scenario it was built from.
  * `Sound`, `sound_iff`: when the server answers a body with a scenario the parser reads or with
    a `RequestProblem`.
-/
import LiquidLayer.Effects.State
import LiquidLayer.Lib.Json

namespace LiquidLayer

namespace Scenario

/-! ## The request -/

def maxScriptBytes : Nat := 65536
def maxFrameCount : Nat := 1000
def maxInt64 : Int := 2 ^ 63 - 1

/-- What the server's code may raise: a `RequestProblem`, or Python's `TypeError`. -/
inductive Raised where
  | requestProblem (status : Nat) (message : Json.Text)
  | typeError (message : Json.Text)

/-- The interpreter: its bounds, and how it words the error that refuses a body. -/
structure Interpreter where
  limits : Json.Limits
  describe : Bytes → Json.Text

def problem {α : Type} (status : Nat) (message : String) : Except Raised α :=
  .error (.requestProblem status (Json.text message))

/-- `_decode_json`. -/
def decodeJson (python : Interpreter) (data : Bytes) : Except Raised Json.Value :=
  match Json.loads python.limits data with
  | some value => .ok value
  | none => .error (.requestProblem 400 (Json.text "invalid JSON: " ++ python.describe data))

abbrev Fields := List (Json.Text × Json.Value)

/-- `payload.get(name)`. -/
def get (payload : Fields) (name : String) : Option Json.Value :=
  (payload.find? fun field => field.1 == Json.text name).map Prod.snd

def requiredFields : List Json.Text :=
  ["initial_brightness", "script", "frame_times"].map Json.text

def expectedFields : List Json.Text :=
  requiredFields ++ ["feedback_timing", "latency_ms", "adapter_outcome", "duplicate_reports",
    "silent", "reverse_delivery"].map Json.text

/-- `sorted(names)[0]`, of a set with a member. -/
def firstSorted (names : List Json.Text) : Json.Text := (names.insertionSort (· ≤ ·)).headD []

def checkFields (payload : Fields) : Except Raised Unit :=
  let fields := payload.map Prod.fst
  let unknown := fields.filter fun name => !expectedFields.contains name
  let missing := requiredFields.filter fun name => !fields.contains name
  if !unknown.isEmpty then
    .error (.requestProblem 400 (Json.text "unknown field: " ++ firstSorted unknown))
  else if !missing.isEmpty then
    .error (.requestProblem 400 (Json.text "missing field: " ++ firstSorted missing))
  else .ok ()

/-- An `int` (not a `bool`) within bounds. -/
def checkInt (value : Option Json.Value) (maximum : Int) (message : String) : Except Raised Int :=
  match value with
  | some (.integer n) => if 0 ≤ n ∧ n ≤ maximum then .ok n else problem 400 message
  | _ => problem 400 message

/-- `script.encode("utf-8", errors="strict")`. -/
def encode (script : Json.Text) : Option Bytes :=
  if script.all fun code => decide (code < 0xd800) || decide (0xdfff < code) then
    some (script.flatMap Utf8.encodeNat)
  else none

def checkScript (value : Option Json.Value) : Except Raised Json.Text :=
  match value with
  | some (.string script) =>
      if script.contains 0 then problem 400 "script must not contain NUL bytes"
      else
        match encode script with
        | none => problem 400 "script must contain valid Unicode"
        | some scriptBytes =>
            if scriptBytes.length > maxScriptBytes then
              problem 413 "script exceeds the 65536-byte limit"
            else .ok script
  | _ => problem 400 "script must be a string"

def checkTimes (previous : Int) : List Json.Value → Except Raised (List Int)
  | [] => .ok []
  | value :: rest => do
      let time ← checkInt (some value) maxInt64 "frame times must be integers from 0 to INT64_MAX"
      if time < previous then problem 400 "frame times must be nondecreasing"
      else return time :: (← checkTimes time rest)

def checkFrameTimes (value : Option Json.Value) : Except Raised (List Int) :=
  match value with
  | some (.array items) =>
      if 1 ≤ items.length ∧ items.length ≤ maxFrameCount then checkTimes (-1) items
      else problem 400 "frame_times must contain between 1 and 1000 values"
  | _ => problem 400 "frame_times must be an array"

/-- A Python value that a set can look up. -/
def hashable : Json.Value → Bool
  | .array _ | .object _ => false
  | _ => true

/-- `value not in {...}`: the lookup hashes the value first. -/
def checkChoice (value : Json.Value) (choices : List String) (message : String) :
    Except Raised Json.Text :=
  match value with
  | .array _ => .error (.typeError (Json.text "unhashable type: 'list'"))
  | .object _ => .error (.typeError (Json.text "unhashable type: 'dict'"))
  | .string chosen =>
      if (choices.map Json.text).contains chosen then .ok chosen else problem 400 message
  | _ => problem 400 message

structure AdapterSettings where
  feedbackTiming : Json.Text
  latencyMs : Int
  adapterOutcome : Json.Text
  duplicateReports : Int
  silent : Bool
  reverseDelivery : Bool

structure Settings where
  brightness : Int
  script : Json.Text
  frameTimes : List Int
  adapter : AdapterSettings

/-- The checks up to the frame times. -/
def validateRun (python : Interpreter) (data : Bytes) :
    Except Raised (Fields × Int × Json.Text × List Int) := do
  match ← decodeJson python data with
  | .object payload =>
      checkFields payload
      let brightness ← checkInt (get payload "initial_brightness") 100
        "initial_brightness must be an integer from 0 to 100"
      let script ← checkScript (get payload "script")
      let frameTimes ← checkFrameTimes (get payload "frame_times")
      return (payload, brightness, script, frameTimes)
  | _ => problem 400 "request body must be a JSON object"

def feedbackTimingOf (payload : Fields) : Json.Value :=
  (get payload "feedback_timing").getD (.string (Json.text "deferred"))

def adapterOutcomeOf (payload : Fields) : Json.Value :=
  (get payload "adapter_outcome").getD (.string (Json.text "applied"))

def checkFeedbackTiming (payload : Fields) : Except Raised Json.Text :=
  checkChoice (feedbackTimingOf payload) ["deferred", "immediate"]
    "feedback_timing must be deferred or immediate"

def checkLatency (payload : Fields) : Except Raised Int :=
  checkInt (some ((get payload "latency_ms").getD (.integer 0))) maxInt64
    "latency_ms must be an integer from 0 to INT64_MAX"

def checkAdapterOutcome (payload : Fields) : Except Raised Json.Text :=
  checkChoice (adapterOutcomeOf payload) ["applied", "rejected", "failed"]
    "adapter_outcome must be applied, rejected, or failed"

/-- The checks of the adapter's settings. -/
def validateAdapter (payload : Fields) : Except Raised AdapterSettings := do
  let feedbackTiming ← checkFeedbackTiming payload
  let latencyMs ← checkLatency payload
  let adapterOutcome ← checkAdapterOutcome payload
  let duplicateReports ← checkInt (some ((get payload "duplicate_reports").getD (.integer 0))) 64
    "duplicate_reports must be an integer from 0 to 64"
  match (get payload "silent").getD (.boolean false),
      (get payload "reverse_delivery").getD (.boolean false) with
  | .boolean silent, .boolean reverseDelivery =>
      return ⟨feedbackTiming, latencyMs, adapterOutcome, duplicateReports, silent, reverseDelivery⟩
  | _, _ => problem 400 "silent and reverse_delivery must be booleans"

def validateScenario (python : Interpreter) (data : Bytes) : Except Raised Settings := do
  let (payload, brightness, script, frameTimes) ← validateRun python data
  let adapter ← validateAdapter payload
  return ⟨brightness, script, frameTimes, adapter⟩

/-! ## The command line -/

/-- `str` of an `int`. -/
def str (n : Int) : Bytes :=
  if 0 ≤ n then decimal n.toNat else 45 :: decimal n.natAbs

/-- `str(flag).lower()`. -/
def lowerFlag (flag : Bool) : Bytes := if flag then utf8 "true" else utf8 "false"

def frameArguments (frameTimes : List Int) : List Bytes :=
  frameTimes.flatMap fun frameTime => [utf8 "--frame-time", str frameTime]

/-- The arguments behind the executable. -/
def arguments (scenario : Settings) (scriptPath : Bytes) : List Bytes :=
  [utf8 "--initial-brightness", str scenario.brightness, utf8 "--script", scriptPath] ++
    (frameArguments scenario.frameTimes ++
      [utf8 "--feedback-timing", scenario.adapter.feedbackTiming.flatMap Utf8.encodeNat,
        utf8 "--latency", str scenario.adapter.latencyMs,
        utf8 "--outcome", scenario.adapter.adapterOutcome.flatMap Utf8.encodeNat,
        utf8 "--duplicates", str scenario.adapter.duplicateReports,
        utf8 "--silent", lowerFlag scenario.adapter.silent,
        utf8 "--reverse-delivery", lowerFlag scenario.adapter.reverseDelivery])

structure SimulationFileOptions where
  initialBrightness : Int
  scriptPath : Bytes
  frameTimes : List UInt64
  feedbackTiming : FeedbackTiming
  latencyMs : UInt64
  adapterOutcome : CommandStatus
  duplicateReports : Nat
  silent : Bool
  reverseDelivery : Bool
deriving DecidableEq

def SimulationFileOptions.initial : SimulationFileOptions where
  initialBrightness := 0
  scriptPath := []
  frameTimes := []
  feedbackTiming := .deferred
  latencyMs := 0
  adapterOutcome := .applied
  duplicateReports := 0
  silent := false
  reverseDelivery := false

structure SimulationParseResult where
  options : SimulationFileOptions
  succeeded : Bool
  helpRequested : Bool
  diagnostic : Bytes

/-- `std::from_chars` over the whole text, in base ten. -/
def parseUnsigned (value : Bytes) : Option UInt64 :=
  if value.isEmpty then none
  else if value.all fun c => decide (48 ≤ c) && decide (c ≤ 57) then
    let parsed := value.foldl (fun n c => n * 10 + (c.toNat - 48)) 0
    if parsed < 2 ^ 64 then some (UInt64.ofNat parsed) else none
  else none

def hexCharacter (n : UInt8) : UInt8 := if n < 10 then 48 + n else 87 + n

def escapeText (value : Bytes) : Bytes :=
  value.flatMap fun (character : UInt8) =>
    if character = 92 then [92, 92]
    else if character = 10 then utf8 "\\n"
    else if character = 13 then utf8 "\\r"
    else if character = 9 then utf8 "\\t"
    else if character < 0x20 ∨ character ≥ 0x7f then
      utf8 "\\x" ++ [hexCharacter (character >>> 4), hexCharacter (character &&& 0x0f)]
    else [character]

/-- What the loop holds between two options. -/
structure ParseState where
  options : SimulationFileOptions
  hasBrightness : Bool
  hasScript : Bool

def knownOptions : List Bytes :=
  ["--initial-brightness", "--script", "--frame-time", "--feedback-timing", "--latency",
    "--outcome", "--duplicates", "--silent", "--reverse-delivery"].map utf8

def setBrightness (s : ParseState) (value : Bytes) : Except Bytes ParseState :=
  if s.hasBrightness then .error (utf8 "--initial-brightness may be specified only once")
  else
    match parseUnsigned value with
    | some brightness =>
        if brightness > 100 then
          .error (utf8 "initial brightness must be an integer from 0 to 100")
        else .ok
          { s with
            options := { s.options with initialBrightness := brightness.toNat }
            hasBrightness := true }
    | none => .error (utf8 "initial brightness must be an integer from 0 to 100")

def setScript (s : ParseState) (value : Bytes) : Except Bytes ParseState :=
  if s.hasScript then .error (utf8 "--script may be specified only once")
  else if value.isEmpty then .error (utf8 "script path must not be empty")
  else .ok { s with options := { s.options with scriptPath := value }, hasScript := true }

def setFeedbackTiming (s : ParseState) (value : Bytes) : Except Bytes ParseState :=
  if value = utf8 "deferred" then
    .ok { s with options := { s.options with feedbackTiming := .deferred } }
  else if value = utf8 "immediate" then
    .ok { s with options := { s.options with feedbackTiming := .immediate } }
  else .error (utf8 "feedback timing must be deferred or immediate")

def setOutcome (s : ParseState) (value : Bytes) : Except Bytes ParseState :=
  if value = utf8 "applied" then
    .ok { s with options := { s.options with adapterOutcome := .applied } }
  else if value = utf8 "rejected" then
    .ok { s with options := { s.options with adapterOutcome := .rejected } }
  else if value = utf8 "failed" then
    .ok { s with options := { s.options with adapterOutcome := .failed } }
  else .error (utf8 "outcome must be applied, rejected, or failed")

def setFlag (s : ParseState) (option value : Bytes) : Except Bytes ParseState :=
  if value ≠ utf8 "true" ∧ value ≠ utf8 "false" then
    .error (option ++ utf8 " must be true or false")
  else
    let enabled := decide (value = utf8 "true")
    if option = utf8 "--silent" then
      .ok { s with options := { s.options with silent := enabled } }
    else .ok { s with options := { s.options with reverseDelivery := enabled } }

def setLatency (s : ParseState) (value : Bytes) : Except Bytes ParseState :=
  match parseUnsigned value with
  | some latencyMs => .ok { s with options := { s.options with latencyMs } }
  | none => .error (utf8 "latency must be an unsigned integer")

def setDuplicates (s : ParseState) (value : Bytes) : Except Bytes ParseState :=
  match parseUnsigned value with
  | some duplicates =>
      if duplicates > 64 then .error (utf8 "duplicates must be an integer from 0 to 64")
      else .ok { s with options := { s.options with duplicateReports := duplicates.toNat } }
  | none => .error (utf8 "duplicates must be an integer from 0 to 64")

def addFrameTime (s : ParseState) (value : Bytes) : Except Bytes ParseState :=
  match parseUnsigned value with
  | none => .error (utf8 "frame time must be an unsigned integer in milliseconds")
  | some frameTime =>
      if frameTime.toNat > 2 ^ 63 - 1 then .error (utf8 "frame time exceeds the Lua integer range")
      else if s.options.frameTimes.getLast?.any fun last => decide (frameTime < last) then
        .error (utf8 "frame times must be nondecreasing")
      else .ok
        { s with
          options := { s.options with frameTimes := s.options.frameTimes ++ [frameTime] } }

/-- One option with its value. -/
def setOption (s : ParseState) (option value : Bytes) : Except Bytes ParseState :=
  if option = utf8 "--initial-brightness" then setBrightness s value
  else if option = utf8 "--script" then setScript s value
  else if option = utf8 "--feedback-timing" then setFeedbackTiming s value
  else if option = utf8 "--outcome" then setOutcome s value
  else if option = utf8 "--silent" ∨ option = utf8 "--reverse-delivery" then setFlag s option value
  else if option = utf8 "--latency" then setLatency s value
  else if option = utf8 "--duplicates" then setDuplicates s value
  else addFrameTime s value

def parseFailed (options : SimulationFileOptions) (diagnostic : Bytes) : SimulationParseResult :=
  ⟨options, false, false, diagnostic⟩

def parseLoop (s : ParseState) : List Bytes → SimulationParseResult
  | [] =>
      if !s.hasBrightness || !s.hasScript || s.options.frameTimes.isEmpty then
        parseFailed s.options (utf8 "missing required options")
      else ⟨s.options, true, false, []⟩
  | option :: rest =>
      if option = utf8 "--help" then
        parseFailed s.options (utf8 "--help cannot be combined with scenario options")
      else if !knownOptions.contains option then
        parseFailed s.options (utf8 "unknown option: " ++ escapeText option)
      else
        match rest with
        | [] => parseFailed s.options (utf8 "missing value for " ++ option)
        | value :: rest =>
            match setOption s option value with
            | .error diagnostic => parseFailed s.options diagnostic
            | .ok s => parseLoop s rest

def parseSimulationArguments (arguments : List Bytes) : SimulationParseResult :=
  if arguments = [utf8 "--help"] then ⟨.initial, true, true, []⟩
  else parseLoop ⟨.initial, false, false⟩ arguments

/-! ## A scenario that passed -/

/-- What the checks leave. -/
structure Valid (scenario : Settings) : Prop where
  brightness : 0 ≤ scenario.brightness ∧ scenario.brightness ≤ 100
  times : ∀ t ∈ scenario.frameTimes, 0 ≤ t ∧ t ≤ maxInt64
  nondecreasing : scenario.frameTimes.Pairwise (· ≤ ·)
  someTime : scenario.frameTimes ≠ []
  timing : scenario.adapter.feedbackTiming = Json.text "deferred" ∨
    scenario.adapter.feedbackTiming = Json.text "immediate"
  latency : 0 ≤ scenario.adapter.latencyMs ∧ scenario.adapter.latencyMs ≤ maxInt64
  outcome : scenario.adapter.adapterOutcome = Json.text "applied" ∨
    scenario.adapter.adapterOutcome = Json.text "rejected" ∨
    scenario.adapter.adapterOutcome = Json.text "failed"
  duplicates : 0 ≤ scenario.adapter.duplicateReports ∧ scenario.adapter.duplicateReports ≤ 64

theorem of_checkInt {value : Option Json.Value} {maximum n : Int} {message : String}
    (h : checkInt value maximum message = .ok n) : 0 ≤ n ∧ n ≤ maximum := by
  unfold checkInt at h
  split at h
  · split at h
    · next hbounds =>
        cases h
        exact hbounds
    · cases h
  · cases h

theorem of_checkTimes {previous : Int} {items : List Json.Value} {times : List Int}
    (h : checkTimes previous items = .ok times) :
    (∀ t ∈ times, (0 ≤ t ∧ t ≤ maxInt64) ∧ previous ≤ t) ∧ times.Pairwise (· ≤ ·) ∧
      times.length = items.length := by
  induction items generalizing previous times with
  | nil =>
      cases h
      exact ⟨nofun, List.Pairwise.nil, rfl⟩
  | cons value rest ih =>
      obtain ⟨time, htime, h⟩ := bind_eq_ok h
      split at h
      · cases h
      · next hle =>
          obtain ⟨later, hlater, h⟩ := bind_eq_ok h
          cases h
          obtain ⟨hall, hsorted, hlength⟩ := ih hlater
          refine ⟨fun t ht => ?_, List.pairwise_cons.mpr ⟨fun t ht => (hall t ht).2, hsorted⟩,
            by rw [List.length_cons, List.length_cons, hlength]⟩
          rcases List.mem_cons.mp ht with rfl | ht
          · exact ⟨of_checkInt htime, not_lt.mp hle⟩
          · exact ⟨(hall t ht).1, (not_lt.mp hle).trans (hall t ht).2⟩

theorem of_checkFrameTimes {value : Option Json.Value} {times : List Int}
    (h : checkFrameTimes value = .ok times) :
    (∀ t ∈ times, 0 ≤ t ∧ t ≤ maxInt64) ∧ times.Pairwise (· ≤ ·) ∧ times ≠ [] := by
  unfold checkFrameTimes at h
  split at h
  · split at h
    · next hlength =>
        obtain ⟨hall, hsorted, hsame⟩ := of_checkTimes h
        refine ⟨fun t ht => (hall t ht).1, hsorted, ?_⟩
        rintro rfl
        rw [← hsame] at hlength
        exact absurd hlength.1 (by decide)
    · cases h
  · cases h

theorem of_checkChoice {value : Json.Value} {choices : List String} {message : String}
    {chosen : Json.Text} (h : checkChoice value choices message = .ok chosen) :
    chosen ∈ choices.map Json.text := by
  unfold checkChoice at h
  split at h
  · cases h
  · cases h
  · split at h
    · next hmem =>
        cases h
        exact List.contains_iff_mem.mp hmem
    · cases h
  · cases h

theorem of_validateAdapter {payload : Fields} {adapter : AdapterSettings}
    (h : validateAdapter payload = .ok adapter) :
    checkFeedbackTiming payload = .ok adapter.feedbackTiming ∧
      checkLatency payload = .ok adapter.latencyMs ∧
      checkAdapterOutcome payload = .ok adapter.adapterOutcome ∧
      0 ≤ adapter.duplicateReports ∧ adapter.duplicateReports ≤ 64 := by
  obtain ⟨timing, htiming, h⟩ := bind_eq_ok h
  obtain ⟨latency, hlatency, h⟩ := bind_eq_ok h
  obtain ⟨outcome, houtcome, h⟩ := bind_eq_ok h
  obtain ⟨duplicates, hduplicates, h⟩ := bind_eq_ok h
  split at h
  · cases h
    exact ⟨htiming, hlatency, houtcome, of_checkInt hduplicates⟩
  · cases h

theorem of_validateRun {python : Interpreter} {data : Bytes} {payload : Fields} {brightness : Int}
    {script : Json.Text} {times : List Int}
    (h : validateRun python data = .ok (payload, brightness, script, times)) :
    (0 ≤ brightness ∧ brightness ≤ 100) ∧ (∀ t ∈ times, 0 ≤ t ∧ t ≤ maxInt64) ∧
      times.Pairwise (· ≤ ·) ∧ times ≠ [] := by
  obtain ⟨value, -, h⟩ := bind_eq_ok h
  split at h
  · obtain ⟨_, -, h⟩ := bind_eq_ok h
    obtain ⟨brightness', hbrightness, h⟩ := bind_eq_ok h
    obtain ⟨script', -, h⟩ := bind_eq_ok h
    obtain ⟨times', htimes, h⟩ := bind_eq_ok h
    cases h
    exact ⟨of_checkInt hbrightness, of_checkFrameTimes htimes⟩
  · cases h

theorem valid_of_validateScenario {python : Interpreter} {data : Bytes} {scenario : Settings}
    (h : validateScenario python data = .ok scenario) : Valid scenario := by
  obtain ⟨⟨payload, brightness, script, times⟩, hrun, h⟩ := bind_eq_ok h
  obtain ⟨adapter, hadapter, h⟩ := bind_eq_ok h
  cases h
  obtain ⟨hbrightness, htimes, hsorted, hne⟩ := of_validateRun hrun
  obtain ⟨htiming, hlatency, houtcome, hduplicates⟩ := of_validateAdapter hadapter
  exact
    { brightness := hbrightness
      times := htimes
      nondecreasing := hsorted
      someTime := hne
      timing := by simpa using of_checkChoice htiming
      latency := of_checkInt hlatency
      outcome := by simpa using of_checkChoice houtcome
      duplicates := hduplicates }

/-! ## The parser reads the vector -/

theorem foldl_decimal (n : Nat) :
    (decimal n).foldl (fun k c => k * 10 + (c.toNat - 48)) 0 = n := by
  unfold decimal
  split
  · next h => rw [h]; rfl
  · rw [List.foldl_map, List.foldl_reverse]
    have hdigits : ∀ l : List Nat, (∀ d ∈ l, d < 10) →
        l.foldr (fun d k => k * 10 + ((UInt8.ofNat (48 + d)).toNat - 48)) 0 = Nat.ofDigits 10 l := by
      intro l hl
      induction l with
      | nil => rfl
      | cons d l ih =>
          have hd := hl d List.mem_cons_self
          rw [List.foldr_cons, ih fun d hd => hl d (List.mem_cons_of_mem _ hd), Nat.ofDigits_cons,
            UInt8.toNat_ofNat']
          omega
    rw [hdigits _ fun d hd => Nat.digits_lt_base (by decide) hd, Nat.ofDigits_digits]

theorem decimal_digits (n : Nat) : ∀ c ∈ decimal n, 48 ≤ c ∧ c ≤ 57 := by
  unfold decimal
  split
  · simp
  · intro c hc
    obtain ⟨d, hd, rfl⟩ := List.mem_map.mp hc
    have hlt : d < 10 := Nat.digits_lt_base (by decide) (List.mem_reverse.mp hd)
    simp only [UInt8.le_iff_toNat_le, UInt8.toNat_ofNat', UInt8.reduceToNat]
    omega

theorem decimal_ne_nil (n : Nat) : decimal n ≠ [] := by
  unfold decimal
  split
  · exact List.cons_ne_nil _ _
  · next h =>
      rw [Ne, List.map_eq_nil_iff, List.reverse_eq_nil_iff]
      exact Nat.digits_ne_nil_iff_ne_zero.mpr h

theorem parseUnsigned_str {n : Int} (hpos : 0 ≤ n) (h : n ≤ maxInt64) :
    parseUnsigned (str n) = some (UInt64.ofNat n.toNat) := by
  have hne : ¬(decimal n.toNat).isEmpty := fun h => decimal_ne_nil _ (List.isEmpty_iff.mp h)
  have hall : (decimal n.toNat).all (fun c => decide (48 ≤ c) && decide (c ≤ 57)) = true := by
    refine List.all_eq_true.mpr fun c hc => ?_
    simpa using decimal_digits _ c hc
  have hlt : n.toNat < 2 ^ 64 := by
    unfold maxInt64 at h
    omega
  rw [str, if_pos hpos, parseUnsigned, if_neg hne, if_pos hall]
  simp only [foldl_decimal, if_pos hlt]

theorem toNat_ofNat_of_le {n : Int} (hpos : 0 ≤ n) (h : n ≤ maxInt64) :
    (UInt64.ofNat n.toNat).toNat = n.toNat := by
  have hlt : n.toNat < 2 ^ 64 := by
    unfold maxInt64 at h
    omega
  rw [UInt64.toNat_ofNat', Nat.mod_eq_of_lt hlt]

theorem parseLoop_option {s s' : ParseState} {option value : Bytes} {rest : List Bytes}
    (hset : setOption s option value = .ok s') (hknown : knownOptions.contains option = true) :
    parseLoop s (option :: value :: rest) = parseLoop s' rest := by
  have hhelp : option ≠ utf8 "--help" := by
    rintro rfl
    exact absurd hknown (by simp [knownOptions, utf8_inj])
  rw [parseLoop, if_neg hhelp, hknown]
  simp only [Bool.not_true, Bool.false_eq_true, if_false, hset]

/-- The state with some frame times read. -/
def withTimes (s : ParseState) (times : List Int) : ParseState :=
  { s with
    options := { s.options with
      frameTimes := s.options.frameTimes ++ times.map fun t => UInt64.ofNat t.toNat } }

theorem parseLoop_frames {s : ParseState} {times : List Int} {rest : List Bytes}
    (hbounds : ∀ t ∈ times, 0 ≤ t ∧ t ≤ maxInt64) (hsorted : times.Pairwise (· ≤ ·))
    (hlast : ∀ last ∈ s.options.frameTimes.getLast?, ∀ t ∈ times, last.toNat ≤ t.toNat) :
    parseLoop s (frameArguments times ++ rest) = parseLoop (withTimes s times) rest := by
  induction times generalizing s with
  | nil =>
      congr 1
      simp [withTimes]
  | cons time times ih =>
      obtain ⟨hhead, htail⟩ := List.pairwise_cons.mp hsorted
      obtain ⟨hpos, hle⟩ := hbounds time List.mem_cons_self
      have htime := toNat_ofNat_of_le hpos hle
      have hset : setOption s (utf8 "--frame-time") (str time) = .ok (withTimes s [time]) := by
        have hrange : ¬(UInt64.ofNat time.toNat).toNat > 2 ^ 63 - 1 := by
          rw [htime]
          unfold maxInt64 at hle
          omega
        have horder : s.options.frameTimes.getLast?.any
            (fun last => decide (UInt64.ofNat time.toNat < last)) = false := by
          cases hget : s.options.frameTimes.getLast? with
          | none => rfl
          | some last =>
              have hlast' := hlast last hget time List.mem_cons_self
              simp only [Option.any_some, decide_eq_false_iff_not, UInt64.lt_iff_toNat_lt, htime]
              omega
        simp only [setOption, utf8_inj, addFrameTime, parseUnsigned_str hpos hle, if_neg hrange,
          horder]
        rfl
      show parseLoop s (utf8 "--frame-time" :: str time :: (frameArguments times ++ rest)) = _
      rw [parseLoop_option hset (by simp [knownOptions]),
        ih (fun t ht => hbounds t (List.mem_cons_of_mem _ ht)) htail]
      · congr 1
        simp [withTimes]
      · intro last hget t ht
        have hget' : last = UInt64.ofNat time.toNat := by
          simpa [withTimes, eq_comm] using hget
        rw [hget', htime]
        exact Int.toNat_le_toNat (hhead t ht)

section Options

variable {s : ParseState}

theorem set_brightness {n : Int} (hfirst : s.hasBrightness = false) (hlow : 0 ≤ n)
    (hhigh : n ≤ 100) :
    setOption s (utf8 "--initial-brightness") (str n) = .ok
      { s with
        options := { s.options with initialBrightness := n }
        hasBrightness := true } := by
  have hmax : n ≤ maxInt64 := hhigh.trans (by decide)
  have hnat := toNat_ofNat_of_le hlow hmax
  have hrange : ¬UInt64.ofNat n.toNat > 100 := by
    rw [gt_iff_lt, UInt64.lt_iff_toNat_lt, hnat]
    show ¬100 < n.toNat
    omega
  have hint : ((UInt64.ofNat n.toNat).toNat : Int) = n := by
    rw [hnat]
    exact Int.toNat_of_nonneg hlow
  simp only [setOption, setBrightness, hfirst, parseUnsigned_str hlow hmax, if_neg hrange, hint]
  rfl

theorem set_script {scriptPath : Bytes} (hfirst : s.hasScript = false) (hpath : scriptPath ≠ []) :
    setOption s (utf8 "--script") scriptPath = .ok
      { s with
        options := { s.options with scriptPath := scriptPath }
        hasScript := true } := by
  have hempty : ¬scriptPath.isEmpty := fun h => hpath (List.isEmpty_iff.mp h)
  simp only [setOption, utf8_inj, setScript, hfirst, if_neg hempty]
  rfl

def timingOf (timing : Json.Text) : FeedbackTiming :=
  if timing = Json.text "deferred" then .deferred else .immediate

theorem set_feedbackTiming {timing : Json.Text}
    (h : timing = Json.text "deferred" ∨ timing = Json.text "immediate") :
    setOption s (utf8 "--feedback-timing") (timing.flatMap Utf8.encodeNat) = .ok
      { s with options := { s.options with feedbackTiming := timingOf timing } } := by
  have hdeferred : (Json.text "deferred").flatMap Utf8.encodeNat = utf8 "deferred" := by decide
  have himmediate : (Json.text "immediate").flatMap Utf8.encodeNat = utf8 "immediate" := by decide
  rcases h with rfl | rfl
  · simp only [setOption, utf8_inj, setFeedbackTiming, hdeferred]
    rfl
  · simp only [setOption, utf8_inj, setFeedbackTiming, himmediate]
    rfl

theorem set_latency {n : Int} (hlow : 0 ≤ n) (hhigh : n ≤ maxInt64) :
    setOption s (utf8 "--latency") (str n) = .ok
      { s with options := { s.options with latencyMs := UInt64.ofNat n.toNat } } := by
  simp only [setOption, utf8_inj, setLatency, parseUnsigned_str hlow hhigh]
  rfl

def outcomeOf (outcome : Json.Text) : CommandStatus :=
  if outcome = Json.text "applied" then .applied
  else if outcome = Json.text "rejected" then .rejected
  else .failed

theorem set_outcome {outcome : Json.Text}
    (h : outcome = Json.text "applied" ∨ outcome = Json.text "rejected" ∨
      outcome = Json.text "failed") :
    setOption s (utf8 "--outcome") (outcome.flatMap Utf8.encodeNat) = .ok
      { s with options := { s.options with adapterOutcome := outcomeOf outcome } } := by
  have happlied : (Json.text "applied").flatMap Utf8.encodeNat = utf8 "applied" := by decide
  have hrejected : (Json.text "rejected").flatMap Utf8.encodeNat = utf8 "rejected" := by decide
  have hfailed : (Json.text "failed").flatMap Utf8.encodeNat = utf8 "failed" := by decide
  rcases h with rfl | rfl | rfl
  · simp only [setOption, utf8_inj, setOutcome, happlied]
    rfl
  · simp only [setOption, utf8_inj, setOutcome, hrejected]
    rfl
  · simp only [setOption, utf8_inj, setOutcome, hfailed]
    rfl

theorem set_duplicates {n : Int} (hlow : 0 ≤ n) (hhigh : n ≤ 64) :
    setOption s (utf8 "--duplicates") (str n) = .ok
      { s with options := { s.options with duplicateReports := n.toNat } } := by
  have hmax : n ≤ maxInt64 := hhigh.trans (by decide)
  have hnat := toNat_ofNat_of_le hlow hmax
  have hrange : ¬UInt64.ofNat n.toNat > 64 := by
    rw [gt_iff_lt, UInt64.lt_iff_toNat_lt, hnat]
    show ¬64 < n.toNat
    omega
  simp only [setOption, utf8_inj, setDuplicates, parseUnsigned_str hlow hmax, if_neg hrange, hnat]
  rfl

theorem set_silent (flag : Bool) :
    setOption s (utf8 "--silent") (lowerFlag flag) = .ok
      { s with options := { s.options with silent := flag } } := by
  cases flag
  · simp only [setOption, utf8_inj, setFlag, lowerFlag]
    rfl
  · simp only [setOption, utf8_inj, setFlag, lowerFlag]
    rfl

theorem set_reverseDelivery (flag : Bool) :
    setOption s (utf8 "--reverse-delivery") (lowerFlag flag) = .ok
      { s with options := { s.options with reverseDelivery := flag } } := by
  cases flag
  · simp only [setOption, utf8_inj, setFlag, lowerFlag]
    rfl
  · simp only [setOption, utf8_inj, setFlag, lowerFlag]
    rfl

end Options

/-- The options a scenario stands for. -/
def optionsOf (scenario : Settings) (scriptPath : Bytes) : SimulationFileOptions where
  initialBrightness := scenario.brightness
  scriptPath := scriptPath
  frameTimes := scenario.frameTimes.map fun t => UInt64.ofNat t.toNat
  feedbackTiming := timingOf scenario.adapter.feedbackTiming
  latencyMs := UInt64.ofNat scenario.adapter.latencyMs.toNat
  adapterOutcome := outcomeOf scenario.adapter.adapterOutcome
  duplicateReports := scenario.adapter.duplicateReports.toNat
  silent := scenario.adapter.silent
  reverseDelivery := scenario.adapter.reverseDelivery

/-- The parser reads from the vector the scenario it was built from. -/
theorem parse_arguments {scenario : Settings} (valid : Valid scenario) {scriptPath : Bytes}
    (hpath : scriptPath ≠ []) :
    parseSimulationArguments (arguments scenario scriptPath) =
      ⟨optionsOf scenario scriptPath, true, false, []⟩ := by
  have hhelp : arguments scenario scriptPath ≠ [utf8 "--help"] := by
    intro h
    have hlength := congrArg List.length h
    simp [arguments] at hlength
  have hsome : (scenario.frameTimes.map fun t => UInt64.ofNat t.toNat).isEmpty = false := by
    simp [valid.someTime]
  rw [parseSimulationArguments, if_neg hhelp]
  unfold arguments
  rw [List.cons_append, List.cons_append, List.cons_append, List.cons_append, List.nil_append,
    parseLoop_option (set_brightness rfl valid.brightness.1 valid.brightness.2)
      (by simp [knownOptions]),
    parseLoop_option (set_script rfl hpath) (by simp [knownOptions]),
    parseLoop_frames valid.times valid.nondecreasing (by rintro last ⟨⟩),
    parseLoop_option (set_feedbackTiming valid.timing) (by simp [knownOptions]),
    parseLoop_option (set_latency valid.latency.1 valid.latency.2) (by simp [knownOptions]),
    parseLoop_option (set_outcome valid.outcome) (by simp [knownOptions]),
    parseLoop_option (set_duplicates valid.duplicates.1 valid.duplicates.2)
      (by simp [knownOptions]),
    parseLoop_option (set_silent _) (by simp [knownOptions]),
    parseLoop_option (set_reverseDelivery _) (by simp [knownOptions])]
  simp only [parseLoop, withTimes, SimulationFileOptions.initial, List.nil_append, hsome]
  rfl

/-! ## What the server answers -/

def timingName : FeedbackTiming → String
  | .deferred => "deferred"
  | .immediate => "immediate"

/-- The parser accepted the vector and read this scenario. -/
structure Reads (scenario : Settings) (scriptPath : Bytes) (result : SimulationParseResult) :
    Prop where
  accepted : result.succeeded = true ∧ result.helpRequested = false
  brightness : result.options.initialBrightness = scenario.brightness
  script : result.options.scriptPath = scriptPath
  frameTimes : (result.options.frameTimes.map fun t => (t.toNat : Int)) = scenario.frameTimes
  timing : Json.text (timingName result.options.feedbackTiming) = scenario.adapter.feedbackTiming
  latency : (result.options.latencyMs.toNat : Int) = scenario.adapter.latencyMs
  outcome : Json.text (statusName result.options.adapterOutcome) = scenario.adapter.adapterOutcome
  duplicates : (result.options.duplicateReports : Int) = scenario.adapter.duplicateReports
  silent : result.options.silent = scenario.adapter.silent
  reverseDelivery : result.options.reverseDelivery = scenario.adapter.reverseDelivery

theorem reads_of_valid {scenario : Settings} (valid : Valid scenario) {scriptPath : Bytes}
    (hpath : scriptPath ≠ []) :
    Reads scenario scriptPath (parseSimulationArguments (arguments scenario scriptPath)) := by
  rw [parse_arguments valid hpath]
  have hnat : ∀ {n : Int}, 0 ≤ n → n ≤ maxInt64 → ((UInt64.ofNat n.toNat).toNat : Int) = n := by
    intro n hlow hhigh
    rw [toNat_ofNat_of_le hlow hhigh]
    exact Int.toNat_of_nonneg hlow
  refine ⟨⟨rfl, rfl⟩, rfl, rfl, ?_, ?_, hnat valid.latency.1 valid.latency.2, ?_,
    Int.toNat_of_nonneg valid.duplicates.1, rfl, rfl⟩
  · show ((scenario.frameTimes.map fun t => UInt64.ofNat t.toNat).map fun t => (t.toNat : Int)) = _
    rw [List.map_map]
    exact (List.map_congr_left fun t ht => hnat (valid.times t ht).1 (valid.times t ht).2).trans
      (List.map_id' _)
  · show Json.text (timingName (timingOf scenario.adapter.feedbackTiming)) = _
    rcases valid.timing with h | h
    · rw [h]; rfl
    · rw [h]; rfl
  · show Json.text (statusName (outcomeOf scenario.adapter.adapterOutcome)) = _
    rcases valid.outcome with h | h | h
    · rw [h]; rfl
    · rw [h]; rfl
    · rw [h]; rfl

/-- The server raises a `RequestProblem`, or returns a scenario that the parser reads. -/
def Sound : Except Raised Settings → Prop
  | .error (.requestProblem _ _) => True
  | .error (.typeError _) => False
  | .ok scenario => ∀ scriptPath, scriptPath ≠ [] →
      Reads scenario scriptPath (parseSimulationArguments (arguments scenario scriptPath))

/-- The two values the server looks up in a set can be hashed, where it gets so far. -/
def Hashable (python : Interpreter) (data : Bytes) : Prop :=
  ∀ payload brightness script frameTimes,
    validateRun python data = .ok (payload, brightness, script, frameTimes) →
      hashable (feedbackTimingOf payload) = true ∧
        ((∃ timing, checkFeedbackTiming payload = .ok timing) →
          (∃ latency, checkLatency payload = .ok latency) →
            hashable (adapterOutcomeOf payload) = true)

/-- A computation that raises no `TypeError`. -/
def NoTypeError {α : Type} (result : Except Raised α) : Prop :=
  ∀ message, result ≠ .error (.typeError message)

section NoTypeError

variable {α β : Type}

theorem noTypeError_ok (a : α) : NoTypeError (.ok a) := nofun

theorem noTypeError_problem (status : Nat) (message : String) :
    NoTypeError (problem status message : Except Raised α) := nofun

theorem noTypeError_bind {x : Except Raised α} {f : α → Except Raised β} :
    NoTypeError (x >>= f) ↔ NoTypeError x ∧ ∀ a, x = .ok a → NoTypeError (f a) := by
  cases x with
  | error e =>
      refine ⟨fun h => ⟨fun message heq => h message ?_, nofun⟩, fun h message heq => h.1 message ?_⟩
      · cases heq
        rfl
      · cases heq
        rfl
  | ok a => exact ⟨fun h => ⟨nofun, fun _ heq => by cases heq; exact h⟩, fun h => h.2 a rfl⟩

theorem noTypeError_checkInt (value : Option Json.Value) (maximum : Int) (message : String) :
    NoTypeError (checkInt value maximum message) := by
  unfold checkInt
  split
  · split
    · exact noTypeError_ok _
    · exact noTypeError_problem _ _
  · exact noTypeError_problem _ _

theorem noTypeError_checkTimes (previous : Int) (items : List Json.Value) :
    NoTypeError (checkTimes previous items) := by
  induction items generalizing previous with
  | nil => exact noTypeError_ok _
  | cons value rest ih =>
      refine noTypeError_bind.mpr ⟨noTypeError_checkInt _ _ _, fun time _ => ?_⟩
      split
      · exact noTypeError_problem _ _
      · exact noTypeError_bind.mpr ⟨ih time, fun _ _ => noTypeError_ok _⟩

theorem noTypeError_checkScript (value : Option Json.Value) : NoTypeError (checkScript value) := by
  unfold checkScript
  split
  · split
    · exact noTypeError_problem _ _
    · split
      · exact noTypeError_problem _ _
      · split
        · exact noTypeError_problem _ _
        · exact noTypeError_ok _
  · exact noTypeError_problem _ _

theorem noTypeError_checkFrameTimes (value : Option Json.Value) :
    NoTypeError (checkFrameTimes value) := by
  unfold checkFrameTimes
  split
  · split
    · exact noTypeError_checkTimes _ _
    · exact noTypeError_problem _ _
  · exact noTypeError_problem _ _

theorem noTypeError_checkFields (payload : Fields) : NoTypeError (checkFields payload) := by
  unfold checkFields
  dsimp only
  split
  · nofun
  · split
    · nofun
    · nofun

theorem noTypeError_validateRun (python : Interpreter) (data : Bytes) :
    NoTypeError (validateRun python data) := by
  refine noTypeError_bind.mpr ⟨?_, fun value _ => ?_⟩
  · unfold decodeJson
    split
    · nofun
    · nofun
  · split
    · refine noTypeError_bind.mpr ⟨noTypeError_checkFields _, fun _ _ => ?_⟩
      refine noTypeError_bind.mpr ⟨noTypeError_checkInt _ _ _, fun _ _ => ?_⟩
      refine noTypeError_bind.mpr ⟨noTypeError_checkScript _, fun _ _ => ?_⟩
      exact noTypeError_bind.mpr ⟨noTypeError_checkFrameTimes _, fun _ _ => noTypeError_ok _⟩
    · exact noTypeError_problem _ _

/-- The lookup in a set raises exactly on a list or a dict. -/
theorem noTypeError_checkChoice (value : Json.Value) (choices : List String) (message : String) :
    NoTypeError (checkChoice value choices message) ↔ hashable value = true := by
  cases value with
  | array items => exact iff_of_false (fun h => h _ rfl) Bool.false_ne_true
  | object fields => exact iff_of_false (fun h => h _ rfl) Bool.false_ne_true
  | string chosen =>
      refine iff_of_true ?_ rfl
      unfold checkChoice
      dsimp only
      split
      · exact noTypeError_ok _
      · exact noTypeError_problem _ _
  | null => exact iff_of_true (noTypeError_problem _ _) rfl
  | boolean b => exact iff_of_true (noTypeError_problem _ _) rfl
  | integer n => exact iff_of_true (noTypeError_problem _ _) rfl
  | float literal => exact iff_of_true (noTypeError_problem _ _) rfl

theorem noTypeError_validateAdapter (payload : Fields) :
    NoTypeError (validateAdapter payload) ↔
      hashable (feedbackTimingOf payload) = true ∧
        ((∃ timing, checkFeedbackTiming payload = .ok timing) →
          (∃ latency, checkLatency payload = .ok latency) →
            hashable (adapterOutcomeOf payload) = true) := by
  have hrest : ∀ timing latency outcome, NoTypeError (do
      let duplicateReports ← checkInt (some ((get payload "duplicate_reports").getD (.integer 0)))
        64 "duplicate_reports must be an integer from 0 to 64"
      match (get payload "silent").getD (.boolean false),
          (get payload "reverse_delivery").getD (.boolean false) with
      | .boolean silent, .boolean reverseDelivery =>
          return (⟨timing, latency, outcome, duplicateReports, silent, reverseDelivery⟩ :
            AdapterSettings)
      | _, _ => problem 400 "silent and reverse_delivery must be booleans") := by
    intro timing latency outcome
    refine noTypeError_bind.mpr ⟨noTypeError_checkInt _ _ _, fun duplicates _ => ?_⟩
    split
    · exact noTypeError_ok _
    · exact noTypeError_problem _ _
  have htiming : NoTypeError (checkFeedbackTiming payload) ↔ _ := noTypeError_checkChoice _ _ _
  have houtcome : NoTypeError (checkAdapterOutcome payload) ↔ _ := noTypeError_checkChoice _ _ _
  rw [validateAdapter, noTypeError_bind, htiming]
  refine and_congr_right fun _ => ⟨fun h => ?_, fun h timing htiming => ?_⟩
  · rintro ⟨timing, htiming⟩ ⟨latency, hlatency⟩
    have hlater := (noTypeError_bind.mp (h timing htiming)).2 latency hlatency
    exact houtcome.mp (noTypeError_bind.mp hlater).1
  · refine noTypeError_bind.mpr ⟨noTypeError_checkInt _ _ _, fun latency hlatency => ?_⟩
    exact noTypeError_bind.mpr ⟨houtcome.mpr (h ⟨timing, htiming⟩ ⟨latency, hlatency⟩),
      fun outcome _ => hrest timing latency outcome⟩

theorem noTypeError_validateScenario (python : Interpreter) (data : Bytes) :
    NoTypeError (validateScenario python data) ↔ Hashable python data := by
  rw [validateScenario, noTypeError_bind]
  constructor
  · rintro ⟨-, h⟩ payload brightness script frameTimes hrun
    have hadapter := (noTypeError_bind.mp (h _ hrun)).1
    exact (noTypeError_validateAdapter payload).mp hadapter
  · intro h
    refine ⟨noTypeError_validateRun _ _, fun run hrun => ?_⟩
    obtain ⟨payload, brightness, script, frameTimes⟩ := run
    refine noTypeError_bind.mpr ⟨?_, fun _ _ => noTypeError_ok _⟩
    exact (noTypeError_validateAdapter payload).mpr (h _ _ _ _ hrun)

end NoTypeError

/-- The server answers a body as it should exactly when it hashes no list and no dict on the way. -/
theorem sound_iff (python : Interpreter) (data : Bytes) :
    Sound (validateScenario python data) ↔ Hashable python data := by
  rw [← noTypeError_validateScenario]
  cases h : validateScenario python data with
  | ok scenario =>
      exact iff_of_true (fun _ hpath => reads_of_valid (valid_of_validateScenario h) hpath)
        (noTypeError_ok _)
  | error raised =>
      cases raised with
      | requestProblem status message => exact iff_of_true trivial nofun
      | typeError message => exact iff_of_false id fun hnone => hnone message rfl

/-- A bound on the nesting and on the digits as CPython sets them. -/
def cpython : Interpreter where
  limits := ⟨1000, 4300⟩
  describe := fun _ => []

def listTimingBody : Bytes :=
  utf8 ("\x7b\"initial_brightness\":10,\"script\":\"\",\"frame_times\":[0]," ++
    "\"feedback_timing\":[]\x7d")

def raisesTypeError : Except Raised Settings → Bool
  | .error (.typeError _) => true
  | _ => false

/-- A list as the feedback timing is looked up in a set: the server raises a `TypeError`. -/
theorem scenario_raises_typeError : ¬Sound (validateScenario cpython listTimingBody) := by
  have hraises : raisesTypeError (validateScenario cpython listTimingBody) = true := by
    decide +kernel
  intro h
  cases hresult : validateScenario cpython listTimingBody with
  | ok scenario => rw [hresult] at hraises; cases hraises
  | error raised =>
      rw [hresult] at h hraises
      cases raised with
      | requestProblem status message => cases hraises
      | typeError message => exact h

end Scenario

end LiquidLayer
