/-
  Event records (EventTypes.hpp) and the payload objects the runtime writes into them
  (`event_payload` of RuntimeInternals.hpp).

  * `eventObject`: the object a list of named fields becomes. `get?_eventObject` reads a field
    back, so that later modules never look at the sorted entries.
  * `eventPayload`: the same as a checked `Value`. `eventPayload_ok_iff` says when the limits
    of `Value` admit it.
-/
import LiquidLayer.Effects.Types

namespace LiquidLayer

inductive Durability where
  | buffered
  | durable
deriving DecidableEq, Repr

inductive EventType where
  | sessionStarted
  | topologyChanged
  | componentMutated
  | componentRemoved
  | intentCreated
  | intentDestroyed
  | frameStarted
  | frameCompleted
  | frameFailed
  | resolutionSelected
  | commandIssued
  | commandAttempted
  | commandStatusChanged
  | reportReceived
  | observedStateChanged
  | checkpoint
  | recovery
  | retention
  | configurationChanged
  | scriptExecuted
  | externalObservationReceived
deriving DecidableEq, Repr

namespace EventType

/-- The enumerators' values. -/
def code : EventType → Nat
  | sessionStarted => 1
  | topologyChanged => 2
  | componentMutated => 3
  | componentRemoved => 4
  | intentCreated => 5
  | intentDestroyed => 6
  | frameStarted => 7
  | frameCompleted => 8
  | frameFailed => 9
  | resolutionSelected => 10
  | commandIssued => 11
  | commandAttempted => 12
  | commandStatusChanged => 13
  | reportReceived => 14
  | observedStateChanged => 15
  | checkpoint => 16
  | recovery => 17
  | retention => 18
  | configurationChanged => 19
  | scriptExecuted => 20
  | externalObservationReceived => 21

/-- The enumerators in the order of their values. -/
def all : List EventType :=
  [sessionStarted, topologyChanged, componentMutated, componentRemoved, intentCreated,
    intentDestroyed, frameStarted, frameCompleted, frameFailed, resolutionSelected,
    commandIssued, commandAttempted, commandStatusChanged, reportReceived,
    observedStateChanged, checkpoint, recovery, retention, configurationChanged,
    scriptExecuted, externalObservationReceived]

/-- The enumerator with this value; `none` outside the range every reader checks. -/
def ofCode (n : Nat) : Option EventType := if n = 0 then none else all[n - 1]?

@[simp] theorem ofCode_code (t : EventType) : ofCode t.code = some t := by cases t <;> rfl

theorem code_le (t : EventType) : t.code ≤ 21 := by cases t <;> decide

end EventType

/-- `EventData`; every writer in the sources uses version 1. -/
structure EventData where
  type : EventType
  version : UInt16 := 1
  payload : Value
deriving DecidableEq

structure EventRecord where
  sequence : RecordId
  type : EventType
  version : UInt16 := 1
  payload : Value
deriving DecidableEq

def currentFileFormatVersion : UInt16 := 1

structure EventStoreMetadata where
  session : SessionId
  engineVersion : Bytes
  feedbackTiming : FeedbackTiming
  fileGeneration : UInt64 := 1
  fileFormatVersion : UInt16 := currentFileFormatVersion
deriving DecidableEq, Repr

namespace EventLimits

def maxEngineVersionBytes : Nat := 64
def maxRecordPayloadBytes : Nat := 8 * 1024 * 1024
def maxBatchBytes : Nat := 16 * 1024 * 1024
def maxRecordsPerBatch : Nat := 4096
def maxRecordsRead : Nat := 4 * 1024 * 1024
def maxFileBytes : Nat := 512 * 1024 * 1024

end EventLimits

/-! ## Payload objects -/

/-- `object.find(name)`. -/
def get? (object : Object) (name : String) : Option Value := Assoc.find? (utf8 name) object

/-- The object `event_payload` fills field by field. -/
def eventObject (fields : List (String × Value)) : Object :=
  fields.foldl (fun object field => Assoc.emplace (utf8 field.1) field.2 object) []

theorem get?_foldl_emplace (fields : List (String × Value)) (object : Object) (name : String) :
    get? (fields.foldl (fun o f => Assoc.emplace (utf8 f.1) f.2 o) object) name =
      (get? object name).or (fields.lookup name) := by
  induction fields generalizing object with
  | nil => simp
  | cons f fields ih =>
      rw [List.foldl_cons, ih]
      unfold get?
      rw [Assoc.find?_emplace, List.lookup_cons]
      by_cases h : name = f.1
      · subst h
        simp
      · have hb : (name == f.1) = false := beq_eq_false_iff_ne.mpr h
        have hu : utf8 name ≠ utf8 f.1 := fun hu => h (utf8_inj.mp hu)
        simp [hb, hu]

@[simp] theorem get?_eventObject (fields : List (String × Value)) (name : String) :
    get? (eventObject fields) name = fields.lookup name := by
  unfold eventObject
  rw [get?_foldl_emplace]
  simp [get?]

theorem sorted_eventObject (fields : List (String × Value)) :
    Assoc.Sorted (eventObject fields) := by
  have key : ∀ (fields : List (String × Value)) (object : Object), Assoc.Sorted object →
      Assoc.Sorted (fields.foldl (fun o f => Assoc.emplace (utf8 f.1) f.2 o) object) := by
    intro fields
    induction fields with
    | nil => exact fun _ h => h
    | cons f fields ih => exact fun o h => ih _ (Assoc.sorted_emplace h _ _)
  exact key fields [] List.Pairwise.nil

/-- `event_payload`. Each field is a `Value` of its own first; a field whose constructor throws
    is one the check of the whole object rejects for the same reason. -/
def eventPayload (fields : List (String × Value)) : Except Failure Value :=
  match (Value.object (eventObject fields)).validate with
  | .error e => .error e
  | .ok () => .ok (.object (eventObject fields))

theorem eventPayload_eq_ok {fields : List (String × Value)} {payload : Value}
    (h : eventPayload fields = .ok payload) :
    payload = .object (eventObject fields) ∧ payload.valid = true := by
  unfold eventPayload at h
  split at h
  · cases h
  · next hv =>
      cases h
      exact ⟨rfl, by simp [Value.valid, hv, Except.isOk, Except.toBool]⟩

/-! ### When the limits of `Value` admit a payload -/

theorem nodesFields_insert {k : Bytes} {v : Value} {l : Object} (h : Assoc.find? k l = none) :
    Value.nodesFields (Assoc.insert k v l) = v.nodes + Value.nodesFields l := by
  induction l with
  | nil => rfl
  | cons e l ih =>
      obtain ⟨k', v'⟩ := e
      have hk : k ≠ k' := fun hk => by simp [Assoc.find?_cons, hk] at h
      rw [Assoc.find?_cons, if_neg hk] at h
      simp only [Assoc.insert, if_neg hk]
      split
      · rfl
      · simp only [Value.nodesFields, ih h]
        omega

theorem fitsFields_insert {k : Bytes} {v : Value} {l : Object} {depth : Nat}
    (h : Assoc.find? k l = none) :
    Value.fitsFields (Assoc.insert k v l) depth =
      (decide (k.length ≤ ValueLimits.maxStringBytes) && validUtf8 k && v.fits depth &&
        Value.fitsFields l depth) := by
  induction l with
  | nil => rfl
  | cons e l ih =>
      obtain ⟨k', v'⟩ := e
      have hk : k ≠ k' := fun hk => by simp [Assoc.find?_cons, hk] at h
      rw [Assoc.find?_cons, if_neg hk] at h
      simp only [Assoc.insert, if_neg hk]
      split
      · rfl
      · simp only [Value.fitsFields, ih h]
        ac_rfl

theorem length_insert_new {k : Bytes} {v : Value} {l : Object} (h : Assoc.find? k l = none) :
    (Assoc.insert k v l).length = l.length + 1 := by
  induction l with
  | nil => rfl
  | cons e l ih =>
      obtain ⟨k', v'⟩ := e
      have hk : k ≠ k' := fun hk => by simp [Assoc.find?_cons, hk] at h
      rw [Assoc.find?_cons, if_neg hk] at h
      simp only [Assoc.insert, if_neg hk]
      split
      · rfl
      · simp only [List.length_cons, ih h]

/-- The name of a field is a key the limits admit. -/
def fieldNameOk (name : String) : Bool :=
  decide ((utf8 name).length ≤ ValueLimits.maxStringBytes) && validUtf8 (utf8 name)

/-- What an object made of distinct fields costs. -/
theorem eventObject_cost {fields : List (String × Value)} (h : (fields.map Prod.fst).Nodup)
    (depth : Nat) :
    (eventObject fields).length = fields.length ∧
      Value.nodesFields (eventObject fields) = (fields.map fun f => f.2.nodes).sum ∧
      Value.fitsFields (eventObject fields) depth =
        fields.all fun f => fieldNameOk f.1 && f.2.fits depth := by
  have key : ∀ (fields : List (String × Value)) (o : Object),
      (fields.map Prod.fst).Nodup → (∀ f ∈ fields, get? o f.1 = none) →
      let o' := fields.foldl (fun o f => Assoc.emplace (utf8 f.1) f.2 o) o
      o'.length = o.length + fields.length ∧
        Value.nodesFields o' = Value.nodesFields o + (fields.map fun f => f.2.nodes).sum ∧
        Value.fitsFields o' depth = (Value.fitsFields o depth &&
          fields.all fun f => fieldNameOk f.1 && f.2.fits depth) := by
    intro fields
    induction fields with
    | nil => intro o _ _; simp
    | cons f fields ih =>
        intro o hnd hfresh
        obtain ⟨hf, hnd⟩ := List.nodup_cons.mp hnd
        have hnew : Assoc.find? (utf8 f.1) o = none := hfresh f List.mem_cons_self
        have hem : Assoc.emplace (utf8 f.1) f.2 o = Assoc.insert (utf8 f.1) f.2 o := by
          rw [Assoc.emplace, hnew]
        have hrest : ∀ g ∈ fields, get? (Assoc.insert (utf8 f.1) f.2 o) g.1 = none := by
          intro g hg
          have hne : utf8 g.1 ≠ utf8 f.1 := by
            intro he
            exact hf (utf8_inj.mp he ▸ List.mem_map_of_mem hg)
          rw [get?, Assoc.find?_insert_ne hne]
          exact hfresh g (List.mem_cons_of_mem _ hg)
        obtain ⟨h1, h2, h3⟩ := ih _ hnd hrest
        simp only [List.foldl_cons, hem]
        refine ⟨?_, ?_, ?_⟩
        · rw [h1, length_insert_new hnew, List.length_cons]; omega
        · rw [h2, nodesFields_insert hnew, List.map_cons, List.sum_cons]; omega
        · rw [h3, fitsFields_insert hnew, List.all_cons, fieldNameOk]; ac_rfl
  simpa [eventObject, Value.nodesFields, Value.fitsFields] using key fields [] h (by simp [get?])

/-- Names that can be the fields of one object. -/
def fieldNamesOk (names : List String) : Bool :=
  decide names.Nodup && names.all fieldNameOk && decide (names.length ≤ ValueLimits.maxObjectItems)

/-- When `event_payload` returns. -/
theorem eventPayload_ok_iff {fields : List (String × Value)}
    (hnames : fieldNamesOk (fields.map Prod.fst) = true) :
    eventPayload fields = .ok (.object (eventObject fields)) ↔
      (∀ f ∈ fields, f.2.fits 1 = true) ∧
        1 + (fields.map fun f => f.2.nodes).sum ≤ ValueLimits.maxTotalNodes := by
  simp only [fieldNamesOk, Bool.and_eq_true, decide_eq_true_eq, List.all_eq_true,
    List.length_map] at hnames
  obtain ⟨⟨h, hnames⟩, hlen⟩ := hnames
  obtain ⟨hl, hn, hf⟩ := eventObject_cost h 1
  have hv := Value.valid_iff (.object (eventObject fields))
  have hfits : (Value.object (eventObject fields)).fits 0 = true ↔
      ∀ f ∈ fields, f.2.fits 1 = true := by
    simp only [Value.fits, hf, hl, hlen, Nat.zero_le, decide_true, Bool.true_and,
      List.all_eq_true, Bool.and_eq_true]
    exact ⟨fun h f hm => (h f hm).2, fun h f hm => ⟨hnames f.1 (List.mem_map_of_mem hm), h f hm⟩⟩
  rw [hfits, Value.nodes, hn] at hv
  rw [← hv]
  unfold eventPayload Value.valid
  cases (Value.object (eventObject fields)).validate with
  | ok u => simp [Except.isOk, Except.toBool]
  | error e => simp [Except.isOk, Except.toBool]

end LiquidLayer
