/-
  Trace normalisation (`normalize_value`, `append_trace` of authoring/Evaluation.cpp): every
  handle number in the payloads of a case is replaced by the place in which it is first seen among
  the numbers under its key.

  * `normalizeValue`, `appendTrace`: the traversal with its table of ordinals.
  * `rename`: a renaming of the handle numbers, key by key.
  * `Seen`, `seeValue`: what a traversal has seen. `normalizeValue_eq` says that the traversal
    is the renaming to the places in what it sees in all.
  * `appendTrace_canonical`: two lists of payloads have one normal form exactly when a renaming
    leads from one to the other.
-/
import LiquidLayer.Lib.FirstSeen
import LiquidLayer.Events.Record

namespace LiquidLayer

namespace Evaluation

/-! ## The traversal -/

def endsWith (key suffix : Bytes) : Bool := suffix.isSuffixOf key

def handleKey (key : Bytes) : Bool :=
  key == utf8 "slot" || key == utf8 "generation" || key == utf8 "session" || key == utf8 "world" ||
    endsWith key (utf8 "_slot") || endsWith key (utf8 "_generation") ||
    endsWith key (utf8 "_world")

/-- Per key: raw handle number to the ordinal of its first sight, from 1. -/
abbrev Ordinals := OrdMap Bytes (OrdMap UInt64 UInt64)

def family (ordinals : Ordinals) (key : Bytes) : OrdMap UInt64 UInt64 :=
  (ordinals.find? key).getD .empty

/-- The ordinal of a number under its key, and the table with it. -/
def ordinalFor (number : UInt64) (key : Bytes) (ordinals : Ordinals) : UInt64 × Ordinals :=
  let numbers := family ordinals key
  let next := UInt64.ofNat numbers.size + 1
  match numbers.find? number with
  | some ordinal => (ordinal, ordinals.insert key numbers)
  | none => (next, ordinals.insert key (numbers.insert number next))

mutual

def normalizeValue : Value → Bytes → Ordinals → Value × Ordinals
  | .unsignedInteger number, key, ordinals =>
      if handleKey key then
        let found := ordinalFor number key ordinals
        (.unsignedInteger found.1, found.2)
      else (.unsignedInteger number, ordinals)
  | .array items, key, ordinals =>
      let normalized := normalizeItems items key ordinals
      (.array normalized.1, normalized.2)
  | .object fields, _, ordinals =>
      let normalized := normalizeFields fields ordinals
      (.object normalized.1, normalized.2)
  | value, _, ordinals => (value, ordinals)

def normalizeItems : List Value → Bytes → Ordinals → List Value × Ordinals
  | [], _, ordinals => ([], ordinals)
  | item :: rest, key, ordinals =>
      let first := normalizeValue item key ordinals
      let others := normalizeItems rest key first.2
      (first.1 :: others.1, others.2)

/-- The fields in key order, as the source's map holds them. -/
def normalizeFields : List (Bytes × Value) → Ordinals → List (Bytes × Value) × Ordinals
  | [], ordinals => ([], ordinals)
  | (field, item) :: rest, ordinals =>
      let first := normalizeValue item field ordinals
      let others := normalizeFields rest first.2
      ((field, first.1) :: others.1, others.2)

end

structure EvaluationTraceEntry where
  caseIndex : Nat
  type : EventType
  version : UInt16
  payload : Value

/-- The loop of `append_trace`. -/
def appendTraceLoop (caseIndex : Nat) :
    List EventRecord → Ordinals → List EvaluationTraceEntry → List EvaluationTraceEntry
  | [], _, trace => trace
  | record :: rest, ordinals, trace =>
      let normalized := normalizeValue record.payload [] ordinals
      appendTraceLoop caseIndex rest normalized.2
        (trace ++ [⟨caseIndex, record.type, record.version, normalized.1⟩])

def appendTrace (caseIndex : Nat) (records : List EventRecord)
    (trace : List EvaluationTraceEntry) : List EvaluationTraceEntry :=
  appendTraceLoop caseIndex records .empty trace

/-! ## Logical bytes -/

def logicalScalarBytes : Nat := 8
def logicalFlagBytes : Nat := 1
def logicalElementBytes : Nat := 8

def saturatingAdd (total bytes : Nat) : Nat :=
  if bytes > 2 ^ 64 - 1 - total then 2 ^ 64 - 1 else total + bytes

mutual

def logicalBytes : Value → Nat
  | .array items => itemsBytes items 0
  | .object fields => fieldsBytes fields 0
  | .boolean _ => 1
  | .signedInteger _ | .unsignedInteger _ | .double _ => logicalScalarBytes
  | .string text => text.length
  | .bytes data => data.length
  | .null => 0

def itemsBytes : List Value → Nat → Nat
  | [], bytes => bytes
  | item :: rest, bytes =>
      itemsBytes rest (saturatingAdd bytes (saturatingAdd logicalScalarBytes (logicalBytes item)))

def fieldsBytes : List (Bytes × Value) → Nat → Nat
  | [], bytes => bytes
  | (key, item) :: rest, bytes =>
      fieldsBytes rest
        (saturatingAdd bytes (saturatingAdd (logicalScalarBytes + key.length) (logicalBytes item)))

end

/-! ## Renamings -/

/-- A renaming of numbers for every key. -/
abbrev Renaming := Bytes → UInt64 → UInt64

mutual

/-- The value with the numbers under handle keys renamed. -/
def rename (ρ : Renaming) : Bytes → Value → Value
  | key, .unsignedInteger number =>
      .unsignedInteger (if handleKey key then ρ key number else number)
  | key, .array items => .array (renameItems ρ key items)
  | _, .object fields => .object (renameFields ρ fields)
  | _, value => value

def renameItems (ρ : Renaming) : Bytes → List Value → List Value
  | _, [] => []
  | key, item :: rest => rename ρ key item :: renameItems ρ key rest

def renameFields (ρ : Renaming) : List (Bytes × Value) → List (Bytes × Value)
  | [] => []
  | (field, item) :: rest => (field, rename ρ field item) :: renameFields ρ rest

end

/-! ## What is seen -/

/-- The numbers seen under each key, in the order of their first sight. -/
abbrev Seen := Bytes → List UInt64

def Seen.see (seen : Seen) (key : Bytes) (number : UInt64) : Seen :=
  Function.update seen key (FirstSeen.see (seen key) number)

mutual

def seeValue : Value → Bytes → Seen → Seen
  | .unsignedInteger number, key, seen => if handleKey key then seen.see key number else seen
  | .array items, key, seen => seeItems items key seen
  | .object fields, _, seen => seeFields fields seen
  | _, _, seen => seen

def seeItems : List Value → Bytes → Seen → Seen
  | [], _, seen => seen
  | item :: rest, key, seen => seeItems rest key (seeValue item key seen)

def seeFields : List (Bytes × Value) → Seen → Seen
  | [], seen => seen
  | (field, item) :: rest, seen => seeFields rest (seeValue item field seen)

end

/-- The place of a number in what was seen under its key, from 1. -/
def placeIn (seen : Seen) : Renaming := fun key number =>
  UInt64.ofNat ((seen key).idxOf number + 1)

/-! ## The table holds what was seen -/

/-- `later` has seen everything `seen` has, and numbers it alike. -/
def Seen.Before (seen later : Seen) : Prop := ∀ key, seen key <+: later key

theorem Seen.Before.refl (seen : Seen) : seen.Before seen := fun _ => List.prefix_rfl

theorem Seen.Before.trans {a b c : Seen} (h : a.Before b) (h' : b.Before c) : a.Before c :=
  fun key => (h key).trans (h' key)

theorem Seen.before_see (seen : Seen) (key : Bytes) (number : UInt64) :
    seen.Before (seen.see key number) := by
  intro k
  unfold Seen.see
  by_cases hk : k = key
  · subst hk
    rw [Function.update_self]
    exact FirstSeen.prefix_see _ _
  · rw [Function.update_of_ne hk]

theorem Seen.mem_see (seen : Seen) (key : Bytes) (number : UInt64) :
    number ∈ seen.see key number key := by
  unfold Seen.see
  rw [Function.update_self]
  exact FirstSeen.mem_see _ _

/-- The table of ordinals holds what was seen, each number with its place. -/
structure Represents (ordinals : Ordinals) (seen : Seen) : Prop where
  nodup : ∀ key, (seen key).Nodup
  size : ∀ key, (family ordinals key).size = (seen key).length
  found : ∀ key number, (family ordinals key).find? number =
    if number ∈ seen key then some (placeIn seen key number) else none

theorem represents_empty : Represents .empty fun _ => [] where
  nodup _ := List.nodup_nil
  size _ := rfl
  found _ _ := rfl

theorem family_insert (ordinals : Ordinals) (key k : Bytes) (numbers : OrdMap UInt64 UInt64) :
    family (ordinals.insert key numbers) k = if k = key then numbers else family ordinals k := by
  unfold family
  rw [OrdMap.find?_insert]
  split <;> rfl

/-- The ordinal handed out is the place in what has been seen. -/
theorem ordinalFor_spec {ordinals : Ordinals} {seen : Seen} (h : Represents ordinals seen)
    (number : UInt64) (key : Bytes) :
    (ordinalFor number key ordinals).1 = placeIn (seen.see key number) key number ∧
      Represents (ordinalFor number key ordinals).2 (seen.see key number) := by
  have hplace : placeIn (seen.see key number) key number = placeIn seen key number := by
    simp only [placeIn, Seen.see, Function.update_self, FirstSeen.idxOf_see]
  rw [hplace]
  have hfound := h.found key number
  by_cases hmem : number ∈ seen key
  · -- seen before: the table gets the family it has
    rw [if_pos hmem] at hfound
    have hsame : seen.see key number = seen := by
      unfold Seen.see FirstSeen.see
      rw [if_pos hmem, Function.update_eq_self]
    have hfamily : ∀ k, family (ordinals.insert key (family ordinals key)) k =
        family ordinals k := by
      intro k
      rw [family_insert]
      split
      · next hk => rw [hk]
      · rfl
    simp only [ordinalFor, hfound, hsame, true_and]
    exact ⟨h.nodup, fun k => by rw [hfamily, h.size], fun k n => by rw [hfamily, h.found]⟩
  · rw [if_neg hmem] at hfound
    have hnext : UInt64.ofNat (family ordinals key).size + 1 = placeIn seen key number := by
      rw [h.size, placeIn, List.idxOf_of_notMem hmem]
      simp
    have hkey : seen.see key number key = seen key ++ [number] := by
      unfold Seen.see FirstSeen.see
      rw [Function.update_self, if_neg hmem]
    have hother : ∀ k, k ≠ key → seen.see key number k = seen k := fun k hk =>
      Function.update_of_ne hk _ _
    simp only [ordinalFor, hfound]
    refine ⟨hnext, ⟨fun k => ?_, fun k => ?_, fun k n => ?_⟩⟩
    · by_cases hk : k = key
      · subst hk
        unfold Seen.see
        rw [Function.update_self]
        exact FirstSeen.nodup_see (h.nodup k) number
      · rw [hother k hk]
        exact h.nodup k
    · rw [family_insert]
      by_cases hk : k = key
      · subst hk
        rw [if_pos rfl, hkey, OrdMap.size_insert, OrdMap.contains, hfound, h.size]
        simp
      · rw [if_neg hk, hother k hk, h.size]
    · rw [family_insert]
      by_cases hk : k = key
      · subst hk
        rw [if_pos rfl, OrdMap.find?_insert, hkey]
        by_cases hn : n = number
        · subst hn
          rw [if_pos rfl, if_pos (by simp), hplace, hnext]
        · rw [if_neg hn, h.found k n]
          by_cases hseen : n ∈ seen k
          · rw [if_pos hseen, if_pos (List.mem_append_left _ hseen)]
            simp only [placeIn]
            rw [FirstSeen.idxOf_of_prefix (seen.before_see k number k) hseen]
          · rw [if_neg hseen, if_neg (by simp [hseen, hn])]
      · rw [if_neg hk, h.found k n, hother k hk]
        simp only [placeIn, hother k hk]

/-! ## Renamings that agree on what is seen -/

mutual

/-- Every number of the value under a handle key has been seen. -/
def Within (seen : Seen) : Bytes → Value → Prop
  | key, .unsignedInteger number => handleKey key = true → number ∈ seen key
  | key, .array items => WithinItems seen key items
  | _, .object fields => WithinFields seen fields
  | _, _ => True

def WithinItems (seen : Seen) : Bytes → List Value → Prop
  | _, [] => True
  | key, item :: rest => Within seen key item ∧ WithinItems seen key rest

def WithinFields (seen : Seen) : List (Bytes × Value) → Prop
  | [] => True
  | (field, item) :: rest => Within seen field item ∧ WithinFields seen rest

end

/-- The renamings agree on what was seen under handle keys. -/
def Agree (seen : Seen) (ρ σ : Renaming) : Prop :=
  ∀ key, handleKey key = true → ∀ number ∈ seen key, ρ key number = σ key number

mutual

theorem rename_congr {seen : Seen} {ρ σ : Renaming} (h : Agree seen ρ σ) :
    ∀ (value : Value) (key : Bytes), Within seen key value → rename ρ key value = rename σ key value
  | .unsignedInteger number, key, hin => by
      simp only [rename]
      split
      · next hkey => rw [h key hkey number (hin hkey)]
      · rfl
  | .array items, key, hin => by
      simp only [rename]
      rw [renameItems_congr h items key hin]
  | .object fields, _, hin => by
      simp only [rename]
      rw [renameFields_congr h fields hin]
  | .null, _, _ | .boolean _, _, _ | .signedInteger _, _, _ | .double _, _, _ | .string _, _, _
  | .bytes _, _, _ => rfl

theorem renameItems_congr {seen : Seen} {ρ σ : Renaming} (h : Agree seen ρ σ) :
    ∀ (items : List Value) (key : Bytes), WithinItems seen key items →
      renameItems ρ key items = renameItems σ key items
  | [], _, _ => rfl
  | item :: rest, key, hin => by
      simp only [renameItems]
      rw [rename_congr h item key hin.1, renameItems_congr h rest key hin.2]

theorem renameFields_congr {seen : Seen} {ρ σ : Renaming} (h : Agree seen ρ σ) :
    ∀ fields : List (Bytes × Value), WithinFields seen fields →
      renameFields ρ fields = renameFields σ fields
  | [], _ => rfl
  | (field, item) :: rest, hin => by
      simp only [renameFields]
      rw [rename_congr h item field hin.1, renameFields_congr h rest hin.2]

end

mutual

theorem within_mono {seen later : Seen} (h : seen.Before later) :
    ∀ (value : Value) (key : Bytes), Within seen key value → Within later key value
  | .unsignedInteger _, key, hin => fun hkey => (h key).subset (hin hkey)
  | .array items, key, hin => withinItems_mono h items key hin
  | .object fields, _, hin => withinFields_mono h fields hin
  | .null, _, _ | .boolean _, _, _ | .signedInteger _, _, _ | .double _, _, _ | .string _, _, _
  | .bytes _, _, _ => trivial

theorem withinItems_mono {seen later : Seen} (h : seen.Before later) :
    ∀ (items : List Value) (key : Bytes), WithinItems seen key items → WithinItems later key items
  | [], _, _ => trivial
  | item :: rest, key, hin => ⟨within_mono h item key hin.1, withinItems_mono h rest key hin.2⟩

theorem withinFields_mono {seen later : Seen} (h : seen.Before later) :
    ∀ fields : List (Bytes × Value), WithinFields seen fields → WithinFields later fields
  | [], _ => trivial
  | (field, item) :: rest, hin =>
      ⟨within_mono h item field hin.1, withinFields_mono h rest hin.2⟩

end

/-! ## A traversal sees more and more -/

mutual

theorem before_seeValue :
    ∀ (value : Value) (key : Bytes) (seen : Seen), seen.Before (seeValue value key seen)
  | .unsignedInteger number, key, seen => by
      simp only [seeValue]
      split
      · exact seen.before_see key number
      · exact Seen.Before.refl seen
  | .array items, key, seen => before_seeItems items key seen
  | .object fields, _, seen => before_seeFields fields seen
  | .null, _, seen | .boolean _, _, seen | .signedInteger _, _, seen | .double _, _, seen
  | .string _, _, seen | .bytes _, _, seen => Seen.Before.refl seen

theorem before_seeItems :
    ∀ (items : List Value) (key : Bytes) (seen : Seen), seen.Before (seeItems items key seen)
  | [], _, seen => Seen.Before.refl seen
  | item :: rest, key, seen => (before_seeValue item key seen).trans (before_seeItems rest key _)

theorem before_seeFields :
    ∀ (fields : List (Bytes × Value)) (seen : Seen), seen.Before (seeFields fields seen)
  | [], seen => Seen.Before.refl seen
  | (field, item) :: rest, seen =>
      (before_seeValue item field seen).trans (before_seeFields rest _)

end

mutual

/-- A traversal sees every number of the value. -/
theorem within_seeValue :
    ∀ (value : Value) (key : Bytes) (seen : Seen), Within (seeValue value key seen) key value
  | .unsignedInteger number, key, seen => fun hkey => by
      simp only [seeValue, hkey, if_true]
      exact seen.mem_see key number
  | .array items, key, seen => within_seeItems items key seen
  | .object fields, _, seen => within_seeFields fields seen
  | .null, _, _ | .boolean _, _, _ | .signedInteger _, _, _ | .double _, _, _ | .string _, _, _
  | .bytes _, _, _ => trivial

theorem within_seeItems :
    ∀ (items : List Value) (key : Bytes) (seen : Seen),
      WithinItems (seeItems items key seen) key items
  | [], _, _ => trivial
  | item :: rest, key, seen =>
      ⟨within_mono (before_seeItems rest key _) item key (within_seeValue item key seen),
        within_seeItems rest key _⟩

theorem within_seeFields :
    ∀ (fields : List (Bytes × Value)) (seen : Seen), WithinFields (seeFields fields seen) fields
  | [], _ => trivial
  | (field, item) :: rest, seen =>
      ⟨within_mono (before_seeFields rest _) item field (within_seeValue item field seen),
        within_seeFields rest _⟩

end

/-- Numbers keep their places when more is seen. -/
theorem Seen.Before.agree {seen later : Seen} (h : seen.Before later) :
    Agree seen (placeIn seen) (placeIn later) := by
  intro key _ number hmem
  simp only [placeIn]
  rw [FirstSeen.idxOf_of_prefix (h key) hmem]

/-! ## The traversal is a renaming -/

mutual

theorem normalizeValue_eq :
    ∀ (value : Value) (key : Bytes) {ordinals : Ordinals} {seen : Seen},
      Represents ordinals seen →
      (normalizeValue value key ordinals).1 = rename (placeIn (seeValue value key seen)) key value ∧
        Represents (normalizeValue value key ordinals).2 (seeValue value key seen)
  | .unsignedInteger number, key, ordinals, seen, h => by
      have hspec := ordinalFor_spec h number key
      simp only [normalizeValue, seeValue, rename]
      split
      · exact ⟨by rw [hspec.1], hspec.2⟩
      · exact ⟨rfl, h⟩
  | .array items, key, ordinals, seen, h => by
      have hitems := normalizeItems_eq items key h
      exact ⟨congrArg Value.array hitems.1, hitems.2⟩
  | .object fields, key, ordinals, seen, h => by
      have hfields := normalizeFields_eq fields h
      exact ⟨congrArg Value.object hfields.1, hfields.2⟩
  | .null, _, _, _, h | .boolean _, _, _, _, h | .signedInteger _, _, _, _, h
  | .double _, _, _, _, h | .string _, _, _, _, h | .bytes _, _, _, _, h => ⟨rfl, h⟩

theorem normalizeItems_eq :
    ∀ (items : List Value) (key : Bytes) {ordinals : Ordinals} {seen : Seen},
      Represents ordinals seen →
      (normalizeItems items key ordinals).1 =
          renameItems (placeIn (seeItems items key seen)) key items ∧
        Represents (normalizeItems items key ordinals).2 (seeItems items key seen)
  | [], _, _, _, h => ⟨rfl, h⟩
  | item :: rest, key, ordinals, seen, h => by
      have hfirst := normalizeValue_eq item key h
      have hrest := normalizeItems_eq rest key hfirst.2
      -- what the rest sees does not change the places the item got
      have hkept := rename_congr (before_seeItems rest key (seeValue item key seen)).agree item key
        (within_seeValue item key seen)
      refine ⟨?_, hrest.2⟩
      simp only [normalizeItems, renameItems, seeItems]
      rw [hfirst.1, hrest.1, hkept]

theorem normalizeFields_eq :
    ∀ (fields : List (Bytes × Value)) {ordinals : Ordinals} {seen : Seen},
      Represents ordinals seen →
      (normalizeFields fields ordinals).1 = renameFields (placeIn (seeFields fields seen)) fields ∧
        Represents (normalizeFields fields ordinals).2 (seeFields fields seen)
  | [], _, _, h => ⟨rfl, h⟩
  | (field, item) :: rest, ordinals, seen, h => by
      have hfirst := normalizeValue_eq item field h
      have hrest := normalizeFields_eq rest hfirst.2
      have hkept := rename_congr (before_seeFields rest (seeValue item field seen)).agree item field
        (within_seeValue item field seen)
      refine ⟨?_, hrest.2⟩
      simp only [normalizeFields, renameFields, seeFields]
      rw [hfirst.1, hrest.1, hkept]

end

/-- What a case sees in all. -/
def seenIn (payloads : List Value) : Seen := seeItems payloads [] fun _ => []

theorem represented_seenIn (payloads : List Value) :
    Represents (normalizeItems payloads [] .empty).2 (seenIn payloads) :=
  (normalizeItems_eq payloads [] represents_empty).2

theorem appendTraceLoop_payloads (caseIndex : Nat) :
    ∀ (records : List EventRecord) (ordinals : Ordinals) (trace : List EvaluationTraceEntry),
      (appendTraceLoop caseIndex records ordinals trace).map (·.payload) =
        trace.map (·.payload) ++ (normalizeItems (records.map (·.payload)) [] ordinals).1
  | [], _, trace => by simp [appendTraceLoop, normalizeItems]
  | record :: rest, ordinals, trace => by
      simp only [appendTraceLoop]
      rw [appendTraceLoop_payloads caseIndex rest]
      simp [normalizeItems]

/-- The payloads a case adds to the trace. -/
theorem appendTrace_payloads (caseIndex : Nat) (records : List EventRecord)
    (trace : List EvaluationTraceEntry) :
    (appendTrace caseIndex records trace).map (·.payload) = trace.map (·.payload) ++
      renameItems (placeIn (seenIn (records.map (·.payload)))) [] (records.map (·.payload)) := by
  unfold appendTrace
  rw [appendTraceLoop_payloads, (normalizeItems_eq _ [] represents_empty).1]
  rfl

/-! ## Composing renamings -/

mutual

theorem rename_rename (ρ σ : Renaming) : ∀ (value : Value) (key : Bytes),
    rename σ key (rename ρ key value) = rename (fun k n => σ k (ρ k n)) key value
  | .unsignedInteger number, key => by
      simp only [rename]
      split <;> rfl
  | .array items, key => by
      simp only [rename]
      rw [renameItems_renameItems ρ σ items key]
  | .object fields, _ => by
      simp only [rename]
      rw [renameFields_renameFields ρ σ fields]
  | .null, _ | .boolean _, _ | .signedInteger _, _ | .double _, _ | .string _, _
  | .bytes _, _ => rfl

theorem renameItems_renameItems (ρ σ : Renaming) : ∀ (items : List Value) (key : Bytes),
    renameItems σ key (renameItems ρ key items) = renameItems (fun k n => σ k (ρ k n)) key items
  | [], _ => rfl
  | item :: rest, key => by
      simp only [renameItems]
      rw [rename_rename ρ σ item key, renameItems_renameItems ρ σ rest key]

theorem renameFields_renameFields (ρ σ : Renaming) : ∀ fields : List (Bytes × Value),
    renameFields σ (renameFields ρ fields) = renameFields (fun k n => σ k (ρ k n)) fields
  | [] => rfl
  | (field, item) :: rest => by
      simp only [renameFields]
      rw [rename_rename ρ σ item field, renameFields_renameFields ρ σ rest]

end

mutual

theorem rename_self : ∀ (value : Value) (key : Bytes), rename (fun _ n => n) key value = value
  | .unsignedInteger number, key => by simp only [rename, ite_self]
  | .array items, key => by
      simp only [rename]
      rw [renameItems_self items key]
  | .object fields, _ => by
      simp only [rename]
      rw [renameFields_self fields]
  | .null, _ | .boolean _, _ | .signedInteger _, _ | .double _, _ | .string _, _
  | .bytes _, _ => rfl

theorem renameItems_self : ∀ (items : List Value) (key : Bytes),
    renameItems (fun _ n => n) key items = items
  | [], _ => rfl
  | item :: rest, key => by
      simp only [renameItems]
      rw [rename_self item key, renameItems_self rest key]

theorem renameFields_self : ∀ fields : List (Bytes × Value),
    renameFields (fun _ n => n) fields = fields
  | [] => rfl
  | (field, item) :: rest => by
      simp only [renameFields]
      rw [rename_self item field, renameFields_self rest]

end

/-! ## What a renamed case sees -/

/-- One injective renaming for every handle key. -/
def Renaming.Injective (ρ : Renaming) : Prop :=
  ∀ key, handleKey key = true → Function.Injective (ρ key)

/-- What was seen, renamed. -/
def Seen.renamed (ρ : Renaming) (seen : Seen) : Seen := fun key => (seen key).map (ρ key)

theorem Seen.see_renamed {ρ : Renaming} (hρ : ρ.Injective) {key : Bytes}
    (hkey : handleKey key = true) (seen : Seen) (number : UInt64) :
    (seen.renamed ρ).see key (ρ key number) = (seen.see key number).renamed ρ := by
  funext k
  unfold Seen.see Seen.renamed
  by_cases hk : k = key
  · subst hk
    rw [Function.update_self, Function.update_self, FirstSeen.see_map (hρ k hkey)]
  · rw [Function.update_of_ne hk, Function.update_of_ne hk]

mutual

theorem seeValue_rename {ρ : Renaming} (hρ : ρ.Injective) :
    ∀ (value : Value) (key : Bytes) (seen : Seen),
      seeValue (rename ρ key value) key (seen.renamed ρ) = (seeValue value key seen).renamed ρ
  | .unsignedInteger number, key, seen => by
      simp only [rename, seeValue]
      split
      · next hkey => rw [Seen.see_renamed hρ hkey]
      · rfl
  | .array items, key, seen => seeItems_rename hρ items key seen
  | .object fields, _, seen => seeFields_rename hρ fields seen
  | .null, _, _ | .boolean _, _, _ | .signedInteger _, _, _ | .double _, _, _ | .string _, _, _
  | .bytes _, _, _ => rfl

theorem seeItems_rename {ρ : Renaming} (hρ : ρ.Injective) :
    ∀ (items : List Value) (key : Bytes) (seen : Seen),
      seeItems (renameItems ρ key items) key (seen.renamed ρ) =
        (seeItems items key seen).renamed ρ
  | [], _, _ => rfl
  | item :: rest, key, seen => by
      simp only [renameItems, seeItems]
      rw [seeValue_rename hρ item key seen, seeItems_rename hρ rest key]

theorem seeFields_rename {ρ : Renaming} (hρ : ρ.Injective) :
    ∀ (fields : List (Bytes × Value)) (seen : Seen),
      seeFields (renameFields ρ fields) (seen.renamed ρ) = (seeFields fields seen).renamed ρ
  | [], _ => rfl
  | (field, item) :: rest, seen => by
      simp only [renameFields, seeFields]
      rw [seeValue_rename hρ item field seen, seeFields_rename hρ rest]

end

theorem seenIn_rename {ρ : Renaming} (hρ : ρ.Injective) (payloads : List Value) :
    seenIn (renameItems ρ [] payloads) = (seenIn payloads).renamed ρ :=
  seeItems_rename hρ payloads [] fun _ => []

/-! ## Canonical -/

/-- The payloads with every handle number replaced by its place in what the case sees. -/
def normalForm (payloads : List Value) : List Value :=
  renameItems (placeIn (seenIn payloads)) [] payloads

theorem normalForm_rename {ρ : Renaming} (hρ : ρ.Injective) (payloads : List Value) :
    normalForm (renameItems ρ [] payloads) = normalForm payloads := by
  unfold normalForm
  rw [renameItems_renameItems, seenIn_rename hρ]
  refine @renameItems_congr (seenIn payloads) _ _ (fun key hkey number _ => ?_) payloads []
    (within_seeItems payloads [] _)
  simp only [placeIn, Seen.renamed]
  rw [FirstSeen.idxOf_map (hρ key hkey)]

theorem card_names : Fintype.card UInt64 = 2 ^ 64 := by
  rw [Fintype.card_congr (⟨fun u => u.toFin, fun f => ⟨⟨f⟩⟩, fun _ => rfl, fun _ => rfl⟩ :
    UInt64 ≃ Fin (2 ^ 64)), Fintype.card_fin]

/-- There are no more numbers under a key than ordinals. -/
theorem placeIn_injective {seen : Seen} {key : Bytes} (h : (seen key).Nodup) :
    ∀ a ∈ seen key, ∀ b ∈ seen key, placeIn seen key a = placeIn seen key b → a = b := by
  intro a ha b hb heq
  have hlength : (seen key).length ≤ 2 ^ 64 := card_names ▸ h.length_le_card
  have hfa := List.idxOf_lt_length_of_mem ha
  have hfb := List.idxOf_lt_length_of_mem hb
  have hnat := congrArg UInt64.toNat heq
  simp only [placeIn, UInt64.toNat_ofNat'] at hnat
  have hidx : (seen key).idxOf a = (seen key).idxOf b := by omega
  exact (List.idxOf_inj ha).mp hidx

/-- The places are a renaming by permutations. -/
theorem normalForm_eq_perm (payloads : List Value) :
    ∃ π : Bytes → Equiv.Perm UInt64,
      normalForm payloads = renameItems (fun key => π key) [] payloads := by
  have hperm : ∀ key, ∃ π : Equiv.Perm UInt64,
      ∀ number ∈ seenIn payloads key, π number = placeIn (seenIn payloads) key number :=
    fun key => FirstSeen.exists_perm _ _
      (placeIn_injective ((represented_seenIn payloads).nodup key))
  choose π hπ using hperm
  refine ⟨π, @renameItems_congr (seenIn payloads) _ _ (fun key _ number hmem => ?_) payloads []
    (within_seeItems payloads [] _)⟩
  exact (hπ key number hmem).symm

theorem normalForm_eq_iff (payloads others : List Value) :
    normalForm payloads = normalForm others ↔
      ∃ ρ : Renaming, ρ.Injective ∧ others = renameItems ρ [] payloads := by
  constructor
  · intro heq
    obtain ⟨π, hπ⟩ := normalForm_eq_perm payloads
    obtain ⟨τ, hτ⟩ := normalForm_eq_perm others
    refine ⟨fun key number => (τ key).symm (π key number),
      fun key _ => (τ key).symm.injective.comp (π key).injective, ?_⟩
    calc others
        = renameItems (fun key => (τ key).symm) [] (renameItems (fun key => τ key) [] others) := by
          rw [renameItems_renameItems]
          simp only [Equiv.symm_apply_apply]
          rw [renameItems_self]
      _ = renameItems (fun key => (τ key).symm) [] (renameItems (fun key => π key) [] payloads) := by
          rw [← hτ, ← heq, hπ]
      _ = _ := renameItems_renameItems _ _ payloads []
  · rintro ⟨ρ, hρ, rfl⟩
    exact (normalForm_rename hρ payloads).symm

/-! ## Logical bytes -/

mutual

theorem logicalBytes_rename (ρ : Renaming) : ∀ (value : Value) (key : Bytes),
    logicalBytes (rename ρ key value) = logicalBytes value
  | .unsignedInteger _, _ => rfl
  | .array items, key => itemsBytes_rename ρ items key 0
  | .object fields, _ => fieldsBytes_rename ρ fields 0
  | .null, _ | .boolean _, _ | .signedInteger _, _ | .double _, _ | .string _, _
  | .bytes _, _ => rfl

theorem itemsBytes_rename (ρ : Renaming) : ∀ (items : List Value) (key : Bytes) (bytes : Nat),
    itemsBytes (renameItems ρ key items) bytes = itemsBytes items bytes
  | [], _, _ => rfl
  | item :: rest, key, bytes => by
      simp only [renameItems, itemsBytes]
      rw [logicalBytes_rename ρ item key, itemsBytes_rename ρ rest key]

theorem fieldsBytes_rename (ρ : Renaming) : ∀ (fields : List (Bytes × Value)) (bytes : Nat),
    fieldsBytes (renameFields ρ fields) bytes = fieldsBytes fields bytes
  | [], _ => rfl
  | (field, item) :: rest, bytes => by
      simp only [renameFields, fieldsBytes]
      rw [logicalBytes_rename ρ item field, fieldsBytes_rename ρ rest]

end

theorem renameItems_eq_map (ρ : Renaming) (items : List Value) :
    renameItems ρ [] items = items.map (rename ρ []) := by
  induction items with
  | nil => rfl
  | cons item rest ih => rw [renameItems, ih, List.map_cons]

/-- Whatever the trace, two cases append the same payloads exactly when one injective renaming for
every handle key leads from the one's to the other's; and every payload keeps its logical bytes. -/
theorem appendTrace_canonical (caseIndex otherIndex : Nat) (records others : List EventRecord)
    (trace otherTrace : List EvaluationTraceEntry) :
    (((appendTrace caseIndex records trace).map (·.payload)).drop trace.length =
        ((appendTrace otherIndex others otherTrace).map (·.payload)).drop otherTrace.length ↔
      ∃ ρ : Renaming, ρ.Injective ∧
        others.map (·.payload) = (records.map (·.payload)).map (rename ρ [])) ∧
    ((appendTrace caseIndex records trace).map (·.payload)).map logicalBytes =
      (trace.map (·.payload)).map logicalBytes ++
        (records.map (·.payload)).map logicalBytes := by
  have hdrop : ∀ (index : Nat) (added : List EventRecord) (before : List EvaluationTraceEntry),
      ((appendTrace index added before).map (·.payload)).drop before.length =
        normalForm (added.map (·.payload)) := by
    intro index added before
    rw [appendTrace_payloads, List.drop_left' (by rw [List.length_map])]
    rfl
  refine ⟨?_, ?_⟩
  · rw [hdrop, hdrop, normalForm_eq_iff]
    simp only [renameItems_eq_map]
  · rw [appendTrace_payloads, List.map_append, renameItems_eq_map]
    simp only [List.map_map, Function.comp_def, logicalBytes_rename]

end Evaluation

end LiquidLayer
