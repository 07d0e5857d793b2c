/-
  The worst case of a schema and the measure of a value (LuaBehaviorRunner.cpp).

  `schemaWorstCase` bounds every value a schema admits, with checked arithmetic;
  `measureLuaValue` charges one value against the runner's limits. `largest` is the same bound in
  unbounded arithmetic.

  * `schemaWorstCase_largest`: where the checks pass, nothing has wrapped.
  * `measure_visited`: a value the walk of its schema accepts is charged at most the schema's
    worst case, whatever has been charged before it.
  * `worstCase_sound`: a schema that passes the runner's limits admits only values that pass them.
-/
import LiquidLayer.Scripting.Validation

namespace LiquidLayer

/-- The limits of `LuaExecutionLimits` that values are measured against. -/
structure LuaExecutionLimits where
  maxTableDepth : UInt64
  maxTableEntries : UInt64
  maxStringBytes : UInt64
  maxBufferedValueBytes : UInt64
deriving DecidableEq, Repr

inductive LuaExecutionStatus where
  | success
  | invalidBehavior
  | sourceLimitExceeded
  | syntaxError
  | runtimeError
  | instructionLimitExceeded
  | memoryLimitExceeded
  | intentLimitExceeded
  | invalidProposal
  | commitFailed
  | hostError
deriving DecidableEq, Repr

structure ExecutionFailure where
  status : LuaExecutionStatus
  diagnostic : Bytes
deriving DecidableEq, Repr

/-! ## Measuring a value -/

/-- `std::size_t` arithmetic. -/
def wrapSize (n : Nat) : Nat := n % 2 ^ 64

def consumeBufferedBytes (bufferedBytes amount limit : Nat) (status : LuaExecutionStatus)
    (diagnostic : String) : Except ExecutionFailure Nat :=
  if amount > limit ∨ bufferedBytes > limit - amount then .error ⟨status, utf8 diagnostic⟩
  else .ok (wrapSize (bufferedBytes + amount))

/-- What has been charged so far. -/
structure Charged where
  entries : Nat
  bufferedBytes : Nat
deriving DecidableEq, Repr

def hostFailure {α : Type} (diagnostic : String) : Except ExecutionFailure α :=
  .error ⟨.hostError, utf8 diagnostic⟩

def bufferedLimitText : String := "encoded components exceed buffered data limit"

/-- `++entries`, with the check that follows it. -/
def countEntry (limits : LuaExecutionLimits) (charged : Charged) :
    Except ExecutionFailure Charged :=
  let entries := wrapSize (charged.entries + 1)
  if entries > limits.maxTableEntries.toNat then
    hostFailure "encoded component exceeds table entry limit"
  else .ok { charged with entries }

def chargeBytes (limits : LuaExecutionLimits) (amount : Nat) (charged : Charged) :
    Except ExecutionFailure Charged :=
  match consumeBufferedBytes charged.bufferedBytes amount limits.maxBufferedValueBytes.toNat .hostError
      bufferedLimitText with
  | .error e => .error e
  | .ok bufferedBytes => .ok { charged with bufferedBytes }

section Measure

variable (sizeofLuaValue : UInt64) (limits : LuaExecutionLimits)

mutual

def measureLuaValue : LuaValue → Nat → Charged → Except ExecutionFailure Charged
  | value, depth, charged =>
    if depth > limits.maxTableDepth.toNat then
      hostFailure "encoded component exceeds table depth limit"
    else do
      let charged ← chargeBytes limits sizeofLuaValue.toNat charged
      match value with
      | .string text =>
          if text.length > limits.maxStringBytes.toNat then
            hostFailure "encoded component exceeds string size limit"
          else chargeBytes limits text.length charged
      | .array items => measureItems items depth charged
      | .table entries => measureEntries entries depth charged
      | _ => return charged

def measureItems : List LuaValue → Nat → Charged → Except ExecutionFailure Charged
  | [], _, charged => .ok charged
  | child :: rest, depth, charged => do
      let charged ← countEntry limits charged
      let charged ← measureLuaValue child (depth + 1) charged
      measureItems rest depth charged

def measureEntries : List (Bytes × LuaValue) → Nat → Charged → Except ExecutionFailure Charged
  | [], _, charged => .ok charged
  | (key, child) :: rest, depth, charged =>
      if key.length > limits.maxStringBytes.toNat then
        hostFailure "encoded component key exceeds string size limit"
      else do
        let charged ← countEntry limits charged
        let charged ← chargeBytes limits key.length charged
        let charged ← measureLuaValue child (depth + 1) charged
        measureEntries rest depth charged

end

end Measure

/-! ## The worst case of a schema -/

structure SchemaWorstCase where
  entries : Nat
  bufferedBytes : Nat
  stringBytes : Nat
deriving DecidableEq, Repr

def metadataOverflow {α : Type} : Except Failure α :=
  .error (.invalidArgument "Lua binding metadata worst-case totals overflow")

def checkedMetadataAdd (left right : Nat) : Except Failure Nat :=
  if right > maxSize - left then metadataOverflow else .ok (wrapSize (left + right))

def checkedMetadataMultiply (left right : Nat) : Except Failure Nat :=
  if left ≠ 0 ∧ right > maxSize / left then metadataOverflow else .ok (wrapSize (left * right))

section WorstCase

variable (sizeofLuaValue : UInt64)

mutual

def schemaWorstCase : LuaValueSchema → Except Failure SchemaWorstCase
  | .string _ maximumBytes _ _ _ => do
      let bufferedBytes ← checkedMetadataAdd sizeofLuaValue.toNat maximumBytes
      return { entries := 0, bufferedBytes, stringBytes := maximumBytes }
  | .array item _ maximumItems _ _ => do
      let worst ← schemaWorstCase item
      let perItem ← checkedMetadataAdd 1 worst.entries
      let entries ← checkedMetadataMultiply maximumItems perItem
      let itemBytes ← checkedMetadataMultiply maximumItems worst.bufferedBytes
      let bufferedBytes ← checkedMetadataAdd sizeofLuaValue.toNat itemBytes
      return { entries, bufferedBytes, stringBytes := worst.stringBytes }
  | .object fields _ _ =>
      worstFields fields
        { entries := 0, bufferedBytes := sizeofLuaValue.toNat, stringBytes := 0 }
  | _ => .ok { entries := 0, bufferedBytes := sizeofLuaValue.toNat, stringBytes := 0 }

/-- The loop over an object's fields. -/
def worstFields : List LuaSchemaField → SchemaWorstCase → Except Failure SchemaWorstCase
  | [], worst => .ok worst
  | .mk name schema _ :: rest, worst => do
      let child ← schemaWorstCase schema
      let perField ← checkedMetadataAdd 1 child.entries
      let entries ← checkedMetadataAdd worst.entries perField
      let fieldBytes ← checkedMetadataAdd name.length child.bufferedBytes
      let bufferedBytes ← checkedMetadataAdd worst.bufferedBytes fieldBytes
      worstFields rest {
        entries, bufferedBytes
        stringBytes := max worst.stringBytes (max name.length child.stringBytes) }

end

def validateSchemaAgainstLimits (schema : LuaValueSchema) (limits : LuaExecutionLimits)
    (role : String) : Except Failure Unit :=
  let fails (text : String) : Except Failure Unit :=
    .error (.invalidArgument ("Lua binding " ++ role ++ " schema " ++ text))
  if schema.totals.containerDepth > limits.maxTableDepth.toNat then
    fails "exceeds the runner table depth limit"
  else
    match schemaWorstCase sizeofLuaValue schema with
    | .error e => .error e
    | .ok worst =>
        if worst.entries > limits.maxTableEntries.toNat then
          fails "exceeds the runner table entry limit"
        else if worst.stringBytes > limits.maxStringBytes.toNat then
          fails "exceeds the runner string size limit"
        else if worst.bufferedBytes > limits.maxBufferedValueBytes.toNat then
          fails "exceeds the runner buffered data limit"
        else .ok ()

end WorstCase

/-! ## The same bound without a limit on the numbers -/

section Largest

variable (size : Nat)

mutual

def largest : LuaValueSchema → SchemaWorstCase
  | .string _ maximumBytes _ _ _ => ⟨0, size + maximumBytes, maximumBytes⟩
  | .array item _ maximumItems _ _ =>
      ⟨maximumItems * (1 + (largest item).entries),
        size + maximumItems * (largest item).bufferedBytes, (largest item).stringBytes⟩
  | .object fields _ _ =>
      ⟨(largestFields fields).entries, size + (largestFields fields).bufferedBytes,
        (largestFields fields).stringBytes⟩
  | _ => ⟨0, size, 0⟩

/-- What the fields of an object add up to. -/
def largestFields : List LuaSchemaField → SchemaWorstCase
  | [] => ⟨0, 0, 0⟩
  | .mk name schema _ :: rest =>
      ⟨1 + (largest schema).entries + (largestFields rest).entries,
        name.length + (largest schema).bufferedBytes + (largestFields rest).bufferedBytes,
        max (max name.length (largest schema).stringBytes) (largestFields rest).stringBytes⟩

end

end Largest

theorem checkedMetadataAdd_ok {left right sum : Nat} (hl : left ≤ maxSize)
    (h : checkedMetadataAdd left right = .ok sum) : sum = left + right ∧ sum ≤ maxSize := by
  unfold checkedMetadataAdd at h
  split at h
  · cases h
  · next hle =>
      have hsum : left + right ≤ maxSize := by omega
      have hwrap : wrapSize (left + right) = left + right :=
        Nat.mod_eq_of_lt (by unfold maxSize at hsum; omega)
      obtain rfl := Except.ok.inj h
      rw [hwrap]
      exact ⟨rfl, hsum⟩

theorem checkedMetadataMultiply_ok {left right product : Nat}
    (h : checkedMetadataMultiply left right = .ok product) :
    product = left * right ∧ product ≤ maxSize := by
  unfold checkedMetadataMultiply at h
  split at h
  · cases h
  · next hle =>
      have hproduct : left * right ≤ maxSize := by
        rcases Nat.eq_zero_or_pos left with rfl | hpos
        · simp
        · have hright : right ≤ maxSize / left := by
            by_contra hgt
            exact hle ⟨Nat.pos_iff_ne_zero.mp hpos, Nat.lt_of_not_le hgt⟩
          calc left * right ≤ left * (maxSize / left) := Nat.mul_le_mul_left _ hright
            _ ≤ maxSize := Nat.mul_div_le _ _
      have hwrap : wrapSize (left * right) = left * right :=
        Nat.mod_eq_of_lt (by unfold maxSize at hproduct; omega)
      obtain rfl := Except.ok.inj h
      rw [hwrap]
      exact ⟨rfl, hproduct⟩

theorem toNat_le_maxSize (n : UInt64) : n.toNat ≤ maxSize := by
  have := n.toNat_lt
  unfold maxSize
  omega

section Bounds

variable (sizeofLuaValue : UInt64)

mutual

/-- Where every check passes, the worst case is the exact bound. -/
theorem schemaWorstCase_largest : ∀ (schema : LuaValueSchema) (worst : SchemaWorstCase),
    schema.wellFormed = true → schemaWorstCase sizeofLuaValue schema = .ok worst →
      worst = largest sizeofLuaValue.toNat schema ∧
        worst.entries ≤ maxSize ∧ worst.bufferedBytes ≤ maxSize
  | .boolean _ _, worst, _, h | .integer _ _ _ _, worst, _, h | .number _ _ _ _, worst, _, h => by
      cases h
      exact ⟨rfl, Nat.zero_le _, toNat_le_maxSize _⟩
  | .string _ maximumBytes _ _ _, worst, _, h => by
      obtain ⟨bytes, hbytes, h⟩ := bind_eq_ok h
      cases h
      obtain ⟨rfl, hle⟩ := checkedMetadataAdd_ok (toNat_le_maxSize _) hbytes
      exact ⟨rfl, Nat.zero_le _, hle⟩
  | .array item _ maximumItems _ _, worst, hs, h => by
      obtain ⟨inner, hinner, h⟩ := bind_eq_ok h
      obtain ⟨perItem, hperItem, h⟩ := bind_eq_ok h
      obtain ⟨entries, hentries, h⟩ := bind_eq_ok h
      obtain ⟨itemBytes, hitemBytes, h⟩ := bind_eq_ok h
      obtain ⟨bytes, hbytes, h⟩ := bind_eq_ok h
      cases h
      obtain ⟨rfl, _, _⟩ := schemaWorstCase_largest item inner hs hinner
      obtain ⟨rfl, _⟩ := checkedMetadataAdd_ok (by decide) hperItem
      obtain ⟨rfl, hentries⟩ := checkedMetadataMultiply_ok hentries
      obtain ⟨rfl, _⟩ := checkedMetadataMultiply_ok hitemBytes
      obtain ⟨rfl, hbytes⟩ := checkedMetadataAdd_ok (toNat_le_maxSize _) hbytes
      exact ⟨rfl, hentries, hbytes⟩
  | .object fields _ _, worst, hs, h => by
      simp only [LuaValueSchema.wellFormed, Bool.and_eq_true] at hs
      obtain ⟨rfl, hentries, hbytes⟩ := worstFields_largest fields _ worst hs.2
        (Nat.zero_le _) (toNat_le_maxSize _) h
      refine ⟨?_, hentries, hbytes⟩
      simp only [largest, Nat.zero_add, Nat.zero_max]

theorem worstFields_largest : ∀ (fields : List LuaSchemaField) (start worst : SchemaWorstCase),
    LuaValueSchema.wellFormedFields fields = true → start.entries ≤ maxSize →
      start.bufferedBytes ≤ maxSize → worstFields sizeofLuaValue fields start = .ok worst →
      worst = ⟨start.entries + (largestFields sizeofLuaValue.toNat fields).entries,
        start.bufferedBytes + (largestFields sizeofLuaValue.toNat fields).bufferedBytes,
        max start.stringBytes (largestFields sizeofLuaValue.toNat fields).stringBytes⟩ ∧
        worst.entries ≤ maxSize ∧ worst.bufferedBytes ≤ maxSize
  | [], start, worst, _, he, hb, h => by
      cases h
      simp only [largestFields, Nat.add_zero, Nat.max_zero]
      exact ⟨trivial, he, hb⟩
  | .mk name schema _ :: rest, start, worst, hs, he, hb, h => by
      simp only [LuaValueSchema.wellFormedFields, Bool.and_eq_true, decide_eq_true_eq] at hs
      have hname : name.length ≤ maxSize := le_trans hs.1.1 (by decide)
      obtain ⟨child, hchild, h⟩ := bind_eq_ok h
      obtain ⟨perField, hperField, h⟩ := bind_eq_ok h
      obtain ⟨entries, hentries, h⟩ := bind_eq_ok h
      obtain ⟨fieldBytes, hfieldBytes, h⟩ := bind_eq_ok h
      obtain ⟨bytes, hbytes, h⟩ := bind_eq_ok h
      obtain ⟨rfl, _, _⟩ := schemaWorstCase_largest schema child hs.1.2 hchild
      obtain ⟨rfl, _⟩ := checkedMetadataAdd_ok (by decide) hperField
      obtain ⟨rfl, hentries⟩ := checkedMetadataAdd_ok he hentries
      obtain ⟨rfl, _⟩ := checkedMetadataAdd_ok hname hfieldBytes
      obtain ⟨rfl, hbytes⟩ := checkedMetadataAdd_ok hb hbytes
      obtain ⟨rfl, hle⟩ := worstFields_largest rest _ worst hs.2 hentries hbytes h
      refine ⟨?_, hle⟩
      simp only [largestFields, SchemaWorstCase.mk.injEq]
      omega

end

/-! ## A value within its schema -/

variable (limits : LuaExecutionLimits)

/-- After what has been charged there is room for so much more. -/
structure Room (charged : Charged) (entries bufferedBytes : Nat) : Prop where
  entriesAllowed : charged.entries + entries ≤ limits.maxTableEntries.toNat
  entriesFit : charged.entries + entries ≤ maxSize
  bytesAllowed : charged.bufferedBytes + bufferedBytes ≤ limits.maxBufferedValueBytes.toNat
  bytesFit : charged.bufferedBytes + bufferedBytes ≤ maxSize

/-- The measure ended well and charged no more than so much. -/
def Charges (result : Except ExecutionFailure Charged) (charged : Charged)
    (entries bufferedBytes : Nat) : Prop :=
  ∃ charged', result = .ok charged' ∧ charged'.entries ≤ charged.entries + entries ∧
    charged'.bufferedBytes ≤ charged.bufferedBytes + bufferedBytes

variable {limits}

theorem Room.mono {charged : Charged} {entries bytes entries' bytes' : Nat}
    (h : Room limits charged entries bytes) (he : entries' ≤ entries) (hb : bytes' ≤ bytes) :
    Room limits charged entries' bytes' := by
  obtain ⟨h₁, h₂, h₃, h₄⟩ := h
  exact ⟨by omega, by omega, by omega, by omega⟩

theorem chargeBytes_ok {charged : Charged} {entries amount rest : Nat}
    (room : Room limits charged entries (amount + rest)) :
    ∃ charged', chargeBytes limits amount charged = .ok charged' ∧
      charged'.entries = charged.entries ∧
      charged'.bufferedBytes = charged.bufferedBytes + amount ∧
      Room limits charged' entries rest := by
  obtain ⟨h₁, h₂, h₃, h₄⟩ := room
  have hfits : ¬(amount > limits.maxBufferedValueBytes.toNat ∨
      charged.bufferedBytes > limits.maxBufferedValueBytes.toNat - amount) := by omega
  have hwrap : wrapSize (charged.bufferedBytes + amount) = charged.bufferedBytes + amount :=
    Nat.mod_eq_of_lt (by unfold maxSize at h₄; omega)
  refine ⟨{ charged with bufferedBytes := charged.bufferedBytes + amount }, ?_, rfl, rfl,
    h₁, h₂, ?_, ?_⟩
  · simp only [chargeBytes, consumeBufferedBytes, hfits, if_false, hwrap]
  · dsimp only; omega
  · dsimp only; omega

theorem countEntry_ok {charged : Charged} {entries bytes : Nat}
    (room : Room limits charged (1 + entries) bytes) :
    ∃ charged', countEntry limits charged = .ok charged' ∧
      charged'.entries = charged.entries + 1 ∧
      charged'.bufferedBytes = charged.bufferedBytes ∧ Room limits charged' entries bytes := by
  obtain ⟨h₁, h₂, h₃, h₄⟩ := room
  have hwrap : wrapSize (charged.entries + 1) = charged.entries + 1 :=
    Nat.mod_eq_of_lt (by unfold maxSize at h₂; omega)
  have hfits : ¬(charged.entries + 1 > limits.maxTableEntries.toNat) := by omega
  refine ⟨{ charged with entries := charged.entries + 1 }, ?_, rfl, rfl, ?_, ?_, h₃, h₄⟩
  · simp only [countEntry, hwrap, hfits, if_false]
  · dsimp only; omega
  · dsimp only; omega

/-- The items of an array, when each of them is charged at most `entries` and `bytes`. -/
theorem measureItems_ok {items : List LuaValue} {depth entries bytes : Nat}
    (hitem : ∀ v ∈ items, ∀ charged, Room limits charged entries bytes →
      Charges (measureLuaValue sizeofLuaValue limits v (depth + 1) charged) charged entries bytes)
    (charged : Charged)
    (room : Room limits charged (items.length * (1 + entries)) (items.length * bytes)) :
    Charges (measureItems sizeofLuaValue limits items depth charged) charged
      (items.length * (1 + entries)) (items.length * bytes) := by
  induction items generalizing charged with
  | nil => exact ⟨charged, rfl, Nat.le_add_right _ _, Nat.le_add_right _ _⟩
  | cons v items ih =>
      rw [List.length_cons, Nat.succ_mul, Nat.succ_mul] at room ⊢
      obtain ⟨c₁, hc₁, he₁, hb₁, room₁⟩ :=
        @countEntry_ok _ _ (entries + items.length * (1 + entries)) _
          (room.mono (by omega) le_rfl)
      obtain ⟨c₂, hc₂, he₂, hb₂⟩ := hitem v List.mem_cons_self c₁
        (room₁.mono (Nat.le_add_right _ _) (Nat.le_add_left _ _))
      have room₂ : Room limits c₂ (items.length * (1 + entries)) (items.length * bytes) := by
        obtain ⟨h₁, h₂, h₃, h₄⟩ := room₁
        exact ⟨by omega, by omega, by omega, by omega⟩
      obtain ⟨c₃, hc₃, he₃, hb₃⟩ := ih (fun w hw => hitem w (List.mem_cons_of_mem _ hw)) c₂ room₂
      refine ⟨c₃, ?_, by omega, by omega⟩
      rw [measureItems, hc₁, ok_bind, hc₂, ok_bind]
      exact hc₃

theorem of_visitItems_ok {visit : LuaValue → Bytes → Nat → Except LuaSchemaError Nat}
    {path : Bytes} {items : List LuaValue} {index n n' : Nat}
    (h : SchemaWalk.visitItems visit path items index n = .ok n') :
    ∀ v ∈ items, ∃ path m m', visit v path m = .ok m' := by
  induction items generalizing index n with
  | nil => exact fun v hv => absurd hv List.not_mem_nil
  | cons w items ih =>
      rw [SchemaWalk.visitItems] at h
      split at h
      · cases h
      · next m hm => exact List.forall_mem_cons.mpr ⟨⟨_, _, _, hm⟩, ih h⟩

/-- Every node is charged its own size first. -/
theorem measure_node {value : LuaValue} {depth entries rest : Nat} {charged : Charged}
    (hdepth : depth ≤ limits.maxTableDepth.toNat)
    (room : Room limits charged entries (sizeofLuaValue.toNat + rest)) :
    ∃ charged', Room limits charged' entries rest ∧ charged'.entries = charged.entries ∧
      charged'.bufferedBytes = charged.bufferedBytes + sizeofLuaValue.toNat ∧
      measureLuaValue sizeofLuaValue limits value depth charged =
        match value with
        | .string text =>
            if text.length > limits.maxStringBytes.toNat then
              hostFailure "encoded component exceeds string size limit"
            else chargeBytes limits text.length charged'
        | .array items => measureItems sizeofLuaValue limits items depth charged'
        | .table entries => measureEntries sizeofLuaValue limits entries depth charged'
        | _ => .ok charged' := by
  obtain ⟨charged', hcharged, he, hb, room'⟩ := chargeBytes_ok room
  refine ⟨charged', room', he, hb, ?_⟩
  rw [measureLuaValue, if_neg (Nat.not_lt.mpr hdepth), hcharged, ok_bind]
  cases value <;> rfl

mutual

/-- A value the walk accepts is charged at most the worst case of its schema. -/
theorem measure_visited : ∀ (schema : LuaValueSchema) (value : LuaValue) (path : Bytes)
    (n n' : Nat), SchemaWalk.visit schema value path n = .ok n' →
      ∀ (depth : Nat) (charged : Charged), depth + schema.depth ≤ limits.maxTableDepth.toNat →
      (largest sizeofLuaValue.toNat schema).stringBytes ≤ limits.maxStringBytes.toNat →
      Room limits charged (largest sizeofLuaValue.toNat schema).entries
        (largest sizeofLuaValue.toNat schema).bufferedBytes →
      Charges (measureLuaValue sizeofLuaValue limits value depth charged) charged
        (largest sizeofLuaValue.toNat schema).entries
        (largest sizeofLuaValue.toNat schema).bufferedBytes
  | schema, value, path, n, n', hvisit, depth, charged, hdepth, hstring, room => by
      have hshallow : depth ≤ limits.maxTableDepth.toNat := by omega
      unfold SchemaWalk.visit at hvisit
      split at hvisit
      · exact (SchemaWalk.fail_eq_ok.mp hvisit).elim
      split at hvisit
      · next b =>
          obtain ⟨c, _, he, hb, hmeasure⟩ :=
            @measure_node sizeofLuaValue limits (.boolean b) depth 0 0 charged hshallow room
          exact ⟨c, hmeasure, he.le, hb.le⟩
      · next i =>
          obtain ⟨c, _, he, hb, hmeasure⟩ :=
            @measure_node sizeofLuaValue limits (.integer i) depth 0 0 charged hshallow room
          exact ⟨c, hmeasure, he.le, hb.le⟩
      · next x =>
          obtain ⟨c, _, he, hb, hmeasure⟩ :=
            @measure_node sizeofLuaValue limits (.number x) depth 0 0 charged hshallow room
          exact ⟨c, hmeasure, he.le, hb.le⟩
      · next minimumBytes maximumBytes enumeration description totals text =>
          obtain ⟨hconforms, _⟩ :=
            (@SchemaWalk.visitString_ok_iff _ _ _ _ _ _ _ description totals).mp hvisit
          cases hconforms with
          | string _ upper _ =>
              obtain ⟨c, room', he, hb, hmeasure⟩ :=
                @measure_node sizeofLuaValue limits (.string text) _ _ _ _ hshallow room
              have hshort : ¬(text.length > limits.maxStringBytes.toNat) :=
                Nat.not_lt.mpr (le_trans upper hstring)
              obtain ⟨c', hc', he', hb', _⟩ := @chargeBytes_ok _ c _ text.length 0
                (room'.mono le_rfl upper)
              dsimp only at hmeasure
              rw [if_neg hshort, hc'] at hmeasure
              refine ⟨c', hmeasure, by omega, ?_⟩
              simp only [largest]
              omega
      · next item minimumItems maximumItems _ _ items =>
          split at hvisit
          · exact (SchemaWalk.fail_eq_ok.mp hvisit).elim
          next hlength =>
          have hlength : items.length ≤ maximumItems := by omega
          obtain ⟨c, room', he, hb, hmeasure⟩ :=
            @measure_node sizeofLuaValue limits (.array items) _ _ _ _ hshallow room
          have hentries := Nat.mul_le_mul_right (1 + (largest sizeofLuaValue.toNat item).entries)
            hlength
          have hbytes := Nat.mul_le_mul_right (largest sizeofLuaValue.toNat item).bufferedBytes
            hlength
          have hitem : ∀ v ∈ items, ∀ charged,
              Room limits charged (largest sizeofLuaValue.toNat item).entries
                (largest sizeofLuaValue.toNat item).bufferedBytes →
              Charges (measureLuaValue sizeofLuaValue limits v (depth + 1) charged) charged
                (largest sizeofLuaValue.toNat item).entries
                (largest sizeofLuaValue.toNat item).bufferedBytes := by
            intro v hv charged room
            obtain ⟨p, m, m', hm⟩ := of_visitItems_ok hvisit v hv
            refine measure_visited item v p m m' hm (depth + 1) charged ?_ hstring room
            simp only [LuaValueSchema.depth] at hdepth
            omega
          obtain ⟨c', hc', he', hb'⟩ := measureItems_ok sizeofLuaValue hitem c
            (room'.mono hentries hbytes)
          refine ⟨c', by rw [hmeasure]; exact hc', ?_, ?_⟩
          · simp only [largest]
            omega
          · simp only [largest]
            omega
      · next fields _ _ entries =>
          split at hvisit
          · exact (SchemaWalk.fail_eq_ok.mp hvisit).elim
          obtain ⟨c, room', he, hb, hmeasure⟩ :=
            @measure_node sizeofLuaValue limits (.table entries) _ _ _ _ hshallow room
          have hdeep : depth + LuaValueSchema.depthFields fields ≤ limits.maxTableDepth.toNat := by
            simp only [LuaValueSchema.depth] at hdepth
            omega
          obtain ⟨c', hc', he', hb'⟩ := measure_visitedFields fields entries path (n + 1) n' hvisit
            depth c hdeep hstring room'
          refine ⟨c', by rw [hmeasure]; exact hc', ?_, ?_⟩
          · simp only [largest]
            omega
          · simp only [largest]
            omega
      · exact (SchemaWalk.fail_eq_ok.mp hvisit).elim

theorem measure_visitedFields : ∀ (fields : List LuaSchemaField)
    (entries : List (Bytes × LuaValue)) (path : Bytes) (n n' : Nat),
      SchemaWalk.visitFields fields entries path n = .ok n' →
      ∀ (depth : Nat) (charged : Charged),
      depth + LuaValueSchema.depthFields fields ≤ limits.maxTableDepth.toNat →
      (largestFields sizeofLuaValue.toNat fields).stringBytes ≤ limits.maxStringBytes.toNat →
      Room limits charged (largestFields sizeofLuaValue.toNat fields).entries
        (largestFields sizeofLuaValue.toNat fields).bufferedBytes →
      Charges (measureEntries sizeofLuaValue limits entries depth charged) charged
        (largestFields sizeofLuaValue.toNat fields).entries
        (largestFields sizeofLuaValue.toNat fields).bufferedBytes
  | [], [], path, n, n', hvisit, depth, charged, hdepth, hstring, room => by
      exact ⟨charged, rfl, Nat.le_add_right _ _, Nat.le_add_right _ _⟩
  | [], (key, v) :: entries, path, n, n', hvisit, depth, charged, hdepth, hstring, room => by
      simp only [SchemaWalk.visitFields, SchemaWalk.fail_eq_ok] at hvisit
  | .mk name schema required :: fields, entries, path, n, n', hvisit, depth, charged, hdepth,
      hstring, room => by
      simp only [LuaValueSchema.depthFields] at hdepth
      simp only [largestFields] at hstring room ⊢
      -- a field that is left out leaves room for the others
      have hskip : SchemaWalk.visitFields fields entries path n = .ok n' →
          Charges (measureEntries sizeofLuaValue limits entries depth charged) charged
            (1 + (largest sizeofLuaValue.toNat schema).entries +
              (largestFields sizeofLuaValue.toNat fields).entries)
            (name.length + (largest sizeofLuaValue.toNat schema).bufferedBytes +
              (largestFields sizeofLuaValue.toNat fields).bufferedBytes) := by
        intro hrest
        obtain ⟨c, hc, he, hb⟩ := measure_visitedFields fields entries path n n' hrest depth charged
          (by omega) (by omega) (room.mono (Nat.le_add_left _ _) (Nat.le_add_left _ _))
        exact ⟨c, hc, by omega, by omega⟩
      cases entries with
      | nil =>
          rw [SchemaWalk.visitFields] at hvisit
          split at hvisit
          · exact (SchemaWalk.fail_eq_ok.mp hvisit).elim
          · exact hskip hvisit
      | cons e entries =>
          obtain ⟨key, v⟩ := e
          rw [SchemaWalk.visitFields] at hvisit
          split at hvisit
          · exact (SchemaWalk.fail_eq_ok.mp hvisit).elim
          next hge =>
          split at hvisit
          · split at hvisit
            · exact (SchemaWalk.fail_eq_ok.mp hvisit).elim
            · exact hskip hvisit
          next hle =>
          obtain rfl : name = key := le_antisymm (not_lt.mp hge) (not_lt.mp hle)
          split at hvisit
          · cases hvisit
          next m hm =>
          have hshort : ¬(name.length > limits.maxStringBytes.toNat) := by omega
          obtain ⟨c₁, hc₁, he₁, hb₁, room₁⟩ := countEntry_ok (room.mono (Nat.add_assoc _ _ _).ge le_rfl)
          obtain ⟨c₂, hc₂, he₂, hb₂, room₂⟩ := chargeBytes_ok
            (room₁.mono le_rfl (Nat.add_assoc _ _ _).ge)
          obtain ⟨c₃, hc₃, he₃, hb₃⟩ := measure_visited schema v _ _ _ hm (depth + 1) c₂
            (by omega) (by omega) (room₂.mono (Nat.le_add_right _ _) (Nat.le_add_right _ _))
          have room₃ : Room limits c₃ (largestFields sizeofLuaValue.toNat fields).entries
              (largestFields sizeofLuaValue.toNat fields).bufferedBytes := by
            obtain ⟨h₁, h₂, h₃, h₄⟩ := room₂
            exact ⟨by omega, by omega, by omega, by omega⟩
          obtain ⟨c₄, hc₄, he₄, hb₄⟩ := measure_visitedFields fields entries path m n' hvisit depth c₃
            (by omega) (by omega) room₃
          refine ⟨c₄, ?_, by omega, by omega⟩
          rw [measureEntries, if_neg hshort, hc₁, ok_bind, hc₂, ok_bind, hc₃, ok_bind]
          exact hc₄

end

end Bounds

theorem validateSchemaAgainstLimits_ok {sizeofLuaValue : UInt64} {schema : LuaValueSchema}
    {limits : LuaExecutionLimits} {role : String}
    (h : validateSchemaAgainstLimits sizeofLuaValue schema limits role = .ok ()) :
    schema.totals.containerDepth ≤ limits.maxTableDepth.toNat ∧
      ∃ worst, schemaWorstCase sizeofLuaValue schema = .ok worst ∧
        worst.entries ≤ limits.maxTableEntries.toNat ∧ worst.stringBytes ≤ limits.maxStringBytes.toNat ∧
        worst.bufferedBytes ≤ limits.maxBufferedValueBytes.toNat := by
  unfold validateSchemaAgainstLimits at h
  split at h
  · cases h
  next hdepth =>
  split at h
  · cases h
  next worst hworst =>
  split at h
  · cases h
  next hentries =>
  split at h
  · cases h
  next hstring =>
  split at h
  · cases h
  next hbytes =>
  exact ⟨Nat.le_of_not_gt hdepth, worst, hworst, Nat.le_of_not_gt hentries,
    Nat.le_of_not_gt hstring, Nat.le_of_not_gt hbytes⟩

/-- The worst-case bounds are sound. Where `schema_worst_case` returns, its arithmetic has not
    wrapped. A value that passes the validation of a schema accepted against the limits is
    measured without an exception, and is charged at most the schema's worst case. -/
theorem worstCase_sound {sizeofLuaValue : UInt64} {schema : LuaValueSchema}
    (built : schema.Built) :
    (∀ worst, schemaWorstCase sizeofLuaValue schema = .ok worst →
      worst = largest sizeofLuaValue.toNat schema) ∧
    ∀ (limits : LuaExecutionLimits) (role : String),
      validateSchemaAgainstLimits sizeofLuaValue schema limits role = .ok () →
      ∃ worst, schemaWorstCase sizeofLuaValue schema = .ok worst ∧
        ∀ value : LuaValue, (validateLuaValue schema value).valid = true →
          ∃ charged, measureLuaValue sizeofLuaValue limits value 0 ⟨0, 0⟩ = .ok charged ∧
            charged.entries ≤ worst.entries ∧ charged.bufferedBytes ≤ worst.bufferedBytes := by
  obtain ⟨hwell, hdepth⟩ := built.wellFormed_depth
  refine ⟨fun worst h => (schemaWorstCase_largest sizeofLuaValue schema worst hwell h).1, ?_⟩
  intro limits role haccepted
  obtain ⟨hnesting, worst, hworst, hentries, hstring, hbytes⟩ :=
    validateSchemaAgainstLimits_ok haccepted
  refine ⟨worst, hworst, fun value hvalid => ?_⟩
  obtain ⟨rfl, hentriesFit, hbytesFit⟩ :=
    schemaWorstCase_largest sizeofLuaValue schema worst hwell hworst
  have room : Room limits ⟨0, 0⟩ (largest sizeofLuaValue.toNat schema).entries
      (largest sizeofLuaValue.toNat schema).bufferedBytes :=
    ⟨by simpa using hentries, by simpa using hentriesFit, by simpa using hbytes,
      by simpa using hbytesFit⟩
  unfold validateLuaValue at hvalid
  split at hvalid
  · next n hvisit =>
      obtain ⟨charged, hmeasure, he, hb⟩ := measure_visited sizeofLuaValue schema value [] 0 n hvisit
        0 ⟨0, 0⟩ (by omega) hstring room
      exact ⟨charged, hmeasure, by simpa using he, by simpa using hb⟩
  · cases hvalid

theorem worstCase_sound_lamp : ∃ worst, schemaWorstCase 56 lampSchema = .ok worst ∧
    ∀ value : LuaValue, (validateLuaValue lampSchema value).valid = true →
      ∃ charged, measureLuaValue 56 ⟨16, 4096, 65536, 8388608⟩ value 0 ⟨0, 0⟩ = .ok charged ∧
        charged.entries ≤ worst.entries ∧ charged.bufferedBytes ≤ worst.bufferedBytes :=
  (worstCase_sound lampSchema_built).2 ⟨16, 4096, 65536, 8388608⟩ "read" (by rfl)

end LiquidLayer
