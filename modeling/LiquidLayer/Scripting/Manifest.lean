/-
  Scope manifests (`scope_manifest` of LuaBehaviorRunner.cpp, LuaCapabilityManifest.hpp,
  LuaCapabilityManifest.cpp).

  A manifest is captured grant by grant, under running totals that end the capture where one of
  them would be exceeded: value nodes, description bytes, logical bytes and buffered bytes.
  A call may end with an error of its own or with an exception, which `scope_manifest` turns into
  a `HostError`; `Stop` keeps the two apart.

  What the bindings call in the host is a function: `encode` of a binding is its codec's.

  * `Totals`: the running totals. `Contribution`: what one grant adds to them.
  * `captureGrant_ok`: a grant that is captured contributes the same wherever it stands in the
    list, as long as the totals have room.
  * `scopeManifest_perm`: a capture depends on the grants, not on their order.
-/
import LiquidLayer.Scripting.WorstCase
import LiquidLayer.World.Run

namespace LiquidLayer

def luaAuthoringContract : Bytes := utf8 "liquid.lua.authoring/1"
def luaManifestMaxCapabilities : Nat := 128
def luaManifestMaxDescriptionBytes : Nat := 65536
def luaManifestMaxLogicalBytes : Nat := 1024 * 1024
def luaMaxAccessExpressionBytes : Nat := 4096
def luaMaxManifestDiagnosticBytes : Nat := 4096

/-- The largest `lua_Integer`. -/
def maxLuaInteger : UInt64 := 0x7fffffffffffffff

/-! ## Bindings and grants -/

structure LuaModelBindingMetadata where
  readSchema : LuaValueSchema
  writeSchema : LuaValueSchema
  description : Bytes

/-- A registered binding, as far as a scope capture uses it. -/
structure Binding (C : Type) where
  scriptName : Bytes
  type : ComponentType
  encode : C → Except Failure LuaValue
  metadata : Option LuaModelBindingMetadata

structure LuaScopeGrant where
  scriptTypeName : Bytes
  componentName : Bytes
  mode : ComponentAccessMode
deriving DecidableEq

/-- `resolveTarget` of `make_binding`. -/
def Binding.resolveTarget {C : Type} (binding : Binding C) (w : World C) (name : Bytes) :
    Except Failure (Option ComponentSlotId) :=
  if !w.components.hasComponentNamed binding.type name then .ok none
  else do
    let slot ← w.components.componentSlot binding.type name
    return some slot

/-- `encodeTarget` of `make_binding`. -/
def Binding.encodeTarget {C : Type} (binding : Binding C) (w : World C) (slot : ComponentSlotId) :
    Except Failure LuaValue := do
  match ← w.components.resolveComponent binding.type slot with
  | none => .error (.runtimeError "component snapshot is unavailable")
  | some component => binding.encode component

/-! ## Manifests -/

inductive LuaManifestErrorCode where
  | invalidBehavior
  | snapshotUnavailable
  | schemaMismatch
  | limitExceeded
  | hostError
  | invalidGrant
deriving DecidableEq, Repr

structure LuaManifestError where
  code : LuaManifestErrorCode
  diagnostic : Bytes
deriving DecidableEq, Repr

structure LuaManifestCapability where
  scriptTypeName : Bytes
  componentName : Bytes
  accessExpression : Bytes
  mode : ComponentAccessMode
  description : Bytes
  readSchema : Option LuaValueSchema
  readValue : Option LuaValue
  writeSchema : Option LuaValueSchema

structure CaptureEntry where
  bindingIndex : Nat
  type : ComponentTypeId
  slot : ComponentSlotId
deriving DecidableEq

/-- A capture of kind `ProspectiveScope`: it has no behavior and no access revision. -/
structure LuaManifestCapture where
  worldInstance : UInt64
  runnerId : UInt64
  limits : LuaExecutionLimits
  entries : List CaptureEntry

structure LuaCapabilityManifest where
  nowMs : UInt64
  capabilities : List LuaManifestCapability
  capture : LuaManifestCapture
  logicalBytes : Nat

/-- How a call ends early. -/
inductive Stop where
  | returned (error : LuaManifestError)
  | thrown (failure : Failure)

abbrev Capture := Except Stop

/-- `...` marks a diagnostic that was cut. -/
def boundedL0Diagnostic (diagnostic : Bytes) : Bytes :=
  if diagnostic.length ≤ luaMaxManifestDiagnosticBytes then diagnostic
  else diagnostic.take (luaMaxManifestDiagnosticBytes - 3) ++ utf8 "..."

def manifestFailure {α : Type} (code : LuaManifestErrorCode) (message : Bytes) : Capture α :=
  .error (.returned ⟨code, boundedL0Diagnostic message⟩)

def limitError {α : Type} (diagnostic : String) : Capture α :=
  manifestFailure .limitExceeded (utf8 ("Lua capability manifest: " ++ diagnostic))

def logicalLimitError {α : Type} : Capture α := limitError "manifest exceeds 1 MiB logical bytes"

/-! ## Logical bytes -/

def authoringNotes : List String := [
  "Each run executes in a fresh Lua VM; no state persists between runs.",
  "The host fixes the owner behavior and the time (now_ms); scripts cannot choose either.",
  "Lifecycle callbacks must use named proposals (a stable `name`).",
  "Proposal lifetime is persistent by default (`lifetime = \"persistent\"`) or lasts until " ++
    "now_ms + `duration_ms` (until-time).",
  "An accepted proposal is not a claim of physical success.",
  "Lua keeps integer and float distinct: 1 is an Integer and 1.0 is a Number.",
  "A literal \x7b\x7d is an Object. Host-encoded arrays keep a private array marker and " ++
    "round-trip unchanged, but Lua has no constructor for a new empty array."]

def logicalScalarBytes : Nat := 8
def logicalFlagBytes : Nat := 1
def logicalElementBytes : Nat := 8
def manifestFields : Nat := 5
def limitSizeFields : Nat := 11
def limitFlagFields : Nat := 1
def capabilityFields : Nat := 8
def capabilityOptionalFields : Nat := 3

def capabilityFixedBytes : Nat :=
  logicalElementBytes + capabilityFields * logicalElementBytes + logicalScalarBytes +
    capabilityOptionalFields * logicalFlagBytes

def manifestFixedBytes : Nat :=
  manifestFields * logicalElementBytes + luaAuthoringContract.length + logicalScalarBytes +
    (limitSizeFields + limitFlagFields) * logicalElementBytes +
    limitSizeFields * logicalScalarBytes + limitFlagFields * logicalFlagBytes +
    (authoringNotes.map fun note => logicalElementBytes + (utf8 note).length).sum

/-- `LogicalBudget::add`. -/
def budgetAdd (used bytes : Nat) : Option Nat :=
  if bytes > luaManifestMaxLogicalBytes - used then none else some (used + bytes)

/-- `!budget.add(bytes)` ends the capture. -/
def charge (used bytes : Nat) : Capture Nat :=
  match budgetAdd used bytes with
  | none => logicalLimitError
  | some used => .ok used

/-- The bytes of a value that is no container. -/
def scalarBytes : LuaValue → Nat
  | .boolean _ => logicalFlagBytes
  | .string text => text.length
  | _ => logicalScalarBytes

mutual

/-- `count_value`: the nodes and the used budget after it. -/
def countValue : LuaValue → Nat → Nat → Capture (Nat × Nat)
  | value, nodes, used =>
    if nodes + 1 > luaMaxValueNodes then limitError "manifest exceeds 16384 copied value nodes"
    else
      match value with
      | .array items => countItems items (nodes + 1) used
      | .table entries => countEntries entries (nodes + 1) used
      | value => do return (nodes + 1, ← charge used (scalarBytes value))

def countItems : List LuaValue → Nat → Nat → Capture (Nat × Nat)
  | [], nodes, used => .ok (nodes, used)
  | item :: rest, nodes, used => do
      let used ← charge used logicalElementBytes
      let (nodes, used) ← countValue item nodes used
      countItems rest nodes used

def countEntries : List (Bytes × LuaValue) → Nat → Nat → Capture (Nat × Nat)
  | [], nodes, used => .ok (nodes, used)
  | (key, field) :: rest, nodes, used => do
      let used ← charge used logicalElementBytes
      let used ← charge used key.length
      let (nodes, used) ← countValue field nodes used
      countEntries rest nodes used

end

/-! ## The builder -/

structure Builder where
  items : List (LuaManifestCapability × CaptureEntry)
  valueNodes : Nat
  descriptionBytes : Nat
  logicalBytes : Nat

def Builder.initial : Builder := ⟨[], 0, 0, manifestFixedBytes⟩

/-- The parts of a capability that are charged besides its value. -/
def chargedParts (capability : LuaManifestCapability) (expression : Bytes) : List Nat :=
  [capabilityFixedBytes, capability.scriptTypeName.length, capability.componentName.length,
    expression.length, capability.description.length,
    (capability.readSchema.map fun schema => schema.totals.logicalBytes).getD 0,
    (capability.writeSchema.map fun schema => schema.totals.logicalBytes).getD 0]

/-- The description bytes of a capability and its schemas. -/
def describedBytes (capability : LuaManifestCapability) : Nat :=
  capability.description.length +
    (capability.readSchema.map fun schema => schema.totals.descriptionBytes).getD 0 +
    (capability.writeSchema.map fun schema => schema.totals.descriptionBytes).getD 0

/-- The count of a capability's value, if it has one. -/
def countRead (value : Option LuaValue) (nodes used : Nat) : Capture (Nat × Nat) :=
  match value with
  | none => .ok (nodes, used)
  | some value => countValue value nodes used

/-- `LuaCapabilityManifest::Builder::add`. -/
def Builder.add (builder : Builder) (capability : LuaManifestCapability) (entry : CaptureEntry) :
    Capture Builder :=
  if capability.scriptTypeName.length > luaMaxNameBytes then
    limitError "script type name exceeds 256 bytes"
  else if capability.componentName.length > luaMaxNameBytes then
    limitError "component name exceeds 256 bytes"
  else if builder.items.length ≥ luaManifestMaxCapabilities then
    limitError "manifest exceeds 128 capabilities"
  else
    let expression := accessExpression capability.scriptTypeName capability.componentName
    if expression.length > luaMaxAccessExpressionBytes then
      limitError "access expression exceeds 4096 bytes"
    else do
      let (nodes, used) ← countRead capability.readValue builder.valueNodes builder.logicalBytes
      let descriptions := describedBytes capability
      if descriptions > luaManifestMaxDescriptionBytes -
          min builder.descriptionBytes luaManifestMaxDescriptionBytes then
        limitError "manifest descriptions exceed 65536 bytes"
      else do
        let used ← (chargedParts capability expression).foldlM charge used
        return {
          items := builder.items ++ [({ capability with accessExpression := expression }, entry)]
          valueNodes := nodes
          descriptionBytes := builder.descriptionBytes + descriptions
          logicalBytes := used }

/-- The order of the capabilities. -/
def capabilityKey (capability : LuaManifestCapability) : Bytes ×ₗ Bytes :=
  toLex (capability.scriptTypeName, capability.componentName)

/-- `LuaCapabilityManifest::Builder::finish`. -/
def Builder.finish (builder : Builder) (nowMs worldInstance runnerId : UInt64)
    (limits : LuaExecutionLimits) : LuaCapabilityManifest :=
  let items := builder.items.insertionSort fun left right =>
    capabilityKey left.1 ≤ capabilityKey right.1
  { nowMs
    capabilities := items.map Prod.fst
    capture := { worldInstance, runnerId, limits, entries := items.map Prod.snd }
    logicalBytes := builder.logicalBytes }

/-! ## The capture -/

/-- A runner, as far as a scope capture uses it. -/
structure ManifestRunner (C : Type) where
  bindings : List (Binding C)
  runnerId : UInt64
  limits : LuaExecutionLimits
  started : Bool

section Capture

variable {C : Type} (sizeofLuaValue : UInt64) (runner : ManifestRunner C) (w : World C)

/-- An exception goes through. -/
def rethrown {α : Type} (result : Except Failure α) : Capture α :=
  match result with
  | .ok a => .ok a
  | .error e => .error (.thrown e)

def grantText (index : Nat) : Bytes := utf8 "grants[" ++ decimal index ++ utf8 "] "

/-- An earlier grant has the same target. -/
def duplicates (earlier : List LuaScopeGrant) (grant : LuaScopeGrant) : Bool :=
  earlier.any fun other => decide (other.scriptTypeName = grant.scriptTypeName) &&
    decide (other.componentName = grant.componentName)

/-- `admit_grant` for the grant that follows `earlier`: the binding's index, the binding, its
    metadata and the slot. -/
def admitGrant (earlier : List LuaScopeGrant) (grant : LuaScopeGrant) :
    Capture (Nat × Binding C × LuaModelBindingMetadata × ComponentSlotId) :=
  let fails {α : Type} (code : LuaManifestErrorCode) (message : String) : Capture α :=
    manifestFailure code (grantText earlier.length ++ utf8 message)
  if grant.scriptTypeName.isEmpty then fails .invalidGrant "has an empty script type name"
  else if grant.componentName.isEmpty then fails .invalidGrant "has an empty component name"
  else if grant.scriptTypeName.length > luaMaxNameBytes then
    fails .limitExceeded "script type name exceeds 256 bytes"
  else if grant.componentName.length > luaMaxNameBytes then
    fails .limitExceeded "component name exceeds 256 bytes"
  else if grant.mode = .unknown then fails .invalidGrant "has an invalid access mode"
  else if duplicates earlier grant then
    fails .invalidGrant "duplicates an earlier grant target"
  else
    match runner.bindings.findIdx? fun binding => binding.scriptName = grant.scriptTypeName with
    | none => fails .invalidGrant "names an unknown script type"
    | some bindingIndex =>
        match runner.bindings[bindingIndex]? with
        | none => fails .invalidGrant "names an unknown script type"
        | some binding =>
            match binding.metadata with
            | none => fails .invalidGrant "names a type registered without metadata"
            | some metadata => do
                match ← rethrown (binding.resolveTarget w grant.componentName) with
                | none => fails .invalidGrant "names a missing component"
                | some slot => return (bindingIndex, binding, metadata, slot)

/-- The copy of a readable component's value, with the buffered bytes after it. -/
def captureValue (index : Nat) (binding : Binding C) (metadata : LuaModelBindingMetadata)
    (slot : ComponentSlotId) (bufferedBytes : Nat) : Capture (LuaValue × Nat) :=
  match binding.encodeTarget w slot with
  | .error e =>
      manifestFailure .snapshotUnavailable (grantText index ++
        if e.type = .foreign then utf8 "snapshot is unavailable"
        else utf8 "snapshot is unavailable: " ++ e.what)
  | .ok value =>
      match measureLuaValue sizeofLuaValue runner.limits value 0 ⟨0, bufferedBytes⟩ with
      | .error e => manifestFailure .limitExceeded e.diagnostic
      | .ok charged =>
          match (validateLuaValue metadata.readSchema value).error with
          | some e => manifestFailure .schemaMismatch (utf8 "read schema: " ++ e.diagnostic)
          | none => .ok (value, charged.bufferedBytes)

/-- A write-only grant performs no read. -/
def captureRead (index : Nat) (mode : ComponentAccessMode) (binding : Binding C)
    (metadata : LuaModelBindingMetadata) (slot : ComponentSlotId) (bufferedBytes : Nat) :
    Capture (Option LuaValue × Nat) :=
  if mode = .write then .ok (none, bufferedBytes)
  else
    match captureValue sizeofLuaValue runner w index binding metadata slot bufferedBytes with
    | .error e => .error e
    | .ok (value, bufferedBytes) => .ok (some value, bufferedBytes)

/-- The capability of a grant; the builder writes its access expression. -/
def grantedCapability (grant : LuaScopeGrant) (binding : Binding C)
    (metadata : LuaModelBindingMetadata) (readValue : Option LuaValue) : LuaManifestCapability where
  scriptTypeName := binding.scriptName
  componentName := grant.componentName
  accessExpression := []
  mode := grant.mode
  description := metadata.description
  readSchema := if grant.mode = .write then none else some metadata.readSchema
  readValue := readValue
  writeSchema := if grant.mode = .read then none else some metadata.writeSchema

/-- The loop body of `scope_manifest`. -/
def captureGrant (earlier : List LuaScopeGrant) (grant : LuaScopeGrant)
    (state : Builder × Nat) : Capture (Builder × Nat) := do
  let (bindingIndex, binding, metadata, slot) ← admitGrant runner w earlier grant
  let (readValue, bufferedBytes) ←
    captureRead sizeofLuaValue runner w earlier.length grant.mode binding metadata slot state.2
  let builder ← state.1.add (grantedCapability grant binding metadata readValue)
    ⟨bindingIndex, binding.type.id, slot⟩
  return (builder, bufferedBytes)

def captureGrants : List LuaScopeGrant → List LuaScopeGrant → Builder × Nat →
    Capture (Builder × Nat)
  | _, [], state => .ok state
  | earlier, grant :: rest, state => do
      let state ← captureGrant sizeofLuaValue runner w earlier grant state
      captureGrants (earlier ++ [grant]) rest state

/-- The `try` block of `scope_manifest`. -/
def captureScope (grants : List LuaScopeGrant) (now : UInt64) : Capture LuaCapabilityManifest :=
  if now > maxLuaInteger then
    manifestFailure .hostError (utf8 "Lua scope manifest time is outside the Lua integer range")
  else if grants.isEmpty then
    manifestFailure .invalidGrant (utf8 "Lua scope manifest requires at least one grant")
  else if grants.length > luaManifestMaxCapabilities then
    manifestFailure .limitExceeded (utf8 "Lua scope manifest has too many grants")
  else do
    let (builder, _) ← captureGrants sizeofLuaValue runner w [] grants (.initial, 0)
    return builder.finish now w.instanceId runner.runnerId runner.limits

/-- `scope_manifest`: the result, and the runner after the call. -/
def scopeManifest (grants : List LuaScopeGrant) (now : UInt64) :
    Except LuaManifestError LuaCapabilityManifest × ManifestRunner C :=
  match captureScope sizeofLuaValue runner w grants now with
  | .ok manifest => (.ok manifest, { runner with started := true })
  | .error (.returned error) => (.error error, runner)
  | .error (.thrown failure) =>
      (.error ⟨.hostError, boundedL0Diagnostic
        (if failure.type = .foreign then utf8 "unknown Lua scope manifest host error"
        else failure.what)⟩, runner)

end Capture

/-! ## What a value costs -/

mutual

/-- The bytes `measure_lua_value` charges for a value. -/
def bufferedCost (size : Nat) : LuaValue → Nat
  | .string text => size + text.length
  | .array items => size + bufferedCostItems size items
  | .table entries => size + bufferedCostEntries size entries
  | _ => size

def bufferedCostItems (size : Nat) : List LuaValue → Nat
  | [] => 0
  | v :: rest => bufferedCost size v + bufferedCostItems size rest

def bufferedCostEntries (size : Nat) : List (Bytes × LuaValue) → Nat
  | [] => 0
  | (key, v) :: rest => key.length + (bufferedCost size v + bufferedCostEntries size rest)

end

/-- The step charges a fixed number of bytes, whatever has been charged before it. -/
def Shifts (limits : LuaExecutionLimits) (cost : Nat)
    (step : Charged → Except ExecutionFailure Charged) : Prop :=
  ∀ entries bytes charged, step ⟨entries, bytes⟩ = .ok charged →
    charged.bufferedBytes = bytes + cost ∧
      (bytes ≤ limits.maxBufferedValueBytes.toNat →
        charged.bufferedBytes ≤ limits.maxBufferedValueBytes.toNat) ∧
      ∀ bytes', bytes' + cost ≤ limits.maxBufferedValueBytes.toNat →
        step ⟨entries, bytes'⟩ = .ok ⟨charged.entries, bytes' + cost⟩

section Shifts

variable {limits : LuaExecutionLimits} {sizeofLuaValue : UInt64}

theorem shifts_pure : Shifts limits 0 fun charged => .ok charged := by
  rintro entries bytes charged h
  cases h
  exact ⟨rfl, id, fun _ _ => rfl⟩

theorem shifts_failure {cost : Nat} {diagnostic : String} :
    Shifts limits cost fun _ => hostFailure diagnostic := by
  rintro entries bytes charged h
  cases h

theorem shifts_bind {a b : Nat} {f g : Charged → Except ExecutionFailure Charged}
    (hf : Shifts limits a f) (hg : Shifts limits b g) :
    Shifts limits (a + b) fun charged => f charged >>= g := by
  intro entries bytes charged h
  obtain ⟨⟨middle, bytes₁⟩, hm, h⟩ := bind_eq_ok h
  obtain ⟨rfl, hle, hagain⟩ := hf _ _ _ hm
  obtain ⟨hbytes, hle', hagain'⟩ := hg _ _ _ h
  refine ⟨by omega, fun hb => hle' (hle hb), fun bytes' hb => ?_⟩
  have hfirst := hagain bytes' (by omega)
  have hsecond := hagain' (bytes' + a) (by omega)
  dsimp only at hfirst ⊢
  rw [hfirst, ok_bind, hsecond, Nat.add_assoc]

theorem shifts_ite {cost : Nat} {c : Prop} [Decidable c]
    {f g : Charged → Except ExecutionFailure Charged} (hf : c → Shifts limits cost f)
    (hg : ¬c → Shifts limits cost g) :
    Shifts limits cost fun charged => if c then f charged else g charged := by
  by_cases h : c
  · simpa only [h, if_true] using hf h
  · simpa only [h, if_false] using hg h

/-- Bytes for which there is room are charged. -/
theorem chargeBytes_eq {amount entries bytes : Nat}
    (hle : bytes + amount ≤ limits.maxBufferedValueBytes.toNat) :
    chargeBytes limits amount ⟨entries, bytes⟩ = .ok ⟨entries, bytes + amount⟩ := by
  have hmax := limits.maxBufferedValueBytes.toNat_lt
  have hfits : ¬(amount > limits.maxBufferedValueBytes.toNat ∨
      bytes > limits.maxBufferedValueBytes.toNat - amount) := by omega
  have hwrap : wrapSize (bytes + amount) = bytes + amount := Nat.mod_eq_of_lt (by omega)
  simp only [chargeBytes, consumeBufferedBytes, hfits, if_false, hwrap]

theorem shifts_chargeBytes (amount : Nat) : Shifts limits amount (chargeBytes limits amount) := by
  intro entries bytes charged h
  have hle : bytes + amount ≤ limits.maxBufferedValueBytes.toNat := by
    by_contra hgt
    have hover : amount > limits.maxBufferedValueBytes.toNat ∨
        bytes > limits.maxBufferedValueBytes.toNat - amount := by omega
    simp only [chargeBytes, consumeBufferedBytes, hover, if_true] at h
    cases h
  rw [chargeBytes_eq hle] at h
  cases h
  exact ⟨rfl, fun _ => hle, fun _ h' => chargeBytes_eq h'⟩

theorem shifts_countEntry : Shifts limits 0 (countEntry limits) := by
  intro entries bytes charged h
  unfold countEntry at h ⊢
  dsimp only at h ⊢
  split at h
  · cases h
  · next hle =>
      cases h
      refine ⟨rfl, id, fun bytes' _ => ?_⟩
      rw [if_neg hle]
      rfl

mutual

theorem shifts_measure : ∀ (value : LuaValue) (depth : Nat),
    Shifts limits (bufferedCost sizeofLuaValue.toNat value) fun charged =>
      measureLuaValue sizeofLuaValue limits value depth charged
  | value, depth => by
      have hnode := @shifts_chargeBytes limits sizeofLuaValue.toNat
      unfold measureLuaValue
      refine shifts_ite (fun _ => shifts_failure) fun _ => ?_
      cases value with
      | boolean | integer | number => exact shifts_bind hnode shifts_pure
      | string text =>
          exact shifts_bind hnode
            (shifts_ite (fun _ => shifts_failure) fun _ => shifts_chargeBytes _)
      | array items => exact shifts_bind hnode (shifts_measureItems items depth)
      | table entries => exact shifts_bind hnode (shifts_measureEntries entries depth)

theorem shifts_measureItems : ∀ (items : List LuaValue) (depth : Nat),
    Shifts limits (bufferedCostItems sizeofLuaValue.toNat items) fun charged =>
      measureItems sizeofLuaValue limits items depth charged
  | [], depth => by
      unfold measureItems
      exact shifts_pure
  | v :: rest, depth => by
      have hrest := shifts_bind (shifts_measure v (depth + 1)) (shifts_measureItems rest depth)
      have hall := shifts_bind shifts_countEntry hrest
      rw [Nat.zero_add] at hall
      unfold measureItems
      exact hall

theorem shifts_measureEntries : ∀ (entries : List (Bytes × LuaValue)) (depth : Nat),
    Shifts limits (bufferedCostEntries sizeofLuaValue.toNat entries) fun charged =>
      measureEntries sizeofLuaValue limits entries depth charged
  | [], depth => by
      unfold measureEntries
      exact shifts_pure
  | (key, v) :: rest, depth => by
      have hrest := shifts_bind (shifts_measure v (depth + 1)) (shifts_measureEntries rest depth)
      have hall := shifts_bind shifts_countEntry
        (shifts_bind (shifts_chargeBytes key.length) hrest)
      rw [Nat.zero_add] at hall
      unfold measureEntries
      exact shifts_ite (fun _ => shifts_failure) fun _ => hall

end

end Shifts

mutual

/-- The logical bytes of a value. -/
def logicalCost : LuaValue → Nat
  | .array items => logicalCostItems items
  | .table entries => logicalCostEntries entries
  | value => scalarBytes value

def logicalCostItems : List LuaValue → Nat
  | [] => 0
  | v :: rest => logicalElementBytes + (logicalCost v + logicalCostItems rest)

def logicalCostEntries : List (Bytes × LuaValue) → Nat
  | [] => 0
  | (key, v) :: rest =>
      logicalElementBytes + (key.length + (logicalCost v + logicalCostEntries rest))

end

theorem charge_ok_iff {used bytes used' : Nat} (h : used ≤ luaManifestMaxLogicalBytes) :
    charge used bytes = .ok used' ↔
      used' = used + bytes ∧ used' ≤ luaManifestMaxLogicalBytes := by
  unfold charge budgetAdd
  split
  · next hnone =>
      split at hnone
      · refine ⟨nofun, fun h' => ?_⟩
        omega
      · cases hnone
  · next total hsome =>
      split at hsome
      · cases hsome
      · cases hsome
        simp only [Except.ok.injEq]
        omega

theorem foldlM_charge_ok_iff {parts : List Nat} {used used' : Nat}
    (h : used ≤ luaManifestMaxLogicalBytes) :
    parts.foldlM charge used = .ok used' ↔
      used' = used + parts.sum ∧ used' ≤ luaManifestMaxLogicalBytes := by
  induction parts generalizing used with
  | nil =>
      rw [List.foldlM_nil, List.sum_nil]
      show Except.ok used = Except.ok used' ↔ _
      simp only [Except.ok.injEq]
      omega
  | cons part parts ih =>
      rw [List.foldlM_cons, List.sum_cons]
      constructor
      · intro hrun
        obtain ⟨middle, hm, hrun⟩ := bind_eq_ok hrun
        obtain ⟨rfl, hle⟩ := (charge_ok_iff h).mp hm
        have := (ih hle).mp hrun
        omega
      · rintro ⟨rfl, hle⟩
        have hm := (@charge_ok_iff used part (used + part) h).mpr ⟨rfl, by omega⟩
        rw [hm, ok_bind]
        exact (ih (by omega)).mpr ⟨by omega, hle⟩

/-- The counters after a value: its nodes and its logical bytes have been added. -/
def CountedValue (nodes used valueNodes cost : Nat) (result : Nat × Nat) : Prop :=
  result = (nodes + valueNodes, used + cost) ∧ nodes + valueNodes ≤ luaMaxValueNodes ∧
    used + cost ≤ luaManifestMaxLogicalBytes

/-- A charge before the rest of a count. -/
theorem counted_bind {nodes used bytes valueNodes cost : Nat} {result : Nat × Nat}
    {f : Nat → Capture (Nat × Nat)} (hu : used ≤ luaManifestMaxLogicalBytes)
    (hf : ∀ used', used' ≤ luaManifestMaxLogicalBytes →
      (f used' = .ok result ↔ CountedValue nodes used' valueNodes cost result)) :
    (charge used bytes >>= f) = .ok result ↔
      CountedValue nodes used valueNodes (bytes + cost) result := by
  constructor
  · intro h
    obtain ⟨middle, hm, h⟩ := bind_eq_ok h
    obtain ⟨rfl, hle⟩ := (charge_ok_iff hu).mp hm
    have := (hf _ hle).mp h
    rwa [CountedValue, Nat.add_assoc] at this
  · intro h
    have hle : used + bytes ≤ luaManifestMaxLogicalBytes := by
      have := h.2.2
      omega
    rw [(charge_ok_iff hu).mpr ⟨rfl, hle⟩, ok_bind, hf _ hle, CountedValue, Nat.add_assoc]
    exact h

/-- Two counts, one after the other. -/
theorem counted_pair {nodes used nodes₁ cost₁ nodes₂ cost₂ : Nat} {result : Nat × Nat}
    {f : Capture (Nat × Nat)} {g : Nat → Nat → Capture (Nat × Nat)}
    (hf : ∀ middle, f = .ok middle ↔ CountedValue nodes used nodes₁ cost₁ middle)
    (hg : ∀ n u, n ≤ luaMaxValueNodes → u ≤ luaManifestMaxLogicalBytes →
      (g n u = .ok result ↔ CountedValue n u nodes₂ cost₂ result)) :
    (f >>= fun middle => g middle.1 middle.2) = .ok result ↔
      CountedValue nodes used (nodes₁ + nodes₂) (cost₁ + cost₂) result := by
  constructor
  · intro h
    obtain ⟨middle, hm, h⟩ := bind_eq_ok h
    obtain ⟨rfl, hn, hu⟩ := (hf middle).mp hm
    have := (hg _ _ hn hu).mp h
    rwa [CountedValue, Nat.add_assoc, Nat.add_assoc] at this
  · intro h
    have hn : nodes + nodes₁ ≤ luaMaxValueNodes := by
      have := h.2.1
      omega
    have hu : used + cost₁ ≤ luaManifestMaxLogicalBytes := by
      have := h.2.2
      omega
    rw [(hf _).mpr ⟨rfl, hn, hu⟩, ok_bind, hg _ _ hn hu, CountedValue, Nat.add_assoc, Nat.add_assoc]
    exact h

theorem countScalar {value : LuaValue} {nodes used : Nat} {result : Nat × Nat}
    (hn : nodes + 1 ≤ luaMaxValueNodes) (hu : used ≤ luaManifestMaxLogicalBytes) :
    (do return (nodes + 1, ← charge used (scalarBytes value)) : Capture (Nat × Nat)) =
        .ok result ↔ CountedValue nodes used 1 (scalarBytes value) result := by
  constructor
  · intro h
    obtain ⟨middle, hm, h⟩ := bind_eq_ok h
    cases h
    obtain ⟨rfl, hle⟩ := (charge_ok_iff hu).mp hm
    exact ⟨rfl, hn, hle⟩
  · rintro ⟨rfl, _, hle⟩
    rw [(charge_ok_iff hu).mpr ⟨rfl, hle⟩]
    rfl

mutual

theorem countValue_ok_iff : ∀ (value : LuaValue) (nodes used : Nat) (result : Nat × Nat),
    nodes ≤ luaMaxValueNodes → used ≤ luaManifestMaxLogicalBytes →
      (countValue value nodes used = .ok result ↔
        CountedValue nodes used value.nodes (logicalCost value) result)
  | value, nodes, used, result, hn, hu => by
      have hpos := value.one_le_nodes
      unfold countValue
      split
      · next hlimit =>
          refine ⟨nofun, fun ⟨_, hle, _⟩ => ?_⟩
          omega
      next hlimit =>
      have hn : nodes + 1 ≤ luaMaxValueNodes := Nat.le_of_not_gt hlimit
      cases value with
      | array items =>
          rw [LuaValue.nodes, logicalCost, CountedValue, ← Nat.add_assoc]
          exact countItems_ok_iff items (nodes + 1) used result hn hu
      | table entries =>
          rw [LuaValue.nodes, logicalCost, CountedValue, ← Nat.add_assoc]
          exact countEntries_ok_iff entries (nodes + 1) used result hn hu
      | boolean | integer | number | string => exact countScalar hn hu

theorem countItems_ok_iff : ∀ (items : List LuaValue) (nodes used : Nat) (result : Nat × Nat),
    nodes ≤ luaMaxValueNodes → used ≤ luaManifestMaxLogicalBytes →
      (countItems items nodes used = .ok result ↔
        CountedValue nodes used (LuaValue.nodesItems items) (logicalCostItems items) result)
  | [], nodes, used, result, hn, hu => by
      simp only [countItems, Except.ok.injEq, CountedValue, LuaValue.nodesItems, logicalCostItems,
        Nat.add_zero, hn, hu, and_true]
      exact eq_comm
  | v :: rest, nodes, used, result, hn, hu => by
      rw [countItems, LuaValue.nodesItems, logicalCostItems]
      refine counted_bind hu fun used₁ hu₁ => counted_pair ?_ ?_
      · exact fun middle => countValue_ok_iff v nodes used₁ middle hn hu₁
      · exact fun n u hn hu => countItems_ok_iff rest n u result hn hu

theorem countEntries_ok_iff : ∀ (entries : List (Bytes × LuaValue)) (nodes used : Nat)
    (result : Nat × Nat), nodes ≤ luaMaxValueNodes → used ≤ luaManifestMaxLogicalBytes →
      (countEntries entries nodes used = .ok result ↔
        CountedValue nodes used (LuaValue.nodesEntries entries) (logicalCostEntries entries) result)
  | [], nodes, used, result, hn, hu => by
      simp only [countEntries, Except.ok.injEq, CountedValue, LuaValue.nodesEntries, logicalCostEntries,
        Nat.add_zero, hn, hu, and_true]
      exact eq_comm
  | (key, v) :: rest, nodes, used, result, hn, hu => by
      rw [countEntries, LuaValue.nodesEntries, logicalCostEntries]
      refine counted_bind hu fun used₁ hu₁ => counted_bind hu₁ fun used₂ hu₂ => counted_pair ?_ ?_
      · exact fun middle => countValue_ok_iff v nodes used₂ middle hn hu₂
      · exact fun n u hn hu => countEntries_ok_iff rest n u result hn hu

end

/-! ## What a grant contributes -/

/-- What a capability is charged: its fixed parts and its value. -/
def capabilityCharge (capability : LuaManifestCapability) : Nat :=
  (chargedParts capability capability.accessExpression).sum +
    (capability.readValue.map logicalCost).getD 0

/-- One grant's share of a capture. -/
structure Contribution where
  capability : LuaManifestCapability
  entry : CaptureEntry
  buffered : Nat

namespace Contribution

def nodes (k : Contribution) : Nat := (k.capability.readValue.map LuaValue.nodes).getD 0

/-- The capture once the grant has been taken up. -/
def addTo (k : Contribution) (state : Builder × Nat) : Builder × Nat :=
  ({ items := state.1.items ++ [(k.capability, k.entry)]
     valueNodes := state.1.valueNodes + k.nodes
     descriptionBytes := state.1.descriptionBytes + describedBytes k.capability
     logicalBytes := state.1.logicalBytes + capabilityCharge k.capability },
    state.2 + k.buffered)

end Contribution

/-- Every total is within its limit. -/
structure WithinTotals (limits : LuaExecutionLimits) (state : Builder × Nat) : Prop where
  items : state.1.items.length ≤ luaManifestMaxCapabilities
  valueNodes : state.1.valueNodes ≤ luaMaxValueNodes
  descriptionBytes : state.1.descriptionBytes ≤ luaManifestMaxDescriptionBytes
  logicalBytes : state.1.logicalBytes ≤ luaManifestMaxLogicalBytes
  buffered : state.2 ≤ limits.maxBufferedValueBytes.toNat

theorem WithinTotals.of_addTo {limits : LuaExecutionLimits} {k : Contribution}
    {state : Builder × Nat} (h : WithinTotals limits (k.addTo state)) :
    WithinTotals limits state := by
  obtain ⟨h₁, h₂, h₃, h₄, h₅⟩ := h
  simp only [Contribution.addTo, List.length_append, List.length_singleton] at h₁ h₂ h₃ h₄ h₅
  exact ⟨by omega, by omega, by omega, by omega, by omega⟩

/-- The capability as the builder keeps it. -/
def expressed (capability : LuaManifestCapability) : LuaManifestCapability :=
  { capability with
    accessExpression :=
      accessExpression capability.scriptTypeName capability.componentName }

/-- The checks of `add` that do not look at the totals. -/
structure Admissible (capability : LuaManifestCapability) : Prop where
  typeName : capability.scriptTypeName.length ≤ luaMaxNameBytes
  componentName : capability.componentName.length ≤ luaMaxNameBytes
  expression : (accessExpression capability.scriptTypeName capability.componentName).length ≤
    luaMaxAccessExpressionBytes

theorem countRead_ok_iff {value : Option LuaValue} {nodes used : Nat} {result : Nat × Nat}
    (hn : nodes ≤ luaMaxValueNodes) (hu : used ≤ luaManifestMaxLogicalBytes) :
    countRead value nodes used = .ok result ↔
      CountedValue nodes used ((value.map LuaValue.nodes).getD 0)
        ((value.map logicalCost).getD 0) result := by
  unfold countRead
  cases value with
  | none =>
      simp only [Option.map_none, Option.getD_none, CountedValue, Nat.add_zero, hn, hu, and_true,
        Except.ok.injEq]
      exact eq_comm
  | some value => exact countValue_ok_iff value nodes used result hn hu

theorem addTo_eq_iff {builder builder' : Builder} {buffered : Nat}
    {capability : LuaManifestCapability} {entry : CaptureEntry} :
    (builder', buffered) = (Contribution.mk capability entry 0).addTo (builder, buffered) ↔
      builder' = {
        items := builder.items ++ [(capability, entry)]
        valueNodes := builder.valueNodes + (capability.readValue.map LuaValue.nodes).getD 0
        descriptionBytes := builder.descriptionBytes + describedBytes capability
        logicalBytes := builder.logicalBytes + capabilityCharge capability } := by
  simp only [Contribution.addTo, Contribution.nodes, Nat.add_zero, Prod.mk.injEq, and_true]

/-- `Builder::add` takes a capability up if and only if it is admissible and the totals have room
    for it. -/
theorem add_ok_iff {limits : LuaExecutionLimits} {builder builder' : Builder} {buffered : Nat}
    {capability : LuaManifestCapability} {entry : CaptureEntry}
    (h : WithinTotals limits (builder, buffered)) :
    builder.add capability entry = .ok builder' ↔
      Admissible capability ∧
        (builder', buffered) = (Contribution.mk (expressed capability) entry 0).addTo
          (builder, buffered) ∧ WithinTotals limits (builder', buffered) := by
  obtain ⟨hitems, hnodes, hdescriptions, hlogical, hbuffered⟩ := h
  dsimp only at hitems hnodes hdescriptions hlogical hbuffered
  have hcharge : capabilityCharge (expressed capability) =
      (capability.readValue.map logicalCost).getD 0 + (chargedParts capability
        (accessExpression capability.scriptTypeName capability.componentName)).sum :=
    Nat.add_comm _ _
  rw [addTo_eq_iff]
  unfold Builder.add
  split
  · next hlong =>
      refine ⟨nofun, fun ⟨hadm, _⟩ => ?_⟩
      exact absurd hlong (Nat.not_lt.mpr hadm.typeName)
  next htype =>
  split
  · next hlong =>
      refine ⟨nofun, fun ⟨hadm, _⟩ => ?_⟩
      exact absurd hlong (Nat.not_lt.mpr hadm.componentName)
  next hcomponent =>
  split
  · next hfull =>
      refine ⟨nofun, fun ⟨_, hb, hfits⟩ => ?_⟩
      have hle := hfits.items
      rw [hb] at hle
      simp only [List.length_append, List.length_singleton] at hle
      omega
  next hroom =>
  dsimp only
  split
  · next hlong =>
      refine ⟨nofun, fun ⟨hadm, _⟩ => ?_⟩
      exact absurd hlong (Nat.not_lt.mpr hadm.expression)
  next hexpression =>
  have hadm : Admissible capability :=
    ⟨Nat.le_of_not_gt htype, Nat.le_of_not_gt hcomponent, Nat.le_of_not_gt hexpression⟩
  constructor
  · intro hrun
    obtain ⟨⟨nodes, used⟩, hcount, hrun⟩ := bind_eq_ok hrun
    obtain ⟨heq, hn, hu⟩ := (countRead_ok_iff hnodes hlogical).mp hcount
    obtain ⟨rfl, rfl⟩ := Prod.mk.inj heq
    dsimp only at hrun
    split at hrun
    · cases hrun
    next hdescribed =>
    obtain ⟨used', hparts, hrun⟩ := bind_eq_ok hrun
    obtain ⟨rfl, hle⟩ := (foldlM_charge_ok_iff hu).mp hparts
    cases hrun
    refine ⟨hadm, ?_, ⟨?_, hn, ?_, hle, hbuffered⟩⟩
    · rw [hcharge, ← Nat.add_assoc]
      rfl
    · simp only [List.length_append, List.length_singleton]
      omega
    · show builder.descriptionBytes + describedBytes capability ≤ _
      omega
  · rintro ⟨_, rfl, hfits⟩
    obtain ⟨_, hn, hd, hl, _⟩ := hfits
    dsimp only at hn hd hl
    have hd : builder.descriptionBytes + describedBytes capability ≤
        luaManifestMaxDescriptionBytes := hd
    rw [hcharge] at hl
    have hcount := (@countRead_ok_iff capability.readValue _ _ _ hnodes hlogical).mpr
      ⟨rfl, hn, by omega⟩
    have hdescribed : ¬(describedBytes capability > luaManifestMaxDescriptionBytes -
        min builder.descriptionBytes luaManifestMaxDescriptionBytes) := by omega
    have hparts := (@foldlM_charge_ok_iff (chargedParts capability
      (accessExpression capability.scriptTypeName capability.componentName))
      (builder.logicalBytes + (capability.readValue.map logicalCost).getD 0) _
      (by omega)).mpr ⟨rfl, by omega⟩
    rw [hcount, ok_bind]
    dsimp only
    rw [if_neg hdescribed, hparts, ok_bind, hcharge, ← Nat.add_assoc]
    rfl

section Contributes

variable {C : Type} {sizeofLuaValue : UInt64} {runner : ManifestRunner C} {w : World C}

/-- A grant that is admitted is admitted wherever no earlier one has its target. -/
theorem admitGrant_ok {earlier : List LuaScopeGrant} {grant : LuaScopeGrant}
    {admitted : Nat × Binding C × LuaModelBindingMetadata × ComponentSlotId}
    (h : admitGrant runner w earlier grant = .ok admitted) :
    duplicates earlier grant = false ∧ admitted.2.1.scriptName = grant.scriptTypeName ∧
      ∀ earlier', duplicates earlier' grant = false →
        admitGrant runner w earlier' grant = .ok admitted := by
  unfold admitGrant at h ⊢
  dsimp only at h ⊢
  split at h
  · cases h
  next htype =>
  split at h
  · cases h
  next hcomponent =>
  split at h
  · cases h
  next htypeLong =>
  split at h
  · cases h
  next hcomponentLong =>
  split at h
  · cases h
  next hmode =>
  split at h
  · cases h
  next hdistinct =>
  split at h
  · cases h
  next bindingIndex hindex =>
  split at h
  · cases h
  next binding hbinding =>
  split at h
  · cases h
  next metadata hmetadata =>
  have hname : binding.scriptName = grant.scriptTypeName := by
    obtain ⟨hlt, hmatch, _⟩ := List.findIdx?_eq_some_iff_getElem.mp hindex
    obtain ⟨_, hget⟩ := List.getElem?_eq_some_iff.mp hbinding
    rw [hget] at hmatch
    exact of_decide_eq_true hmatch
  refine ⟨Bool.eq_false_of_not_eq_true hdistinct, ?_, fun earlier' hdistinct' => ?_⟩
  · obtain ⟨slot, _, h⟩ := bind_eq_ok h
    cases slot with
    | none => cases h
    | some slot => cases h; exact hname
  · rw [if_neg htype, if_neg hcomponent, if_neg htypeLong, if_neg hcomponentLong, if_neg hmode,
      hdistinct', if_neg Bool.false_ne_true]
    obtain ⟨slot, hslot, h⟩ := bind_eq_ok h
    rw [hslot, ok_bind]
    cases slot with
    | none => cases h
    | some slot => exact h

/-- A value that is copied is charged the same whatever has been charged before. -/
theorem captureRead_ok {index : Nat} {mode : ComponentAccessMode} {binding : Binding C}
    {metadata : LuaModelBindingMetadata} {slot : ComponentSlotId} {buffered : Nat}
    {value : Option LuaValue} {buffered' : Nat}
    (h : captureRead sizeofLuaValue runner w index mode binding metadata slot buffered =
      .ok (value, buffered'))
    (hb : buffered ≤ runner.limits.maxBufferedValueBytes.toNat) :
    ∃ cost, buffered' = buffered + cost ∧
      buffered' ≤ runner.limits.maxBufferedValueBytes.toNat ∧
      ∀ index' other, other + cost ≤ runner.limits.maxBufferedValueBytes.toNat →
        captureRead sizeofLuaValue runner w index' mode binding metadata slot other =
          .ok (value, other + cost) := by
  unfold captureRead at h ⊢
  by_cases hmode : mode = .write
  · rw [if_pos hmode] at h
    cases h
    refine ⟨0, rfl, hb, fun _ other _ => ?_⟩
    rw [if_pos hmode]
    rfl
  · rw [if_neg hmode] at h
    split at h
    · cases h
    next copied charged hcapture =>
    cases h
    unfold captureValue at hcapture
    split at hcapture
    · cases hcapture
    next hencode =>
    split at hcapture
    · cases hcapture
    next after hmeasure =>
    split at hcapture
    · cases hcapture
    next hvalid =>
    cases hcapture
    obtain ⟨hbytes, hle, hagain⟩ := shifts_measure copied 0 _ _ _ hmeasure
    refine ⟨_, hbytes, hle hb, fun index' other hother => ?_⟩
    rw [if_neg hmode]
    unfold captureValue
    rw [hencode]
    have hmeasured := hagain other hother
    dsimp only at hmeasured ⊢
    rw [hmeasured]
    dsimp only
    rw [hvalid]

/-- What a grant contributes, wherever it stands. -/
structure Contributes (sizeofLuaValue : UInt64) (runner : ManifestRunner C) (w : World C)
    (grant : LuaScopeGrant) (k : Contribution) : Prop where
  typeName : k.capability.scriptTypeName = grant.scriptTypeName
  componentName : k.capability.componentName = grant.componentName
  step : ∀ earlier state, duplicates earlier grant = false →
    WithinTotals runner.limits (k.addTo state) →
    captureGrant sizeofLuaValue runner w earlier grant state = .ok (k.addTo state)

/-- The step of a capture: a grant that is captured contributes. -/
theorem captureGrant_ok {earlier : List LuaScopeGrant} {grant : LuaScopeGrant}
    {state state' : Builder × Nat} (hstate : WithinTotals runner.limits state)
    (h : captureGrant sizeofLuaValue runner w earlier grant state = .ok state') :
    duplicates earlier grant = false ∧ WithinTotals runner.limits state' ∧
      ∃ k, Contributes sizeofLuaValue runner w grant k ∧ state' = k.addTo state := by
  obtain ⟨⟨bindingIndex, binding, metadata, slot⟩, hadmit, h⟩ := bind_eq_ok h
  obtain ⟨⟨value, buffered'⟩, hread, h⟩ := bind_eq_ok h
  obtain ⟨builder', hadd, h⟩ := bind_eq_ok h
  cases h
  obtain ⟨hdistinct, hname, hadmitAgain⟩ := admitGrant_ok hadmit
  obtain ⟨cost, hcost, hle, hreadAgain⟩ := captureRead_ok hread hstate.buffered
  have hmid : WithinTotals runner.limits (state.1, buffered') :=
    ⟨hstate.items, hstate.valueNodes, hstate.descriptionBytes, hstate.logicalBytes, hle⟩
  obtain ⟨hadm, hbuilder, hfits⟩ := (add_ok_iff hmid).mp hadd
  refine ⟨hdistinct, hfits, ⟨expressed (grantedCapability grant binding metadata value),
    ⟨bindingIndex, binding.type.id, slot⟩, cost⟩, ⟨hname, rfl, ?_⟩, ?_⟩
  · intro other before hdistinct' hroom
    have hroomRead : before.2 + cost ≤ runner.limits.maxBufferedValueBytes.toNat := hroom.buffered
    have hbefore := hroom.of_addTo
    have hmid' : WithinTotals runner.limits (before.1, before.2 + cost) :=
      ⟨hbefore.items, hbefore.valueNodes, hbefore.descriptionBytes, hbefore.logicalBytes, hroomRead⟩
    have hadd' := (@add_ok_iff runner.limits before.1 _ (before.2 + cost)
      (grantedCapability grant binding metadata value) ⟨bindingIndex, binding.type.id, slot⟩
      hmid').mpr ⟨hadm, rfl, hroom⟩
    unfold captureGrant
    rw [hadmitAgain other hdistinct', ok_bind]
    dsimp only
    rw [hreadAgain other.length before.2 hroomRead, ok_bind]
    dsimp only
    rw [hadd', ok_bind]
    rfl
  · rw [hcost] at hbuilder
    have hfirst := (Prod.mk.inj hbuilder).1
    rw [hfirst, hcost]
    rfl

/-! ## Runs -/

/-- What a grant is for. -/
def LuaScopeGrant.target (grant : LuaScopeGrant) : Bytes × Bytes :=
  (grant.scriptTypeName, grant.componentName)

theorem duplicates_eq_false_iff {earlier : List LuaScopeGrant} {grant : LuaScopeGrant} :
    duplicates earlier grant = false ↔ grant.target ∉ earlier.map LuaScopeGrant.target := by
  simp only [duplicates, List.any_eq_false, Bool.and_eq_true, decide_eq_true_eq, List.mem_map,
    LuaScopeGrant.target, Prod.mk.injEq, not_exists, not_and]

/-- The capture once all contributions have been taken up. -/
def gathered (ks : List Contribution) (state : Builder × Nat) : Builder × Nat :=
  ks.foldl (fun state k => k.addTo state) state

theorem gathered_eq (ks : List Contribution) (state : Builder × Nat) :
    gathered ks state =
      ({ items := state.1.items ++ ks.map fun k => (k.capability, k.entry)
         valueNodes := state.1.valueNodes + (ks.map Contribution.nodes).sum
         descriptionBytes := state.1.descriptionBytes +
           (ks.map fun k => describedBytes k.capability).sum
         logicalBytes := state.1.logicalBytes +
           (ks.map fun k => capabilityCharge k.capability).sum },
        state.2 + (ks.map Contribution.buffered).sum) := by
  induction ks generalizing state with
  | nil => simp only [gathered, List.foldl_nil, List.map_nil, List.append_nil, List.sum_nil,
      Nat.add_zero]
  | cons k ks ih =>
      have hstep : gathered (k :: ks) state = gathered ks (k.addTo state) := rfl
      rw [hstep, ih]
      simp only [Contribution.addTo, List.map_cons, List.sum_cons, List.append_assoc,
        List.singleton_append, Nat.add_assoc]

theorem WithinTotals.of_gathered {limits : LuaExecutionLimits} {ks : List Contribution}
    {state : Builder × Nat} (h : WithinTotals limits (gathered ks state)) :
    WithinTotals limits state := by
  induction ks generalizing state with
  | nil => exact h
  | cons k ks ih =>
      have hrest : WithinTotals limits (k.addTo state) := ih h
      exact hrest.of_addTo

/-- The totals do not depend on the order of the contributions. -/
theorem WithinTotals.perm {limits : LuaExecutionLimits} {ks ks' : List Contribution}
    {state : Builder × Nat} (hperm : ks.Perm ks') (h : WithinTotals limits (gathered ks state)) :
    WithinTotals limits (gathered ks' state) := by
  rw [gathered_eq] at h ⊢
  obtain ⟨hitems, hnodes, hdescriptions, hlogical, hbuffered⟩ := h
  simp only [List.length_append, List.length_map] at hitems hnodes hdescriptions hlogical hbuffered
  refine ⟨?_, ?_, ?_, ?_, ?_⟩
  · simpa only [List.length_append, List.length_map, hperm.length_eq] using hitems
  · simpa only [(hperm.map Contribution.nodes).sum_eq] using hnodes
  · simpa only [(hperm.map fun k => describedBytes k.capability).sum_eq] using hdescriptions
  · simpa only [(hperm.map fun k => capabilityCharge k.capability).sum_eq] using hlogical
  · simpa only [(hperm.map Contribution.buffered).sum_eq] using hbuffered

/-- A run that succeeds gathers one contribution for each grant. -/
theorem captureGrants_ok {grants earlier : List LuaScopeGrant} {state state' : Builder × Nat}
    (hstate : WithinTotals runner.limits state)
    (hearlier : (earlier.map LuaScopeGrant.target).Nodup)
    (h : captureGrants sizeofLuaValue runner w earlier grants state = .ok state') :
    ((earlier ++ grants).map LuaScopeGrant.target).Nodup ∧ WithinTotals runner.limits state' ∧
      ∃ ks, List.Forall₂ (Contributes sizeofLuaValue runner w) grants ks ∧
        state' = gathered ks state := by
  induction grants generalizing earlier state with
  | nil =>
      cases h
      refine ⟨?_, hstate, [], .nil, rfl⟩
      rw [List.append_nil]
      exact hearlier
  | cons grant rest ih =>
      obtain ⟨middle, hfirst, h⟩ := bind_eq_ok h
      obtain ⟨hnew, hmiddle, k, hk, rfl⟩ := captureGrant_ok hstate hfirst
      have hnodup : ((earlier ++ [grant]).map LuaScopeGrant.target).Nodup := by
        rw [List.map_append, List.map_singleton]
        exact hearlier.append (List.nodup_singleton _)
          (List.disjoint_singleton.mpr (duplicates_eq_false_iff.mp hnew))
      obtain ⟨hall, hend, ks, hks, heq⟩ := ih hmiddle hnodup h
      rw [List.append_assoc, List.singleton_append] at hall
      exact ⟨hall, hend, k :: ks, .cons hk hks, heq⟩

/-- A run succeeds where the totals at its end are within their limits. -/
theorem captureGrants_of_contributes {grants earlier : List LuaScopeGrant}
    {state : Builder × Nat} {ks : List Contribution}
    (hks : List.Forall₂ (Contributes sizeofLuaValue runner w) grants ks)
    (hnodup : ((earlier ++ grants).map LuaScopeGrant.target).Nodup)
    (hend : WithinTotals runner.limits (gathered ks state)) :
    captureGrants sizeofLuaValue runner w earlier grants state = .ok (gathered ks state) := by
  induction hks generalizing earlier state with
  | nil => rfl
  | @cons grant k rest ks hk hks ih =>
      have hrest : WithinTotals runner.limits (gathered ks (k.addTo state)) := hend
      have hnew : duplicates earlier grant = false := by
        rw [duplicates_eq_false_iff]
        rw [List.map_append, List.map_cons] at hnodup
        have hdisjoint := (List.nodup_append'.mp hnodup).2.2
        exact fun hmem => hdisjoint hmem List.mem_cons_self
      have hfirst := hk.step earlier state hnew hrest.of_gathered
      rw [← List.singleton_append, ← List.append_assoc] at hnodup
      rw [captureGrants, hfirst, ok_bind]
      exact ih hnodup hrest

end Contributes

/-! ## The manifest -/

/-- The order in which `finish` leaves the items. -/
def finishItems (items : List (LuaManifestCapability × CaptureEntry)) :
    List (LuaManifestCapability × CaptureEntry) :=
  items.insertionSort fun left right => capabilityKey left.1 ≤ capabilityKey right.1

theorem finishItems_perm (items : List (LuaManifestCapability × CaptureEntry)) :
    (finishItems items).Perm items :=
  List.perm_insertionSort _ _

/-- Items with different keys are left in strict order. -/
theorem finishItems_sorted {items : List (LuaManifestCapability × CaptureEntry)}
    (h : (items.map fun item => capabilityKey item.1).Nodup) :
    (finishItems items).Pairwise fun left right => capabilityKey left.1 < capabilityKey right.1 := by
  let keyLe (left right : LuaManifestCapability × CaptureEntry) : Prop :=
    capabilityKey left.1 ≤ capabilityKey right.1
  have : Std.Total keyLe := ⟨fun _ _ => le_total _ _⟩
  have : IsTrans _ keyLe := ⟨fun _ _ _ => le_trans⟩
  have hle : (finishItems items).Pairwise keyLe := List.pairwise_insertionSort keyLe items
  have hne : ((finishItems items).map fun item => capabilityKey item.1).Nodup :=
    ((finishItems_perm items).map _).nodup_iff.mpr h
  exact (hle.and (List.pairwise_map.mp hne)).imp fun ⟨hle, hne⟩ => lt_of_le_of_ne hle hne

/-- The order in which the items were added is forgotten. -/
theorem finishItems_eq {items items' : List (LuaManifestCapability × CaptureEntry)}
    (hperm : items.Perm items') (h : (items.map fun item => capabilityKey item.1).Nodup) :
    finishItems items = finishItems items' := by
  have h' : (items'.map fun item => capabilityKey item.1).Nodup :=
    (hperm.map _).nodup_iff.mp h
  refine List.Perm.eq_of_pairwise ?_ (finishItems_sorted h) (finishItems_sorted h') ?_
  · exact fun left right _ _ hlt hgt => absurd hgt (lt_asymm hlt)
  · exact (finishItems_perm items).trans (hperm.trans (finishItems_perm items').symm)

theorem finish_eq {builder builder' : Builder} {now worldInstance runnerId : UInt64}
    {limits : LuaExecutionLimits} (hitems : finishItems builder.items = finishItems builder'.items)
    (hbytes : builder.logicalBytes = builder'.logicalBytes) :
    builder.finish now worldInstance runnerId limits =
      builder'.finish now worldInstance runnerId limits := by
  unfold finishItems at hitems
  unfold Builder.finish
  rw [hitems, hbytes]

section Manifest

variable {C : Type} {sizeofLuaValue : UInt64} {runner : ManifestRunner C} {w : World C}

/-- The capture as it starts. -/
def startCapture : Builder × Nat := (.initial, 0)

theorem startCapture_within (limits : LuaExecutionLimits) : WithinTotals limits startCapture where
  items := Nat.zero_le _
  valueNodes := Nat.zero_le _
  descriptionBytes := Nat.zero_le _
  logicalBytes := by decide +kernel
  buffered := Nat.zero_le _

theorem captureGrants_ok_iff {grants : List LuaScopeGrant} {state : Builder × Nat} :
    captureGrants sizeofLuaValue runner w [] grants startCapture = .ok state ↔
      (grants.map LuaScopeGrant.target).Nodup ∧
        ∃ ks, List.Forall₂ (Contributes sizeofLuaValue runner w) grants ks ∧
          WithinTotals runner.limits (gathered ks startCapture) ∧
          state = gathered ks startCapture := by
  constructor
  · intro h
    have hnil : (([] : List LuaScopeGrant).map LuaScopeGrant.target).Nodup := List.nodup_nil
    obtain ⟨hnodup, hend, ks, hks, rfl⟩ := captureGrants_ok (startCapture_within _) hnil h
    exact ⟨hnodup, ks, hks, hend, rfl⟩
  · rintro ⟨hnodup, ks, hks, hend, rfl⟩
    exact captureGrants_of_contributes hks hnodup hend

/-- The keys of the capabilities are the targets of the grants. -/
theorem keys_of_contributes {grants : List LuaScopeGrant} {ks : List Contribution}
    (h : List.Forall₂ (Contributes sizeofLuaValue runner w) grants ks) :
    ks.map (fun k => capabilityKey k.capability) =
      (grants.map LuaScopeGrant.target).map toLex := by
  induction h with
  | nil => rfl
  | cons hk _ ih =>
      rw [List.map_cons, ih]
      simp only [capabilityKey, LuaScopeGrant.target, hk.typeName, hk.componentName, List.map_cons]

/-- What is known of a manifest. -/
structure Tallied (manifest : LuaCapabilityManifest) : Prop where
  sorted : manifest.capabilities.Pairwise fun left right =>
    capabilityKey left < capabilityKey right
  ceiling : manifest.logicalBytes ≤ luaManifestMaxLogicalBytes
  total : manifest.logicalBytes =
    manifestFixedBytes + (manifest.capabilities.map capabilityCharge).sum

/-- A manifest of some grants is the manifest of the same grants in another order. -/
theorem captureScope_perm {grants grants' : List LuaScopeGrant} {now : UInt64}
    {manifest : LuaCapabilityManifest} (hperm : grants.Perm grants')
    (h : captureScope sizeofLuaValue runner w grants now = .ok manifest) :
    captureScope sizeofLuaValue runner w grants' now = .ok manifest ∧ Tallied manifest := by
  unfold captureScope at h ⊢
  rw [← hperm.isEmpty_eq, ← hperm.length_eq]
  split at h
  · cases h
  next htime =>
  split at h
  · cases h
  next hsome =>
  split at h
  · cases h
  next hcount =>
  rw [if_neg htime, if_neg hsome, if_neg hcount]
  obtain ⟨state, hrun, h⟩ := bind_eq_ok h
  cases h
  obtain ⟨hnodup, ks, hks, hend, rfl⟩ := captureGrants_ok_iff.mp hrun
  -- the other order has the same contributions, in that order
  obtain ⟨ks', hks', hkperm⟩ := List.perm_comp_forall₂ hperm.symm hks
  have hnodup' := (hperm.map LuaScopeGrant.target).nodup_iff.mp hnodup
  have hrun' := captureGrants_ok_iff.mpr ⟨hnodup', ks', hks', hend.perm hkperm.symm, rfl⟩
  have hkeys : ((gathered ks startCapture).1.items.map fun item => capabilityKey item.1).Nodup := by
    rw [gathered_eq]
    show (List.map (fun item => capabilityKey item.1)
      ([] ++ ks.map fun k => (k.capability, k.entry))).Nodup
    rw [List.nil_append, List.map_map]
    have htargets := hnodup.map toLex.injective
    rw [← keys_of_contributes hks] at htargets
    exact htargets
  have hitems : (gathered ks startCapture).1.items.Perm (gathered ks' startCapture).1.items := by
    rw [gathered_eq, gathered_eq]
    exact (hkperm.symm.map _).append_left _
  have hbytes : (gathered ks startCapture).1.logicalBytes =
      (gathered ks' startCapture).1.logicalBytes := by
    rw [gathered_eq, gathered_eq]
    exact congrArg (startCapture.1.logicalBytes + ·)
      (hkperm.symm.map fun k => capabilityCharge k.capability).sum_eq
  constructor
  · show (captureGrants sizeofLuaValue runner w [] grants' startCapture >>= _) = _
    rw [hrun', ok_bind]
    exact congrArg Except.ok (finish_eq (finishItems_eq hitems hkeys) hbytes).symm
  · refine ⟨?_, hend.logicalBytes, ?_⟩
    · exact List.pairwise_map.mpr (finishItems_sorted hkeys)
    · show (gathered ks startCapture).1.logicalBytes = manifestFixedBytes +
        (((finishItems (gathered ks startCapture).1.items).map Prod.fst).map capabilityCharge).sum
      rw [(((finishItems_perm _).map Prod.fst).map capabilityCharge).sum_eq, gathered_eq]
      simp only [startCapture, Builder.initial, List.nil_append, List.map_map]
      rfl

theorem scopeManifest_ok_iff {grants : List LuaScopeGrant} {now : UInt64}
    {manifest : LuaCapabilityManifest} :
    (scopeManifest sizeofLuaValue runner w grants now).1 = .ok manifest ↔
      captureScope sizeofLuaValue runner w grants now = .ok manifest := by
  unfold scopeManifest
  split
  · next hok => rw [hok, Except.ok.injEq, Except.ok.injEq]
  · next hreturned => exact ⟨nofun, fun h => nomatch hreturned.symm.trans h⟩
  · next hthrown => exact ⟨nofun, fun h => nomatch hthrown.symm.trans h⟩

end Manifest

/-- A capture depends on the grants, not on their order. -/
theorem scopeManifest_perm {C : Type} (sizeofLuaValue : UInt64) (runner : ManifestRunner C)
    (w : World C) (now : UInt64) {grants grants' : List LuaScopeGrant}
    (h : grants.Perm grants') :
    ((∃ manifest, (scopeManifest sizeofLuaValue runner w grants now).1 = .ok manifest) ↔
      ∃ manifest, (scopeManifest sizeofLuaValue runner w grants' now).1 = .ok manifest) ∧
    ∀ manifest manifest', (scopeManifest sizeofLuaValue runner w grants now).1 = .ok manifest →
      (scopeManifest sizeofLuaValue runner w grants' now).1 = .ok manifest' →
        manifest'.capabilities = manifest.capabilities ∧
        manifest'.capabilities.map LuaManifestCapability.accessExpression =
          manifest.capabilities.map LuaManifestCapability.accessExpression ∧
        manifest'.capture.entries = manifest.capture.entries ∧
        manifest'.logicalBytes = manifest.logicalBytes ∧
        (manifest.capabilities.Pairwise fun left right =>
          capabilityKey left < capabilityKey right) ∧
        manifest.logicalBytes ≤ luaManifestMaxLogicalBytes ∧
        manifest.logicalBytes =
          manifestFixedBytes + (manifest.capabilities.map capabilityCharge).sum := by
  simp only [scopeManifest_ok_iff]
  constructor
  · constructor
    · rintro ⟨manifest, hm⟩
      exact ⟨manifest, (captureScope_perm h hm).1⟩
    · rintro ⟨manifest, hm⟩
      exact ⟨manifest, (captureScope_perm h.symm hm).1⟩
  · intro manifest manifest' hm hm'
    obtain ⟨hagain, htallied⟩ := captureScope_perm h hm
    have heq : manifest = manifest' := Except.ok.inj (hagain.symm.trans hm')
    subst heq
    exact ⟨rfl, rfl, rfl, rfl, htallied.sorted, htallied.ceiling, htallied.total⟩

/-! ### Two lamps -/

def lampType : ComponentType := ⟨0, 0, 1, 1⟩

def lampBinding : Binding Bytes where
  scriptName := utf8 "Lamp"
  type := lampType
  encode := fun room => .ok (.table [(utf8 "level", .integer 40), (utf8 "room", .string room)])
  metadata := some ⟨lampSchema, lampSchema, utf8 "a lamp"⟩

def lampRunner : ManifestRunner Bytes := ⟨[lampBinding], 5, ⟨16, 4096, 65536, 8388608⟩, false⟩

def lampOps : List (World.Op Bytes) :=
  [.registerComponent 0 (utf8 "Lamp") 1 (some fun _ => .ok .null) (some fun _ => .ok []),
    .addComponent lampType (utf8 "desk") (utf8 "study"),
    .addComponent lampType (utf8 "door") (utf8 "hall")]

def lampWorld : World Bytes := lampOps.foldl (fun w op => op.step w) (.initial 1)

def deskGrant : LuaScopeGrant := ⟨utf8 "Lamp", utf8 "desk", .readWrite⟩

def doorGrant : LuaScopeGrant := ⟨utf8 "Lamp", utf8 "door", .read⟩

theorem scopeManifest_perm_lamps :
    (∃ manifest,
      (scopeManifest 56 lampRunner lampWorld [doorGrant, deskGrant] 900).1 = .ok manifest) ∧
    ∃ manifest,
      (scopeManifest 56 lampRunner lampWorld [deskGrant, doorGrant] 900).1 = .ok manifest := by
  have hdoor : ((scopeManifest 56 lampRunner lampWorld [doorGrant, deskGrant] 900).1).isOk =
      true := by decide +kernel
  have hfirst : ∃ manifest,
      (scopeManifest 56 lampRunner lampWorld [doorGrant, deskGrant] 900).1 = .ok manifest := by
    cases h : (scopeManifest 56 lampRunner lampWorld [doorGrant, deskGrant] 900).1 with
    | ok manifest => exact ⟨manifest, rfl⟩
    | error e => rw [h] at hdoor; cases hdoor
  exact ⟨hfirst, (scopeManifest_perm 56 lampRunner lampWorld 900
    (List.Perm.swap deskGrant doorGrant [])).1.mp hfirst⟩

end LiquidLayer
