/-
  Lua values and their schemas (LuaBehaviorRunner.hpp, LuaValueSchema.hpp, LuaValueSchema.cpp).

  A schema node carries the totals its factory computed over the expanded tree. A schema the
  program holds is one its factories made (`LuaValueSchema.Built`); what follows from it is that
  the fields of every object are in strict name order (`LuaValueSchema.wellFormed`) and that
  `container_depth` is the depth of the tree (`LuaValueSchema.depth`).
-/
import LiquidLayer.Value.Basic
import LiquidLayer.Scripting.IndexSegment

namespace LiquidLayer

def luaSchemaMaxContainerNesting : Nat := 16
def luaSchemaMaxNodes : Nat := 4096
def luaSchemaMaxFields : Nat := 256
def luaSchemaMaxArrayItems : Nat := 4096
def luaSchemaMaxStringBytes : Nat := 65536
def luaSchemaMaxEnumEntries : Nat := 256
def luaSchemaMaxEnumBytes : Nat := 65536
def luaMaxDescriptionBytes : Nat := 1024
def luaMaxNameBytes : Nat := 256
def luaMaxValueNodes : Nat := 16384
def luaMaxSchemaDiagnosticBytes : Nat := 4096

/-- `std::numeric_limits<std::size_t>::max()`. -/
def maxSize : Nat := 2 ^ 64 - 1

/-! ## Doubles -/

def isNan (bits : UInt64) : Bool := decide (bits &&& 0x7fffffffffffffff > 0x7ff0000000000000)

/-- The place of a double among the doubles that are numbers; both zeros are at `0`. -/
def doublePlace (bits : UInt64) : Int :=
  if bits >>> 63 = 0 then bits.toNat else -((bits &&& 0x7fffffffffffffff).toNat : Int)

/-- `operator<` of two doubles. -/
def doubleLess (a b : UInt64) : Bool :=
  !isNan a && !isNan b && decide (doublePlace a < doublePlace b)

/-! ## Values -/

inductive LuaSchemaKind where
  | boolean
  | integer
  | number
  | string
  | array
  | object
deriving DecidableEq, Repr

/-- `LuaValue`; a `Number` is the bit pattern of its double. -/
inductive LuaValue where
  | boolean (value : Bool)
  | integer (value : Int64)
  | number (bits : UInt64)
  | string (text : Bytes)
  | array (items : List LuaValue)
  | table (entries : List (Bytes × LuaValue))

def LuaValue.kind : LuaValue → LuaSchemaKind
  | .boolean _ => .boolean
  | .integer _ => .integer
  | .number _ => .number
  | .string _ => .string
  | .array _ => .array
  | .table _ => .object

mutual

/-- Every table inside the value is a `std::map`: its keys are in strict order. -/
def LuaValue.ordered : LuaValue → Bool
  | .array items => orderedItems items
  | .table entries => decide (Assoc.Sorted entries) && orderedEntries entries
  | _ => true

def LuaValue.orderedItems : List LuaValue → Bool
  | [] => true
  | v :: rest => LuaValue.ordered v && orderedItems rest

def LuaValue.orderedEntries : List (Bytes × LuaValue) → Bool
  | [] => true
  | (_, v) :: rest => LuaValue.ordered v && orderedEntries rest

end

mutual

/-- The number of value nodes. -/
def LuaValue.nodes : LuaValue → Nat
  | .array items => 1 + nodesItems items
  | .table entries => 1 + nodesEntries entries
  | _ => 1

def LuaValue.nodesItems : List LuaValue → Nat
  | [] => 0
  | v :: rest => LuaValue.nodes v + nodesItems rest

def LuaValue.nodesEntries : List (Bytes × LuaValue) → Nat
  | [] => 0
  | (_, v) :: rest => LuaValue.nodes v + nodesEntries rest

end

/-! ## Schemas -/

/-- The totals over the expanded tree that a node stores. -/
structure SchemaTotals where
  nodeCount : Nat
  containerDepth : Nat
  enumBytes : Nat
  descriptionBytes : Nat
  logicalBytes : Nat
deriving DecidableEq, Repr

mutual

inductive LuaValueSchema where
  | boolean (description : Bytes) (totals : SchemaTotals)
  | integer (minimum maximum : Option Int64) (description : Bytes) (totals : SchemaTotals)
  | number (minimum maximum : Option UInt64) (description : Bytes) (totals : SchemaTotals)
  | string (minimumBytes maximumBytes : Nat) (enumeration : Option (List Bytes))
      (description : Bytes) (totals : SchemaTotals)
  | array (item : LuaValueSchema) (minimumItems maximumItems : Nat) (description : Bytes)
      (totals : SchemaTotals)
  | object (fields : List LuaSchemaField) (description : Bytes) (totals : SchemaTotals)

inductive LuaSchemaField where
  | mk (name : Bytes) (schema : LuaValueSchema) (required : Bool)

end

namespace LuaSchemaField

def name : LuaSchemaField → Bytes
  | .mk name _ _ => name

def schema : LuaSchemaField → LuaValueSchema
  | .mk _ schema _ => schema

def required : LuaSchemaField → Bool
  | .mk _ _ required => required

end LuaSchemaField

namespace LuaValueSchema

def kind : LuaValueSchema → LuaSchemaKind
  | .boolean .. => .boolean
  | .integer .. => .integer
  | .number .. => .number
  | .string .. => .string
  | .array .. => .array
  | .object .. => .object

def totals : LuaValueSchema → SchemaTotals
  | .boolean _ totals => totals
  | .integer _ _ _ totals => totals
  | .number _ _ _ totals => totals
  | .string _ _ _ _ totals => totals
  | .array _ _ _ _ totals => totals
  | .object _ _ totals => totals

end LuaValueSchema

/-! ## The factories -/

def checkedSchemaAdd (left right : Nat) : Except Failure Nat :=
  if right > maxSize - left then .error (.invalidArgument "Lua schema totals overflow")
  else .ok (left + right)

def validateDescription (description : Bytes) : Except Failure Unit :=
  if description.length > luaMaxDescriptionBytes then
    .error (.invalidArgument "Lua schema description exceeds 1024 bytes")
  else if description.contains 0 then
    .error (.invalidArgument "Lua schema description cannot contain NUL")
  else if !validUtf8 description then
    .error (.invalidArgument "Lua schema description must be valid UTF-8")
  else .ok ()

def addChildTotals (node child : SchemaTotals) : Except Failure SchemaTotals := do
  return {
    nodeCount := ← checkedSchemaAdd node.nodeCount child.nodeCount
    containerDepth := max node.containerDepth (← checkedSchemaAdd child.containerDepth 1)
    enumBytes := ← checkedSchemaAdd node.enumBytes child.enumBytes
    descriptionBytes := ← checkedSchemaAdd node.descriptionBytes child.descriptionBytes
    logicalBytes := ← checkedSchemaAdd node.logicalBytes child.logicalBytes }

/-- `own_logical_bytes`: `bounds` are the bytes of the node's numeric bounds. -/
def ownLogicalBytes (description : Bytes) (bounds : Nat) (fields : List LuaSchemaField)
    (enumeration : List Bytes) : Except Failure Nat := do
  let bytes ← checkedSchemaAdd 8 description.length
  let bytes ← fields.foldlM
    (fun bytes field => do checkedSchemaAdd bytes (← checkedSchemaAdd 9 field.name.length))
    (bytes + bounds)
  enumeration.foldlM
    (fun bytes entry => do checkedSchemaAdd bytes (← checkedSchemaAdd 8 entry.length)) bytes

/-- `finish_node`: the totals of a node with these children, once it is within the ceilings. -/
def finishNode (description : Bytes) (bounds : Nat) (fields : List LuaSchemaField)
    (enumeration : List Bytes) (containerDepth : Nat) (children : List SchemaTotals) :
    Except Failure SchemaTotals := do
  validateDescription description
  let logicalBytes ← ownLogicalBytes description bounds fields enumeration
  let enumBytes ← enumeration.foldlM (fun bytes entry => checkedSchemaAdd bytes entry.length) 0
  let totals ← children.foldlM addChildTotals
    { nodeCount := 1, containerDepth, enumBytes, descriptionBytes := description.length,
      logicalBytes }
  if totals.nodeCount > luaSchemaMaxNodes then
    throw (.invalidArgument "Lua schema exceeds 4096 expanded nodes")
  else if totals.containerDepth > luaSchemaMaxContainerNesting then
    throw (.invalidArgument "Lua schema exceeds 16 nested containers")
  else if totals.enumBytes > luaSchemaMaxEnumBytes then
    throw (.invalidArgument "Lua schema enum entries exceed 65536 aggregate bytes")
  else return totals

/-- Eight bytes for each bound present. -/
def boundBytes {α : Type} (minimum maximum : Option α) : Nat :=
  (if minimum.isSome then 8 else 0) + (if maximum.isSome then 8 else 0)

/-- `std::adjacent_find` finds a pair of equals. -/
def adjacentEqual : List Bytes → Bool
  | a :: b :: rest => decide (a = b) || adjacentEqual (b :: rest)
  | _ => false

/-- Both bounds are given and the first exceeds the second. -/
def crossed {α : Type} (exceeds : α → α → Bool) (minimum maximum : Option α) : Bool :=
  minimum.any fun low => maximum.any fun high => exceeds low high

def validateEnumeration (enumeration : Option (List Bytes)) : Except Failure Unit :=
  match enumeration with
  | none => .ok ()
  | some entries =>
      if entries.isEmpty then
        .error (.invalidArgument "Lua String schema enum cannot be empty")
      else if entries.length > luaSchemaMaxEnumEntries then
        .error (.invalidArgument "Lua String schema enum exceeds 256 entries")
      else if adjacentEqual (entries.insertionSort (· ≤ ·)) then
        .error (.invalidArgument "Lua String schema enum contains a duplicate entry")
      else .ok ()

namespace LuaValueSchema

/-- The factory `LuaValueSchema::boolean`. -/
def makeBoolean (description : Bytes) : Except Failure LuaValueSchema := do
  return .boolean description (← finishNode description 0 [] [] 0 [])

/-- The factory `LuaValueSchema::integer`. -/
def makeInteger (minimum maximum : Option Int64) (description : Bytes) :
    Except Failure LuaValueSchema :=
  if crossed (fun low high => decide (low > high)) minimum maximum then
    .error (.invalidArgument "Lua Integer schema minimum exceeds maximum")
  else do
    let totals ← finishNode description (boundBytes minimum maximum) [] [] 0 []
    return .integer minimum maximum description totals

/-- The factory `LuaValueSchema::number`. -/
def makeNumber (minimum maximum : Option UInt64) (description : Bytes) :
    Except Failure LuaValueSchema :=
  if minimum.any (fun m => !isfinite m) || maximum.any (fun m => !isfinite m) then
    .error (.invalidArgument "Lua Number schema bounds must be finite")
  else if crossed (fun low high => doubleLess high low) minimum maximum then
    .error (.invalidArgument "Lua Number schema minimum exceeds maximum")
  else do
    let totals ← finishNode description (boundBytes minimum maximum) [] [] 0 []
    return .number minimum maximum description totals

/-- The factory `LuaValueSchema::string`. -/
def makeString (minimumBytes maximumBytes : Nat) (enumeration : Option (List Bytes))
    (description : Bytes) : Except Failure LuaValueSchema :=
  if minimumBytes > maximumBytes then
    .error (.invalidArgument "Lua String schema minimum exceeds maximum")
  else if maximumBytes > luaSchemaMaxStringBytes then
    .error (.invalidArgument "Lua String schema maximum exceeds 65536 bytes")
  else do
    validateEnumeration enumeration
    let totals ← finishNode description 16 [] (enumeration.getD []) 0 []
    return .string minimumBytes maximumBytes enumeration description totals

/-- The factory `LuaValueSchema::array`. -/
def makeArray (item : LuaValueSchema) (minimumItems maximumItems : Nat) (description : Bytes) :
    Except Failure LuaValueSchema :=
  if minimumItems > maximumItems then
    .error (.invalidArgument "Lua Array schema minimum exceeds maximum")
  else if maximumItems > luaSchemaMaxArrayItems then
    .error (.invalidArgument "Lua Array schema maximum exceeds 4096 items")
  else do
    let totals ← finishNode description 16 [] [] 0 [item.totals]
    return .array item minimumItems maximumItems description totals

/-- The fields in name order. -/
def sortFields (fields : List LuaSchemaField) : List LuaSchemaField :=
  fields.insertionSort fun left right => left.name ≤ right.name

/-- The factory `LuaValueSchema::object`. -/
def makeObject (fields : List LuaSchemaField) (description : Bytes) :
    Except Failure LuaValueSchema :=
  if fields.length > luaSchemaMaxFields then
    .error (.invalidArgument "Lua Object schema exceeds 256 fields")
  else if fields.any (fun field => decide (field.name.length > luaMaxNameBytes)) then
    .error (.invalidArgument "Lua Object schema field name exceeds 256 bytes")
  else if adjacentEqual ((sortFields fields).map LuaSchemaField.name) then
    .error (.invalidArgument "Lua Object schema contains a duplicate field name")
  else do
    let totals ← finishNode description 0 (sortFields fields) [] 1
      ((sortFields fields).map fun field => field.schema.totals)
    return .object (sortFields fields) description totals

/-- The schemas that the factories make. -/
inductive Built : LuaValueSchema → Prop where
  | boolean {description schema} : makeBoolean description = .ok schema → Built schema
  | integer {minimum maximum description schema} :
      makeInteger minimum maximum description = .ok schema → Built schema
  | number {minimum maximum description schema} :
      makeNumber minimum maximum description = .ok schema → Built schema
  | string {minimumBytes maximumBytes enumeration description schema} :
      makeString minimumBytes maximumBytes enumeration description = .ok schema → Built schema
  | array {item minimumItems maximumItems description schema} : Built item →
      makeArray item minimumItems maximumItems description = .ok schema → Built schema
  | object {fields description schema} : (∀ field ∈ fields, Built field.schema) →
      makeObject fields description = .ok schema → Built schema

/-! ## What the factories establish -/

mutual

/-- The fields of every object are in strict name order, under names of bounded length. -/
def wellFormed : LuaValueSchema → Bool
  | .array item _ _ _ _ => wellFormed item
  | .object fields _ _ =>
      decide (fields.Pairwise fun a b => a.name < b.name) && wellFormedFields fields
  | _ => true

def wellFormedFields : List LuaSchemaField → Bool
  | [] => true
  | .mk name schema _ :: rest =>
      decide (name.length ≤ luaMaxNameBytes) && wellFormed schema && wellFormedFields rest

end

mutual

/-- How many containers the tree nests. -/
def depth : LuaValueSchema → Nat
  | .array item _ _ _ _ => depth item + 1
  | .object fields _ _ => max 1 (depthFields fields)
  | _ => 0

def depthFields : List LuaSchemaField → Nat
  | [] => 0
  | .mk _ schema _ :: rest => max (depth schema + 1) (depthFields rest)

end

theorem wellFormedFields_iff {fields : List LuaSchemaField} :
    wellFormedFields fields = true ↔
      ∀ f ∈ fields, f.name.length ≤ luaMaxNameBytes ∧ f.schema.wellFormed = true := by
  induction fields with
  | nil => simp [wellFormedFields]
  | cons f fields ih =>
      obtain ⟨name, schema, required⟩ := f
      simp only [wellFormedFields, Bool.and_eq_true, decide_eq_true_eq, ih, List.forall_mem_cons,
        LuaSchemaField.schema, LuaSchemaField.name]

end LuaValueSchema

theorem checkedSchemaAdd_ok {left right sum : Nat} (h : checkedSchemaAdd left right = .ok sum) :
    sum = left + right := by
  unfold checkedSchemaAdd at h
  split at h
  · cases h
  · exact (Except.ok.inj h).symm

theorem addChildTotals_depth {node child totals : SchemaTotals}
    (h : addChildTotals node child = .ok totals) :
    totals.containerDepth = max node.containerDepth (child.containerDepth + 1) := by
  unfold addChildTotals at h
  obtain ⟨_, _, h⟩ := bind_eq_ok h
  obtain ⟨depth, hdepth, h⟩ := bind_eq_ok h
  obtain ⟨_, _, h⟩ := bind_eq_ok h
  obtain ⟨_, _, h⟩ := bind_eq_ok h
  obtain ⟨_, _, h⟩ := bind_eq_ok h
  cases h
  rw [checkedSchemaAdd_ok hdepth]

theorem foldlM_addChildTotals_depth {children : List SchemaTotals} {node totals : SchemaTotals}
    (h : children.foldlM addChildTotals node = .ok totals) :
    totals.containerDepth =
      children.foldl (fun d c => max d (c.containerDepth + 1)) node.containerDepth := by
  induction children generalizing node with
  | nil => cases h; rfl
  | cons c children ih =>
      rw [List.foldlM_cons] at h
      obtain ⟨node', hnode, h⟩ := bind_eq_ok h
      rw [ih h, addChildTotals_depth hnode, List.foldl_cons]

theorem finishNode_depth {description : Bytes} {bounds : Nat} {fields : List LuaSchemaField}
    {enumeration : List Bytes} {containerDepth : Nat} {children : List SchemaTotals}
    {totals : SchemaTotals}
    (h : finishNode description bounds fields enumeration containerDepth children = .ok totals) :
    totals.containerDepth =
      children.foldl (fun d c => max d (c.containerDepth + 1)) containerDepth := by
  unfold finishNode at h
  obtain ⟨_, _, h⟩ := bind_eq_ok h
  obtain ⟨_, _, h⟩ := bind_eq_ok h
  obtain ⟨_, _, h⟩ := bind_eq_ok h
  obtain ⟨folded, hfolded, h⟩ := bind_eq_ok h
  have hsame : folded = totals := by
    split at h
    · cases h
    · split at h
      · cases h
      · split at h
        · cases h
        · exact Except.ok.inj h
  subst hsame
  exact foldlM_addChildTotals_depth hfolded

/-- Names in order without equal neighbours are in strict order. -/
theorem strict_of_not_adjacentEqual {names : List Bytes} (h : names.Pairwise (· ≤ ·))
    (ha : adjacentEqual names = false) : names.Pairwise (· < ·) := by
  induction names with
  | nil => exact .nil
  | cons a names ih =>
      obtain ⟨hle, htail⟩ := List.pairwise_cons.mp h
      cases names with
      | nil => exact List.pairwise_singleton _ _
      | cons b rest =>
          simp only [adjacentEqual, Bool.or_eq_false_iff, decide_eq_false_iff_not] at ha
          have hstrict := ih htail ha.2
          have hlt : a < b := lt_of_le_of_ne (hle b List.mem_cons_self) ha.1
          refine List.pairwise_cons.mpr ⟨fun c hc => ?_, hstrict⟩
          rcases List.mem_cons.mp hc with rfl | hc
          · exact hlt
          · exact lt_trans hlt ((List.pairwise_cons.mp hstrict).1 c hc)

namespace LuaValueSchema

theorem foldl_max_depth {fields : List LuaSchemaField} (d : Nat)
    (h : ∀ f ∈ fields, f.schema.totals.containerDepth = f.schema.depth) :
    (fields.map fun f => f.schema.totals).foldl (fun d c => max d (c.containerDepth + 1)) d =
      max d (depthFields fields) := by
  induction fields generalizing d with
  | nil => simp [depthFields]
  | cons f fields ih =>
      obtain ⟨name, schema, required⟩ := f
      rw [List.map_cons, List.foldl_cons, ih _ fun g hg => h g (List.mem_cons_of_mem _ hg)]
      have hf := h _ List.mem_cons_self
      simp only [LuaSchemaField.schema] at hf
      simp only [depthFields, LuaSchemaField.schema, hf]
      omega

theorem sortFields_pairwise (fields : List LuaSchemaField) :
    ((sortFields fields).map LuaSchemaField.name).Pairwise (· ≤ ·) := by
  rw [List.pairwise_map]
  have htotal : Std.Total fun left right : LuaSchemaField => left.name ≤ right.name :=
    ⟨fun left right => le_total _ _⟩
  have htrans : IsTrans LuaSchemaField fun left right => left.name ≤ right.name :=
    ⟨fun _ _ _ => le_trans⟩
  exact List.pairwise_insertionSort _ fields

/-- What a schema made by the factories is like. -/
theorem Built.wellFormed_depth {schema : LuaValueSchema} (built : schema.Built) :
    schema.wellFormed = true ∧ schema.totals.containerDepth = schema.depth := by
  induction built with
  | boolean h =>
      obtain ⟨totals, htotals, h⟩ := bind_eq_ok h
      cases h
      exact ⟨rfl, finishNode_depth htotals⟩
  | integer h =>
      unfold makeInteger at h
      split at h
      · cases h
      obtain ⟨totals, htotals, h⟩ := bind_eq_ok h
      cases h
      exact ⟨rfl, finishNode_depth htotals⟩
  | number h =>
      unfold makeNumber at h
      split at h
      · cases h
      split at h
      · cases h
      obtain ⟨totals, htotals, h⟩ := bind_eq_ok h
      cases h
      exact ⟨rfl, finishNode_depth htotals⟩
  | string h =>
      unfold makeString at h
      split at h
      · cases h
      split at h
      · cases h
      obtain ⟨_, _, h⟩ := bind_eq_ok h
      obtain ⟨totals, htotals, h⟩ := bind_eq_ok h
      cases h
      exact ⟨rfl, finishNode_depth htotals⟩
  | array _ h ih =>
      unfold makeArray at h
      split at h
      · cases h
      split at h
      · cases h
      obtain ⟨totals, htotals, h⟩ := bind_eq_ok h
      cases h
      refine ⟨ih.1, ?_⟩
      have hdepth := finishNode_depth htotals
      rw [List.foldl_cons, List.foldl_nil, ih.2, Nat.zero_max] at hdepth
      exact hdepth
  | @object fields _ _ _ h ih =>
      unfold makeObject at h
      split at h
      · cases h
      split at h
      · cases h
      next hshort =>
      split at h
      · cases h
      next hdistinct =>
      obtain ⟨totals, htotals, h⟩ := bind_eq_ok h
      cases h
      have hmem : ∀ f ∈ sortFields fields, f ∈ fields := fun f hf =>
        (List.mem_insertionSort _).mp hf
      have hstrict := strict_of_not_adjacentEqual (sortFields_pairwise fields)
        (Bool.eq_false_of_not_eq_true hdistinct)
      constructor
      · simp only [wellFormed, Bool.and_eq_true, decide_eq_true_eq]
        refine ⟨List.pairwise_map.mp hstrict, wellFormedFields_iff.mpr fun f hf => ⟨?_, ?_⟩⟩
        · by_contra hlong
          exact hshort (List.any_eq_true.mpr
            ⟨f, hmem f hf, decide_eq_true (Nat.lt_of_not_le hlong)⟩)
        · exact (ih f (hmem f hf)).1
      · have hdepth := finishNode_depth htotals
        rw [foldl_max_depth 1 fun f hf => (ih f (hmem f hf)).2] at hdepth
        exact hdepth

end LuaValueSchema

end LiquidLayer
