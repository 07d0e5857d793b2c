/-
  `validate_lua_value` (LuaValueSchema.cpp): the walk of a value along a schema.

  `SchemaWalk` keeps a count of the visited nodes and the path from the root. The count is
  threaded through the recursion; the path of a child is the parent's with one segment more.

  `LuaValueSchema.Conforms` says by structural recursion what a schema asks of a value.
  `validateLuaValue_exact`: the walk accepts exactly the conforming values of at most
  `luaMaxValueNodes` nodes.
-/
import LiquidLayer.Scripting.Schema

namespace LiquidLayer

/-! ## The walk -/

inductive LuaSchemaErrorCode where
  | kind
  | range
  | missingField
  | unknownField
  | limit
deriving DecidableEq, Repr

structure LuaSchemaError where
  code : LuaSchemaErrorCode
  path : Bytes
  diagnostic : Bytes
deriving DecidableEq, Repr

def boundedSchemaText (text : Bytes) : Bytes :=
  if text.length ≤ luaMaxSchemaDiagnosticBytes then text
  else text.take (luaMaxSchemaDiagnosticBytes - 3) ++ utf8 "..."

def kindName : LuaSchemaKind → String
  | .boolean => "Boolean"
  | .integer => "Integer"
  | .number => "Number"
  | .string => "String"
  | .array => "Array"
  | .object => "Object"

namespace SchemaWalk

/-- `fail` at the current path. -/
def fail {α : Type} (path : Bytes) (code : LuaSchemaErrorCode) (message : Bytes) :
    Except LuaSchemaError α :=
  .error {
    code
    path := boundedSchemaText path
    diagnostic := boundedSchemaText
      (utf8 "Lua value at " ++ (if path.isEmpty then utf8 "root" else path) ++ utf8 ": " ++
        message) }

def visitInteger (minimum maximum : Option Int64) (value : Int64) (path : Bytes) (visited : Nat) :
    Except LuaSchemaError Nat :=
  if minimum.any (fun low => decide (value < low)) ||
      maximum.any (fun high => decide (value > high)) then
    fail path .range (utf8 "integer is outside the declared bounds")
  else .ok visited

def visitNumber (minimum maximum : Option UInt64) (value : UInt64) (path : Bytes)
    (visited : Nat) : Except LuaSchemaError Nat :=
  if !isfinite value then fail path .kind (utf8 "expected a finite Number")
  else if minimum.any (fun low => doubleLess value low) ||
      maximum.any (fun high => doubleLess high value) then
    fail path .range (utf8 "number is outside the declared bounds")
  else .ok visited

def visitString (minimumBytes maximumBytes : Nat) (enumeration : Option (List Bytes))
    (value : Bytes) (path : Bytes) (visited : Nat) : Except LuaSchemaError Nat :=
  if value.length < minimumBytes ∨ value.length > maximumBytes then
    fail path .range (utf8 "string byte length is outside the declared bounds")
  else if enumeration.any (fun entries => !decide (value ∈ entries)) then
    fail path .range (utf8 "string is not a declared enum entry")
  else .ok visited

/-- The loop of `visit_array`, from the item of the given index on. -/
def visitItems (visit : LuaValue → Bytes → Nat → Except LuaSchemaError Nat) (path : Bytes) :
    List LuaValue → Nat → Nat → Except LuaSchemaError Nat
  | [], _, visited => .ok visited
  | item :: rest, index, visited =>
      match visit item (path ++ utf8 "[" ++ decimal (index + 1) ++ utf8 "]") visited with
      | .error e => .error e
      | .ok visited => visitItems visit path rest (index + 1) visited

mutual

def visit : LuaValueSchema → LuaValue → Bytes → Nat → Except LuaSchemaError Nat
  | schema, value, path, visited =>
    if visited + 1 > luaMaxValueNodes then
      fail path .limit (utf8 "value exceeds 16384 nodes")
    else
      match schema, value with
      | .boolean _ _, .boolean _ => .ok (visited + 1)
      | .integer minimum maximum _ _, .integer value =>
          visitInteger minimum maximum value path (visited + 1)
      | .number minimum maximum _ _, .number value =>
          visitNumber minimum maximum value path (visited + 1)
      | .string minimumBytes maximumBytes enumeration _ _, .string value =>
          visitString minimumBytes maximumBytes enumeration value path (visited + 1)
      | .array item minimumItems maximumItems _ _, .array items =>
          if items.length < minimumItems ∨ items.length > maximumItems then
            fail path .range (utf8 "array length is outside the declared bounds")
          else visitItems (fun v p n => visit item v p n) path items 0 (visited + 1)
      | .object fields _ _, .table entries =>
          if entries.any (fun entry => decide (entry.1.length > luaMaxNameBytes)) then
            fail path .limit (utf8 "object key exceeds 256 bytes")
          else visitFields fields entries path (visited + 1)
      | schema, value =>
          fail path .kind (utf8 ("expected " ++ kindName schema.kind ++ ", got " ++
            kindName value.kind))

/-- The merge of `visit_object`. -/
def visitFields : List LuaSchemaField → List (Bytes × LuaValue) → Bytes → Nat →
    Except LuaSchemaError Nat
  | [], [], _, visited => .ok visited
  | [], (key, _) :: _, path, _ =>
      fail (path ++ renderIndexSegment key) .unknownField
        (utf8 "field is not declared by the schema")
  | .mk name schema required :: fields, entries, path, visited =>
      match entries with
      | [] =>
          if required then
            fail (path ++ renderIndexSegment name) .missingField
              (utf8 "required field is absent")
          else visitFields fields [] path visited
      | (key, value) :: rest =>
          if key < name then
            fail (path ++ renderIndexSegment key) .unknownField
              (utf8 "field is not declared by the schema")
          else if name < key then
            if required then
              fail (path ++ renderIndexSegment name) .missingField
                (utf8 "required field is absent")
            else visitFields fields ((key, value) :: rest) path visited
          else
            match visit schema value (path ++ renderIndexSegment name) visited with
            | .error e => .error e
            | .ok visited => visitFields fields rest path visited

end

end SchemaWalk

structure LuaSchemaValidation where
  error : Option LuaSchemaError

def LuaSchemaValidation.valid (validation : LuaSchemaValidation) : Bool := !validation.error.isSome

def validateLuaValue (schema : LuaValueSchema) (value : LuaValue) : LuaSchemaValidation :=
  match SchemaWalk.visit schema value [] 0 with
  | .ok _ => ⟨none⟩
  | .error e => ⟨some e⟩

/-! ## What a schema asks of a value -/

/-- The value conforms to the schema, node by node. -/
inductive LuaValueSchema.Conforms : LuaValueSchema → LuaValue → Prop where
  | boolean {description totals} {b : Bool} :
      Conforms (.boolean description totals) (.boolean b)
  | integer {minimum maximum description totals} {i : Int64}
      (lower : ∀ low, minimum = some low → low ≤ i)
      (upper : ∀ high, maximum = some high → i ≤ high) :
      Conforms (.integer minimum maximum description totals) (.integer i)
  | number {minimum maximum description totals} {x : UInt64} (finite : isfinite x = true)
      (lower : ∀ low, minimum = some low → doubleLess x low = false)
      (upper : ∀ high, maximum = some high → doubleLess high x = false) :
      Conforms (.number minimum maximum description totals) (.number x)
  | string {minimumBytes maximumBytes enumeration description totals} {text : Bytes}
      (lower : minimumBytes ≤ text.length) (upper : text.length ≤ maximumBytes)
      (declared : ∀ entries, enumeration = some entries → text ∈ entries) :
      Conforms (.string minimumBytes maximumBytes enumeration description totals) (.string text)
  | array {item minimumItems maximumItems description totals} {items : List LuaValue}
      (lower : minimumItems ≤ items.length) (upper : items.length ≤ maximumItems)
      (conforming : ∀ v ∈ items, Conforms item v) :
      Conforms (.array item minimumItems maximumItems description totals) (.array items)
  | object {fields description totals} {entries : List (Bytes × LuaValue)}
      (short : ∀ e ∈ entries, e.1.length ≤ luaMaxNameBytes)
      (declared : ∀ e ∈ entries, ∃ field ∈ fields, field.name = e.1)
      (present : ∀ field ∈ fields, field.required = true → ∃ v, (field.name, v) ∈ entries)
      (conforming : ∀ field ∈ fields, ∀ v, (field.name, v) ∈ entries →
        Conforms field.schema v) :
      Conforms (.object fields description totals) (.table entries)

/-! ## The walk accepts what conforms -/

namespace SchemaWalk

@[simp] theorem fail_eq_ok {α : Type} {path : Bytes} {code : LuaSchemaErrorCode} {message : Bytes}
    {a : α} : (fail path code message = .ok a) ↔ False := by
  simp [fail]

theorem visitInteger_ok_iff {minimum maximum : Option Int64} {i : Int64} {path : Bytes}
    {n n' : Nat} {description : Bytes} {totals : SchemaTotals} :
    visitInteger minimum maximum i path n = .ok n' ↔
      (LuaValueSchema.integer minimum maximum description totals).Conforms (.integer i) ∧
        n' = n := by
  unfold visitInteger
  split
  · next hout =>
      refine ⟨fun h => (fail_eq_ok.mp h).elim, fun ⟨h, _⟩ => ?_⟩
      cases h with
      | integer lower upper =>
          simp only [Bool.or_eq_true, Option.any_eq_true, decide_eq_true_eq] at hout
          rcases hout with ⟨low, hlow, hlt⟩ | ⟨high, hhigh, hlt⟩
          · exact absurd hlt (Int64.not_lt.mpr (lower low hlow))
          · exact absurd hlt (Int64.not_lt.mpr (upper high hhigh))
  · next hin =>
      simp only [Bool.or_eq_true, Option.any_eq_true, decide_eq_true_eq, not_or, not_exists,
        not_and] at hin
      refine ⟨fun h => ⟨.integer ?_ ?_, (Except.ok.inj h).symm⟩, fun ⟨_, h⟩ => by rw [h]⟩
      · exact fun low hlow => Int64.not_lt.mp (hin.1 low hlow)
      · exact fun high hhigh => Int64.not_lt.mp (hin.2 high hhigh)

theorem visitNumber_ok_iff {minimum maximum : Option UInt64} {x : UInt64} {path : Bytes}
    {n n' : Nat} {description : Bytes} {totals : SchemaTotals} :
    visitNumber minimum maximum x path n = .ok n' ↔
      (LuaValueSchema.number minimum maximum description totals).Conforms (.number x) ∧
        n' = n := by
  unfold visitNumber
  split
  · next hinfinite =>
      refine ⟨fun h => (fail_eq_ok.mp h).elim, fun ⟨h, _⟩ => ?_⟩
      cases h with
      | number finite _ _ => rw [finite] at hinfinite; cases hinfinite
  next hfinite =>
  split
  · next hout =>
      refine ⟨fun h => (fail_eq_ok.mp h).elim, fun ⟨h, _⟩ => ?_⟩
      cases h with
      | number _ lower upper =>
          simp only [Bool.or_eq_true, Option.any_eq_true] at hout
          rcases hout with ⟨low, hlow, hlt⟩ | ⟨high, hhigh, hlt⟩
          · rw [lower low hlow] at hlt; cases hlt
          · rw [upper high hhigh] at hlt; cases hlt
  · next hin =>
      simp only [Bool.or_eq_true, Option.any_eq_true, not_or, not_exists, not_and,
        Bool.not_eq_true] at hin
      have hx : isfinite x = true := by simpa using hfinite
      exact ⟨fun h => ⟨.number hx hin.1 hin.2, (Except.ok.inj h).symm⟩, fun ⟨_, h⟩ => by rw [h]⟩

theorem visitString_ok_iff {minimumBytes maximumBytes : Nat} {enumeration : Option (List Bytes)}
    {text path : Bytes} {n n' : Nat} {description : Bytes} {totals : SchemaTotals} :
    visitString minimumBytes maximumBytes enumeration text path n = .ok n' ↔
      (LuaValueSchema.string minimumBytes maximumBytes enumeration description totals).Conforms
        (.string text) ∧ n' = n := by
  unfold visitString
  split
  · next hout =>
      refine ⟨fun h => (fail_eq_ok.mp h).elim, fun ⟨h, _⟩ => ?_⟩
      cases h with
      | string lower upper _ => omega
  next hin =>
  split
  · next hout =>
      refine ⟨fun h => (fail_eq_ok.mp h).elim, fun ⟨h, _⟩ => ?_⟩
      cases h with
      | string _ _ declared =>
          simp only [Option.any_eq_true, Bool.not_eq_true', decide_eq_false_iff_not] at hout
          obtain ⟨entries, hentries, hnot⟩ := hout
          exact absurd (declared entries hentries) hnot
  · next hdeclared =>
      refine ⟨fun h => ⟨.string (by omega) (by omega) ?_, (Except.ok.inj h).symm⟩,
        fun ⟨_, h⟩ => by rw [h]⟩
      intro entries hentries
      simpa [hentries] using hdeclared

/-- The items of an array, when `visit` decides `P` on each of them. -/
theorem visitItems_ok_iff {visit : LuaValue → Bytes → Nat → Except LuaSchemaError Nat}
    {P : LuaValue → Prop} {items : List LuaValue}
    (hvisit : ∀ v ∈ items, ∀ path n n', visit v path n = .ok n' ↔
      P v ∧ n' = n + v.nodes ∧ n' ≤ luaMaxValueNodes)
    (path : Bytes) (index n n' : Nat) (hn : n ≤ luaMaxValueNodes) :
    visitItems visit path items index n = .ok n' ↔
      (∀ v ∈ items, P v) ∧ n' = n + LuaValue.nodesItems items ∧ n' ≤ luaMaxValueNodes := by
  induction items generalizing index n with
  | nil =>
      simp only [visitItems, LuaValue.nodesItems, Except.ok.injEq, List.not_mem_nil,
        false_imp_iff, implies_true, true_and]
      omega
  | cons v items ih =>
      have hv := hvisit v List.mem_cons_self (path ++ utf8 "[" ++ decimal (index + 1) ++ utf8 "]") n
      simp only [visitItems, LuaValue.nodesItems, List.forall_mem_cons]
      cases hread : visit v (path ++ utf8 "[" ++ decimal (index + 1) ++ utf8 "]") n with
      | error e =>
          refine ⟨nofun, fun ⟨⟨hP, _⟩, hcount, hle⟩ => ?_⟩
          have := (hv (n + v.nodes)).mpr ⟨hP, rfl, by omega⟩
          rw [hread] at this
          cases this
      | ok m =>
          obtain ⟨hP, hm, hle⟩ := (hv m).mp hread
          dsimp only
          rw [ih (fun w hw => hvisit w (List.mem_cons_of_mem _ hw)) (index + 1) m hle, hm]
          simp only [hP, true_and, Nat.add_assoc]

/-- What the merge asks of an object's entries. -/
structure Merges (fields : List LuaSchemaField) (entries : List (Bytes × LuaValue)) : Prop where
  declared : ∀ e ∈ entries, ∃ field ∈ fields, field.name = e.1
  present : ∀ field ∈ fields, field.required = true → ∃ v, (field.name, v) ∈ entries
  conforming : ∀ field ∈ fields, ∀ v, (field.name, v) ∈ entries → field.schema.Conforms v

/-- No entry is left over when the fields are used up. -/
theorem not_merges_nil {e : Bytes × LuaValue} {entries : List (Bytes × LuaValue)} :
    ¬Merges [] (e :: entries) := by
  intro h
  obtain ⟨_, hmem, _⟩ := h.declared e List.mem_cons_self
  exact absurd hmem List.not_mem_nil

/-- A field none of the entries belongs to. -/
theorem merges_cons_absent {field : LuaSchemaField} {fields : List LuaSchemaField}
    {entries : List (Bytes × LuaValue)} (habsent : ∀ e ∈ entries, field.name ≠ e.1) :
    Merges (field :: fields) entries ↔ field.required = false ∧ Merges fields entries := by
  constructor
  · intro h
    refine ⟨?_, ?_, ?_, ?_⟩
    · by_contra hreq
      obtain ⟨v, hv⟩ := h.present field List.mem_cons_self (Bool.eq_true_of_not_eq_false hreq)
      exact habsent _ hv rfl
    · intro e he
      obtain ⟨g, hg, hname⟩ := h.declared e he
      rcases List.mem_cons.mp hg with rfl | hg
      · exact absurd hname (habsent e he)
      · exact ⟨g, hg, hname⟩
    · exact fun g hg => h.present g (List.mem_cons_of_mem _ hg)
    · exact fun g hg => h.conforming g (List.mem_cons_of_mem _ hg)
  · rintro ⟨hreq, h⟩
    refine ⟨?_, ?_, ?_⟩
    · intro e he
      obtain ⟨g, hg, hname⟩ := h.declared e he
      exact ⟨g, List.mem_cons_of_mem _ hg, hname⟩
    · intro g hg hgreq
      rcases List.mem_cons.mp hg with rfl | hg
      · rw [hreq] at hgreq; cases hgreq
      · exact h.present g hg hgreq
    · intro g hg v hv
      rcases List.mem_cons.mp hg with rfl | hg
      · exact absurd rfl (habsent _ hv)
      · exact h.conforming g hg v hv

/-- A field that meets its entry: both lists go on. -/
theorem merges_cons_cons {field : LuaSchemaField} {fields : List LuaSchemaField} {v : LuaValue}
    {entries : List (Bytes × LuaValue)} (hfields : ∀ g ∈ fields, field.name < g.name)
    (hentries : ∀ e ∈ entries, field.name < e.1) :
    Merges (field :: fields) ((field.name, v) :: entries) ↔
      field.schema.Conforms v ∧ Merges fields entries := by
  constructor
  · intro h
    refine ⟨h.conforming field List.mem_cons_self v List.mem_cons_self, ?_, ?_, ?_⟩
    · intro e he
      obtain ⟨g, hg, hname⟩ := h.declared e (List.mem_cons_of_mem _ he)
      rcases List.mem_cons.mp hg with rfl | hg
      · exact absurd hname (ne_of_lt (hentries e he))
      · exact ⟨g, hg, hname⟩
    · intro g hg hreq
      obtain ⟨w, hw⟩ := h.present g (List.mem_cons_of_mem _ hg) hreq
      rcases List.mem_cons.mp hw with hw | hw
      · exact absurd (congrArg Prod.fst hw).symm (ne_of_lt (hfields g hg))
      · exact ⟨w, hw⟩
    · exact fun g hg w hw =>
        h.conforming g (List.mem_cons_of_mem _ hg) w (List.mem_cons_of_mem _ hw)
  · rintro ⟨hv, h⟩
    refine ⟨?_, ?_, ?_⟩
    · intro e he
      rcases List.mem_cons.mp he with rfl | he
      · exact ⟨field, List.mem_cons_self, rfl⟩
      · obtain ⟨g, hg, hname⟩ := h.declared e he
        exact ⟨g, List.mem_cons_of_mem _ hg, hname⟩
    · intro g hg hreq
      rcases List.mem_cons.mp hg with rfl | hg
      · exact ⟨v, List.mem_cons_self⟩
      · obtain ⟨w, hw⟩ := h.present g hg hreq
        exact ⟨w, List.mem_cons_of_mem _ hw⟩
    · intro g hg w hw
      rcases List.mem_cons.mp hg with rfl | hg
      · rcases List.mem_cons.mp hw with hw | hw
        · rw [(Prod.mk.inj hw).2]; exact hv
        · exact absurd (hentries _ hw) (lt_irrefl _)
      · rcases List.mem_cons.mp hw with hw | hw
        · exact absurd (Prod.mk.inj hw).1.symm (ne_of_lt (hfields g hg))
        · exact h.conforming g hg w hw

theorem conforms_object_iff {fields : List LuaSchemaField} {description : Bytes}
    {totals : SchemaTotals} {entries : List (Bytes × LuaValue)} :
    (LuaValueSchema.object fields description totals).Conforms (.table entries) ↔
      (∀ e ∈ entries, e.1.length ≤ luaMaxNameBytes) ∧ Merges fields entries := by
  constructor
  · intro h
    cases h with
    | object short declared present conforming => exact ⟨short, declared, present, conforming⟩
  · rintro ⟨short, h⟩
    exact .object short h.declared h.present h.conforming

theorem conforms_array_iff {item : LuaValueSchema} {minimumItems maximumItems : Nat}
    {description : Bytes} {totals : SchemaTotals} {items : List LuaValue} :
    (LuaValueSchema.array item minimumItems maximumItems description totals).Conforms
        (.array items) ↔
      (minimumItems ≤ items.length ∧ items.length ≤ maximumItems) ∧
        ∀ v ∈ items, item.Conforms v := by
  constructor
  · intro h
    cases h with
    | array lower upper conforming => exact ⟨⟨lower, upper⟩, conforming⟩
  · rintro ⟨⟨lower, upper⟩, conforming⟩
    exact .array lower upper conforming

end SchemaWalk

theorem LuaValue.mem_orderedItems {items : List LuaValue} (h : orderedItems items = true) :
    ∀ v ∈ items, v.ordered = true := by
  induction items with
  | nil => exact fun v hv => absurd hv List.not_mem_nil
  | cons w items ih =>
      simp only [orderedItems, Bool.and_eq_true] at h
      exact List.forall_mem_cons.mpr ⟨h.1, ih h.2⟩

theorem LuaValue.one_le_nodes (v : LuaValue) : 1 ≤ v.nodes := by
  cases v <;> simp [LuaValue.nodes]

namespace SchemaWalk

mutual

/-- The walk below a node accepts what conforms and stays within the node limit. -/
theorem visit_ok_iff : ∀ (schema : LuaValueSchema) (value : LuaValue) (path : Bytes) (n n' : Nat),
    schema.wellFormed = true → value.ordered = true →
      (visit schema value path n = .ok n' ↔
        schema.Conforms value ∧ n' = n + value.nodes ∧ n' ≤ luaMaxValueNodes)
  | schema, value, path, n, n', hs, hv => by
      have hpos := value.one_le_nodes
      unfold visit
      split
      · next hlimit =>
          refine ⟨fun h => (fail_eq_ok.mp h).elim, fun h => ?_⟩
          omega
      next hlimit =>
      have hn : n + 1 ≤ luaMaxValueNodes := Nat.le_of_not_gt hlimit
      split
      · simp only [LuaValue.nodes, Except.ok.injEq]
        exact ⟨fun h => ⟨.boolean, h.symm, by omega⟩, fun h => h.2.1.symm⟩
      · next minimum maximum description totals i =>
          have hone : (LuaValue.integer i).nodes = 1 := rfl
          rw [visitInteger_ok_iff, hone]
          exact ⟨fun h => ⟨h.1, h.2, by omega⟩, fun h => ⟨h.1, h.2.1⟩⟩
      · next minimum maximum description totals i =>
          have hone : (LuaValue.number i).nodes = 1 := rfl
          rw [visitNumber_ok_iff, hone]
          exact ⟨fun h => ⟨h.1, h.2, by omega⟩, fun h => ⟨h.1, h.2.1⟩⟩
      · next minimumBytes maximumBytes enumeration description totals i =>
          have hone : (LuaValue.string i).nodes = 1 := rfl
          rw [visitString_ok_iff, hone]
          exact ⟨fun h => ⟨h.1, h.2, by omega⟩, fun h => ⟨h.1, h.2.1⟩⟩
      · next item minimumItems maximumItems _ _ items =>
          rw [conforms_array_iff, LuaValue.nodes]
          split
          · next hout =>
              refine ⟨fun h => (fail_eq_ok.mp h).elim, fun h => ?_⟩
              omega
          · next hin =>
              have hitems := LuaValue.mem_orderedItems hv
              rw [visitItems_ok_iff (P := item.Conforms)
                (fun v hmem p m m' => visit_ok_iff item v p m m' hs (hitems v hmem)) path 0 (n + 1)
                n' hn]
              rw [Nat.add_assoc]
              exact ⟨fun h => ⟨⟨by omega, h.1⟩, h.2⟩, fun h => ⟨h.1.2, h.2⟩⟩
      · next fields _ _ entries =>
          simp only [LuaValueSchema.wellFormed, Bool.and_eq_true, decide_eq_true_eq] at hs
          simp only [LuaValue.ordered, Bool.and_eq_true, decide_eq_true_eq] at hv
          rw [conforms_object_iff, LuaValue.nodes]
          split
          · next hlong =>
              refine ⟨fun h => (fail_eq_ok.mp h).elim, fun h => ?_⟩
              obtain ⟨e, he, hlen⟩ := List.any_eq_true.mp hlong
              exact absurd (h.1.1 e he) (Nat.not_le.mpr (of_decide_eq_true hlen))
          · next hshort =>
              have hkeys : ∀ e ∈ entries, e.1.length ≤ luaMaxNameBytes := by
                intro e he
                by_contra hlen
                exact hshort (List.any_eq_true.mpr ⟨e, he, decide_eq_true (Nat.lt_of_not_le hlen)⟩)
              rw [visitFields_ok_iff fields entries path (n + 1) n' hs.1 hs.2 hv.1 hv.2 hn,
                Nat.add_assoc]
              exact ⟨fun h => ⟨⟨hkeys, h.1⟩, h.2⟩, fun h => ⟨h.1.2, h.2⟩⟩
      · next hkinds =>
          refine ⟨fun h => (fail_eq_ok.mp h).elim, fun ⟨h, _⟩ => ?_⟩
          -- a conforming value is of its schema's kind
          cases h <;> grind

theorem visitFields_ok_iff : ∀ (fields : List LuaSchemaField) (entries : List (Bytes × LuaValue))
    (path : Bytes) (n n' : Nat), (fields.Pairwise fun a b => a.name < b.name) →
      LuaValueSchema.wellFormedFields fields = true → Assoc.Sorted entries →
      LuaValue.orderedEntries entries = true → n ≤ luaMaxValueNodes →
      (visitFields fields entries path n = .ok n' ↔
        Merges fields entries ∧ n' = n + LuaValue.nodesEntries entries ∧ n' ≤ luaMaxValueNodes)
  | [], [], path, n, n', _, _, _, _, hn => by
      have hnil : Merges [] [] := ⟨nofun, nofun, nofun⟩
      simp only [visitFields, LuaValue.nodesEntries, Except.ok.injEq, hnil, true_and]
      omega
  | [], (key, v) :: entries, path, n, n', _, _, _, _, _ => by
      simp only [visitFields, fail_eq_ok, false_iff]
      exact fun h => not_merges_nil h.1
  | .mk name schema required :: fields, entries, path, n, n', hs, hos, he, hoe, hn => by
      obtain ⟨hhead, htail⟩ := List.pairwise_cons.mp hs
      simp only [LuaValueSchema.wellFormedFields, Bool.and_eq_true] at hos
      -- a field without an entry may only be left out when it is optional
      have hskip : (∀ e ∈ entries, name ≠ e.1) →
          ((if required then
              (fail (path ++ renderIndexSegment name) .missingField
                (utf8 "required field is absent") : Except LuaSchemaError Nat)
            else visitFields fields entries path n) = .ok n' ↔
            Merges (.mk name schema required :: fields) entries ∧
              n' = n + LuaValue.nodesEntries entries ∧ n' ≤ luaMaxValueNodes) := by
        intro habsent
        rw [merges_cons_absent habsent]
        cases required with
        | true => simp [LuaSchemaField.required]
        | false =>
            simp only [Bool.false_eq_true, if_false, LuaSchemaField.required, true_and]
            exact visitFields_ok_iff fields entries path n n' htail hos.2 he hoe hn
      cases entries with
      | nil =>
          rw [visitFields]
          exact hskip nofun
      | cons e entries =>
          obtain ⟨key, v⟩ := e
          obtain ⟨hfirst, hrest⟩ := List.pairwise_cons.mp he
          rw [visitFields]
          split
          · next hlt =>
              refine ⟨fun h => (fail_eq_ok.mp h).elim, fun ⟨h, _⟩ => ?_⟩
              obtain ⟨g, hg, hname⟩ := h.declared _ List.mem_cons_self
              have hsame : g.name = key := hname
              rcases List.mem_cons.mp hg with rfl | hg
              · exact absurd hlt (hsame ▸ lt_irrefl _)
              · exact absurd (lt_trans hlt (hhead g hg)) (hsame ▸ lt_irrefl _)
          next hge =>
          split
          · next hlt =>
              refine hskip fun e he => ?_
              rcases List.mem_cons.mp he with rfl | he
              · exact ne_of_lt hlt
              · exact ne_of_lt (lt_trans hlt (hfirst e he))
          · next hle =>
              obtain rfl : name = key := le_antisymm (not_lt.mp hge) (not_lt.mp hle)
              simp only [LuaValue.orderedEntries, Bool.and_eq_true] at hoe
              have hvisit := visit_ok_iff schema v (path ++ renderIndexSegment name) n
              have hmerge := @merges_cons_cons (.mk name schema required) fields v entries
                hhead hfirst
              simp only [LuaSchemaField.name, LuaSchemaField.schema] at hmerge
              rw [hmerge, LuaValue.nodesEntries]
              cases hread : visit schema v (path ++ renderIndexSegment name) n with
              | error e =>
                  refine ⟨nofun, fun ⟨⟨hP, _⟩, hcount, hle⟩ => ?_⟩
                  have := (hvisit (n + v.nodes) hos.1.2 hoe.1).mpr ⟨hP, rfl, by omega⟩
                  rw [hread] at this
                  cases this
              | ok m =>
                  obtain ⟨hP, hm, hmle⟩ := (hvisit m hos.1.2 hoe.1).mp hread
                  dsimp only
                  rw [visitFields_ok_iff fields entries path m n' htail hos.2 hrest hoe.2 hmle, hm]
                  simp only [hP, true_and, Nat.add_assoc]

end

end SchemaWalk

/-- `validate_lua_value` is exact: it accepts a value if and only if the value conforms to the
    schema and has no more nodes than the limit. -/
theorem validateLuaValue_exact {schema : LuaValueSchema} (built : schema.Built) {value : LuaValue}
    (ordered : value.ordered = true) :
    (validateLuaValue schema value).valid = true ↔
      schema.Conforms value ∧ value.nodes ≤ luaMaxValueNodes := by
  have hvisit := fun n => SchemaWalk.visit_ok_iff schema value [] 0 n built.wellFormed_depth.1 ordered
  unfold validateLuaValue LuaSchemaValidation.valid
  cases hread : SchemaWalk.visit schema value [] 0 with
  | error e =>
      refine ⟨nofun, fun h => ?_⟩
      have := (hvisit value.nodes).mpr ⟨h.1, (Nat.zero_add _).symm, h.2⟩
      rw [hread] at this
      cases this
  | ok n =>
      obtain ⟨hconforms, hn, hle⟩ := (hvisit n).mp hread
      rw [Nat.zero_add] at hn
      exact ⟨fun _ => ⟨hconforms, hn ▸ hle⟩, fun _ => rfl⟩

/-! ## A lamp's schema -/

/-- A required level from 0 to 100. -/
def levelField : LuaSchemaField :=
  .mk (utf8 "level") (.integer (some 0) (some 100) [] ⟨1, 0, 0, 0, 24⟩) true

/-- An optional room. -/
def roomField : LuaSchemaField :=
  .mk (utf8 "room") (.string 1 16 none [] ⟨1, 0, 0, 0, 24⟩) false

def lampSchema : LuaValueSchema := .object [levelField, roomField] [] ⟨3, 1, 0, 0, 83⟩

theorem lampSchema_built : lampSchema.Built := by
  have hlevel : levelField.schema.Built :=
    @LuaValueSchema.Built.integer (some 0) (some 100) [] _ rfl
  have hroom : roomField.schema.Built :=
    @LuaValueSchema.Built.string 1 16 none [] _ rfl
  refine @LuaValueSchema.Built.object [roomField, levelField] [] _ ?_ rfl
  intro field hfield
  simp only [List.mem_cons, List.not_mem_nil, or_false] at hfield
  rcases hfield with rfl | rfl
  · exact hroom
  · exact hlevel

theorem validateLuaValue_exact_lamp :
    (validateLuaValue lampSchema (.table [(utf8 "level", .integer 40)])).valid = true ↔
      lampSchema.Conforms (.table [(utf8 "level", .integer 40)]) ∧
        (LuaValue.table [(utf8 "level", .integer 40)]).nodes ≤ luaMaxValueNodes :=
  validateLuaValue_exact lampSchema_built (by decide)

example : (validateLuaValue lampSchema (.table [(utf8 "level", .integer 40)])).valid = true := by
  decide +kernel

end LiquidLayer
