/-
  A pushed value reads back as itself.

  `Holds h v o`: in the heap `h` the object `o` stands for the value `v`, in tables of its own.
  `wp_pushLuaValue`: what has been pushed holds, and its entries are charged.
  `Holds.metered`: what holds is read as the value, for its entries and bytes.
  `marshalling` puts the two together with the independence of the traversal.
-/
import LiquidLayer.Scripting.Marshal

namespace LiquidLayer

open Prog

namespace Marshal

/-! ## The entries of a value -/

mutual

/-- The entries of all tables inside a value. -/
def entryCount : LuaValue → Nat
  | .array items => entryCountItems items
  | .table entries => entryCountEntries entries
  | _ => 0

def entryCountItems : List LuaValue → Nat
  | [] => 0
  | item :: rest => 1 + entryCount item + entryCountItems rest

def entryCountEntries : List (Bytes × LuaValue) → Nat
  | [] => 0
  | (_, child) :: rest => 1 + entryCount child + entryCountEntries rest

end

/-! ## Objects that stand for values -/

section Holds

variable (limits : LuaExecutionLimits) (h : LuaHeap) (high : Nat)

mutual

/-- The object stands for the value, within so many levels and limits, in tables from `low` to
    `high`, each of them used once. -/
def Holds : LuaValue → Nat → Nat → LuaObject → Prop
  | value, levels, low, object => 0 < levels ∧
    match value with
    | .boolean stored => object = .boolean stored
    | .integer stored => object = .integer stored
    | .number bits => object = .number bits ∧ isFinite bits = true
    | .string text => object = .string text ∧ text.length ≤ limits.maxStringBytes.toNat
    | .array items => ∃ table, low ≤ table ∧ table + 1 < high ∧ object = .table table ∧
        (h.tables table).metatable = some (table + 1) ∧
        (h.tables (table + 1)).rawGet (.lightUserdata .arrayMetatable) = .boolean true ∧
        items.length ≤ maxInt ∧
        HoldsItems items (levels - 1) (table + 2) 0 (h.tables table).entries
    | .table entries => ∃ table, low ≤ table ∧ table < high ∧ object = .table table ∧
        (h.tables table).metatable = none ∧
        HoldsEntries entries (levels - 1) (table + 1) (h.tables table).entries

def HoldsItems : List LuaValue → Nat → Nat → Nat → List (LuaObject × LuaObject) → Prop
  | [], _, _, _, found => found = []
  | item :: rest, levels, low, i, found => ∃ object others,
      found = (.integer (Int64.ofNat (i + 1)), object) :: others ∧
        Holds item levels low object ∧ HoldsItems rest levels low (i + 1) others

def HoldsEntries : List (Bytes × LuaValue) → Nat → Nat → List (LuaObject × LuaObject) → Prop
  | [], _, _, found => found = []
  | (key, child) :: rest, levels, low, found => ∃ object others,
      found = (.string key, object) :: others ∧ key.length ≤ limits.maxStringBytes.toNat ∧
        Holds child levels low object ∧ HoldsEntries rest levels low others

end

end Holds

section Mono

variable {limits : LuaExecutionLimits} {h h' : LuaHeap} {high high' : Nat}

mutual

/-- Tables of other values may change. -/
theorem Holds.mono (hhigh : high ≤ high') :
    ∀ (value : LuaValue) {levels low low' : Nat} {object : LuaObject},
      low' ≤ low → (∀ id, low ≤ id → id < high → h'.tables id = h.tables id) →
      Holds limits h high value levels low object → Holds limits h' high' value levels low' object
  | value, levels, low, low', object, hlow, hsame, hholds => by
      unfold Holds at hholds ⊢
      refine ⟨hholds.1, ?_⟩
      have hholds := hholds.2
      cases value with
      | boolean | integer | number | string => exact hholds
      | array items =>
          obtain ⟨table, hge, hlt, hobject, hmeta, hmark, hlength, hitems⟩ := hholds
          have htable := hsame table hge (by omega)
          refine ⟨table, by omega, by omega, hobject, ?_, ?_, hlength, ?_⟩
          · rw [htable, hmeta]
          · rw [hsame (table + 1) (by omega) hlt, hmark]
          · rw [htable]
            exact HoldsItems.mono hhigh items le_rfl (fun id hid => hsame id (by omega)) hitems
      | table entries =>
          obtain ⟨table, hge, hlt, hobject, hmeta, hentries⟩ := hholds
          have htable := hsame table hge hlt
          refine ⟨table, by omega, by omega, hobject, ?_, ?_⟩
          · rw [htable, hmeta]
          · rw [htable]
            exact HoldsEntries.mono hhigh entries le_rfl (fun id hid => hsame id (by omega)) hentries

theorem HoldsItems.mono (hhigh : high ≤ high') :
    ∀ (items : List LuaValue) {levels low low' i : Nat} {found : List (LuaObject × LuaObject)},
      low' ≤ low → (∀ id, low ≤ id → id < high → h'.tables id = h.tables id) →
      HoldsItems limits h high items levels low i found →
      HoldsItems limits h' high' items levels low' i found
  | [], _, _, _, _, _, _, _, hholds => hholds
  | item :: rest, _, _, _, _, _, hlow, hsame, hholds => by
      obtain ⟨object, others, hfound, hitem, hrest⟩ := hholds
      exact ⟨object, others, hfound, Holds.mono hhigh item hlow hsame hitem,
        HoldsItems.mono hhigh rest hlow hsame hrest⟩

theorem HoldsEntries.mono (hhigh : high ≤ high') :
    ∀ (entries : List (Bytes × LuaValue)) {levels low low' : Nat}
      {found : List (LuaObject × LuaObject)},
      low' ≤ low → (∀ id, low ≤ id → id < high → h'.tables id = h.tables id) →
      HoldsEntries limits h high entries levels low found →
      HoldsEntries limits h' high' entries levels low' found
  | [], _, _, _, _, _, _, hholds => hholds
  | (key, child) :: rest, _, _, _, _, hlow, hsame, hholds => by
      obtain ⟨object, others, hfound, hkey, hchild, hrest⟩ := hholds
      exact ⟨object, others, hfound, hkey, Holds.mono hhigh child hlow hsame hchild,
        HoldsEntries.mono hhigh rest hlow hsame hrest⟩

end

end Mono

/-! ## What has been pushed -/

section Push

variable {limits : LuaExecutionLimits}

/-- The object stands for the value in new tables, and the entries are charged. -/
structure Pushed (limits : LuaExecutionLimits) (value : LuaValue) (levels : Nat) (s : PushState)
    (object : LuaObject) (s' : PushState) : Prop where
  next : s.heap.next ≤ s'.heap.next
  kept : ∀ id < s.heap.next, s'.heap.tables id = s.heap.tables id
  holds : Holds limits s'.heap s'.heap.next value levels s.heap.next object
  spent : spendEntries limits (entryCount value) s.entries = some s'.entries

/-- The fields `found` are new in the table; other tables are as they were. -/
structure Filled (table : Nat) (s : PushState) (found : List (LuaObject × LuaObject))
    (s' : PushState) : Prop where
  next : s.heap.next ≤ s'.heap.next
  kept : ∀ id < s.heap.next, id ≠ table → s'.heap.tables id = s.heap.tables id
  metatable : (s'.heap.tables table).metatable = (s.heap.tables table).metatable
  entries : (s'.heap.tables table).entries = (s.heap.tables table).entries ++ found

theorem Filled.refl (table : Nat) (s : PushState) : Filled table s [] s :=
  ⟨le_rfl, fun _ _ _ => rfl, rfl, (List.append_nil _).symm⟩

theorem Filled.trans {table : Nat} {s s' s'' : PushState}
    {found found' : List (LuaObject × LuaObject)} (h : Filled table s found s')
    (h' : Filled table s' found' s'') : Filled table s (found ++ found') s'' where
  next := h.next.trans h'.next
  kept id hid hne := (h'.kept id (hid.trans_le h.next) hne).trans (h.kept id hid hne)
  metatable := h'.metatable.trans h.metatable
  entries := by rw [h'.entries, h.entries, List.append_assoc]

theorem wp_count {Q : Unit → PushState → Prop} {s : PushState}
    (hQ : ∀ entries, spendEntries limits 1 s.entries = some entries →
      Q () { s with entries := entries }) :
    wp (PushM.count limits) Q (fun _ _ => True) s := by
  unfold PushM.count
  rw [wp_bind, wp_modify, wp_bind, wp_get, wp_ite]
  refine ⟨fun _ => (wp_throw _).mpr trivial, fun hle => (wp_pure _).mpr (hQ _ ?_)⟩
  unfold spendEntries
  rw [if_neg Nat.one_ne_zero, if_pos fun i hi => ?_]
  rw [Nat.lt_one_iff.mp hi]
  exact Nat.not_lt.mp hle

theorem rawSet_entries {t : LuaTable} {key : LuaObject} (hnew : key ∉ t.entries.map Prod.fst)
    (value : LuaObject) : (t.rawSet key value).entries = t.entries ++ [(key, value)] := by
  have hkept : t.entries.filter (fun e => decide (e.1 ≠ key)) = t.entries := by
    refine List.filter_eq_self.mpr fun e he => decide_eq_true ?_
    rintro rfl
    exact hnew (List.mem_map_of_mem he)
  show t.entries.filter _ ++ _ = _
  rw [hkept]

/-- One round of a loop over items or fields, and what comes after it. -/
theorem wp_round {value : LuaValue} {depth levels table : Nat} {key : LuaObject} {s : PushState}
    {rest : PushM Unit} {Q : Unit → PushState → Prop}
    (hpush : ∀ s, wp (pushLuaValue limits value depth) (Pushed limits value levels s)
      (fun _ _ => True) s)
    (htable : table < s.heap.next) (hnew : key ∉ (s.heap.tables table).entries.map Prod.fst)
    (hrest : ∀ object s', Filled table s [(key, object)] s' →
      Holds limits s'.heap s'.heap.next value levels s.heap.next object →
      spendEntries limits (1 + entryCount value) s.entries = some s'.entries →
      wp rest Q (fun _ _ => True) s') :
    wp (do
        PushM.count limits
        let pushed ← pushLuaValue limits value depth
        PushM.onHeap fun h => h.rawSet table key pushed
        rest) Q (fun _ _ => True) s := by
  rw [wp_bind]
  refine wp_count fun entries hcounted => ?_
  rw [wp_bind]
  refine wp_mono (hpush _) (fun object s₁ hpushed => ?_) fun _ _ _ => trivial
  unfold PushM.onHeap
  rw [wp_bind, wp_modify]
  have hkept : ∀ id, id ≠ table →
      (s₁.heap.rawSet table key object).tables id = s₁.heap.tables id := fun id hne =>
    Function.update_of_ne hne _ _
  have hself : (s₁.heap.rawSet table key object).tables table =
      (s.heap.tables table).rawSet key object := by
    show Function.update s₁.heap.tables table _ table = _
    rw [Function.update_self, hpushed.kept table htable]
  refine hrest object _ ⟨hpushed.next, fun id hid hne => ?_, ?_, ?_⟩ ?_ ?_
  · exact (hkept id hne).trans (hpushed.kept id hid)
  · exact (congrArg LuaTable.metatable hself).trans rfl
  · rw [← rawSet_entries hnew object]
    exact congrArg LuaTable.entries hself
  · -- the value's tables are newer than the one it is put in
    exact Holds.mono le_rfl value le_rfl
      (fun id hid _ => hkept id (Nat.ne_of_gt (htable.trans_le hid))) hpushed.holds
  · rw [spendEntries_add, hcounted]
    exact hpushed.spent

/-- The keys are those of places before `i`. -/
def PlacesBelow (i : Nat) (entries : List (LuaObject × LuaObject)) : Prop :=
  ∀ e ∈ entries, ∃ j < i, e.1 = .integer (Int64.ofNat (j + 1))

theorem ofNat_inj {i j : Nat} (hi : i < 2 ^ 63) (hj : j < 2 ^ 63)
    (h : Int64.ofNat i = Int64.ofNat j) : i = j := by
  have := congrArg Int64.toNatClampNeg h
  rwa [Int64.toNatClampNeg_ofNat_of_lt hi, Int64.toNatClampNeg_ofNat_of_lt hj] at this

theorem PlacesBelow.new {i : Nat} {entries : List (LuaObject × LuaObject)}
    (h : PlacesBelow i entries) (hi : i < maxInt) :
    LuaObject.integer (Int64.ofNat (i + 1)) ∉ entries.map Prod.fst := by
  unfold maxInt at hi
  intro hmem
  obtain ⟨e, he, hkey⟩ := List.mem_map.mp hmem
  obtain ⟨j, hj, hej⟩ := h e he
  have := ofNat_inj (by omega) (by omega) (LuaObject.integer.inj (hkey.symm.trans hej))
  omega

theorem PlacesBelow.append {i : Nat} {entries : List (LuaObject × LuaObject)}
    (h : PlacesBelow i entries) (object : LuaObject) :
    PlacesBelow (i + 1) (entries ++ [(.integer (Int64.ofNat (i + 1)), object)]) := by
  intro e he
  rcases List.mem_append.mp he with he | he
  · obtain ⟨j, hj, hej⟩ := h e he
    exact ⟨j, by omega, hej⟩
  · exact ⟨i, by omega, by rw [List.mem_singleton.mp he]⟩

/-- A table that has just been made. -/
theorem wp_createTable {α : Type} {f : Nat → PushM α} {Q : α → PushState → Prop} {s : PushState}
    (hQ : wp (f s.heap.next) Q (fun _ _ => True) { s with heap := s.heap.create }) :
    wp (PushM.createTable >>= f) Q (fun _ _ => True) s := by
  unfold PushM.createTable PushM.onHeap
  rw [wp_bind, wp_bind, wp_get]
  dsimp only
  rw [wp_bind, wp_modify, wp_pure]
  exact hQ

theorem create_tables_self (h : LuaHeap) : h.create.tables h.next = .empty :=
  Function.update_self ..

theorem create_tables_of_ne (h : LuaHeap) {id : Nat} (hne : id ≠ h.next) :
    h.create.tables id = h.tables id := Function.update_of_ne hne _ _

/-- The heap with a new table that is marked as an array by the next one. -/
def withArray (h : LuaHeap) : LuaHeap :=
  (h.create.create.rawSet (h.next + 1) (.lightUserdata .arrayMetatable) (.boolean true)).setMetatable
    h.next (h.next + 1)

theorem withArray_self (h : LuaHeap) : (withArray h).tables h.next =
    { LuaTable.empty with metatable := some (h.next + 1) } := by
  have hne : h.next ≠ h.next + 1 := Nat.ne_of_lt (Nat.lt_succ_self _)
  have hempty : (h.create.create.rawSet (h.next + 1) (.lightUserdata .arrayMetatable)
      (.boolean true)).tables h.next = .empty := by
    show Function.update h.create.create.tables (h.next + 1) _ h.next = _
    rw [Function.update_of_ne hne]
    show Function.update h.create.tables (h.next + 1) _ h.next = _
    rw [Function.update_of_ne hne, create_tables_self]
  show Function.update _ h.next _ h.next = _
  rw [Function.update_self, hempty]

theorem withArray_mark (h : LuaHeap) : (withArray h).tables (h.next + 1) =
    LuaTable.empty.rawSet (.lightUserdata .arrayMetatable) (.boolean true) := by
  show Function.update _ h.next _ (h.next + 1) = _
  rw [Function.update_of_ne (Nat.ne_of_gt (Nat.lt_succ_self _))]
  show Function.update h.create.create.tables (h.next + 1) _ (h.next + 1) = _
  rw [Function.update_self]
  exact congrArg (fun t => LuaTable.rawSet t _ _) (create_tables_self h.create)

theorem withArray_of_lt (h : LuaHeap) {id : Nat} (hid : id < h.next) :
    (withArray h).tables id = h.tables id := by
  show Function.update _ h.next _ id = _
  rw [Function.update_of_ne (Nat.ne_of_lt hid)]
  show Function.update h.create.create.tables (h.next + 1) _ id = _
  rw [Function.update_of_ne (by omega)]
  show Function.update h.create.tables (h.next + 1) _ id = _
  rw [Function.update_of_ne (by omega), create_tables_of_ne _ (Nat.ne_of_lt hid)]

theorem nodup_of_sorted {entries : List (Bytes × LuaValue)} (h : Assoc.Sorted entries) :
    (entries.map Prod.fst).Nodup :=
  List.pairwise_map.mpr (h.imp fun hlt => ne_of_lt hlt)

mutual

theorem wp_pushLuaValue : ∀ (value : LuaValue), value.ordered = true →
    ∀ (depth : Nat) (s : PushState), wp (pushLuaValue limits value depth)
      (Pushed limits value (limits.maxTableDepth.toNat + 1 - depth) s) (fun _ _ => True) s
  | value, hordered, depth, s => by
      unfold pushLuaValue
      rw [wp_ite]
      refine ⟨fun _ => (wp_throw _).mpr trivial, fun hdepth => ?_⟩
      have hlevels : 0 < limits.maxTableDepth.toNat + 1 - depth := by omega
      have hbelow : limits.maxTableDepth.toNat + 1 - depth - 1 =
          limits.maxTableDepth.toNat - depth := by omega
      -- a value without tables takes nothing from the heap
      have hscalar : ∀ object, entryCount value = 0 →
          Holds limits s.heap s.heap.next value (limits.maxTableDepth.toNat + 1 - depth)
            s.heap.next object →
          Pushed limits value (limits.maxTableDepth.toNat + 1 - depth) s object s := by
        intro object hcount hholds
        refine ⟨le_rfl, fun _ _ => rfl, hholds, ?_⟩
        rw [hcount]
        exact if_pos rfl
      cases value with
      | boolean stored =>
          refine (wp_pure _).mpr (hscalar _ rfl ?_)
          unfold Holds
          exact ⟨hlevels, rfl⟩
      | integer stored =>
          refine (wp_pure _).mpr (hscalar _ rfl ?_)
          unfold Holds
          exact ⟨hlevels, rfl⟩
      | number bits =>
          dsimp only
          rw [wp_ite]
          refine ⟨fun _ => (wp_throw _).mpr trivial,
            fun hfinite => (wp_pure _).mpr (hscalar _ rfl ?_)⟩
          unfold Holds
          exact ⟨hlevels, rfl, by simpa using hfinite⟩
      | string text =>
          dsimp only
          rw [wp_ite]
          refine ⟨fun _ => (wp_throw _).mpr trivial,
            fun hlength => (wp_pure _).mpr (hscalar _ rfl ?_)⟩
          unfold Holds
          exact ⟨hlevels, rfl, Nat.not_lt.mp hlength⟩
      | array items =>
          dsimp only
          rw [wp_ite]
          refine ⟨fun _ => (wp_throw _).mpr trivial, fun hlength => ?_⟩
          have hlength : items.length ≤ maxInt := by omega
          refine wp_createTable (wp_createTable ?_)
          unfold PushM.onHeap
          rw [wp_bind, wp_modify, wp_bind, wp_modify, wp_bind]
          have hself := withArray_self s.heap
          refine wp_mono (wp_pushItems items hordered 0 s.heap.next depth
            { s with heap := withArray s.heap } (Nat.lt_succ_of_lt (Nat.lt_succ_self _)) (by omega)
            fun e he => ?_) (fun _ s' h => ?_) fun _ _ _ => trivial
          · rw [hself] at he
            exact absurd he List.not_mem_nil
          · obtain ⟨found, hfilled, hholds, hspent⟩ := h
            have hnext : s.heap.next + 2 ≤ s'.heap.next := hfilled.next
            refine (wp_pure _).mpr ⟨by omega, fun id hid => ?_, ?_, hspent⟩
            · rw [hfilled.kept id (by show id < s.heap.next + 2; omega) (Nat.ne_of_lt hid)]
              exact withArray_of_lt _ hid
            · unfold Holds
              refine ⟨hlevels, s.heap.next, le_rfl, by omega, rfl, ?_, ?_, hlength, ?_⟩
              · rw [hfilled.metatable, hself]
              · rw [hfilled.kept (s.heap.next + 1) (Nat.lt_succ_self _)
                  (Nat.ne_of_gt (Nat.lt_succ_self _)), withArray_mark]
                rfl
              · rw [hbelow, hfilled.entries, hself]
                exact hholds
      | table entries =>
          dsimp only
          rw [wp_ite]
          refine ⟨fun _ => (wp_throw _).mpr trivial, fun hlength => wp_createTable ?_⟩
          rw [LuaValue.ordered, Bool.and_eq_true, decide_eq_true_eq] at hordered
          rw [wp_bind]
          refine wp_mono (wp_pushEntries entries hordered.2 s.heap.next depth _
            (Nat.lt_succ_self _) (nodup_of_sorted hordered.1) fun e _ => ?_)
            (fun _ s' h => ?_) fun _ _ _ => trivial
          · rw [create_tables_self]
            exact List.not_mem_nil
          · obtain ⟨found, hfilled, hholds, hspent⟩ := h
            refine (wp_pure _).mpr ⟨(Nat.le_succ _).trans hfilled.next, fun id hid => ?_, ?_, ?_⟩
            · rw [hfilled.kept id (hid.trans (Nat.lt_succ_self _)) (Nat.ne_of_lt hid)]
              exact create_tables_of_ne _ (Nat.ne_of_lt hid)
            · unfold Holds
              refine ⟨hlevels, s.heap.next, le_rfl, hfilled.next, rfl, ?_, ?_⟩
              · rw [hfilled.metatable, create_tables_self]
                rfl
              · rw [hbelow, hfilled.entries, create_tables_self]
                exact hholds
            · exact hspent

theorem wp_pushItems : ∀ (items : List LuaValue), LuaValue.orderedItems items = true →
    ∀ (i table depth : Nat) (s : PushState), table < s.heap.next → i + items.length ≤ maxInt →
    PlacesBelow i (s.heap.tables table).entries →
    wp (pushItems limits items i table depth)
      (fun _ s' => ∃ found, Filled table s found s' ∧
        HoldsItems limits s'.heap s'.heap.next items (limits.maxTableDepth.toNat - depth)
          s.heap.next i found ∧
        spendEntries limits (entryCountItems items) s.entries = some s'.entries)
      (fun _ _ => True) s
  | [], _, i, table, depth, s, _, _, _ => by
      unfold pushItems
      refine (wp_pure _).mpr ⟨[], .refl table s, ?_, if_pos rfl⟩
      unfold HoldsItems
      rfl
  | item :: rest, hordered, i, table, depth, s, htable, hlength, hplaces => by
      rw [LuaValue.orderedItems, Bool.and_eq_true] at hordered
      rw [List.length_cons] at hlength
      have hlevels : limits.maxTableDepth.toNat + 1 - (depth + 1) =
          limits.maxTableDepth.toNat - depth := by omega
      unfold pushItems
      refine wp_round (fun s => wp_pushLuaValue item hordered.1 (depth + 1) s) htable
        (hplaces.new (by omega)) fun object s₁ hfilled hholds hspent => ?_
      rw [hlevels] at hholds
      refine wp_mono (wp_pushItems rest hordered.2 (i + 1) table depth s₁
        (htable.trans_le hfilled.next) (by omega) (hfilled.entries ▸ hplaces.append object))
        (fun _ s' h => ?_) fun _ _ _ => trivial
      obtain ⟨others, hfilled', hothers, hspent'⟩ := h
      refine ⟨_, hfilled.trans hfilled', ?_, ?_⟩
      · unfold HoldsItems
        refine ⟨object, others, rfl, ?_, ?_⟩
        · exact Holds.mono hfilled'.next item le_rfl
            (fun id hid hlt => hfilled'.kept id hlt (Nat.ne_of_gt (htable.trans_le hid))) hholds
        · exact HoldsItems.mono le_rfl rest hfilled.next (fun _ _ _ => rfl) hothers
      · rw [entryCountItems, spendEntries_add, hspent]
        exact hspent'

theorem wp_pushEntries : ∀ (entries : List (Bytes × LuaValue)),
    LuaValue.orderedEntries entries = true →
    ∀ (table depth : Nat) (s : PushState), table < s.heap.next →
    (entries.map Prod.fst).Nodup →
    (∀ e ∈ entries, LuaObject.string e.1 ∉ (s.heap.tables table).entries.map Prod.fst) →
    wp (pushEntries limits entries table depth)
      (fun _ s' => ∃ found, Filled table s found s' ∧
        HoldsEntries limits s'.heap s'.heap.next entries (limits.maxTableDepth.toNat - depth)
          s.heap.next found ∧
        spendEntries limits (entryCountEntries entries) s.entries = some s'.entries)
      (fun _ _ => True) s
  | [], _, table, depth, s, _, _, _ => by
      unfold pushEntries
      refine (wp_pure _).mpr ⟨[], .refl table s, ?_, if_pos rfl⟩
      unfold HoldsEntries
      rfl
  | (key, child) :: rest, hordered, table, depth, s, htable, hkeys, hnew => by
      rw [LuaValue.orderedEntries, Bool.and_eq_true] at hordered
      have hlevels : limits.maxTableDepth.toNat + 1 - (depth + 1) =
          limits.maxTableDepth.toNat - depth := by omega
      unfold pushEntries
      rw [wp_ite]
      refine ⟨fun _ => (wp_throw _).mpr trivial, fun hkey => ?_⟩
      refine wp_round (fun s => wp_pushLuaValue child hordered.1 (depth + 1) s) htable
        (hnew _ List.mem_cons_self) fun object s₁ hfilled hholds hspent => ?_
      rw [hlevels] at hholds
      rw [List.map_cons, List.nodup_cons] at hkeys
      refine wp_mono (wp_pushEntries rest hordered.2 table depth s₁
        (htable.trans_le hfilled.next) hkeys.2 fun e he => ?_)
        (fun _ s' h => ?_) fun _ _ _ => trivial
      · rw [hfilled.entries, List.map_append, List.mem_append]
        rintro (hmem | hmem)
        · exact hnew e (List.mem_cons_of_mem _ he) hmem
        · have hsame : e.1 = key := LuaObject.string.inj (List.mem_singleton.mp hmem)
          exact hkeys.1 (List.mem_map.mpr ⟨e, he, hsame⟩)
      obtain ⟨others, hfilled', hothers, hspent'⟩ := h
      refine ⟨_, hfilled.trans hfilled', ?_, ?_⟩
      · unfold HoldsEntries
        refine ⟨object, others, rfl, Nat.not_lt.mp hkey, ?_, ?_⟩
        · exact Holds.mono hfilled'.next child le_rfl
            (fun id hid hlt => hfilled'.kept id hlt (Nat.ne_of_gt (htable.trans_le hid))) hholds
        · exact HoldsEntries.mono le_rfl rest hfilled.next (fun _ _ _ => rfl) hothers
      · rw [entryCountEntries, spendEntries_add, hspent]
        exact hspent'

end

end Push

/-! ## What holds is read -/

section Read

variable {sizeofLuaValue : UInt64} {limits : LuaExecutionLimits}

/-- The traversal in which the entries are in the order of the table's list. -/
def listed (h : LuaHeap) : Traversal h := ⟨fun table => (h.tables table).entries, fun _ => .rfl⟩

/-- Items with their positions. -/
def numbered : List LuaValue → Nat → List (Nat × LuaValue)
  | [], _ => []
  | item :: rest, position => (position, item) :: numbered rest (position + 1)

theorem contiguous_numbered (items : List LuaValue) (position : Nat) :
    contiguous (numbered items position) position = some items := by
  induction items generalizing position with
  | nil => rfl
  | cons item rest ih =>
      unfold numbered contiguous
      rw [if_neg (fun hne => hne rfl), ih]
      rfl

theorem numbered_append (items : List LuaValue) (item : LuaValue) (position : Nat) :
    numbered (items ++ [item]) position =
      numbered items position ++ [(position + items.length, item)] := by
  induction items generalizing position with
  | nil => rfl
  | cons first rest ih =>
      show (position, first) :: numbered (rest ++ [item]) (position + 1) = _
      rw [ih, List.length_cons, Nat.add_right_comm]
      rfl

theorem lt_of_mem_numbered {items : List LuaValue} {position : Nat} {e : Nat × LuaValue}
    (h : e ∈ numbered items position) : e.1 < position + items.length := by
  induction items generalizing position with
  | nil => exact absurd h List.not_mem_nil
  | cons first rest ih =>
      rw [List.length_cons]
      rcases List.mem_cons.mp h with rfl | h
      · show position < _
        omega
      · have := ih h
        omega

theorem emplace_of_gt {K V : Type} [LinearOrder K] {m : OrdMap K V} {k : K} (v : V)
    (h : ∀ e ∈ m.entries, e.1 < k) : (m.emplace k v).entries = m.entries ++ [(k, v)] := by
  show Assoc.emplace k v m.entries = _
  unfold Assoc.emplace
  rw [Assoc.find?_eq_none_of_gt h]
  exact Assoc.insert_of_gt h

theorem meteredEntry_eq {metered : Nat → Metered Price LuaValue} {found : TableRead}
    (entry : LuaObject × LuaObject) {value : LuaValue} {price : Price}
    (hobject : meteredObject sizeofLuaValue limits metered entry.2 = .costs value price)
    (hfits : fitsKey limits entry.1 found = true) :
    meteredEntry sizeofLuaValue limits metered found entry =
      .costs (putKey entry.1 value found) ((1, 0) + (price + keyPrice entry.1)) := by
  unfold meteredEntry Metered.price
  rw [hobject, Metered.costs_bind, Metered.costs_bind, meteredStore_eq, if_pos hfits]
  rfl

/-- The key of a place fits into an array. -/
theorem fitsKey_place {i : Nat} (hi : i < maxInt) {found : TableRead}
    (hkeys : found.hasStringKeys = false) :
    fitsKey limits (.integer (Int64.ofNat (i + 1))) found = true := by
  unfold maxInt at hi
  have hpositive : (0 : Int64) < Int64.ofNat (i + 1) := by
    rw [Int64.lt_iff_toInt_lt, Int64.toInt_ofNat_of_lt (by omega), Int64.toInt_zero]
    omega
  simp only [fitsKey, hkeys, Bool.not_false, Bool.true_and, decide_eq_true hpositive]

section Holds

variable {h : LuaHeap} {high : Nat}

mutual

/-- What stands for a value is read as the value, for its entries and bytes. -/
theorem Holds.metered : ∀ (value : LuaValue), value.ordered = true →
    ∀ {levels low : Nat} {object : LuaObject} {seen : List Nat},
      Holds limits h high value levels low object → (∀ table ∈ seen, table < low) →
      meteredObject sizeofLuaValue limits
          (meteredTable sizeofLuaValue limits (listed h) levels seen) object =
        .costs value (entryCount value, bufferedCost sizeofLuaValue.toNat value)
  | value, hordered, levels, low, object, seen, hholds, hseen => by
      unfold Holds at hholds
      obtain ⟨hlevels, hholds⟩ := hholds
      cases value with
      | boolean | integer =>
          rw [hholds]
          simp [meteredObject, priceBytes, Metered.price, Metered.pure_def, entryCount,
            bufferedCost]
      | number bits =>
          rw [hholds.1]
          simp [meteredObject, priceBytes, Metered.price, Metered.pure_def, entryCount,
            bufferedCost, hholds.2]
      | string text =>
          rw [hholds.1]
          simp [meteredObject, priceBytes, Metered.price, Metered.pure_def, entryCount,
            bufferedCost, Nat.not_lt.mpr hholds.2]
      | array items =>
          obtain ⟨table, hlow, -, rfl, hmeta, hmark, hlength, hitems⟩ := hholds
          obtain ⟨levels, rfl⟩ : ∃ n, levels = n + 1 := ⟨levels - 1, by omega⟩
          have hnew : table ∉ seen := fun hmem => absurd (hseen table hmem) (Nat.not_lt.mpr hlow)
          have hhost : h.hostArray table = true := by
            unfold LuaHeap.hostArray
            rw [hmeta]
            dsimp only
            rw [hmark]
            rfl
          have hinside : ∀ t ∈ table :: seen, t < table + 2 := by
            intro t ht
            rcases List.mem_cons.mp ht with rfl | ht
            · omega
            · have := hseen t ht
              omega
          have hlength : ([] : List LuaValue).length + items.length ≤ maxInt := by simpa using hlength
          have hread := HoldsItems.metered items hordered ⟨.empty, .empty, false, true⟩ hlength
            hitems hinside rfl rfl rfl
          obtain ⟨found, hfold, hentries, hinteger⟩ := hread
          rw [Nat.add_sub_cancel] at hfold
          show meteredTable sizeofLuaValue limits (listed h) (levels + 1) seen table = _
          unfold meteredTable priceBytes Metered.price
          rw [Metered.costs_bind, if_neg hnew, hhost]
          rw [show (listed h).visit table = (h.tables table).entries from rfl, hfold,
            Metered.costs_bind, meteredValue, hinteger, hentries, List.nil_append,
            contiguous_numbered]
          simp [Metered.pure_def, entryCount, bufferedCost]
      | table entries =>
          obtain ⟨table, hlow, -, rfl, hmeta, hentries⟩ := hholds
          rw [LuaValue.ordered, Bool.and_eq_true, decide_eq_true_eq] at hordered
          obtain ⟨levels, rfl⟩ : ∃ n, levels = n + 1 := ⟨levels - 1, by omega⟩
          have hnew : table ∉ seen := fun hmem => absurd (hseen table hmem) (Nat.not_lt.mpr hlow)
          have hhost : h.hostArray table = false := by
            unfold LuaHeap.hostArray
            rw [hmeta]
          have hinside : ∀ t ∈ table :: seen, t < table + 1 := by
            intro t ht
            rcases List.mem_cons.mp ht with rfl | ht
            · omega
            · have := hseen t ht
              omega
          have hsorted : Assoc.Sorted ([] ++ entries) := hordered.1
          have hread := HoldsEntries.metered entries hordered.2 ⟨.empty, .empty, false, false⟩
            hsorted hentries hinside rfl rfl
          obtain ⟨found, hfold, hobject, hinteger⟩ := hread
          rw [Nat.add_sub_cancel] at hfold
          show meteredTable sizeofLuaValue limits (listed h) (levels + 1) seen table = _
          unfold meteredTable priceBytes Metered.price
          rw [Metered.costs_bind, if_neg hnew, hhost]
          rw [show (listed h).visit table = (h.tables table).entries from rfl, hfold,
            Metered.costs_bind, meteredValue, hinteger, hobject]
          simp [Metered.pure_def, entryCount, bufferedCost]

/-- The loop over the fields of an array, after the items that are done. -/
theorem HoldsItems.metered : ∀ (items : List LuaValue), LuaValue.orderedItems items = true →
    ∀ (found : TableRead) {levels low : Nat} {seen : List Nat} {done : List LuaValue}
      {fields : List (LuaObject × LuaObject)}, done.length + items.length ≤ maxInt →
      HoldsItems limits h high items levels low done.length fields →
      (∀ table ∈ seen, table < low) → found.arrayValues.entries = numbered done 1 →
      found.hasStringKeys = false → found.hasIntegerKeys = true →
      ∃ found', fields.foldlM (meteredEntry sizeofLuaValue limits
            (meteredTable sizeofLuaValue limits (listed h) levels seen)) found =
          .costs found' (entryCountItems items, bufferedCostItems sizeofLuaValue.toNat items) ∧
        found'.arrayValues.entries = numbered (done ++ items) 1 ∧ found'.hasIntegerKeys = true
  | [], _, found, _, _, _, done, fields, _, hholds, _, hentries, _, hinteger => by
      unfold HoldsItems at hholds
      subst hholds
      exact ⟨found, rfl, by rw [List.append_nil, hentries], hinteger⟩
  | item :: rest, hordered, found, levels, low, seen, done, fields, hlength, hholds, hseen,
      hentries, hstring, hinteger => by
      rw [LuaValue.orderedItems, Bool.and_eq_true] at hordered
      rw [List.length_cons] at hlength
      unfold HoldsItems at hholds
      obtain ⟨object, others, rfl, hitem, hothers⟩ := hholds
      have hkey : (Int64.ofNat (done.length + 1)).toNatClampNeg = done.length + 1 :=
        Int64.toNatClampNeg_ofNat_of_lt (by unfold maxInt at hlength; omega)
      have hround := meteredEntry_eq (.integer (Int64.ofNat (done.length + 1)), object)
        (Holds.metered item hordered.1 hitem hseen) (fitsKey_place (by omega) hstring)
      have hstored : (putKey (.integer (Int64.ofNat (done.length + 1))) item
          found).arrayValues.entries = numbered (done ++ [item]) 1 := by
        show (found.arrayValues.emplace _ item).entries = _
        rw [hkey, emplace_of_gt, hentries, numbered_append, Nat.add_comm]
        intro e he
        rw [hentries] at he
        have := lt_of_mem_numbered he
        omega
      obtain ⟨found', hfold, hentries', hinteger'⟩ :=
        HoldsItems.metered rest hordered.2 _
          (by rw [List.length_append, List.length_singleton]; omega)
          (by rw [List.length_append, List.length_singleton]; exact hothers) hseen hstored hstring rfl
      refine ⟨found', ?_, by rw [hentries', List.append_assoc]; rfl, hinteger'⟩
      rw [List.foldlM_cons, hround, Metered.costs_bind, hfold, Metered.plus_costs]
      refine congrArg _ (Prod.ext ?_ ?_)
      · simp [keyPrice, entryCountItems, Nat.add_assoc]
      · simp [keyPrice, bufferedCostItems]

/-- The loop over the fields of an object, after the entries that are done. -/
theorem HoldsEntries.metered : ∀ (entries : List (Bytes × LuaValue)),
    LuaValue.orderedEntries entries = true →
    ∀ (found : TableRead) {levels low : Nat} {seen : List Nat} {done : List (Bytes × LuaValue)}
      {fields : List (LuaObject × LuaObject)}, Assoc.Sorted (done ++ entries) →
      HoldsEntries limits h high entries levels low fields →
      (∀ table ∈ seen, table < low) → found.object.entries = done →
      found.hasIntegerKeys = false →
      ∃ found', fields.foldlM (meteredEntry sizeofLuaValue limits
            (meteredTable sizeofLuaValue limits (listed h) levels seen)) found =
          .costs found'
            (entryCountEntries entries, bufferedCostEntries sizeofLuaValue.toNat entries) ∧
        found'.object.entries = done ++ entries ∧ found'.hasIntegerKeys = false
  | [], _, found, _, _, _, done, fields, _, hholds, _, hentries, hinteger => by
      unfold HoldsEntries at hholds
      subst hholds
      exact ⟨found, rfl, by rw [List.append_nil, hentries], hinteger⟩
  | (key, child) :: rest, hordered, found, levels, low, seen, done, fields, hsorted, hholds,
      hseen, hentries, hinteger => by
      rw [LuaValue.orderedEntries, Bool.and_eq_true] at hordered
      unfold HoldsEntries at hholds
      obtain ⟨object, others, rfl, hkey, hchild, hothers⟩ := hholds
      have hfits : fitsKey limits (.string key) found = true := by
        simp only [fitsKey, hinteger, Bool.not_false, Bool.true_and, decide_eq_true hkey]
      have hround := meteredEntry_eq (.string key, object)
        (Holds.metered child hordered.1 hchild hseen) hfits
      have hstored : (putKey (.string key) child found).object.entries = done ++ [(key, child)] := by
        show (found.object.emplace key child).entries = _
        rw [emplace_of_gt, hentries]
        intro e he
        rw [hentries] at he
        exact (List.pairwise_append.mp hsorted).2.2 e he _ List.mem_cons_self
      obtain ⟨found', hfold, hentries', hinteger'⟩ :=
        HoldsEntries.metered rest hordered.2 _ (by rwa [List.append_assoc]) hothers hseen hstored
          hinteger
      refine ⟨found', ?_, by rw [hentries', List.append_assoc]; rfl, hinteger'⟩
      rw [List.foldlM_cons, hround, Metered.costs_bind, hfold, Metered.plus_costs]
      refine congrArg _ (Prod.ext ?_ ?_)
      · simp [keyPrice, entryCountEntries, Nat.add_assoc]
      · simp [keyPrice, bufferedCostEntries]
        omega

end

end Holds

/-! ## What holds is measured -/

theorem countEntry_eq {entries entries' bytes : Nat}
    (h : spendEntries limits 1 entries = some entries') :
    countEntry limits ⟨entries, bytes⟩ = .ok ⟨entries', bytes⟩ := by
  unfold spendEntries at h
  rw [if_neg Nat.one_ne_zero] at h
  split at h
  · next hle =>
      cases h
      have hle : wrapSize (entries + 1) ≤ limits.maxTableEntries.toNat := hle 0 Nat.one_pos
      simp only [countEntry, Nat.not_lt.mpr hle, if_false]
  · cases h

/-- The parts of what is spent on a child and the entries after it. -/
theorem spendEntries_cons {child rest entries entries' : Nat}
    (h : spendEntries limits (1 + child + rest) entries = some entries') :
    ∃ counted inside, spendEntries limits 1 entries = some counted ∧
      spendEntries limits child counted = some inside ∧
      spendEntries limits rest inside = some entries' := by
  rw [spendEntries_add, spendEntries_add] at h
  obtain ⟨inside, hinside, hrest⟩ := Option.bind_eq_some_iff.mp h
  obtain ⟨counted, hcounted, hchild⟩ := Option.bind_eq_some_iff.mp hinside
  exact ⟨counted, inside, hcounted, hchild, hrest⟩

section Holds

variable {h : LuaHeap} {high : Nat}

mutual

/-- What stands for a value is charged for the entries and bytes of the value. -/
theorem Holds.measure : ∀ (value : LuaValue) {depth low entries entries' bytes : Nat}
    {object : LuaObject},
    Holds limits h high value (limits.maxTableDepth.toNat + 1 - depth) low object →
    spendEntries limits (entryCount value) entries = some entries' →
    bytes + bufferedCost sizeofLuaValue.toNat value ≤ limits.maxBufferedValueBytes.toNat →
    measureLuaValue sizeofLuaValue limits value depth ⟨entries, bytes⟩ =
      .ok ⟨entries', bytes + bufferedCost sizeofLuaValue.toNat value⟩
  | value, depth, low, entries, entries', bytes, object, hholds, hspent, hroom => by
      unfold Holds at hholds
      obtain ⟨hlevels, hholds⟩ := hholds
      have hbelow : limits.maxTableDepth.toNat + 1 - depth - 1 =
          limits.maxTableDepth.toNat - depth := by omega
      rw [hbelow] at hholds
      have hscalar : entryCount value = 0 → entries' = entries := by
        intro hcount
        rw [hcount] at hspent
        exact (Option.some.inj hspent).symm
      have hnode : bytes + sizeofLuaValue.toNat ≤ limits.maxBufferedValueBytes.toNat := by
        refine le_trans ?_ hroom
        cases value <;> simp [bufferedCost]
      unfold measureLuaValue
      rw [if_neg (by omega), chargeBytes_eq hnode]
      cases value with
      | boolean | integer | number =>
          rw [hscalar rfl]
          rfl
      | string text =>
          rw [hscalar rfl]
          show (if text.length > limits.maxStringBytes.toNat then _ else _) = _
          rw [bufferedCost, ← Nat.add_assoc] at hroom ⊢
          rw [if_neg (Nat.not_lt.mpr hholds.2), chargeBytes_eq hroom]
      | array items =>
          obtain ⟨table, -, -, -, -, -, -, hitems⟩ := hholds
          rw [bufferedCost, ← Nat.add_assoc] at hroom ⊢
          exact HoldsItems.measure items hitems hspent hroom
      | table fields =>
          obtain ⟨table, -, -, -, -, hfields⟩ := hholds
          rw [bufferedCost, ← Nat.add_assoc] at hroom ⊢
          exact HoldsEntries.measure fields hfields hspent hroom

theorem HoldsItems.measure : ∀ (items : List LuaValue) {depth low i entries entries' bytes : Nat}
    {found : List (LuaObject × LuaObject)},
    HoldsItems limits h high items (limits.maxTableDepth.toNat - depth) low i found →
    spendEntries limits (entryCountItems items) entries = some entries' →
    bytes + bufferedCostItems sizeofLuaValue.toNat items ≤ limits.maxBufferedValueBytes.toNat →
    measureItems sizeofLuaValue limits items depth ⟨entries, bytes⟩ =
      .ok ⟨entries', bytes + bufferedCostItems sizeofLuaValue.toNat items⟩
  | [], _, _, _, entries, entries', bytes, _, _, hspent, _ => by
      rw [← Option.some.inj (hspent : some entries = some entries')]
      rfl
  | item :: rest, depth, low, i, entries, entries', bytes, found, hholds, hspent, hroom => by
      unfold HoldsItems at hholds
      obtain ⟨object, others, -, hitem, hothers⟩ := hholds
      have hlevels : limits.maxTableDepth.toNat - depth =
          limits.maxTableDepth.toNat + 1 - (depth + 1) := by omega
      rw [hlevels] at hitem
      obtain ⟨counted, inside, hcounted, hchild, hrest⟩ := spendEntries_cons hspent
      rw [bufferedCostItems, ← Nat.add_assoc] at hroom ⊢
      unfold measureItems
      rw [countEntry_eq hcounted, ok_bind, Holds.measure item hitem hchild (by omega), ok_bind]
      exact HoldsItems.measure rest hothers hrest hroom

theorem HoldsEntries.measure : ∀ (fields : List (Bytes × LuaValue))
    {depth low entries entries' bytes : Nat} {found : List (LuaObject × LuaObject)},
    HoldsEntries limits h high fields (limits.maxTableDepth.toNat - depth) low found →
    spendEntries limits (entryCountEntries fields) entries = some entries' →
    bytes + bufferedCostEntries sizeofLuaValue.toNat fields ≤
      limits.maxBufferedValueBytes.toNat →
    measureEntries sizeofLuaValue limits fields depth ⟨entries, bytes⟩ =
      .ok ⟨entries', bytes + bufferedCostEntries sizeofLuaValue.toNat fields⟩
  | [], _, _, entries, entries', bytes, _, _, hspent, _ => by
      rw [← Option.some.inj (hspent : some entries = some entries')]
      rfl
  | (key, child) :: rest, depth, low, entries, entries', bytes, found, hholds, hspent, hroom => by
      unfold HoldsEntries at hholds
      obtain ⟨object, others, -, hkey, hitem, hothers⟩ := hholds
      have hlevels : limits.maxTableDepth.toNat - depth =
          limits.maxTableDepth.toNat + 1 - (depth + 1) := by omega
      rw [hlevels] at hitem
      obtain ⟨counted, inside, hcounted, hchild, hrest⟩ := spendEntries_cons hspent
      rw [bufferedCostEntries, ← Nat.add_assoc, ← Nat.add_assoc] at hroom ⊢
      unfold measureEntries
      rw [if_neg (Nat.not_lt.mpr hkey), countEntry_eq hcounted, ok_bind,
        chargeBytes_eq (by omega), ok_bind, Holds.measure child hitem hchild (by omega), ok_bind]
      exact HoldsEntries.measure rest hothers hrest hroom

end

end Holds

end Read

/-! ## Round trip -/

theorem outcome_eq_some {ε τ α : Type} {m : EStateM ε τ α} {t t' : τ} {a : α}
    (h : outcome m t = some (a, t')) : m t = .ok a t' := by
  unfold outcome at h
  cases hm : m t with
  | ok b t'' =>
      rw [hm] at h
      cases h
      rfl
  | error e t'' =>
      rw [hm] at h
      cases h

/-- A pushed value, in whatever order its tables are gone through, reads back as itself, and is
    charged what it measures; and whatever an object is, the order makes no difference to what
    is read. -/
theorem marshalling (sizeofLuaValue : UInt64) (limits : LuaExecutionLimits) :
    (∀ (value : LuaValue) (s s' : PushState) (object : LuaObject), value.ordered = true →
      pushLuaValue limits value 0 s = .ok object s' →
      ∀ (order : Traversal s'.heap) (bytes : Nat),
        bytes + bufferedCost sizeofLuaValue.toNat value ≤ limits.maxBufferedValueBytes.toNat →
        ∃ bytes', readLuaValue sizeofLuaValue limits order (limits.maxTableDepth.toNat + 1) object
            ⟨s.entries, bytes, []⟩ = .ok value ⟨s'.entries, bytes', []⟩ ∧
          measureLuaValue sizeofLuaValue limits value 0 ⟨s.entries, bytes⟩ =
            .ok ⟨s'.entries, bytes'⟩) ∧
    ∀ (h : LuaHeap) (order order' : Traversal h) (levels : Nat) (object : LuaObject)
      (s : ValueReadState),
      outcome (readLuaValue sizeofLuaValue limits order levels object) s =
        outcome (readLuaValue sizeofLuaValue limits order' levels object) s := by
  refine ⟨fun value s s' object hordered hpush order bytes hroom => ?_,
    fun h order order' levels object s => outcome_readLuaValue order order' levels object s⟩
  have hpushed := wp_ok (wp_pushLuaValue value hordered 0 s) hpush
  refine ⟨bytes + bufferedCost sizeofLuaValue.toNat value, outcome_eq_some ?_,
    hpushed.holds.measure value hpushed.spent hroom⟩
  rw [outcome_readLuaValue order (listed s'.heap)]
  have hreads : Reads limits []
      (readLuaValue sizeofLuaValue limits (listed s'.heap) (limits.maxTableDepth.toNat + 1) object)
      (meteredObject sizeofLuaValue limits
        (meteredTable sizeofLuaValue limits (listed s'.heap) (limits.maxTableDepth.toNat + 1) [])
        object) := reads_readObject (reads_readLuaTable _ _ []) object
  have hfits : bytes ≤ limits.maxBufferedValueBytes.toNat := by omega
  refine (hreads (s.entries, bytes) hfits).trans ?_
  have hmetered : meteredObject sizeofLuaValue limits
      (meteredTable sizeofLuaValue limits (listed s'.heap) (limits.maxTableDepth.toNat + 1) [])
      object = .costs value (entryCount value, bufferedCost sizeofLuaValue.toNat value) :=
    hpushed.holds.metered value hordered (fun _ hmem => absurd hmem List.not_mem_nil)
  rw [hmetered, Meter.run_costs]
  show ((((spendEntries limits (entryCount value) s.entries).bind _).map _).map _) = _
  rw [hpushed.spent, Option.bind_some]
  unfold spendBytes
  rw [if_pos (.inr hroom)]
  rfl

/-- A lamp: its colours and the empty containers of its plan. -/
def lampRecord : LuaValue :=
  .table [([97], .array [.integer 1, .number 0]), ([98], .array []), ([99], .table []),
    ([100], .string [104, 105])]

def lampLimits : LuaExecutionLimits := ⟨16, 4096, 65536, 8388608⟩

def emptyHeap : LuaHeap := ⟨fun _ => .empty, 0⟩

theorem marshalling_lamp : ∃ object s',
    pushLuaValue lampLimits lampRecord 0 ⟨0, emptyHeap⟩ = .ok object s' ∧
      ∃ bytes', readLuaValue 56 lampLimits (listed s'.heap) 17 object ⟨0, 0, []⟩ =
          .ok lampRecord ⟨s'.entries, bytes', []⟩ ∧
        measureLuaValue 56 lampLimits lampRecord 0 ⟨0, 0⟩ = .ok ⟨s'.entries, bytes'⟩ := by
  refine ⟨_, _, rfl, ?_⟩
  exact (marshalling 56 lampLimits).1 lampRecord ⟨0, emptyHeap⟩ _ _ (by decide +kernel) rfl
    (listed _) 0 (by decide +kernel)

end Marshal

end LiquidLayer
