/-
  Marshalling of Lua values (LuaBehaviorRunner.cpp).

  A reader's entries and bytes are a price: `metered…` is the reader with the price at the end
  of it, `pays_readLuaTable` says that the reader pays it as it goes. Prices commute, so the order
  of a traversal makes no difference (`readLuaValue_traversal`).
-/
import LiquidLayer.Lib.Metered
import LiquidLayer.Scripting.LuaHeap

namespace LiquidLayer

namespace Marshal

/-! ## The budget of entries and bytes -/

/-- Entries and buffered bytes. -/
abbrev Price := Nat × Nat

/-- The counter goes up by one `n` times and is never above the limit. -/
def spendEntries (limits : LuaExecutionLimits) (n entries : Nat) : Option Nat :=
  if n = 0 then some entries
  else if ∀ i < n, wrapSize (entries + (i + 1)) ≤ limits.maxTableEntries.toNat then
    some (wrapSize (entries + n))
  else none

def spendBytes (limits : LuaExecutionLimits) (n bytes : Nat) : Option Nat :=
  if n = 0 ∨ bytes + n ≤ limits.maxBufferedValueBytes.toNat then some (bytes + n) else none

theorem wrapSize_wrapSize_add (a b : Nat) : wrapSize (wrapSize a + b) = wrapSize (a + b) :=
  Nat.mod_add_mod ..

theorem spendEntries_add (limits : LuaExecutionLimits) (m n entries : Nat) :
    spendEntries limits (m + n) entries =
      (spendEntries limits m entries).bind (spendEntries limits n) := by
  unfold spendEntries
  by_cases hm : m = 0
  · subst hm
    simp
  by_cases hn : n = 0
  · subst hn
    rw [Nat.add_zero, if_neg hm]
    split <;> simp
  rw [if_neg hm, if_neg (by omega)]
  by_cases hfirst : ∀ i < m, wrapSize (entries + (i + 1)) ≤ limits.maxTableEntries.toNat
  · rw [if_pos hfirst, Option.bind_some, if_neg hn]
    simp only [wrapSize_wrapSize_add, Nat.add_assoc]
    refine if_congr ⟨fun h i hi => ?_, fun h i hi => ?_⟩ rfl rfl
    · have := h (m + i) (by omega)
      rwa [Nat.add_assoc] at this
    · by_cases him : i < m
      · exact hfirst i him
      · have := h (i - m) (by omega)
        rwa [← Nat.add_assoc m, Nat.add_sub_cancel' (Nat.not_lt.mp him)] at this
  · rw [if_neg hfirst, if_neg fun h => hfirst fun i hi => h i (by omega)]
    rfl

theorem spendBytes_add (limits : LuaExecutionLimits) (m n bytes : Nat) :
    spendBytes limits (m + n) bytes = (spendBytes limits m bytes).bind (spendBytes limits n) := by
  unfold spendBytes
  by_cases hm : m = 0 ∨ bytes + m ≤ limits.maxBufferedValueBytes.toNat
  · rw [if_pos hm, Option.bind_some, Nat.add_assoc]
    by_cases hn : n = 0
    · subst hn
      rw [Nat.add_zero, if_pos hm, if_pos (.inl rfl)]
    · by_cases hsum : bytes + (m + n) ≤ limits.maxBufferedValueBytes.toNat
      · rw [if_pos (.inr hsum), if_pos (.inr hsum)]
      · rw [if_neg (by omega), if_neg (by omega)]
  · rw [if_neg hm, if_neg (by omega)]
    rfl

/-- The state is what has been charged so far. -/
def meter (limits : LuaExecutionLimits) : Meter Price (Nat × Nat) where
  spend price s := (spendEntries limits price.1 s.1).bind fun entries =>
    (spendBytes limits price.2 s.2).map fun bytes => (entries, bytes)
  spend_zero s := by
    unfold spendEntries spendBytes
    simp
  spend_add m n s := by
    rw [Prod.fst_add, Prod.snd_add, spendEntries_add, spendBytes_add]
    cases spendEntries limits m.1 s.1 with
    | none => rfl
    | some entries =>
        cases spendBytes limits m.2 s.2 with
        | none => cases h : spendEntries limits n.1 entries <;> simp [h]
        | some bytes => rfl

theorem spend_bytes (limits : LuaExecutionLimits) (n entries bytes : Nat) :
    (meter limits).spend (0, n) (entries, bytes) =
      (spendBytes limits n bytes).map fun bytes => (entries, bytes) := rfl

theorem spend_entries (limits : LuaExecutionLimits) (n entries bytes : Nat) :
    (meter limits).spend (n, 0) (entries, bytes) =
      (spendEntries limits n entries).map fun entries => (entries, bytes) := by
  show (spendEntries limits n entries).bind (fun entries =>
    (spendBytes limits 0 bytes).map fun bytes => (entries, bytes)) = _
  unfold spendBytes
  rw [if_pos (.inl rfl)]
  cases spendEntries limits n entries <;> rfl

/-- No more bytes are charged than there is room for. -/
def Room (limits : LuaExecutionLimits) (s : Nat × Nat) : Prop :=
  s.2 ≤ limits.maxBufferedValueBytes.toNat

theorem admits_room (limits : LuaExecutionLimits) : (meter limits).Admits (Room limits) where
  kept m s s' hs h := by
    obtain ⟨entries, -, h⟩ := Option.bind_eq_some_iff.mp h
    obtain ⟨bytes, hbytes, rfl⟩ := Option.map_eq_some_iff.mp h
    unfold spendBytes at hbytes
    split at hbytes
    · next hle =>
        cases hbytes
        rcases hle with hzero | hle
        · rw [hzero]
          exact hs
        · exact hle
    · cases hbytes

/-! ## The reader with its price -/

section Metered

variable (sizeofLuaValue : UInt64) (limits : LuaExecutionLimits)

def priceBytes (amount : Nat) : Metered Price Unit := .price (0, amount)

def meteredStore (key : LuaObject) (value : LuaValue) (found : TableRead) :
    Metered Price TableRead :=
  match key with
  | .string text =>
      if found.hasIntegerKeys then .fail
      else if text.length > limits.maxStringBytes.toNat then .fail
      else do
        priceBytes text.length
        return { found with object := found.object.emplace text value, hasStringKeys := true }
  | .integer rawKey =>
      if found.hasStringKeys then .fail
      else if rawKey ≤ 0 then .fail
      else return { found with
        arrayValues := found.arrayValues.emplace rawKey.toNatClampNeg value
        hasIntegerKeys := true }
  | _ => .fail

def meteredObject (meteredTable : Nat → Metered Price LuaValue) :
    LuaObject → Metered Price LuaValue
  | .boolean value => do
      priceBytes sizeofLuaValue.toNat
      return .boolean value
  | .integer value => do
      priceBytes sizeofLuaValue.toNat
      return .integer value
  | .number bits => do
      priceBytes sizeofLuaValue.toNat
      if !isFinite bits then .fail else return .number bits
  | .string text =>
      if text.length > limits.maxStringBytes.toNat then .fail
      else do
        priceBytes sizeofLuaValue.toNat
        priceBytes text.length
        return .string text
  | .table table => meteredTable table
  | _ => .fail

def meteredEntry (meteredTable : Nat → Metered Price LuaValue) (found : TableRead)
    (entry : LuaObject × LuaObject) : Metered Price TableRead := do
  Metered.price (1, 0)
  let value ← meteredObject sizeofLuaValue limits meteredTable entry.2
  meteredStore limits entry.1 value found

/-- The end of `read_lua_table`. -/
def meteredValue (found : TableRead) : Metered Price LuaValue :=
  if !found.hasIntegerKeys then return .table found.object.entries
  else
    match contiguous found.arrayValues.entries 1 with
    | none => .fail
    | some items => return .array items

variable {h : LuaHeap} (order : Traversal h)

def meteredTable : Nat → List Nat → Nat → Metered Price LuaValue
  | 0, _, _ => .fail
  | levels + 1, seen, table => do
      priceBytes sizeofLuaValue.toNat
      if table ∈ seen then .fail
      else do
        let found ← (order.visit table).foldlM
          (meteredEntry sizeofLuaValue limits (meteredTable levels (table :: seen)))
          ⟨.empty, .empty, false, h.hostArray table⟩
        meteredValue found

end Metered

/-! ## The reader pays its price -/

section Pays

variable {sizeofLuaValue : UInt64} {limits : LuaExecutionLimits}

/-- A reader's state, with the tables it is inside of. -/
def readState (seen : List Nat) (s : Nat × Nat) : ValueReadState := ⟨s.1, s.2, seen⟩

/-- The program reads what the metered one says, for its price. -/
def Reads (limits : LuaExecutionLimits) (seen : List Nat) {α : Type} (m : ReadM α)
    (x : Metered Price α) : Prop := Pays (meter limits) (Room limits) (readState seen) m x

theorem outcome_consume (limits : LuaExecutionLimits) (amount : Nat) (s : ValueReadState) :
    outcome (ReadM.consume limits amount) s =
      match consumeBufferedBytes s.bufferedBytes amount limits.maxBufferedValueBytes.toNat
          .invalidProposal "Lua values exceed buffered data limit" with
      | .error _ => none
      | .ok bufferedBytes => some ((), { s with bufferedBytes := bufferedBytes }) := by
  have hget : outcome (get : ReadM ValueReadState) s = some (s, s) := rfl
  unfold ReadM.consume
  rw [outcome_bind, hget, Option.bind_some]
  dsimp only
  cases consumeBufferedBytes s.bufferedBytes amount limits.maxBufferedValueBytes.toNat
    .invalidProposal "Lua values exceed buffered data limit" with
  | error e => rfl
  | ok bufferedBytes => rfl

theorem reads_consume (seen : List Nat) (amount : Nat) :
    Reads limits seen (ReadM.consume limits amount) (priceBytes amount) := by
  have hmax := limits.maxBufferedValueBytes.toNat_lt
  rintro ⟨entries, bytes⟩ hroom
  unfold Room at hroom
  dsimp only at hroom
  have hconsume : outcome (ReadM.consume limits amount) (readState seen (entries, bytes)) =
      (spendBytes limits amount bytes).map fun bytes => ((), readState seen (entries, bytes)) := by
    rw [outcome_consume]
    unfold consumeBufferedBytes spendBytes readState
    dsimp only
    by_cases hfits : bytes + amount ≤ limits.maxBufferedValueBytes.toNat
    · have hwrap : wrapSize (bytes + amount) = bytes + amount := Nat.mod_eq_of_lt (by omega)
      rw [if_neg (by omega), if_pos (.inr hfits), hwrap]
      rfl
    · rw [if_pos (by omega), if_neg (by omega)]
      rfl
  rw [hconsume, priceBytes, Metered.price, Meter.run_costs, spend_bytes]
  cases spendBytes limits amount bytes <;> rfl

theorem reads_count (seen : List Nat) :
    Reads limits seen (ReadM.count limits) (Metered.price (1, 0)) := by
  rintro ⟨entries, bytes⟩ -
  have hcount : outcome (ReadM.count limits) (readState seen (entries, bytes)) =
      (spendEntries limits 1 entries).map fun entries => ((), readState seen (entries, bytes)) := by
    unfold ReadM.count
    rw [outcome_bind]
    show outcome (if wrapSize (entries + 1) > limits.maxTableEntries.toNat then
        (ReadM.fail "Lua value exceeds table entry limit" : ReadM Unit) else pure ())
        (readState seen (wrapSize (entries + 1), bytes)) = _
    unfold spendEntries
    rw [if_neg Nat.one_ne_zero]
    by_cases hover : wrapSize (entries + 1) > limits.maxTableEntries.toNat
    · rw [if_pos hover, if_neg fun h => absurd (h 0 Nat.one_pos) (Nat.not_le.mpr hover)]
      rfl
    · rw [if_neg hover, if_pos fun i hi => ?_]
      · rfl
      · rw [Nat.lt_one_iff.mp hi]
        exact Nat.not_lt.mp hover
  rw [hcount, Metered.price, Meter.run_costs, spend_entries]
  cases spendEntries limits 1 entries <;> rfl

theorem reads_fail (seen : List Nat) {α : Type} (diagnostic : String) :
    Reads limits seen (ReadM.fail diagnostic : ReadM α) .fail := pays_throw _

theorem reads_bind {seen : List Nat} {α β : Type} {m : ReadM α} {x : Metered Price α}
    {f : α → ReadM β} {g : α → Metered Price β} (hm : Reads limits seen m x)
    (hf : ∀ a, Reads limits seen (f a) (g a)) : Reads limits seen (m >>= f) (x >>= g) :=
  pays_bind (admits_room limits) hm hf

theorem reads_storeEntry (seen : List Nat) (key : LuaObject) (value : LuaValue)
    (found : TableRead) :
    Reads limits seen (storeEntry limits key value found) (meteredStore limits key value found) := by
  unfold storeEntry meteredStore
  cases key with
  | string text =>
      refine pays_ite (reads_fail seen _) (pays_ite (reads_fail seen _) ?_)
      exact reads_bind (reads_consume seen _) fun _ => pays_pure _
  | integer rawKey =>
      exact pays_ite (reads_fail seen _) (pays_ite (reads_fail seen _) (pays_pure _))
  | nil | boolean | number | table | lightUserdata | other => exact reads_fail seen _

theorem reads_readObject {seen : List Nat} {readTable : Nat → ReadM LuaValue}
    {metered : Nat → Metered Price LuaValue}
    (h : ∀ table, Reads limits seen (readTable table) (metered table)) (object : LuaObject) :
    Reads limits seen (readObject sizeofLuaValue limits readTable object)
      (meteredObject sizeofLuaValue limits metered object) := by
  unfold readObject meteredObject
  cases object with
  | boolean | integer => exact reads_bind (reads_consume seen _) fun _ => pays_pure _
  | number bits =>
      refine reads_bind (reads_consume seen _) fun _ => ?_
      exact pays_ite (reads_fail seen _) (pays_pure _)
  | string text =>
      refine pays_ite (reads_fail seen _) ?_
      refine reads_bind (reads_consume seen _) fun _ => ?_
      exact reads_bind (reads_consume seen _) fun _ => pays_pure _
  | table table => exact h table
  | nil | lightUserdata | other => exact reads_fail seen _

theorem reads_readEntry {seen : List Nat} {readTable : Nat → ReadM LuaValue}
    {metered : Nat → Metered Price LuaValue}
    (h : ∀ table, Reads limits seen (readTable table) (metered table)) (found : TableRead)
    (entry : LuaObject × LuaObject) :
    Reads limits seen (readEntry sizeofLuaValue limits readTable found entry)
      (meteredEntry sizeofLuaValue limits metered found entry) := by
  unfold readEntry meteredEntry
  refine reads_bind (reads_count seen) fun _ => ?_
  refine reads_bind (reads_readObject h entry.2) fun value => ?_
  exact reads_storeEntry seen entry.1 value found

/-- A reader that looks at the tables it is inside of. -/
theorem reads_seen {seen : List Nat} {α : Type} {f : List Nat → ReadM α} {x : Metered Price α}
    (h : Reads limits seen (f seen) x) :
    Reads limits seen (get >>= fun s : ValueReadState => f s.seenTables) x := h

/-- Inside of a table the reader has seen one more. -/
theorem reads_inside {seen : List Nat} {table : Nat} {α β : Type} {m : ReadM α}
    {x : Metered Price α} {f : α → ReadM β} {g : α → Metered Price β}
    (hm : Reads limits (table :: seen) m x) (hf : ∀ a, Reads limits seen (f a) (g a)) :
    Reads limits seen (do
      modify fun s => { s with seenTables := table :: s.seenTables }
      let found ← m
      modify fun s => { s with seenTables := s.seenTables.erase table }
      f found) (x >>= g) := by
  have hround : Reads limits seen (do
      modify fun s => { s with seenTables := table :: s.seenTables }
      let found ← m
      modify fun s => { s with seenTables := s.seenTables.erase table }
      return found) x := by
    intro s hs
    rw [outcome_bind]
    show outcome (do
      let found ← m
      modify fun s : ValueReadState => { s with seenTables := s.seenTables.erase table }
      return found) (readState (table :: seen) s) = _
    rw [outcome_bind, hm s hs]
    cases (meter limits).run x s with
    | none => rfl
    | some r =>
        show some (r.1, readState ((table :: seen).erase table) r.2) = _
        rw [List.erase_cons_head]
        rfl
  have hall := reads_bind hround hf
  simpa only [bind_assoc, pure_bind] using hall

theorem reads_readLuaTable {h : LuaHeap} (order : Traversal h) (levels : Nat) :
    ∀ (seen : List Nat) (table : Nat),
      Reads limits seen (readLuaTable sizeofLuaValue limits order levels table)
        (meteredTable sizeofLuaValue limits order levels seen table) := by
  induction levels with
  | zero => exact fun seen table => reads_fail seen _
  | succ levels ih =>
      intro seen table
      unfold readLuaTable meteredTable
      refine reads_bind (reads_consume seen _) fun _ => ?_
      refine reads_seen (f := fun seenTables => if table ∈ seenTables then _ else _) ?_
      refine pays_ite (reads_fail seen _) (reads_inside ?_ fun found => ?_)
      · exact pays_foldlM (admits_room limits) (reads_readEntry (ih (table :: seen))) _ _
      · unfold meteredValue
        refine pays_ite (pays_pure _) ?_
        cases contiguous found.arrayValues.entries 1 with
        | none => exact reads_fail seen _
        | some items => exact pays_pure _

end Pays

/-! ## The order of a traversal -/

section Order

variable {sizeofLuaValue : UInt64} {limits : LuaExecutionLimits}

/-- Whether a key can be stored next to what has been found. -/
def fitsKey (limits : LuaExecutionLimits) (key : LuaObject) (found : TableRead) : Bool :=
  match key with
  | .string text =>
      !found.hasIntegerKeys && decide (text.length ≤ limits.maxStringBytes.toNat)
  | .integer rawKey => !found.hasStringKeys && decide (0 < rawKey)
  | _ => false

def putKey (key : LuaObject) (value : LuaValue) (found : TableRead) : TableRead :=
  match key with
  | .string text => { found with object := found.object.emplace text value, hasStringKeys := true }
  | .integer rawKey => { found with
      arrayValues := found.arrayValues.emplace rawKey.toNatClampNeg value
      hasIntegerKeys := true }
  | _ => found

def keyPrice : LuaObject → Price
  | .string text => (0, text.length)
  | _ => 0

theorem meteredStore_eq (key : LuaObject) (value : LuaValue) (found : TableRead) :
    meteredStore limits key value found =
      if fitsKey limits key found then .costs (putKey key value found) (keyPrice key) else .fail := by
  cases key with
  | string text =>
      simp only [meteredStore, fitsKey, putKey, keyPrice, priceBytes, Metered.price,
        Metered.costs_bind, Metered.pure_def, Metered.plus_costs, add_zero]
      by_cases hkeys : found.hasIntegerKeys = true
      · simp [hkeys]
      · by_cases hlength : text.length > limits.maxStringBytes.toNat
        · simp [hkeys, hlength]
        · simp [hkeys, hlength, Nat.not_lt.mp hlength]
  | integer rawKey =>
      simp only [meteredStore, fitsKey, putKey, keyPrice, Metered.pure_def]
      by_cases hkeys : found.hasStringKeys = true
      · simp [hkeys]
      · by_cases hpositive : rawKey ≤ 0
        · simp [hkeys, hpositive, Int64.not_lt.mpr hpositive]
        · simp [hkeys, hpositive, Int64.not_le.mp hpositive]
  | nil | boolean | number | table | lightUserdata | other => rfl

/-- Two keys that fit fit in either order, and it makes no difference which comes first. -/
theorem fitsKey_comm {key key' : LuaObject} (hne : key ≠ key') (value value' : LuaValue)
    (found : TableRead) :
    (fitsKey limits key found && fitsKey limits key' (putKey key value found)) =
        (fitsKey limits key' found && fitsKey limits key (putKey key' value' found)) ∧
      (fitsKey limits key found = true → fitsKey limits key' found = true →
        putKey key' value' (putKey key value found) =
          putKey key value (putKey key' value' found)) := by
  cases key with
  | string text =>
      cases key' with
      | string text' =>
          have htext : text ≠ text' := fun h => hne (h ▸ rfl)
          refine ⟨?_, fun _ _ => ?_⟩
          · simp only [fitsKey, putKey]
            exact Bool.and_comm _ _
          · simp only [putKey, OrdMap.emplace_comm _ htext]
      | integer rawKey => simp [fitsKey, putKey]
      | nil | boolean | number | table | lightUserdata | other => simp [fitsKey]
  | integer rawKey =>
      cases key' with
      | string text => simp [fitsKey, putKey]
      | integer rawKey' =>
          refine ⟨?_, fun hfits hfits' => ?_⟩
          · simp only [fitsKey, putKey]
            exact Bool.and_comm _ _
          · have hkeys : rawKey.toNatClampNeg ≠ rawKey'.toNatClampNeg := by
              simp only [fitsKey, Bool.and_eq_true, decide_eq_true_eq] at hfits hfits'
              have hlt := Int64.lt_iff_toInt_lt.mp hfits.2
              have hlt' := Int64.lt_iff_toInt_lt.mp hfits'.2
              intro heq
              refine hne (congrArg LuaObject.integer (Int64.toInt.inj ?_))
              simp only [Int64.toNatClampNeg, Int64.toInt_zero] at heq hlt hlt'
              omega
            simp only [putKey, OrdMap.emplace_comm _ hkeys]
      | nil | boolean | number | table | lightUserdata | other => simp [fitsKey]
  | nil | boolean | number | table | lightUserdata | other => simp [fitsKey]

/-- Values may be stored under different keys in any order. -/
theorem meteredStore_comm {key key' : LuaObject} (hne : key ≠ key') (value value' : LuaValue)
    (found : TableRead) :
    (meteredStore limits key value found >>= fun f => meteredStore limits key' value' f) =
      meteredStore limits key' value' found >>= fun f => meteredStore limits key value f := by
  have hboth : ∀ k k' v v', (meteredStore limits k v found >>= fun f =>
      meteredStore limits k' v' f) =
        if fitsKey limits k found && fitsKey limits k' (putKey k v found) then
          .costs (putKey k' v' (putKey k v found)) (keyPrice k + keyPrice k') else .fail := by
    intro k k' v v'
    rw [meteredStore_eq]
    cases hfits : fitsKey limits k found with
    | false => rfl
    | true =>
        rw [if_pos rfl, Metered.costs_bind, meteredStore_eq, Bool.true_and]
        split <;> rfl
  obtain ⟨hfits, hput⟩ := @fitsKey_comm limits key key' hne value value' found
  rw [hboth, hboth, hfits]
  split
  · next h =>
      have h' := hfits.trans h
      simp only [Bool.and_eq_true] at h h'
      rw [hput h'.1 h.1, add_comm]
  · rfl

/-- The rounds of a table's loop may come in any order. -/
theorem meteredEntry_comm (metered : Nat → Metered Price LuaValue) {a b : LuaObject × LuaObject}
    (hne : a.1 ≠ b.1) (found : TableRead) :
    (meteredEntry sizeofLuaValue limits metered found a >>= fun f =>
        meteredEntry sizeofLuaValue limits metered f b) =
      meteredEntry sizeofLuaValue limits metered found b >>= fun f =>
        meteredEntry sizeofLuaValue limits metered f a := by
  have hrounds : ∀ x y : LuaObject × LuaObject,
      (meteredEntry sizeofLuaValue limits metered found x >>= fun f =>
        meteredEntry sizeofLuaValue limits metered f y) =
      (Metered.price (1, 0) >>= fun _ => Metered.price (1, 0) >>= fun _ =>
        meteredObject sizeofLuaValue limits metered x.2 >>= fun v =>
        meteredObject sizeofLuaValue limits metered y.2 >>= fun v' =>
          meteredStore limits x.1 v found >>= fun f => meteredStore limits y.1 v' f) := by
    intro x y
    unfold meteredEntry
    rw [Metered.bind_assoc]
    refine congrArg _ (funext fun _ => ?_)
    rw [Metered.bind_assoc]
    rw [Metered.bind_comm (Metered.price (1, 0))]
    refine congrArg _ (funext fun v => ?_)
    rw [Metered.bind_comm (meteredStore limits x.1 v found)]
    refine congrArg _ (funext fun _ => ?_)
    rw [Metered.bind_comm (meteredStore limits x.1 v found)]
  rw [hrounds, hrounds, Metered.bind_comm (meteredObject sizeofLuaValue limits metered a.2)]
  simp only [meteredStore_comm hne]

theorem meteredTable_order {h : LuaHeap} (order order' : Traversal h) (levels : Nat) :
    ∀ seen table, meteredTable sizeofLuaValue limits order levels seen table =
      meteredTable sizeofLuaValue limits order' levels seen table := by
  induction levels with
  | zero => exact fun _ _ => rfl
  | succ levels ih =>
      intro seen table
      have hsame : meteredTable sizeofLuaValue limits order levels (table :: seen) =
          meteredTable sizeofLuaValue limits order' levels (table :: seen) :=
        funext (ih (table :: seen))
      have hperm : (order.visit table).Perm (order'.visit table) :=
        (order.complete table).trans (order'.complete table).symm
      have hdistinct : ((order.visit table).map Prod.fst).Nodup :=
        ((order.complete table).map Prod.fst).nodup_iff.mpr (h.tables table).distinct
      unfold meteredTable
      rw [hsame]
      refine congrArg _ (funext fun _ => ?_)
      split
      · rfl
      · rw [Metered.foldlM_perm hperm fun a ha b hb hne found => ?_]
        refine meteredEntry_comm _ (fun hkeys => hne ?_) found
        exact List.inj_on_of_nodup_map hdistinct ha hb hkeys

/-- A reader without room for bytes reads nothing. -/
theorem outcome_full {h : LuaHeap} (order : Traversal h) (levels : Nat) (object : LuaObject)
    {s : ValueReadState} (hfull : limits.maxBufferedValueBytes.toNat < s.bufferedBytes) :
    outcome (readLuaValue sizeofLuaValue limits order levels object) s = none := by
  have hconsume : ∀ {α : Type} (amount : Nat) (f : Unit → ReadM α),
      outcome (ReadM.consume limits amount >>= f) s = none := by
    intro α amount f
    have hnone : outcome (ReadM.consume limits amount) s = none := by
      rw [outcome_consume]
      unfold consumeBufferedBytes
      rw [if_pos (by omega)]
    rw [outcome_bind, hnone]
    rfl
  unfold readLuaValue readObject
  cases object with
  | boolean | integer | number => exact hconsume _ _
  | string text =>
      dsimp only
      split
      · rfl
      · exact hconsume _ _
  | table table =>
      cases levels with
      | zero => rfl
      | succ levels => exact hconsume _ _
  | nil | lightUserdata | other => rfl

/-- Whatever the order in which `lua_next` goes through tables: a value is read or refused, and
    is the same, with the same charges. -/
theorem outcome_readLuaValue {h : LuaHeap} (order order' : Traversal h) (levels : Nat)
    (object : LuaObject) (s : ValueReadState) :
    outcome (readLuaValue sizeofLuaValue limits order levels object) s =
      outcome (readLuaValue sizeofLuaValue limits order' levels object) s := by
  rcases Nat.lt_or_ge limits.maxBufferedValueBytes.toNat s.bufferedBytes with hfull | hroom
  · rw [outcome_full order levels object hfull, outcome_full order' levels object hfull]
  · have hreads : ∀ o : Traversal h, Reads limits s.seenTables
        (readLuaValue sizeofLuaValue limits o levels object)
        (meteredObject sizeofLuaValue limits
          (meteredTable sizeofLuaValue limits o levels s.seenTables) object) := fun o =>
      reads_readObject (reads_readLuaTable o levels s.seenTables) object
    have hmetered : meteredTable sizeofLuaValue limits order levels s.seenTables =
        meteredTable sizeofLuaValue limits order' levels s.seenTables :=
      funext (meteredTable_order order order' levels s.seenTables)
    refine (hreads order (s.entries, s.bufferedBytes) hroom).trans ?_
    rw [hmetered]
    exact (hreads order' (s.entries, s.bufferedBytes) hroom).symm

end Order

end Marshal

end LiquidLayer
