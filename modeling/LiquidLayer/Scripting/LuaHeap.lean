/-
  Lua values between the host and a script (LuaBehaviorRunner.cpp).

  A Lua state is a heap of tables: finite maps from keys to values, known by their identity.
  `pushLuaValue` builds a value in the heap, `readLuaValue` takes one out of it. The order in
  which `lua_next` goes through a table is not specified; it is a `Traversal` of the heap.

  Both are translated with their limits. The depth of `readLuaTable` is counted down: `levels`
  is `maxDepth + 1 - depth`.
-/
import LiquidLayer.Scripting.Manifest

namespace LiquidLayer

/-! ## Tables -/

/-- The addresses used as keys of the registry and of hidden fields. -/
inductive RegistryKey where
  | environment
  | arrayMetatable
  | capability
  | intent
deriving DecidableEq, Repr

/-- A Lua value; `other` are functions, userdata and threads. -/
inductive LuaObject where
  | nil
  | boolean (value : Bool)
  | integer (value : Int64)
  | number (bits : UInt64)
  | string (text : Bytes)
  | table (identity : Nat)
  | lightUserdata (key : RegistryKey)
  | other (identity : Nat)
deriving DecidableEq, Repr

def LuaObject.toBoolean : LuaObject → Bool
  | .nil | .boolean false => false
  | _ => true

/-- A table: no key twice. -/
structure LuaTable where
  entries : List (LuaObject × LuaObject)
  metatable : Option Nat
  distinct : (entries.map Prod.fst).Nodup

namespace LuaTable

def empty : LuaTable := ⟨[], none, List.nodup_nil⟩

def rawGet (t : LuaTable) (key : LuaObject) : LuaObject := (t.entries.lookup key).getD .nil

/-- `lua_rawset` of a value that is not `nil`. -/
def rawSet (t : LuaTable) (key value : LuaObject) : LuaTable where
  entries := t.entries.filter (fun e => decide (e.1 ≠ key)) ++ [(key, value)]
  metatable := t.metatable
  distinct := by
    rw [List.map_append]
    refine List.Nodup.append ?_ (List.nodup_singleton key) ?_
    · exact (t.distinct.sublist (List.filter_sublist.map Prod.fst))
    · intro a ha hkey
      obtain ⟨e, he, rfl⟩ := List.mem_map.mp ha
      have hne := (List.mem_filter.mp he).2
      simp only [List.map_cons, List.map_nil, List.mem_singleton] at hkey
      simp [hkey] at hne

end LuaTable

/-- The tables by their identities; `next` is the identity of the next table. -/
structure LuaHeap where
  tables : Nat → LuaTable
  next : Nat

namespace LuaHeap

/-- `lua_createtable`. -/
def create (h : LuaHeap) : LuaHeap :=
  ⟨Function.update h.tables h.next .empty, h.next + 1⟩

def rawSet (h : LuaHeap) (table : Nat) (key value : LuaObject) : LuaHeap :=
  { h with tables := Function.update h.tables table ((h.tables table).rawSet key value) }

def setMetatable (h : LuaHeap) (table metatable : Nat) : LuaHeap :=
  { h with tables :=
      Function.update h.tables table { h.tables table with metatable := some metatable } }

/-- Whether the metatable of a table marks it as an array of the host. -/
def hostArray (h : LuaHeap) (table : Nat) : Bool :=
  match (h.tables table).metatable with
  | none => false
  | some metatable => ((h.tables metatable).rawGet (.lightUserdata .arrayMetatable)).toBoolean

end LuaHeap

/-- An order in which `lua_next` may go through the tables of a heap. -/
structure Traversal (h : LuaHeap) where
  visit : Nat → List (LuaObject × LuaObject)
  complete : ∀ table, (visit table).Perm (h.tables table).entries

/-- `std::isfinite`. -/
def isFinite (bits : UInt64) : Bool :=
  decide (bits &&& 0x7ff0000000000000 ≠ 0x7ff0000000000000)

/-! ## Pushing -/

structure PushState where
  entries : Nat
  heap : LuaHeap

abbrev PushM := EStateM ExecutionFailure PushState

namespace PushM

def fail {α : Type} (diagnostic : String) : PushM α := throw ⟨.hostError, utf8 diagnostic⟩

def onHeap (f : LuaHeap → LuaHeap) : PushM Unit := modify fun s => { s with heap := f s.heap }

/-- `lua_createtable`; the result is the identity of the table. -/
def createTable : PushM Nat := do
  let table := (← get).heap.next
  onHeap LuaHeap.create
  return table

/-- `++entries`, with the check that follows it. -/
def count (limits : LuaExecutionLimits) : PushM Unit := do
  modify fun s => { s with entries := wrapSize (s.entries + 1) }
  if (← get).entries > limits.maxTableEntries.toNat then
    fail "encoded component exceeds table entry limit"

end PushM

/-- `std::numeric_limits<int>::max()`. -/
def maxInt : Nat := 2 ^ 31 - 1

section Push

variable (limits : LuaExecutionLimits)

open PushM

mutual

def pushLuaValue : LuaValue → Nat → PushM LuaObject
  | value, depth =>
    if depth > limits.maxTableDepth.toNat then
      fail "encoded component exceeds table depth limit"
    else
      match value with
      | .boolean stored => return .boolean stored
      | .integer stored => return .integer stored
      | .number bits =>
          if !isFinite bits then fail "encoded component contains NaN or infinity"
          else return .number bits
      | .string text =>
          if text.length > limits.maxStringBytes.toNat then
            fail "encoded component exceeds string size limit"
          else return .string text
      | .array items =>
          if items.length > limits.maxTableEntries.toNat ∨ items.length > maxInt then
            fail "encoded component exceeds table entry limit"
          else do
            let table ← createTable
            let metatable ← createTable
            onHeap fun h => h.rawSet metatable (.lightUserdata .arrayMetatable) (.boolean true)
            onHeap fun h => h.setMetatable table metatable
            pushItems items 0 table depth
            return .table table
      | .table entries =>
          if entries.length > limits.maxTableEntries.toNat ∨ entries.length > maxInt then
            fail "encoded component exceeds table entry limit"
          else do
            let table ← createTable
            pushEntries entries table depth
            return .table table

/-- The loop over the items from place `i` on. -/
def pushItems : List LuaValue → Nat → Nat → Nat → PushM Unit
  | [], _, _, _ => return ()
  | item :: rest, i, table, depth => do
      PushM.count limits
      let pushed ← pushLuaValue item (depth + 1)
      onHeap fun h => h.rawSet table (.integer (Int64.ofNat (i + 1))) pushed
      pushItems rest (i + 1) table depth

def pushEntries : List (Bytes × LuaValue) → Nat → Nat → PushM Unit
  | [], _, _ => return ()
  | (key, child) :: rest, table, depth =>
      if key.length > limits.maxStringBytes.toNat then
        fail "encoded component key exceeds string size limit"
      else do
        PushM.count limits
        let pushed ← pushLuaValue child (depth + 1)
        onHeap fun h => h.rawSet table (.string key) pushed
        pushEntries rest table depth

end

end Push

/-! ## Reading -/

structure ValueReadState where
  entries : Nat
  bufferedBytes : Nat
  seenTables : List Nat

abbrev ReadM := EStateM ExecutionFailure ValueReadState

/-- What a table's loop has found. -/
structure TableRead where
  object : OrdMap Bytes LuaValue
  arrayValues : OrdMap Nat LuaValue
  hasStringKeys : Bool
  hasIntegerKeys : Bool

/-- The items of an array, if their positions go up by one. -/
def contiguous : List (Nat × LuaValue) → Nat → Option (List LuaValue)
  | [], _ => some []
  | (position, value) :: rest, expected =>
      if position ≠ expected then none
      else (contiguous rest (expected + 1)).map (value :: ·)

namespace ReadM

def fail {α : Type} (diagnostic : String) : ReadM α := throw ⟨.invalidProposal, utf8 diagnostic⟩

section Charges

variable (limits : LuaExecutionLimits)

def consume (amount : Nat) : ReadM Unit := do
  match consumeBufferedBytes (← get).bufferedBytes amount limits.maxBufferedValueBytes.toNat
      .invalidProposal "Lua values exceed buffered data limit" with
  | .error e => throw e
  | .ok bufferedBytes => modify fun s => { s with bufferedBytes }

/-- `readState.entries++`, with the check that follows it. -/
def count : ReadM Unit := do
  modify fun s => { s with entries := wrapSize (s.entries + 1) }
  if (← get).entries > limits.maxTableEntries.toNat then
    fail "Lua value exceeds table entry limit"

end Charges

end ReadM

section Read

variable (sizeofLuaValue : UInt64) (limits : LuaExecutionLimits)

open ReadM

/-- The end of one round of a table's loop: the value is stored under its key. -/
def storeEntry (key : LuaObject) (value : LuaValue) (found : TableRead) : ReadM TableRead :=
  match key with
  | .string text =>
      if found.hasIntegerKeys then fail "Lua value cannot mix array and object keys"
      else if text.length > limits.maxStringBytes.toNat then
        fail "Lua table key exceeds string size limit"
      else do
        consume limits text.length
        return { found with object := found.object.emplace text value, hasStringKeys := true }
  | .integer rawKey =>
      if found.hasStringKeys then fail "Lua value cannot mix array and object keys"
      else if rawKey ≤ 0 then fail "Lua array keys must be positive integers"
      else return { found with
        arrayValues := found.arrayValues.emplace rawKey.toNatClampNeg value
        hasIntegerKeys := true }
  | _ => fail "Lua value contains an unsupported table key"

/-- `read_lua_value`, given how to read a table. -/
def readObject (readTable : Nat → ReadM LuaValue) : LuaObject → ReadM LuaValue
  | .boolean value => do
      consume limits sizeofLuaValue.toNat
      return .boolean value
  | .integer value => do
      consume limits sizeofLuaValue.toNat
      return .integer value
  | .number bits => do
      consume limits sizeofLuaValue.toNat
      if !isFinite bits then fail "Lua values cannot contain NaN or infinity"
      else return .number bits
  | .string text =>
      if text.length > limits.maxStringBytes.toNat then
        fail "Lua value exceeds string size limit"
      else do
        consume limits sizeofLuaValue.toNat
        consume limits text.length
        return .string text
  | .table table => readTable table
  | _ => fail "Lua value contains an unsupported type"

/-- One round of a table's loop. -/
def readEntry (readTable : Nat → ReadM LuaValue) (found : TableRead)
    (entry : LuaObject × LuaObject) : ReadM TableRead := do
  ReadM.count limits
  let value ← readObject sizeofLuaValue limits readTable entry.2
  storeEntry limits entry.1 value found

variable {h : LuaHeap} (order : Traversal h)

def readLuaTable : Nat → Nat → ReadM LuaValue
  | 0, _ => fail "Lua value exceeds table depth limit"
  | levels + 1, table => do
      consume limits sizeofLuaValue.toNat
      if table ∈ (← get).seenTables then
        fail "Lua value contains a repeated or cyclic table"
      else do
        modify fun s => { s with seenTables := table :: s.seenTables }
        let found ← (order.visit table).foldlM
          (readEntry sizeofLuaValue limits (readLuaTable levels))
          ⟨.empty, .empty, false, h.hostArray table⟩
        modify fun s => { s with seenTables := s.seenTables.erase table }
        if !found.hasIntegerKeys then return .table found.object.entries
        else
          match contiguous found.arrayValues.entries 1 with
          | none => fail "Lua arrays must be contiguous and start at one"
          | some items => return .array items

/-- `read_lua_value` at a depth, as the levels that are left. -/
def readLuaValue (levels : Nat) : LuaObject → ReadM LuaValue :=
  readObject sizeofLuaValue limits (readLuaTable sizeofLuaValue limits order levels)

end Read

end LiquidLayer
