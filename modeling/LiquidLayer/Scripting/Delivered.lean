/-
  Lifecycle changes are delivered exactly once.

  `successes` are the successful runs a behavior had with a script since it was last forgotten
  or ran another one. `Agrees`: the state the system has for a behavior is the one these runs
  give, whatever was done to the world, to its accesses and to other behaviors between them.
  `Delivered` is what then holds of the changes of a run, and `Leads` says that the changes of
  successive runs fit together: each begins where the one before it ended.
-/
import LiquidLayer.Scripting.Observed

namespace LiquidLayer

open Prog LifecycleState

variable {C : Type}

/-! ## Values that are equal -/

namespace LuaValue

mutual

theorem same_trans : ∀ {a b c : LuaValue}, a.same b = true → b.same c = true → a.same c = true
  | .boolean a, .boolean b, .boolean c, h, h' => by
      simp only [same, decide_eq_true_eq] at h h' ⊢
      exact h.trans h'
  | .integer a, .integer b, .integer c, h, h' => by
      simp only [same, decide_eq_true_eq] at h h' ⊢
      exact h.trans h'
  | .number a, .number b, .number c, h, h' => by
      simp only [same, Bool.and_eq_true, decide_eq_true_eq] at h h' ⊢
      exact ⟨⟨h.1.1, h'.1.2⟩, h.2.trans h'.2⟩
  | .string a, .string b, .string c, h, h' => by
      simp only [same, decide_eq_true_eq] at h h' ⊢
      exact h.trans h'
  | .array as, .array bs, .array cs, h, h' => by
      simp only [same] at h h' ⊢
      exact sameItems_trans h h'
  | .table as, .table bs, .table cs, h, h' => by
      simp only [same] at h h' ⊢
      exact sameEntries_trans h h'

theorem sameItems_trans : ∀ {as bs cs : List LuaValue}, sameItems as bs = true →
    sameItems bs cs = true → sameItems as cs = true
  | [], [], [], _, _ => rfl
  | a :: as, b :: bs, c :: cs, h, h' => by
      simp only [sameItems, Bool.and_eq_true] at h h' ⊢
      exact ⟨same_trans h.1 h'.1, sameItems_trans h.2 h'.2⟩

theorem sameEntries_trans : ∀ {as bs cs : List (Bytes × LuaValue)}, sameEntries as bs = true →
    sameEntries bs cs = true → sameEntries as cs = true
  | [], [], [], _, _ => rfl
  | (k, a) :: as, (l, b) :: bs, (m, c) :: cs, h, h' => by
      simp only [sameEntries, Bool.and_eq_true, decide_eq_true_eq] at h h' ⊢
      exact ⟨⟨h.1.1.trans h'.1.1, same_trans h.1.2 h'.1.2⟩, sameEntries_trans h.2 h'.2⟩

end

/-- The same value, or one that `==` takes for it: the two zeros. -/
def Alike (a b : LuaValue) : Prop := a = b ∨ a.same b = true

theorem Alike.trans {a b c : LuaValue} (h : Alike a b) (h' : Alike b c) : Alike a c := by
  rcases h with rfl | h
  · exact h'
  · rcases h' with rfl | h'
    · exact Or.inr h
    · exact Or.inr (same_trans h h')

end LuaValue

/-! ## The history of a behavior -/

def Turn.succeeded (t : Turn C) : Bool :=
  match t.result with
  | .ok result => result.succeeded
  | .error _ => false

/-- The watches a run asked for. -/
def Turn.asked (t : Turn C) : List Watch :=
  match t.result with
  | .ok result => result.watches
  | .error _ => []

namespace Lifecycle

/-- The runs of a behavior with a script since it was last forgotten or ran another one, newest
    first. -/
def segment (b : BehaviorId) (script : ScriptKey) : List (JournalEntry C) → List (Turn C)
  | [] => []
  | .forgotten b' :: rest => if b' = b then [] else segment b script rest
  | .turn t :: rest =>
      if t.behavior ≠ b then segment b script rest
      else if t.script = script then t :: segment b script rest
      else []

def successes (b : BehaviorId) (script : ScriptKey) (journal : List (JournalEntry C)) :
    List (Turn C) := (segment b script journal).filter Turn.succeeded

/-- A successful run has asked for the watch. -/
def Active (past : List (Turn C)) (watch : Watch) : Prop := ∃ t ∈ past, watch ∈ t.asked

section History

variable {b : BehaviorId} {script : ScriptKey} {journal : List (JournalEntry C)}

theorem successes_forgotten : successes b script (.forgotten b :: journal) = [] := by
  unfold successes segment
  rw [if_pos rfl]
  rfl

theorem successes_forgotten_ne {b' : BehaviorId} (h : b' ≠ b) :
    successes b script (.forgotten b' :: journal) = successes b script journal := by
  unfold successes
  rw [segment, if_neg h]

theorem successes_turn_ne {t : Turn C} (h : t.behavior ≠ b) :
    successes b script (.turn t :: journal) = successes b script journal := by
  unfold successes
  rw [segment, if_pos h]

theorem successes_turn_other {t : Turn C} (hb : t.behavior = b) (h : t.script ≠ script) :
    successes b script (.turn t :: journal) = [] := by
  unfold successes
  rw [segment, if_neg fun hne => hne hb, if_neg h]
  rfl

theorem successes_turn {t : Turn C} (hb : t.behavior = b) (h : t.script = script) :
    successes b script (.turn t :: journal) =
      if t.succeeded then t :: successes b script journal else successes b script journal := by
  unfold successes
  rw [segment, if_neg fun hne => hne hb, if_pos h, List.filter_cons]

/-- The newest successful run, and the history it had. -/
theorem successes_eq_cons {t : Turn C} {past : List (Turn C)}
    (h : successes b script journal = t :: past) :
    ∃ earlier, .turn t :: earlier <:+ journal ∧ t.behavior = b ∧ t.script = script ∧
      t.succeeded = true ∧ successes b script earlier = past := by
  induction journal with
  | nil => cases h
  | cons entry journal ih =>
      have hlater : successes b script journal = t :: past → ∃ earlier,
          .turn t :: earlier <:+ entry :: journal ∧ t.behavior = b ∧ t.script = script ∧
            t.succeeded = true ∧ successes b script earlier = past := by
        intro h
        obtain ⟨earlier, hsuffix, hrest⟩ := ih h
        exact ⟨earlier, hsuffix.trans (List.suffix_cons entry journal), hrest⟩
      cases entry with
      | forgotten b' =>
          by_cases hb : b' = b
          · subst hb
            rw [successes_forgotten] at h
            cases h
          · rw [successes_forgotten_ne hb] at h
            exact hlater h
      | turn u =>
          by_cases hb : u.behavior = b
          · by_cases hscript : u.script = script
            · rw [successes_turn hb hscript] at h
              split at h
              · next hsucceeded =>
                  cases h
                  exact ⟨journal, List.suffix_refl _, hb, hscript, hsucceeded, rfl⟩
              · exact hlater h
            · rw [successes_turn_other hb hscript] at h
              cases h
          · rw [successes_turn_ne hb] at h
            exact hlater h

end History

/-! ## What a run is told -/

/-- The value of a watch at the end of the last successful run. -/
def lastValue (config : RunnerConfig C) (b : BehaviorId) (past : List (Turn C)) (watch : Watch) :
    Option LuaValue := past.head?.bind fun t => config.value t.after b watch

/-- The changes of a run, given the successful runs before it: one for each active watch that
    has a value and had one at the end of the last of these runs, when the two differ. -/
structure Delivered (config : RunnerConfig C) (t : Turn C) (past : List (Turn C)) : Prop where
  once : (t.changes.map ComponentChange.watch).Nodup
  exact : ∀ change, change ∈ t.changes ↔ Active past change.watch ∧
    lastValue config t.behavior past change.watch = some change.before ∧
    config.value t.before t.behavior change.watch = some change.after ∧
    change.before.same change.after = false
  -- what has no value could be looked at, and is not there or cannot be read
  observed : ∀ watch, Active past watch →
    ∃ value, config.observe t.before t.behavior watch = .ok value
  concluded : t.succeeded = true → ∀ watch,
    ∃ value, config.observe t.after t.behavior watch = .ok value
  unmoved : ∀ watch, config.value t.after t.behavior watch = config.value t.before t.behavior watch

/-- The state of a behavior is the one its successful runs give. -/
structure Matches (config : RunnerConfig C) (b : BehaviorId) (state : BehaviorState)
    (past : List (Turn C)) : Prop where
  distinct : state.watches.Nodup
  active : ∀ watch, watch ∈ state.watches ↔ Active past watch
  snapshots : ∀ watch ∈ state.watches,
    state.snapshots.find? watch.key = lastValue config b past watch

def Agrees (config : RunnerConfig C) (states : OrdMap BehaviorId BehaviorState)
    (journal : List (JournalEntry C)) : Prop :=
  ∀ b script, Matches config b (LuaLifecycleSystem.stateFor states b script)
    (successes b script journal)

/-- Every run of the journal was told what it had to be told. -/
def Told (config : RunnerConfig C) (journal : List (JournalEntry C)) : Prop :=
  ∀ t earlier, .turn t :: earlier <:+ journal →
    Delivered config t (successes t.behavior t.script earlier)

section Changes

variable {config : RunnerConfig C} {b : BehaviorId} {state : BehaviorState}
  {past : List (Turn C)} {script : ScriptKey}

theorem Matches.initial (script : ScriptKey) (result : LuaExecutionResult) :
    Matches config b { BehaviorState.initial script with lastResult := result } [] :=
  ⟨List.nodup_nil, fun _ => ⟨fun h => absurd h List.not_mem_nil, fun h =>
    absurd h.choose_spec.1 List.not_mem_nil⟩, fun _ h => absurd h List.not_mem_nil⟩

theorem mem_changeOf {snapshots : OrdMap (Bytes ×ₗ Bytes) LuaValue} {watch : Watch}
    {current : Option LuaValue} {change : ComponentChange} :
    change ∈ LuaLifecycleSystem.changeOf snapshots watch current ↔
      change.watch = watch ∧ snapshots.find? watch.key = some change.before ∧
        current = some change.after ∧ change.before.same change.after = false := by
  obtain ⟨watch', before, after⟩ := change
  unfold LuaLifecycleSystem.changeOf
  cases current with
  | none => simp
  | some value =>
      cases snapshots.find? watch.key with
      | none => simp
      | some previous =>
          dsimp only
          rw [Option.some.injEq, Option.some.injEq]
          by_cases hsame : previous.same value = true
          · rw [if_pos hsame]
            refine ⟨fun h => absurd h List.not_mem_nil, ?_⟩
            rintro ⟨-, rfl, rfl, hdiffer⟩
            rw [hsame] at hdiffer
            cases hdiffer
          · rw [if_neg hsame, List.mem_singleton, ComponentChange.mk.injEq]
            constructor
            · rintro ⟨rfl, rfl, rfl⟩
              exact ⟨rfl, rfl, rfl, Bool.eq_false_iff.mpr hsame⟩
            · rintro ⟨rfl, rfl, rfl, -⟩
              exact ⟨rfl, rfl, rfl⟩

theorem changes_sublist (snapshots : OrdMap (Bytes ×ₗ Bytes) LuaValue) (f : Watch → Option LuaValue)
    (watches : List Watch) :
    List.Sublist ((watches.flatMap fun watch =>
      LuaLifecycleSystem.changeOf snapshots watch (f watch)).map ComponentChange.watch)
      watches := by
  induction watches with
  | nil => exact .slnil
  | cons watch rest ih =>
      rw [List.flatMap_cons, List.map_append]
      have hone : List.Sublist ((LuaLifecycleSystem.changeOf snapshots watch (f watch)).map
          ComponentChange.watch) [watch] := by
        unfold LuaLifecycleSystem.changeOf
        split
        · split
          · exact List.nil_sublist _
          · exact List.Sublist.refl _
        · exact List.nil_sublist _
      exact hone.append ih

/-- What a state that matches makes of the values of its watches. -/
theorem Matches.changes (h : Matches config b state past) (v : World C)
    {changes : List ComponentChange}
    (hchanges : changes = state.watches.flatMap fun watch =>
      LuaLifecycleSystem.changeOf state.snapshots watch (config.value v b watch)) :
    (changes.map ComponentChange.watch).Nodup ∧ ∀ change, change ∈ changes ↔
      Active past change.watch ∧ lastValue config b past change.watch = some change.before ∧
        config.value v b change.watch = some change.after ∧
        change.before.same change.after = false := by
  subst hchanges
  refine ⟨h.distinct.sublist (changes_sublist _ _ _), fun change => ?_⟩
  rw [List.mem_flatMap]
  constructor
  · rintro ⟨watch, hwatch, hmem⟩
    obtain ⟨rfl, hbefore, hafter, hdiffer⟩ := mem_changeOf.mp hmem
    rw [h.snapshots _ hwatch] at hbefore
    exact ⟨(h.active _).mp hwatch, hbefore, hafter, hdiffer⟩
  · rintro ⟨hactive, hbefore, hafter, hdiffer⟩
    have hwatch := (h.active _).mpr hactive
    rw [← h.snapshots _ hwatch] at hbefore
    exact ⟨change.watch, hwatch, mem_changeOf.mpr ⟨rfl, hbefore, hafter, hdiffer⟩⟩

/-! ## The state after a run -/

theorem mem_foldl_addWatch (asked watches : List Watch) (watch : Watch) :
    watch ∈ asked.foldl LuaLifecycleSystem.addWatch watches ↔ watch ∈ watches ∨ watch ∈ asked := by
  induction asked generalizing watches with
  | nil => simp
  | cons first rest ih =>
      rw [List.foldl_cons, ih, List.mem_cons]
      unfold LuaLifecycleSystem.addWatch
      split
      · next hmem =>
          constructor
          · exact fun h => h.imp_right Or.inr
          · rintro (h | rfl | h)
            · exact Or.inl h
            · exact Or.inl hmem
            · exact Or.inr h
      · rw [List.mem_append, List.mem_singleton, or_assoc]

theorem nodup_foldl_addWatch (asked : List Watch) {watches : List Watch} (h : watches.Nodup) :
    (asked.foldl LuaLifecycleSystem.addWatch watches).Nodup := by
  induction asked generalizing watches with
  | nil => exact h
  | cons first rest ih =>
      refine ih ?_
      unfold LuaLifecycleSystem.addWatch
      split
      · exact h
      · next hnew => exact List.nodup_append.mpr ⟨h, List.nodup_singleton _, fun a ha b hb hab =>
          hnew ((List.mem_singleton.mp hb) ▸ hab ▸ ha)⟩

/-- After a successful run the watches are those active now, with their values as snapshots. -/
theorem Matches.succeed (h : Matches config b state past) {t : Turn C} {now : UInt64}
    {result : LuaExecutionResult} (hresult : t.result = .ok result) :
    Matches config b
      (snapped config t.after b
        { state with
          lastResult := result
          started := true
          lastSuccessfulTime := now
          watches := result.watches.foldl LuaLifecycleSystem.addWatch state.watches
          snapshots := .empty }
        (result.watches.foldl LuaLifecycleSystem.addWatch state.watches)) (t :: past) := by
  have hasked : t.asked = result.watches := by
    unfold Turn.asked
    rw [hresult]
  rw [snapped_eq]
  refine ⟨nodup_foldl_addWatch _ h.distinct, fun watch => ?_, fun watch hwatch => ?_⟩
  · dsimp only
    rw [mem_foldl_addWatch, h.active, or_comm, ← hasked]
    simp only [Active, List.mem_cons, exists_eq_or_imp]
  · dsimp only at hwatch ⊢
    rw [find?_snapped, if_pos hwatch]
    rfl

end Changes

/-! ## One turn -/

section Turns

variable {states : OrdMap BehaviorId BehaviorState} {b : BehaviorId} {script : ScriptKey}
  {config : RunnerConfig C} {journal : List (JournalEntry C)}

theorem stateFor_script : (LuaLifecycleSystem.stateFor states b script).script = script := by
  unfold LuaLifecycleSystem.stateFor
  split
  · rfl
  · split
    · next h => exact h
    · rfl

/-- A state that watches something is not a new one. -/
theorem find?_of_watches (h : (LuaLifecycleSystem.stateFor states b script).watches ≠ []) :
    states.find? b = some (LuaLifecycleSystem.stateFor states b script) := by
  unfold LuaLifecycleSystem.stateFor at h ⊢
  cases hfind : states.find? b with
  | none =>
      rw [hfind] at h
      exact absurd rfl h
  | some state =>
      rw [hfind] at h
      dsimp only at h ⊢
      split at h
      · next hscript => rw [if_pos hscript]
      · exact absurd rfl h

/-- With the state of one behavior and an entry about it, the others still agree. -/
theorem Agrees.insert (h : Agrees config states journal) {state : BehaviorState}
    {entry : JournalEntry C}
    (hothers : ∀ b' script, b' ≠ b →
      successes b' script (entry :: journal) = successes b' script journal)
    (hsame : Matches config b state (successes b state.script (entry :: journal)))
    (hnone : ∀ script, state.script ≠ script → successes b script (entry :: journal) = []) :
    Agrees config (states.insert b state) (entry :: journal) := by
  intro b' script
  unfold LuaLifecycleSystem.stateFor
  by_cases hb : b' = b
  · subst hb
    rw [OrdMap.find?_insert_self]
    dsimp only
    split
    · next hscript =>
        rw [← hscript]
        exact hsame
    · next hscript =>
        rw [hnone script hscript]
        exact .initial script ⟨.success, []⟩
  · rw [OrdMap.find?_insert_ne _ hb, hothers b' script hb]
    exact h b' script

/-- A forgotten behavior has no state, or a new one. -/
theorem Agrees.forget (h : Agrees config states journal) (b : BehaviorId) :
    Agrees config (states.erase b) (.forgotten b :: journal) := by
  intro b' script
  unfold LuaLifecycleSystem.stateFor
  rw [OrdMap.find?_erase]
  by_cases hb : b' = b
  · subst hb
    rw [if_pos rfl, successes_forgotten]
    exact .initial script ⟨.success, []⟩
  · rw [if_neg hb, successes_forgotten_ne fun h => hb h.symm]
    exact h b' script

theorem Told.cons (h : Told config journal) {t : Turn C}
    (ht : Delivered config t (successes t.behavior t.script journal)) :
    Told config (.turn t :: journal) := by
  intro u earlier hsuffix
  rcases List.suffix_cons_iff.mp hsuffix with heq | hsuffix
  · cases heq
    exact ht
  · exact h u earlier hsuffix

theorem Told.forgotten (h : Told config journal) (b : BehaviorId) :
    Told config (.forgotten b :: journal) := by
  intro u earlier hsuffix
  rcases List.suffix_cons_iff.mp hsuffix with heq | hsuffix
  · cases heq
  · exact h u earlier hsuffix

/-- The states agree with the journal, and the journal is right. -/
structure Kept (config : RunnerConfig C) (s : LifecycleState C) : Prop where
  agrees : Agrees config s.states s.journal
  told : Told config s.journal

theorem Kept.turn {s s' : LifecycleState C} (hk : Kept config s) {t : Turn C}
    (hd : Delivered config t (successes t.behavior t.script s.journal)) {state : BehaviorState}
    (hscript : state.script = t.script)
    (hstate : Matches config t.behavior state
      (if t.succeeded then t :: successes t.behavior t.script s.journal
        else successes t.behavior t.script s.journal))
    (hstates : s'.states = s.states.insert t.behavior state)
    (hjournal : s'.journal = .turn t :: s.journal) : Kept config s' := by
  refine ⟨?_, ?_⟩
  · rw [hstates, hjournal]
    refine hk.agrees.insert (fun b' script hb => successes_turn_ne hb.symm) ?_ fun script hne =>
      successes_turn_other rfl (hscript ▸ hne)
    rw [hscript, successes_turn rfl rfl]
    exact hstate
  · rw [hjournal]
    exact hk.told.cons hd

theorem wp_unselected {system : LuaLifecycleSystem C} {p : Process C} {w : World C}
    {s : LifecycleState C} (h : Inside system.runner p w s) (hk : Kept system.runner s)
    (b : BehaviorId) :
    wp (system.unselected b) (fun _ s' => Inside system.runner p w s' ∧ Kept system.runner s')
      (fun _ _ => False) s := by
  unfold LuaLifecycleSystem.unselected LifecycleState.record LifecycleState.setState
  rw [wp_bind, wp_modify]
  split
  · rw [wp_modify]
    exact ⟨⟨h.runner, h.ready, h.mirrored⟩, hk.agrees.forget b, hk.told.forgotten b⟩
  · rw [wp_modify]
    refine ⟨⟨h.runner, h.ready, h.mirrored⟩, hk.agrees.insert (fun b' script hb =>
      successes_forgotten_ne hb.symm) ?_ fun _ _ => successes_forgotten, hk.told.forgotten b⟩
    rw [successes_forgotten]
    exact .initial _ _

/-- The end of a turn. `s` is the state before it, and the journal has the turn. -/
theorem wp_conclude {system : LuaLifecycleSystem C} {p : Process C} {w : World C} {id : UInt64}
    (hp : p.Inv system.runner.types) (hw : p.worlds.find? id = some w) (now : UInt64)
    {s s' : LifecycleState C} (hk : Kept system.runner s) {t : Turn C}
    {result : LuaExecutionResult} {state : BehaviorState}
    (hd : Delivered system.runner t (successes t.behavior t.script s.journal))
    (hmatches : Matches system.runner t.behavior state (successes t.behavior t.script s.journal))
    (hscript : state.script = t.script) (hresult : t.result = .ok result)
    (h : Inside system.runner p w s') (hafter : s'.world = t.after)
    (hstates : s'.states = s.states.insert t.behavior state)
    (hjournal : s'.journal = .turn t :: s.journal) :
    wp (system.conclude now t.behavior state result)
      (fun _ s' => Inside system.runner p w s' ∧ Kept system.runner s') (fun _ _ => False) s' := by
  have hsucceeded : t.succeeded = result.succeeded := by
    unfold Turn.succeeded
    rw [hresult]
  unfold LuaLifecycleSystem.conclude LifecycleState.setState
  rw [wp_bind, wp_modify]
  refine wp_ite.mpr ⟨fun hs => ?_, fun hs => ?_⟩
  · rw [wp_bind, wp_modify]
    refine wp_mono (wp_takeSnapshots hp hw t.behavior _ _ ⟨h.runner, h.ready, h.mirrored⟩
      (OrdMap.find?_insert_self ..) fun watch _ => ?_) (fun _ s'' h'' => ?_) fun _ _ he => he
    · dsimp only
      rw [hafter]
      exact hd.concluded (hsucceeded.trans hs) watch
    · obtain ⟨hinside, hjournal', hstates'⟩ := h''
      dsimp only at hstates'
      rw [OrdMap.insert_insert, hstates, OrdMap.insert_insert, OrdMap.insert_insert, hafter]
        at hstates'
      refine ⟨hinside, hk.turn hd ?_ ?_ hstates' (hjournal'.trans hjournal)⟩
      · rw [snapped_eq]
        exact hscript
      · rw [if_pos (hsucceeded.trans hs)]
        exact hmatches.succeed hresult
  · rw [wp_pure]
    have hstates' : s'.states.insert t.behavior { state with lastResult := result } =
        s.states.insert t.behavior { state with lastResult := result } := by
      rw [hstates, OrdMap.insert_insert]
    refine ⟨⟨h.runner, h.ready, h.mirrored⟩, hk.turn hd ?_ ?_ hstates' hjournal⟩
    · exact hscript
    · rw [if_neg fun ht => hs (hsucceeded.symm.trans ht)]
      exact ⟨hmatches.distinct, hmatches.active, hmatches.snapshots⟩

/-- One behavior's turn. -/
theorem wp_turn {system : LuaLifecycleSystem C} {p : Process C} {w : World C} {id : UInt64}
    (hp : p.Inv system.runner.types) (hw : p.worlds.find? id = some w) (machine : Machine C)
    (frame now : UInt64) {s : LifecycleState C} (h : Inside system.runner p w s)
    (hk : Kept system.runner s) (b : BehaviorId) :
    wp (system.turn machine frame now b)
      (fun _ s' => Inside system.runner p w s' ∧ Kept system.runner s')
      (fun _ s' => Inside system.runner p w s' ∧ Kept system.runner s') s := by
  unfold LuaLifecycleSystem.turn
  rw [wp_bind, wp_get]
  cases system.select s.world b with
  | none => exact wp_mono (wp_unselected h hk b) (fun _ _ h' => h') fun _ _ he => he.elim
  | some script =>
      dsimp only
      unfold LifecycleState.setState LifecycleState.record
      rw [wp_bind, wp_modify, wp_bind]
      have hmatches := hk.agrees b script
      have hscript : (LuaLifecycleSystem.stateFor s.states b script).script = script :=
        stateFor_script
      have hfind : (LuaLifecycleSystem.stateFor s.states b script).watches ≠ [] →
          s.states.find? b = some (LuaLifecycleSystem.stateFor s.states b script) :=
        find?_of_watches
      generalize LuaLifecycleSystem.stateFor s.states b script = state at hmatches hscript hfind ⊢
      refine wp_mono (wp_changesOf hp hw b state.snapshots state.watches
        ⟨h.runner, h.ready, h.mirrored⟩) (fun changes s₂ hchanges => ?_) fun e s₂ he => ?_
      · obtain ⟨hobserved, hchanges, hinside₂, hstays₂⟩ := hchanges
        rw [wp_bind, wp_get, wp_bind]
        have hexecuted : wp (caught (system.runner.executeLifecycle machine frame now b
              (if state.started then now - state.lastSuccessfulTime else 0) (!state.started)
              changes script.source))
            (fun out s₃ => Inside system.runner p w s₃ ∧ Stays s₂ s₃ ∧
              ∀ result, out = .ok result → result.succeeded = true →
                ∀ watch, ∃ v, system.runner.observe s₂.world b watch = .ok v)
            (fun _ _ => False) s₂ := by
          refine wp_caught (wp_mono (wp_executeLifecycle machine frame now hp hw hinside₂ b _ _
            changes script.source) (fun result s₃ h₃ => ⟨h₃.1, h₃.2.1, ?_⟩) fun e s₃ h₃ =>
            ⟨h₃.1, h₃.2, nofun⟩)
          rintro _ ⟨⟩ hsucceeded
          exact h₃.2.2 hsucceeded
        refine wp_mono hexecuted (fun out s₃ h₃ => ?_) fun _ _ he => he.elim
        obtain ⟨hinside₃, hstays₃, hconcluded⟩ := h₃
        rw [wp_bind, wp_get, wp_bind, wp_modify]
        have hd : Delivered system.runner ⟨b, script, s₂.world, changes, s₃.world, out⟩
            (successes b script s.journal) := by
          obtain ⟨honce, hexact⟩ := hmatches.changes s.world hchanges
          refine ⟨honce, fun change => ?_, fun watch hactive => ?_, fun hs watch => ?_,
            fun watch => hstays₃.value b watch⟩
          · dsimp only
            rw [hstays₂.value]
            exact hexact change
          · obtain ⟨v, hv⟩ := hobserved watch ((hmatches.active watch).mpr hactive)
            exact ⟨v, (hstays₂.observe b watch).trans hv⟩
          · cases out with
            | error e => cases hs
            | ok result =>
                obtain ⟨v, hv⟩ := hconcluded result rfl hs watch
                exact ⟨v, (hstays₃.observe b watch).trans hv⟩
        have hjournal : s₃.journal = s.journal := hstays₃.journal.trans hstays₂.journal
        cases out with
        | error e =>
            dsimp only
            rw [wp_throw]
            refine ⟨⟨hinside₃.runner, hinside₃.ready, hinside₃.mirrored⟩,
              hk.turn hd hscript hmatches ?_ ?_⟩
            · exact hstays₃.states.trans hstays₂.states
            · exact congrArg _ hjournal
        | ok result =>
            dsimp only
            refine wp_mono (wp_conclude hp hw now hk hd hmatches hscript rfl
              ⟨hinside₃.runner, hinside₃.ready, hinside₃.mirrored⟩ rfl
              (hstays₃.states.trans hstays₂.states) (congrArg _ hjournal)) (fun _ _ h' => h')
              fun _ _ he => he.elim
      · -- a state that has watches is the one that is there already
        obtain ⟨hwatches, hinside₂, hstays₂⟩ := he
        have hstates : s₂.states = s.states :=
          hstays₂.states.trans (OrdMap.insert_of_find? (hfind hwatches))
        refine ⟨hinside₂, ?_, ?_⟩
        · rw [hstates, hstays₂.journal]
          exact hk.agrees
        · rw [hstays₂.journal]
          exact hk.told

end Turns

/-! ## Runs -/

/-- What holds of a process and its system. -/
structure Inv (config : RunnerConfig C) (l : Lifecycle C) : Prop where
  process : l.process.Inv config.types
  agrees : Agrees config l.states l.journal
  told : Told config l.journal

theorem initial_inv (system : LuaLifecycleSystem C) : Inv system.runner (initial system) :=
  ⟨Process.initial_inv _, fun _ script => .initial script ⟨.success, []⟩,
    fun _ _ hsuffix => absurd (List.suffix_nil.mp hsuffix) (List.cons_ne_nil _ _)⟩

theorem Inv.step {system : LuaLifecycleSystem C} {l l' : Lifecycle C} (h : Inv system.runner l)
    (hstep : Step system l l') : Inv system.runner l' := by
  cases hstep with
  | process p hp => exact ⟨h.process.step hp, h.agrees, h.told⟩
  | evidence evidence => exact ⟨h.process, h.agrees, h.told⟩
  | removed b => exact ⟨h.process, h.agrees.forget b, h.told.forgotten b⟩
  | run id w v machine frame now behaviors hw hv =>
      have hok := (h.process.worlds id w hw).1
      have hinside : Inside system.runner l.process w (l.enter v) :=
        ⟨h.process.cache, hv.ready hok, hv.mirrored hok⟩
      have hrun : wp (system.run machine frame now behaviors)
          (fun _ s => Inside system.runner l.process w s ∧ Kept system.runner s)
          (fun _ s => Inside system.runner l.process w s ∧ Kept system.runner s) (l.enter v) :=
        wp_forM (system.turn machine frame now)
          (fun _ s => Inside system.runner l.process w s ∧ Kept system.runner s)
          (fun b _ s hs => wp_turn h.process hw machine frame now hs.1 hs.2 b) behaviors _
          ⟨hinside, h.agrees, h.told⟩
      obtain ⟨hinside', hkept⟩ := wp_after.mp hrun
      exact ⟨⟨h.process.worlds, hinside'.runner⟩, hkept.agrees, hkept.told⟩

theorem Run.inv {system : LuaLifecycleSystem C} {l : Lifecycle C} (h : Run system l) :
    Inv system.runner l := by
  induction h with
  | refl => exact initial_inv system
  | tail _ hstep ih => exact ih.step hstep

/-! ## The changes of successive runs -/

/-- The changes lead from the one value to the other: each begins with the value that the one
    before it ended with. -/
def Leads (a : LuaValue) : List ComponentChange → LuaValue → Prop
  | [], b => a.Alike b
  | change :: rest, b => a.Alike change.before ∧ change.before.same change.after = false ∧
      Leads change.after rest b

theorem Leads.alike {a b c : LuaValue} {changes : List ComponentChange} (h : Leads a changes b)
    (hbc : b.Alike c) : Leads a changes c := by
  induction changes generalizing a with
  | nil => exact h.trans hbc
  | cons change rest ih => exact ⟨h.1, h.2.1, ih h.2.2⟩

theorem Leads.snoc {a : LuaValue} {changes : List ComponentChange} (change : ComponentChange)
    (h : Leads a changes change.before) (hdiffer : change.before.same change.after = false) :
    Leads a (changes ++ [change]) change.after := by
  induction changes generalizing a with
  | nil => exact ⟨h, hdiffer, Or.inl rfl⟩
  | cons first rest ih => exact ⟨h.1, h.2.1, ih h.2.2⟩

def changesOn (watch : Watch) (t : Turn C) : List ComponentChange :=
  t.changes.filter fun change => decide (change.watch = watch)

/-- Along the successful runs `past`, newest first: from a run on in which the watch is active,
    as long as it has a value after every successful run, its changes lead from the value it had
    then to the value it had last. -/
def Chained (config : RunnerConfig C) (b : BehaviorId) (past : List (Turn C)) : Prop :=
  ∀ recent first older, past = recent ++ first :: older → ∀ watch, Active (first :: older) watch →
    (∀ t ∈ recent ++ [first], (config.value t.after b watch).isSome = true) →
    ∃ v v', config.value first.after b watch = some v ∧ lastValue config b past watch = some v' ∧
      Leads v (recent.reverse.flatMap (changesOn watch)) v'

section Chain

variable {config : RunnerConfig C} {t : Turn C} {past : List (Turn C)} {watch : Watch}
  {v v' : LuaValue}

theorem filter_watch {changes : List ComponentChange}
    (hnodup : (changes.map ComponentChange.watch).Nodup) {change : ComponentChange}
    (hmem : change ∈ changes) :
    changes.filter (fun c => decide (c.watch = change.watch)) = [change] := by
  induction changes with
  | nil => cases hmem
  | cons first rest ih =>
      rw [List.map_cons, List.nodup_cons] at hnodup
      rcases List.mem_cons.mp hmem with rfl | hmem
      · rw [List.filter_cons, if_pos (decide_eq_true rfl), List.filter_eq_nil_iff.mpr]
        intro c hc hsame
        exact hnodup.1 (of_decide_eq_true hsame ▸ List.mem_map_of_mem hc)
      · rw [List.filter_cons, if_neg, ih hnodup.2 hmem]
        intro hsame
        exact hnodup.1 (of_decide_eq_true hsame ▸ List.mem_map_of_mem hmem)

/-- No change where the value is as it was, and one where it is not. -/
theorem Delivered.changesOn (h : Delivered config t past) (hactive : Active past watch)
    (hlast : lastValue config t.behavior past watch = some v)
    (hnow : config.value t.before t.behavior watch = some v') :
    changesOn watch t = if v.same v' then [] else [⟨watch, v, v'⟩] := by
  unfold Lifecycle.changesOn
  split
  · next hsame =>
      rw [List.filter_eq_nil_iff]
      intro change hmem hwatch
      obtain ⟨_, hbefore, hafter, hdiffer⟩ := (h.exact change).mp hmem
      rw [of_decide_eq_true hwatch] at hbefore hafter
      cases hlast.symm.trans hbefore
      cases hnow.symm.trans hafter
      rw [hsame] at hdiffer
      cases hdiffer
  · next hdiffer =>
      exact filter_watch h.once ((h.exact ⟨watch, v, v'⟩).mpr
        ⟨hactive, hlast, hnow, Bool.eq_false_iff.mpr hdiffer⟩)

end Chain

theorem Told.chained {config : RunnerConfig C} {journal : List (JournalEntry C)}
    (h : Told config journal) (b : BehaviorId) (script : ScriptKey) :
    Chained config b (successes b script journal) := by
  intro recent first older hpast watch hactive hreadable
  induction recent generalizing journal with
  | nil =>
      obtain ⟨v, hv⟩ := Option.isSome_iff_exists.mp (hreadable first List.mem_cons_self)
      rw [hpast]
      exact ⟨v, v, hv, hv, Or.inl rfl⟩
  | cons t recent ih =>
      obtain ⟨earlier, hsuffix, rfl, rfl, hsucceeded, hearlier⟩ := successes_eq_cons hpast
      have hd := h t earlier hsuffix
      obtain ⟨v, v', hv, hv', hleads⟩ := ih
        (fun u before hu => h u before (hu.trans ((List.suffix_cons _ _).trans hsuffix)))
        hearlier fun u hu => hreadable u (List.mem_cons_of_mem t hu)
      obtain ⟨x, hx⟩ := Option.isSome_iff_exists.mp (hreadable t List.mem_cons_self)
      have hactive' : Active (successes t.behavior t.script earlier) watch := by
        obtain ⟨u, hu, hasked⟩ := hactive
        rw [hearlier]
        exact ⟨u, List.mem_append_right recent hu, hasked⟩
      refine ⟨v, x, hv, ?_, ?_⟩
      · rw [hpast]
        exact hx
      · rw [List.reverse_cons, List.flatMap_append, List.flatMap_singleton,
          hd.changesOn hactive' hv' ((hd.unmoved watch).symm.trans hx)]
        split
        · next hsame =>
            rw [List.append_nil]
            exact hleads.alike (Or.inr hsame)
        · next hdiffer =>
            exact Leads.snoc ⟨watch, v', x⟩ hleads (Bool.eq_false_iff.mpr hdiffer)

/-- Every run with a script is handed one change for each active watch whose value is not what
    it was at the end of the last successful run with that script, and nothing else; and the
    changes of the successful runs follow on from each other, without a gap or an overlap. -/
theorem changes_delivered_once {system : LuaLifecycleSystem C} {l : Lifecycle C}
    (h : Run system l) :
    (∀ t earlier, .turn t :: earlier <:+ l.journal →
      Delivered system.runner t (successes t.behavior t.script earlier)) ∧
      ∀ journal, journal <:+ l.journal → ∀ b script,
        Chained system.runner b (successes b script journal) := by
  have htold := h.inv.told
  refine ⟨htold, fun journal hsuffix b script => ?_⟩
  have hbefore : Told system.runner journal := fun t earlier ht =>
    htold t earlier (ht.trans hsuffix)
  exact hbefore.chained b script

/-! ### A lamp that is switched on between two runs -/

def lampBinding : Binding Bool where
  scriptName := [76]
  type := Process.lampType
  encode := fun lit => .ok (.boolean lit)
  metadata := none

/-- One type for the lamp `l` and the script `s`, which is the same always. -/
def lampSystem : LuaLifecycleSystem Bool where
  runner := ⟨[lampBinding], List.nodup_singleton _, ⟨8, 8, 64, 4096⟩, 64, 40⟩
  scriptType := Process.lampType
  scriptName := some [115]
  script := fun _ => ⟨[], 0⟩

/-- A program that watches the lamp. -/
def watchLamp : Machine Bool := fun _ => .ok ⟨[], [], [⟨[76], [108]⟩]⟩

def unheard : World.Callbacks Bool := ⟨fun _ _ => ⟨[], none⟩, fun _ _ => ⟨[], none⟩⟩

def lampDecode : Value → Except Failure Bool
  | .boolean lit => .ok lit
  | _ => .error (.invalidArgument "lamp")

def lampOps : List (World.Op Bool) :=
  [.registerComponent 0 [76] 1 (some fun lit => .ok (.boolean lit)) (some lampDecode),
    .addComponent Process.lampType [115] false, .addComponent Process.lampType [108] false,
    .createBehavior unheard,
    .grantComponentAccess unheard Process.lampType Process.keeper [115] .read,
    .grantComponentAccess unheard Process.lampType Process.keeper [108] .readWrite]

def lampWorld : World Bool := lampOps.foldl (fun w op => op.step w) (.initial 1)

def switchOn : World.Op Bool :=
  .call (.replaceComponent Process.lampType Process.keeper [108] true)

def lampRun (l : Lifecycle Bool) (w : World Bool) (now : UInt64) : Lifecycle Bool :=
  l.leave (after (lampSystem.run watchLamp now now [Process.keeper]) (l.enter w))

def lampProcess : Process Bool :=
  ⟨OrdMap.empty.insert 1 lampWorld, 2, .initial [Process.lampType]⟩

def lampStarted : Lifecycle Bool :=
  lampRun { initial lampSystem with process := lampProcess } lampWorld 1

/-- A run, the switch, and another run. -/
def lampLit : Lifecycle Bool :=
  lampRun { lampStarted with process := { lampStarted.process with
    worlds := lampStarted.process.worlds.insert 1 (switchOn.step lampWorld) } }
    (switchOn.step lampWorld) 2

/-- The changes of an entry, for lamps. -/
def lampChanges : JournalEntry Bool → List (Bool × Bool)
  | .forgotten _ => []
  | .turn t => t.changes.filterMap fun
    | ⟨_, .boolean before, .boolean after⟩ => some (before, after)
    | _ => none

theorem lampLit_run : Run lampSystem lampLit := by
  have hp : Process.Run [Process.lampType] lampProcess := by
    have hstart : Process.Run (C := Bool) [Process.lampType] (.initial [Process.lampType]) := .refl
    have hoperated := Process.Run.operated (hstart.tail (.createWorld _ (by decide)))
      (OrdMap.find?_insert_self ..) lampOps
    rw [OrdMap.insert_insert] at hoperated
    exact hoperated
  have hprocess : ∀ p : Process Bool, Process.Run [Process.lampType] p →
      Run lampSystem { initial lampSystem with process := p } := by
    intro p hp
    induction hp with
    | refl => exact .refl
    | tail _ hstep ih => exact ih.tail (.process _ _ hstep)
  have hstarted : Run lampSystem lampStarted := (hprocess lampProcess hp).tail
    (.run _ 1 lampWorld lampWorld watchLamp 1 1 [Process.keeper] (OrdMap.find?_insert_self ..)
      (Or.inl rfl))
  have hworld : lampStarted.process.worlds.find? 1 = some lampWorld := OrdMap.find?_insert_self ..
  have hlit := hstarted.tail (.process _ _ (.operate _ 1 lampWorld switchOn hworld))
  exact hlit.tail (.run _ 1 (switchOn.step lampWorld) (switchOn.step lampWorld) watchLamp 2 2
    [Process.keeper] (OrdMap.find?_insert_self ..) (Or.inl rfl))

theorem changes_delivered_once_lamp :
    ((∀ t earlier, .turn t :: earlier <:+ lampLit.journal →
      Delivered lampSystem.runner t (successes t.behavior t.script earlier)) ∧
      ∀ journal, journal <:+ lampLit.journal → ∀ b script,
        Chained lampSystem.runner b (successes b script journal)) ∧
    lampLit.journal.map lampChanges = [[(false, true)], []] :=
  ⟨changes_delivered_once lampLit_run, by decide +kernel⟩

end Lifecycle

end LiquidLayer
