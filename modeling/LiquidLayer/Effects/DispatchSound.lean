/-
  What holds of the idempotent dispatcher in every state its threads can reach.

  * `Sound`: a key is in one of the tables at most, each with what belongs under it; a call is in
    flight exactly while it leads; a completed entry tells how its call ended.
  * `expire_spec`: the loop that bounds the memory, and what it spares.
  * `sound_step`, `sound_reaches`.
-/
import LiquidLayer.Effects.Dispatcher

namespace LiquidLayer

namespace Dispatch

open Prog

variable {σ : Type} {cache : Option (PersistentOutcomeCache σ)} {s : Dispatcher σ}
  {key : DispatchKey} {id : CallId} {call : Call} {point : DispatchPoint}

/-! ## Moves of a call -/

theorem find?_move (s : Dispatcher σ) (id : CallId) (point : DispatchPoint) (j : CallId) :
    (s.move id point).calls.find? j =
      if j = id then (s.calls.find? id).map fun call => { call with point := point }
      else s.calls.find? j := OrdMap.find?_modify ..

variable (point) in
theorem find?_move_self (hcall : s.calls.find? id = some call) :
    (s.move id point).calls.find? id = some { call with point := point } := by
  rw [find?_move, if_pos rfl, hcall]
  rfl

theorem find?_move_ne {j : CallId} (h : j ≠ id) :
    (s.move id point).calls.find? j = s.calls.find? j := by rw [find?_move, if_neg h]

/-- A call after another, or the same, has moved. -/
theorem find?_move_cases {j : CallId} {other : Call} (hcall : s.calls.find? id = some call)
    (h : (s.move id point).calls.find? j = some other) :
    (j = id ∧ other = { call with point := point }) ∨ (j ≠ id ∧ s.calls.find? j = some other) := by
  by_cases hj : j = id
  · subst hj
    rw [find?_move_self point hcall] at h
    exact .inl ⟨rfl, (Option.some.inj h).symm⟩
  · rw [find?_move_ne hj] at h
    exact .inr ⟨hj, h⟩

/-! ## The bounded memory -/

/-- The recency list names the keys of the memory, each once. -/
structure Ranks (recency : List DispatchKey) (memory : OrdMap DispatchKey CachedDispatchOutcome) :
    Prop where
  nodup : recency.Nodup
  keys : ∀ key, key ∈ recency ↔ memory.contains key = true

theorem Ranks.size {recency : List DispatchKey}
    {memory : OrdMap DispatchKey CachedDispatchOutcome} (h : Ranks recency memory) :
    memory.size = recency.length := by
  have hperm : memory.keys.Perm recency := by
    refine (List.perm_ext_iff_of_nodup memory.nodup_keys h.nodup).mpr fun key => ?_
    rw [h.keys, OrdMap.mem_keys, OrdMap.contains_iff]
  simpa [OrdMap.keys, OrdMap.size] using hperm.length_eq

/-- The oldest key and its outcome go together. -/
theorem Ranks.pop {oldest : DispatchKey} {recency : List DispatchKey}
    {memory : OrdMap DispatchKey CachedDispatchOutcome} (h : Ranks (oldest :: recency) memory) :
    Ranks recency (memory.erase oldest) := by
  obtain ⟨hnot, hnodup⟩ := List.nodup_cons.mp h.nodup
  refine ⟨hnodup, fun key => ?_⟩
  have hkey := h.keys key
  rw [List.mem_cons, OrdMap.contains_iff] at hkey
  rw [OrdMap.contains_iff, OrdMap.find?_erase]
  by_cases heq : key = oldest
  · subst heq
    simp [hnot]
  · rw [if_neg heq, ← hkey]
    simp [heq]

/-- What the loop leaves of the memory: the outcomes of the keys that are still ranked. -/
structure Expired (maximum : Nat) (recency : List DispatchKey)
    (memory : OrdMap DispatchKey CachedDispatchOutcome) (recency' : List DispatchKey)
    (memory' : OrdMap DispatchKey CachedDispatchOutcome) : Prop where
  ranks : Ranks recency' memory'
  size : memory'.size ≤ maximum
  /-- Only the oldest keys go. -/
  suffix : recency' <:+ recency
  nonempty : 0 < maximum → recency ≠ [] → recency' ≠ []
  find? : ∀ key ∈ recency', memory'.find? key = memory.find? key

theorem expired_expire {maximum : Nat} {recency : List DispatchKey}
    {memory : OrdMap DispatchKey CachedDispatchOutcome} (h : Ranks recency memory) :
    Expired maximum recency memory (Dispatcher.expire maximum recency memory).1
      (Dispatcher.expire maximum recency memory).2 := by
  induction recency generalizing memory with
  | nil =>
      refine ⟨h, ?_, List.suffix_rfl, fun _ hne => hne, fun _ _ => rfl⟩
      rw [Dispatcher.expire, h.size]
      exact Nat.zero_le _
  | cons oldest recency ih =>
      rw [Dispatcher.expire]
      split
      · next hfull =>
          have hpop := ih h.pop
          refine ⟨hpop.ranks, hpop.size, hpop.suffix.trans (List.suffix_cons _ _),
            fun hpos _ => hpop.nonempty hpos ?_, fun key hkey => ?_⟩
          · -- the last key left is never one too many
            rintro rfl
            rw [h.size, List.length_singleton] at hfull
            omega
          · have hmem := hpop.suffix.subset hkey
            have hne : key ≠ oldest := fun heq =>
              (List.nodup_cons.mp h.nodup).1 (heq ▸ hmem)
            rw [hpop.find? key hkey, OrdMap.find?_erase, if_neg hne]
      · next hroom =>
          exact ⟨h, Nat.le_of_not_lt hroom, List.suffix_rfl, fun _ hne => hne, fun _ _ => rfl⟩

theorem Expired.subset {maximum : Nat} {recency recency' : List DispatchKey}
    {memory memory' : OrdMap DispatchKey CachedDispatchOutcome} {cached : CachedDispatchOutcome}
    (h : Expired maximum recency memory recency' memory')
    (hkey : memory'.find? key = some cached) : memory.find? key = some cached := by
  have hmem := (h.ranks.keys key).mpr (OrdMap.contains_iff.mpr ⟨cached, hkey⟩)
  rw [← h.find? key hmem, hkey]

/-- The newest key stays. -/
theorem Expired.newest {maximum : Nat} {older recency' : List DispatchKey}
    {memory memory' : OrdMap DispatchKey CachedDispatchOutcome}
    (h : Expired maximum (older ++ [key]) memory recency' memory') (hpos : 0 < maximum) :
    key ∈ recency' := by
  obtain ⟨gone, hgone⟩ := h.suffix
  have hne := h.nonempty hpos (by simp)
  have hlast := congrArg List.getLast? hgone
  rw [List.getLast?_append_of_ne_nil _ hne, List.getLast?_concat] at hlast
  exact List.mem_of_getLast? hlast

theorem Ranks.reverse {recency : List DispatchKey}
    {memory : OrdMap DispatchKey CachedDispatchOutcome} (h : Ranks recency memory) :
    Ranks recency.reverse memory :=
  ⟨List.nodup_reverse.mpr h.nodup, fun key => by rw [List.mem_reverse, h.keys]⟩

theorem Ranks.touch {recency : List DispatchKey}
    {memory : OrdMap DispatchKey CachedDispatchOutcome} (h : Ranks recency memory)
    (hkey : memory.contains key = true) : Ranks (key :: recency.erase key) memory := by
  refine ⟨List.nodup_cons.mpr ⟨?_, h.nodup.erase _⟩, fun other => ?_⟩
  · exact fun hmem => (h.nodup.mem_erase_iff.mp hmem).1 rfl
  · rw [List.mem_cons, h.nodup.mem_erase_iff, h.keys]
    constructor
    · rintro (rfl | ⟨-, hother⟩)
      · exact hkey
      · exact hother
    · intro hother
      exact (eq_or_ne other key).imp id fun hne => ⟨hne, hother⟩

theorem Ranks.insert {recency : List DispatchKey}
    {memory : OrdMap DispatchKey CachedDispatchOutcome} (h : Ranks recency memory)
    (hkey : memory.find? key = none) (outcome : CachedDispatchOutcome) :
    Ranks (key :: recency) (memory.insert key outcome) := by
  have hnot : key ∉ recency := by
    rw [h.keys, OrdMap.contains_iff, hkey]
    rintro ⟨_, hsome⟩
    cases hsome
  refine ⟨List.nodup_cons.mpr ⟨hnot, h.nodup⟩, fun other => ?_⟩
  rw [List.mem_cons, h.keys, OrdMap.contains_iff, OrdMap.contains_iff, OrdMap.find?_insert]
  by_cases heq : other = key
  · simp [heq]
  · simp [heq]

/-! ## The invariant -/

/-- A completed entry tells how its call ended. -/
def Completed (entry : InFlightEntry) (call : Call) : Prop :=
  (∃ outcome, entry.failure = none ∧ entry.outcome = some outcome ∧
    outcome.command = call.command ∧
    validateDispatchResultForCommand outcome.result outcome.command = .ok () ∧
    call.point = .finished (.ok outcome.result)) ∨
  (∃ error, entry.failure = some error ∧ call.point = .finished (.error error))

/-- An outcome of `command` that passed validation. -/
def Valid (outcome : CachedDispatchOutcome) (command : EffectCommand) : Prop :=
  outcome.command = command ∧ validateDispatchResultForCommand outcome.result command = .ok ()

structure Sound (s : Dispatcher σ) : Prop where
  flight : ∀ {key id}, s.inFlight.find? key = some id →
    ∃ call entry, s.calls.find? id = some call ∧ s.entries.find? id = some entry ∧
      call.key = key ∧ call.point.leads = true
  leads : ∀ {id call}, s.calls.find? id = some call → call.point.leads = true →
    s.inFlight.find? call.key = some id
  admitted : ∀ {id call}, s.calls.find? id = some call →
    Admitted call.adapterRoute call.command ∨
      ∃ error, refusal call.adapterRoute call.command = some error ∧
        call.point = .finished (.error error)
  entry : ∀ {id entry}, s.entries.find? id = some entry → ∃ call, s.calls.find? id = some call ∧
    Admitted call.adapterRoute call.command ∧ ((entry.completed = false ∧ call.point.leads = true) ∨
      (entry.completed = true ∧ Completed entry call))
  duplicate : ∀ {id call leader}, s.calls.find? id = some call → call.point = .duplicate leader →
    ∃ other entry, s.calls.find? leader = some other ∧ s.entries.find? leader = some entry ∧
      other.key = call.key
  outcome : ∀ {id call outcome}, s.calls.find? id = some call →
    (call.point = .dispatched outcome ∨ call.point = .remembering outcome) →
    Valid outcome call.command
  memory : ∀ {key cached}, s.memory.find? key = some cached →
    keyFor cached.command = key ∧ Valid cached cached.command ∧
      s.uncertain.find? key = none ∧ s.inFlight.find? key = none
  uncertain : ∀ {key failed}, s.uncertain.find? key = some failed →
    keyFor failed.command = key ∧ s.inFlight.find? key = none
  ranks : Ranks s.recency s.memory
  memorySize : s.memory.size ≤ s.maximumMemoryOutcomes
  uncertainSize : s.uncertain.size ≤ s.maximumMemoryOutcomes
  inFlightSize : s.inFlight.size ≤ s.maximumConcurrentDispatches
  positive : 0 < s.maximumMemoryOutcomes

namespace Sound

theorem start {maxMemory maxConcurrent : Nat} {persistent : σ}
    (h : idempotentDispatcher maxMemory persistent maxConcurrent = .ok s) : Sound s := by
  unfold idempotentDispatcher at h
  split at h
  · cases h
  · next hpos =>
      cases h
      exact {
        flight := nofun
        leads := nofun
        admitted := nofun
        entry := nofun
        duplicate := nofun
        outcome := nofun
        memory := nofun
        uncertain := nofun
        ranks := ⟨List.nodup_nil, fun _ => ⟨nofun, nofun⟩⟩
        memorySize := Nat.zero_le _
        uncertainSize := Nat.zero_le _
        inFlightSize := Nat.zero_le _
        positive := Nat.pos_of_ne_zero hpos }

/-- What the other threads do not see. -/
theorem aside (h : Sound s) (persistent : σ) (waiting : Nat) (invoked : List EffectCommand) :
    Sound { s with persistent := persistent, waitingDuplicates := waiting, invoked := invoked } where
  flight := h.flight
  leads := h.leads
  admitted := h.admitted
  entry := h.entry
  duplicate := h.duplicate
  outcome := h.outcome
  memory := h.memory
  uncertain := h.uncertain
  ranks := h.ranks
  memorySize := h.memorySize
  uncertainSize := h.uncertainSize
  inFlightSize := h.inFlightSize
  positive := h.positive

theorem ranked (h : Sound s) {recency : List DispatchKey} (hranks : Ranks recency s.memory) :
    Sound { s with recency := recency } :=
  { h with ranks := hranks }

/-- A call that has not ended has been admitted. -/
theorem admits (h : Sound s) (hcall : s.calls.find? id = some call)
    (hopen : ∀ answer, call.point ≠ .finished answer) :
    Admitted call.adapterRoute call.command :=
  (h.admitted hcall).resolve_right fun ⟨_, _, hpoint⟩ => hopen _ hpoint

/-- The call goes on, leading if and only if it was. -/
theorem move (h : Sound s) (hcall : s.calls.find? id = some call)
    (hleads : point.leads = call.point.leads)
    (hopen : ∀ answer, call.point ≠ .finished answer)
    (hduplicate : ∀ leader, point = .duplicate leader → ∃ other entry,
      s.calls.find? leader = some other ∧ s.entries.find? leader = some entry ∧
        other.key = call.key)
    (houtcome : ∀ outcome, point = .dispatched outcome ∨ point = .remembering outcome →
      Valid outcome call.command) : Sound (s.move id point) where
  flight := by
    intro key j hj
    obtain ⟨other, entry, hother, hentry, hkey, hlead⟩ := h.flight hj
    by_cases heq : j = id
    · subst heq
      cases hcall.symm.trans hother
      exact ⟨_, entry, find?_move_self _ hcall, hentry, hkey, hleads.trans hlead⟩
    · exact ⟨other, entry, by rw [find?_move_ne heq, hother], hentry, hkey, hlead⟩
  leads := by
    intro j other hj hlead
    rcases find?_move_cases hcall hj with ⟨rfl, rfl⟩ | ⟨-, hother⟩
    · show s.inFlight.find? call.key = some j
      exact h.leads hcall (hleads.symm.trans hlead)
    · exact h.leads hother hlead
  admitted := by
    intro j other hj
    have hadmitted := h.admits hcall hopen
    rcases find?_move_cases hcall hj with ⟨rfl, rfl⟩ | ⟨-, hother⟩
    · exact .inl hadmitted
    · exact h.admitted hother
  entry := by
    intro j entry hj
    obtain ⟨other, hother, hadmitted, hentry⟩ := h.entry hj
    by_cases heq : j = id
    · subst heq
      cases hcall.symm.trans hother
      refine ⟨_, find?_move_self _ hcall, hadmitted, .inl ?_⟩
      rcases hentry with ⟨hcompleted, hlead⟩ | ⟨-, ⟨_, -, -, -, -, hdone⟩ | ⟨_, -, hdone⟩⟩
      · exact ⟨hcompleted, hleads.trans hlead⟩
      · exact absurd hdone (hopen _)
      · exact absurd hdone (hopen _)
    · exact ⟨other, by rw [find?_move_ne heq, hother], hadmitted, hentry⟩
  duplicate := by
    intro j other leader hj hpoint
    have hfound : ∃ first entry, s.calls.find? leader = some first ∧
        s.entries.find? leader = some entry ∧ first.key = other.key := by
      rcases find?_move_cases hcall hj with ⟨rfl, rfl⟩ | ⟨-, hother⟩
      · exact hduplicate leader hpoint
      · exact h.duplicate hother hpoint
    obtain ⟨first, entry, hfirst, hentry, hkey⟩ := hfound
    by_cases heq : leader = id
    · subst heq
      cases hcall.symm.trans hfirst
      exact ⟨_, entry, find?_move_self _ hcall, hentry, hkey⟩
    · exact ⟨first, entry, by rw [find?_move_ne heq, hfirst], hentry, hkey⟩
  outcome := by
    intro j other outcome hj hpoint
    rcases find?_move_cases hcall hj with ⟨rfl, rfl⟩ | ⟨-, hother⟩
    · exact houtcome outcome hpoint
    · exact h.outcome hother hpoint
  memory := h.memory
  uncertain := h.uncertain
  ranks := h.ranks
  memorySize := h.memorySize
  uncertainSize := h.uncertainSize
  inFlightSize := h.inFlightSize
  positive := h.positive

/-- A thread calls `dispatch`. -/
theorem enters (h : Sound s) {route : AdapterRoute} {command : EffectCommand}
    (fresh : s.calls.find? id = none) (hleads : point.leads = false)
    (hduplicate : ∀ leader, point ≠ .duplicate leader)
    (hadmitted : Admitted route command ∨
      ∃ error, refusal route command = some error ∧ point = .finished (.error error)) :
    Sound { s with calls := s.calls.insert id ⟨route, command, point⟩ } := by
  have hold : ∀ {j other}, s.calls.find? j = some other →
      (s.calls.insert id ⟨route, command, point⟩).find? j = some other := by
    intro j other hj
    have hne : j ≠ id := by
      rintro rfl
      cases fresh.symm.trans hj
    rw [OrdMap.find?_insert_ne _ hne, hj]
  have hnew : ∀ {j other}, (s.calls.insert id ⟨route, command, point⟩).find? j = some other →
      other = ⟨route, command, point⟩ ∨ s.calls.find? j = some other := by
    intro j other hj
    rw [OrdMap.find?_insert] at hj
    split at hj
    · exact .inl (Option.some.inj hj).symm
    · exact .inr hj
  refine { h with flight := ?_, leads := ?_, admitted := ?_, entry := ?_, duplicate := ?_,
                  outcome := ?_ }
  · intro key j hj
    obtain ⟨other, entry, hother, hrest⟩ := h.flight hj
    exact ⟨other, entry, hold hother, hrest⟩
  · intro j other hj hlead
    rcases hnew hj with rfl | hother
    · exact absurd hlead (by rw [hleads]; decide)
    · exact h.leads hother hlead
  · intro j other hj
    rcases hnew hj with rfl | hother
    · exact hadmitted
    · exact h.admitted hother
  · intro j entry hj
    obtain ⟨other, hother, hrest⟩ := h.entry hj
    exact ⟨other, hold hother, hrest⟩
  · intro j other leader hj hpoint
    rcases hnew hj with rfl | hother
    · exact absurd hpoint (hduplicate leader)
    · obtain ⟨first, entry, hfirst, hrest⟩ := h.duplicate hother hpoint
      exact ⟨first, entry, hold hfirst, hrest⟩
  · intro j other outcome hj hpoint
    rcases hnew hj with rfl | hother
    · rcases hpoint with rfl | rfl <;> cases hleads
    · exact h.outcome hother hpoint

theorem not_finished (hwaits : call.point.waits = true) (answer : Answer) :
    call.point ≠ .finished answer := by
  intro h
  rw [h] at hwaits
  cases hwaits

theorem lead_not_finished (hlead : call.point.leads = true) (answer : Answer) :
    call.point ≠ .finished answer := by
  intro h
  rw [h] at hlead
  cases hlead

theorem waits_leads (h : point.waits = true) : point.leads = false := by
  cases point <;> first | rfl | cases h

/-- The call enters itself as in flight. -/
theorem lead (h : Sound s) (hcall : s.calls.find? id = some call) (hwaits : call.point.waits = true)
    (unknown : Unknown s call.key) (room : s.inFlight.size < s.maximumConcurrentDispatches) :
    Sound ({ s with
      inFlight := s.inFlight.insert call.key id
      entries := s.entries.insert id {} }.move id .leading) := by
  have hidle : call.point.leads = false := waits_leads hwaits
  have hadmitted := h.admits hcall (not_finished hwaits)
  have hself : ({ s with
      inFlight := s.inFlight.insert call.key id
      entries := s.entries.insert id {} }.move id .leading).calls.find? id =
        some { call with point := .leading } := find?_move_self _ hcall
  have hne : ∀ {j other}, s.calls.find? j = some other → other.point.leads = true → j ≠ id := by
    rintro j other hother hlead rfl
    cases hcall.symm.trans hother
    exact absurd (hlead.symm.trans hidle) (by decide)
  refine { flight := ?_, leads := ?_, admitted := ?_, entry := ?_, duplicate := ?_, outcome := ?_,
           memory := ?_, uncertain := ?_, ranks := h.ranks, memorySize := h.memorySize,
           uncertainSize := h.uncertainSize, inFlightSize := ?_, positive := h.positive }
  · intro key j hj
    rw [show Dispatcher.inFlight _ = s.inFlight.insert call.key id from rfl,
      OrdMap.find?_insert] at hj
    split at hj
    · next hkey =>
        cases hj
        exact ⟨_, {}, hself, OrdMap.find?_insert_self _ _ _, hkey.symm, rfl⟩
    · obtain ⟨other, entry, hother, hentry, hkey, hlead⟩ := h.flight hj
      have hid := hne hother hlead
      exact ⟨other, entry, by rw [find?_move_ne hid, hother],
        (OrdMap.find?_insert_ne s.entries hid {}).trans hentry, hkey, hlead⟩
  · intro j other hj hlead
    rw [show Dispatcher.inFlight _ = s.inFlight.insert call.key id from rfl, OrdMap.find?_insert]
    rcases find?_move_cases hcall hj with ⟨rfl, rfl⟩ | ⟨-, hother⟩
    · exact if_pos rfl
    · have hflight := h.leads hother hlead
      rw [if_neg, hflight]
      intro heq
      exact absurd (heq ▸ hflight) (by rw [unknown.inFlight]; exact nofun)
  · intro j other hj
    rcases find?_move_cases hcall hj with ⟨rfl, rfl⟩ | ⟨-, hother⟩
    · exact .inl hadmitted
    · exact h.admitted hother
  · intro j entry hj
    rw [show Dispatcher.entries _ = s.entries.insert id {} from rfl, OrdMap.find?_insert] at hj
    split at hj
    · next heq =>
        cases hj
        subst heq
        exact ⟨_, hself, hadmitted, .inl ⟨rfl, rfl⟩⟩
    · next heq =>
        obtain ⟨other, hother, hrest⟩ := h.entry hj
        exact ⟨other, by rw [find?_move_ne heq, hother], hrest⟩
  · intro j other leader hj hpoint
    rcases find?_move_cases hcall hj with ⟨rfl, rfl⟩ | ⟨-, hother⟩
    · cases hpoint
    · obtain ⟨first, entry, hfirst, hentry, hkey⟩ := h.duplicate hother hpoint
      by_cases heq : leader = id
      · subst heq
        cases hcall.symm.trans hfirst
        exact ⟨_, {}, hself, OrdMap.find?_insert_self _ _ _, hkey⟩
      · exact ⟨first, entry, by rw [find?_move_ne heq, hfirst],
          by rw [← hentry]; exact OrdMap.find?_insert_ne _ heq _, hkey⟩
  · intro j other outcome hj hpoint
    rcases find?_move_cases hcall hj with ⟨rfl, rfl⟩ | ⟨-, hother⟩
    · rcases hpoint with hpoint | hpoint <;> cases hpoint
    · exact h.outcome hother hpoint
  · intro key cached hkey
    obtain ⟨hcommand, hvalid, huncertain, hflight⟩ := h.memory hkey
    have hother : key ≠ call.key := by
      rintro rfl
      exact nomatch unknown.memory.symm.trans hkey
    exact ⟨hcommand, hvalid, huncertain,
      (OrdMap.find?_insert_ne s.inFlight hother id).trans hflight⟩
  · intro key failed hkey
    obtain ⟨hcommand, hflight⟩ := h.uncertain hkey
    have hother : key ≠ call.key := by
      rintro rfl
      exact nomatch unknown.uncertain.symm.trans hkey
    exact ⟨hcommand, (OrdMap.find?_insert_ne s.inFlight hother id).trans hflight⟩
  · show (s.inFlight.insert call.key id).size ≤ s.maximumConcurrentDispatches
    rw [OrdMap.size_insert, OrdMap.not_contains_iff.mpr unknown.inFlight]
    exact room

/-- The leader's last section: its entry is completed and it is no longer in flight. -/
theorem close (h : Sound s) (hcall : s.calls.find? id = some call)
    (hlead : call.point.leads = true) (entry : InFlightEntry) (answer : Answer)
    (hcompleted : entry.completed = true)
    (hentry : Completed entry { call with point := .finished answer }) :
    Sound ({ s with
      entries := s.entries.insert id entry
      inFlight := s.inFlight.erase call.key }.finish id answer) := by
  have hflight := h.leads hcall hlead
  have hadmitted := h.admits hcall (lead_not_finished hlead)
  have hself : ({ s with
      entries := s.entries.insert id entry
      inFlight := s.inFlight.erase call.key }.finish id answer).calls.find? id =
        some { call with point := .finished answer } := find?_move_self _ hcall
  have herase : ∀ {key j}, (s.inFlight.erase call.key).find? key = some j →
      key ≠ call.key ∧ s.inFlight.find? key = some j := by
    intro key j hj
    rw [OrdMap.find?_erase] at hj
    split at hj
    · cases hj
    · next hne => exact ⟨hne, hj⟩
  refine { flight := ?_, leads := ?_, admitted := ?_, entry := ?_, duplicate := ?_, outcome := ?_,
           memory := ?_, uncertain := ?_, ranks := h.ranks, memorySize := h.memorySize,
           uncertainSize := h.uncertainSize, inFlightSize := ?_, positive := h.positive }
  · intro key j hj
    obtain ⟨hne, hj⟩ := herase hj
    obtain ⟨other, record, hother, hrecord, hkey, hlead'⟩ := h.flight hj
    have hid : j ≠ id := by
      rintro rfl
      cases hcall.symm.trans hother
      exact hne hkey.symm
    exact ⟨other, record, (find?_move_ne hid).trans hother,
      (OrdMap.find?_insert_ne s.entries hid entry).trans hrecord, hkey, hlead'⟩
  · intro j other hj hlead'
    rcases find?_move_cases hcall hj with ⟨rfl, rfl⟩ | ⟨hid, hother⟩
    · cases hlead'
    · have hflight' := h.leads hother hlead'
      show (s.inFlight.erase call.key).find? other.key = some j
      rw [OrdMap.find?_erase, if_neg, hflight']
      intro heq
      rw [heq, hflight] at hflight'
      exact hid (Option.some.inj hflight').symm
  · intro j other hj
    rcases find?_move_cases hcall hj with ⟨rfl, rfl⟩ | ⟨-, hother⟩
    · exact .inl hadmitted
    · exact h.admitted hother
  · intro j other hj
    rw [show Dispatcher.entries _ = s.entries.insert id entry from rfl, OrdMap.find?_insert] at hj
    split at hj
    · next heq =>
        cases hj
        subst heq
        exact ⟨_, hself, hadmitted, .inr ⟨hcompleted, hentry⟩⟩
    · next heq =>
        obtain ⟨first, hfirst, hrest⟩ := h.entry hj
        exact ⟨first, (find?_move_ne heq).trans hfirst, hrest⟩
  · intro j other leader hj hpoint
    rcases find?_move_cases hcall hj with ⟨rfl, rfl⟩ | ⟨-, hother⟩
    · cases hpoint
    · obtain ⟨first, record, hfirst, hrecord, hkey⟩ := h.duplicate hother hpoint
      by_cases heq : leader = id
      · subst heq
        cases hcall.symm.trans hfirst
        exact ⟨_, entry, hself, OrdMap.find?_insert_self _ _ _, hkey⟩
      · exact ⟨first, record, (find?_move_ne heq).trans hfirst,
          (OrdMap.find?_insert_ne s.entries heq entry).trans hrecord, hkey⟩
  · intro j other outcome hj hpoint
    rcases find?_move_cases hcall hj with ⟨rfl, rfl⟩ | ⟨-, hother⟩
    · rcases hpoint with hpoint | hpoint <;> cases hpoint
    · exact h.outcome hother hpoint
  · intro key cached hkey
    obtain ⟨hcommand, hvalid, huncertain, hnone⟩ := h.memory hkey
    exact ⟨hcommand, hvalid, huncertain, OrdMap.find?_erase_none hnone⟩
  · intro key failed hkey
    obtain ⟨hcommand, hnone⟩ := h.uncertain hkey
    exact ⟨hcommand, OrdMap.find?_erase_none hnone⟩
  · have hsize := OrdMap.size_erase_of_find? hflight
    have hroom := h.inFlightSize
    show (s.inFlight.erase call.key).size ≤ s.maximumConcurrentDispatches
    omega

/-- A leader's key is in no other table. -/
theorem unknown_of_flight (h : Sound s) (hflight : s.inFlight.find? key = some id) :
    s.memory.find? key = none ∧ s.uncertain.find? key = none := by
  refine ⟨Option.eq_none_iff_forall_ne_some.mpr fun cached hcached => ?_,
    Option.eq_none_iff_forall_ne_some.mpr fun failed hfailed => ?_⟩
  · exact nomatch hflight.symm.trans (h.memory hcached).2.2.2
  · exact nomatch hflight.symm.trans (h.uncertain hfailed).2

variable (id) in
/-- What `remember` leaves: the new outcome at the front, the oldest ones gone. -/
theorem remember_expired (h : Sound s) (hmemory : s.memory.find? key = none)
    (outcome : CachedDispatchOutcome) :
    ∃ recency memory, Expired s.maximumMemoryOutcomes (s.recency.reverse ++ [key])
        (s.memory.insert key outcome) recency memory ∧
      s.remember id key outcome =
        { { s with
            entries := s.entries.insert id { completed := true, outcome := some outcome }
            inFlight := s.inFlight.erase key }.finish id (.ok outcome.result) with
          recency := recency.reverse
          memory := memory } := by
  have hranks := (h.ranks.insert hmemory outcome).reverse
  rw [List.reverse_cons] at hranks
  refine ⟨_, _, expired_expire hranks, ?_⟩
  unfold Dispatcher.remember
  rw [OrdMap.not_contains_iff.mpr hmemory, if_neg (by decide)]
  simp only [List.reverse_cons]
  rfl

theorem remember (h : Sound s) (hcall : s.calls.find? id = some call)
    {outcome : CachedDispatchOutcome} (hpoint : call.point = .remembering outcome) :
    Sound (s.remember id call.key outcome) := by
  have hlead : call.point.leads = true := by rw [hpoint]; rfl
  have hvalid := h.outcome hcall (.inr hpoint)
  obtain ⟨hmemory, huncertain⟩ := h.unknown_of_flight (h.leads hcall hlead)
  obtain ⟨recency, memory, hexpired, heq⟩ := h.remember_expired id hmemory outcome
  have hclosed := h.close hcall hlead { completed := true, outcome := some outcome }
    (.ok outcome.result) rfl
    (.inl ⟨outcome, rfl, rfl, hvalid.1, hvalid.1 ▸ hvalid.2, rfl⟩)
  rw [heq]
  refine { hclosed with memory := ?_, ranks := hexpired.ranks.reverse, memorySize := hexpired.size }
  intro other cached hother
  have hbefore := hexpired.subset hother
  rw [OrdMap.find?_insert] at hbefore
  split at hbefore
  · next hsame =>
      cases hbefore
      subst hsame
      refine ⟨congrArg keyFor hvalid.1, ⟨rfl, hvalid.1 ▸ hvalid.2⟩, huncertain, ?_⟩
      show (s.inFlight.erase call.key).find? call.key = none
      rw [OrdMap.find?_erase, if_pos rfl]
  · exact hclosed.memory hbefore

/-- What is left of the uncertain table by `finish_failure`, the new entry apart. -/
def spared (s : Dispatcher σ) (key first : DispatchKey) : OrdMap DispatchKey UncertainOutcome :=
  if !s.uncertain.contains key && decide (s.uncertain.size ≥ s.maximumMemoryOutcomes) then
    s.uncertain.erase first
  else s.uncertain

theorem find?_spared {first other : DispatchKey} {failed : UncertainOutcome}
    (h : (spared s key first).find? other = some failed) :
    s.uncertain.find? other = some failed := by
  unfold spared at h
  split at h
  · rw [OrdMap.find?_erase] at h
    split at h
    · cases h
    · exact h
  · exact h

theorem size_spared (h : Sound s) {first : DispatchKey} (hbegins : s.begins key first = true)
    (failed : UncertainOutcome) :
    ((spared s key first).insert key failed).size ≤ s.maximumMemoryOutcomes := by
  have hsize := h.uncertainSize
  unfold spared
  unfold Dispatcher.begins at hbegins
  rw [OrdMap.size_insert]
  cases hkey : s.uncertain.contains key with
  | true =>
      rw [Bool.not_true, Bool.false_and, if_neg Bool.false_ne_true, hkey]
      exact hsize
  | false =>
      rw [Bool.not_false, Bool.true_and]
      rw [hkey, Bool.false_or, Bool.or_eq_true, decide_eq_true_eq] at hbegins
      split
      · next hfull =>
          have hfull := of_decide_eq_true hfull
          obtain ⟨gone, hgone⟩ := OrdMap.contains_iff.mp (hbegins.resolve_left (by omega))
          have hless := OrdMap.size_erase_of_find? hgone
          split <;> omega
      · next hroom =>
          have hroom := of_decide_eq_false (Bool.eq_false_of_not_eq_true hroom)
          rw [hkey, if_neg (by decide)]
          omega

theorem finishFailure_eq (s : Dispatcher σ) (id : CallId) (call : Call) (error : Failure)
    (first : DispatchKey) :
    s.finishFailure id call.command error first =
      { { s with
          entries := s.entries.insert id { completed := true, failure := some error }
          inFlight := s.inFlight.erase call.key }.finish id (.error error) with
        uncertain := (spared s call.key first).insert call.key ⟨call.command, error⟩ } := rfl

theorem fail (h : Sound s) (hcall : s.calls.find? id = some call) {error : Failure}
    (hpoint : call.point = .failing error) {first : DispatchKey}
    (hbegins : s.begins call.key first = true) :
    Sound (s.finishFailure id call.command error first) := by
  have hlead : call.point.leads = true := by rw [hpoint]; rfl
  obtain ⟨hmemory, huncertain⟩ := h.unknown_of_flight (h.leads hcall hlead)
  have hclosed := h.close hcall hlead { completed := true, failure := some error }
    (.error error) rfl (.inr ⟨error, rfl, rfl⟩)
  rw [finishFailure_eq]
  refine { hclosed with memory := ?_, uncertain := ?_, uncertainSize := h.size_spared hbegins _ }
  · intro other cached hother
    obtain ⟨hcommand, hvalid, hnone, hflight⟩ := hclosed.memory hother
    have hne : other ≠ call.key := by
      rintro rfl
      exact nomatch hmemory.symm.trans hother
    refine ⟨hcommand, hvalid, ?_, hflight⟩
    refine Option.eq_none_iff_forall_ne_some.mpr fun failed hfailed => ?_
    rw [show Dispatcher.uncertain _ =
      (spared s call.key first).insert call.key ⟨call.command, error⟩ from rfl,
      OrdMap.find?_insert_ne _ hne] at hfailed
    exact nomatch hnone.symm.trans (find?_spared hfailed)
  · intro other failed hother
    rw [show Dispatcher.uncertain _ =
      (spared s call.key first).insert call.key ⟨call.command, error⟩ from rfl,
      OrdMap.find?_insert] at hother
    split at hother
    · next heq =>
        cases hother
        subst heq
        refine ⟨rfl, ?_⟩
        show (s.inFlight.erase call.key).find? call.key = none
        rw [OrdMap.find?_erase, if_pos rfl]
    · exact hclosed.uncertain (find?_spared hother)

theorem clear (h : Sound s) : Sound s.clearMemory where
  flight := h.flight
  leads := h.leads
  admitted := h.admitted
  entry := h.entry
  duplicate := h.duplicate
  outcome := h.outcome
  memory := nofun
  uncertain := nofun
  ranks := ⟨List.nodup_nil, fun _ => ⟨nofun, nofun⟩⟩
  memorySize := Nat.zero_le _
  uncertainSize := Nat.zero_le _
  inFlightSize := h.inFlightSize
  positive := h.positive

/-! ## Every step -/

theorem looks {s' : Dispatcher σ} (h : Sound s) (hcall : s.calls.find? id = some call)
    (hwaits : call.point.waits = true) (hlooks : Looks s id call s') : Sound s' := by
  have hidle := waits_leads hwaits
  have hopen := not_finished hwaits
  cases hlooks with
  | @gives answer recency waiting hgives hrecency =>
      have hranks : Ranks recency s.memory := by
        rcases hrecency with rfl | ⟨hcontains, rfl⟩
        · exact h.ranks
        · exact h.ranks.touch hcontains
      exact ((h.aside s.persistent waiting s.invoked).ranked hranks).move hcall hidle.symm hopen
        nofun nofun
  | @duplicate leader waiting hmemory huncertain hflight =>
      refine (h.aside s.persistent waiting s.invoked).move hcall hidle.symm hopen ?_ nofun
      intro first hfirst
      cases hfirst
      obtain ⟨other, entry, hother, hentry, hkey, -⟩ := h.flight hflight
      exact ⟨other, entry, hother, hentry, hkey⟩
  | @full waiting unknown hfull =>
      exact (h.aside s.persistent waiting s.invoked).move hcall hidle.symm hopen nofun nofun
  | @leads waiting unknown room =>
      exact (h.aside s.persistent waiting s.invoked).lead hcall hwaits
        ⟨unknown.1, unknown.2, unknown.3⟩ room

theorem consulted {s' : Dispatcher σ} (h : Sound s) (hcall : s.calls.find? id = some call)
    (hpoint : call.point = .leading) (hconsulted : Consulted cache s id call.command s') :
    Sound s' := by
  have hlead : call.point.leads = true := by rw [hpoint]; rfl
  have hopen : ∀ answer, call.point ≠ .finished answer := fun answer => by
    rw [hpoint]
    exact nofun
  cases hconsulted with
  | invoke =>
      exact (h.aside (asked cache s call.command).2 s.waitingDuplicates
        (call.command :: s.invoked)).move hcall hlead.symm hopen nofun nofun
  | @found outcome hfound hsame =>
      refine (h.aside (asked cache s call.command).2 s.waitingDuplicates s.invoked).move hcall
        hlead.symm hopen nofun ?_
      rintro _ (hpoint | hpoint) <;> cases hpoint
      unfold requireSameCommand at hsame
      split at hsame
      · cases hsame
      · next heq => exact ⟨not_not.mp heq, hsame⟩
  | conflict | throws =>
      exact (h.aside (asked cache s call.command).2 s.waitingDuplicates s.invoked).move hcall
        hlead.symm hopen nofun nofun

theorem step (h : Sound s) (action : Action) : Sound (step cache action s) := by
  have hhappens := step_happens cache action s
  generalize Dispatch.step cache action s = s' at hhappens
  cases hhappens with
  | nothing => exact h
  | refused fresh hrefusal => exact h.enters fresh rfl nofun (.inr ⟨_, hrefusal, rfl⟩)
  | admitted fresh hadmitted => exact h.enters fresh rfl nofun (.inl hadmitted)
  | looks hcall hwaits hlooks => exact h.looks hcall hwaits hlooks
  | consults hcall hpoint hconsulted => exact h.consulted hcall hpoint hconsulted
  | answered hcall hpoint _ hvalid =>
      refine h.move hcall (by rw [hpoint]; rfl) (by rw [hpoint]; exact nofun) nofun ?_
      rintro _ (houtcome | houtcome) <;> cases houtcome
      exact ⟨rfl, hvalid⟩
  | threw hcall hpoint =>
      exact h.move hcall (by rw [hpoint]; rfl) (by rw [hpoint]; exact nofun) nofun nofun
  | @stores id call outcome hcall hpoint =>
      refine (h.aside (kept cache s outcome).2 s.waitingDuplicates s.invoked).move hcall
        (by rw [hpoint]; rfl) (by rw [hpoint]; exact nofun) nofun ?_
      rintro _ (houtcome | houtcome) <;> cases houtcome
      exact h.outcome hcall (.inl hpoint)
  | @loses id call outcome _ hcall hpoint =>
      exact (h.aside (kept cache s outcome).2 s.waitingDuplicates s.invoked).move hcall
        (by rw [hpoint]; rfl) (by rw [hpoint]; exact nofun) nofun nofun
  | remembers hcall hpoint => exact h.remember hcall hpoint
  | fails hcall hpoint hbegins => exact h.fail hcall hpoint hbegins
  | clears => exact h.clear

theorem reaches {ok : Action → Dispatcher σ → Prop} {s₀ : Dispatcher σ} (h : Sound s₀)
    (hreaches : Reaches (Dispatch.step cache) ok s₀ s) : Sound s :=
  hreaches.induct h fun action _ hs _ => hs.step action

end Sound

end Dispatch

end LiquidLayer
