/-
  What the callbacks of a system can do to the world, and what telling the systems about a
  behavior does.

  `Hosted w w'`: `w'` is reached from `w` by calls of host code. The calls do not look at the
  systems (`Call.blind`), so they can be taken together across the changes the registry makes
  to the memberships in between: `Calm systems w w'` says that `w'` is `w` after some calls,
  with `systems` in the place of the system registry.

  `wp_updateBehavior`, `wp_removeFromSystems` and `wp_updateAllSystemMemberships`: however the
  callbacks end, every system has been told, and the first exception is the one thrown.
-/
import LiquidLayer.World.Registered
import LiquidLayer.World.World

namespace LiquidLayer

open Prog

namespace World

variable {C α β : Type}

/-! ## Programs that do not look at the systems -/

def setSystems (systems : SystemRegistry) (w : World C) : World C := { w with systems }

@[simp] theorem setSystems_setSystems (s s' : SystemRegistry) (w : World C) :
    setSystems s (setSystems s' w) = setSystems s w := rfl

@[simp] theorem setSystems_self (w : World C) : setSystems w.systems w = w := rfl

/-- An outcome with other systems. -/
def withSystems (s : SystemRegistry) :
    EStateM.Result Failure (World C) α → EStateM.Result Failure (World C) α
  | .ok a w => .ok a (setSystems s w)
  | .error e w => .error e (setSystems s w)

def Blind (m : WorldM C α) : Prop := ∀ s w, m (setSystems s w) = withSystems s (m w)

theorem blind_pure (a : α) : Blind (pure a : WorldM C α) := fun _ _ => rfl

theorem blind_throw (e : Failure) : Blind (throw e : WorldM C α) := fun _ _ => rfl

theorem blind_lift (x : Except Failure α) : Blind (lift x : WorldM C α) := by
  cases x with
  | ok a => exact blind_pure a
  | error e => exact blind_throw e

theorem blind_bind {m : WorldM C α} {f : α → WorldM C β} (hm : Blind m)
    (hf : ∀ a, Blind (f a)) : Blind (m >>= f) := by
  intro s w
  show EStateM.bind m f _ = withSystems s (EStateM.bind m f w)
  unfold EStateM.bind
  rw [hm s w]
  cases m w with
  | ok a w' => exact hf a s w'
  | error e w' => rfl

theorem blind_tryCatch {m : WorldM C α} {h : Failure → WorldM C α} (hm : Blind m)
    (hh : ∀ e, Blind (h e)) : Blind (tryCatch m h) := by
  intro s w
  show EStateM.tryCatch m h _ = withSystems s (EStateM.tryCatch m h w)
  unfold EStateM.tryCatch
  rw [hm s w]
  cases m w with
  | ok a w' => rfl
  | error e w' => exact hh e s w'

/-- A program that starts from a look at the state, but not at its systems. -/
theorem blind_get {f : World C → WorldM C α} (hf : ∀ w, Blind (f w))
    (hs : ∀ s w, f (setSystems s w) = f w) : Blind (get >>= f) := by
  intro s w
  show f (setSystems s w) (setSystems s w) = withSystems s (f w w)
  rw [hs s w]
  exact hf w s w

theorem blind_modify {f : World C → World C}
    (hf : ∀ s w, f (setSystems s w) = setSystems s (f w)) : Blind (modify f : WorldM C Unit) := by
  intro s w
  show EStateM.Result.ok () (f (setSystems s w)) = .ok () (setSystems s (f w))
  rw [hf]

theorem blind_forM (f : α → WorldM C Unit) (hf : ∀ a, Blind (f a)) (l : List α) :
    Blind (forM l f) := by
  induction l with
  | nil => exact blind_pure ()
  | cons a l ih =>
      rw [List.forM_cons]
      exact blind_bind (hf a) fun _ => ih

theorem blind_onIntents (m : EStateM Failure IntentRegistry α) :
    Blind (onIntents m : WorldM C α) := by
  intro s w
  unfold onIntents zoom
  dsimp only [setSystems]
  cases m w.intents <;> rfl

theorem blind_onComponents (m : EStateM Failure (ComponentRegistry C) α) :
    Blind (onComponents m) := by
  intro s w
  unfold onComponents zoom
  dsimp only [setSystems]
  cases m w.components <;> rfl

theorem validatePending_setSystems (s : SystemRegistry) (w : World C) (owner : BehaviorId)
    (cancellations : List IntentId) (pending : List (PendingIntent C)) (names : List Bytes) :
    (setSystems s w).validatePending owner cancellations pending names =
      w.validatePending owner cancellations pending names := by
  induction pending generalizing names with
  | nil => rfl
  | cons p rest ih =>
      unfold validatePending
      simp only [ih]
      rfl

theorem blind_recordComponentMutation (mutation : ComponentMutation) :
    Blind (recordComponentMutation mutation : WorldM C Unit) := by
  unfold recordComponentMutation
  refine blind_get (fun w => ?_) (fun s w => rfl)
  by_cases hfull : w.componentMutations.length ≥ maximumBuffered
  · rw [if_pos hfull]
    exact blind_bind (blind_modify fun _ _ => rfl) fun _ =>
      blind_bind (blind_throw _) fun _ => blind_modify fun _ _ => rfl
  · rw [if_neg hfull]
    exact blind_modify fun _ _ => rfl

theorem blind_commit (pending : PendingIntent C) (owner : BehaviorId) :
    Blind (pending.commit owner) := by
  unfold PendingIntent.commit
  refine blind_get (fun w => ?_) (fun s w => rfl)
  refine blind_bind (blind_lift _) fun slot => ?_
  unfold createIntentTransaction
  exact blind_get (fun w => blind_bind (blind_lift _) fun _ => blind_onIntents _) fun _ _ => rfl

theorem blind_commitBundle (owner : BehaviorId) (cancellations : List IntentId)
    (pending : List (PendingIntent C)) : Blind (commitBundle owner cancellations pending) := by
  unfold commitBundle
  refine blind_get (fun w => ?_) (fun s w => ?_)
  · cases w.validatePending owner cancellations pending [] with
    | error e => exact blind_pure false
    | ok _ =>
        dsimp only
        by_cases hall : (!cancellations.all fun id => w.ownedStill owner id) = true
        · rw [if_pos hall]
          exact blind_pure false
        rw [if_neg hall]
        refine blind_bind (blind_tryCatch (blind_bind (blind_onIntents _) fun _ =>
          blind_bind (blind_modify fun _ _ => rfl) fun _ => blind_pure true)
            fun _ => blind_pure false) fun began => ?_
        by_cases hbegan : (!began) = true
        · rw [if_pos hbegan]
          exact blind_pure false
        rw [if_neg hbegan]
        refine blind_tryCatch ?_ fun _ => blind_bind (blind_modify fun _ _ => rfl) fun _ =>
          blind_pure false
        refine blind_bind (blind_forM _ (fun _ => blind_onIntents _) _) fun _ => ?_
        refine blind_bind (blind_forM _ (fun p => ?_) _) fun _ => ?_
        · exact blind_bind (blind_commit p owner) fun _ => blind_pure ()
        · exact blind_bind (blind_onIntents _) fun _ =>
            blind_bind (blind_modify fun _ _ => rfl) fun _ => blind_pure true
  · simp only [validatePending_setSystems]
    rfl

theorem Call.blind (call : Call C) : Blind call.program := by
  cases call with
  | createIntent owner type slot lifetime value priority name =>
      refine blind_bind ?_ fun _ => blind_pure ()
      unfold World.createIntent
      exact blind_get (fun w => blind_bind (blind_lift _) fun _ => blind_onIntents _) fun _ _ => rfl
  | destroyIntent id => exact blind_onIntents _
  | replaceComponent type behavior name value =>
      show Blind (World.replaceComponent type behavior name value)
      unfold World.replaceComponent
      refine blind_get (fun w => ?_) fun _ _ => rfl
      exact blind_bind (blind_lift _) fun p => blind_bind (blind_onComponents _) fun _ =>
        blind_recordComponentMutation _
  | commitBundle owner cancellations pending =>
      exact blind_bind (blind_commitBundle owner cancellations pending) fun _ => blind_pure ()
  | clearComponentMutations => exact blind_modify fun _ _ => rfl
  | clearTopologyMutations => exact blind_modify fun _ _ => rfl

/-! ## Host code -/

/-- One call, however it ended. -/
def CallStep (w w' : World C) : Prop := ∃ call : Call C, w' = after call.program w

/-- Calls, one after the other. -/
def Hosted : World C → World C → Prop := Relation.ReflTransGen CallStep

theorem Blind.after_setSystems {m : WorldM C α} (h : Blind m) (s : SystemRegistry)
    (w : World C) : after m (setSystems s w) = setSystems s (after m w) := by
  unfold after
  rw [h s w]
  cases m w <;> rfl

theorem Hosted.setSystems {w w' : World C} (h : Hosted w w') (s : SystemRegistry) :
    Hosted (World.setSystems s w) (World.setSystems s w') := by
  induction h with
  | refl => exact .refl
  | tail _ hstep ih =>
      obtain ⟨call, rfl⟩ := hstep
      exact ih.tail ⟨call, (call.blind.after_setSystems s _).symm⟩

theorem Hosted.systems {w w' : World C} (h : Hosted w w') : w'.systems = w.systems := by
  induction h with
  | refl => rfl
  | @tail v _ _ hstep ih =>
      obtain ⟨call, rfl⟩ := hstep
      rw [← ih]
      -- with its own systems put in place again the state is the same
      have hself := call.blind.after_setSystems v.systems v
      rw [setSystems_self] at hself
      rw [hself]
      rfl

/-- Calls were made, and the system registry is now `systems`. -/
def Calm (systems : SystemRegistry) (w w' : World C) : Prop :=
  ∃ v, Hosted w v ∧ w' = setSystems systems v

theorem Calm.refl (w : World C) : Calm w.systems w w := ⟨w, .refl, rfl⟩

theorem Calm.of_hosted {w w' : World C} (h : Hosted w w') : Calm w.systems w w' := by
  rw [← h.systems]
  exact ⟨w', h, rfl⟩

theorem Calm.setSystems {s : SystemRegistry} {w w' : World C} (h : Calm s w w')
    (s' : SystemRegistry) : Calm s' w (World.setSystems s' w') := by
  obtain ⟨v, hv, rfl⟩ := h
  exact ⟨v, hv, rfl⟩

theorem Calm.systems {s : SystemRegistry} {w w' : World C} (h : Calm s w w') :
    w'.systems = s := by
  obtain ⟨v, _, rfl⟩ := h
  rfl

theorem Calm.trans {s s' : SystemRegistry} {w w' w'' : World C} (h : Calm s w w')
    (h' : Calm s' w' w'') : Calm s' w w'' := by
  obtain ⟨v, hv, rfl⟩ := h
  obtain ⟨v', hv', rfl⟩ := h'
  have hback := Hosted.setSystems hv' v.systems
  exact ⟨World.setSystems v.systems v', hv.trans hback, rfl⟩

theorem hosted_calls (calls : List (Call C)) (w : World C) :
    wp (forM calls fun call => tryCatch call.program fun _ => pure ())
      (fun _ w' => Hosted w w') (fun _ _ => False) w := by
  refine wp_forM _ (fun _ w' => Hosted w w') (fun call _ w' hw' => ?_) calls w .refl
  rw [wp_tryCatch]
  have hstep : Hosted w (after call.program w') := hw'.tail ⟨call, rfl⟩
  refine wp_mono (wp_after (P := Hosted w) |>.mpr hstep) (fun _ _ h => h) (fun _ _ h => ?_)
  rw [wp_pure]
  exact h

theorem wp_run (code : HostCode C) (w : World C) :
    wp code.run (fun _ w' => code.throws = none ∧ Hosted w w')
      (fun e w' => code.throws = some e ∧ Hosted w w') w := by
  unfold HostCode.run
  rw [wp_bind]
  refine wp_mono (hosted_calls code.calls w) (fun _ w' h => ?_) (fun _ _ h => h.elim)
  cases code.throws with
  | none => exact wp_pure _ |>.mpr ⟨rfl, h⟩
  | some e => exact wp_throw _ |>.mpr ⟨rfl, h⟩

theorem wp_captured {m : WorldM C Unit} {Q : Option Failure → World C → Prop}
    {E : Failure → World C → Prop} {w : World C}
    (h : wp m (fun _ w' => Q none w') (fun e w' => Q (some e) w') w) :
    wp (captured m) Q E w := by
  unfold captured
  rw [wp_tryCatch, wp_bind]
  refine wp_mono h (fun _ w' h' => ?_) (fun e w' h' => ?_)
  · rw [wp_pure]
    exact h'
  · rw [wp_pure]
    exact h'

theorem wp_rethrow {e? : Option Failure} {Q : Unit → World C → Prop}
    {E : Failure → World C → Prop} {w : World C} (hok : e? = none → Q () w)
    (herr : ∀ e, e? = some e → E e w) : wp (rethrow e?) Q E w := by
  cases e? with
  | none => exact wp_pure _ |>.mpr (hok rfl)
  | some e => exact wp_throw _ |>.mpr (herr e rfl)

/-- The callback's exception is handed out, and only calls were made. -/
theorem wp_captured_run (code : HostCode C) (w : World C) {E : Failure → World C → Prop} :
    wp (captured code.run) (fun first w' => first = code.throws ∧ Hosted w w') E w := by
  refine wp_captured (wp_mono (wp_run code w) (fun _ w' h => ?_) (fun e w' h => ?_))
  · exact ⟨h.1.symm, h.2⟩
  · exact ⟨h.1.symm, h.2⟩

/-! ## Memberships -/

end World

namespace SystemRegistry

/-- The registered types are the keys of the map, each once. -/
structure Ok (s : SystemRegistry) : Prop where
  nodup : s.registrationOrder.Nodup
  mem : ∀ type, type ∈ s.registrationOrder ↔ s.systems.contains type = true

/-- One system's record after it has been told about a behavior; `joins` says for which
    signatures the behavior belongs to it. -/
def enroll (joins : Signature → Bool) (behavior : BehaviorId) (record : SystemRecord) :
    SystemRecord :=
  { record with
    behaviours := if joins record.signature then record.behaviours.insert behavior ()
      else record.behaviours.erase behavior }

/-- Every system in registration order. -/
def enrolled (s : SystemRegistry) (joins : Signature → Bool) (behavior : BehaviorId) :
    SystemRegistry :=
  { s with
    systems := s.registrationOrder.foldl
      (fun systems type => systems.modify type (enroll joins behavior)) s.systems }

theorem find?_foldl_modify {K V : Type} [LinearOrder K] (f : V → V) (l : List K)
    (hl : l.Nodup) (m : OrdMap K V) (k : K) :
    (l.foldl (fun m k => m.modify k f) m).find? k =
      if k ∈ l then (m.find? k).map f else m.find? k := by
  induction l generalizing m with
  | nil => simp
  | cons a l ih =>
      obtain ⟨ha, hl⟩ := List.nodup_cons.mp hl
      rw [List.foldl_cons, ih hl, OrdMap.find?_modify]
      by_cases hk : k = a
      · subst hk
        simp [ha]
      · simp [hk]

theorem Ok.find?_enrolled {s : SystemRegistry} (h : s.Ok) (joins : Signature → Bool)
    (behavior : BehaviorId) (type : Nat) :
    (s.enrolled joins behavior).systems.find? type =
      (s.systems.find? type).map (enroll joins behavior) := by
  unfold enrolled
  dsimp only
  rw [find?_foldl_modify _ _ h.nodup]
  split
  · rfl
  · next hm =>
      rw [h.mem, OrdMap.contains, Bool.not_eq_true, Option.isSome_eq_false_iff,
        Option.isNone_iff_eq_none] at hm
      rw [hm]
      rfl

end SystemRegistry

namespace World

variable {C : Type}

/-- What the system's callback throws when it is told. -/
def notice (callbacks : Callbacks C) (joins : Signature → Bool) (behavior : BehaviorId)
    (record : SystemRecord) (type : Nat) : Option Failure :=
  if joins record.signature then
    if record.behaviours.contains behavior then none else (callbacks.added type behavior).throws
  else
    if record.behaviours.contains behavior then (callbacks.removed type behavior).throws else none

/-- The first exception of the callbacks that are called when the systems are told about a
    behavior. -/
def firstNotice (callbacks : Callbacks C) (joins : Signature → Bool) (behavior : BehaviorId)
    (s : SystemRegistry) : Option Failure :=
  s.registrationOrder.findSome? fun type =>
    (s.systems.find? type).bind fun record => notice callbacks joins behavior record type

/-- Telling one system: the record is enrolled, and the callback's exception handed out. -/
def Tells (callbacks : Callbacks C) (joins : Signature → Bool) (behavior : BehaviorId)
    (step : Nat → WorldM C (Option Failure)) : Prop :=
  ∀ (w : World C) (type : Nat) (record : SystemRecord),
    w.systems.systems.find? type = some record →
    wp (step type)
      (fun first w' => first = notice callbacks joins behavior record type ∧
        Calm { w.systems with
          systems := w.systems.systems.modify type (SystemRegistry.enroll joins behavior) } w w')
      (fun _ _ => False) w

theorem wp_systemAt {type : Nat} {record : SystemRecord} {w : World C}
    {Q : SystemRecord → World C → Prop} {E : Failure → World C → Prop}
    (h : w.systems.systems.find? type = some record) (hQ : Q record w) :
    wp (systemAt type) Q E w := by
  unfold systemAt
  rw [wp_bind, wp_get, h]
  exact wp_pure _ |>.mpr hQ

theorem modify_of_find? {K V : Type} [LinearOrder K] {m : OrdMap K V} {k : K} {v : V}
    (h : m.find? k = some v) (f : V → V) : m.modify k f = m.insert k (f v) := by
  unfold OrdMap.modify
  rw [h]

theorem insert_contained {K : Type} [LinearOrder K] {m : OrdMap K Unit} {k : K}
    (h : m.contains k = true) : m.insert k () = m := by
  obtain ⟨u, hu⟩ := Option.isSome_iff_exists.mp h
  exact OrdMap.insert_of_find? hu

theorem erase_absent {K V : Type} [LinearOrder K] {m : OrdMap K V} {k : K}
    (h : m.contains k = false) : m.erase k = m := by
  rw [OrdMap.contains, Option.isSome_eq_false_iff, Option.isNone_iff_eq_none] at h
  exact OrdMap.erase_of_find? h

/-- Changing a record and then running its callback. -/
theorem wp_setSystem_run {type : Nat} {record record' : SystemRecord} {w : World C}
    {f : SystemRecord → SystemRecord} (h : w.systems.systems.find? type = some record)
    (hf : f record = record') (code : HostCode C) :
    wp (do setSystem type record'; captured code.run)
      (fun first w' => first = code.throws ∧
        Calm { w.systems with systems := w.systems.systems.modify type f } w w')
      (fun _ _ => False) w := by
  rw [wp_bind]
  unfold setSystem
  rw [wp_modify]
  refine wp_mono (wp_captured_run code _) (fun first w' hw => ⟨hw.1, ?_⟩) (fun _ _ h => h)
  have hstart := (Calm.refl w).setSystems
    { w.systems with systems := w.systems.systems.modify type f }
  rw [modify_of_find? h, hf] at hstart ⊢
  exact hstart.trans (Calm.of_hosted hw.2)

theorem tells_updateMembership (callbacks : Callbacks C) (behavior : BehaviorId)
    (signature : Signature) :
    Tells callbacks signature.covers behavior
      (updateMembership callbacks behavior signature) := by
  intro w type record hfind
  unfold updateMembership
  rw [wp_bind]
  refine wp_systemAt hfind ?_
  have hstay : ∀ {b}, SystemRegistry.enroll signature.covers behavior record = b → b = record →
      Calm { w.systems with
        systems := w.systems.systems.modify type
          (SystemRegistry.enroll signature.covers behavior) } w w := by
    intro b hb hrec
    rw [modify_of_find? hfind, hb, hrec, OrdMap.insert_of_find? hfind]
    exact Calm.refl w
  by_cases hjoin : signature.covers record.signature = true
  · rw [if_pos hjoin]
    by_cases hin : record.behaviours.contains behavior = true
    · rw [if_pos hin, wp_pure]
      refine ⟨?_, hstay rfl ?_⟩
      · unfold notice
        rw [if_pos hjoin, if_pos hin]
      · unfold SystemRegistry.enroll
        rw [if_pos hjoin, insert_contained hin]
    · rw [if_neg hin]
      refine wp_mono (wp_setSystem_run hfind (f := SystemRegistry.enroll signature.covers behavior)
        ?_ _) (fun first w' h => ⟨?_, h.2⟩) (fun _ _ h => h)
      · unfold SystemRegistry.enroll
        rw [if_pos hjoin]
      · unfold notice
        rw [if_pos hjoin, if_neg hin]
        exact h.1
  · rw [if_neg hjoin]
    by_cases hin : record.behaviours.contains behavior = true
    · rw [if_pos hin]
      refine wp_mono (wp_setSystem_run hfind (f := SystemRegistry.enroll signature.covers behavior)
        ?_ _) (fun first w' h => ⟨?_, h.2⟩) (fun _ _ h => h)
      · unfold SystemRegistry.enroll
        rw [if_neg hjoin]
      · unfold notice
        rw [if_neg hjoin, if_pos hin]
        exact h.1
    · rw [if_neg hin, wp_pure]
      refine ⟨?_, hstay rfl ?_⟩
      · unfold notice
        rw [if_neg hjoin, if_neg hin]
      · unfold SystemRegistry.enroll
        rw [if_neg hjoin, erase_absent (Bool.not_eq_true _ |>.mp hin)]

theorem tells_removeMembership (callbacks : Callbacks C) (behavior : BehaviorId) :
    Tells callbacks (fun _ => false) behavior (removeMembership callbacks behavior) := by
  intro w type record hfind
  unfold removeMembership
  rw [wp_bind]
  refine wp_systemAt hfind ?_
  by_cases hin : record.behaviours.contains behavior = true
  · rw [if_pos hin]
    refine wp_mono (wp_setSystem_run hfind
      (f := SystemRegistry.enroll (fun _ => false) behavior) rfl _)
      (fun first w' h => ⟨?_, h.2⟩) (fun _ _ h => h)
    unfold notice
    rw [if_neg Bool.false_ne_true, if_pos hin]
    exact h.1
  · rw [if_neg hin, wp_pure]
    refine ⟨?_, ?_⟩
    · unfold notice
      rw [if_neg Bool.false_ne_true, if_neg hin]
    · have hsame : SystemRegistry.enroll (fun _ => false) behavior record = record := by
        unfold SystemRegistry.enroll
        rw [if_neg Bool.false_ne_true, erase_absent (Bool.not_eq_true _ |>.mp hin)]
      rw [modify_of_find? hfind, hsame, OrdMap.insert_of_find? hfind]
      exact Calm.refl w

theorem findSome?_congr {α β : Type} {l : List α} {f g : α → Option β}
    (h : ∀ a ∈ l, f a = g a) : l.findSome? f = l.findSome? g := by
  induction l with
  | nil => rfl
  | cons a l ih =>
      rw [List.findSome?_cons, List.findSome?_cons, h a List.mem_cons_self,
        ih fun b hb => h b (List.mem_cons_of_mem _ hb)]

/-- Telling the systems of a list, one after the other. -/
theorem Tells.runAll {callbacks : Callbacks C} {joins : Signature → Bool}
    {behavior : BehaviorId} {step : Nat → WorldM C (Option Failure)}
    (h : Tells callbacks joins behavior step) (l : List Nat) (hl : l.Nodup) (w : World C)
    (hin : ∀ type ∈ l, w.systems.systems.contains type = true) :
    wp (runAll step l)
      (fun first w' =>
        first = (l.findSome? fun type => (w.systems.systems.find? type).bind fun record =>
          notice callbacks joins behavior record type) ∧
        Calm { w.systems with
          systems := l.foldl (fun systems type =>
            systems.modify type (SystemRegistry.enroll joins behavior)) w.systems.systems } w w')
      (fun _ _ => False) w := by
  induction l generalizing w with
  | nil => exact wp_pure _ |>.mpr ⟨rfl, Calm.refl w⟩
  | cons a l ih =>
      obtain ⟨ha, hl⟩ := List.nodup_cons.mp hl
      obtain ⟨record, hrec⟩ := Option.isSome_iff_exists.mp (hin a List.mem_cons_self)
      unfold World.runAll
      rw [wp_bind]
      refine wp_mono (h w a record hrec) (fun first w₁ h₁ => ?_) (fun _ _ h => h)
      have hsys := h₁.2.systems
      -- the other systems' records are as they were
      have hothers : ∀ type ∈ l, w₁.systems.systems.find? type = w.systems.systems.find? type := by
        intro type ht
        rw [hsys]
        dsimp only
        rw [OrdMap.find?_modify, if_neg]
        rintro rfl
        exact ha ht
      rw [wp_bind]
      refine wp_mono (ih hl w₁ fun type ht => ?_) (fun later w₂ h₂ => ?_) (fun _ _ h => h)
      · rw [OrdMap.contains, hothers type ht]
        exact hin type (List.mem_cons_of_mem _ ht)
      · rw [wp_pure]
        constructor
        · rw [h₁.1, h₂.1, List.findSome?_cons, hrec, Option.bind_some]
          have hrest : (l.findSome? fun type => (w₁.systems.systems.find? type).bind fun record =>
              notice callbacks joins behavior record type) =
              l.findSome? fun type => (w.systems.systems.find? type).bind fun record =>
              notice callbacks joins behavior record type :=
            findSome?_congr fun type ht => by rw [hothers type ht]
          rw [hrest]
          cases notice callbacks joins behavior record a <;> rfl
        · have htrans := h₁.2.trans h₂.2
          rw [hsys] at htrans
          exact htrans

/-- Telling all systems, under the dispatch guard. -/
theorem Tells.dispatching {callbacks : Callbacks C} {joins : Signature → Bool}
    {behavior : BehaviorId} {step : Nat → WorldM C (Option Failure)}
    (h : Tells callbacks joins behavior step) {w : World C} (hsys : w.systems.Ok)
    (hdepth : w.systems.dispatchDepth = 0) :
    wp (World.dispatching (World.runAll step w.systems.registrationOrder))
      (fun _ w' => firstNotice callbacks joins behavior w.systems = none ∧
        Calm (w.systems.enrolled joins behavior) w w')
      (fun e w' => firstNotice callbacks joins behavior w.systems = some e ∧
        Calm (w.systems.enrolled joins behavior) w w') w := by
  unfold World.dispatching
  rw [wp_bind, wp_get, if_neg (by rw [hdepth]; decide), wp_bind]
  unfold setDispatchDepth
  rw [wp_modify, wp_bind, wp_tryCatch]
  refine wp_mono (h.runAll w.systems.registrationOrder hsys.nodup _ fun type ht =>
    (hsys.mem type).mp ht) (fun first w' hw => ?_) (fun _ _ h => h.elim)
  rw [wp_bind, wp_modify]
  -- the guard is released with the memberships in place
  have hcalm : Calm (w.systems.enrolled joins behavior) w
      { w' with systems := { w'.systems with dispatchDepth := w'.systems.dispatchDepth - 1 } } := by
    have hstart := (Calm.refl w).setSystems
      { w.systems with dispatchDepth := w.systems.dispatchDepth + 1 }
    have hend := (hstart.trans hw.2).setSystems
      { w'.systems with dispatchDepth := w'.systems.dispatchDepth - 1 }
    rw [hw.2.systems] at hend ⊢
    exact hend
  refine wp_rethrow (fun hnone => ⟨?_, hcalm⟩) (fun e he => ⟨?_, hcalm⟩)
  · exact hw.1.symm.trans hnone
  · exact hw.1.symm.trans he

theorem wp_updateBehavior (callbacks : Callbacks C) (behavior : BehaviorId)
    (signature : Signature) {w : World C} (hsys : w.systems.Ok)
    (hdepth : w.systems.dispatchDepth = 0) :
    wp (updateBehavior callbacks behavior signature)
      (fun _ w' => firstNotice callbacks signature.covers behavior w.systems = none ∧
        Calm (w.systems.enrolled signature.covers behavior) w w')
      (fun e w' => firstNotice callbacks signature.covers behavior w.systems = some e ∧
        Calm (w.systems.enrolled signature.covers behavior) w w') w := by
  unfold updateBehavior
  rw [wp_bind, wp_get]
  exact (tells_updateMembership callbacks behavior signature).dispatching hsys hdepth

theorem wp_removeFromSystems (callbacks : Callbacks C) (behavior : BehaviorId) {w : World C}
    (hsys : w.systems.Ok) (hdepth : w.systems.dispatchDepth = 0) :
    wp (removeFromSystems callbacks behavior)
      (fun _ w' => firstNotice callbacks (fun _ => false) behavior w.systems = none ∧
        Calm (w.systems.enrolled (fun _ => false) behavior) w w')
      (fun e w' => firstNotice callbacks (fun _ => false) behavior w.systems = some e ∧
        Calm (w.systems.enrolled (fun _ => false) behavior) w w') w := by
  unfold removeFromSystems
  rw [wp_bind, wp_get]
  exact (tells_removeMembership callbacks behavior).dispatching hsys hdepth

theorem wp_updateSystemMemberships (callbacks : Callbacks C) (behavior : BehaviorId)
    {w : World C} (hsys : w.systems.Ok) (hdepth : w.systems.dispatchDepth = 0) :
    wp (updateSystemMemberships callbacks behavior)
      (fun _ w' =>
        firstNotice callbacks (w.behaviorSignature behavior).covers behavior w.systems = none ∧
        Calm (w.systems.enrolled (w.behaviorSignature behavior).covers behavior) w w')
      (fun e w' =>
        firstNotice callbacks (w.behaviorSignature behavior).covers behavior w.systems = some e ∧
        Calm (w.systems.enrolled (w.behaviorSignature behavior).covers behavior) w w') w := by
  unfold updateSystemMemberships
  rw [wp_bind, wp_get]
  exact wp_updateBehavior callbacks behavior _ hsys hdepth

end World

end LiquidLayer
