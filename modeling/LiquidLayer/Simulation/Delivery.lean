/-
  Which deliveries of the simulated adapter are complete.

  A delivery loop offers the due entries one after another, in queue order or in reverse, until
  a sender is full (`deliverLoop_offer`). `deliver_through` runs such a loop over the reports and
  then, unless the first loop returned, one over the observations. The first loop returns as soon
  as it meets a report due later, so that report keeps every observation waiting
  (`complete_iff`).
-/
import LiquidLayer.Simulation.InMemoryAdapter

namespace LiquidLayer

namespace Simulation

variable {π φ σ : Type}

/-! ## Offering -/

/-- The order in which a loop takes the due entries. -/
def inOrder (reverseDelivery : Bool) (l : List (UInt64 × π)) : List (UInt64 × π) :=
  if reverseDelivery then l.reverse else l

theorem inOrder_inOrder (reverse : Bool) (l : List (UInt64 × π)) :
    inOrder reverse (inOrder reverse l) = l := by
  cases reverse
  · rfl
  · exact List.reverse_reverse l

theorem inOrder_perm (reverse : Bool) (l : List (UInt64 × π)) : (inOrder reverse l).Perm l := by
  cases reverse
  · exact List.Perm.refl l
  · exact List.reverse_perm l

@[simp] theorem mem_inOrder {reverse : Bool} {l : List (UInt64 × π)} {e : UInt64 × π} :
    e ∈ inOrder reverse l ↔ e ∈ l :=
  (inOrder_perm reverse l).mem_iff

/-- Entries offered one after another until a sender is full. -/
structure Offered (π σ : Type) where
  sendings : List (Sending π)
  left : List (UInt64 × π)
  channels : σ

def offer (send : π → σ → FeedbackSendResult × σ) : List (UInt64 × π) → σ → Offered π σ
  | [], channels => ⟨[], [], channels⟩
  | e :: rest, channels =>
      let answer := send e.2 channels
      if answer.1 = .full then ⟨[⟨e.1, e.2, answer.1⟩], e :: rest, answer.2⟩
      else
        let offered := offer send rest answer.2
        ⟨⟨e.1, e.2, answer.1⟩ :: offered.sendings, offered.left, offered.channels⟩

/-- Some sender is full when the entries are offered. -/
def Refuses (send : π → σ → FeedbackSendResult × σ) : List (UInt64 × π) → σ → Prop
  | [], _ => False
  | e :: rest, channels =>
      (send e.2 channels).1 = .full ∨ Refuses send rest (send e.2 channels).2

/-- The entries the senders took: those answered `Sent` or `Closed`. -/
def taken (sendings : List (Sending π)) : List (UInt64 × π) :=
  (sendings.filter fun sending => decide (sending.answer ≠ .full)).map
    fun sending => (sending.due, sending.entry)

theorem taken_cons {sending : Sending π} (h : sending.answer ≠ .full)
    (sendings : List (Sending π)) :
    taken (sending :: sendings) = (sending.due, sending.entry) :: taken sendings := by
  simp [taken, h]

theorem taken_full {sending : Sending π} (h : sending.answer = .full) : taken [sending] = [] := by
  simp [taken, h]

def sentCount (sendings : List (Sending π)) : Nat :=
  (sendings.filter fun sending => decide (sending.answer = .sent)).length

section Offer

variable {send : π → σ → FeedbackSendResult × σ}

theorem offer_full {e : UInt64 × π} {rest : List (UInt64 × π)} {channels : σ}
    (h : (send e.2 channels).1 = .full) :
    offer send (e :: rest) channels =
      ⟨[⟨e.1, e.2, (send e.2 channels).1⟩], e :: rest, (send e.2 channels).2⟩ := by
  simp only [offer, if_pos h]

theorem offer_cons {e : UInt64 × π} {rest : List (UInt64 × π)} {channels : σ}
    (h : (send e.2 channels).1 ≠ .full) :
    offer send (e :: rest) channels =
      ⟨⟨e.1, e.2, (send e.2 channels).1⟩ :: (offer send rest (send e.2 channels).2).sendings,
        (offer send rest (send e.2 channels).2).left,
        (offer send rest (send e.2 channels).2).channels⟩ := by
  simp only [offer, if_neg h]

/-- What was taken and what is left make up what was offered. -/
theorem taken_offer (l : List (UInt64 × π)) (channels : σ) :
    taken (offer send l channels).sendings ++ (offer send l channels).left = l := by
  induction l generalizing channels with
  | nil => rfl
  | cons e rest ih =>
      by_cases hfull : (send e.2 channels).1 = .full
      · rw [offer_full hfull, taken_full hfull]
        rfl
      · rw [offer_cons hfull, taken_cons hfull, List.cons_append, ih]

theorem sendings_offer {l : List (UInt64 × π)} {channels : σ} {sending : Sending π}
    (h : sending ∈ (offer send l channels).sendings) : (sending.due, sending.entry) ∈ l := by
  induction l generalizing channels with
  | nil => cases h
  | cons e rest ih =>
      by_cases hfull : (send e.2 channels).1 = .full
      · rw [offer_full hfull] at h
        rw [List.mem_singleton.mp h]
        exact List.mem_cons_self
      · rw [offer_cons hfull] at h
        rcases List.mem_cons.mp h with rfl | h
        · exact List.mem_cons_self
        · exact List.mem_cons_of_mem _ (ih h)

theorem left_offer (l : List (UInt64 × π)) (channels : σ) :
    (offer send l channels).left ≠ [] ↔ Refuses send l channels := by
  induction l generalizing channels with
  | nil => simp [offer, Refuses]
  | cons e rest ih =>
      by_cases hfull : (send e.2 channels).1 = .full
      · rw [offer_full hfull]
        simp [Refuses, hfull]
      · rw [offer_cons hfull]
        simp [Refuses, hfull, ← ih]

theorem refuses_offer (l : List (UInt64 × π)) (channels : σ) :
    (∃ sending ∈ (offer send l channels).sendings, sending.answer = .full) ↔
      Refuses send l channels := by
  induction l generalizing channels with
  | nil => simp [offer, Refuses]
  | cons e rest ih =>
      by_cases hfull : (send e.2 channels).1 = .full
      · rw [offer_full hfull]
        simp [Refuses, hfull]
      · rw [offer_cons hfull]
        simp [Refuses, hfull, ← ih]

end Offer

/-! ## One loop -/

section Loop

variable {send : π → σ → FeedbackSendResult × σ} {reverse : Bool} {now : UInt64}
variable {l later : List (UInt64 × π)}

/-- The queue holds `l`, in the order the loop takes it, before `later`. -/
structure Queued (reverse : Bool) (now : UInt64) (queue : MultiMap UInt64 π)
    (l later : List (UInt64 × π)) : Prop where
  entries : queue.entries = inOrder reverse l ++ later
  due : ∀ e ∈ l, e.1 ≤ now
  notDue : ∀ e ∈ later, now < e.1

theorem Queued.split (reverse : Bool) (now : UInt64) (queue : MultiMap UInt64 π) :
    Queued reverse now queue (inOrder reverse (queue.through now)) (queue.later now) where
  entries := by rw [inOrder_inOrder, ← queue.entries_eq]
  due := fun _ he => MultiMap.le_of_mem_through (mem_inOrder.mp he)
  notDue := fun _ he => MultiMap.lt_of_mem_later he

theorem Queued.upperBound {queue : MultiMap UInt64 π} (h : Queued reverse now queue l later) :
    queue.upperBound now = l.length := by
  rw [MultiMap.upperBound_eq h.entries (fun e he => h.due e (mem_inOrder.mp he)) h.notDue]
  exact (inOrder_perm reverse l).length_eq

theorem Queued.found_nil {queue : MultiMap UInt64 π} (h : Queued reverse now queue [] later) :
    found reverse now queue = none := by
  cases reverse with
  | true =>
      have hbound : queue.upperBound now = 0 := h.upperBound
      simp only [found, if_true, hbound]
  | false =>
      have hentries : queue.entries = later := h.entries
      simp only [found, Bool.false_eq_true, if_false, hentries]
      cases later with
      | nil => rfl
      | cons first rest => exact if_pos (h.notDue first List.mem_cons_self)

/-- The turn picks the first entry of `l`, and erasing it leaves the rest. -/
theorem Queued.found_cons {queue : MultiMap UInt64 π} {e : UInt64 × π}
    (h : Queued reverse now queue (e :: l) later) :
    ∃ position, found reverse now queue = some position ∧ queue.entries[position]? = some e ∧
      Queued reverse now (queue.eraseAt position) l later := by
  have hdue : ∀ e' ∈ l, e'.1 ≤ now := fun e' he' => h.due e' (List.mem_cons_of_mem _ he')
  cases reverse with
  | true =>
      have hbound : queue.upperBound now = l.length + 1 := h.upperBound
      have hentries : queue.entries = l.reverse ++ e :: later := by
        rw [h.entries]
        simp [inOrder]
      refine ⟨l.length, by simp only [found, if_true, hbound], ?_, ?_, hdue, h.notDue⟩
      · rw [hentries, ← List.length_reverse, List.getElem?_append_right le_rfl, Nat.sub_self]
        rfl
      · show queue.entries.eraseIdx l.length = l.reverse ++ later
        rw [hentries, ← List.length_reverse, List.eraseIdx_append_of_length_le le_rfl,
          Nat.sub_self]
        rfl
  | false =>
      have hentries : queue.entries = e :: (l ++ later) := h.entries
      have hle : ¬e.1 > now := not_lt.mpr (h.due e List.mem_cons_self)
      refine ⟨0, ?_, ?_, ?_, hdue, h.notDue⟩
      · simp only [found, Bool.false_eq_true, if_false, hentries, if_neg hle]
      · rw [hentries]
        rfl
      · show queue.entries.eraseIdx 0 = l ++ later
        rw [hentries]
        rfl

/-- What a loop has done to `d` when it ends. -/
structure Performed (reverse : Bool) (later : List (UInt64 × π)) (o : Offered π σ)
    (d d' : Delivery π σ) : Prop where
  queue : d'.queue.entries = inOrder reverse o.left ++ later
  channels : d'.channels = o.channels
  delivered : d'.delivered = d.delivered + sentCount o.sendings
  sendings : d'.sendings = d.sendings ++ o.sendings
  returned : d'.returned = true ↔ o.left ≠ [] ∨ later ≠ []

theorem deliverLoop_offer {turns : Nat} {d : Delivery π σ} (hrunning : d.returned = false)
    (hqueued : Queued reverse now d.queue l later) (hturns : d.queue.size ≤ turns) :
    Performed reverse later (offer send l d.channels) d
      (deliverLoop send reverse now turns d) := by
  induction turns generalizing d l with
  | zero =>
      have hempty : d.queue.entries = [] := List.length_eq_zero_iff.mp (Nat.le_zero.mp hturns)
      have happend : inOrder reverse l = [] ∧ later = [] := by
        rw [hqueued.entries] at hempty
        exact List.append_eq_nil_iff.mp hempty
      have hl : l = [] := by
        rw [← inOrder_inOrder reverse l, happend.1]
        cases reverse <;> rfl
      subst hl
      exact ⟨hqueued.entries, rfl, rfl, (List.append_nil _).symm, by
        simp [deliverLoop, offer, hrunning, happend.2]⟩
  | succ turns ih =>
      cases l with
      | nil =>
          rw [deliverLoop]
          by_cases hempty : d.queue.entries.isEmpty
          · have hlater : later = [] := by
              have hnil : d.queue.entries = [] := List.isEmpty_iff.mp hempty
              rw [hqueued.entries] at hnil
              exact (List.append_eq_nil_iff.mp hnil).2
            rw [if_pos hempty]
            exact ⟨hqueued.entries, rfl, rfl, (List.append_nil _).symm, by
              simp [offer, hrunning, hlater]⟩
          · have hlater : later ≠ [] := by
              rintro rfl
              apply hempty
              rw [hqueued.entries]
              cases reverse <;> rfl
            rw [if_neg hempty, hqueued.found_nil]
            exact ⟨hqueued.entries, rfl, rfl, (List.append_nil _).symm, by
              simp [hlater]⟩
      | cons e l =>
          obtain ⟨position, hfound, hget, hnext⟩ := hqueued.found_cons
          have hempty : ¬d.queue.entries.isEmpty := by
            intro hempty
            rw [List.isEmpty_iff.mp hempty] at hget
            cases hget
          have hsize : (d.queue.eraseAt position).size ≤ turns := by
            have hlt := (List.getElem?_eq_some_iff.mp hget).1
            have hlength := List.length_eraseIdx_of_lt hlt
            simp only [MultiMap.size, MultiMap.eraseAt] at hturns ⊢
            omega
          rw [deliverLoop, if_neg hempty, hfound]
          simp only [hget]
          cases hanswer : (send e.2 d.channels).1 with
          | full =>
              rw [offer_full hanswer]
              exact ⟨hqueued.entries, rfl, by simp [sentCount, hanswer], by simp [hanswer],
                by simp⟩
          | sent =>
              have hne : (send e.2 d.channels).1 ≠ .full := by simp [hanswer]
              have hrest := @ih l
                { d with
                  queue := d.queue.eraseAt position
                  channels := (send e.2 d.channels).2
                  delivered := d.delivered + 1
                  sendings := d.sendings ++ [⟨e.1, e.2, .sent⟩] } hrunning hnext hsize
              rw [offer_cons hne]
              refine ⟨hrest.queue, hrest.channels, ?_, ?_, hrest.returned⟩
              · rw [hrest.delivered]
                simp [sentCount, hanswer]
                omega
              · rw [hrest.sendings]
                simp [hanswer]
          | closed =>
              have hne : (send e.2 d.channels).1 ≠ .full := by simp [hanswer]
              have hrest := @ih l
                { d with
                  queue := d.queue.eraseAt position
                  channels := (send e.2 d.channels).2
                  sendings := d.sendings ++ [⟨e.1, e.2, .closed⟩] } hrunning hnext hsize
              rw [offer_cons hne]
              refine ⟨hrest.queue, hrest.channels, ?_, ?_, hrest.returned⟩
              · rw [hrest.delivered]
                simp [sentCount, hanswer]
              · rw [hrest.sendings]
                simp [hanswer]

end Loop

/-! ## A whole delivery -/

/-- What `deliver_through` promises: unless a sender was full nothing due is left, nothing is sent
    early, what has left a queue was taken by its sender, and the result counts what was sent. -/
structure Complete (trySend : TrySend φ σ) (now : UInt64)
    (s s' : Simulator φ σ) (d : Delivered φ) : Prop where
  drained : (∃ sending ∈ d.reports, sending.answer = .full) ∨
    (∃ sending ∈ d.observations, sending.answer = .full) ∨
    (∀ e ∈ s'.pendingReports.entries, now < e.1) ∧
      ∀ e ∈ s'.pendingObservations.entries, now < e.1
  reportsDue : ∀ sending ∈ d.reports, sending.due ≤ now
  observationsDue : ∀ sending ∈ d.observations, sending.due ≤ now
  reports : s.pendingReports.entries.Perm (taken d.reports ++ s'.pendingReports.entries)
  observations :
    s.pendingObservations.entries.Perm (taken d.observations ++ s'.pendingObservations.entries)
  delivered : d.delivered = sentCount d.reports + sentCount d.observations

/-- The due reports meet a full sender before the last of them is taken. -/
def ReportsRefused (trySend : TrySend φ σ) (now : UInt64)
    (s : Simulator φ σ) : Prop :=
  Refuses (sendPendingReport trySend)
    (inOrder s.adapterBehavior.reverseDelivery (s.pendingReports.through now)) s.channels

section Whole

variable {trySend : TrySend φ σ} {now : UInt64}

/-- The queue of a loop is what the senders took and what is left. -/
theorem Performed.perm {send : π → σ → FeedbackSendResult × σ} {reverse : Bool}
    {queue : MultiMap UInt64 π} {l later : List (UInt64 × π)} {channels : σ} {d d' : Delivery π σ}
    (h : Performed reverse later (offer send l channels) d d')
    (hqueued : Queued reverse now queue l later) :
    queue.entries.Perm (taken (offer send l channels).sendings ++ d'.queue.entries) := by
  have hsplit : l ++ later =
      taken (offer send l channels).sendings ++ ((offer send l channels).left ++ later) := by
    rw [← List.append_assoc, taken_offer]
  have hleft := inOrder_perm reverse (offer send l channels).left
  rw [hqueued.entries, h.queue]
  refine ((inOrder_perm reverse l).append_right later).trans ?_
  rw [hsplit]
  exact (hleft.symm.append_right later).append_left _

/-- If nothing was refused, only what was not due is left. -/
theorem Performed.drained {send : π → σ → FeedbackSendResult × σ} {reverse : Bool}
    {queue : MultiMap UInt64 π} {l later : List (UInt64 × π)} {channels : σ} {d d' : Delivery π σ}
    (h : Performed reverse later (offer send l channels) d d')
    (hqueued : Queued reverse now queue l later) (htaken : ¬Refuses send l channels) :
    ∀ e ∈ d'.queue.entries, now < e.1 := by
  have hleft : (offer send l channels).left = [] := not_not.mp (mt (left_offer l channels).mp htaken)
  intro e he
  rw [h.queue, hleft] at he
  rcases List.mem_append.mp he with he | he
  · exact nomatch mem_inOrder.mp he
  · exact hqueued.notDue e he

/-- What was sent was due. -/
theorem Performed.sendings_due {send : π → σ → FeedbackSendResult × σ} {reverse : Bool}
    {queue : MultiMap UInt64 π} {l later : List (UInt64 × π)} {channels : σ} {d d' : Delivery π σ}
    (h : Performed reverse later (offer send l channels) d d') (hempty : d.sendings = [])
    (hqueued : Queued reverse now queue l later) :
    ∀ sending ∈ d'.sendings, sending.due ≤ now := by
  intro sending hsending
  rw [h.sendings, hempty, List.nil_append] at hsending
  exact hqueued.due _ (sendings_offer hsending)

theorem later_eq_nil {queue : MultiMap UInt64 π} :
    queue.later now = [] ↔ ∀ e ∈ queue.entries, e.1 ≤ now := by
  constructor
  · intro h e he
    rw [queue.entries_eq now, h, List.append_nil] at he
    exact MultiMap.le_of_mem_through he
  · intro h
    refine List.eq_nil_iff_forall_not_mem.mpr fun e he => ?_
    have hmem : e ∈ queue.entries := by
      rw [queue.entries_eq now]
      exact List.mem_append_right _ he
    exact absurd (MultiMap.lt_of_mem_later he) (not_lt.mpr (h e hmem))

/-- The first loop of a delivery. -/
def reportsLoop (trySend : TrySend φ σ) (now : UInt64)
    (s : Simulator φ σ) : Delivery (PendingReport φ) σ :=
  deliverLoop (sendPendingReport trySend) s.adapterBehavior.reverseDelivery now
    s.pendingReports.size ⟨s.pendingReports, s.channels, 0, [], false⟩

/-- The second loop, on what the first one leaves. -/
def observationsLoop (trySend : TrySend φ σ) (now : UInt64)
    (s : Simulator φ σ) : Delivery (PendingObservation φ) σ :=
  let reports := reportsLoop trySend now s
  deliverLoop (sendPendingObservation trySend) s.adapterBehavior.reverseDelivery now
    s.pendingObservations.size
    ⟨s.pendingObservations, reports.channels, reports.delivered, [], false⟩

theorem deliverThrough_returned {s : Simulator φ σ}
    (h : (reportsLoop trySend now s).returned = true) :
    deliverThrough trySend now s =
      (⟨(reportsLoop trySend now s).delivered, (reportsLoop trySend now s).sendings, []⟩,
        { s with
          pendingReports := (reportsLoop trySend now s).queue
          channels := (reportsLoop trySend now s).channels }) := by
  unfold reportsLoop at h ⊢
  simp only [deliverThrough, h, if_true]

theorem deliverThrough_continued {s : Simulator φ σ}
    (h : ¬(reportsLoop trySend now s).returned = true) :
    deliverThrough trySend now s =
      (⟨(observationsLoop trySend now s).delivered, (reportsLoop trySend now s).sendings,
          (observationsLoop trySend now s).sendings⟩,
        { s with
          pendingReports := (reportsLoop trySend now s).queue
          pendingObservations := (observationsLoop trySend now s).queue
          channels := (observationsLoop trySend now s).channels }) := by
  unfold observationsLoop reportsLoop at *
  simp only [deliverThrough, if_neg h]

/-- `deliver_through` is complete exactly when the due reports meet a full sender, or every report
    was due, or no observation was. -/
theorem complete_iff (trySend : TrySend φ σ) (now : UInt64)
    (s : Simulator φ σ) :
    Complete trySend now s (deliverThrough trySend now s).2 (deliverThrough trySend now s).1 ↔
      ReportsRefused trySend now s ∨ (∀ e ∈ s.pendingReports.entries, e.1 ≤ now) ∨
        ∀ e ∈ s.pendingObservations.entries, now < e.1 := by
  have hqueued := Queued.split s.adapterBehavior.reverseDelivery now s.pendingReports
  have hreports : Performed s.adapterBehavior.reverseDelivery (s.pendingReports.later now) _ _
      (reportsLoop trySend now s) :=
    @deliverLoop_offer _ _ (sendPendingReport trySend) _ _ _ _ s.pendingReports.size
      ⟨s.pendingReports, s.channels, 0, [], false⟩ rfl hqueued le_rfl
  have hreportsDue := hreports.sendings_due rfl hqueued
  have hdelivered : (reportsLoop trySend now s).delivered =
      sentCount (reportsLoop trySend now s).sendings := by
    rw [hreports.delivered, hreports.sendings]
    simp
  have hfull : (∃ sending ∈ (reportsLoop trySend now s).sendings, sending.answer = .full) ↔
      ReportsRefused trySend now s := by
    rw [hreports.sendings]
    exact refuses_offer _ _
  have hreturned : (reportsLoop trySend now s).returned = true ↔
      ReportsRefused trySend now s ∨ ¬∀ e ∈ s.pendingReports.entries, e.1 ≤ now := by
    rw [hreports.returned, left_offer, Ne, later_eq_nil]
    rfl
  have hperm : s.pendingReports.entries.Perm (taken (reportsLoop trySend now s).sendings ++
      (reportsLoop trySend now s).queue.entries) := by
    rw [hreports.sendings]
    exact hreports.perm hqueued
  by_cases hloop : (reportsLoop trySend now s).returned = true
  · rw [deliverThrough_returned hloop]
    constructor
    · rintro ⟨hreport | ⟨_, hmem, _⟩ | ⟨-, hobservations⟩, -⟩
      · exact .inl (hfull.mp hreport)
      · cases hmem
      · exact .inr (.inr hobservations)
    · intro hcondition
      refine ⟨?_, hreportsDue, (fun _ h => nomatch h), hperm, .refl _, hdelivered⟩
      by_cases hrefused : ReportsRefused trySend now s
      · exact .inl (hfull.mpr hrefused)
      · have hnotDue := (hreturned.mp hloop).resolve_left hrefused
        have hobservations := (hcondition.resolve_left hrefused).resolve_left hnotDue
        exact .inr (.inr ⟨hreports.drained hqueued hrefused, hobservations⟩)
  · rw [deliverThrough_continued hloop]
    obtain ⟨hrefused, hallDue⟩ := not_or.mp (mt hreturned.mpr hloop)
    refine ⟨fun _ => .inr (.inl (not_not.mp hallDue)), fun _ => ?_⟩
    have hqueued' := Queued.split s.adapterBehavior.reverseDelivery now s.pendingObservations
    have hobservations : Performed s.adapterBehavior.reverseDelivery
        (s.pendingObservations.later now) _ _ (observationsLoop trySend now s) :=
      @deliverLoop_offer _ _ (sendPendingObservation trySend) _ _ _ _ s.pendingObservations.size
        ⟨s.pendingObservations, (reportsLoop trySend now s).channels,
          (reportsLoop trySend now s).delivered, [], false⟩ rfl hqueued' le_rfl
    have hfull' := @refuses_offer _ _ (sendPendingObservation trySend)
      (inOrder s.adapterBehavior.reverseDelivery (s.pendingObservations.through now))
      (reportsLoop trySend now s).channels
    refine ⟨?_, hreportsDue, hobservations.sendings_due rfl hqueued', hperm, ?_, ?_⟩
    · by_cases hfull'' : Refuses (sendPendingObservation trySend)
        (inOrder s.adapterBehavior.reverseDelivery (s.pendingObservations.through now))
        (reportsLoop trySend now s).channels
      · refine .inr (.inl ?_)
        rw [hobservations.sendings]
        exact hfull'.mpr hfull''
      · exact .inr (.inr ⟨hreports.drained hqueued hrefused, hobservations.drained hqueued' hfull''⟩)
    · rw [hobservations.sendings]
      exact hobservations.perm hqueued'
    · rw [hobservations.delivered, hobservations.sendings, hdelivered]
      rfl

end Whole

/-! A lamp that reports after ten milliseconds, with a feedback channel that takes everything. -/

def openChannel (_ : Unit) (message : Feedback) (received : List Feedback) :
    FeedbackSendResult × List Feedback :=
  (.sent, received ++ [message])

def lampRoute : AdapterRoute := ⟨utf8 "lamp", validateRoute_lamp⟩

def lampTarget : EffectTarget := ⟨utf8 "kitchen", validateTarget_kitchen⟩

def lampCommand : EffectCommand := ⟨1, 1, ⟨lampRoute, lampTarget, .boolean true⟩, 0⟩

def lampBehavior : AdapterBehavior where
  latencyMs := 10
  outcome := .applied
  duplicateReports := 0
  silent := false
  reverseDelivery := false
  crashDuringDispatch := false
  normalize := none

/-- The command is dispatched at 0, and the lamp is seen switched off at 5. -/
def lampRun : Simulate Unit (List Feedback) Unit := do
  let _ ← dispatch openChannel lampCommand ()
  let _ ← observe 1 lampTarget (.boolean false) 5 5 ()

def lampStart (adapter : InMemoryAdapter Unit) : Simulator Unit (List Feedback) where
  toInMemoryAdapter := adapter
  channels := []

/-- The lamp after the run. -/
def lampWaiting : Option (Simulator Unit (List Feedback)) :=
  match inMemoryAdapter lampRoute lampBehavior {} ⟨64, 4096, 4096⟩ with
  | .error _ => none
  | .ok adapter =>
      match lampRun (lampStart adapter) with
      | .error _ _ => none
      | .ok _ s => some s

/-- At 5 the observation is due, but the report due at 10 keeps it waiting. -/
theorem delivery_keeps_lamp_waiting :
    ∃ s ∈ lampWaiting, ¬Complete openChannel 5 s (deliverThrough openChannel 5 s).2
      (deliverThrough openChannel 5 s).1 := by
  have hsome : lampWaiting.isSome := by decide +kernel
  obtain ⟨s, hs⟩ := Option.isSome_iff_exists.mp hsome
  refine ⟨s, hs, fun h => ?_⟩
  have hreports : ∀ s ∈ lampWaiting, (deliverThrough openChannel 5 s).1.reports.length = 0 := by
    decide +kernel
  have hobservations :
      ∀ s ∈ lampWaiting, (deliverThrough openChannel 5 s).1.observations.length = 0 := by
    decide +kernel
  have hwaiting : ∀ s ∈ lampWaiting,
      ((deliverThrough openChannel 5 s).2.pendingObservations.entries.map Prod.fst) = [5] := by
    decide +kernel
  rcases h.drained with ⟨_, hmem, -⟩ | ⟨_, hmem, -⟩ | ⟨-, hdrained⟩
  · rw [List.eq_nil_of_length_eq_zero (hreports s hs)] at hmem
    cases hmem
  · rw [List.eq_nil_of_length_eq_zero (hobservations s hs)] at hmem
    cases hmem
  · have hdue : (5 : UInt64) ∈
        (deliverThrough openChannel 5 s).2.pendingObservations.entries.map Prod.fst := by
      rw [hwaiting s hs]
      exact List.mem_singleton_self 5
    obtain ⟨e, he, hkey⟩ := List.mem_map.mp hdue
    have hlt := hdrained e he
    rw [hkey] at hlt
    exact lt_irrefl _ hlt

end Simulation

end LiquidLayer
