import Dinero.Activation

/-!
# Dinero.AuditWindow

How far back the audit log is counted.

A window begins at a date, and there is none before the first: a window as long
as `Number.MAX_SAFE_INTEGER` begins at no date for many centuries to come.
-/

namespace Dinero.Licensing

variable {s : Store}

/-! ## counts -/

/-- The entries of the type that the predicate takes. -/
def Store.matching (s : Store) (eventType : String) (matchPayload : AuditPayload → Bool) :
    List LicensingAuditLog :=
  s.auditLog.filter fun e => e.eventType == eventType && matchPayload e.payload

/-- The count asks for a date, and answers with the entries from that date on: with all of them
if the window is longer than the history. -/
structure Store.CountsRecent (s : Store) (eventType : String) (windowMs : Int)
    (matchPayload : AuditPayload → Bool) : Prop where
  since : date (s.clock - windowMs) = some (s.clock - windowMs)
  counts : (countRecentEvents eventType windowMs matchPayload).run (Store.exec .refused) s =
    (.ok ((s.matching eventType matchPayload).filter fun e =>
      decide (s.clock - windowMs ≤ e.createdAt)).length, s)
  history : (∀ e ∈ s.auditLog, s.clock - windowMs ≤ e.createdAt) →
    (countRecentEvents eventType windowMs matchPayload).run (Store.exec .refused) s =
      (.ok (s.matching eventType matchPayload).length, s)

theorem date_eq_some_iff (ms : Int) :
    date ms = some ms ↔ -maxDateMs ≤ ms ∧ ms ≤ maxDateMs := by
  unfold date
  rw [Option.ite_none_right_eq_some, and_iff_left rfl]
  omega

/-- What is counted from a date on. -/
theorem run_countRecentEvents {d : InvalidDate} {eventType : String} {windowMs since : Int}
    {matchPayload : AuditPayload → Bool} (h : date (s.clock - windowMs) = some since) :
    (countRecentEvents eventType windowMs matchPayload).run (Store.exec d) s =
      (.ok ((s.matching eventType matchPayload).filter fun e =>
        decide (since ≤ e.createdAt)).length, s) := by
  have hrows : ((s.auditLog.filter fun e =>
      e.eventType == eventType && decide (since ≤ e.createdAt)).filter fun e =>
        matchPayload e.payload) =
        (s.matching eventType matchPayload).filter fun e => decide (since ≤ e.createdAt) := by
    unfold Store.matching
    rw [List.filter_filter, List.filter_filter]
    congr 1
    funext e
    cases e.eventType == eventType <;> cases matchPayload e.payload <;> simp
  rw [← hrows]
  unfold countRecentEvents
  rw [Routine.bind_of_ok (run_now s), h]
  rfl

/-- **The audit window**: the count is right just if the window begins at a date. -/
theorem countsRecent_iff (s : Store) (eventType : String) (windowMs : Int)
    (matchPayload : AuditPayload → Bool) :
    s.CountsRecent eventType windowMs matchPayload ↔
      -maxDateMs ≤ s.clock - windowMs ∧ s.clock - windowMs ≤ maxDateMs := by
  rw [← date_eq_some_iff]
  constructor
  · exact fun h => h.since
  · intro hsince
    have hcount : (countRecentEvents eventType windowMs matchPayload).run (Store.exec .refused) s =
        (.ok ((s.matching eventType matchPayload).filter fun e =>
          decide (s.clock - windowMs ≤ e.createdAt)).length, s) := run_countRecentEvents hsince
    refine ⟨hsince, hcount, fun hall => ?_⟩
    rw [hcount, List.filter_eq_self.mpr fun e he => ?_]
    exact decide_eq_true (hall e (List.mem_of_mem_filter he))

/-- Where the window begins at no date the count fails. -/
theorem run_countRecentEvents_of_none {eventType : String} {windowMs : Int}
    {matchPayload : AuditPayload → Bool} (h : date (s.clock - windowMs) = none) :
    (countRecentEvents eventType windowMs matchPayload).run (Store.exec .refused) s =
      (.error (.unexpected "Provided Date object is invalid"), s) := by
  unfold countRecentEvents
  rw [Routine.bind_of_ok (run_now s), h]
  rfl

/-! ## lifetime checks -/

/-- The clock from which on a window of `Number.MAX_SAFE_INTEGER` begins at a date. -/
theorem date_lifetime_eq_none (h : s.clock < maxSafeInteger - maxDateMs) :
    date (s.clock - maxSafeInteger) = none := by
  unfold date
  rw [if_neg]
  unfold maxSafeInteger maxDateMs at *
  omega

/-- No trial is found, and none is refused: the check fails. -/
theorem deviceHasPriorTrialStartedEvent_fails (h : s.clock < maxSafeInteger - maxDateMs)
    (deviceId : String) :
    (deviceHasPriorTrialStartedEvent deviceId).run (Store.exec .refused) s =
      (.error (.unexpected "Provided Date object is invalid"), s) := by
  unfold deviceHasPriorTrialStartedEvent
  rw [Routine.run_bind, run_countRecentEvents_of_none (date_lifetime_eq_none h)]

/-- No event is taken for processed, and none is processed: the check fails. -/
theorem isDuplicateEvent_fails (h : s.clock < maxSafeInteger - maxDateMs) (eventId : String) :
    (isDuplicateEvent eventId).run (Store.exec .refused) s =
      (.error (.unexpected "Provided Date object is invalid"), s) := by
  unfold isDuplicateEvent
  rw [Routine.run_bind, run_countRecentEvents_of_none (date_lifetime_eq_none h)]

/-- In 2024 a trial is on record, and the window that is to reach it begins at no date. -/
theorem lifetime_window_invalid :
    let s : Store := { Store.empty 1704067200000 twoPayments with
      auditLog := [⟨some 0, "trial_started", some "laptop", [("device_id", "laptop")],
        1700000000000⟩] }
    (s.matching "trial_started" fun p => p.lookup "device_id" == some "laptop").length = 1 ∧
      ((deviceHasPriorTrialStartedEvent "laptop").run (Store.exec .refused) s).1 =
        .error (.unexpected "Provided Date object is invalid") ∧
      ¬ s.CountsRecent "trial_started" maxSafeInteger fun p =>
        p.lookup "device_id" == some "laptop" := by
  intro s
  have hbefore : s.clock < maxSafeInteger - maxDateMs := by decide
  refine ⟨by decide +kernel, ?_, fun h => ?_⟩
  · rw [deviceHasPriorTrialStartedEvent_fails hbefore]
  · have hsince := h.since
    rw [date_lifetime_eq_none hbefore] at hsince
    simp at hsince

end Dinero.Licensing
