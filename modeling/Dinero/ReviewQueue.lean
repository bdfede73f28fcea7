import Dinero.Outcomes
import Dinero.Succeeds

/-!
# Dinero.ReviewQueue

Observations waiting for the user.

An observation the scorer would not place waits as an incoming member of a
cluster, and the review queue lists the clusters that are open or deferred.
Closing a cluster answers for the one observation the user named.  The others
of the cluster keep waiting, so they have to be listed elsewhere: that, and
that the named observation is really settled, is what `ClosesNoOther` asks.
-/

namespace Dinero

open Sql

/-! ## waiting and being listed -/

/-- The decision made last about an observation. -/
def Database.newestDecision (db : Database) (obsId : String) : Option Decision :=
  ((db.matchDecisions.rows.filter (·.observationId = some obsId)).getLast?).map (·.decision)

/-- A live observation that is linked to nothing and was last found ambiguous. -/
structure Database.Pending (db : Database) (o : TransactionObservationsRow) : Prop where
  live : o.isDeleted = false
  unlinked : o.canonicalTransactionId = none
  ambiguous : db.newestDecision o.id = some .ambiguousPending

instance (db : Database) (o : TransactionObservationsRow) : Decidable (db.Pending o) :=
  decidable_of_iff (o.isDeleted = false ∧ o.canonicalTransactionId = none ∧
      db.newestDecision o.id = some .ambiguousPending)
    ⟨fun ⟨h₁, h₂, h₃⟩ => ⟨h₁, h₂, h₃⟩, fun ⟨h₁, h₂, h₃⟩ => ⟨h₁, h₂, h₃⟩⟩

/-- The observation is an incoming member of cluster `c`. -/
def Database.Incoming (db : Database) (obsId : String) (c : ReconciliationClustersRow) : Prop :=
  ∃ m ∈ db.clusterMembers.rows, m.clusterId = c.id ∧ m.observationId = some obsId ∧
    m.memberRole = .incoming

instance (db : Database) (obsId : String) (c : ReconciliationClustersRow) :
    Decidable (db.Incoming obsId c) := by
  unfold Database.Incoming
  infer_instance

/-- The review queue lists the observation. -/
def Database.Listed (db : Database) (obsId : String) : Prop :=
  ∃ c ∈ db.unresolvedClusters, db.Incoming obsId c

/-- The review queue lists the observation under another cluster than this. -/
def Database.ListedOutside (db : Database) (clusterId obsId : String) : Prop :=
  ∃ c ∈ db.unresolvedClusters, c.id ≠ clusterId ∧ db.Incoming obsId c

instance (db : Database) (clusterId obsId : String) :
    Decidable (db.ListedOutside clusterId obsId) := by
  unfold Database.ListedOutside
  infer_instance

/-- The review queue loses nobody. -/
def Database.PendingListed (db : Database) : Prop :=
  ∀ o ∈ db.observations.rows, db.Pending o → db.Listed o.id

instance (db : Database) : Decidable db.PendingListed := by
  unfold Database.PendingListed Database.Listed
  infer_instance

/-- The invariant behind it: decisions are about stored observations, what was
found ambiguous has an instrument, and instruments are known. -/
structure Database.WellDecided (db : Database) : Prop where
  decided : ∀ d ∈ db.matchDecisions, ∃ o ∈ db.observations, d.observationId = some o.id ∧
    (d.decision = .ambiguousPending → o.instrumentId.isSome = true)
  instruments : ∀ o ∈ db.observations, refersInto db.instruments o.instrumentId = true
  listed : db.PendingListed

/-! ## newest decisions -/

/-- Decisions about somebody else do not count. -/
theorem Database.newestDecision_of_others {db db' : Database} {ds : List MatchDecisionsRow}
    (h : db'.matchDecisions.rows = db.matchDecisions.rows ++ ds) {obsId : String}
    (hds : ∀ d ∈ ds, d.observationId ≠ some obsId) :
    db'.newestDecision obsId = db.newestDecision obsId := by
  have hnone : ds.filter (fun d => decide (d.observationId = some obsId)) = [] :=
    List.filter_eq_nil_iff.mpr fun d hd => by simpa using hds d hd
  rw [newestDecision, newestDecision, h, List.filter_append, hnone, List.append_nil]

/-- A decision about the observation is the newest one. -/
theorem Database.newestDecision_of_last {db : Database} {ds : List MatchDecisionsRow}
    {d : MatchDecisionsRow} (h : db.matchDecisions.rows = ds ++ [d]) {obsId : String}
    (hd : d.observationId = some obsId) : db.newestDecision obsId = some d.decision := by
  have hlast : [d].filter (fun d => decide (d.observationId = some obsId)) = [d] := by simp [hd]
  rw [newestDecision, h, List.filter_append, hlast, List.getLast?_append]
  rfl

/-- Who was never decided about has no newest decision. -/
theorem Database.newestDecision_of_none {db : Database} {obsId : String}
    (h : ∀ d ∈ db.matchDecisions, d.observationId ≠ some obsId) :
    db.newestDecision obsId = none := by
  have hnone : db.matchDecisions.rows.filter (fun d => decide (d.observationId = some obsId)) = [] :=
    List.filter_eq_nil_iff.mpr fun d hd => by simpa using h d hd
  rw [newestDecision, hnone]
  rfl

/-- The observation a newest decision is about has that decision in the table. -/
theorem Database.exists_of_newestDecision {db : Database} {obsId : String} {d : Decision}
    (h : db.newestDecision obsId = some d) :
    ∃ r ∈ db.matchDecisions, r.observationId = some obsId ∧ r.decision = d := by
  obtain ⟨r, hr, hd⟩ := Option.map_eq_some_iff.mp h
  have hmem := List.mem_of_getLast? hr
  rw [List.mem_filter] at hmem
  exact ⟨r, hmem.1, by simpa using hmem.2, hd⟩

/-! ## what steps preserve -/

/-- Listing survives where members stay and no listed cluster is lost. -/
theorem Database.Listed.mono {db db' : Database} {obsId : String} (h : db.Listed obsId)
    (hm : ∀ m ∈ db.clusterMembers.rows, m ∈ db'.clusterMembers.rows)
    (hc : ∀ c ∈ db.unresolvedClusters, ∃ c' ∈ db'.unresolvedClusters, c'.id = c.id) :
    db'.Listed obsId := by
  obtain ⟨c, hcl, m, hmem, hid, hobs, hrole⟩ := h
  obtain ⟨c', hcl', hid'⟩ := hc c hcl
  exact ⟨c', hcl', m, hm m hmem, hid.trans hid'.symm, hobs, hrole⟩

/-- Stored observations keep their id and instrument wherever only links
change. -/
theorem exists_of_unlinked {db db' : Database}
    (h : db'.observations.rows.map TransactionObservationsRow.unlinked =
      db.observations.rows.map TransactionObservationsRow.unlinked)
    {o : TransactionObservationsRow} (ho : o ∈ db'.observations) :
    ∃ o' ∈ db.observations, o'.id = o.id ∧ o'.instrumentId = o.instrumentId ∧
      o'.isDeleted = o.isDeleted := by
  obtain ⟨o', ho', heq⟩ := Table.exists_of_map_eq h ho
  have hid := congrArg TransactionObservationsRow.id heq
  have hinst := congrArg TransactionObservationsRow.instrumentId heq
  have hlive := congrArg TransactionObservationsRow.isDeleted heq
  exact ⟨o', ho', hid, hinst, hlive⟩

/-- Decisions stay about stored observations where only links change and the
new ones are about `obsId`. -/
theorem decided_of_unlinked {db db' : Database}
    (hdec : ∀ d ∈ db.matchDecisions, ∃ o ∈ db.observations, d.observationId = some o.id ∧
      (d.decision = .ambiguousPending → o.instrumentId.isSome = true))
    (hunl : db'.observations.rows.map TransactionObservationsRow.unlinked =
      db.observations.rows.map TransactionObservationsRow.unlinked)
    {ds : List MatchDecisionsRow}
    (hrows : db'.matchDecisions.rows = db.matchDecisions.rows ++ ds)
    (hnew : ∀ d ∈ ds, ∃ o ∈ db.observations, d.observationId = some o.id ∧
      (d.decision = .ambiguousPending → o.instrumentId.isSome = true)) :
    ∀ d ∈ db'.matchDecisions, ∃ o ∈ db'.observations, d.observationId = some o.id ∧
      (d.decision = .ambiguousPending → o.instrumentId.isSome = true) := by
  intro d hd
  rw [Table.mem_def, hrows, List.mem_append] at hd
  have hold : ∃ o ∈ db.observations, d.observationId = some o.id ∧
      (d.decision = .ambiguousPending → o.instrumentId.isSome = true) := by
    cases hd with
    | inl hd => exact hdec d hd
    | inr hd => exact hnew d hd
  obtain ⟨o, ho, hid, hinst⟩ := hold
  obtain ⟨o', ho', hid', hinst', -⟩ := exists_of_unlinked hunl.symm ho
  exact ⟨o', ho', by rw [hid, hid'], by rwa [hinst']⟩

/-- Instruments stay known where only links change. -/
theorem instruments_of_unlinked {db db' : Database}
    (h : ∀ o ∈ db.observations, refersInto db.instruments o.instrumentId = true)
    (hinst : db'.instruments = db.instruments)
    (hunl : db'.observations.rows.map TransactionObservationsRow.unlinked =
      db.observations.rows.map TransactionObservationsRow.unlinked) :
    ∀ o ∈ db'.observations, refersInto db'.instruments o.instrumentId = true := by
  intro o ho
  obtain ⟨o', ho', -, hi, -⟩ := exists_of_unlinked hunl ho
  rw [hinst, ← hi]
  exact h o' ho'

/-- Where statuses change, listed clusters stay listed if the new status is. -/
theorem unresolved_setClusterStatus {db : Database} {k : String} {status : ClusterStatus}
    {f : Option Int → Option Int} {c : ReconciliationClustersRow} (hc : c ∈ db.unresolvedClusters)
    (h : c.id ≠ k ∨ status = .open ∨ status = .deferred) :
    ∃ c' ∈ (db.setClusterStatus k status f).unresolvedClusters, c'.id = c.id := by
  simp only [Database.unresolvedClusters, List.mem_filter] at hc ⊢
  by_cases hk : c.id = k
  · have hstatus := h.resolve_left fun hne => hne hk
    refine ⟨_, ⟨Table.mem_modify_of_mem hc.1 hk, ?_⟩, rfl⟩
    rcases hstatus with rfl | rfl <;> rfl
  · exact ⟨c, ⟨(Table.mem_modify_of_ne hk).mpr hc.1, hc.2⟩, rfl⟩

/-- Whoever is pending after what concerns one observation was pending before,
and the same row. -/
theorem Concerns.pending {obsId : String} {db db' : Database} (h : Concerns obsId db db')
    {o : TransactionObservationsRow} (ho : o ∈ db'.observations) (hp : db'.Pending o) :
    o ∈ db.observations ∧ db.Pending o := by
  obtain ⟨ds, hds, hnew⟩ := h.decisions
  refine ⟨h.stillOpen o ho hp.unlinked, hp.live, hp.unlinked, ?_⟩
  rw [← hp.ambiguous]
  -- a new decision about it would be the newest, and leave nothing pending
  rcases ds.eq_nil_or_concat' with rfl | ⟨ds', d, rfl⟩
  · exact (Database.newestDecision_of_others hds (by simp)).symm
  · obtain ⟨hobs, hnot, -⟩ := hnew d (by simp)
    by_cases hid : obsId = o.id
    · have hlast : db'.newestDecision o.id = some d.decision :=
        Database.newestDecision_of_last (hds.trans (List.append_assoc _ _ _).symm) (hid ▸ hobs)
      exact absurd (Option.some.inj (hlast.symm.trans hp.ambiguous)) hnot
    · refine (Database.newestDecision_of_others hds fun d hd => ?_).symm
      rw [(hnew d hd).1]
      simpa using hid

/-! ## settling the named observation -/

/-- A resolution of an observation that goes through: the action finds all it
needs. -/
def Settles (db : Database) (action : String) (chosen : Option String) : Prop :=
  action = "keep_separate" ∨ refersInto db.transactions chosen = true

instance (db : Database) (action : String) (chosen : Option String) :
    Decidable (Settles db action chosen) := by
  unfold Settles
  infer_instance

variable [Extern]

/-- Kept separate, the observation is linked. -/
theorem linked_of_keepSeparate (clusterId : String) (chosen : Option String) (now : Int)
    {s : Store Database} (hfresh : Fresh s) {o : TransactionObservationsRow}
    (ho : o ∈ s.db.observations) (hlive : o.isDeleted = false) {i : String}
    (hi : o.instrumentId = some i) (hinst : s.db.instruments.contains i = true) :
    ∃ txId, ((recordResolution clusterId o.id "keep_separate" chosen (.quiet now) s).2.db.observations.find?
      o.id).bind (·.canonicalTransactionId) = some txId := by
  have hrow : s.db.getObservation o.id = some o :=
    Option.filter_eq_some_iff.mpr ⟨Table.find?_eq_some.mpr ⟨ho, rfl⟩, by simp [hlive]⟩
  have hstored : s.db.observations.contains (separateObservation o).id = true :=
    Table.contains_iff.mpr ⟨o, ho, rfl⟩
  obtain ⟨u, s₁, h₁⟩ : Succeeds now (createCanonicalTransaction (separateObservation o)) s :=
    createCanonicalTransaction_succeeds hfresh hstored (by simpa [separateObservation, hi] using hinst)
  obtain ⟨_, _, _, hl, _⟩ := createCanonicalTransaction_effect h₁
  have hact : resolveObservation o.id "keep_separate" chosen (.quiet now) s = (.ok u, s₁) := by
    unfold resolveObservation
    rw [if_neg (by decide), if_pos rfl, getObservation,
      Eff.bind_of_ok (query_quiet _ _ now s), hrow]
    exact h₁
  obtain ⟨D, L, hrest⟩ := records_resolution clusterId o.id chosen (.quiet now) s₁
  rw [recordResolution, Eff.bind_of_ok hact, hrest]
  exact ⟨_, hl.link⟩

/-- Decided by the user, the observation is no longer ambiguous. -/
theorem newestDecision_of_settles (clusterId : String) {action : String} {chosen : Option String}
    (now : Int) {s : Store Database} (hfresh : Fresh s) {o : TransactionObservationsRow}
    (ho : o ∈ s.db.observations) (hkeep : action ≠ "keep_separate")
    (href : refersInto s.db.transactions chosen = true) :
    (recordResolution clusterId o.id action chosen (.quiet now) s).2.db.newestDecision o.id
      = some .manuallyConfirmed := by
  have hstored : s.db.observations.contains o.id = true := Table.contains_iff.mpr ⟨o, ho, rfl⟩
  -- the action goes through and leaves ids fresh and both ends stored
  obtain ⟨u, s₁, h₁, hfresh₁, hobs₁, htx₁⟩ : ∃ u s₁,
      resolveObservation o.id action chosen (.quiet now) s = (.ok u, s₁) ∧ Fresh s₁ ∧
      s₁.db.observations.contains o.id = true ∧ s₁.db.transactions = s.db.transactions := by
    by_cases hconfirm : action = "confirm_match"
    · cases chosen with
      | none => exact ⟨(), s, by simp [resolveObservation, hconfirm], hfresh, hstored, rfl⟩
      | some canonicalId =>
        obtain ⟨u, s₁, h₁⟩ : Succeeds now (updateCanonicalTransactionId o.id (some canonicalId)) s :=
          updateCanonicalTransactionId_succeeds hstored href
        obtain ⟨-, -, hs₁⟩ := updateCanonicalTransactionId_ok h₁
        refine ⟨u, s₁, by simpa [resolveObservation, hconfirm] using h₁,
          hfresh.after (keeps_updateCanonicalTransactionId _ _) h₁, ?_, by rw [hs₁]⟩
        rw [hs₁]
        simpa using hstored
    · exact ⟨(), s, by simp [resolveObservation, hconfirm, hkeep], hfresh, hstored, rfl⟩
  obtain ⟨_, s₂, h₂⟩ : Succeeds now
      (appendMatchDecision o.id chosen 1 .manuallyConfirmed (some "user_id")) s₁ :=
    appendMatchDecision_succeeds hfresh₁ hobs₁ (by rwa [htx₁])
  obtain ⟨D, hD, -, -, hs₂⟩ := appendMatchDecision_ok h₂
  have hkept : (insertUserAudit .auditResolved "cluster_resolved" clusterId (.quiet now)
      s₂).2.db.matchDecisions = s₂.db.matchDecisions := by
    have hwithin : Within (fun db db' : Database => db'.matchDecisions = db.matchDecisions)
        (insertUserAudit .auditResolved "cluster_resolved" clusterId) :=
      Within.bind (Within.newUuid _) fun _ => Within.exec fun _ _ _ _ h => by
        obtain ⟨T, -, -, rfl⟩ := insertInto_eq_ok.mp h
        rfl
    exact hwithin.keeps (fun _ _ h => h) _ s₂
  rw [recordResolution, Eff.bind_of_ok h₁, Eff.bind_of_ok h₂]
  have hrows : (insertUserAudit .auditResolved "cluster_resolved" clusterId (.quiet now)
      s₂).2.db.matchDecisions.rows = s₁.db.matchDecisions.rows ++ [matchDecisionRow
        (uuid s₁.nextUuid) o.id chosen 1 .manuallyConfirmed (some "user_id") now] := by
    rw [hkept, hs₂]
    exact (Table.insert?_eq_some.mp hD).2
  exact Database.newestDecision_of_last hrows rfl

/-! ## steps -/

/-- Closing a cluster leaves nobody waiting unlisted: whoever is pending is
listed under another cluster, or is the named observation and gets settled. -/
def ClosesNoOther (s : Store Database) : Op → Prop
  | .resolve clusterId obsId action chosen => closes action →
      ∀ o ∈ s.db.observations.rows, s.db.Pending o →
        s.db.ListedOutside clusterId o.id ∨ (o.id = obsId ∧ Settles s.db action chosen)
  | _ => True

omit [Extern] in
/-- A pending observation has a known instrument. -/
theorem Database.WellDecided.instrument {db : Database} (h : db.WellDecided)
    {o : TransactionObservationsRow} (ho : o ∈ db.observations) (hp : db.Pending o) :
    ∃ i, o.instrumentId = some i ∧ db.instruments.contains i = true := by
  obtain ⟨r, hr, hid, hdec⟩ := Database.exists_of_newestDecision hp.ambiguous
  obtain ⟨o', ho', hid', hinst⟩ := h.decided r hr
  obtain rfl : o' = o := Table.eq_of_key_eq ho' ho (Option.some.inj (hid'.symm.trans hid))
  obtain ⟨i, hi⟩ := Option.isSome_iff_exists.mp (hinst hdec)
  have hknown := h.instruments o' ho'
  rw [hi] at hknown
  exact ⟨i, hi, hknown⟩

omit [Extern] in
/-- After a change of status and what concerns one observation, only the
listing is left to check. -/
theorem Database.WellDecided.concerns {db db' : Database} (h : db.WellDecided) {obsId k : String}
    {status : ClusterStatus} {f : Option Int → Option Int}
    (hc : Concerns obsId (db.setClusterStatus k status f) db')
    (hlisted : ∀ o ∈ db.observations, db.Pending o → o ∈ db'.observations → db'.Pending o →
      db'.Listed o.id) : db'.WellDecided := by
  obtain ⟨ds, hds, hnew⟩ := hc.decisions
  constructor
  · refine decided_of_unlinked h.decided hc.unlinked hds fun d hd => ?_
    obtain ⟨hid, hdec, hstored⟩ := hnew d hd
    obtain ⟨o, ho, rfl⟩ := Table.contains_iff.mp hstored
    exact ⟨o, ho, hid, fun hamb => absurd hamb hdec⟩
  · exact instruments_of_unlinked h.instruments hc.instruments hc.unlinked
  · intro o ho hp
    obtain ⟨hold, hpold⟩ := hc.pending ho hp
    exact hlisted o hold ⟨hpold.live, hpold.unlinked, hpold.ambiguous⟩ ho hp

theorem fresh_closed {s : Store Database} (h : Fresh s) (clusterId action : String) (now : Int) :
    Fresh { s with db := s.db.closed clusterId action now } := by
  have hids : (s.db.closed clusterId action now).rowIds = s.db.rowIds := by
    simp [Database.closed, Database.setClusterStatus, Database.rowIds]
  exact ⟨fun k hk => by rw [hids]; exact h.1 k hk, by simp⟩

/-- The named observation is settled. -/
theorem not_pending_of_settles {s : Store Database} (hfresh : Fresh s) (h : s.db.WellDecided)
    {clusterId action : String} {chosen : Option String} (hs : Settles s.db action chosen)
    {now : Int} {o : TransactionObservationsRow} (ho : o ∈ s.db.observations)
    (hp : s.db.Pending o) {db' : Database}
    (hdb : db' = (recordResolution clusterId o.id action chosen (.quiet now)
      { s with db := s.db.closed clusterId action now }).2.db)
    (ho' : o ∈ db'.observations) : ¬ db'.Pending o := by
  have hfresh' := fresh_closed hfresh clusterId action now
  intro hp'
  by_cases hkeep : action = "keep_separate"
  · subst hkeep
    obtain ⟨i, hi, hinst⟩ := h.instrument ho hp
    obtain ⟨txId, hlink⟩ := linked_of_keepSeparate clusterId chosen now hfresh' ho hp.live hi hinst
    have hfind : db'.observations.find? o.id = some o := Table.find?_eq_some.mpr ⟨ho', rfl⟩
    rw [← hdb, hfind, Option.bind_some, hp'.unlinked] at hlink
    simp at hlink
  · have hnewest := newestDecision_of_settles clusterId now hfresh' ho hkeep
      (hs.resolve_left hkeep)
    rw [← hdb, hp'.ambiguous] at hnewest
    simp at hnewest

omit [Extern] in
/-- Statuses change, members do not: who is listed under a cluster that stays
listed is listed still. -/
theorem Concerns.listed {db db' : Database} {obsId k : String} {status : ClusterStatus}
    {f : Option Int → Option Int} (hc : Concerns obsId (db.setClusterStatus k status f) db')
    {id : String} {c : ReconciliationClustersRow} (hcl : c ∈ db.unresolvedClusters)
    (hin : db.Incoming id c) (hstatus : c.id ≠ k ∨ status = .open ∨ status = .deferred) :
    db'.Listed id := by
  obtain ⟨c', hcl', hid⟩ := unresolved_setClusterStatus (f := f) hcl hstatus
  obtain ⟨m, hm, hmc, hmo⟩ := hin
  refine ⟨c', ?_, m, ?_, hmc.trans hid.symm, hmo⟩
  · rw [Database.unresolvedClusters, hc.clusters]
    exact hcl'
  · rw [hc.clusterMembers]
    exact hm

/-- **Resolving a cluster** that closes on no other. -/
theorem Database.WellDecided.resolve {s : Store Database} (hfresh : Fresh s)
    (h : s.db.WellDecided) {clusterId obsId action : String} {chosen : Option String}
    (hcond : ClosesNoOther s (.resolve clusterId obsId action chosen)) (now : Int) :
    ((Op.resolve clusterId obsId action chosen).run now s).db.WellDecided := by
  rcases resolve_cases clusterId obsId action chosen now s with hdb | hc | ⟨hcloses, hrun⟩
  · rwa [hdb]
  · have hc : Concerns obsId _ _ := hc.concerns
    refine h.concerns hc fun o ho hp _ _ => ?_
    obtain ⟨c, hcl, hin⟩ := h.listed o ho hp
    exact hc.listed hcl hin (.inr (.inr rfl))
  · rw [hrun]
    have hc := concerns_recordResolution clusterId obsId action chosen now
      { s with db := s.db.closed clusterId action now }
    refine h.concerns hc fun o ho hp ho' hp' => ?_
    rcases hcond hcloses o ho hp with ⟨c, hcl, hne, hin⟩ | ⟨rfl, hsettles⟩
    · exact hc.listed hcl hin (.inl hne)
    · exact absurd hp' (not_pending_of_settles hfresh h hsettles ho hp rfl ho')

omit [Extern] in
/-- **Reopening a cluster** only lists more. -/
theorem Database.WellDecided.unmerge {db : Database} (h : db.WellDecided) (clusterId : String) :
    (db.setClusterStatus clusterId .open fun _ => none).WellDecided := by
  refine h.concerns (Concerns.refl "" _) fun o ho hp _ _ => ?_
  obtain ⟨c, hcl, hin⟩ := h.listed o ho hp
  exact (Concerns.refl "" _).listed hcl hin (.inr (.inl rfl))

omit [Extern] in
/-- A stored row has no decisions yet. -/
theorem Database.WellDecided.insertObservation {db db' : Database} (h : db.WellDecided)
    {row : TransactionObservationsRow} (hins : db.insertObservation row = .ok ((), db')) :
    db'.WellDecided ∧ db'.newestDecision row.id = none := by
  obtain ⟨-, -, ⟨-, hinst, -, -⟩, T, hT, rfl⟩ := Database.insertObservation_eq_ok.mp hins
  have hnew : ∀ o ∈ db.observations, o.id ≠ row.id := (Table.insert?_eq_some.mp hT).1
  have hnone : db.newestDecision row.id = none := by
    refine Database.newestDecision_of_none fun d hd heq => ?_
    obtain ⟨o, ho, hid, -⟩ := h.decided d hd
    exact hnew o ho (Option.some.inj (hid.symm.trans heq))
  refine ⟨⟨fun d hd => ?_, fun o ho => ?_, fun o ho hp => ?_⟩, hnone⟩
  · obtain ⟨o, ho, hid⟩ := h.decided d hd
    exact ⟨o, (Table.mem_of_insert? hT).mpr (.inl ho), hid⟩
  · cases (Table.mem_of_insert? hT).mp ho with
    | inl ho => exact h.instruments o ho
    | inr heq => rw [heq]; exact hinst
  · cases (Table.mem_of_insert? hT).mp ho with
    | inl ho => exact h.listed o ho ⟨hp.live, hp.unlinked, hp.ambiguous⟩
    | inr heq =>
      rw [heq] at hp
      exact absurd (hnone.symm.trans hp.ambiguous) (by simp)

omit [Extern] in
/-- Who is pending beside a newly linked observation was pending before. -/
theorem LinkedTo.pending {obsId id : String} {now : Int} {T : Table TransactionsRow}
    {d : DecisionType} {db db' : Database} (hl : LinkedTo obsId id now T db db')
    (hlog : Logged obsId d db db') {o : TransactionObservationsRow} (ho : o ∈ db'.observations)
    (hp : db'.Pending o) : o ∈ db.observations ∧ db.Pending o := by
  rw [hl.observations] at ho
  obtain ⟨hold, hne⟩ : o ∈ db.observations ∧ o.id ≠ obsId := by
    rcases Table.mem_modify_cases ho with hold | ⟨r, -, -, rfl⟩
    · exact hold
    · have hnone := hp.unlinked
      simp [linkPatch] at hnone
  obtain ⟨r, hr, -, hrows⟩ := hlog.row
  have hnewest : db'.newestDecision o.id = db.newestDecision o.id := by
    refine Database.newestDecision_of_others hrows fun d hd => ?_
    obtain rfl := List.mem_singleton.mp hd
    rw [hr]
    simpa using hne.symm
  exact ⟨hold, hp.live, hp.unlinked, hnewest.symm.trans hp.ambiguous⟩

omit [Extern] in
/-- Raising a cluster lists the observation, and nobody less. -/
theorem Raised.listed {obs : IncomingObservation} {dt : Int} {viable : List ScoredCandidate}
    {db db' : Database} (h : Raised obs dt viable db db') :
    (∀ id, db.Listed id → db'.Listed id) ∧ db'.Listed obs.id := by
  cases h with
  | extend c m M hc hover hm hM hdb =>
    have hlisted : c ∈ db.unresolvedClusters := by
      simp only [Database.overlappingOpen, Bool.and_eq_true, decide_eq_true_eq] at hover
      simp [Database.unresolvedClusters, hover.1, Table.mem_def.mp hc]
    subst hdb
    refine ⟨fun id hid => ?_, c, hlisted, m, ?_, hm.clusterId, hm.observationId, hm.memberRole⟩
    · exact hid.mono (fun x hx => (Table.mem_of_insert? hM).mpr (.inl hx)) fun c hc => ⟨c, hc, rfl⟩
    · exact (Table.mem_of_insert? hM).mpr (.inr rfl)
  | found c C m ms M hnone hst hC hm hms hids hM hdb =>
    have hmem : ∀ x ∈ db.unresolvedClusters,
        x ∈ ({ db with clusters := C, clusterMembers := M } : Database).unresolvedClusters := by
      intro x hx
      simp only [Database.unresolvedClusters, List.mem_filter] at hx ⊢
      exact ⟨(Table.mem_of_insert? hC).mpr (.inl hx.1), hx.2⟩
    have hlisted : c ∈ ({ db with clusters := C, clusterMembers := M } : Database).unresolvedClusters := by
      simp only [Database.unresolvedClusters, List.mem_filter]
      exact ⟨(Table.mem_of_insert? hC).mpr (.inr rfl), by simp [hst]⟩
    subst hdb
    refine ⟨fun id hid => ?_, c, hlisted, m, ?_, hm.clusterId, hm.observationId, hm.memberRole⟩
    · refine hid.mono (fun x hx => ?_) fun x hx => ⟨x, hmem x hx, rfl⟩
      rw [hM]
      exact List.mem_append_left _ hx
    · rw [hM]
      simp

/-- **Acting on an observation** just stored. -/
theorem Database.WellDecided.acted {db db' : Database} (h : db.WellDecided)
    {obs : IncomingObservation} {dt now : Int} {d : DecisionType}
    (hact : Acted obs dt now db db' d) {o : TransactionObservationsRow}
    (ho : o ∈ db.observations) (hid : o.id = obs.id) (hinst : o.instrumentId.isSome = true) :
    db'.WellDecided := by
  -- the new decision is about the stored row
  have hdecided : ∀ {d : DecisionType}, Logged obs.id d db db' →
      ∀ r ∈ db'.matchDecisions, ∃ o ∈ db'.observations, r.observationId = some o.id ∧
        (r.decision = .ambiguousPending → o.instrumentId.isSome = true) := by
    intro d hlog
    obtain ⟨r, hr, -, hrows⟩ := hlog.row
    refine decided_of_unlinked h.decided hact.unlinked hrows fun x hx => ?_
    obtain rfl := List.mem_singleton.mp hx
    exact ⟨o, ho, by rw [hr, hid], fun _ => hinst⟩
  have hlinked : ∀ {id T} {d : DecisionType}, LinkedTo obs.id id now T db db' →
      Logged obs.id d db db' → db'.WellDecided := by
    intro id T d hl hlog
    refine ⟨hdecided hlog, instruments_of_unlinked h.instruments hl.instruments hact.unlinked,
      fun x hx hp => ?_⟩
    obtain ⟨hold, hpold⟩ := hl.pending hlog hx hp
    refine (h.listed x hold hpold).mono (fun m hm => ?_) fun c hc => ⟨c, ?_, rfl⟩
    · rw [hl.clusterMembers]
      exact hm
    · rw [Database.unresolvedClusters, hl.clusters]
      exact hc
  cases hact with
  | merged _ _ _ _ _ _ hl hlog => exact hlinked hl hlog
  | created _ _ _ _ hl hlog => exact hlinked hl hlog
  | raised clusterId db₁ D hraised hdb hlog =>
    obtain ⟨hobs₁, -, -, hinst₁⟩ := hraised.payments
    obtain ⟨hkeep, hself⟩ := hraised.listed
    obtain ⟨r, hr, hrd, hrows⟩ := hlog.row
    have hlisted : ∀ id, db₁.Listed id → db'.Listed id := by
      intro id hid
      rw [hdb]
      exact hid
    have hobs : db'.observations = db.observations := by
      rw [hdb]
      exact hobs₁
    refine ⟨hdecided hlog, ?_, fun x hx hp => ?_⟩
    · have hinst' : db'.instruments = db.instruments := by
        rw [hdb]
        exact hinst₁
      exact instruments_of_unlinked h.instruments hinst' (by rw [hobs])
    · by_cases hx' : x.id = obs.id
      · rw [hx']
        exact hlisted _ hself
      · have hnewest : db'.newestDecision x.id = db.newestDecision x.id := by
          refine Database.newestDecision_of_others hrows fun d hd => ?_
          obtain rfl := List.mem_singleton.mp hd
          rw [hr]
          simpa using fun heq => hx' heq.symm
        rw [hobs] at hx
        exact hlisted _ (hkeep _ (h.listed x hx
          ⟨hp.live, hp.unlinked, hnewest.symm.trans hp.ambiguous⟩))

/-- **Ingesting** lists whom it leaves pending. -/
theorem Database.WellDecided.ingest {s : Store Database} (h : s.db.WellDecided)
    (row : TransactionObservationsRow) (shouldReconcile : Bool) (now : Int) :
    ((Op.ingest row shouldReconcile).run now s).db.WellDecided := by
  cases Op.ingest_effect row shouldReconcile now s with
  | unchanged hdb => rwa [hdb]
  | stored hins => exact (h.insertObservation hins).1
  | acted db₁ i dt d hins hinst _ hact =>
    have hrow : row ∈ db₁.observations := by
      obtain ⟨-, -, -, T, hT, rfl⟩ := Database.insertObservation_eq_ok.mp hins
      exact (Table.mem_of_insert? hT).mpr (.inr rfl)
    exact (h.insertObservation hins).1.acted hact hrow rfl (by rw [hinst]; rfl)

/-! ## runs -/

/-- **The review queue loses nobody**, in every run in which closing a cluster
leaves nobody waiting unlisted. -/
theorem pending_observations_listed {s : Store Database} (h : Reachable ClosesNoOther s) :
    s.db.PendingListed := by
  refine ((h.invariant (I := Database.WellDecided) ?_ ?_).2).listed
  · intro s h₀
    have hnone : ∀ o, o ∉ s.db.observations := by
      rw [h₀.empty.observations]
      exact Table.not_mem_empty
    have hdec : ∀ d, d ∉ s.db.matchDecisions := by
      rw [h₀.empty.matchDecisions]
      exact Table.not_mem_empty
    exact ⟨fun d hd => absurd hd (hdec d), fun o ho => absurd ho (hnone o),
      fun o ho => absurd ho (hnone o)⟩
  · intro s op now hfresh hI hop
    cases op with
    | ingest row shouldReconcile => exact hI.ingest row shouldReconcile now
    | resolve clusterId obsId action chosen => exact hI.resolve hfresh hop now
    | unmerge clusterId =>
      simp only [Op.run, unmerge_quiet]
      exact hI.unmerge clusterId

omit [Extern] in
/-- A purchase held back, set aside for later, and at last matched by hand. -/
theorem pending_observations_listed_deferred :
    letI := Extern.ascii
    (runAll firstLedger (ambiguousRun ++
      [(1004, .resolve "uuuuuu-" "o3" "mark_unresolved" none),
        (1005, .resolve "uuuuuu-" "o3" "confirm_match" (some "-"))])).db.PendingListed := by
  let := Extern.ascii
  refine pending_observations_listed (reachable_runAll initial_firstLedger.reachable ?_)
  refine ⟨trivial, trivial, trivial, ?_, ?_, trivial⟩
  · intro hcloses
    exact absurd hcloses (by decide)
  · intro _
    decide +kernel

omit [Extern] in
/-- Two purchases wait in one cluster; confirming a match for the one strands
the other. -/
theorem confirming_strands_the_other :
    letI := Extern.ascii
    ∃ s, Reachable (fun _ _ => True) s ∧ ¬ s.db.PendingListed := by
  let := Extern.ascii
  refine ⟨runAll firstLedger (ambiguousRun ++
    [(1004, .ingest (purchase "o4" 1000 none) true),
      (1005, .resolve "uuuuuu-" "o3" "confirm_match" (some "-"))]),
    reachable_runAll initial_firstLedger.reachable ?_, by decide +kernel⟩
  exact ⟨trivial, trivial, trivial, trivial, trivial, trivial⟩

end Dinero
