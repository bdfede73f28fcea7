import Dinero.Outcomes

/-!
# Dinero.Overlap

Candidates of open clusters.

A new cluster is only made when no open one overlaps, and the overlap query
finds every open cluster that shares a candidate.  So ingestions and
resolutions leave each transaction a candidate of at most one open cluster, and
the pending amount counts it at most once.  Reopening a cluster has no such
check: it keeps this up exactly if the cluster shares no candidate with an open
one.
-/

namespace Dinero

open Sql

/-! ## the invariant -/

/-- There is an open cluster with this id. -/
def Database.IsOpen (db : Database) (clusterId : String) : Prop :=
  ∃ c ∈ db.clusters.rows, c.id = clusterId ∧ c.clusterStatus = .open

instance (db : Database) (clusterId : String) : Decidable (db.IsOpen clusterId) := by
  unfold Database.IsOpen
  infer_instance

/-- The transaction is a candidate member of the cluster. -/
def Database.CandidateOf (db : Database) (transactionId clusterId : String) : Prop :=
  ∃ m ∈ db.clusterMembers.rows, m.clusterId = clusterId ∧
    m.canonicalTransactionId = some transactionId

instance (db : Database) (transactionId clusterId : String) :
    Decidable (db.CandidateOf transactionId clusterId) := by
  unfold Database.CandidateOf
  infer_instance

/-- No transaction is a candidate of two open clusters. -/
def Database.SingleOpen (db : Database) : Prop :=
  ∀ transactionId clusterId clusterId', db.IsOpen clusterId → db.IsOpen clusterId' →
    db.CandidateOf transactionId clusterId → db.CandidateOf transactionId clusterId' →
    clusterId = clusterId'

/-- The invariant behind it: memberships belong to known clusters, and a
cluster lists a candidate once. -/
structure Database.WellClustered (db : Database) : Prop where
  known : ∀ m ∈ db.clusterMembers, ∃ c ∈ db.clusters, c.id = m.clusterId
  once : ∀ m ∈ db.clusterMembers, ∀ m' ∈ db.clusterMembers, m.clusterId = m'.clusterId →
    m.canonicalTransactionId.isSome = true →
    m.canonicalTransactionId = m'.canonicalTransactionId → m = m'
  single : db.SingleOpen

/-- Nothing about the clusters changed but that some are no longer open. -/
theorem Database.WellClustered.of_closing {db db' : Database} (h : db.WellClustered)
    (hmembers : db'.clusterMembers = db.clusterMembers)
    (hids : db'.clusters.keys = db.clusters.keys)
    (hopen : ∀ clusterId, db'.IsOpen clusterId → db.IsOpen clusterId) : db'.WellClustered := by
  have hcand : ∀ t c, db'.CandidateOf t c ↔ db.CandidateOf t c := by
    intro t c
    unfold CandidateOf
    rw [hmembers]
  constructor
  · intro m hm
    rw [hmembers] at hm
    have hmem : m.clusterId ∈ db'.clusters.keys := by
      rw [hids]
      exact Table.mem_keys.mpr (h.known m hm)
    exact Table.mem_keys.mp hmem
  · rw [hmembers]
    exact h.once
  · intro t c c' hc hc' hm hm'
    exact h.single t c c' (hopen c hc) (hopen c' hc') ((hcand t c).mp hm) ((hcand t c').mp hm')

/-- Open clusters after a change of status. -/
theorem Database.isOpen_setClusterStatus {db : Database} {k clusterId : String}
    {status : ClusterStatus} {f : Option Int → Option Int}
    (h : (db.setClusterStatus k status f).IsOpen clusterId) :
    db.IsOpen clusterId ∨ (clusterId = k ∧ status = .open) := by
  obtain ⟨c, hc, hid, hst⟩ := h
  rcases Table.mem_modify_cases hc with ⟨hr, -⟩ | ⟨r, -, hk, rfl⟩
  · exact .inl ⟨c, hr, hid, hst⟩
  · exact .inr ⟨hid.symm.trans hk, hst⟩

/-! ## raising a cluster -/

/-- A member appended for an observation is no candidate. -/
theorem Database.WellClustered.extend {db : Database} (h : db.WellClustered)
    {c : ReconciliationClustersRow} {obsId : String} {m : ReconciliationClusterMembersRow}
    {M : Table ReconciliationClusterMembersRow} (hc : c ∈ db.clusters)
    (hm : IncomingMember c.id obsId m) (hM : db.clusterMembers.insert? m = some M) :
    ({ db with clusterMembers := M } : Database).WellClustered := by
  have hcand : ∀ x ∈ M, x.canonicalTransactionId.isSome = true → x ∈ db.clusterMembers := by
    intro x hx hsome
    rcases (Table.mem_of_insert? hM).mp hx with hx | rfl
    · exact hx
    · simp [hm.canonicalTransactionId] at hsome
  constructor
  · intro x hx
    rcases (Table.mem_of_insert? hM).mp hx with hx | rfl
    · exact h.known x hx
    · exact ⟨c, hc, hm.clusterId.symm⟩
  · intro x hx x' hx' hcl hsome heq
    exact h.once x (hcand x hx hsome) x' (hcand x' hx' (heq ▸ hsome)) hcl hsome heq
  · intro t k k' hk hk' hx hx'
    have hold : ∀ k, ({ db with clusterMembers := M } : Database).CandidateOf t k →
        db.CandidateOf t k := by
      rintro k ⟨x, hx, hcl, htx⟩
      exact ⟨x, hcand x hx (by rw [htx]; rfl), hcl, htx⟩
    exact h.single t k k' hk hk' (hold k hx) (hold k' hx')

variable [Extern]

/-- **The overlap query misses nothing**: an open cluster with a viable
candidate among its members overlaps. -/
theorem overlappingOpen_of_candidate {db : Database} {obs : IncomingObservation} {dt : Int}
    (ht : obs.eventTime.parse = some dt) {v : ScoredCandidate} (hv : v ∈ db.viable obs)
    {c : ReconciliationClustersRow} (hopen : c.clusterStatus = .open)
    (hcand : db.CandidateOf v.candidateId c.id) :
    db.overlappingOpen obs.instrumentId obs.amountMinor obs.direction dt (3 * 24 * 60 * 60) c
      = true := by
  obtain ⟨m, hm, hcl, htx⟩ := hcand
  obtain ⟨t, htw, hfind, -⟩ := Database.find_of_mem_viable hv
  obtain ⟨-, dt', hdt', hwin⟩ := Database.mem_windowRows.mp htw
  obtain rfl : dt = dt' := Option.some.inj (ht.symm.trans hdt')
  obtain ⟨hinst, hamt, -, hdir, -, bt, hbt, hlo, hhi⟩ := inWindow_iff.mp hwin
  have hmember : db.memberOverlaps obs.instrumentId obs.amountMinor obs.direction dt
      (3 * 24 * 60 * 60) m = true := by
    have hclose : (bt - dt).natAbs ≤ 3 * 24 * 60 * 60 := by omega
    simp only [Database.memberOverlaps, htx, Option.bind_some, hfind, hinst, hamt, hdir, hbt,
      Option.some_or, decide_true, Bool.true_and, Option.any_some, decide_eq_true_eq]
    exact_mod_cast hclose
  simp only [Database.overlappingOpen, hopen, decide_true, Bool.true_and, List.any_eq_true,
    Bool.and_eq_true, decide_eq_true_eq]
  exact ⟨m, hm, hcl, hmember⟩

/-- A cluster founded where no open one overlaps. -/
theorem Database.WellClustered.found {db : Database} (h : db.WellClustered)
    {obs : IncomingObservation} {dt : Int} (ht : obs.eventTime.parse = some dt)
    {c : ReconciliationClustersRow} {C : Table ReconciliationClustersRow}
    {m : ReconciliationClusterMembersRow} {ms : List ReconciliationClusterMembersRow}
    {M : Table ReconciliationClusterMembersRow}
    (hnone : ∀ c ∈ db.clusters, db.overlappingOpen obs.instrumentId obs.amountMinor
      obs.direction dt (3 * 24 * 60 * 60) c = false)
    (hC : db.clusters.insert? c = some C)
    (hm : IncomingMember c.id obs.id m) (hms : ∀ m' ∈ ms, CandidateMember c.id m')
    (hids : ms.map (·.canonicalTransactionId) = (db.viable obs).map fun v => some v.candidateId)
    (hM : M.rows = db.clusterMembers.rows ++ m :: ms) :
    ({ db with clusters := C, clusterMembers := M } : Database).WellClustered := by
  have hnew : ∀ x ∈ db.clusters, x.id ≠ c.id := (Table.insert?_eq_some.mp hC).1
  -- who has a transaction: an old member, or one of the new candidates
  have hcases : ∀ x ∈ M, x.canonicalTransactionId.isSome = true →
      (x ∈ db.clusterMembers ∧ x.clusterId ≠ c.id) ∨ (x ∈ ms ∧ x.clusterId = c.id) := by
    intro x hx hsome
    rw [Table.mem_def, hM, List.mem_append, List.mem_cons] at hx
    rcases hx with hx | rfl | hx
    · obtain ⟨r, hr, hrid⟩ := h.known x hx
      exact .inl ⟨hx, hrid ▸ hnew r hr⟩
    · simp [hm.canonicalTransactionId] at hsome
    · exact .inr ⟨hx, (hms x hx).clusterId⟩
  have hnodup : (ms.map (·.canonicalTransactionId)).Nodup := by
    rw [hids]
    have := (db.nodup_viable obs).map (Option.some_injective _)
    simpa [List.map_map, Function.comp_def] using this
  -- an old open cluster shares no candidate with the new one
  have hapart : ∀ t k, db.IsOpen k → db.CandidateOf t k → ∀ x ∈ ms,
      x.canonicalTransactionId ≠ some t := by
    rintro t k ⟨r, hr, rfl, hopen⟩ hcand x hx htx
    have hmem : some t ∈ (db.viable obs).map fun v => some v.candidateId := by
      rw [← hids, ← htx]
      exact List.mem_map_of_mem hx
    obtain ⟨v, hv, hvt⟩ := List.mem_map.mp hmem
    obtain rfl : v.candidateId = t := Option.some.inj hvt
    have hover := overlappingOpen_of_candidate ht hv hopen hcand
    rw [hnone r hr] at hover
    simp at hover
  constructor
  · intro x hx
    rw [Table.mem_def, hM, List.mem_append, List.mem_cons] at hx
    have hc : c ∈ C := (Table.mem_of_insert? hC).mpr (.inr rfl)
    rcases hx with hx | rfl | hx
    · obtain ⟨r, hr, hrid⟩ := h.known x hx
      exact ⟨r, (Table.mem_of_insert? hC).mpr (.inl hr), hrid⟩
    · exact ⟨c, hc, hm.clusterId.symm⟩
    · exact ⟨c, hc, (hms x hx).clusterId.symm⟩
  · intro x hx x' hx' hcl hsome heq
    rcases hcases x hx hsome with ⟨hold, hne⟩ | ⟨hin, hid⟩
    · rcases hcases x' hx' (heq ▸ hsome) with ⟨hold', -⟩ | ⟨-, hid'⟩
      · exact h.once x hold x' hold' hcl hsome heq
      · exact absurd (hcl.trans hid') hne
    · rcases hcases x' hx' (heq ▸ hsome) with ⟨-, hne'⟩ | ⟨hin', -⟩
      · exact absurd (hcl.symm.trans hid) hne'
      · exact List.inj_on_of_nodup_map hnodup hin hin' heq
  · -- open clusters of the new table, by whether they are the new one
    have hside : ∀ t k, ({ db with clusters := C, clusterMembers := M } : Database).IsOpen k →
        ({ db with clusters := C, clusterMembers := M } : Database).CandidateOf t k →
        (db.IsOpen k ∧ db.CandidateOf t k) ∨
          (k = c.id ∧ ∃ x ∈ ms, x.canonicalTransactionId = some t) := by
      rintro t k ⟨r, hr, hrk, hopen⟩ ⟨x, hx, hcl, htx⟩
      rcases hcases x hx (by rw [htx]; rfl) with ⟨hold, hne⟩ | ⟨hin, hid⟩
      · rcases (Table.mem_of_insert? hC).mp hr with hr | rfl
        · exact .inl ⟨⟨r, hr, hrk, hopen⟩, x, hold, hcl, htx⟩
        · exact absurd (hcl.trans hrk.symm) hne
      · exact .inr ⟨hcl.symm.trans hid, x, hin, htx⟩
    intro t k k' hk hk' hx hx'
    rcases hside t k hk hx with ⟨ho, hcand⟩ | ⟨rfl, x, hin, htx⟩
    · rcases hside t k' hk' hx' with ⟨ho', hcand'⟩ | ⟨-, x', hin', htx'⟩
      · exact h.single t k k' ho ho' hcand hcand'
      · exact absurd htx' (hapart t k ho hcand x' hin')
    · rcases hside t k' hk' hx' with ⟨ho', hcand'⟩ | ⟨rfl, -⟩
      · exact absurd htx (hapart t k' ho' hcand' x hin)
      · rfl

/-! ## steps -/

/-- Reopening meets no overlap: no candidate of the cluster is a candidate of
another open one. -/
def ReopensApart (s : Store Database) : Op → Prop
  | .unmerge clusterId => ∀ m ∈ s.db.clusterMembers.rows, ∀ m' ∈ s.db.clusterMembers.rows,
      m.clusterId = clusterId → m'.clusterId ≠ clusterId → s.db.IsOpen m'.clusterId →
      m.canonicalTransactionId.isSome = true →
      m.canonicalTransactionId ≠ m'.canonicalTransactionId
  | _ => True

theorem Database.WellClustered.ingest {s : Store Database} (h : s.db.WellClustered)
    (row : TransactionObservationsRow) (shouldReconcile : Bool) (now : Int) :
    ((Op.ingest row shouldReconcile).run now s).db.WellClustered := by
  -- storing the row does not touch the clusters
  have hstored : ∀ {db}, s.db.insertObservation row = .ok ((), db) → db.WellClustered := by
    intro db hins
    obtain ⟨_, _, _, T, _, rfl⟩ := Database.insertObservation_eq_ok.mp hins
    exact h.of_closing rfl rfl fun _ ho => ho
  cases Op.ingest_effect row shouldReconcile now s with
  | unchanged hdb => rwa [hdb]
  | stored hins => exact hstored hins
  | acted db₁ i dt d hins _ htime hact =>
    have h₁ := hstored hins
    have ht : (incomingOf row i).eventTime.parse = some dt := by simp [incomingOf, htime]
    have hlinked : ∀ {id T db'}, LinkedTo (incomingOf row i).id id now T db₁ db' →
        db'.WellClustered := by
      intro id T db' hl
      refine h₁.of_closing hl.clusterMembers (by rw [hl.clusters]) fun k hk => ?_
      unfold Database.IsOpen at hk ⊢
      rwa [hl.clusters] at hk
    cases hact with
    | merged _ _ _ _ _ _ hl _ => exact hlinked hl
    | created _ _ _ _ hl _ => exact hlinked hl
    | raised _ db₂ D hraised hdb _ =>
      have h₂ : db₂.WellClustered := by
        cases hraised with
        | extend c m M hc _ hm hM hdb₂ =>
          rw [hdb₂]
          exact h₁.extend hc hm hM
        | found c C m ms M hnone _ hC hm hms hids hM hdb₂ =>
          rw [hdb₂]
          exact h₁.found ht hnone hC hm hms hids hM
      rw [hdb]
      exact h₂.of_closing rfl rfl fun _ ho => ho

theorem Database.WellClustered.resolve {s : Store Database} (h : s.db.WellClustered)
    (clusterId obsId action : String) (chosen : Option String) (now : Int) :
    ((Op.resolve clusterId obsId action chosen).run now s).db.WellClustered := by
  -- the new status is never open, and the rest concerns the observation
  have hconcerns : ∀ {status f db'}, status ≠ .open →
      Concerns obsId (s.db.setClusterStatus clusterId status f) db' → db'.WellClustered := by
    intro status f db' hstatus hc
    refine h.of_closing hc.clusterMembers ?_ fun k hk => ?_
    · rw [hc.clusters]
      exact Table.keys_modify _ _ _
    · unfold Database.IsOpen at hk
      rw [hc.clusters] at hk
      exact (Database.isOpen_setClusterStatus hk).resolve_right fun hopen => hstatus hopen.2
  rcases resolve_cases clusterId obsId action chosen now s with hdb | hc | ⟨-, hrun⟩
  · rwa [hdb]
  · exact hconcerns (by decide) hc.concerns
  · rw [hrun]
    refine hconcerns ?_ (concerns_recordResolution clusterId obsId action chosen now
      { s with db := s.db.closed clusterId action now })
    split <;> decide

omit [Extern] in
/-- **Reopening a cluster** keeps candidates single exactly if it meets no
overlap. -/
theorem singleOpen_unmerge_iff {s : Store Database} (h : s.db.WellClustered) (clusterId : String) :
    (s.db.setClusterStatus clusterId .open fun _ => none).SingleOpen ↔
      ReopensApart s (.unmerge clusterId) := by
  have hother : ∀ {k}, s.db.IsOpen k → k ≠ clusterId →
      (s.db.setClusterStatus clusterId .open fun _ => none).IsOpen k := by
    rintro k ⟨c, hc, rfl, hopen⟩ hne
    exact ⟨c, (Table.mem_modify_of_ne hne).mpr hc, rfl, hopen⟩
  constructor
  · intro hsingle m hm m' hm' hk hne hopen hsome heq
    obtain ⟨t, ht⟩ := Option.isSome_iff_exists.mp hsome
    obtain ⟨c, hc, hid⟩ := h.known m hm
    have hself : (s.db.setClusterStatus clusterId .open fun _ => none).IsOpen clusterId :=
      ⟨_, Table.mem_modify_of_mem hc (hid.trans hk), hid.trans hk, rfl⟩
    have hsame := hsingle t clusterId m'.clusterId hself (hother hopen hne)
      ⟨m, hm, hk, ht⟩ ⟨m', hm', rfl, heq ▸ ht⟩
    exact hne hsame.symm
  · intro hapart t k k' hk hk' hx hx'
    -- two clusters, one of them just reopened
    have hcross : ∀ {k}, k ≠ clusterId → s.db.IsOpen k → s.db.CandidateOf t clusterId →
        ¬ s.db.CandidateOf t k := by
      rintro k hne hopen ⟨m, hm, hmk, hmt⟩ ⟨m', hm', rfl, hmt'⟩
      exact hapart m hm m' hm' hmk hne hopen (by rw [hmt]; rfl) (hmt.trans hmt'.symm)
    by_cases hkc : k = clusterId
    · by_cases hkc' : k' = clusterId
      · exact hkc.trans hkc'.symm
      · have hopen := (Database.isOpen_setClusterStatus hk').resolve_right fun h => hkc' h.1
        exact absurd hx' (hcross hkc' hopen (hkc ▸ hx))
    · have hopen := (Database.isOpen_setClusterStatus hk).resolve_right fun h => hkc h.1
      by_cases hkc' : k' = clusterId
      · exact absurd hx (hcross hkc hopen (hkc' ▸ hx'))
      · have hopen' := (Database.isOpen_setClusterStatus hk').resolve_right fun h => hkc' h.1
        exact h.single t k k' hopen hopen' hx hx'

omit [Extern] in
theorem Database.WellClustered.unmerge {s : Store Database} (h : s.db.WellClustered)
    {clusterId : String} (hapart : ReopensApart s (.unmerge clusterId)) :
    (s.db.setClusterStatus clusterId .open fun _ => none).WellClustered := by
  refine ⟨fun m hm => ?_, h.once, (singleOpen_unmerge_iff h clusterId).mpr hapart⟩
  have hmem : m.clusterId ∈ (s.db.setClusterStatus clusterId .open fun _ => none).clusters.keys := by
    rw [Database.setClusterStatus, Table.keys_modify]
    exact Table.mem_keys.mpr (h.known m hm)
  exact Table.mem_keys.mp hmem

/-! ## the pending amount -/

omit [Extern] in
/-- Single candidates are counted once: the join behind the pending amount
lists no transaction twice. -/
theorem Database.WellClustered.nodup_pendingMemberships {db : Database} (h : db.WellClustered) :
    (db.pendingMemberships.map (·.1.id)).Nodup := by
  have hopen : ∀ {m : ReconciliationClusterMembersRow},
      (db.clusters.find? m.clusterId).any (·.clusterStatus = .open) = true →
      db.IsOpen m.clusterId := by
    intro m hm
    obtain ⟨c, hc, hst⟩ := (Option.any_eq_true _ _).mp hm
    obtain ⟨hmem, hid⟩ := Table.find?_eq_some.mp hc
    exact ⟨c, hmem, hid, by simpa using hst⟩
  have hrows : db.clusterMembers.rows.Nodup := db.clusterMembers.nodup.of_map
  rw [pendingMemberships, List.map_flatMap, List.nodup_flatMap]
  constructor
  · intro t _
    rw [List.map_map]
    refine (hrows.filter _).map_on fun m hm m' hm' _ => ?_
    simp only [List.mem_filter, Bool.and_eq_true, decide_eq_true_eq] at hm hm'
    obtain ⟨hmem, htx, hst⟩ := hm
    obtain ⟨hmem', htx', hst'⟩ := hm'
    have hcl := h.single t.id m.clusterId m'.clusterId (hopen hst) (hopen hst')
      ⟨m, hmem, rfl, htx⟩ ⟨m', hmem', rfl, htx'⟩
    exact h.once m hmem m' hmem' hcl (by rw [htx]; rfl) (htx.trans htx'.symm)
  · have hids : db.transactions.rows.Pairwise fun t t' => t.id ≠ t'.id :=
      List.pairwise_map.mp db.transactions.nodup
    refine hids.imp fun {t t'} hne => ?_
    simp only [Function.onFun, List.map_map, List.disjoint_left, List.mem_map, Function.comp_apply]
    rintro x ⟨_, _, rfl⟩ ⟨_, _, hx⟩
    exact hne hx.symm

/-! ## runs -/

/-- **Candidates of open clusters.**  In every run that reopens clusters only
apart from open ones, each transaction is a candidate of at most one open
cluster, and the pending amount counts it at most once. -/
theorem single_open_cluster {s : Store Database} (h : Reachable ReopensApart s) :
    s.db.SingleOpen ∧ (s.db.pendingMemberships.map (·.1.id)).Nodup := by
  have hinv := (h.invariant (I := Database.WellClustered) ?_ ?_).2
  · exact ⟨hinv.single, hinv.nodup_pendingMemberships⟩
  · intro s h₀
    have hnone : ∀ m, m ∉ s.db.clusterMembers := by
      rw [h₀.empty.clusterMembers]
      exact Table.not_mem_empty
    refine ⟨fun m hm => absurd hm (hnone m), fun m hm => absurd hm (hnone m), ?_⟩
    rintro t k k' - - ⟨m, hm, -⟩
    exact absurd hm (hnone m)
  · intro s op now _ hI hop
    cases op with
    | ingest row shouldReconcile => exact hI.ingest row shouldReconcile now
    | resolve clusterId obsId action chosen => exact hI.resolve clusterId obsId action chosen now
    | unmerge clusterId =>
      simp only [Op.run, unmerge_quiet]
      exact hI.unmerge hop

omit [Extern] in
/-- A cluster rejected and reopened, with no other around. -/
theorem single_open_cluster_reopened :
    letI := Extern.ascii
    let s := runAll firstLedger (ambiguousRun ++
      [(1004, .resolve "uuuuuu-" "o3" "reject_candidate" none), (1005, .unmerge "uuuuuu-")])
    s.db.SingleOpen ∧ (s.db.pendingMemberships.map (·.1.id)).Nodup := by
  let := Extern.ascii
  refine single_open_cluster (reachable_runAll initial_firstLedger.reachable ?_)
  exact ⟨trivial, trivial, trivial, trivial, by unfold ReopensApart; decide +kernel, trivial⟩

omit [Extern] in
/-- A cluster is rejected, another purchase raises a second one over the same
candidates, and the first is reopened: each candidate is now in two open
clusters. -/
theorem reopening_lists_candidates_twice :
    letI := Extern.ascii
    ∃ s, Reachable (fun _ _ => True) s ∧ ¬ s.db.SingleOpen := by
  let := Extern.ascii
  refine ⟨runAll firstLedger (ambiguousRun ++
    [(1004, .resolve "uuuuuu-" "o3" "reject_candidate" none),
      (1005, .ingest (purchase "o4" 1000 none) true), (1006, .unmerge "uuuuuu-")]),
    reachable_runAll initial_firstLedger.reachable ?_, fun hsingle => ?_⟩
  · exact ⟨trivial, trivial, trivial, trivial, trivial, trivial, trivial⟩
  · have hsame := hsingle "-" "uuuuuu-" "uuuuuuuuuuuuu-" (by decide +kernel) (by decide +kernel)
      (by decide +kernel) (by decide +kernel)
    exact absurd hsame (by decide)

end Dinero
