import Telemetry.Proofs.Service
import Telemetry.Proofs.Store.Transaction
import Telemetry.Store.Backend

/-!
# A batch that failed can be sent again

A batch that fails has changed no counter, and of its gauges either none or all
have been written: its gauges are written as a whole before its counters, and
its counters as a whole or not at all.  Gauges that are written again change
nothing.  So a client may send the same batch until it succeeds, and the store
then holds what it would hold if the batch had succeeded at once.
-/

namespace Telemetry

namespace RowList

def apply : RowList → Samples → Samples
  | .gauges rows, s => s.setGauges rows
  | .counters rows, s => s.addCounters rows

theorem exists_memory (rows : RowList) (m : MemoryStore) :
    ∃ m', rows.write m = (.ok (), m') ∧ m'.samples = rows.apply m.samples := by
  cases rows with
  | gauges rows => exact MemoryStore.exists_updateGauges rows m
  | counters rows => exact MemoryStore.exists_updateCounters rows m

theorem write_eq_dispatch (rows : RowList) :
    (rows.write : StoreM Storage Unit) =
      Storage.dispatch rows.write rows.write := by
  cases rows <;> rfl

end RowList

inductive Contents where
  | samples (s : Samples)
  | tables (t : Tables)

namespace Contents

/-- The map of the gauges, none if its table does not exist. -/
def gauges : Contents → Option (NameMap Binary64)
  | .samples s => some s.gauges
  | .tables t => t.gauges

def counters : Contents → Option (NameMap TotalCell)
  | .samples s => some (s.counters.map .integer)
  | .tables t => t.counters

/-- Gauges as they are held. -/
def held : Contents → List (String × Binary64) → List (String × Binary64)
  | .samples _, gauges => gauges
  | .tables _, gauges => Tables.stored gauges

def write (rows : RowList) : Contents → Except DatabaseCause Contents
  | .samples s => .ok (.samples (rows.apply s))
  | .tables t => .tables <$> t.afterAll rows.statements

variable {c c' : Contents} {gauges : List (String × Binary64)}

theorem exists_tables {rows : RowList} {t : Tables}
    (h : (tables t).write rows = .ok c) :
    ∃ t', c = tables t' ∧ t.afterAll rows.statements = .ok t' := by
  obtain ⟨t', hall, ht'⟩ := exists_of_bind_eq_ok h
  exact ⟨t', (Except.ok.inj ht').symm, hall⟩

/-- Writing gauges is about gauges only. -/
theorem of_write_gauges (h : c.write (.gauges gauges) = .ok c') :
    c'.counters = c.counters ∧
      c'.gauges = c.gauges.map (·.insertAll (c.held gauges)) := by
  cases c with
  | samples s =>
      obtain rfl := Except.ok.inj h
      rw [RowList.apply, Samples.setGauges_eq]
      exact ⟨rfl, rfl⟩
  | tables t =>
      obtain ⟨t', rfl, hall⟩ := exists_tables h
      obtain ⟨hgauges, hcounters⟩ := Tables.of_afterAll_gaugeStatements hall
      exact ⟨hcounters, hgauges⟩

/-- Gauges that were written can be written again, which changes nothing. -/
theorem write_gauges_again (h : c.write (.gauges gauges) = .ok c') :
    c'.write (.gauges gauges) = .ok c' := by
  cases c with
  | samples s =>
      obtain rfl := Except.ok.inj h
      rw [write, RowList.apply, Samples.setGauges_eq, RowList.apply,
        Samples.setGauges_eq, NameMap.insertAll_insertAll]
  | tables t =>
      obtain ⟨t', rfl, hall⟩ := exists_tables h
      rw [write, RowList.statements, Tables.afterAll_gaugeStatements_again hall]
      rfl

end Contents

namespace Storage

def contents : Storage → Contents
  | .memory m => .samples m.samples
  | .relational r => .tables r.database.tables

/-! ## Writing lists while nothing fails by itself -/

/-- A store in a database serves as long as nothing fails by itself; one in
memory always does. -/
def Serves : Storage → Prop
  | .memory _ => True
  | .relational r => r.database.Serves

theorem exists_write (rows : RowList) {s : Storage} {c : Contents}
    (hs : s.Serves) (h : s.contents.write rows = .ok c) :
    ∃ s', rows.write s = (.ok (), s') ∧ s'.Serves ∧ s'.contents = c := by
  rw [rows.write_eq_dispatch]
  cases s with
  | memory m =>
      obtain ⟨m', hop, hsamples⟩ := rows.exists_memory m
      obtain rfl := Except.ok.inj h
      refine ⟨.memory m', ?_, trivial, congrArg Contents.samples hsamples⟩
      rw [dispatch, hop]
  | relational r =>
      obtain ⟨t, rfl, hall⟩ := Contents.exists_tables h
      obtain ⟨r', hop, htables, hserves⟩ :=
        RelationalStore.transaction_of_ok hs hall
      refine ⟨.relational r', ?_, hserves, congrArg Contents.tables htables⟩
      rw [dispatch, rows.write_eq, hop]

/-- The same store, with a database that does not fail. -/
def calmed : Storage → Storage
  | .memory m => .memory m
  | .relational r =>
    .relational { r with
      database := { r.database with
        isOpen := true
        trouble := fun _ => .none } }

theorem contents_calmed (s : Storage) : s.calmed.contents = s.contents := by
  cases s <;> rfl

theorem serves_calmed (s : Storage) : s.calmed.Serves := by
  cases s with
  | memory m => exact trivial
  | relational r => exact ⟨rfl, fun _ => rfl⟩

/-! ## Writing lists, whatever fails -/

theorem ends_relational {α : Type} {op : StoreM RelationalStore α}
    {r : RelationalStore}
    {statements : List (Tables → Except DatabaseCause Tables)}
    (h : Ends (fun r' => r'.database.tables = r.database.tables)
      (fun _ r' => r.database.tables.afterAll statements =
        .ok r'.database.tables) (op r))
    (memory : StoreM MemoryStore α) :
    Ends (fun s' => s'.contents = .tables r.database.tables)
      (fun _ s' => .tables <$> r.database.tables.afterAll statements =
        .ok s'.contents) (dispatch memory op (.relational r)) := by
  refine Ends.mapState (fun s' => s'.contents = .tables r.database.tables)
    (fun _ s' => .tables <$> r.database.tables.afterAll statements =
      .ok s'.contents) relational (h.imp ?_ ?_)
  · intro r' htables
    exact congrArg Contents.tables htables
  · intro _ r' hall
    rw [hall]
    rfl

theorem ends_write (rows : RowList) (s : Storage) :
    Ends (fun s' => s'.contents = s.contents)
      (fun _ s' => s.contents.write rows = .ok s'.contents)
      (rows.write s) := by
  cases s with
  | memory m =>
      obtain ⟨s', hrun, -, hcontents⟩ :=
        exists_write rows (s := .memory m) trivial rfl
      rw [hrun]
      exact congrArg Except.ok hcontents.symm
  | relational r =>
      rw [rows.write_eq_dispatch, rows.write_eq]
      exact ends_relational (RelationalStore.ends_transaction _ r) _

end Storage

/-! ## Batches -/

namespace Service

theorem ends_ask {σ α : Type} {op : StoreM σ α} {fails : σ → Prop}
    {succeeds : α → σ → Prop} {s : σ} (h : Ends fails succeeds (op s)) :
    Ends fails succeeds (ask op s) :=
  h.mapError _

theorem ask_updateGauges_nil :
    ask (SampleStore.updateGauges [] : StoreM Storage Unit) = pure () := by
  funext s
  cases s <;> rfl

theorem ask_updateCounters_nil :
    ask (SampleStore.updateCounters [] : StoreM Storage Unit) = pure () := by
  funext s
  cases s <;> rfl

/-- Storing skips empty lists, which the stores would leave alone as well. -/
theorem store_eq_bind (ws : List Write) :
    (store ws : ServiceM Storage Unit) =
      (do
        ask (RowList.gauges (gaugesOf ws)).write
        ask (RowList.counters (countersOf ws)).write) := by
  have hcounters : (if (countersOf ws).isEmpty = true then pure ()
      else ask (SampleStore.updateCounters (countersOf ws)) :
        ServiceM Storage Unit) =
      ask (SampleStore.updateCounters (countersOf ws)) := by
    by_cases hempty : (countersOf ws).isEmpty = true
    · rw [if_pos hempty, List.isEmpty_iff.mp hempty, ask_updateCounters_nil]
    · rw [if_neg hempty]
  rw [store, RowList.write, RowList.write]
  dsimp only
  rw [hcounters]
  by_cases hempty : (gaugesOf ws).isEmpty = true
  · rw [if_pos hempty, List.isEmpty_iff.mp hempty, ask_updateGauges_nil,
      pure_bind]
  · rw [if_neg hempty]

/-- What a store holds after writing gauges and counters. -/
def stores (ws : List Write) (c : Contents) :
    Except DatabaseCause Contents := do
  (← c.write (.gauges (gaugesOf ws))).write (.counters (countersOf ws))

theorem stores_of_gauges {ws : List Write} {c c' : Contents}
    (h : c.write (.gauges (gaugesOf ws)) = .ok c') :
    stores ws c = c'.write (.counters (countersOf ws)) := by
  rw [stores, h]
  rfl

/-- Writing everything after the gauges were written is writing everything. -/
theorem stores_again {ws : List Write} {c c' : Contents}
    (h : c.write (.gauges (gaugesOf ws)) = .ok c') :
    stores ws c' = stores ws c := by
  rw [stores_of_gauges h, stores_of_gauges (Contents.write_gauges_again h)]

/-- The store holds what it held, or that with gauges written. -/
def HalfStored (ws : List Write) (c c' : Contents) : Prop :=
  c' = c ∨ c.write (.gauges (gaugesOf ws)) = .ok c'

theorem HalfStored.stores_eq {ws : List Write} {c c' : Contents}
    (h : HalfStored ws c c') : stores ws c' = stores ws c := by
  rcases h with rfl | h
  · rfl
  · exact stores_again h

theorem ends_store (ws : List Write) (s : Storage) :
    Ends (fun s' => HalfStored ws s.contents s'.contents)
      (fun _ s' => stores ws s.contents = .ok s'.contents) (store ws s) := by
  have hgauges : Ends (fun s' => HalfStored ws s.contents s'.contents)
      (fun _ s' => s.contents.write (.gauges (gaugesOf ws)) = .ok s'.contents)
      (ask (RowList.gauges (gaugesOf ws)).write s) := by
    apply (ends_ask (Storage.ends_write _ s)).imp
    · intro s' hkept
      exact Or.inl hkept
    · intro _ s' hwritten
      exact hwritten
  rw [store_eq_bind]
  refine hgauges.bind ?_
  intro _ s' hwritten
  rw [stores_of_gauges hwritten]
  apply (ends_ask (Storage.ends_write _ s')).imp
  · intro s'' hkept
    rw [hkept]
    exact Or.inr hwritten
  · intro _ s'' hadded
    exact hadded

theorem exists_store {ws : List Write} {s : Storage} {c : Contents}
    (hs : s.Serves) (h : stores ws s.contents = .ok c) :
    ∃ s', store ws s = (.ok (), s') ∧ s'.contents = c := by
  obtain ⟨between, hgauges, hcounters⟩ := exists_of_bind_eq_ok h
  obtain ⟨s', hrun, hs', rfl⟩ := Storage.exists_write _ hs hgauges
  obtain ⟨s'', hrun', -, hs''⟩ := Storage.exists_write _ hs' hcounters
  refine ⟨s'', ?_, hs''⟩
  rw [store_eq_bind, run_bind_of_eq_ok (ask_of_ok hrun)]
  exact ask_of_ok hrun'

section Batches

variable {batch : Batch} {s s' : Storage}

theorem updateBatch_eq (h : ∀ m ∈ batch, Storable m) :
    (updateBatch batch : ServiceM Storage Nat) =
      (do
        store (batch.filterMap write?)
        return batch.length) := by
  rw [updateBatch, verify_eq_ok h, writes_eq_ok h]
  rfl

theorem ends_updateBatch (h : ∀ m ∈ batch, Storable m) (s : Storage) :
    Ends (fun s' => HalfStored (batch.filterMap write?) s.contents s'.contents)
      (fun _ s' => stores (batch.filterMap write?) s.contents = .ok s'.contents)
      (updateBatch batch s) := by
  rw [updateBatch_eq h]
  refine Ends.bind (ends_store (batch.filterMap write?) s) ?_
  intro _ s' hstores
  exact hstores

/-- A batch that succeeds breaks no rule and is stored as a whole. -/
theorem of_updateBatch_ok {n : Nat} (h : updateBatch batch s = (.ok n, s')) :
    (∀ m ∈ batch, Storable m) ∧
      stores (batch.filterMap write?) s.contents = .ok s'.contents := by
  by_cases hstorable : ∀ m ∈ batch, Storable m
  · have hends := ends_updateBatch hstorable s
    rw [h] at hends
    exact ⟨hstorable, hends⟩
  · rw [updateBatch_of_not_storable hstorable] at h
    nomatch h

/-- A batch that fails is not stored or half stored. -/
theorem of_updateBatch_error {e : ServiceError}
    (h : updateBatch batch s = (.error e, s')) :
    HalfStored (batch.filterMap write?) s.contents s'.contents := by
  by_cases hstorable : ∀ m ∈ batch, Storable m
  · have hends := ends_updateBatch hstorable s
    rw [h] at hends
    exact hends
  · rw [updateBatch_of_not_storable hstorable] at h
    exact Or.inl (congrArg Storage.contents (Prod.mk.inj h).2.symm)

theorem exists_updateBatch {c : Contents} (hstorable : ∀ m ∈ batch, Storable m)
    (h : stores (batch.filterMap write?) s.contents = .ok c) :
    ∃ s', updateBatch batch s.calmed = (.ok batch.length, s') ∧
      s'.contents = c := by
  rw [← s.contents_calmed] at h
  obtain ⟨s', hrun, hs'⟩ := exists_store s.serves_calmed h
  refine ⟨s', ?_, hs'⟩
  rw [updateBatch_eq hstorable, run_bind_of_eq_ok hrun]
  rfl

end Batches

end Service

/-! ## Sending a batch again -/

def Batch.gauges (batch : Batch) : List (String × Binary64) :=
  batch.filterMap fun m =>
    match m.kind, m.value with
    | .gauge, some value => some (m.id, value)
    | _, _ => none

namespace Service

theorem gaugesOf_filterMap_write? (batch : Batch) :
    gaugesOf (batch.filterMap write?) = batch.gauges := by
  rw [gaugesOf, List.filterMap_filterMap, Batch.gauges]
  congr 1
  funext m
  obtain ⟨id, kind, delta, value⟩ := m
  cases kind <;> cases delta <;> cases value <;> rfl

/-- Calls with the same batch that fail and a last one that succeeds.  Whatever
happens between two of them, nothing else is written. -/
inductive Resent (batch : Batch) : Storage → Storage → Prop
  | stored {s s' : Storage} {n : Nat} (h : updateBatch batch s = (.ok n, s')) :
    Resent batch s s'
  | again {s failed next s' : Storage} {e : ServiceError}
    (h : updateBatch batch s = (.error e, failed))
    (hsame : next.contents = failed.contents) (hrest : Resent batch next s') :
    Resent batch s s'

theorem Resent.stores_eq {batch : Batch} {s s' : Storage}
    (h : Resent batch s s') :
    (∀ m ∈ batch, Storable m) ∧
      stores (batch.filterMap write?) s.contents = .ok s'.contents := by
  -- by induction on the calls; a call that failed has changed nothing or
  -- written the gauges
  induction h with
  | stored h => exact of_updateBatch_ok h
  | again h hsame hrest ih =>
      rw [hsame, (of_updateBatch_error h).stores_eq] at ih
      exact ih

/-- A batch that fails changes no counter and writes all of its gauges or none.
A batch that is sent until it succeeds could have succeeded at once, and leaves
what that would have left. -/
theorem resent_as_stored_once (batch : Batch) :
    (∀ (s s' : Storage) (e : ServiceError),
      updateBatch batch s = (.error e, s') →
      s'.contents.counters = s.contents.counters ∧
        (s'.contents.gauges = s.contents.gauges ∨
          s'.contents.gauges =
            s.contents.gauges.map
              (·.insertAll (s.contents.held batch.gauges)))) ∧
      ∀ s s' : Storage, Resent batch s s' →
        (∃ (t t' : Storage) (n : Nat),
          t.contents = s.contents ∧ updateBatch batch t = (.ok n, t')) ∧
        ∀ (t t' : Storage) (n : Nat), t.contents = s.contents →
          updateBatch batch t = (.ok n, t') → s'.contents = t'.contents := by
  constructor
  · intro s s' e h
    rcases of_updateBatch_error h with hsame | hgauges
    · rw [hsame]
      exact ⟨rfl, Or.inl rfl⟩
    · rw [gaugesOf_filterMap_write?] at hgauges
      obtain ⟨hcounters, hwritten⟩ := Contents.of_write_gauges hgauges
      exact ⟨hcounters, Or.inr hwritten⟩
  · intro s s' h
    obtain ⟨hstorable, hstores⟩ := h.stores_eq
    constructor
    · obtain ⟨t', hrun, -⟩ := exists_updateBatch hstorable hstores
      exact ⟨s.calmed, t', batch.length, s.contents_calmed, hrun⟩
    · intro t t' n hsame hrun
      have honce := (of_updateBatch_ok hrun).2
      rw [hsame, hstores] at honce
      exact Except.ok.inj honce

/-- A gauge and a counter of one name. -/
def mixedBatch : Batch := [.gauge "a" ⟨0x3FF0000000000000⟩, .counter "a" 2]

def lostCommit : DatabaseError := .execute (.internal "the commit was lost")

/-- A store whose database fails to commit its second transaction, which is that
of the counters of its first batch. -/
def forgetful : Storage :=
  .relational { RelationalStore.ofTables "" .none .empty with
    database := ⟨Tables.none.migrate, true, 0, fun attempt =>
      if attempt = 1 then { Trouble.none with commit := some lostCommit }
        else .none⟩ }

theorem resent_as_stored_once_of_lost_commit :
    ∃ failed s' : Storage,
      updateBatch mixedBatch forgetful =
        (.error (.storage (.database lostCommit)), failed) ∧
      failed.contents.gauges ≠ forgetful.contents.gauges ∧
      Resent mixedBatch forgetful s' ∧
      ∀ (t t' : Storage) (n : Nat), t.contents = forgetful.contents →
        updateBatch mixedBatch t = (.ok n, t') → s'.contents = t'.contents := by
  have hfailed : updateBatch mixedBatch forgetful =
      (.error (.storage (.database lostCommit)),
        (updateBatch mixedBatch forgetful).2) := rfl
  have hstored : updateBatch mixedBatch (updateBatch mixedBatch forgetful).2 =
      (.ok 2,
        (updateBatch mixedBatch (updateBatch mixedBatch forgetful).2).2) := rfl
  have hresent := Resent.again hfailed rfl (.stored hstored)
  refine ⟨_, _, hfailed, by decide, hresent, ?_⟩
  exact ((resent_as_stored_once mixedBatch).2 _ _ hresent).2

end Service

end Telemetry
