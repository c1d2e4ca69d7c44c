import Telemetry.Proofs.Store.Relational

/-!
# Lists are written once or not at all

A list of rows is written in one transaction, which is tried again as a whole.
Whatever fails and whenever the trying is called off, each row of the list has
been written once and in order when the call succeeds, and none when it fails.
Only failures that may pass are followed by another attempt.
-/

namespace Telemetry

namespace TotalCell

/-- What a counter holds after an addition, none being a counter
that does not exist. -/
def raised (held : Option TotalCell) (delta : Int64) : TotalCell :=
  match held with
  | some cell => cell.add delta
  | none => .integer delta

end TotalCell

namespace Tables

variable {α β : Type} {write : Option β → α → β} {rows : List (String × α)}
  {row : String × α}

/-! ## Rows of a table -/

/-- Each row was written once and in order: what a table holds for a name is
what the rows of that name make of what it held.  Other names keep what they
had, and no table comes into being. -/
structure RowsWritten (write : Option β → α → β) (rows : List (String × α))
    (old new : Option (NameMap β)) : Prop where
  table : new.isSome = old.isSome
  row : ∀ name, new.bind (·.find? name) =
    (rows.filter fun row => row.1 == name).foldl
      (fun held row => some (write held row.2)) (old.bind (·.find? name))

theorem rowsWritten_nil (old : Option (NameMap β)) :
    RowsWritten write [] old old :=
  ⟨rfl, fun _ => rfl⟩

theorem RowsWritten.cons {held : NameMap β} {new : Option (NameMap β)}
    (h : RowsWritten write rows
      (some (held.insert row.1 (write (held.find? row.1) row.2))) new) :
    RowsWritten write (row :: rows) (some held) new := by
  refine ⟨h.table, fun name => (h.row name).trans ?_⟩
  simp only [Option.bind_some, NameMap.find?_insert]
  by_cases hname : row.1 = name
  · subst hname
    have hmine : (row :: rows).filter (fun other => other.1 == row.1) =
        row :: rows.filter (fun other => other.1 == row.1) :=
      List.filter_cons_of_pos (beq_self_eq_true row.1)
    rw [if_pos rfl, hmine]
    rfl
  · rw [if_neg hname, List.filter_cons_of_neg (by simpa using hname)]

/-- Statements of which each writes one row to a table and leaves the other
table alone. -/
theorem rowsWritten_of_cons {γ : Type} (table : Tables → Option (NameMap β))
    (other : Tables → γ)
    {statements : List (String × α) →
      List (Tables → Except DatabaseCause Tables)}
    (hnil : statements [] = [])
    (hcons : ∀ {t t' : Tables} {row : String × α} {rows : List (String × α)},
      t.afterAll (statements (row :: rows)) = .ok t' →
      ∃ held between, table t = some held ∧
        table between =
          some (held.insert row.1 (write (held.find? row.1) row.2)) ∧
        other between = other t ∧
        between.afterAll (statements rows) = .ok t')
    {t t' : Tables} (h : t.afterAll (statements rows) = .ok t') :
    RowsWritten write rows (table t) (table t') ∧ other t' = other t := by
  induction rows generalizing t with
  | nil =>
      rw [hnil] at h
      obtain rfl := Except.ok.inj h
      exact ⟨rowsWritten_nil _, rfl⟩
  | cons row rows ih =>
      obtain ⟨held, between, ht, hbetween, hkept, hrest⟩ := hcons h
      obtain ⟨hrows, hother⟩ := ih hrest
      rw [hbetween] at hrows
      rw [ht]
      exact ⟨hrows.cons, hother.trans hkept⟩

theorem rowsWritten_gauges {t t' : Tables} {gauges : List (String × Binary64)}
    (h : t.afterAll (gaugeStatements gauges) = .ok t') :
    RowsWritten (fun _ value => unsigned value) gauges t.gauges t'.gauges ∧
      t'.counters = t.counters := by
  refine rowsWritten_of_cons Tables.gauges Tables.counters rfl ?_ h
  intro t t' g gauges h
  obtain ⟨held, ht, -, hrest⟩ := of_afterAll_gaugeStatements_cons h
  exact ⟨held, t.putGauge held g, ht, rfl, rfl, hrest⟩

theorem of_afterAll_counterStatements_cons {t t' : Tables} {c : String × Int64}
    {counters : List (String × Int64)}
    (h : t.afterAll (counterStatements (c :: counters)) = .ok t') :
    ∃ held, t.counters = some held ∧
      { t with
        counters := some (held.insert c.1
          (TotalCell.raised (held.find? c.1) c.2)) }.afterAll
        (counterStatements counters) = .ok t' := by
  cases ht : t.counters with
  | none =>
      obtain ⟨between, hc, -⟩ := exists_of_bind_eq_ok h
      have hfails : t.upsertCounter c.1 c.2 = .error (noTable "counter") := by
        rw [upsertCounter, ht]
      dsimp only at hc
      rw [hfails] at hc
      cases hc
  | some held =>
      refine ⟨held, rfl, ?_⟩
      let total := TotalCell.raised (held.find? c.1) c.2
      have hadded : t.upsertCounter c.1 c.2 =
          .ok (total,
            { t with counters := some (held.insert c.1 total) }) := by
        rw [upsertCounter, ht]
        rfl
      rwa [afterAll_counterStatements_cons hadded] at h

theorem rowsWritten_counters {t t' : Tables} {counters : List (String × Int64)}
    (h : t.afterAll (counterStatements counters) = .ok t') :
    RowsWritten TotalCell.raised counters t.counters t'.counters ∧
      t'.gauges = t.gauges := by
  refine rowsWritten_of_cons Tables.counters Tables.gauges rfl ?_ h
  intro t t' c counters h
  obtain ⟨held, ht, hrest⟩ := of_afterAll_counterStatements_cons h
  let total := TotalCell.raised (held.find? c.1) c.2
  exact ⟨held, { t with counters := some (held.insert c.1 total) }, ht, rfl,
    rfl, hrest⟩

end Tables

namespace RelationalStore

variable {r r' : RelationalStore} {result : Except StorageError Unit}
  {statements : List (Tables → Except DatabaseCause Tables)}

/-! ## Attempts -/

/-- What a transaction comes to in the attempt after a number of others that
left the tables as they are. -/
def attempt (r : RelationalStore)
    (statements : List (Tables → Except DatabaseCause Tables)) (n : Nat) :
    Except StorageError Unit :=
  ((r.database.afterAttempts n).runTransaction statements).1.mapError .database

/-- The attempts that a transaction took: all but the last failed in a way that
may pass, and what the last one came to is the answer. -/
structure Attempted (r : RelationalStore)
    (statements : List (Tables → Except DatabaseCause Tables))
    (result : Except StorageError Unit) (r' : RelationalStore)
    (n : Nat) : Prop where
  count : r'.database.attempts = r.database.attempts + n
  bound : n ≤ r.backoff.attempts
  passing : ∀ i, i + 1 < n → ∃ e, r.attempt statements i = .error e ∧
    e.isTransient = true
  last : ∀ i, i + 1 = n → r.attempt statements i = result

/-- No attempt follows one that failed for good. -/
theorem Attempted.last_of_permanent {n i : Nat} {e : StorageError}
    (h : Attempted r statements result r' n) (hi : i < n)
    (hattempt : r.attempt statements i = .error e)
    (he : e.isTransient = false) :
    i + 1 = n ∧ result = .error e := by
  rcases Nat.lt_or_eq_of_le (Nat.succ_le_of_lt hi) with hless | heq
  · obtain ⟨e', hattempt', he'⟩ := h.passing i hless
    obtain rfl := Except.error.inj (hattempt.symm.trans hattempt')
    exact absurd (he.symm.trans he') Bool.false_ne_true
  · exact ⟨heq, (h.last i heq).symm.trans hattempt⟩

theorem exists_attempted (h : transaction statements r = (result, r')) :
    ∃ n, Attempted r statements result r' n := by
  cases statements with
  | nil =>
      obtain ⟨rfl, rfl⟩ := Prod.mk.inj h
      exact ⟨0, rfl, Nat.zero_le _, fun i hi => absurd hi (Nat.not_lt_zero _),
        fun i hi => absurd hi (Nat.succ_ne_zero i)⟩
  | cons statement rest =>
      let op (d : Database) : Except StorageError Unit × Database :=
        ((d.runTransaction (statement :: rest)).1.mapError .database,
          (d.runTransaction (statement :: rest)).2)
      have hnext :
          ∀ d e, (op d).1 = .error e → (op d).2 = d.attempted d.tables := by
        intro d e he
        rcases Database.runTransaction_cases (statement :: rest) d with
          ⟨e', hrun⟩ | ⟨after, -, hrun⟩
        · exact congrArg Prod.snd hrun
        · simp only [op, hrun] at he
          nomatch he
      obtain ⟨failures, hle, -, hfailed, hlast⟩ :=
        Backoff.exists_failures_run r.cancelled StorageError.isTransient hnext
          r.backoff.delays r.now r.database
      simp only [Database.attempted_iterate] at hfailed hlast
      let outcome :=
        r.backoff.retry r.cancelled StorageError.isTransient op r.now r.database
      have hrun :
          (outcome.result,
            { r with database := outcome.state, now := outcome.finish }) =
          (result, r') := h
      obtain ⟨hresult, rfl⟩ := Prod.mk.inj hrun
      obtain ⟨hanswer, hstate⟩ := Prod.mk.inj hlast
      refine ⟨failures + 1, ?_, Nat.succ_le_succ hle, ?_, ?_⟩
      · have hcount := Database.attempts_runTransaction (statement :: rest)
          (r.database.afterAttempts failures)
        rw [hstate] at hcount
        exact hcount
      · intro i hi
        exact hfailed i (Nat.lt_of_succ_lt_succ hi)
      · intro i hi
        obtain rfl := Nat.succ.inj hi
        exact hanswer.trans hresult

end RelationalStore

/-! ## Lists -/

inductive RowList where
  | gauges (rows : List (String × Binary64))
  | counters (rows : List (String × Int64))

namespace RowList

variable {rows : RowList} {r r' : RelationalStore}
  {result : Except StorageError Unit}

def write {σ : Type} [SampleStore σ] : RowList → StoreM σ Unit
  | .gauges rows => SampleStore.updateGauges rows
  | .counters rows => SampleStore.updateCounters rows

def statements : RowList → List (Tables → Except DatabaseCause Tables)
  | .gauges rows => Tables.gaugeStatements rows
  | .counters rows => Tables.counterStatements rows

/-- Each row was written to its table once and in order, and the other
table was left alone. -/
def Written : RowList → Tables → Tables → Prop
  | .gauges rows, t, t' =>
    Tables.RowsWritten (fun _ value => Tables.unsigned value) rows t.gauges
      t'.gauges ∧
      t'.counters = t.counters
  | .counters rows, t, t' =>
    Tables.RowsWritten TotalCell.raised rows t.counters t'.counters ∧
      t'.gauges = t.gauges

theorem write_eq (rows : RowList) :
    rows.write = RelationalStore.transaction rows.statements := by
  cases rows <;> rfl

theorem written_of_afterAll {t t' : Tables}
    (h : t.afterAll rows.statements = .ok t') :
    rows.Written t t' := by
  cases rows with
  | gauges rows => exact Tables.rowsWritten_gauges h
  | counters rows => exact Tables.rowsWritten_counters h

/-- Writing a list succeeds with all of its rows written once or fails with none
of them written, whatever fails in which attempt and whenever the trying is
called off.  There are no more attempts than the schedule has, and none after
one that failed for good. -/
theorem write_all_or_nothing (rows : RowList) (r : RelationalStore)
    (h : rows.write r = (result, r')) :
    (result = .ok () → rows.Written r.database.tables r'.database.tables) ∧
      (∀ e, result = .error e → r'.database.tables = r.database.tables) ∧
      ∃ n, r.Attempted rows.statements result r' n ∧
        ∀ i < n, ∀ e, r.attempt rows.statements i = .error e →
          e.isTransient = false →
          i + 1 = n ∧ result = .error e := by
  rw [write_eq] at h
  have hends := RelationalStore.ends_transaction rows.statements r
  rw [h] at hends
  refine ⟨?_, ?_, ?_⟩
  · rintro rfl
    exact written_of_afterAll hends
  · rintro e rfl
    exact hends
  · obtain ⟨n, hn⟩ := RelationalStore.exists_attempted h
    exact ⟨n, hn, fun i hi e => hn.last_of_permanent hi⟩

/-- A database that is busy at the second statement of the first attempt and
loses the connection when the second attempt is committed. -/
def shaky (tables : Tables) : Database :=
  ⟨tables, true, 0, fun attempt =>
    match attempt with
    | 0 =>
      { Trouble.none with
        statement := fun i =>
          if i = 1 then some (.execute (.reported (some "5") "busy"))
            else none }
    | 1 =>
      { Trouble.none with commit := some (.execute (.io "connection reset")) }
    | _ => .none⟩

/-- Additions to one counter in two of three rows, which are made once in
the third attempt. -/
theorem write_all_or_nothing_shaky :
    let tables : Tables :=
      ⟨some .empty, some (NameMap.empty.insert "a" (.integer 5))⟩
    let rows : RowList := .counters [("a", 1), ("b", 2), ("a", 3)]
    let r : RelationalStore := { RelationalStore.ofTables "" tables .empty with
      database := shaky tables }
    ∃ r', rows.write r = (.ok (), r') ∧
      r'.database.tables.counters.bind (·.find? "a") = some (.integer 9) ∧
      rows.Written tables r'.database.tables ∧
      ∃ n, r.Attempted rows.statements (.ok ()) r' n ∧ n = 3 := by
  intro tables rows r
  have h : rows.write r = (.ok (), (rows.write r).2) := rfl
  obtain ⟨hok, -, n, hn, -⟩ := write_all_or_nothing rows r h
  have hcount : 0 + n = 3 := hn.count.symm
  exact ⟨(rows.write r).2, h, rfl, hok rfl, n, hn,
    (Nat.zero_add n).symm.trans hcount⟩

end RowList

end Telemetry
