import Telemetry.Store.Relational
import Telemetry.Proofs.Backoff
import Telemetry.Proofs.Store.Tables

/-!
# What a database store does to its tables

While nothing fails by itself, every operation takes one attempt and does what
its statement does.  Whatever fails, a transaction that is retried either does
all that its statements do, once, or leaves the tables as they were.
-/

namespace Telemetry

namespace Database

variable {α : Type} {d : Database} {tables tables' : Tables}
  {statements : List (Tables → Except DatabaseCause Tables)}

/-- The database after an attempt that left these tables. -/
def attempted (d : Database) (tables : Tables) : Database :=
  { d with tables, attempts := d.attempts + 1 }

/-- There are connections, and nothing fails by itself. -/
structure Serves (d : Database) : Prop where
  isOpen : d.isOpen = true
  calm : ∀ attempt, d.trouble attempt = .none

theorem Serves.attempted (h : d.Serves) (tables : Tables) :
    (d.attempted tables).Serves :=
  ⟨h.isOpen, h.calm⟩

theorem Serves.begin_eq (h : d.Serves) :
    d.begin = (.ok .none, d.attempted d.tables) := by
  rw [begin, Database.attempted, h.isOpen, h.calm]
  rfl

theorem Serves.runStatement_of_ok (h : d.Serves)
    (statement : Tables → Except DatabaseCause (α × Tables)) {a : α}
    (hstatement : statement d.tables = .ok (a, tables)) :
    d.runStatement statement = (.ok a, d.attempted tables) := by
  have htables : statement (d.attempted d.tables).tables = .ok (a, tables) :=
    hstatement
  rw [runStatement, h.begin_eq]
  simp only [htables]
  rfl

/-! ## Transactions -/

theorem runAll_calm (i : Nat)
    (statements : List (Tables → Except DatabaseCause Tables))
    (tables : Tables) :
    runAll (fun _ => none) i statements tables =
      (tables.afterAll statements).mapError .execute := by
  induction statements generalizing i tables with
  | nil => rfl
  | cons statement rest ih =>
      rw [runAll]
      cases hstatement : statement tables with
      | error cause =>
          rw [Tables.afterAll, List.foldlM_cons, hstatement]
          rfl
      | ok tables' =>
          rw [Tables.afterAll_cons hstatement]
          exact ih (i + 1) tables'

/-- Statements that all went through did what they do one after the other. -/
theorem afterAll_of_runAll {trouble : Nat → Option DatabaseError} {i : Nat}
    (h : runAll trouble i statements tables = .ok tables') :
    tables.afterAll statements = .ok tables' := by
  induction statements generalizing i tables with
  | nil =>
      rw [runAll, Except.ok.injEq] at h
      rw [h]
      rfl
  | cons statement rest ih =>
      rw [runAll] at h
      cases htrouble : trouble i with
      | some e =>
          rw [htrouble] at h
          nomatch h
      | none =>
          rw [htrouble] at h
          cases hstatement : statement tables with
          | error cause =>
              simp only [hstatement] at h
              nomatch h
          | ok after =>
              simp only [hstatement] at h
              rw [Tables.afterAll_cons hstatement]
              exact ih h

theorem Serves.runTransaction_of_ok (h : d.Serves)
    (hall : d.tables.afterAll statements = .ok tables) :
    d.runTransaction statements = (.ok (), d.attempted tables) := by
  have hrun : runAll Trouble.none.statement 0 statements
      (d.attempted d.tables).tables = .ok tables := by
    refine (runAll_calm 0 statements d.tables).trans ?_
    rw [hall]
    rfl
  rw [runTransaction, h.begin_eq]
  simp only [hrun]
  rfl

theorem begin_snd (d : Database) : d.begin.2 = d.attempted d.tables := by
  obtain ⟨tables, isOpen, attempts, trouble⟩ := d
  cases isOpen with
  | false => rfl
  | true =>
      rw [begin]
      dsimp only
      cases (trouble attempts).beginning with
      | none => rfl
      | some e => rfl

/-- A transaction takes one attempt, in which it does nothing or all that
its statements do. -/
theorem runTransaction_cases
    (statements : List (Tables → Except DatabaseCause Tables)) (d : Database) :
    (∃ e, d.runTransaction statements = (.error e, d.attempted d.tables)) ∨
      ∃ after, d.tables.afterAll statements = .ok after ∧
        d.runTransaction statements = (.ok (), d.attempted after) := by
  have hbegun := begin_snd d
  rcases hattempt : d.begin with ⟨attempt, begun⟩
  obtain rfl : begun = d.attempted d.tables := by
    rw [hattempt] at hbegun
    exact hbegun
  rw [runTransaction, hattempt]
  cases attempt with
  | error e => exact .inl ⟨e, rfl⟩
  | ok trouble =>
      dsimp only
      cases hrun :
        runAll trouble.statement 0 statements (d.attempted d.tables).tables with
      | error e => exact .inl ⟨e, rfl⟩
      | ok after =>
          cases trouble.commit with
          | some e => exact .inl ⟨e, rfl⟩
          | none => exact .inr ⟨after, afterAll_of_runAll hrun, rfl⟩

theorem attempts_runTransaction
    (statements : List (Tables → Except DatabaseCause Tables)) (d : Database) :
    (d.runTransaction statements).2.attempts = d.attempts + 1 := by
  rcases runTransaction_cases statements d with ⟨e, hrun⟩ | ⟨after, -, hrun⟩
  · rw [hrun]
    rfl
  · rw [hrun]
    rfl

/-- A transaction does all that its statements do or nothing. -/
theorem ends_runTransaction
    (statements : List (Tables → Except DatabaseCause Tables))
    (htables : d.tables = tables) :
    Ends (fun d' => d'.tables = tables)
      (fun () d' => tables.afterAll statements = .ok d'.tables)
      (d.runTransaction statements) := by
  subst htables
  rcases runTransaction_cases statements d with ⟨e, hrun⟩ | ⟨after, hall, hrun⟩
  · rw [hrun]
    exact rfl
  · rw [hrun]
    exact hall

def afterAttempts (d : Database) (n : Nat) : Database :=
  { d with attempts := d.attempts + n }

theorem attempted_iterate (d : Database) (n : Nat) :
    (fun d : Database => d.attempted d.tables)^[n] d = d.afterAttempts n := by
  induction n with
  | zero => rfl
  | succ n ih =>
      rw [Function.iterate_succ_apply', ih]
      rfl

end Database

namespace RelationalStore

variable {α : Type} {r r' : RelationalStore} {tables : Tables} {name : String}

def attempted (r : RelationalStore) (tables : Tables) : RelationalStore :=
  { r with database := r.database.attempted tables }

theorem retry_of_ok {op : Database → Except StorageError α × Database} {a : α}
    {d : Database} (h : op r.database = (.ok a, d)) :
    retry op r = (.ok a, { r with database := d }) := by
  rw [retry, Backoff.retry, Backoff.run_of_ok h]

theorem retry_of_final {op : Database → Except StorageError α × Database}
    {e : StorageError} {d : Database} (h : op r.database = (.error e, d))
    (hfinal : e.isTransient = false) :
    retry op r = (.error e, { r with database := d }) := by
  rw [retry, Backoff.retry, Backoff.run_of_final h hfinal]

/-! ## Operations while nothing fails by itself -/

section Calm

variable (h : r.database.Serves)

include h

theorem statement_of_ok (run : Tables → Except DatabaseCause (α × Tables))
    {a : α} (hrun : run r.database.tables = .ok (a, tables)) :
    statement run r = (.ok a, r.attempted tables) := by
  apply retry_of_ok
  rw [h.runStatement_of_ok run hrun]
  rfl

theorem query_of_ok {run : Tables → Except DatabaseCause α} {a : α}
    (hrun : run r.database.tables = .ok a) :
    query run r = (.ok a, r.attempted r.database.tables) := by
  apply statement_of_ok h fun tables => (·, tables) <$> run tables
  rw [hrun]
  rfl

theorem lookup_of_ok (kind : Kind) (name : String)
    (run : Tables → Except DatabaseCause (Option α)) {found : Option α}
    (hrun : run r.database.tables = .ok found) :
    lookup kind name run r =
      (found.elim (.error (.notFound kind name)) .ok,
        r.attempted r.database.tables) := by
  have hstatement :
      r.database.runStatement (fun tables => (·, tables) <$> run tables) =
      (.ok found, r.database.attempted r.database.tables) := by
    apply h.runStatement_of_ok
    rw [hrun]
    rfl
  cases found with
  | some a =>
      apply retry_of_ok
      rw [hstatement]
  | none =>
      refine retry_of_final ?_ rfl
      rw [hstatement]

theorem updateCounter_of_ok {delta total : Int64}
    (hrun : r.database.tables.upsertCounter name delta =
      .ok (.integer total, tables)) :
    updateCounter name delta r = (.ok total, r.attempted tables) := by
  apply retry_of_ok
  rw [h.runStatement_of_ok _ hrun]
  rfl

theorem transaction_of_ok
    {statements : List (Tables → Except DatabaseCause Tables)}
    (hall : r.database.tables.afterAll statements = .ok tables) :
    ∃ r', transaction statements r = (.ok (), r') ∧
      r'.database.tables = tables ∧
      r'.database.Serves := by
  cases statements with
  | nil => exact ⟨r, rfl, Except.ok.inj hall, h⟩
  | cons statement rest =>
      refine ⟨r.attempted tables, ?_, rfl, h.attempted tables⟩
      apply retry_of_ok
      rw [h.runTransaction_of_ok hall]
      rfl

end Calm

theorem of_start (h : start r = (.ok (), r')) :
    r.database.isOpen = true ∧ r' = r.changeTables Tables.migrate := by
  by_cases hopen : r.database.isOpen = true
  · have hping : ping r = (.ok (), r) := if_pos hopen
    rw [start, run_bind_of_eq_ok hping] at h
    exact ⟨hopen, (Prod.mk.inj h).2.symm⟩
  · have hping : ping r = (.error (.database .acquireClosed), r) := if_neg hopen
    rw [start, run_bind_of_eq_error hping] at h
    nomatch h

/-! ## Transactions whatever fails -/

theorem ends_retry {op : Database → Except StorageError α × Database}
    (fails : Database → Prop) (succeeds : α → Database → Prop)
    (hop : ∀ d, fails d → Ends fails succeeds (op d)) (hr : fails r.database) :
    Ends (fun r' => fails r'.database) (fun a r' => succeeds a r'.database)
      (retry op r) := by
  let keep (d : Database) : RelationalStore :=
    { r with
      database := d
      now :=
        (r.backoff.retry r.cancelled StorageError.isTransient op r.now
          r.database).finish }
  exact Ends.mapState (fun r' => fails r'.database)
    (fun a r' => succeeds a r'.database) keep
    (Backoff.ends_run hop r.backoff.delays r.now hr)

theorem ends_transaction
    (statements : List (Tables → Except DatabaseCause Tables))
    (r : RelationalStore) :
    Ends (fun r' => r'.database.tables = r.database.tables)
      (fun () r' => r.database.tables.afterAll statements =
        .ok r'.database.tables) (transaction statements r) := by
  cases statements with
  | nil => exact rfl
  | cons statement rest =>
      refine ends_retry (fun d => d.tables = r.database.tables)
        (fun _ d => r.database.tables.afterAll (statement :: rest) =
          .ok d.tables) ?_ rfl
      intro d hd
      exact (Database.ends_runTransaction (statement :: rest) hd).mapError _

end RelationalStore

end Telemetry
