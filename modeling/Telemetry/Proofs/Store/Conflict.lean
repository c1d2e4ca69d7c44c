import Telemetry.Proofs.Json.Number
import Telemetry.Proofs.Store.Relational

/-!
# Codes that a database reports

An embedded database reports a number: what went wrong, and the detail of it in
multiples of 256.  The code is compared as a whole, so that a lock conflict is
taken for one, and retried, only if its code has no detail.  A broken constraint
is never retried.
-/

namespace Telemetry

/-! ## Codes -/

/-- The code without its detail. -/
def primaryCode (code : Nat) : Nat := code % 256

/-- The database, or a table of it, is locked by someone else. -/
def IsLockConflict (code : Nat) : Prop :=
  primaryCode code = 5 ∨ primaryCode code = 6

def IsBrokenConstraint (code : Nat) : Prop := primaryCode code = 19

theorem toDigits_of_toString_eq {code : Nat} {text : String}
    (h : toString code = text) :
    Nat.toDigits 10 code = text.toList := by
  rw [← h]
  exact String.toList_ofList.symm

/-- A number is told by its digits. -/
theorem toString_eq_iff (code other : Nat) :
    toString code = toString other ↔ code = other := by
  refine ⟨fun h => ?_, congrArg _⟩
  have hdigits : Nat.toDigits 10 code = Nat.toDigits 10 other :=
    (toDigits_of_toString_eq h).trans (toDigits_of_toString_eq rfl).symm
  have hvalue := Nat.ofDigitChars_toDigits (n := code) (show 1 < 10 by decide)
    (Nat.le_refl 10)
  rw [hdigits, Nat.ofDigitChars_toDigits (by decide) (Nat.le_refl 10)] at hvalue
  exact hvalue.symm

/-- The digits of a number with more than one digit do not begin with a zero. -/
theorem startsWith_toString (code : Nat) :
    (toString code).startsWith "08" = false := by
  apply String.startsWith_string_eq_false_iff.mpr
  rintro ⟨rest, hrest⟩
  rw [← toDigits_of_toString_eq rfl] at hrest
  obtain ⟨b, bs, hdecimal, hzero⟩ := Json.exists_decimal_eq_cons code
  rw [Json.decimal, ← hrest] at hdecimal
  obtain ⟨hb, hbs⟩ := List.cons.inj hdecimal
  rw [(hzero hb.symm).2] at hbs
  exact absurd hbs (List.cons_ne_nil _ _)

theorem isTransientCode_toString_iff (code : Nat) :
    isTransientCode (toString code) = true ↔
      code = 5 ∨ code = 6 ∨ code = 40001 := by
  have hletter : toString code ≠ "40P01" := by
    intro h
    have hdigit : 'P'.isDigit = true := by
      apply Nat.isDigit_of_mem_toDigits (b := 10) (n := code) (by decide)
        (Nat.le_refl 10)
      rw [toDigits_of_toString_eq h]
      decide
    nomatch hdigit
  have h5 : toString code = "5" ↔ code = 5 := toString_eq_iff code 5
  have h6 : toString code = "6" ↔ code = 6 := toString_eq_iff code 6
  have hserial : toString code = "40001" ↔ code = 40001 :=
    toString_eq_iff code 40001
  simp only [isTransientCode, startsWith_toString, Bool.or_eq_true, beq_iff_eq,
    h5, h6, hserial, hletter, Bool.false_eq_true, false_or, or_false]
  rw [or_assoc, or_rotate]

/-- A statement or a query failed with the code, which is
reported in decimal. -/
inductive DatabaseError.Reports (code : Nat) : DatabaseError → Prop
  | execute (message : String) :
      Reports code (.execute (.reported (some (toString code)) message))
  | query (message : String) :
      Reports code (.query (.reported (some (toString code)) message))

namespace DatabaseError.Reports

variable {code : Nat} {e : DatabaseError}

theorem isTransient_iff (h : e.Reports code) :
    e.isTransient = true ↔ code = 5 ∨ code = 6 ∨ code = 40001 := by
  cases h with
  | execute message => exact isTransientCode_toString_iff code
  | query message => exact isTransientCode_toString_iff code

theorem isTransient_iff_of_isLockConflict (h : e.Reports code)
    (hcode : IsLockConflict code) :
    e.isTransient = true ↔ code < 256 := by
  rw [h.isTransient_iff]
  rw [IsLockConflict, primaryCode] at hcode
  omega

theorem isTransient_of_isBrokenConstraint (h : e.Reports code)
    (hcode : IsBrokenConstraint code) :
    e.isTransient = false := by
  rw [← Bool.not_eq_true, h.isTransient_iff]
  rw [IsBrokenConstraint, primaryCode] at hcode
  omega

end DatabaseError.Reports

/-! ## Attempts -/

namespace RelationalStore

variable {α : Type} {r : RelationalStore}
  {op : Database → Except StorageError α × Database}
  {e : StorageError}

/-- What becomes of an operation that the store retries. -/
def retried (op : Database → Except StorageError α × Database)
    (r : RelationalStore) : Backoff.Outcome StorageError α Database :=
  r.backoff.retry r.cancelled StorageError.isTransient op r.now r.database

theorem retry_eq (op : Database → Except StorageError α × Database)
    (r : RelationalStore) :
    retry op r = ((retried op r).result,
      { r with
        database := (retried op r).state
        now := (retried op r).finish }) := rfl

/-- The store after an attempt and the wait that follows it, with the
delays that are left. -/
def waited (op : Database → Except StorageError α × Database)
    (r : RelationalStore) (delay : Nat) (rest : List Nat) : RelationalStore :=
  { r with
    database := (op r.database).2
    now := r.now + delay
    backoff := ⟨rest⟩ }

/-- The operation is attempted once, and its failure is the answer. -/
structure FailsAtOnce (op : Database → Except StorageError α × Database)
    (r : RelationalStore) (e : StorageError) : Prop where
  calls : (retried op r).calls = [r.now]
  answer : retry op r = (.error e, { r with database := (op r.database).2 })

/-- The operation is attempted again after the first delay, unless the store is
stopped by then, and all of its attempts follow the schedule. -/
structure TriedAgain (op : Database → Except StorageError α × Database)
    (r : RelationalStore) : Prop where
  again : ∀ delay rest, r.backoff.delays = delay :: rest →
    (∀ c, r.cancelled = some c → r.now < c ∧ r.now + delay ≤ c) →
    retried op r = { retried op (waited op r delay rest) with
      calls := r.now :: (retried op (waited op r delay rest)).calls }
  follows : Backoff.Unraced r.cancelled r.backoff.delays r.now →
    ∃ m, Backoff.Follows r.cancelled StorageError.isTransient op
      r.backoff.delays r.now r.database m (retried op r)

theorem failsAtOnce_of_permanent (hfails : (op r.database).1 = .error e)
    (he : e.isTransient = false) : FailsAtOnce op r e := by
  have hcall : op r.database = (.error e, (op r.database).2) :=
    Prod.ext hfails rfl
  have hretried :
      retried op r = ⟨.error e, (op r.database).2, [r.now], r.now⟩ := by
    rw [retried, Backoff.retry, Backoff.run_of_final hcall he]
  constructor
  · rw [hretried]
  · rw [retry_eq, hretried]

theorem triedAgain_of_transient (hfails : (op r.database).1 = .error e)
    (he : e.isTransient = true) : TriedAgain op r where
  again := by
    intro delay rest hdelays hcancel
    have hfinal :
        ¬ Backoff.IsFinal StorageError.isTransient (op r.database).1 := by
      rw [hfails, Backoff.IsFinal, he]
      exact Bool.noConfusion
    have hwait : Backoff.interruption r.cancelled r.now delay = none := by
      cases hc : r.cancelled with
      | none => rfl
      | some c =>
          obtain ⟨hafter, hlate⟩ := hcancel c hc
          rw [Backoff.interruption, if_neg (Nat.not_le_of_lt hafter),
            if_neg (Nat.not_lt_of_le hlate)]
    rw [retried, Backoff.retry, hdelays, Backoff.run_of_not_isFinal hfinal,
      hwait]
    rfl
  follows := Backoff.exists_follows_run

/-- An operation whose first attempt fails with a reported code.  A lock
conflict is retried on the schedule exactly when its code has no detail, and
otherwise ends the operation at once; a broken constraint always does. -/
theorem conflict_retried_iff_no_detail {code : Nat} {error : DatabaseError}
    (hreports : error.Reports code)
    (hfails : (op r.database).1 = .error (.database error)) :
    (IsLockConflict code →
        ((StorageError.database error).isTransient = true ↔ code < 256) ∧
          (code < 256 → TriedAgain op r) ∧
            (256 ≤ code → FailsAtOnce op r (.database error))) ∧
      (IsBrokenConstraint code →
        (StorageError.database error).isTransient = false ∧
          FailsAtOnce op r (.database error)) := by
  constructor
  · intro hconflict
    have htransient : (StorageError.database error).isTransient = true ↔
        code < 256 :=
      hreports.isTransient_iff_of_isLockConflict hconflict
    refine ⟨htransient, ?_, ?_⟩
    · intro hbare
      exact triedAgain_of_transient hfails (htransient.mpr hbare)
    · intro hdetail
      apply failsAtOnce_of_permanent hfails
      rw [← Bool.not_eq_true, htransient]
      exact Nat.not_lt_of_le hdetail
  · intro hbroken
    have hpermanent : (StorageError.database error).isTransient = false :=
      hreports.isTransient_of_isBrokenConstraint hbroken
    exact ⟨hpermanent, failsAtOnce_of_permanent hfails hpermanent⟩

/-- A store whose first attempt fails with a code, and whose later ones
find nothing amiss. -/
def failingOnce (code : Nat) : RelationalStore :=
  { ofTables "" Tables.none.migrate .empty with
    database := ⟨Tables.none.migrate, true, 0, fun attempt =>
      if attempt = 0 then
        { Trouble.none with
          beginning :=
          some (.query (.reported (some (toString code)) "locked")) }
      else .none⟩ }

def attemptGauge (name : String) (value : Binary64) (d : Database) :
    Except StorageError Binary64 × Database :=
  ((d.runStatement (·.upsertGauge name value)).1.mapError .database,
    (d.runStatement (·.upsertGauge name value)).2)

theorem updateGauge_eq (name : String) (value : Binary64) :
    updateGauge name value = retry (attemptGauge name value) := rfl

/-- A busy database without detail is asked again after a second, and then a
gauge is set.  A row that is not unique is not tried again. -/
theorem conflict_retried_iff_no_detail_busy :
    let busy : DatabaseError := .query (.reported (some "5") "locked")
    let unique : DatabaseError := .query (.reported (some "2067") "locked")
    let op := attemptGauge "G" .zero
    (busy.Reports 5 ∧
      (op (failingOnce 5).database).1 = .error (.database busy) ∧
        IsLockConflict 5 ∧ TriedAgain op (failingOnce 5) ∧
        (retried op (failingOnce 5)).calls = [0, 1000] ∧
        (updateGauge "G" .zero (failingOnce 5)).1 = .ok .zero) ∧
      (unique.Reports 2067 ∧
        (op (failingOnce 2067).database).1 = .error (.database unique) ∧
        IsBrokenConstraint 2067 ∧
        FailsAtOnce op (failingOnce 2067) (.database unique)) := by
  intro busy unique op
  have hbusy : busy.Reports 5 := .query "locked"
  have hunique : unique.Reports 2067 := .query "locked"
  have hconflict : IsLockConflict 5 := .inl rfl
  have hbroken : IsBrokenConstraint 2067 := rfl
  have hbusyFails : (op (failingOnce 5).database).1 = .error (.database busy) :=
    rfl
  have huniqueFails :
      (op (failingOnce 2067).database).1 = .error (.database unique) := rfl
  have hagain : TriedAgain op (failingOnce 5) :=
    ((conflict_retried_iff_no_detail hbusy hbusyFails).1 hconflict).2.1
      (by decide)
  have honce : FailsAtOnce op (failingOnce 2067) (.database unique) :=
    ((conflict_retried_iff_no_detail hunique huniqueFails).2 hbroken).2
  exact ⟨⟨hbusy, hbusyFails, hconflict, hagain, rfl, rfl⟩, hunique,
    huniqueFails, hbroken, honce⟩

/-- A database that is busy because a snapshot is out of date is not asked
again, although another attempt would succeed. -/
theorem busy_snapshot_not_retried :
    let error : DatabaseError := .query (.reported (some "517") "locked")
    let answer := updateGauge "G" .zero (failingOnce 517)
    error.Reports 517 ∧ IsLockConflict 517 ∧
      (StorageError.database error).isTransient = false ∧
      (failingOnce 517).backoff = .standard ∧
      (failingOnce 517).cancelled = none ∧
      answer.1 = .error (.database error) ∧ answer.2.database.attempts = 1 := by
  intro error answer
  have hreports : error.Reports 517 := .query "locked"
  have hpermanent : (StorageError.database error).isTransient = false := by
    rw [← Bool.not_eq_true]
    exact mt hreports.isTransient_iff.mp (by decide)
  have hanswer : answer = (.error (.database error),
      { failingOnce 517 with
        database := (attemptGauge "G" .zero (failingOnce 517).database).2 }) :=
    (congrFun (updateGauge_eq "G" .zero) _).trans
      (retry_of_final rfl hpermanent)
  exact ⟨hreports, .inl rfl, hpermanent, rfl, rfl, congrArg Prod.fst hanswer,
    congrArg (·.2.database.attempts) hanswer⟩

end RelationalStore

end Telemetry
