import Telemetry.Metric.Json
import Telemetry.Proofs.Json.Container
import Telemetry.Proofs.Json.Spelling

/-!
# What a document says of a metric

A document has no spelling for a number that is not finite, so a metric reads
back without such a value and otherwise as it was, provided that its value is
one that reads back.
-/

namespace Telemetry

open Json

namespace Metric

/-- What a document says of a metric. -/
def documented (m : Metric) : Metric :=
  { m with value := m.value.filter (·.isFinite) }

/-- The value of a metric, if it is finite, reads back. -/
def HasReadableValue (m : Metric) : Prop :=
  ∀ v, m.value = some v → v.isFinite = true → Readable v

/-- The value of a metric, if it has one, is a number that reads back. -/
def Legible (m : Metric) : Prop :=
  ∀ v, m.value = some v → Readable v

theorem Legible.hasReadableValue {m : Metric} (h : m.Legible) :
    m.HasReadableValue :=
  fun v hv _ => h v hv

theorem ofName_name (k : Kind) : Kind.ofName k.name = k := by
  cases k <;> decide

theorem reads_kind (k : Kind) : Reads readKind (writeText k.name) k := by
  intro rest p _
  obtain ⟨q, hq⟩ := readText_writeText k.name (p.after quoteByte) rest
  refine ⟨q, ?_⟩
  rw [writeText_eq_cons, List.cons_append]
  have hobject : Cursor.sees ⟨quoteByte :: ((writeText k.name).tail ++ rest),
      p⟩ 0x7B = false :=
    rfl
  have hquote :
    Cursor.sees ⟨quoteByte :: ((writeText k.name).tail ++ rest), p⟩ quoteByte =
    true := rfl
  simp only [readKind,
    skipSpace_cons (by decide : Cursor.isSpace quoteByte = false), hobject,
    hquote, if_true, Bool.false_eq_true, if_false, Cursor.advance, hq, bind,
    Except.bind, pure, Except.pure, ofName_name]

/-- A value is read as it was when it is finite, and as absent otherwise. -/
theorem reads_value {v : Binary64} (h : v.isFinite = true → Readable v) :
    Reads (Cursor.optional Cursor.real) (writeReal v)
      ((some v).filter (·.isFinite)) := by
  by_cases hfinite : v.isFinite = true
  · have hreads :=
      ((h hfinite).reads hfinite).optional (starts_writeReal hfinite)
    simpa [Option.filter, hfinite] using hreads
  · have hnull : writeReal v = [0x6E, 0x75, 0x6C, 0x6C] := by
      simp [writeReal, hfinite]
    rw [hnull]
    simpa [Option.filter, hfinite] using reads_null Cursor.real

/-! ## Fields -/

theorem literal_id :
    literal "\x7b\"id\":" = 0x7B :: (writeText "id" ++ [0x3A]) := by decide

theorem literal_type :
    literal ",\"type\":" = 0x2C :: (writeText "type" ++ [0x3A]) := by decide

theorem literal_delta :
    literal ",\"delta\":" = 0x2C :: (writeText "delta" ++ [0x3A]) := by
  decide

theorem literal_value :
    literal ",\"value\":" = 0x2C :: (writeText "value" ++ [0x3A]) := by
  decide

namespace Fields

theorem step_id {bytes : Bytes} {id : String}
    (h : Reads (·.text "a string") bytes id) {f : Fields} (hnew : f.id = .none)
    {rest : Bytes} (hrest : Delimited rest) (p : Position) :
    ∃ q, f.step "id" ⟨0x3A :: bytes ++ rest, p⟩ =
      .ok ({ f with id := some id }, ⟨rest, q⟩) := by
  obtain ⟨q, hq⟩ := h.member "id" hrest p
  refine ⟨q, ?_⟩
  simp only [step, hnew, hq, if_true, bind, Except.bind, pure, Except.pure]

theorem step_type {bytes : Bytes} {kind : Kind} (h : Reads readKind bytes kind)
    {f : Fields} (hnew : f.kind = .none) {rest : Bytes} (hrest : Delimited rest)
    (p : Position) :
    ∃ q, f.step "type" ⟨0x3A :: bytes ++ rest, p⟩ =
      .ok ({ f with kind := some kind }, ⟨rest, q⟩) := by
  obtain ⟨q, hq⟩ := h.member "type" hrest p
  refine ⟨q, ?_⟩
  simp only [step, hnew, hq, (by decide : "type" ≠ "id"), if_true, if_false,
    bind, Except.bind, pure, Except.pure]

theorem step_delta {bytes : Bytes} {delta : Option Int64}
    (h : Reads (Cursor.optional Cursor.int64) bytes delta) {f : Fields}
    (hnew : f.delta = .none) {rest : Bytes} (hrest : Delimited rest)
    (p : Position) :
    ∃ q, f.step "delta" ⟨0x3A :: bytes ++ rest, p⟩ =
      .ok ({ f with delta := some delta }, ⟨rest, q⟩) := by
  obtain ⟨q, hq⟩ := h.member "delta" hrest p
  refine ⟨q, ?_⟩
  simp only [step, hnew, hq, (by decide : "delta" ≠ "id"),
    (by decide : "delta" ≠ "type"), if_true, if_false, bind, Except.bind, pure,
    Except.pure]

theorem step_value {bytes : Bytes} {value : Option Binary64}
    (h : Reads (Cursor.optional Cursor.real) bytes value) {f : Fields}
    (hnew : f.value = .none) {rest : Bytes} (hrest : Delimited rest)
    (p : Position) :
    ∃ q, f.step "value" ⟨0x3A :: bytes ++ rest, p⟩ =
      .ok ({ f with value := some value }, ⟨rest, q⟩) := by
  obtain ⟨q, hq⟩ := h.member "value" hrest p
  refine ⟨q, ?_⟩
  simp only [step, hnew, hq, (by decide : "value" ≠ "id"),
    (by decide : "value" ≠ "type"), (by decide : "value" ≠ "delta"), if_true,
    if_false, bind, Except.bind, pure, Except.pure]

/-- The optional fields of a metric as members of its object. -/
theorem members_optional {m : Metric} (h : m.HasReadableValue) (id : String)
    (kind : Kind) :
    Json.Members Fields.step false ⟨some id, some kind, .none, .none⟩
      (writeOptional ",\"delta\":" writeInt64 m.delta ++
        writeOptional ",\"value\":" writeReal m.value)
      ⟨some id, some kind, m.delta.map some,
        m.value.map fun v => (some v).filter (·.isFinite)⟩ := by
  have hvalue (delta : Option (Option Int64)) :
      Json.Members Fields.step false ⟨some id, some kind, delta, .none⟩
        (writeOptional ",\"value\":" writeReal m.value)
        ⟨some id, some kind, delta, m.value.map fun v =>
          (some v).filter (·.isFinite)⟩ := by
    cases hv : m.value with
    | none => exact .nil false _
    | some v =>
        have hbytes : writeOptional ",\"value\":" writeReal (some v) =
            separator false ++ writeText "value" ++ 0x3A :: writeReal v ++
              [] := by
          simp [writeOptional, literal_value, separator]
        rw [hbytes]
        exact .cons (fun rest p hrest =>
          step_value (reads_value (h v hv)) rfl hrest p) (.nil false _)
  cases m.delta with
  | none => exact hvalue .none
  | some d =>
      have hbytes : writeOptional ",\"delta\":" writeInt64 (some d) ++
          writeOptional ",\"value\":" writeReal m.value =
          separator false ++ writeText "delta" ++ 0x3A :: writeInt64 d ++
            writeOptional ",\"value\":" writeReal m.value := by
        simp [writeOptional, literal_delta, separator]
      rw [hbytes]
      exact .cons
        (fun rest p hrest =>
          step_delta ((reads_int64 d).optional (starts_writeInt64 d)) rfl
            hrest p)
        (hvalue _)

end Fields

/-- The fields of a metric as the members of its object. -/
theorem members_toJson {m : Metric} (h : m.HasReadableValue) :
    ∃ bytes, m.toJson = 0x7B :: bytes ++ [0x7D] ∧
      Json.Members Fields.step true Fields.none bytes
        ⟨some m.id, some m.kind, m.delta.map some,
          m.value.map fun v => (some v).filter (·.isFinite)⟩ := by
  have hkind : Json.Members Fields.step false ⟨some m.id, .none, .none, .none⟩
      (separator false ++ writeText "type" ++ 0x3A :: writeText m.kind.name ++
        (writeOptional ",\"delta\":" writeInt64 m.delta ++
          writeOptional ",\"value\":" writeReal m.value))
      ⟨some m.id, some m.kind, m.delta.map some,
        m.value.map fun v => (some v).filter (·.isFinite)⟩ :=
    .cons (fun rest p hrest => Fields.step_type (reads_kind m.kind) rfl hrest p)
      (Fields.members_optional h m.id m.kind)
  refine ⟨_, ?_,
    .cons (fun rest p hrest =>
      Fields.step_id (reads_text "a string" m.id) rfl hrest p) hkind⟩
  have hclose : literal "\x7d" = [0x7D] := by decide
  simp [toJson, literal_id, literal_type, hclose, separator]

theorem finish_documented (m : Metric) :
    Fields.finish
      ⟨some m.id, some m.kind, m.delta.map some,
        m.value.map fun v => (some v).filter (·.isFinite)⟩ =
      .ok m.documented := by
  have hdelta : (m.delta.map some).getD .none = m.delta := by
    cases m.delta <;> rfl
  have hvalue : (m.value.map fun v => (some v).filter (·.isFinite)).getD .none =
      m.value.filter (·.isFinite) := by
    cases m.value <;> rfl
  simp only [Fields.finish, hdelta, hvalue, documented]

/-- A metric reads back as what its document says of it. -/
theorem reads_toJson {m : Metric} (h : m.HasReadableValue) :
    Reads Metric.read m.toJson m.documented := by
  obtain ⟨bytes, hbytes, hmembers⟩ := members_toJson h
  intro rest p _
  obtain ⟨q, hq⟩ := hmembers.object Fields.finish (finish_documented m) rest p
  refine ⟨q, ?_⟩
  rw [hbytes]
  simp only [List.cons_append, List.append_assoc, List.nil_append] at hq ⊢
  have hlist : Cursor.sees ⟨0x7B :: (bytes ++ 0x7D :: rest), p⟩ 0x5B = false :=
    rfl
  have hobject : Cursor.sees ⟨0x7B :: (bytes ++ 0x7D :: rest), p⟩ 0x7B = true :=
    rfl
  simp only [Metric.read, token_cons (by decide : Cursor.isSpace 0x7B = false),
    hlist, hobject, hq, if_true, Bool.false_eq_true, if_false, bind,
    Except.bind]

theorem starts_toJson (m : Metric) :
    Starts m.toJson ∧ m.toJson.head? ≠ some 0x5D := by
  have hbytes : ∃ bs, m.toJson = 0x7B :: bs := by
    simp only [toJson, literal_id, List.cons_append]
    exact ⟨_, rfl⟩
  obtain ⟨bs, hbs⟩ := hbytes
  refine ⟨⟨0x7B, bs, hbs, by decide⟩, ?_⟩
  simp [hbs]

/-- A document of one metric is read as what it says of the metric. -/
theorem ofJson_toJson {m : Metric} (h : m.HasReadableValue) :
    Metric.ofJson m.toJson = .ok m.documented :=
  (reads_toJson h).document

/-! ## What the rules make of a documented metric -/

theorem documented_of_finite {m : Metric}
    (h : ∀ v, m.value = some v → v.isFinite = true) :
    m.documented = m := by
  obtain ⟨id, kind, delta, value⟩ := m
  cases value with
  | none => rfl
  | some v => simp [documented, Option.filter, h v rfl]

theorem Legible.documented_eq {m : Metric} (h : m.Legible) : m.documented = m :=
  documented_of_finite fun v hv => (h v hv).isFinite

end Metric

/-! ## Batches -/

namespace Batch

theorem joinJson_eq (batch : Batch) :
    joinJson batch = writeElements Metric.toJson true batch := by
  have hcomma : literal "," = [0x2C] := by decide
  have htail (m : Metric) (rest : Batch) :
      joinJson (m :: rest) = m.toJson ++
        writeElements Metric.toJson false rest := by
    induction rest generalizing m with
    | nil => simp [joinJson, writeElements]
    | cons n rest ih =>
        rw [joinJson, ih n, hcomma]
        · simp [writeElements, separator]
        · simp
  cases batch with
  | nil => rfl
  | cons m rest =>
      rw [htail]
      simp [writeElements, separator]

/-- A batch reads back as what its document says of its metrics. -/
theorem ofJson_toJson {batch : Batch} (h : ∀ m ∈ batch, m.HasReadableValue) :
    Batch.ofJson batch.toJson = .ok (batch.map Metric.documented) := by
  have hopen : literal "[" = [0x5B] := by decide
  have hclose : literal "]" = [0x5D] := by decide
  have hreads := reads_listOf (fun m hm => Metric.reads_toJson (h m hm))
    (fun m _ => Metric.starts_toJson m)
  rw [toJson, hopen, hclose, joinJson_eq]
  exact hreads.document

end Batch

end Telemetry
