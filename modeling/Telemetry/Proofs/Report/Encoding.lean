import Telemetry.Proofs.Metric.Document
import Telemetry.Report.Envelope

/-!
# Chunks as documents

The document of a chunk says everything about it, so that the chunk is read from
it and the document is written again as it was.
-/

namespace Telemetry.Encoding

open Json

/-- A chunk whose values read back is read from its document as it was, and what
is read is written as the same bytes. -/
theorem document_read_and_written {chunk : Batch} (h : ∀ m ∈ chunk, m.Legible) :
    Batch.ofJson (document.encode chunk) = .ok chunk ∧
      (Batch.ofJson (document.encode chunk)).map document.encode =
        .ok (document.encode chunk) := by
  have hread : Batch.ofJson (document.encode chunk) = .ok chunk := by
    calc
      Batch.ofJson (document.encode chunk) =
          .ok (chunk.map Metric.documented) :=
        Batch.ofJson_toJson fun m hm => (h m hm).hasReadableValue
      _ = .ok chunk := by
        rw [List.map_congr_left fun m hm => (h m hm).documented_eq,
          List.map_id']
  exact ⟨hread, by rw [hread]; rfl⟩

/-- Quotes, controls and a character beyond the basic plane in an id, the
extreme increments, a negative zero and the least positive number. -/
theorem document_read_and_written_odd :
    let chunk : Batch :=
      [⟨"\"\\\n\x00\x1F\x7F\u2028😀", .unknown, some Int64.minValue, some ⟨1⟩⟩,
        ⟨"", .gauge, none, some Binary64.zero.negate⟩,
        ⟨Metric.pollCount, .counter, some Int64.maxValue, none⟩]
    (∀ m ∈ chunk, m.Legible) ∧
      Batch.ofJson (document.encode chunk) = .ok chunk ∧
      (Batch.ofJson (document.encode chunk)).map document.encode =
        .ok (document.encode chunk) := by
  intro chunk
  have hleast : Readable ⟨1⟩ := by decide +kernel
  have hzero : Readable Binary64.zero.negate := by decide +kernel
  have h : ∀ m ∈ chunk, m.Legible := by
    simp only [chunk, Metric.Legible, List.mem_cons, List.not_mem_nil, or_false,
      forall_eq_or_imp, forall_eq, Option.some.injEq, reduceCtorEq,
      IsEmpty.forall_iff, implies_true, and_true]
    exact ⟨fun v hv => hv ▸ hleast, fun v hv => hv ▸ hzero⟩
  exact ⟨h, document_read_and_written h⟩

end Telemetry.Encoding
