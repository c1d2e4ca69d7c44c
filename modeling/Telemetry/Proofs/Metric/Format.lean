import Telemetry.Proofs.Metric.Message
import Telemetry.Proofs.Protobuf.Format

/-!
# The format of a batch

A batch is written as its schema says, and reading it back gives every metric as
it was: an id of any characters or of none, every kind, and a value and an
increment that are there or not, whatever the kind.  Values keep all of their
bits, so that a NaN stays one and the zeros stay apart.
-/

namespace Telemetry

open Protobuf

namespace Metric

/-- The fields of a metric in the schema of its messages. -/
def contents (m : Metric) : List (Nat × Content) :=
  let number := match m.kind with
    | .unknown => 0
    | .gauge => 1
    | .counter => 2
  [(1, .implicit (.string m.id)), (2, .implicit (.enumeration number)),
    (3, .explicit (m.value.map .double)), (4, .explicit (m.delta.map .sint64))]

/-- The id is as long as a text in memory can be. -/
def Addressable (m : Metric) : Prop := (Utf8.encode m.id).length < 2 ^ 63

instance (m : Metric) : Decidable m.Addressable :=
  inferInstanceAs (Decidable ((Utf8.encode m.id).length < 2 ^ 63))

theorem varint_key (f : Field) : Varint (8 * f.tag + f.wire.code) f.key := by
  have hsmall : f.tag * 8 + f.wire.code < UInt64.size := by
    cases f <;> decide
  rw [Nat.mul_comm]
  exact varint_writeVarint hsmall

/-! ## The parts of a message -/

theorem written_id {id : String} (h : (Utf8.encode id).length < UInt64.size) :
    Written [(1, .implicit (.string id))]
      (if Utf8.encode id = [] then []
        else Field.id.key ++ writeVarint (Utf8.encode id).length ++
        Utf8.encode id) := by
  by_cases hnil : Utf8.encode id = []
  · obtain rfl : id = "" := Utf8.encode_injective hnil
    exact .omitted rfl .done
  · have hid : id ≠ "" := by
      rintro rfl
      exact hnil rfl
    have hheld :
        (Content.implicit (.string id)).written? = some (.string id) := by
      simp [Content.written?, Scalar.default, hid]
    rw [if_neg hnil, List.append_assoc]
    exact .single hheld (varint_key .id) (.string (varint_writeVarint h))

theorem written_kind (kind : Kind) :
    Written [(2, .implicit (.enumeration kind.code))]
      (if kind.code = 0 then []
        else Field.kind.key ++ writeVarint kind.code) := by
  have hcode : kind.code < UInt64.size := by
    cases kind <;> decide
  by_cases hzero : kind.code = 0
  · rw [hzero]
    exact .omitted rfl .done
  · have hheld : (Content.implicit (.enumeration kind.code)).written? =
        some (.enumeration kind.code) := by
      simp [Content.written?, Scalar.default, hzero]
    rw [if_neg hzero]
    exact .single hheld (varint_key .kind)
      (.enumeration (varint_writeVarint hcode))

theorem written_value (value : Option Binary64) :
    Written [(3, .explicit (value.map .double))]
      (match value with
        | none => []
        | some v => Field.value.key ++ writeFixed64 v.bits) := by
  cases value with
  | none => exact .omitted rfl .done
  | some v =>
      exact .single rfl (varint_key .value)
        (.double (littleEndian_writeFixed64 v.bits))

theorem written_delta (delta : Option Int64) :
    Written [(4, .explicit (delta.map .sint64))]
      (match delta with
        | none => []
        | some d => Field.delta.key ++ writeVarint (zigzag d)) := by
  cases delta with
  | none => exact .omitted rfl .done
  | some d =>
      have hnumber : Varint (zigzagBits d).toNat (writeVarint (zigzag d)) := by
        rw [toNat_zigzagBits]
        exact varint_writeVarint (zigzag_lt d)
      exact .single rfl (varint_key .delta) (.sint64 hnumber)

theorem written_messageBody {m : Metric} (h : m.Addressable) :
    Written m.contents m.messageBody := by
  have hid : (Utf8.encode m.id).length < UInt64.size :=
    Nat.lt_trans h (by decide)
  have hkind := (written_id hid).append (written_kind m.kind)
  have hvalue := hkind.append (written_value m.value)
  have hall := hvalue.append (written_delta m.delta)
  obtain ⟨id, kind, delta, value⟩ := m
  cases kind <;> exact hall

theorem length_key_append_le (f : Field) {payload : Bytes}
    (h : payload.length ≤ 10) :
    (f.key ++ payload).length ≤ 20 := by
  have hkey : f.key.length ≤ 10 := length_writeVarint_le _
  rw [List.length_append]
  omega

/-- What a message holds besides its id takes a few bytes. -/
theorem length_messageBody_lt {m : Metric} (h : m.Addressable) :
    m.messageBody.length < UInt64.size := by
  have hid : (if Utf8.encode m.id = [] then []
      else Field.id.key ++ writeVarint (Utf8.encode m.id).length ++
        Utf8.encode m.id).length ≤ 2 ^ 63 + 20 := by
    have hsize :=
      length_key_append_le .id (length_writeVarint_le (Utf8.encode m.id).length)
    have hlength : (Utf8.encode m.id).length < 2 ^ 63 := h
    split
    · exact Nat.zero_le _
    · rw [List.length_append]
      omega
  have hkind : (if m.kind.code = 0 then []
      else Field.kind.key ++ writeVarint m.kind.code).length ≤ 20 := by
    split
    · exact Nat.zero_le _
    · exact length_key_append_le .kind (length_writeVarint_le _)
  have hvalue : (match m.value with
      | none => []
      | some v => Field.value.key ++ writeFixed64 v.bits).length ≤ 20 := by
    cases m.value with
    | none => exact Nat.zero_le _
    | some v =>
        exact length_key_append_le .value
          (Nat.le_trans (Nat.le_of_eq (length_writeFixed64 v.bits)) (by decide))
  have hdelta : (match m.delta with
      | none => []
      | some d => Field.delta.key ++ writeVarint (zigzag d)).length ≤ 20 := by
    cases m.delta with
    | none => exact Nat.zero_le _
    | some d => exact length_key_append_le .delta (length_writeVarint_le _)
  have hsum :=
    Nat.add_le_add (Nat.add_le_add (Nat.add_le_add hid hkind) hvalue) hdelta
  rw [messageBody, List.length_append, List.length_append, List.length_append]
  exact Nat.lt_of_le_of_lt hsum (by decide)

end Metric

namespace Batch

theorem delimited_toMessages {batch : Batch} (h : ∀ m ∈ batch, m.Addressable) :
    Delimited (batch.map Metric.contents) (toMessages batch) := by
  induction batch with
  | nil => exact .done
  | cons m batch ih =>
      have hm : m.Addressable := h m List.mem_cons_self
      have hrest := ih fun m' hm' => h m' (List.mem_cons_of_mem m hm')
      have hsize := varint_writeVarint (Metric.length_messageBody_lt hm)
      exact .message hsize (Metric.written_messageBody hm) hrest

/-- The messages of a batch have the format of the schema, and the batch is read
back from them as it was. -/
theorem toMessages_delimited_and_read_back {batch : Batch}
    (h : ∀ m ∈ batch, m.Addressable) :
    Delimited (batch.map Metric.contents) (toMessages batch) ∧
      ofMessages (toMessages batch) = .ok batch := by
  constructor
  · exact delimited_toMessages h
  · apply readMessages_toMessages
    · intro m hm
      exact Metric.length_messageBody_lt (h m hm)
    · exact Nat.lt_succ_self _

/-- A NaN without an id, a gauge with a negative zero and an increment of zero,
and the least increment. -/
theorem toMessages_of_odd_metrics :
    let batch : Batch :=
      [⟨"", .unknown, none, some .nan⟩,
        ⟨"Größe", .gauge, some 0, some Binary64.zero.negate⟩,
        ⟨Metric.pollCount, .counter, some Int64.minValue, none⟩]
    (∀ m ∈ batch, m.Addressable) ∧
      Delimited (batch.map Metric.contents) (toMessages batch) ∧
      ofMessages (toMessages batch) = .ok batch := by
  intro batch
  have h : ∀ m ∈ batch, m.Addressable := by decide
  exact ⟨h, toMessages_delimited_and_read_back h⟩

end Batch

end Telemetry
