import Telemetry.Metric.Protobuf
import Telemetry.Proofs.Protobuf.Wire
import Telemetry.Proofs.Result

/-!
# Reading back messages

A message is a sequence of fields, each of which fills in what was left blank.
Reading the messages of a batch gives the batch, whatever its metrics hold.
-/

namespace Telemetry

open Protobuf

namespace Metric

/-! ## Fields -/

theorem readKey_key (f : Field) (rest : Bytes) :
    readKey (.ofBytes (f.key ++ rest)) =
      .ok (f.tag, f.wire, .ofBytes rest) := by
  cases f <;> rfl

theorem readField_key {f : Field} {m m' : Metric} {payload rest : Bytes}
    (h : readPayload f m (.ofBytes (payload ++ rest)) =
      .ok (m', .ofBytes rest)) :
    m.readField (.ofBytes (f.key ++ payload ++ rest)) =
      .ok (m', .ofBytes rest) := by
  have htag : Field.ofTag? f.tag = some f := by cases f <;> rfl
  have hexpect : expect f.wire f.wire = .ok () := if_pos rfl
  unfold readField
  rw [List.append_assoc, readKey_key]
  simp only [bind, Except.bind, mapError_ok, htag, hexpect, h]

/-- Reading fields one after the other turns a metric into another. -/
inductive Fills : Metric → Bytes → Metric → Prop where
  | done (m : Metric) : Fills m [] m
  | field {m m' m'' : Metric} {part bytes : Bytes} (nonempty : part ≠ [])
      (read : ∀ rest,
        m.readField (.ofBytes (part ++ rest)) = .ok (m', .ofBytes rest))
      (others : Fills m' bytes m'') : Fills m (part ++ bytes) m''

theorem Fills.append {m m' m'' : Metric} {a b : Bytes} (ha : Fills m a m')
    (hb : Fills m' b m'') : Fills m (a ++ b) m'' := by
  induction ha with
  | done m => exact hb
  | field nonempty read others ih =>
      rw [List.append_assoc]
      exact .field nonempty read (ih hb)

theorem Fills.of_readPayload {f : Field} {m m' : Metric} {payload : Bytes}
    (h : ∀ rest, readPayload f m (.ofBytes (payload ++ rest)) =
      .ok (m', .ofBytes rest)) :
    Fills m (f.key ++ payload) m' := by
  have hkey : f.key ++ payload ≠ [] :=
    List.append_ne_nil_of_left_ne_nil (writeVarint_ne_nil _) _
  rw [← List.append_nil (f.key ++ payload)]
  exact .field hkey (fun rest => readField_key (h rest)) (.done m')

theorem Fills.readFields {m m' : Metric} {bytes : Bytes} (h : Fills m bytes m')
    {fuel : Nat} (hfuel : bytes.length < fuel) (rest : Bytes) :
    Metric.readFields rest.length fuel m (.ofBytes (bytes ++ rest)) =
      .ok (m', .ofBytes rest) := by
  induction h generalizing fuel with
  | done m =>
      obtain ⟨fuel, rfl⟩ :=
        Nat.exists_eq_succ_of_ne_zero (Nat.ne_zero_of_lt hfuel)
      exact if_pos (Nat.le_refl rest.length)
  | @field m m' m'' part bytes nonempty read others ih =>
      obtain ⟨fuel, rfl⟩ :=
        Nat.exists_eq_succ_of_ne_zero (Nat.ne_zero_of_lt hfuel)
      have hpart := List.length_pos_iff.mpr nonempty
      have hmore :
          ¬ (Input.ofBytes (part ++ (bytes ++ rest))).size ≤ rest.length := by
        simp only [Input.ofBytes, List.length_append]
        omega
      have hless : bytes.length < fuel := by
        rw [List.length_append] at hfuel
        omega
      unfold Metric.readFields
      rw [List.append_assoc, if_neg hmore, read]
      exact ih hless

/-! ## Messages -/

theorem fills_id {id : String} (h : (Utf8.encode id).length < UInt64.size) :
    Fills blank
      (if Utf8.encode id = [] then []
        else Field.id.key ++ writeVarint (Utf8.encode id).length ++
        Utf8.encode id)
      ⟨id, .unknown, none, none⟩ := by
  by_cases hnil : Utf8.encode id = []
  · obtain rfl : id = "" := Utf8.encode_injective hnil
    exact .done _
  · rw [if_neg hnil, List.append_assoc]
    refine Fills.of_readPayload fun rest => ?_
    simp only [readPayload, List.append_assoc, readVarint_writeVarint h, bind,
      Except.bind, Input.split?_append, Utf8.decode?_encode]
    rfl

theorem fills_kind (id : String) (kind : Kind) :
    Fills ⟨id, .unknown, none, none⟩
      (if kind.code = 0 then [] else Field.kind.key ++ writeVarint kind.code)
      ⟨id, kind, none, none⟩ := by
  have hcode : kind.code < UInt64.size := by cases kind <;> decide
  have hkind : Kind.ofCode (kind.code % UInt32.size) = kind := by
    cases kind <;> rfl
  by_cases hzero : kind.code = 0
  · obtain rfl : kind = .unknown := by
      cases kind <;> first | rfl | nomatch hzero
    exact .done _
  · rw [if_neg hzero]
    refine Fills.of_readPayload fun rest => ?_
    simp only [readPayload, readVarint_writeVarint hcode, bind,
      Except.bind, hkind]
    rfl

theorem fills_value (id : String) (kind : Kind) (value : Option Binary64) :
    Fills ⟨id, kind, none, none⟩
      (match value with
        | none => []
        | some v => Field.value.key ++ writeFixed64 v.bits)
      ⟨id, kind, none, value⟩ := by
  cases value with
  | none => exact .done _
  | some v =>
      refine Fills.of_readPayload fun rest => ?_
      have hsplit := Input.split?_append (writeFixed64 v.bits) rest
      rw [length_writeFixed64] at hsplit
      simp only [readPayload, hsplit, readFixed64_writeFixed64]

theorem fills_delta (id : String) (kind : Kind) (value : Option Binary64)
    (delta : Option Int64) :
    Fills ⟨id, kind, none, value⟩
      (match delta with
        | none => []
        | some d => Field.delta.key ++ writeVarint (zigzag d))
      ⟨id, kind, delta, value⟩ := by
  cases delta with
  | none => exact .done _
  | some d =>
      refine Fills.of_readPayload fun rest => ?_
      simp only [readPayload, readVarint_writeVarint (zigzag_lt d), bind,
        Except.bind, unzigzag_zigzag]
      rfl

/-- The fields of a metric fill in everything that is blank. -/
theorem fills_messageBody {m : Metric}
    (h : m.messageBody.length < UInt64.size) :
    Fills blank m.messageBody m := by
  have hid : (Utf8.encode m.id).length < UInt64.size := by
    refine Nat.lt_of_le_of_lt ?_ h
    by_cases hnil : Utf8.encode m.id = []
    · rw [hnil]
      exact Nat.zero_le _
    · simp only [messageBody, if_neg hnil, List.length_append]
      omega
  have hkind := (fills_id hid).append (fills_kind m.id m.kind)
  have hvalue := hkind.append (fills_value m.id m.kind m.value)
  exact hvalue.append (fills_delta m.id m.kind m.value m.delta)

theorem ofMessage_toMessage {m : Metric}
    (h : m.messageBody.length < UInt64.size) (rest : Bytes) :
    ofMessage (.ofBytes (m.toMessage ++ rest)) = .ok (m, .ofBytes rest) := by
  have hfields := (fills_messageBody h).readFields (Nat.lt_succ_self _) rest
  have hleft :
    (Input.ofBytes (m.messageBody ++ rest)).size - m.messageBody.length =
      rest.length := by
    simp [Input.ofBytes]
  have hroom : ¬ (Input.ofBytes (m.messageBody ++ rest)).size <
      m.messageBody.length := by
    simp [Input.ofBytes]
  unfold ofMessage toMessage
  dsimp only
  rw [List.append_assoc, readVarint_writeVarint h]
  simp only [bind, Except.bind, mapError_ok, if_neg hroom, hleft, hfields]
  exact if_pos rfl

end Metric

namespace Batch

/-! ## Batches -/

theorem length_le_toMessages (batch : Batch) :
    batch.length ≤ (toMessages batch).length := by
  induction batch with
  | nil => exact Nat.le_refl 0
  | cons m batch ih =>
      have hmessage : 0 < m.toMessage.length :=
        List.length_pos_iff.mpr
          (List.append_ne_nil_of_left_ne_nil (writeVarint_ne_nil _) _)
      have hsplit : toMessages (m :: batch) = m.toMessage ++ toMessages batch :=
        List.flatMap_cons
      rw [hsplit, List.length_append, List.length_cons]
      omega

theorem readMessages_nil (fuel : Nat) (acc : Batch) :
    readMessages fuel acc (.ofBytes []) = .ok acc.reverse := by
  cases fuel <;> rfl

/-- Messages are read first, whatever follows them. -/
theorem readMessages_append {batch : Batch}
    (h : ∀ m ∈ batch, m.messageBody.length < UInt64.size) (fuel : Nat)
    (acc : Batch) (rest : Bytes) :
    readMessages (batch.length + fuel) acc
      (.ofBytes (toMessages batch ++ rest)) = readMessages fuel
      (batch.reverse ++ acc) (.ofBytes rest) := by
  induction batch generalizing acc with
  | nil =>
      rw [List.length_nil, Nat.zero_add]
      rfl
  | cons m batch ih =>
      obtain ⟨hm, hbatch⟩ := List.forall_mem_cons.mp h
      have hsplit : toMessages (m :: batch) ++ rest =
          m.toMessage ++ (toMessages batch ++ rest) := by
        rw [← List.append_assoc]
        rfl
      have hmore :
          ¬ (Input.ofBytes (m.toMessage ++ (toMessages batch ++ rest))).size =
          0 := by
        intro hsize
        have hnil :=
          List.append_eq_nil_iff.mp (List.eq_nil_of_length_eq_zero hsize)
        exact writeVarint_ne_nil _ (List.append_eq_nil_iff.mp hnil.1).1
      rw [hsplit, List.length_cons, Nat.succ_add, readMessages, if_neg hmore,
        Metric.ofMessage_toMessage hm]
      refine (ih hbatch (m :: acc)).trans ?_
      rw [List.reverse_cons, List.append_assoc]
      rfl

/-- After the messages there is fuel left for what follows them. -/
theorem ofMessages_append {batch : Batch}
    (h : ∀ m ∈ batch, m.messageBody.length < UInt64.size) (rest : Bytes) :
    ∃ fuel, ofMessages (toMessages batch ++ rest) =
      readMessages (fuel + 1) batch.reverse (.ofBytes rest) := by
  -- every message takes a byte at least, and there is as much fuel as there are
  -- bytes
  have hlength := length_le_toMessages batch
  have hfuel : (toMessages batch ++ rest).length + 1 =
      batch.length +
        ((toMessages batch ++ rest).length - batch.length + 1) := by
    rw [List.length_append]
    omega
  refine ⟨(toMessages batch ++ rest).length - batch.length, ?_⟩
  refine (congrArg (readMessages · [] _) hfuel).trans ?_
  rw [readMessages_append h, List.append_nil]

theorem readMessages_toMessages {batch : Batch}
    (h : ∀ m ∈ batch, m.messageBody.length < UInt64.size) {fuel : Nat}
    (hfuel : (toMessages batch).length < fuel) (acc : Batch) :
    readMessages fuel acc (.ofBytes (toMessages batch)) =
      .ok (acc.reverse ++ batch) := by
  have hle : batch.length ≤ fuel :=
    Nat.le_trans (length_le_toMessages batch) (Nat.le_of_lt hfuel)
  obtain ⟨left, rfl⟩ := Nat.exists_eq_add_of_le hle
  have hread := readMessages_append h left acc []
  rw [List.append_nil] at hread
  rw [hread, readMessages_nil, List.reverse_append, List.reverse_reverse]

theorem length_messageBody_le {batch : Batch} {m : Metric} (h : m ∈ batch) :
    m.messageBody.length ≤ (toMessages batch).length := by
  have hmessage : m.messageBody.length ≤ m.toMessage.length := by
    unfold Metric.toMessage
    rw [List.length_append]
    exact Nat.le_add_left _ _
  have hpart : m.toMessage.Sublist (toMessages batch) :=
    List.sublist_flatten_of_mem (List.mem_map_of_mem h)
  exact Nat.le_trans hmessage hpart.length_le

/-- A batch is read back from its messages. -/
theorem ofMessages_toMessages {batch : Batch}
    (h : (toMessages batch).length < UInt64.size) :
    ofMessages (toMessages batch) = .ok batch :=
  readMessages_toMessages (fun _ hm =>
    Nat.lt_of_le_of_lt (length_messageBody_le hm) h) (Nat.lt_succ_self _) []

end Batch

end Telemetry
