import Telemetry.Proofs.Metric.Format
import Mathlib.Data.List.Infix

/-!
# Batches that are cut off

What is left of a batch when its last bytes are missing ends between two
messages or inside one.  In the first case it is read as the metrics up to
there.  In the second it is refused, because the length of the last message
breaks off or the message is shorter than its length says.
-/

namespace Telemetry

open Protobuf

namespace Protobuf

variable {n : Nat} {bytes cut : Bytes}

/-- A number that breaks off consists of bytes that say that others follow. -/
theorem Varint.unfinished (h : Varint n bytes) (hfront : cut <+: bytes)
    (hne : cut ≠ bytes) :
    ∀ b ∈ cut, 128 ≤ b.toNat := by
  induction h generalizing cut with
  | last byte small =>
      cases cut with
      | nil => exact fun b hb => nomatch hb
      | cons c cut =>
          obtain ⟨rfl, hcut⟩ := List.cons_prefix_cons.mp hfront
          rw [List.prefix_nil.mp hcut] at hne
          exact absurd rfl hne
  | @more n b bytes byte large others ih =>
      cases cut with
      | nil => exact fun b hb => nomatch hb
      | cons c cut =>
          obtain ⟨rfl, hcut⟩ := List.cons_prefix_cons.mp hfront
          have hrest : cut ≠ bytes := fun hcut => hne (congrArg (c :: ·) hcut)
          rw [List.forall_mem_cons, byte]
          exact ⟨Nat.le_add_left 128 _, ih hcut hrest⟩

theorem readGroups_of_unfinished (h : ∀ b ∈ cut, 128 ≤ b.toNat) (fuel : Nat) :
    readGroups fuel (.ofBytes cut) = none := by
  induction cut generalizing fuel with
  | nil => cases fuel <;> rfl
  | cons b cut ih =>
      cases fuel with
      | zero => rfl
      | succ fuel =>
          obtain ⟨hb, hcut⟩ := List.forall_mem_cons.mp h
          have hmore : ¬ b < 128 := by
            rw [UInt8.lt_iff_toNat_lt]
            exact Nat.not_lt_of_le hb
          simp [readGroups, Input.next?_cons, hmore, ih hcut]

theorem readVarint_of_cut (h : Varint n bytes) (hfront : cut <+: bytes)
    (hne : cut ≠ bytes) :
    readVarint (.ofBytes cut) = .error .invalidVarint := by
  rw [readVarint, readGroups_of_unfinished (h.unfinished hfront hne)]

end Protobuf

namespace Metric

variable {m : Metric} {cut : Bytes}

/-- Why the beginning of a message of some length is refused: its length breaks
off, or there are too few bytes after it. -/
def cutFault (m : Metric) (length : Nat) : Fault :=
  if length < (writeVarint m.messageBody.length).length then .invalidVarint
    else .underflow

theorem ofMessage_of_cut (h : m.messageBody.length < UInt64.size)
    (hfront : cut <+: m.toMessage) (hne : cut ≠ m.toMessage) :
    ofMessage (.ofBytes cut) = .error ⟨none, m.cutFault cut.length⟩ := by
  have hwhole : writeVarint m.messageBody.length <+: m.toMessage :=
    List.prefix_append _ _
  by_cases hlength : cut.length < (writeVarint m.messageBody.length).length
  · have hcut :=
      List.prefix_of_prefix_length_le hfront hwhole (Nat.le_of_lt hlength)
    have hshort : cut ≠ writeVarint m.messageBody.length := by
      rintro rfl
      exact Nat.lt_irrefl _ hlength
    rw [cutFault, if_pos hlength, ofMessage,
      readVarint_of_cut (varint_writeVarint h) hcut hshort]
    rfl
  · obtain ⟨part, rfl⟩ :=
      List.prefix_of_prefix_length_le hwhole hfront (Nat.le_of_not_lt hlength)
    have hpart : part <+: m.messageBody :=
      (List.prefix_append_right_inj _).mp hfront
    have hless : (Input.ofBytes part).size < m.messageBody.length := by
      refine Nat.lt_of_le_of_ne hpart.length_le fun hlengths => hne ?_
      rw [hpart.eq_of_length hlengths]
      rfl
    rw [cutFault, if_neg hlength, ofMessage, readVarint_writeVarint h]
    exact if_pos hless

end Metric

namespace Batch

variable {batch : Batch} {bytes : Bytes}

/-- Where the beginning of a batch ends: after some of its messages, or
inside the next one. -/
theorem exists_of_isPrefix (h : bytes <+: toMessages batch) :
    (∃ whole, whole <+: batch ∧ bytes = toMessages whole) ∨
      ∃ whole m part, whole ++ [m] <+: batch ∧
        bytes = toMessages whole ++ part ∧
        part <+: m.toMessage ∧ part ≠ [] ∧ part ≠ m.toMessage := by
  induction batch generalizing bytes with
  | nil => exact .inl ⟨[], List.prefix_rfl, List.prefix_nil.mp h⟩
  | cons m batch ih =>
      have hsplit : toMessages (m :: batch) = m.toMessage ++ toMessages batch :=
        List.flatMap_cons
      rw [hsplit] at h
      by_cases hmessage : m.toMessage <+: bytes
      · obtain ⟨rest, rfl⟩ := hmessage
        rcases ih ((List.prefix_append_right_inj _).mp h) with
          ⟨whole, hwhole, rfl⟩ | ⟨whole, m', part, hwhole, rfl, hpart⟩
        · exact .inl ⟨m :: whole, List.cons_prefix_cons.mpr ⟨rfl, hwhole⟩, rfl⟩
        · refine .inr ⟨m :: whole, m', part,
            List.cons_prefix_cons.mpr ⟨rfl, hwhole⟩, ?_, hpart⟩
          exact (List.append_assoc _ _ _).symm
      · by_cases hnil : bytes = []
        · exact .inl ⟨[], List.nil_prefix, hnil⟩
        · have hpart : bytes <+: m.toMessage :=
            (List.prefix_or_prefix_of_prefix h
              (List.prefix_append _ _)).resolve_right hmessage
          have hne : bytes ≠ m.toMessage :=
            fun heq => hmessage (heq ▸ List.prefix_rfl)
          have hfirst : [] ++ [m] <+: m :: batch :=
            List.cons_prefix_cons.mpr ⟨rfl, List.nil_prefix⟩
          exact .inr ⟨[], m, bytes, hfirst, rfl, hpart, hnil, hne⟩

theorem ofMessages_of_cut (h : ∀ m ∈ batch, m.messageBody.length < UInt64.size)
    {m : Metric} (hm : m.messageBody.length < UInt64.size) {part : Bytes}
    (hpart : part <+: m.toMessage) (hnil : part ≠ [])
    (hne : part ≠ m.toMessage) :
    ofMessages (toMessages batch ++ part) =
      .error ⟨none, m.cutFault part.length⟩ := by
  obtain ⟨fuel, hread⟩ := ofMessages_append h part
  have hmore : ¬ (Input.ofBytes part).size = 0 :=
    fun hsize => hnil (List.eq_nil_of_length_eq_zero hsize)
  rw [hread, readMessages, if_neg hmore, Metric.ofMessage_of_cut hm hpart hne]
  rfl

/-- The beginning of a batch that ends after some of its messages is read as the
metrics up to there.  Every other one is refused, at the length or the body of
the message that it ends in. -/
theorem ofMessages_of_isPrefix (h : ∀ m ∈ batch, m.Addressable)
    (hfront : bytes <+: toMessages batch) :
    (∀ whole, whole <+: batch → bytes = toMessages whole →
      ofMessages bytes = .ok whole) ∧
      ((∀ whole, whole <+: batch → bytes ≠ toMessages whole) →
        ∃ whole m part, whole ++ [m] <+: batch ∧
          bytes = toMessages whole ++ part ∧
          part <+: m.toMessage ∧
          ofMessages bytes = .error ⟨none, m.cutFault part.length⟩) := by
  have hshort : ∀ whole, whole <+: batch →
      ∀ m ∈ whole, m.messageBody.length < UInt64.size :=
    fun whole hwhole m hm =>
      Metric.length_messageBody_lt (h m (hwhole.subset hm))
  constructor
  · rintro whole hwhole rfl
    exact readMessages_toMessages (hshort whole hwhole) (Nat.lt_succ_self _) []
  · intro hinside
    rcases exists_of_isPrefix hfront with
      ⟨whole, hwhole, hbytes⟩ | ⟨whole, m, part, hwhole, rfl, hpart, hnil, hne⟩
    · exact absurd hbytes (hinside whole hwhole)
    · obtain ⟨hbefore, hm⟩ := List.forall_mem_append.mp (hshort _ hwhole)
      have hfault :=
        ofMessages_of_cut hbefore (hm m List.mem_cons_self) hpart hnil hne
      exact ⟨whole, m, part, hwhole, rfl, hpart, hfault⟩

/-- Two metrics, of which the second takes more bytes than one byte of
a length can say. -/
def longBatch : Batch :=
  [⟨"", .counter, some Int64.minValue, none⟩,
    ⟨String.ofList (List.replicate 130 'G'), .gauge, none, some .nan⟩]

/-- Cut after its first message, and inside the length of the second one. -/
theorem ofMessages_of_isPrefix_longBatch :
    (∀ m ∈ longBatch, m.Addressable) ∧
      (toMessages longBatch).take 14 = toMessages (longBatch.take 1) ∧
      ofMessages ((toMessages longBatch).take 14) = .ok (longBatch.take 1) ∧
      (∀ whole, whole <+: longBatch →
        (toMessages longBatch).take 15 ≠ toMessages whole) ∧
      ∃ whole m part, whole ++ [m] <+: longBatch ∧
        (toMessages longBatch).take 15 = toMessages whole ++ part ∧
          part <+: m.toMessage ∧
        ofMessages ((toMessages longBatch).take 15) =
          .error ⟨none, m.cutFault part.length⟩ := by
  have h : ∀ m ∈ longBatch, m.Addressable := by decide +kernel
  have hbetween :
      (toMessages longBatch).take 14 = toMessages (longBatch.take 1) := by
    decide +kernel
  have hinside : ∀ whole ∈ longBatch.inits,
      (toMessages longBatch).take 15 ≠ toMessages whole := by
    decide +kernel
  have hnot : ∀ whole, whole <+: longBatch →
      (toMessages longBatch).take 15 ≠ toMessages whole :=
    fun whole hwhole =>
      hinside whole ((List.mem_inits whole longBatch).mpr hwhole)
  have hread :=
    (ofMessages_of_isPrefix h (List.take_prefix 14 _)).1 _
      (List.take_prefix 1 _) hbetween
  exact ⟨h, hbetween, hread, hnot,
    (ofMessages_of_isPrefix h (List.take_prefix 15 _)).2 hnot⟩

end Batch

end Telemetry
