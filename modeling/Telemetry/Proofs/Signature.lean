import Telemetry.Signature
import Telemetry.Proofs.Text

/-!
# Signatures are accepted

The signature of a payload is checked against the payload that it was made for.
A text is accepted exactly when it is that signature, blanks around it and the
case of its letters aside.  A signer does not remember: a running digest is
emptied before each use, so whatever was signed or checked before, and whatever
the digests that it keeps hold, the answers are those of its key.
-/

namespace Telemetry

namespace SigningKey

theorem trim_sign (key : SigningKey) (payload : Bytes) :
    Text.trim (key.sign payload) = key.sign payload :=
  Text.trim_ofList fun _ => Hex.isBlank_of_mem_encodeChars

theorem verify_sign (key : SigningKey) (payload : Bytes) :
    key.verify payload (key.sign payload) = .ok () := by
  have hread : readSignature (key.sign payload) =
      .ok (Hmac.sha256 key.bytes payload) := by
    unfold readSignature
    rw [trim_sign]
    unfold sign
    rw [Hex.decode_encode]
    rfl
  unfold verify
  rw [hread]
  exact if_pos rfl

/-! ## The verdict -/

theorem length_sha256 (key message : Bytes) :
    (Hmac.sha256 key message).length = 32 := rfl

theorem length_sign (key : SigningKey) (payload : Bytes) :
    (key.sign payload).length = 64 := by
  rw [sign, Hex.encode, String.length_ofList, Hex.length_encodeChars,
    length_sha256]

theorem mem_digits_of_mem_sign {key : SigningKey} {payload : Bytes} {c : Char}
    (h : c ∈ (key.sign payload).toList) : c ∈ Hex.digits := by
  rw [sign, Hex.encode, String.toList_ofList] at h
  exact Hex.mem_digits_of_mem_encodeChars h

/-- Whether the text of a signature cannot be read: its bytes do not pair up, or
one of them is not a digit of either case. -/
def IsMalformed (signature : String) : Prop :=
  (Utf8.encode (Text.trim signature)).length % 2 = 1 ∨
    ∃ b ∈ Utf8.encode (Text.trim signature), ¬ Hex.IsDigit b

/-- Whether the text of a signature is the signature of a payload, blanks around
it and the case of its letters aside. -/
def Matches (key : SigningKey) (payload : Bytes) (signature : String) : Prop :=
  (Text.trim signature).map Char.toLower = key.sign payload

theorem matches_iff {key : SigningKey} {payload : Bytes} {signature : String} :
    key.Matches payload signature ↔
      Hex.decode (Utf8.encode (Text.trim signature)) =
        .ok (Hmac.sha256 key.bytes payload) := by
  rw [Hex.decode_eq_ok_iff, Hex.map_lowerChar_encode_iff]
  rfl

theorem isMalformed_iff {signature : String} :
    IsMalformed signature ↔
      ∃ e, Hex.decode (Utf8.encode (Text.trim signature)) = .error e :=
  Hex.exists_decode_eq_error_iff.symm

/-- What becomes of a signature, by what its text reads as. -/
theorem verify_eq (key : SigningKey) (payload : Bytes) (signature : String) :
    key.verify payload signature =
      match Hex.decode (Utf8.encode (Text.trim signature)) with
      | .error e => .error (.malformed e)
      | .ok expected =>
        if Hmac.sha256 key.bytes payload = expected then .ok ()
          else .error .mismatch := by
  rw [verify, readSignature]
  cases Hex.decode (Utf8.encode (Text.trim signature)) <;> rfl

theorem verify_eq_ok_iff {key : SigningKey} {payload : Bytes}
    {signature : String} :
    key.verify payload signature = .ok () ↔ key.Matches payload signature := by
  rw [verify_eq, matches_iff]
  cases hread : Hex.decode (Utf8.encode (Text.trim signature)) with
  | error e => simp
  | ok expected => simp [eq_comm]

theorem exists_verify_eq_malformed_iff {key : SigningKey} {payload : Bytes}
    {signature : String} :
    (∃ e, key.verify payload signature = .error (.malformed e)) ↔
      IsMalformed signature := by
  rw [verify_eq, isMalformed_iff]
  cases hread : Hex.decode (Utf8.encode (Text.trim signature)) with
  | error e => simp
  | ok expected =>
      by_cases hsame : Hmac.sha256 key.bytes payload = expected
      · simp [hsame]
      · simp [hsame]

theorem verify_eq_mismatch_iff {key : SigningKey} {payload : Bytes}
    {signature : String} :
    key.verify payload signature = .error .mismatch ↔
      ¬ key.Matches payload signature ∧ ¬ IsMalformed signature := by
  rw [verify_eq, matches_iff, isMalformed_iff]
  cases hread : Hex.decode (Utf8.encode (Text.trim signature)) with
  | error e => simp
  | ok expected => simp [eq_comm]

end SigningKey

namespace Signer

inductive Call where
  | sign (payload : Bytes)
  | verify (payload : Bytes) (signature : String)

/-- The signer after a call, whatever its answer. -/
def next (s : Signer) : Call → Signer
  | .sign payload => (s.sign payload).2
  | .verify payload signature => (s.verify payload signature).2

def after (s : Signer) (calls : List Call) : Signer := calls.foldl next s

/-- A running digest that is handed out has taken nothing yet,
whatever was left in it. -/
theorem taken_acquire (digests : Pool RunningDigest) :
    (digests.acquire plan).1.content.taken = [] := by
  rw [Pool.acquire]
  cases digests.parked <;> rfl

theorem digest_fst (s : Signer) (payload : Bytes) :
    (s.digest payload).1 = Hmac.sha256 s.key.bytes payload := by
  change Hmac.sha256 s.key.bytes
    ((s.digests.acquire plan).1.content.taken ++ payload) = _
  rw [taken_acquire, List.nil_append]

theorem sign_fst (s : Signer) (payload : Bytes) :
    (s.sign payload).1 = s.key.sign payload :=
  congrArg Hex.encode (s.digest_fst payload)

theorem verify_fst (s : Signer) (payload : Bytes) (signature : String) :
    (s.verify payload signature).1 = s.key.verify payload signature := by
  rw [verify, SigningKey.verify]
  cases SigningKey.readSignature signature with
  | error e => rfl
  | ok expected =>
      change (if (s.digest payload).1 = expected then _ else _) = _
      rw [digest_fst]
      rfl

theorem key_next (s : Signer) (call : Call) : (s.next call).key = s.key := by
  cases call with
  | sign payload => rfl
  | verify payload signature =>
      rw [next, verify]
      cases SigningKey.readSignature signature <;> rfl

theorem key_after (s : Signer) (calls : List Call) :
    (s.after calls).key = s.key := by
  induction calls generalizing s with
  | nil => rfl
  | cons call calls ih => exact (ih (s.next call)).trans (s.key_next call)

/-- What a signer answers after any calls and with any digests kept.  It signs
with the sixty-four lower-case digits of the keyed digest of the payload.  It
accepts a text exactly when the text, without blanks around it and in lower
case, is that signature; it calls a text malformed exactly when its bytes do not
pair up or are not all digits; and in all other cases it finds a mismatch. -/
theorem sign_and_verify_after (s : Signer) (calls : List Call) (payload : Bytes)
    (signature : String) :
    let signed := ((s.after calls).sign payload).1
    let verdict := ((s.after calls).verify payload signature).1
    let bytes := Utf8.encode (Text.trim signature)
    let isMalformed := bytes.length % 2 = 1 ∨ ∃ b ∈ bytes, ¬ Hex.IsDigit b
    (signed = Hex.encode (Hmac.sha256 s.key.bytes payload) ∧
      signed.length = 64 ∧
        ∀ c ∈ signed.toList, c ∈ "0123456789abcdef".toList) ∧
      (verdict = .ok () ↔ (Text.trim signature).map Char.toLower = signed) ∧
      ((∃ e, verdict = .error (.malformed e)) ↔ isMalformed) ∧
      (verdict = .error .mismatch ↔
        (Text.trim signature).map Char.toLower ≠ signed ∧ ¬ isMalformed) := by
  intro signed verdict bytes isMalformed
  have hsigned : signed = s.key.sign payload := by
    rw [← key_after s calls]
    exact sign_fst _ payload
  have hverdict : verdict = s.key.verify payload signature := by
    rw [← key_after s calls]
    exact verify_fst _ payload signature
  rw [hsigned, hverdict]
  refine ⟨⟨rfl, s.key.length_sign payload, ?_⟩, SigningKey.verify_eq_ok_iff,
    SigningKey.exists_verify_eq_malformed_iff,
    SigningKey.verify_eq_mismatch_iff⟩
  intro c hc
  exact SigningKey.mem_digits_of_mem_sign hc

end Signer

end Telemetry
