import Telemetry.Proofs.Cipher.Payload
import Telemetry.Proofs.Deflate.Run
import Telemetry.Proofs.Http.Coding

/-!
# Bodies that layers hold

A layer takes the body of a request as a whole when it decrypts, inflates or
checks it, and refuses a request whose body is too long for that.  Decrypting
does not lengthen a body, but inflating does, and what was inflated is measured
only by the layer that checks signatures.  Without a key for them it is handed
on however long it is.
-/

namespace Telemetry

theorem Security.exists_key_of_openerOf {path : String} {pem : Option Bytes}
    {opener : BlockOpener} (h : Security.openerOf path pem = .ok opener) :
    ∃ key : Rsa.PrivateKey, opener = key.opener := by
  unfold Security.openerOf at h
  split at h
  · next key _ => exact ⟨key, (Except.ok.inj h).symm⟩
  · nomatch h

/-- A server that decrypts does so with a private key. -/
theorem Security.exists_key {secret : Option String}
    {privateKey : Option (String × Option Bytes)} {subnet : Option String}
    {security : Security} {opener : BlockOpener}
    (hsettings : Security.ofSettings secret privateKey subnet = .ok security)
    (hopener : security.opener = some opener) :
    ∃ key : Rsa.PrivateKey, opener = key.opener := by
  have hkept : ∀ found : Option BlockOpener,
      (trustedSubnet subnet >>= fun net => .ok
        ⟨secret.bind fun s => SigningKey.ofBytes? (Utf8.encode s), found,
          net⟩) = .ok security →
      security.opener = found := by
    intro found h
    obtain ⟨net, -, hnet⟩ := exists_of_bind_eq_ok h
    rw [← Except.ok.inj hnet]
  unfold Security.ofSettings at hsettings
  cases privateKey with
  | none =>
      rw [hkept .none hsettings] at hopener
      nomatch hopener
  | some file =>
      obtain ⟨found, hfound, hsettings⟩ := exists_of_bind_eq_ok hsettings
      rw [hkept found hsettings] at hopener
      subst hopener
      cases hopened : Security.openerOf file.1 file.2 with
      | error e =>
          rw [hopened] at hfound
          nomatch hfound
      | ok read =>
          rw [hopened] at hfound
          obtain rfl : read = opener := Option.some.inj (Except.ok.inj hfound)
          exact Security.exists_key_of_openerOf hopened

namespace Http

variable {σ : Type} {security : Security} {r coded inner : Request}
  {body : Bytes}

/-! ## Bodies on their way -/

/-- The body is what a request is inflated to. -/
def Inflates (security : Security) (r : Request) (body : Bytes) : Prop :=
  ∃ coded inner, admitFiltered security r = .ok coded ∧
    isGzipped coded.headers = true ∧
    inflated coded = .ok inner ∧ inner.body = body

/-- A layer holds the body as a whole while it treats the request. -/
inductive Held (security : Security) (r : Request) : Bytes → Prop
  /-- What was received, to be decrypted. -/
  | sealed {opener : BlockOpener} (hopener : security.opener = some opener)
      (hbody : declaresEmptyBody r.headers = false) : Held security r r.body
  /-- What was decrypted. -/
  | opened {opener : BlockOpener} {plain : Request}
      (hopener : security.opener = some opener)
      (hbody : declaresEmptyBody r.headers = false)
      (hplain : decrypted opener r = .ok plain) :
      Held security r plain.body
  /-- What is to be inflated. -/
  | zipped {coded : Request} (hcoded : admitFiltered security r = .ok coded)
      (hgzipped : isGzipped coded.headers = true) : Held security r coded.body
  /-- What was inflated. -/
  | inflated {body : Bytes} (h : Inflates security r body) :
      Held security r body
  /-- What a signature is checked for. -/
  | signed {coded inner : Request} {key : SigningKey}
      (hkey : security.signer = some key)
      (hcoded : admitFiltered security r = .ok coded)
      (hinner : admitInflated coded = .ok inner) : Held security r inner.body

/-- The request is answered with the refusal of a body that is too long,
whatever handles it, and nothing changes. -/
def RefusedAsTooLong (security : Security) (r : Request) : Prop :=
  ∀ (σ : Type) (handler : Handler σ) (s : σ),
    (protect security handler r) s = (tooLong, s)

/-! ## Layer by layer -/

theorem protect_eq_of_inflated (hcoded : admitFiltered security r = .ok coded)
    (hinner : admitInflated coded = .ok inner) (handler : Handler σ) :
    protect security handler r =
      packed coded.headers <$>
        hmac security (trustedOnly security handler) inner := by
  rw [protect_eq, hcoded]
  change orRefuse (admitInflated coded) _ = _
  rw [hinner]
  rfl

theorem refusedAsTooLong_sealed {opener : BlockOpener}
    (hopener : security.opener = some opener)
    (hbody : declaresEmptyBody r.headers = false)
    (hlong : maxBodyBytes < r.body.length) :
    RefusedAsTooLong security r := by
  intro σ handler s
  have hrefused : admitOpened security r = .error tooLong := by
    rw [admitOpened, hopener]
    dsimp only
    rw [hbody, if_neg Bool.false_ne_true, decrypted, readBody_eq_error hlong]
    rfl
  rw [protect_eq, admitFiltered, hrefused]
  rfl

theorem refusedAsTooLong_zipped (hcoded : admitFiltered security r = .ok coded)
    (hgzipped : isGzipped coded.headers = true)
    (hlong : maxBodyBytes < coded.body.length) :
    RefusedAsTooLong security r := by
  intro σ handler s
  rw [protect_eq, hcoded]
  change orRefuse (admitInflated coded) _ s = _
  rw [admitInflated_eq_error hgzipped hlong]
  rfl

theorem refusedAsTooLong_signed {key : SigningKey}
    (hkey : security.signer = some key)
    (hcoded : admitFiltered security r = .ok coded)
    (hinner : admitInflated coded = .ok inner)
    (hlong : maxBodyBytes < inner.body.length) :
    RefusedAsTooLong security r := by
  intro σ handler s
  have hrefused : admitSigned security inner = .error tooLong := by
    rw [admitSigned, hkey]
    dsimp only
    rw [verified, readBody_eq_error hlong]
    rfl
  rw [protect_eq_of_inflated hcoded hinner, hmac_eq hkey, hrefused]
  have hkept : packed coded.headers tooLong = tooLong :=
    packed_of_refusal (by decide) rfl coded.headers
  exact congrArg (·, s) hkept

theorem length_le_of_readBody {read : Bytes} (h : readBody body = .ok read) :
    read.length ≤ maxBodyBytes := by
  unfold readBody at h
  split at h
  · next hsize =>
      obtain rfl := Except.ok.inj h
      exact hsize
  · nomatch h

theorem length_decrypted_le {key : Rsa.PrivateKey} {plain : Request}
    (h : decrypted key.opener r = .ok plain) :
    plain.body.length ≤ maxBodyBytes := by
  obtain ⟨body, hread, h⟩ := exists_of_bind_eq_ok h
  have hbody := length_le_of_readBody hread
  split at h
  · obtain rfl := Except.ok.inj h
    exact Nat.zero_le _
  · split at h
    · next plain hplain =>
        obtain rfl := Except.ok.inj h
        exact (Rsa.length_le_of_decrypt hplain).trans hbody
    · nomatch h

theorem fair_admitFiltered (security : Security) (r : Request) :
    Fair r (admitFiltered security r) :=
  (fair_admitOpened security r).bind fair_admitCoded

/-- Where nothing is signed, a request is handed on with whatever
it is inflated to. -/
theorem Inflates.handed_on (h : Inflates security r body)
    (hsigner : security.signer = none) :
    ∃ inner, Recoded r inner ∧ inner.body = body ∧
      ∀ (σ : Type) (handler : Handler σ) (s : σ),
        outcome (protect security handler r) s =
          outcome (trustedOnly security handler inner) s := by
  obtain ⟨coded, inner, hcoded, hgzipped, hinner, hbody⟩ := h
  have hadmitted : admitInflated coded = .ok inner :=
    (if_pos hgzipped).trans hinner
  have hfiltered : Recoded r coded := by
    have hfair := fair_admitFiltered security r
    rwa [hcoded] at hfair
  have hinflated : Recoded coded inner := by
    have hfair := fair_admitInflated coded
    rwa [hadmitted] at hfair
  refine ⟨inner, hfiltered.trans hinflated, hbody, fun σ handler s => ?_⟩
  rw [protect_eq_of_inflated hcoded hadmitted, hmac_eq_of_none hsigner]
  exact outcome_map (status_packed coded.headers) _ s

/-! ## Bodies that are too long -/

/-- A request for which a layer would hold a body that is too long is
refused as such, unless it is inflated to that body and nothing is signed.
Then it is handed on, with that body, to the check of its sender and to
whatever handles it. -/
theorem too_long_refused_unless_inflated {secret : Option String}
    {privateKey : Option (String × Option Bytes)} {subnet : Option String}
    (hsettings : Security.ofSettings secret privateKey subnet = .ok security)
    (hheld : Held security r body) (hlong : maxBodyBytes < body.length) :
    (security.signer ≠ none ∨ ¬ Inflates security r body →
      RefusedAsTooLong security r) ∧
      (security.signer = none → Inflates security r body →
        ∃ inner, Recoded r inner ∧ inner.body = body ∧
          ∀ (σ : Type) (handler : Handler σ) (s : σ),
            outcome (protect security handler r) s =
              outcome (trustedOnly security handler inner) s) := by
  refine ⟨fun hbounded => ?_, fun hsigner h => h.handed_on hsigner⟩
  -- whoever reads the body refuses it; only what was inflated may go unread
  cases hheld with
  | sealed hopener hbody => exact refusedAsTooLong_sealed hopener hbody hlong
  | opened hopener hbody hplain =>
      -- what is decrypted is no longer than what was read
      obtain ⟨key, rfl⟩ := Security.exists_key hsettings hopener
      exact absurd (length_decrypted_le hplain) (Nat.not_le_of_lt hlong)
  | zipped hcoded hgzipped =>
      exact refusedAsTooLong_zipped hcoded hgzipped hlong
  | inflated h =>
      rcases hbounded with hsigner | hnot
      · obtain ⟨key, hkey⟩ := Option.ne_none_iff_exists'.mp hsigner
        obtain ⟨coded, inner, hcoded, hgzipped, hinner, rfl⟩ := h
        exact refusedAsTooLong_signed hkey hcoded
          ((if_pos hgzipped).trans hinner) hlong
      · exact absurd h hnot
  | signed hkey hcoded hinner =>
      exact refusedAsTooLong_signed hkey hcoded hinner hlong

def zerosRequest (middle : Nat) : Request :=
  ⟨"POST", "/update/gauge/G/1", [("content-encoding", "gzip")],
    Gzip.zeros middle⟩

theorem encoded_zerosRequest (middle : Nat) :
    Encoded (zerosRequest middle)
      (List.replicate (Deflate.runLength middle) 0) := by
  have hcodings : (declaredCodings [("content-encoding", "gzip")]).reverse =
      ["gzip"] := by decide
  rw [Encoded, zerosRequest, hcodings]
  exact .gzip (sameIgnoringCase_self "gzip") (Gzip.decompress_zeros middle)
    (.nil _)

theorem inflates_zerosRequest {middle : Nat} (hopener : security.opener = none)
    (hsize : middle + 33 ≤ maxBodyBytes) :
    Inflates security (zerosRequest middle)
      (List.replicate (Deflate.runLength middle) 0) := by
  have hcoded : admitFiltered security (zerosRequest middle) =
      .ok (zerosRequest middle) := by
    rw [admitFiltered, admitOpened, hopener]
    exact (encoded_zerosRequest middle).admitCoded
  have hgzipped : isGzipped (zerosRequest middle).headers = true := by
    have hfirst : firstCodings [("content-encoding", "gzip")] = ["gzip"] := by
      decide
    rw [isGzipped_eq, zerosRequest, hfirst]
    exact List.any_eq_true.mpr ⟨"gzip", List.mem_singleton_self _,
      sameIgnoringCase_self "gzip"⟩
  have hlength : (zerosRequest middle).body.length ≤ maxBodyBytes :=
    (Gzip.length_zeros middle).trans_le hsize
  exact ⟨_, _, hcoded, hgzipped,
    inflated_of_decompress hlength (Gzip.decompress_zeros middle), rfl⟩

theorem maxBodyBytes_lt_zeros :
    maxBodyBytes <
      (List.replicate (Deflate.runLength 16257) (0 : UInt8)).length := by
  rw [List.length_replicate]
  decide

/-- With a key for signatures, sixteen kilobytes that are inflated to more than
sixteen megabytes are refused. -/
theorem too_long_refused_unless_inflated_signed :
    let security : Security :=
      ⟨SigningKey.ofBytes? (Utf8.encode "secret"), none, none⟩
    let zeros : Bytes := List.replicate (Deflate.runLength 16257) 0
    Security.ofSettings (some "secret") none none = .ok security ∧
      Held security (zerosRequest 16257) zeros ∧ maxBodyBytes < zeros.length ∧
      RefusedAsTooLong security (zerosRequest 16257) := by
  intro security zeros
  have hsettings :
      Security.ofSettings (some "secret") none none = .ok security := rfl
  have hheld : Held security (zerosRequest 16257) zeros :=
    .inflated (inflates_zerosRequest rfl (by decide))
  have hsigner : security.signer ≠ none := by
    have hbytes : Utf8.encode "secret" ≠ [] := by decide
    have hkey : SigningKey.ofBytes? (Utf8.encode "secret") = some ⟨_, hbytes⟩ :=
      dif_neg hbytes
    exact Option.ne_none_iff_exists'.mpr ⟨_, hkey⟩
  exact ⟨hsettings, hheld, maxBodyBytes_lt_zeros,
    (too_long_refused_unless_inflated hsettings hheld maxBodyBytes_lt_zeros).1
    (.inl hsigner)⟩

/-- Without one they reach the handler. -/
theorem zeros_handled_unsigned :
    let zeros : Bytes := List.replicate (Deflate.runLength 16257) 0
    let handler : Handler Bool := fun _ _ => (.bare 200, true)
    Security.ofSettings none none none = .ok .none ∧
      (zerosRequest 16257).body.length = 16290 ∧
      Held .none (zerosRequest 16257) zeros ∧ maxBodyBytes < zeros.length ∧
      outcome (protect .none handler (zerosRequest 16257)) false = (200, true) ∧
      ¬ RefusedAsTooLong .none (zerosRequest 16257) := by
  intro zeros handler
  have hinflates : Inflates .none (zerosRequest 16257) zeros :=
    inflates_zerosRequest rfl (by decide)
  obtain ⟨inner, -, -, hhanded⟩ := hinflates.handed_on rfl
  have hreached : outcome (protect .none handler (zerosRequest 16257)) false =
      (200, true) :=
    hhanded Bool handler false
  refine ⟨rfl, Gzip.length_zeros 16257, .inflated hinflates,
    maxBodyBytes_lt_zeros, hreached, ?_⟩
  intro hrefused
  rw [outcome, hrefused Bool handler false] at hreached
  nomatch hreached

end Http

end Telemetry
