import Telemetry.Proofs.Http.Layers

/-!
# Requests that are admitted

A request that the layers refuse is answered with a failure.  One that they
admit asks for the same as before, with a body that was decrypted and inflated;
it came from a sender that is trusted, and its body is empty or bears a valid
signature.
-/

namespace Telemetry.Http

variable {security : Security} {r inner : Request}

/-! ## Refusals, and requests that are admitted -/

/-- A request after it was decrypted and inflated: the headers that tell of the
length and the coding of its body may be others. -/
structure Recoded (r inner : Request) : Prop where
  method : inner.method = r.method
  path : inner.path = r.path
  headers : ∀ name, name ≠ "content-length" → name ≠ "content-encoding" →
    Headers.all inner.headers name = Headers.all r.headers name

theorem Recoded.refl (r : Request) : Recoded r r := ⟨rfl, rfl, fun _ _ _ => rfl⟩

theorem Recoded.trans {r r' inner : Request} (h : Recoded r r')
    (h' : Recoded r' inner) :
    Recoded r inner where
  method := h'.method.trans h.method
  path := h'.path.trans h.path
  headers := fun name hlength hcoding =>
    (h'.headers name hlength hcoding).trans (h.headers name hlength hcoding)

theorem Recoded.text? (h : Recoded r inner) {name : String}
    (hlength : name ≠ "content-length") (hcoding : name ≠ "content-encoding") :
    Headers.text? inner.headers name = Headers.text? r.headers name :=
  Headers.text?_congr (h.headers name hlength hcoding)

/-- A decision about a request: it admits the request recoded, or refuses
it with a failure. -/
def Fair (r : Request) : Except Response Request → Prop
  | .ok inner => Recoded r inner
  | .error refusal => refusal.isSuccess = false

theorem Fair.bind {decision : Except Response Request}
    {verdict : Request → Except Response Request} (h : Fair r decision)
    (hverdict : ∀ inner, Fair inner (verdict inner)) :
    Fair r (decision >>= verdict) := by
  cases decision with
  | error refusal => exact h
  | ok r' =>
      have hrest := hverdict r'
      change Fair r (verdict r')
      cases hinner : verdict r' with
      | error refusal => rwa [hinner] at hrest
      | ok inner =>
          rw [hinner] at hrest
          exact Recoded.trans h hrest

theorem fair_readBody {next : Bytes → Except Response Request}
    (h : Fair r (next r.body)) :
    Fair r (readBody r.body >>= next) := by
  unfold readBody
  split
  · exact h
  · rfl

theorem fair_decrypted (opener : BlockOpener) (r : Request) :
    Fair r (decrypted opener r) := by
  apply fair_readBody
  by_cases hempty : r.body.isEmpty = true
  · rw [if_pos hempty]
    exact ⟨rfl, rfl, fun _ _ _ => rfl⟩
  · rw [if_neg hempty]
    cases opener.decrypt r.body with
    | error e => rfl
    | ok plain =>
        exact ⟨rfl, rfl, fun name hlength _ => Headers.all_set_of_ne hlength _⟩

theorem recoded_inflated (r : Request) (plain : Bytes) : Recoded r { r with
    headers :=
      Headers.setLength (Headers.remove r.headers "content-encoding") plain,
    body := plain } :=
  ⟨rfl, rfl, fun _ hlength hcoding =>
    (Headers.all_set_of_ne hlength _).trans (Headers.all_remove_of_ne hcoding)⟩

theorem fair_inflated (r : Request) : Fair r (inflated r) := by
  apply fair_readBody
  dsimp only
  by_cases hempty : r.body.isEmpty = true
  · rw [if_pos hempty]
    exact recoded_inflated r []
  · rw [if_neg hempty]
    cases Gzip.decompress r.body with
    | error e => rfl
    | ok plain => exact recoded_inflated r plain

theorem fair_verified (key : SigningKey) (r : Request) :
    Fair r (verified key r) := by
  apply fair_readBody
  by_cases hempty : r.body.isEmpty = true
  · rw [if_pos hempty]
    exact Recoded.refl r
  · rw [if_neg hempty]
    cases Headers.text? r.headers hashHeader with
    | none => rfl
    | some signature =>
        dsimp only
        cases key.verify r.body signature with
        | error e => rfl
        | ok _ => exact Recoded.refl r

theorem fair_admitOpened (security : Security) (r : Request) :
    Fair r (admitOpened security r) := by
  unfold admitOpened
  cases security.opener with
  | none => exact Recoded.refl r
  | some opener =>
      dsimp only
      split
      · exact Recoded.refl r
      · exact fair_decrypted opener r

theorem fair_admitCoded (r : Request) : Fair r (admitCoded r) := by
  unfold admitCoded
  split
  · exact Recoded.refl r
  · cases (declaredCodings r.headers).find? (! isKnownCoding ·) with
    | none => exact Recoded.refl r
    | some coding => rfl

theorem fair_admitInflated (r : Request) : Fair r (admitInflated r) := by
  unfold admitInflated
  split
  · exact fair_inflated r
  · exact Recoded.refl r

theorem fair_admitSigned (security : Security) (r : Request) :
    Fair r (admitSigned security r) := by
  unfold admitSigned
  cases security.signer with
  | none => exact Recoded.refl r
  | some key => exact fair_verified key r

theorem fair_admitTrusted (security : Security) (r : Request) :
    Fair r (admitTrusted security r) := by
  unfold admitTrusted
  dsimp only
  split
  · exact Recoded.refl r
  · rfl

/-- Whoever is refused is told so, and whoever is admitted asks for
the same as before. -/
theorem fair_admitted (security : Security) (r : Request) :
    Fair r (admitted security r) :=
  (fair_admitOpened security r).bind fun r => (fair_admitCoded r).bind fun r =>
    (fair_admitInflated r).bind fun r =>
      (fair_admitSigned security r).bind fun r => fair_admitTrusted security r

/-! ## What is known of a request that is admitted -/

/-- The headers come from inside the trusted network, if there is one: the
first value that tells the address of the sender is text and reads as an
address of the network. -/
def FromTrusted (security : Security) (headers : Headers) : Prop :=
  ∀ net, security.subnet = some net → ∃ value address,
    (Headers.all headers realIpHeader).head? = some value ∧
      Headers.visible? value = some value ∧
      Address.ofText? (Text.trim value) = some address ∧
      net.contains address = true

/-- The headers present a signature that the key accepts for the payload. -/
def Vouches (key : SigningKey) (headers : Headers) (payload : Bytes) : Prop :=
  ∃ signature, Headers.text? headers hashHeader = some signature ∧
    key.verify payload signature = .ok ()

theorem Headers.text?_eq_some_iff {h : Headers} {name value : String} :
    Headers.text? h name = some value ↔
      (Headers.all h name).head? = some value ∧
        Headers.visible? value = some value := by
  unfold Headers.text? Headers.visible?
  rw [Option.bind_eq_some_iff]
  constructor
  · rintro ⟨first, hfirst, hvisible⟩
    split at hvisible
    · next hall =>
        cases hvisible
        exact ⟨hfirst, if_pos hall⟩
    · cases hvisible
  · rintro ⟨hfirst, hvisible⟩
    exact ⟨value, hfirst, hvisible⟩

theorem fromTrusted_of_isTrusted {headers : Headers}
    (h : security.isTrusted (Headers.text? headers realIpHeader) = true) :
    FromTrusted security headers := by
  intro net hnet
  unfold Security.isTrusted at h
  rw [hnet] at h
  dsimp only at h
  cases hip : Headers.text? headers realIpHeader with
  | none =>
      rw [hip] at h
      cases h
  | some value =>
      rw [hip, Option.bind_some] at h
      obtain ⟨hfirst, hvisible⟩ := Headers.text?_eq_some_iff.mp hip
      cases haddress : Address.ofText? (Text.trim value) with
      | none =>
          rw [haddress] at h
          cases h
      | some address =>
          rw [haddress] at h
          exact ⟨value, address, hfirst, hvisible, haddress, h⟩

theorem verified_eq_ok {key : SigningKey} (h : verified key r = .ok inner) :
    inner = r ∧ (r.body = [] ∨ Vouches key r.headers r.body) := by
  unfold verified readBody at h
  split at h
  · change (if r.body.isEmpty then _ else _) = _ at h
    split at h
    · next hempty =>
        cases h
        exact ⟨rfl, Or.inl (List.isEmpty_iff.mp hempty)⟩
    · cases hsignature : Headers.text? r.headers hashHeader with
      | none =>
          rw [hsignature] at h
          cases h
      | some signature =>
          rw [hsignature] at h
          dsimp only at h
          cases hverify : key.verify r.body signature with
          | error e =>
              rw [hverify] at h
              cases h
          | ok accepted =>
              rw [hverify] at h
              have hinner : r = inner := Except.ok.inj h
              exact ⟨hinner.symm, Or.inr ⟨signature, hsignature, hverify⟩⟩
  · cases h

/-- What the layers have checked when they admit `inner` in place of `r`. -/
structure Admitted (security : Security) (r inner : Request) : Prop where
  recoded : Recoded r inner
  sender : FromTrusted security r.headers
  signature : ∀ key, security.signer = some key →
    inner.body = [] ∨ Vouches key r.headers inner.body

theorem admitted_of_eq_ok (h : admitted security r = .ok inner) :
    Admitted security r inner := by
  have hrecoded : Recoded r inner := by
    have hfair := fair_admitted security r
    rwa [h] at hfair
  obtain ⟨opened, -, h⟩ := exists_of_bind_eq_ok h
  obtain ⟨coded, -, h⟩ := exists_of_bind_eq_ok h
  obtain ⟨inflated, -, h⟩ := exists_of_bind_eq_ok h
  obtain ⟨signed, hsigned, htrusted⟩ := exists_of_bind_eq_ok h
  unfold admitTrusted at htrusted
  dsimp only at htrusted
  split at htrusted
  · next hip =>
      cases htrusted
      refine ⟨hrecoded, ?_, ?_⟩
      · apply fromTrusted_of_isTrusted
        rw [← hrecoded.text? (by decide) (by decide)]
        exact hip
      · intro key hkey
        unfold admitSigned at hsigned
        rw [hkey] at hsigned
        obtain ⟨rfl, hvouched⟩ := verified_eq_ok hsigned
        refine hvouched.imp_right ?_
        rintro ⟨signature, hpresented, hverify⟩
        refine ⟨signature, ?_, hverify⟩
        rw [← hrecoded.text? (by decide) (by decide)]
        exact hpresented
  · cases htrusted

end Telemetry.Http
