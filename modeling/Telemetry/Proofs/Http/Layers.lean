import Telemetry.Http.App
import Telemetry.Proofs.Cipher.Blocks
import Telemetry.Proofs.Gzip
import Telemetry.Proofs.Json.Number
import Telemetry.Proofs.Signature

/-!
# What the layers let through

Whether a request gets past a layer does not depend on what stands behind the
layer, nor on the state.  A layer passes a request on when it hands another
request to what stands behind it and keeps the status of the answer.  Layers
that pass a request on one after the other do so together, so that only the last
request matters to the state and to the status.
-/

namespace Telemetry.Http

variable {σ : Type} {security : Security}

/-! ## Headers -/

namespace Headers

theorem all_append (g h : Headers) (name : String) :
    all (g ++ h) name = all g name ++ all h name := by
  simp [all]

theorem all_remove_of_ne {h : Headers} {name other : String}
    (hne : name ≠ other) :
    all (h.remove other) name = all h name := by
  unfold all remove
  rw [List.filter_filter]
  refine congrArg (List.map _) (List.filter_congr fun p _ => ?_)
  by_cases hp : p.1 = name
  · simp [hp, hne]
  · simp [hp]

theorem all_set_of_ne {h : Headers} {name other : String} (hne : name ≠ other)
    (value : String) : all (h.set other value) name = all h name := by
  have hlast : all [(other, value)] name = [] := by
    simp [all, Ne.symm hne]
  unfold set
  rw [all_append, hlast, List.append_nil, all_remove_of_ne hne]

theorem all_set (h : Headers) (name value : String) :
    all (h.set name value) name = [value] := by
  have hnone : all (h.remove name) name = [] := by
    simp [all, remove]
  have hlast : all [(name, value)] name = [value] := by
    simp [all]
  unfold set
  rw [all_append, hnone, hlast]
  rfl

theorem text?_congr {g h : Headers} {name : String}
    (hall : all g name = all h name) :
    text? g name = text? h name := by
  unfold text?
  rw [hall]

theorem text?_eq_some {h : Headers} {name value : String}
    (hall : all h name = [value]) (hvisible : visible? value = some value) :
    text? h name = some value := by
  unfold text?
  rw [hall]
  exact hvisible

theorem visible?_eq_some {value : String}
    (h : ∀ c ∈ value.toList, isVisible c = true) :
    visible? value = some value :=
  if_pos (List.all_eq_true.mpr h)

/-- What the values of a header list; a value that is no text counts
as a question mark. -/
def listed (h : Headers) (name : String) : List String :=
  (h.all name).flatMap fun value => parts ((visible? value).getD "?")

/-- What the first value of a header lists. -/
def firstListed (h : Headers) (name : String) : List String :=
  match h.all name with
  | [] => []
  | value :: _ => parts ((visible? value).getD "?")

theorem exists_listed_eq_append (h : Headers) (name : String) :
    ∃ rest, listed h name = firstListed h name ++ rest := by
  rw [listed, firstListed]
  cases h.all name with
  | nil => exact ⟨[], rfl⟩
  | cons value rest => exact ⟨_, List.flatMap_cons⟩

/-- Only the first value of a header is looked at where it
is taken as a text. -/
theorem any_parts_text? {p : String → Bool} (hp : p "?" = false) (h : Headers)
    (name : String) :
    (match text? h name with
      | some value => (parts value).any p
      | none => false) = (firstListed h name).any p := by
  rw [text?, firstListed]
  cases h.all name with
  | nil => rfl
  | cons value rest =>
      have hquestion : parts "?" = ["?"] := by decide
      rw [List.head?_cons, Option.bind_some]
      dsimp only
      cases visible? value with
      | some text => rfl
      | none => simp [hquestion, hp]

end Headers

/-! ## Lengths of bodies -/

theorem toNat_of_mem_toDigits {n : Nat} {c : Char} (h : c ∈ Nat.toDigits 10 n) :
    48 ≤ c.toNat ∧ c.toNat ≤ 57 :=
  Char.isDigit_iff_toNat.mp
    (Nat.isDigit_of_mem_toDigits (by decide) (by decide) h)

theorem visible?_length (n : Nat) :
    Headers.visible? (toString n) = some (toString n) := by
  refine Headers.visible?_eq_some fun c hc => ?_
  change c ∈ (String.ofList (Nat.toDigits 10 n)).toList at hc
  rw [String.toList_ofList] at hc
  obtain ⟨hlow, hhigh⟩ := toNat_of_mem_toDigits hc
  simp only [Headers.isVisible, Bool.or_eq_true, Bool.and_eq_true,
    decide_eq_true_eq]
  omega

theorem trim_length (n : Nat) : Text.trim (toString n) = toString n := by
  refine Text.trim_ofList fun c hc => ?_
  obtain ⟨hlow, hhigh⟩ := toNat_of_mem_toDigits hc
  simp only [Text.isBlank, Bool.or_eq_false_iff, Bool.and_eq_false_iff,
    decide_eq_false_iff_not, beq_eq_false_iff_ne]
  omega

theorem length_ne_zero {n : Nat} (h : n ≠ 0) : toString n ≠ "0" := by
  intro hzero
  have hdigits : Json.decimal n = Utf8.encode "0" :=
    (Json.encode_repr n).symm.trans (congrArg Utf8.encode hzero)
  have hn := Json.digitsFrom_decimal n
  rw [hdigits] at hn
  exact h (hn.symm.trans (by decide))

/-- The headers tell the length of the body, which is not empty. -/
structure TellsLength (h : Headers) (body : Bytes) : Prop where
  nonempty : body ≠ []
  length : h.all "content-length" = [toString body.length]

theorem TellsLength.declaresEmptyBody {h : Headers} {body : Bytes}
    (hlength : TellsLength h body) :
    declaresEmptyBody h = false := by
  have htext : Headers.text? h "content-length" = some (toString body.length) :=
    Headers.text?_eq_some hlength.length (visible?_length _)
  have hne : body.length ≠ 0 :=
    fun hzero => hlength.nonempty (List.length_eq_zero_iff.mp hzero)
  unfold Http.declaresEmptyBody
  rw [htext]
  simp only [trim_length, beq_eq_false_iff_ne]
  exact length_ne_zero hne

theorem tellsLength_setLength (h : Headers) {body : Bytes} (hbody : body ≠ []) :
    TellsLength (h.setLength body) body :=
  ⟨hbody, Headers.all_set h _ _⟩

theorem readBody_eq_ok {body : Bytes} (h : body.length ≤ maxBodyBytes) :
    readBody body = .ok body :=
  if_pos h

def tooLong : Response := .text 400 "read body: length limit exceeded"

theorem readBody_eq_error {body : Bytes} (h : maxBodyBytes < body.length) :
    readBody body = .error tooLong :=
  if_neg (Nat.not_le_of_lt h)

/-! ## Passing requests on -/

/-- What is answered in a state. -/
def answered (answer : StateM σ Response) (s : σ) : Response :=
  let p : Response × σ := answer s
  p.1

/-- The status of an answer, and the state after it. -/
def outcome (answer : StateM σ Response) (s : σ) : Nat × σ :=
  let p : Response × σ := answer s
  (p.1.status, p.2)

theorem outcome_map {f : Response → Response}
    (hf : ∀ response, (f response).status = response.status)
    (answer : StateM σ Response) (s : σ) :
    outcome (f <$> answer) s = outcome answer s :=
  Prod.ext (hf _) rfl

/-- The layer hands on `r'` when it is given `r`, and keeps the
status of the answer. -/
def Passes (layer : Layer σ) (r r' : Request) : Prop :=
  ∀ next s, outcome (layer next r) s = outcome (next r') s

/-! ## Layers that decide -/

/-- The layer hands on the request that `verdict` gives for the one that comes
in, or answers with the status of its refusal. -/
def Decides (layer : Layer σ)
    (verdict : Request → Except Response Request) : Prop :=
  ∀ next r s, outcome (layer next r) s =
    match verdict r with
    | .ok inner => outcome (next inner) s
    | .error refusal => (refusal.status, s)

theorem Decides.comp {outer inner : Layer σ}
    {verdict verdict' : Request → Except Response Request}
    (houter : Decides outer verdict) (hinner : Decides inner verdict') :
    Decides (fun next => outer (inner next)) fun r =>
      verdict r >>= verdict' := by
  intro next r s
  rw [houter (inner next) r s]
  dsimp only
  cases hverdict : verdict r with
  | error refusal => rfl
  | ok r' => exact hinner next r' s

/-- A layer that hands on or refuses decides, whatever it does to answers
but their status. -/
theorem decides_of_eq {layer : Layer σ}
    {verdict : Request → Except Response Request}
    (change : Request → Response → Response)
    (hchange : ∀ r response, (change r response).status = response.status)
    (heq : ∀ next r, layer next r = orRefuse (verdict r) fun inner =>
      change r <$> next inner) : Decides layer verdict := by
  intro next r s
  rw [heq]
  cases verdict r with
  | error refusal => rfl
  | ok inner => exact outcome_map (hchange r) (next inner) s

theorem Decides.passes {layer : Layer σ}
    {verdict : Request → Except Response Request} (h : Decides layer verdict)
    {r r' : Request} (hverdict : verdict r = .ok r') :
    Passes layer r r' := by
  intro next s
  rw [h next r s, hverdict]

/-! ## What each layer decides -/

def admitOpened (security : Security) (r : Request) : Except Response Request :=
  match security.opener with
  | none => .ok r
  | some opener =>
    if declaresEmptyBody r.headers then .ok r else decrypted opener r

def admitCoded (r : Request) : Except Response Request :=
  if declaresEmptyBody r.headers then .ok r
  else
    match (declaredCodings r.headers).find? (! isKnownCoding ·) with
    | some coding =>
      .error (.text 415
        s!"content encoding {Text.quote coding} is not supported")
    | none => .ok r

def admitInflated (r : Request) : Except Response Request :=
  if isGzipped r.headers then inflated r else .ok r

def admitSigned (security : Security) (r : Request) : Except Response Request :=
  match security.signer with
  | none => .ok r
  | some key => verified key r

def admitTrusted (security : Security) (r : Request) :
    Except Response Request :=
  let ip := Headers.text? r.headers realIpHeader
  if security.isTrusted ip then .ok r
    else .error (.text 403 (Security.untrusted ip))

theorem decrypt_eq (next : Handler σ) (r : Request) :
    decrypt security next r = orRefuse (admitOpened security r) next := by
  rw [decrypt, admitOpened]
  cases security.opener with
  | none => rfl
  | some opener =>
      dsimp only
      split <;> rfl

theorem filterCodings_eq (next : Handler σ) (r : Request) :
    filterCodings next r = orRefuse (admitCoded r) next := by
  rw [filterCodings, admitCoded]
  split
  · rfl
  · cases (declaredCodings r.headers).find? (! isKnownCoding ·) <;> rfl

/-- The response as it leaves for a client who sent the headers. -/
def packed (h : Headers) (response : Response) : Response :=
  if acceptsGzip h && response.isSuccess then compressed response else response

theorem gzip_eq (next : Handler σ) (r : Request) :
    gzip next r = orRefuse (admitInflated r) fun inner =>
      packed r.headers <$> next inner := rfl

theorem hmac_eq_of_none (hsigner : security.signer = none) (next : Handler σ)
    (r : Request) :
    hmac security next r = next r := by
  rw [hmac, hsigner]

theorem hmac_eq {key : SigningKey} (hkey : security.signer = some key)
    (next : Handler σ) (r : Request) :
    hmac security next r =
      orRefuse (admitSigned security r) fun inner =>
        signed key <$> next inner := by
  rw [hmac, admitSigned, hkey]

theorem trustedOnly_eq (next : Handler σ) (r : Request) :
    trustedOnly security next r = orRefuse (admitTrusted security r) next := by
  rw [trustedOnly, admitTrusted]
  split <;> rfl

theorem admitInflated_eq_error {r : Request}
    (hgzipped : isGzipped r.headers = true)
    (hlong : maxBodyBytes < r.body.length) :
    admitInflated r = .error tooLong := by
  rw [admitInflated, if_pos hgzipped, inflated, readBody_eq_error hlong]
  rfl

/-- What is handed to the layer that inflates. -/
def admitFiltered (security : Security) (r : Request) :
    Except Response Request :=
  admitOpened security r >>= admitCoded

theorem orRefuse_bind {α β : Type} (decision : Except Response α)
    (f : α → Except Response β) (next : β → StateM σ Response) :
    orRefuse (decision >>= f) next = orRefuse decision fun a =>
      orRefuse (f a) next := by
  cases decision <;> rfl

/-- The answer is packed for the client once a request has been
filtered and inflated. -/
theorem protect_eq (handler : Handler σ) (r : Request) :
    protect security handler r =
      orRefuse (admitFiltered security r) fun coded =>
        orRefuse (admitInflated coded) fun inner =>
          packed coded.headers <$>
            hmac security (trustedOnly security handler) inner := by
  rw [protect, decrypt_eq, admitFiltered, orRefuse_bind]
  exact congrArg _ (funext fun opened => filterCodings_eq _ opened)

theorem status_packed (h : Headers) (response : Response) :
    (packed h response).status = response.status := by
  rw [packed, compressed]
  split <;> [split; skip] <;> rfl

theorem packed_of_refusal {refusal : Response} {status : Nat} {text : String}
    (hstatus : 300 ≤ status) (h : refusal = .text status text)
    (headers : Headers) :
    packed headers refusal = refusal := by
  have hfailure : refusal.isSuccess = false := by
    have hlarge : ¬ status < 300 := Nat.not_lt_of_le hstatus
    subst h
    simp [Response.isSuccess, Response.text, Response.typed, hlarge]
  simp [packed, hfailure]

theorem status_signed (key : SigningKey) (response : Response) :
    (signed key response).status = response.status := by
  rw [signed]
  split <;> rfl

theorem decides_decrypt :
    Decides (decrypt security : Layer σ) (admitOpened security) :=
  decides_of_eq (fun _ => id) (fun _ _ => rfl) decrypt_eq

theorem decides_filterCodings : Decides (filterCodings : Layer σ) admitCoded :=
  decides_of_eq (fun _ => id) (fun _ _ => rfl) filterCodings_eq

theorem decides_gzip : Decides (gzip : Layer σ) admitInflated :=
  decides_of_eq (fun r => packed r.headers)
    (fun r => status_packed r.headers) gzip_eq

theorem decides_hmac :
    Decides (hmac security : Layer σ) (admitSigned security) := by
  cases hsigner : security.signer with
  | none =>
      intro next r s
      rw [hmac_eq_of_none hsigner, admitSigned, hsigner]
  | some key =>
      exact decides_of_eq (fun _ => signed key) (fun _ => status_signed key)
        (hmac_eq hsigner)

theorem decides_trustedOnly :
    Decides (trustedOnly security : Layer σ) (admitTrusted security) :=
  decides_of_eq (fun _ => id) (fun _ _ => rfl) trustedOnly_eq

/-- What the layers together admit in place of a request. -/
def admitted (security : Security) (r : Request) : Except Response Request := do
  let r ← admitOpened security r
  let r ← admitCoded r
  let r ← admitInflated r
  let r ← admitSigned security r
  admitTrusted security r

theorem decides_protect :
    Decides (protect security : Layer σ) (admitted security) :=
  decides_decrypt.comp (decides_filterCodings.comp (decides_gzip.comp
    (decides_hmac.comp decides_trustedOnly)))

/-! ## Requests as they are sent -/

theorem passes_decrypt {security : Security} {r : Request} {packed : Bytes}
    (hlength : TellsLength r.headers r.body)
    (hsize : r.body.length ≤ maxBodyBytes)
    (hopened : Opened security.opener r.body packed) (hpacked : packed ≠ []) :
    ∃ headers, TellsLength headers packed ∧
      (∀ name, name ≠ "content-length" →
        Headers.all headers name = Headers.all r.headers name) ∧
      Passes (decrypt security : Layer σ) r
        { r with headers, body := packed } := by
  unfold Opened at hopened
  cases hopener : security.opener with
  | none =>
      rw [hopener] at hopened
      subst hopened
      refine ⟨r.headers, hlength, fun _ _ => rfl, decides_decrypt.passes ?_⟩
      unfold admitOpened
      rw [hopener]
  | some opener =>
      rw [hopener] at hopened
      refine ⟨Headers.setLength r.headers packed,
        tellsLength_setLength _ hpacked,
        fun name hne => Headers.all_set_of_ne hne _, decides_decrypt.passes ?_⟩
      have hbody : r.body.isEmpty = false :=
        List.isEmpty_eq_false_iff.mpr hlength.nonempty
      have hdecrypted : decrypted opener r =
          .ok
            { r with
              headers := Headers.setLength r.headers packed
              body := packed } := by
        unfold decrypted
        rw [readBody_eq_ok hsize]
        simp [bind, Except.bind, hbody, hopened, pure, Except.pure]
      unfold admitOpened
      rw [hopener]
      dsimp only
      rw [hlength.declaresEmptyBody, if_neg Bool.false_ne_true, hdecrypted]

theorem sameIgnoringCase_self (a : String) : sameIgnoringCase a a = true :=
  beq_self_eq_true _

/-- Texts that differ at most in case are compared letter by letter. -/
theorem sameIgnoringCase_iff {a b : String} :
    sameIgnoringCase a b = true ↔
      a.toList.map Char.toLower = b.toList.map Char.toLower := by
  rw [sameIgnoringCase, beq_iff_eq, lowerCase, lowerCase, ← String.toList_inj,
    String.toList_map, String.toList_map]

theorem parts_gzip : Headers.parts "gzip" = ["gzip"] := by decide

theorem passes_filterCodings {r : Request}
    (hlength : TellsLength r.headers r.body)
    (hcoding : Headers.all r.headers "content-encoding" = ["gzip"]) :
    Passes (filterCodings : Layer σ) r r := by
  apply decides_filterCodings.passes
  have hdeclared : declaredCodings r.headers = ["gzip"] := by
    unfold declaredCodings
    rw [hcoding]
    exact parts_gzip
  have hknown :
      (declaredCodings r.headers).find? (! isKnownCoding ·) = none := by
    rw [hdeclared]
    simp [isKnownCoding, sameIgnoringCase_self]
  unfold admitCoded
  rw [hlength.declaresEmptyBody, if_neg Bool.false_ne_true, hknown]

theorem inflated_of_decompress {r : Request} {payload : Bytes}
    (hsize : r.body.length ≤ maxBodyBytes)
    (hpayload : Gzip.decompress r.body = .ok payload) :
    inflated r = .ok
      { r with
        headers := Headers.setLength
          (Headers.remove r.headers "content-encoding") payload
        body := payload } := by
  have hbody : r.body ≠ [] := by
    intro hnil
    rw [hnil] at hpayload
    nomatch hpayload
  rw [inflated, readBody_eq_ok hsize]
  simp [bind, Except.bind, hbody, hpayload, pure, Except.pure]

theorem passes_gzip {r : Request} {payload : Bytes}
    (hcoding : Headers.all r.headers "content-encoding" = ["gzip"])
    (hsize : r.body.length ≤ maxBodyBytes)
    (hpayload : Gzip.decompress r.body = .ok payload) :
    ∃ headers,
      (∀ name, name ≠ "content-length" → name ≠ "content-encoding" →
        Headers.all headers name = Headers.all r.headers name) ∧
      Passes (gzip : Layer σ) r { r with headers, body := payload } := by
  have hgzipped : isGzipped r.headers = true := by
    unfold isGzipped
    rw [Headers.text?_eq_some hcoding (by decide)]
    simp [parts_gzip, sameIgnoringCase_self]
  let stripped := Headers.remove r.headers "content-encoding"
  refine ⟨Headers.setLength stripped payload, fun name hlength hne => ?_,
    decides_gzip.passes ?_⟩
  · exact (Headers.all_set_of_ne hlength _).trans (Headers.all_remove_of_ne hne)
  · rw [admitInflated, if_pos hgzipped]
    exact inflated_of_decompress hsize hpayload

theorem passes_hmac {security : Security} {r : Request}
    (hsize : r.body.length ≤ maxBodyBytes)
    (hsigned : ∀ key, security.signer = some key →
      Headers.text? r.headers hashHeader = some (key.sign r.body)) :
    Passes (hmac security : Layer σ) r r := by
  apply decides_hmac.passes
  unfold admitSigned
  cases hsigner : security.signer with
  | none => rfl
  | some key =>
      have hverified : verified key r = .ok r := by
        unfold verified
        rw [readBody_eq_ok hsize]
        simp [bind, Except.bind, hsigned key hsigner, key.verify_sign, pure,
          Except.pure]
      exact hverified

theorem passes_trustedOnly {security : Security} {r : Request}
    (htrusted : security.isTrusted (Headers.text? r.headers realIpHeader) =
      true) :
    Passes (trustedOnly security : Layer σ) r r :=
  decides_trustedOnly.passes (if_pos htrusted)

theorem passes_jsonOnly {r : Request}
    (htype : Headers.all r.headers "content-type" = ["application/json"]) :
    Passes (jsonOnly : Layer σ) r r := by
  intro next s
  have hjson : isJson r.headers = true := by
    have htrim :
        Text.trim
          (String.ofList ("application/json".toList.takeWhile (· != ';'))) =
          "application/json" := by decide
    unfold isJson
    rw [Headers.text?_eq_some htype (by decide)]
    dsimp only
    rw [htrim, sameIgnoringCase_self]
  unfold jsonOnly
  rw [if_pos hjson]

/-! ## Batches -/

theorem status_finish (r : Request) (response : Response) :
    (finish r response).status = response.status := by
  unfold finish
  cases Route.ofPath? r.path with
  | none =>
    dsimp only
    split <;> rfl
  | some route =>
    dsimp only
    by_cases hmethod : route.methods.contains r.method
    · rw [if_pos hmethod]
      split <;> rfl
    · rw [if_neg hmethod]
      split <;> rfl

theorem outcome_router [SampleStore σ] {r : Request}
    (hmethod : r.method = "POST") (hpath : r.path = "/updates/")
    (htype : Headers.all r.headers "content-type" = ["application/json"])
    (s : σ) :
    outcome (router r) s = outcome (handle .updateBatch r.body) s := by
  have hroute : Route.ofPath? "/updates/" = some .updateBatch := by decide
  have hpost : (Route.methods .updateBatch).contains r.method = true := by
    rw [hmethod]
    decide
  unfold router
  rw [hpath, hroute]
  dsimp only
  rw [if_pos (show Route.takesJson .updateBatch = true from rfl)]
  refine (passes_jsonOnly htype _ s).trans ?_
  rw [if_pos hpost]

/-- A batch that is sealed as the server expects it is handled as if
it had come bare. -/
theorem outcome_app [SampleStore σ] {security : Security} {r : Request}
    {packed payload : Bytes} (hmethod : r.method = "POST")
    (hpath : r.path = "/updates/") (hlength : TellsLength r.headers r.body)
    (htype : Headers.all r.headers "content-type" = ["application/json"])
    (hcoding : Headers.all r.headers "content-encoding" = ["gzip"])
    (hopened : Opened security.opener r.body packed)
    (hpacked : packed.length ≤ r.body.length)
    (hpayload : Gzip.decompress packed = .ok payload)
    (hsize : r.body.length ≤ maxBodyBytes)
    (hlimit : payload.length ≤ maxBodyBytes)
    (hsigned : ∀ key, security.signer = some key →
      Headers.text? r.headers hashHeader = some (key.sign payload))
    (htrusted : security.isTrusted (Headers.text? r.headers realIpHeader) =
      true) (s : σ) :
    outcome (app security r) s = outcome (handle .updateBatch payload) s := by
  have hne : packed ≠ [] := by
    rintro rfl
    nomatch hpayload
  obtain ⟨opened, hopenedLength, hopenedAll, hdecrypt⟩ :=
    @passes_decrypt σ _ _ _ hlength hsize hopened hne
  have hopenedCoding :=
    (hopenedAll "content-encoding" (by decide)).trans hcoding
  obtain ⟨plain, hplainAll, hgzip⟩ :=
    @passes_gzip σ { r with headers := opened, body := packed } _ hopenedCoding
      (Nat.le_trans hpacked hsize) hpayload
  have hkept : ∀ name, name ≠ "content-length" → name ≠ "content-encoding" →
      Headers.all plain name = Headers.all r.headers name := fun name hl hc =>
    (hplainAll name hl hc).trans (hopenedAll name hl)
  have hhash := Headers.text?_congr (hkept hashHeader (by decide) (by decide))
  have hip := Headers.text?_congr (hkept realIpHeader (by decide) (by decide))
  have hplainType := (hkept "content-type" (by decide) (by decide)).trans htype
  calc outcome (app security r) s
      = outcome (protect security router r) s :=
        outcome_map (status_finish r) _ s
    _ = outcome (router { r with headers := plain, body := payload }) s :=
        ((hdecrypt _ s).trans
          (passes_filterCodings hopenedLength hopenedCoding _ s)).trans
          ((hgzip _ s).trans
            ((passes_hmac (r := { r with headers := plain, body := payload })
              hlimit (fun key hkey => hhash.trans (hsigned key hkey)) _ s).trans
            (passes_trustedOnly (by rw [hip]; exact htrusted) _ s)))
    _ = outcome (handle .updateBatch payload) s :=
        outcome_router (r := { r with headers := plain, body := payload })
          hmethod hpath hplainType s

end Telemetry.Http
