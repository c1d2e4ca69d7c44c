import Telemetry.Proofs.Http.Admission

/-!
# Which responses are signed

The layer that signs responses is the one that checks signatures, so it signs
what comes from behind it, successes and failures alike.  A request that this
layer or one before it refuses is answered without a signature, although the
answer has a body.
-/

namespace Telemetry.Http

variable {σ : Type} {security : Security} {key : SigningKey} {r inner : Request}
  {response : Response}

/-! ## Signatures of responses -/

/-- The body of a response before it was compressed, if it was. -/
def Response.plainBody? (response : Response) : Option Bytes :=
  if Headers.all response.headers "content-encoding" = ["gzip"] then
    (Gzip.decompress response.body).toOption
  else some response.body

/-- The response has one signature, which is that of its uncompressed body. -/
def BearsSignature (key : SigningKey) (response : Response) : Prop :=
  ∃ plain, response.plainBody? = some plain ∧
    Headers.all response.headers hashHeader = [key.sign plain]

/-- The headers of the response tell the type of its body at most. -/
def Unmarked (response : Response) : Prop :=
  ∀ p ∈ response.headers, p.1 = "content-type"

theorem unmarked_bare (status : Nat) : Unmarked (.bare status) := by
  intro p hp
  cases hp

theorem unmarked_typed (status : Nat) (type : String) (body : Bytes) :
    Unmarked (.typed status type body) := by
  intro p hp
  rw [List.mem_singleton.mp hp]

theorem unmarked_text (status : Nat) (s : String) : Unmarked (.text status s) :=
  unmarked_typed _ _ _

theorem Unmarked.all_eq_nil (h : Unmarked response) {name : String}
    (hname : name ≠ "content-type") :
    Headers.all response.headers name = [] := by
  apply List.map_eq_nil_iff.mpr
  apply List.filter_eq_nil_iff.mpr
  intro p hp
  rw [h p hp]
  simpa using Ne.symm hname

/-! ## Refusals -/

/-- A decision that refuses with a failure and a text that says why. -/
def RefusesWithText {α : Type} (decision : Except Response α) : Prop :=
  ∀ refusal, decision = .error refusal →
    ∃ status s, 300 ≤ status ∧ refusal = .text status s

theorem refusesWithText_ok {α : Type} (a : α) :
    RefusesWithText (.ok a : Except Response α) := by
  intro refusal h
  cases h

theorem refusesWithText_text {α : Type} {status : Nat} (hstatus : 300 ≤ status)
    (s : String) :
    RefusesWithText (.error (.text status s) : Except Response α) := by
  intro refusal h
  cases h
  exact ⟨status, s, hstatus, rfl⟩

theorem RefusesWithText.bind {α β : Type} {decision : Except Response α}
    {verdict : α → Except Response β} (h : RefusesWithText decision)
    (hverdict : ∀ a, RefusesWithText (verdict a)) :
    RefusesWithText (decision >>= verdict) := by
  cases decision with
  | error refusal => exact fun _ heq => h _ (congrArg _ (Except.error.inj heq))
  | ok a => exact hverdict a

theorem refusesWithText_readBody (body : Bytes) :
    RefusesWithText (readBody body) := by
  rw [readBody]
  split
  · exact refusesWithText_ok _
  · exact refusesWithText_text (by decide) _

theorem refusesWithText_admitOpened (security : Security) (r : Request) :
    RefusesWithText (admitOpened security r) := by
  rw [admitOpened]
  cases security.opener with
  | none => exact refusesWithText_ok r
  | some opener =>
      dsimp only
      split
      · exact refusesWithText_ok r
      · apply (refusesWithText_readBody r.body).bind
        intro body
        split
        · exact refusesWithText_ok _
        · split
          · exact refusesWithText_ok _
          · exact refusesWithText_text (by decide) _

theorem refusesWithText_admitCoded (r : Request) :
    RefusesWithText (admitCoded r) := by
  rw [admitCoded]
  split
  · exact refusesWithText_ok r
  · split
    · exact refusesWithText_text (by decide) _
    · exact refusesWithText_ok r

theorem refusesWithText_admitInflated (r : Request) :
    RefusesWithText (admitInflated r) := by
  rw [admitInflated]
  split
  · apply (refusesWithText_readBody r.body).bind
    intro body
    dsimp only
    split
    · exact refusesWithText_ok _
    · split
      · exact refusesWithText_ok _
      · exact refusesWithText_text (by decide) _
  · exact refusesWithText_ok r

theorem refusesWithText_admitSigned (security : Security) (r : Request) :
    RefusesWithText (admitSigned security r) := by
  rw [admitSigned]
  cases security.signer with
  | none => exact refusesWithText_ok r
  | some key =>
      apply (refusesWithText_readBody r.body).bind
      intro body
      split
      · exact refusesWithText_ok r
      · split
        · exact refusesWithText_text (by decide) _
        · split
          · exact refusesWithText_ok r
          · exact refusesWithText_text (by decide) _

/-- What the layers up to the one that checks signatures hand on to those behind
it. -/
def vouched (security : Security) (r : Request) : Except Response Request := do
  let r ← admitOpened security r
  let r ← admitCoded r
  let r ← admitInflated r
  admitSigned security r

theorem refusesWithText_vouched (security : Security) (r : Request) :
    RefusesWithText (vouched security r) := by
  apply (refusesWithText_admitOpened security r).bind
  intro opened
  apply (refusesWithText_admitCoded opened).bind
  intro coded
  apply (refusesWithText_admitInflated coded).bind
  exact refusesWithText_admitSigned security

theorem refusesWithText_admitTrusted (security : Security) (r : Request) :
    RefusesWithText (admitTrusted security r) := by
  rw [admitTrusted]
  split
  · exact refusesWithText_ok r
  · exact refusesWithText_text (by decide) _

/-! ## Answers from behind the layers -/

/-- The handler never marks its answers. -/
def AnswersUnmarked (handler : Handler σ) : Prop :=
  ∀ r s, Unmarked (answered (handler r) s)

theorem ApiError.unmarked_response (e : ApiError) : Unmarked e.response := by
  cases e <;> exact unmarked_text _ _

theorem unmarked_respond {α β : Type} (request : Except ApiError α)
    (op : α → ServiceM σ β) {response : β → Response}
    (h : ∀ b, Unmarked (response b)) (s : σ) :
    Unmarked (answered (respond request op response) s) := by
  cases request with
  | error e => exact e.unmarked_response
  | ok a =>
      rw [answered, respond]
      split
      · exact h _
      · exact ApiError.unmarked_response _

theorem unmarked_handle [SampleStore σ] (route : Route) (body : Bytes) (s : σ) :
    Unmarked (answered (handle route body) s) := by
  cases route with
  | index => exact unmarked_respond _ _ (fun _ => unmarked_typed _ _ _) s
  | ping => exact unmarked_respond _ _ (fun _ => unmarked_bare _) s
  | updateMetric => exact unmarked_respond _ _ (fun _ => unmarked_typed _ _ _) s
  | updateBatch => exact unmarked_respond _ _ (fun _ => unmarked_bare _) s
  | readMetric => exact unmarked_respond _ _ (fun _ => unmarked_typed _ _ _) s
  | updateByPath kind name value =>
      exact unmarked_respond _ _ (fun _ => unmarked_typed _ _ _) s
  | readByPath kind name =>
      exact unmarked_respond _ _ (fun _ => unmarked_typed _ _ _) s

theorem answersUnmarked_router [SampleStore σ] :
    AnswersUnmarked (router : Handler σ) := by
  intro r s
  rw [router]
  cases Route.ofPath? r.path with
  | none => exact unmarked_bare _
  | some route =>
      dsimp only
      have hmethod :
        Unmarked (answered (if route.methods.contains r.method = true then
          handle route r.body else return .bare 405) s) := by
        split
        · exact unmarked_handle route r.body s
        · exact unmarked_bare _
      split
      · rw [jsonOnly]
        split
        · exact hmethod
        · exact unmarked_text _ _
      · exact hmethod

/-- Requests that are handed on are answered by the next handler, and the others
by their refusals. -/
theorem unmarked_orRefuse {α : Type} {decision : Except Response α}
    {next : α → StateM σ Response} (hdecision : RefusesWithText decision)
    (hnext : ∀ a s, Unmarked (answered (next a) s)) (s : σ) :
    Unmarked (answered (orRefuse decision next) s) := by
  cases hverdict : decision with
  | ok a => exact hnext a s
  | error refusal =>
      obtain ⟨status, text, -, rfl⟩ := hdecision refusal hverdict
      exact unmarked_text status text

theorem answersUnmarked_trustedOnly [SampleStore σ] :
    AnswersUnmarked (trustedOnly security router : Handler σ) := by
  intro r s
  rw [trustedOnly_eq]
  exact unmarked_orRefuse (refusesWithText_admitTrusted security r)
    answersUnmarked_router s

/-! ## Answers that are signed -/

theorem vouched_eq (security : Security) (r : Request) :
    vouched security r =
      admitFiltered security r >>= fun coded => admitInflated coded >>=
        admitSigned security := by
  rw [vouched, admitFiltered]
  cases admitOpened security r <;> rfl

/-- Whatever a layer up to the one that checks signatures refuses is answered
with the refusal as it is. -/
theorem answered_protect_of_refused (hkey : security.signer = some key)
    {refusal : Response} (h : vouched security r = .error refusal)
    (handler : Handler σ) (s : σ) :
    answered (protect security handler r) s = refusal := by
  rw [vouched_eq] at h
  rw [protect_eq]
  cases hcoded : admitFiltered security r with
  | error e =>
      rw [hcoded] at h
      exact Except.error.inj h
  | ok coded =>
      rw [hcoded] at h
      change (admitInflated coded >>= admitSigned security) = .error refusal
        at h
      change answered (orRefuse (admitInflated coded) _) s = refusal
      cases hinflated : admitInflated coded with
      | error e =>
          rw [hinflated] at h
          exact Except.error.inj h
      | ok inflated =>
          rw [hinflated] at h
          change admitSigned security inflated = .error refusal at h
          obtain ⟨status, text, hstatus, htext⟩ :=
            refusesWithText_admitSigned security inflated refusal h
          change packed coded.headers (answered (hmac security _ inflated) s) =
            refusal
          rw [hmac_eq hkey, h]
          exact packed_of_refusal hstatus htext coded.headers

/-- Whatever passes the layer that checks signatures is answered with what comes
from behind it, signed and then packed. -/
theorem answered_protect_of_vouched (hkey : security.signer = some key)
    (h : vouched security r = .ok inner) (handler : Handler σ) (s : σ) :
    ∃ headers, answered (protect security handler r) s =
      packed headers
        (signed key (answered (trustedOnly security handler inner) s)) := by
  rw [vouched_eq] at h
  obtain ⟨coded, hcoded, h⟩ := exists_of_bind_eq_ok h
  obtain ⟨inflated, hinflated, hsigned⟩ := exists_of_bind_eq_ok h
  refine ⟨coded.headers, ?_⟩
  rw [protect_eq, hcoded]
  change answered (orRefuse (admitInflated coded) _) s = _
  rw [hinflated]
  change packed coded.headers (answered (hmac security _ inflated) s) = _
  rw [hmac_eq hkey, hsigned]
  rfl

/-! ## What the signature is of -/

theorem BearsSignature.of_plain
    (hcoding : Headers.all response.headers "content-encoding" = [])
    (hhash : Headers.all response.headers hashHeader =
      [key.sign response.body]) :
    BearsSignature key response := by
  refine ⟨response.body, ?_, hhash⟩
  simp [Response.plainBody?, hcoding]

/-- Compressing a response leaves the signature of what was compressed. -/
theorem BearsSignature.of_compressed (hbody : response.body ≠ [])
    (hhash : Headers.all response.headers hashHeader =
      [key.sign response.body]) :
    BearsSignature key (compressed response) := by
  have hnonempty : response.body.isEmpty = false :=
    List.isEmpty_eq_false_iff.mpr hbody
  rw [compressed, hnonempty, if_neg Bool.false_ne_true]
  refine ⟨response.body, ?_, ?_⟩
  · have hcoding : Headers.all (Headers.setLength
        (Headers.set response.headers "content-encoding" "gzip")
          (Gzip.compress response.body)) "content-encoding" = ["gzip"] :=
      (Headers.all_set_of_ne (by decide) _).trans (Headers.all_set _ _ _)
    rw [Response.plainBody?, if_pos hcoding]
    dsimp only
    rw [Gzip.decompress_compress]
    rfl
  · have hkept : Headers.all (Headers.setLength
        (Headers.set response.headers "content-encoding" "gzip")
          (Gzip.compress response.body)) hashHeader =
          Headers.all response.headers hashHeader :=
      (Headers.all_set_of_ne (by decide) _).trans
        (Headers.all_set_of_ne (by decide) _)
    exact hkept.trans hhash

theorem body_packed_of_nil (h : response.body = []) (headers : Headers) :
    (packed headers response).body = [] := by
  rw [packed, compressed, h]
  split <;> exact h

theorem bearsSignature_packed_signed (hunmarked : Unmarked response)
    (headers : Headers)
    (hbody : (packed headers (signed key response)).body ≠ []) :
    BearsSignature key (packed headers (signed key response)) := by
  by_cases hempty : response.body = []
  · have hsigned : signed key response = response := by
      simp [signed, hempty]
    rw [hsigned] at hbody
    exact absurd (body_packed_of_nil hempty headers) hbody
  · have hsigned : signed key response =
        response.withHeader hashHeader (key.sign response.body) := by
      simp [signed, hempty]
    have hhash : Headers.all (signed key response).headers hashHeader =
        [key.sign response.body] := by
      rw [hsigned]
      exact Headers.all_set _ _ _
    have hcoding :
        Headers.all (signed key response).headers "content-encoding" = [] := by
      rw [hsigned]
      exact (Headers.all_set_of_ne (by decide) _).trans
        (hunmarked.all_eq_nil (by decide))
    have hsame : (signed key response).body = response.body := by
      rw [hsigned]
      rfl
    rw [← hsame] at hempty hhash
    rw [packed]
    split
    · exact .of_compressed hempty hhash
    · exact .of_plain hcoding hhash

/-! ## The last step -/

/-- The last step may name methods, and may drop the body. -/
theorem exists_finish (r : Request) (response : Response) :
    ∃ headers, (∀ name, name ≠ "allow" →
        Headers.all headers name = Headers.all response.headers name) ∧
      finish r response = { response with
        headers, body :=
          if r.method == "HEAD" then [] else response.body } := by
  have hhead (headers : Headers) :
      (if r.method == "HEAD" then { response with headers, body := [] }
        else { response with headers }) = { response with
          headers, body :=
            if r.method == "HEAD" then [] else response.body } := by
    split <;> rfl
  rw [finish]
  cases Route.ofPath? r.path with
  | none => exact ⟨response.headers, fun _ _ => rfl, hhead response.headers⟩
  | some route =>
      dsimp only
      by_cases hmethod : route.methods.contains r.method = true
      · rw [if_pos hmethod]
        exact ⟨response.headers, fun _ _ => rfl, hhead response.headers⟩
      · rw [if_neg hmethod]
        exact ⟨_, fun _ hname => Headers.all_set_of_ne hname _, hhead _⟩

theorem BearsSignature.finish (h : BearsSignature key response) (r : Request)
    (hbody : (Http.finish r response).body ≠ []) :
    BearsSignature key (Http.finish r response) := by
  obtain ⟨plain, hplain, hhash⟩ := h
  obtain ⟨headers, hkept, hfinish⟩ := exists_finish r response
  rw [hfinish] at hbody ⊢
  dsimp only at hbody
  split at hbody
  · exact absurd rfl hbody
  · next hhead =>
      refine ⟨plain, ?_, (hkept hashHeader (by decide)).trans hhash⟩
      rw [← hplain, Response.plainBody?, Response.plainBody?]
      dsimp only
      rw [hkept "content-encoding" (by decide), if_neg hhead]

/-- With a key, a response that has a body bears the signature of its
uncompressed body exactly when the request passes the layers up to the one that
checks signatures.  Any other response is the refusal of one of these layers,
and bears no signature at all. -/
theorem response_signed_iff_vouched [SampleStore σ]
    (hkey : security.signer = some key) (r : Request) (s : σ)
    (hbody : (answered (app security r) s).body ≠ []) :
    (BearsSignature key (answered (app security r) s) ↔
        ∃ inner, vouched security r = .ok inner) ∧
      ∀ refusal, vouched security r = .error refusal →
        answered (app security r) s = finish r refusal ∧
          Headers.all (answered (app security r) s).headers hashHeader =
            [] := by
  have hrefused : ∀ refusal, vouched security r = .error refusal →
      answered (app security r) s = finish r refusal ∧
        Headers.all (answered (app security r) s).headers hashHeader = [] := by
    intro refusal h
    have hanswer : answered (app security r) s = finish r refusal :=
      congrArg (finish r) (answered_protect_of_refused hkey h router s)
    obtain ⟨status, text, -, htext⟩ :=
      refusesWithText_vouched security r refusal h
    have hunmarked : Unmarked refusal := htext ▸ unmarked_text status text
    obtain ⟨headers, hkept, hfinish⟩ := exists_finish r refusal
    refine ⟨hanswer, ?_⟩
    rw [hanswer, hfinish]
    exact (hkept hashHeader (by decide)).trans
      (hunmarked.all_eq_nil (by decide))
  refine ⟨⟨?_, ?_⟩, hrefused⟩
  · rintro ⟨plain, -, hhash⟩
    cases hvouched : vouched security r with
    | ok inner => exact ⟨inner, rfl⟩
    | error refusal =>
        rw [(hrefused refusal hvouched).2] at hhash
        cases hhash
  · rintro ⟨inner, hvouched⟩
    obtain ⟨headers, hprotect⟩ :=
      answered_protect_of_vouched hkey hvouched router s
    have hanswer : answered (app security r) s =
        finish r
          (packed headers
            (signed key (answered (trustedOnly security router inner) s))) :=
      congrArg (finish r) hprotect
    rw [hanswer] at hbody ⊢
    have hpacked : (packed headers
        (signed key (answered (trustedOnly security router inner) s))).body ≠
        [] := by
      intro hnil
      obtain ⟨_, -, hfinish⟩ := exists_finish r
        (packed headers
          (signed key (answered (trustedOnly security router inner) s)))
      apply hbody
      rw [hfinish]
      dsimp only
      rw [hnil, ite_self]
    exact (bearsSignature_packed_signed (answersUnmarked_trustedOnly inner s)
      headers hpacked).finish r hbody

/-- A failure that comes from behind the layers is signed. -/
theorem response_signed_of_wrong_type :
    let key : SigningKey := ⟨Utf8.encode "secret", by decide⟩
    let security : Security := ⟨some key, none, none⟩
    let r : Request := ⟨"POST", "/updates/", [("accept-encoding", "gzip")], []⟩
    let response := answered (app security r) (MemoryStore.ephemeral .empty)
    security.signer = some key ∧
      response.body = Utf8.encode "expected application/json" ∧
      BearsSignature key response := by
  intro key security r response
  have hbody : response.body = Utf8.encode "expected application/json" := by
    decide +kernel
  have hne : response.body ≠ [] := by
    rw [hbody]
    decide
  exact ⟨rfl, hbody, (response_signed_iff_vouched rfl r _ hne).1.mpr ⟨r, rfl⟩⟩

/-- A batch without a signature is refused with a text that is not signed. -/
theorem refusal_of_unsigned_batch_unsigned :
    let key : SigningKey := ⟨Utf8.encode "secret", by decide⟩
    let security : Security := ⟨some key, none, none⟩
    let r : Request :=
      ⟨"POST", "/updates/", [("content-type", "application/json")],
        Utf8.encode "[]"⟩
    let response := answered (app security r) (MemoryStore.ephemeral .empty)
    security.signer = some key ∧
      response = .text 400 "missing HashSHA256 header" ∧ response.body ≠ [] ∧
      ¬ BearsSignature key response := by
  intro key security r response
  have hresponse : response = .text 400 "missing HashSHA256 header" := by
    decide +kernel
  refine ⟨rfl, hresponse, ?_, ?_⟩
  · rw [hresponse]
    decide
  · rintro ⟨plain, -, hhash⟩
    rw [hresponse] at hhash
    cases hhash

end Telemetry.Http
