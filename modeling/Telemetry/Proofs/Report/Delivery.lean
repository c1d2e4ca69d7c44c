import Telemetry.Report.Transport
import Telemetry.Proofs.Cipher.Rsa
import Telemetry.Proofs.Http.Layers
import Telemetry.Proofs.Metric.Document
import Telemetry.Proofs.Metric.Message
import Telemetry.Proofs.Service

/-!
# What becomes of a chunk that is delivered

An agent and a server that share their secrets agree on every chunk: the server
undoes what the agent did to it, layer by layer, and stores the metrics in their
order when none of them breaks a rule.  Otherwise the agent hears of a failure
and the store is as it was.
-/

namespace Telemetry

open Service

/-! ## What documents leave out -/

theorem storable_documented {m : Metric} :
    Storable m.documented ↔ Storable m := by
  have hvalue : Rule.violation? m.documented .value = none ↔
      Rule.violation? m .value = none := by
    obtain ⟨id, kind, delta, value⟩ := m
    cases value with
    | none => rfl
    | some v =>
        by_cases hfinite : v.isFinite = true
        · simp [Rule.violation?, Metric.documented, Option.filter, hfinite]
        · simp [Rule.violation?, Metric.documented, Option.filter, hfinite]
  simp only [Storable, Metric.violations, updateRules,
    List.filterMap_eq_nil_iff, List.mem_cons, List.not_mem_nil, or_false,
    forall_eq_or_imp, forall_eq, hvalue]
  rfl

theorem write?_documented {m : Metric} (h : Storable m) :
    write? m.documented = write? m := by
  rcases h.exists_write with ⟨v, hv, hfinite, -⟩ | ⟨d, hd, hw⟩
  · rw [Metric.documented_of_finite]
    rintro w hw
    obtain rfl : v = w := Option.some.inj (hv.symm.trans hw)
    exact hfinite
  · obtain ⟨id, kind, delta, value⟩ := m
    cases kind with
    | gauge => cases value <;> nomatch hw
    | counter =>
        obtain rfl : delta = some d := hd
        rfl
    | unknown => nomatch hw

theorem foldl_record_documented {chunk : Batch}
    (h : ∀ metric ∈ chunk, Storable metric) (s : Samples) :
    (chunk.map Metric.documented).foldl record s = chunk.foldl record s := by
  induction chunk generalizing s with
  | nil => rfl
  | cons metric chunk ih =>
      have hfirst : record s metric.documented = record s metric := by
        unfold record
        rw [write?_documented (h metric List.mem_cons_self)]
      rw [List.map_cons, List.foldl_cons, List.foldl_cons, hfirst]
      exact ih (fun other hother => h other (List.mem_cons_of_mem _ hother)) _

/-! ## Shared secrets -/

/-- The agent protects its chunks as the server expects it: they have the same
key for signatures, the server opens what the agent encrypts, and trusts the
address that it gives. -/
structure Agrees (s : Seal) (security : Security) : Prop where
  signer : s.signer = security.signer
  cipher :
    match s.sealer, security.opener with
    | none, none => True
    | some sealer, some opener =>
      opener.Opens sealer ∧ ∀ i, (s.seeds i).length = Oaep.digestSize
    | _, _ => False
  visible : ∀ ip, s.realIp = some ip → Http.Headers.visible? ip = some ip
  trusted : security.isTrusted s.realIp = true

/-- The chunk is within the limits of what carries it. -/
def Fits (s : Seal) (chunk : Batch) : Prop :=
  match s.encoding with
  | .document => chunk.toJson.length ≤ Http.maxJsonBytes ∧
      ∀ e, s.enclose chunk = .ok e → e.body.length ≤ Http.maxBodyBytes
  | .messages => chunk.toMessages.length < UInt64.size

/-- A server with a store in memory, as agents reach it. -/
def served (security : Security) : Encoding → Transport MemoryStore
  | .document => Http.transport fun r => some <$> Http.app security r
  | .messages =>
    Rpc.transport fun call => some <$> Rpc.updateBatch security call

/-- The answer to a chunk and the store after it are as they should be:
all metrics are stored in their order, or one of them breaks a rule and
nothing has changed. -/
structure Settles (chunk : Batch) (m : MemoryStore)
    (answer : Except TransportError Unit × MemoryStore) : Prop where
  ok_iff : answer.1 = .ok () ↔ ∀ metric ∈ chunk, Storable metric
  samples_eq : answer.1 = .ok () →
    answer.2.samples = chunk.foldl record m.samples
  unchanged : answer.1 ≠ .ok () → answer.2 = m

theorem settles_of_storable {chunk : Batch} {m m' : MemoryStore}
    (h : ∀ metric ∈ chunk, Storable metric)
    (hsamples : m'.samples = chunk.foldl record m.samples) :
    Settles chunk m (.ok (), m') where
  ok_iff := iff_of_true rfl h
  samples_eq := fun _ => hsamples
  unchanged := fun hne => absurd rfl hne

theorem settles_of_not_storable {chunk : Batch} (m : MemoryStore)
    (h : ¬ ∀ metric ∈ chunk, Storable metric) (e : TransportError) :
    Settles chunk m (.error e, m) where
  ok_iff := iff_of_false (fun hok => nomatch hok) h
  samples_eq := fun hok => nomatch hok
  unchanged := fun _ => rfl

section Enclosed

variable {s : Seal} {security : Security} {chunk : Batch}

/-- What the agent sends for a chunk, and what is inside of it. -/
theorem exists_enclose (h : Agrees s security) (chunk : Batch) :
    ∃ body, s.enclose chunk =
        .ok ⟨body, s.signer.map (·.sign (s.encoding.encode chunk)), s.realIp⟩ ∧
      Opened security.opener body (Gzip.compress (s.encoding.encode chunk)) ∧
      (Gzip.compress (s.encoding.encode chunk)).length ≤ body.length := by
  have hcipher := h.cipher
  unfold Seal.enclose Opened
  cases hsealer : s.sealer with
  | none =>
      cases hopener : security.opener with
      | none => exact ⟨_, rfl, rfl, Nat.le_refl _⟩
      | some opener =>
          rw [hsealer, hopener] at hcipher
          exact hcipher.elim
  | some sealer =>
      cases hopener : security.opener with
      | none =>
          rw [hsealer, hopener] at hcipher
          exact hcipher.elim
      | some opener =>
          rw [hsealer, hopener] at hcipher
          obtain ⟨body, hencrypt, hdecrypt, hlength⟩ :=
            hcipher.1.decrypt_encrypt hcipher.2
              (Gzip.compress (s.encoding.encode chunk))
          refine ⟨body, ?_, hdecrypt, hlength⟩
          simp [hencrypt, bind, Except.bind, pure, Except.pure]

theorem length_body_le {c : BlockSealer} {o : BlockOpener}
    (hsealer : s.sealer = some c) (hopens : o.Opens c)
    (hseeds : ∀ i, (s.seeds i).length = Oaep.digestSize) {e : Envelope}
    (h : s.enclose chunk = .ok e) :
    e.body.length ≤ (Gzip.compress (s.encoding.encode chunk)).length *
      c.size := by
  unfold Seal.enclose at h
  rw [hsealer] at h
  obtain ⟨body, hencrypt, henvelope⟩ := exists_of_bind_eq_ok h
  obtain rfl := Except.ok.inj henvelope
  exact hopens.length_encrypt_le hseeds hencrypt

theorem deliver_eq {σ : Type} {e : Envelope} (h : s.enclose chunk = .ok e)
    (transport : Transport σ) : deliver s transport chunk = transport e := by
  unfold deliver
  rw [h]

/-- The signature that the agent gives is the one that the server asks for. -/
theorem Agrees.signature_eq (h : Agrees s security) {signature : Option String}
    {payload : Bytes} (hgiven : signature = s.signer.map (·.sign payload)) :
    ∀ key, security.signer = some key →
      signature = some (key.sign payload) := by
  intro key hkey
  rw [hgiven, h.signer, hkey]
  rfl

/-- The server trusts the address that the agent gives. -/
theorem Agrees.isTrusted_eq (h : Agrees s security) {realIp : Option String}
    (hgiven : realIp = s.realIp) : security.isTrusted realIp = true := by
  rw [hgiven]
  exact h.trusted

theorem visible?_sign (key : SigningKey) (payload : Bytes) :
    Http.Headers.visible? (key.sign payload) = some (key.sign payload) := by
  refine Http.Headers.visible?_eq_some fun c hc => ?_
  have hmem : c ∈ Hex.encodeChars (Hmac.sha256 key.bytes payload) := by
    unfold SigningKey.sign Hex.encode at hc
    rwa [String.toList_ofList] at hc
  exact Hex.of_mem_encodeChars (p := Http.Headers.isVisible) (by decide) hmem

theorem visible?_of_mem_signature (signer : Option SigningKey) (payload : Bytes)
    (x : String) (h : signer.map (·.sign payload) = some x) :
    Http.Headers.visible? x = some x := by
  obtain ⟨key, -, rfl⟩ := Option.map_eq_some_iff.mp h
  exact visible?_sign key payload

theorem isHeaderValue_of_visible? {value : String}
    (h : Http.Headers.visible? value = some value) :
    Http.isHeaderValue value = true := by
  have hvisible : value.toList.all Http.Headers.isVisible = true := by
    unfold Http.Headers.visible? at h
    split at h
    · next hall => exact hall
    · nomatch h
  refine List.all_eq_true.mpr fun c hc => ?_
  have hchar := List.all_eq_true.mp hvisible c hc
  simp only [Http.Headers.isVisible, Bool.or_eq_true, Bool.and_eq_true,
    decide_eq_true_eq] at hchar ⊢
  rcases hchar with ⟨hlow, hhigh⟩ | htab
  · refine Or.inr ⟨UInt32.le_iff_toNat_le.mpr hlow, bne_iff_ne.mpr ?_⟩
    rintro rfl
    exact absurd hhigh (by decide)
  · exact Or.inl htab

/-! ## Documents -/

theorem exists_request {e : Envelope}
    (hsignature : ∀ x, e.signature = some x → Http.Headers.visible? x = some x)
    (hip : ∀ x, e.realIp = some x → Http.Headers.visible? x = some x) :
    ∃ headers, Http.request? e = some ⟨"POST", "/updates/", headers, e.body⟩ ∧
      Http.Headers.all headers "content-type" = ["application/json"] ∧
      Http.Headers.all headers "content-encoding" = ["gzip"] ∧
      Http.Headers.all headers "content-length" = [toString e.body.length] ∧
      Http.Headers.text? headers Http.hashHeader = e.signature ∧
      Http.Headers.text? headers Http.realIpHeader = e.realIp := by
  obtain ⟨body, signature, realIp⟩ := e
  cases signature with
  | none =>
      cases realIp with
      | none => exact ⟨_, rfl, rfl, rfl, rfl, rfl, rfl⟩
      | some ip =>
          have hshown := hip ip rfl
          refine ⟨_, if_pos ?_, rfl, rfl, rfl, rfl,
            Http.Headers.text?_eq_some rfl hshown⟩
          simp [isHeaderValue_of_visible? hshown]
  | some signature =>
      have hsigned := hsignature signature rfl
      cases realIp with
      | none =>
          refine ⟨_, if_pos ?_, rfl, rfl, rfl,
            Http.Headers.text?_eq_some rfl hsigned, rfl⟩
          simp [isHeaderValue_of_visible? hsigned]
      | some ip =>
          have hshown := hip ip rfl
          refine ⟨_, if_pos ?_, rfl, rfl, rfl,
            Http.Headers.text?_eq_some rfl hsigned,
            Http.Headers.text?_eq_some rfl hshown⟩
          simp [isHeaderValue_of_visible? hsigned,
            isHeaderValue_of_visible? hshown]

theorem transport_of_outcome {σ : Type} {app : Http.Handler σ} {e : Envelope}
    {r : Http.Request} (hrequest : Http.request? e = some r) {s s' : σ}
    {status : Nat} (houtcome : Http.outcome (app r) s = (status, s')) :
    ∃ response : Http.Response, response.status = status ∧
      Http.transport (fun r => some <$> app r) e s =
        (if response.isSuccess then .ok ()
          else .error (.refused status
            (Text.trim ((Utf8.decode? response.body).getD ""))), s') := by
  rcases hanswer : (app r s : Http.Response × σ) with ⟨response, after⟩
  unfold Http.outcome at houtcome
  rw [hanswer] at houtcome
  obtain ⟨rfl, rfl⟩ := Prod.mk.inj houtcome
  refine ⟨response, rfl, ?_⟩
  unfold Http.transport
  rw [hrequest]
  simp only [bind, StateT.bind, Functor.map, StateT.map, hanswer, pure]
  by_cases hsuccess : response.isSuccess = true
  · rw [if_pos hsuccess, if_pos hsuccess]
    rfl
  · rw [if_neg hsuccess, if_neg hsuccess]
    rfl

/-- What the server does with a document that it has read. -/
theorem outcome_updateBatch {payload : Bytes}
    (hlimit : payload.length ≤ Http.maxJsonBytes) {batch : Batch}
    (hread : Batch.ofJson payload = .ok batch) (m : MemoryStore) :
    ((∀ metric ∈ batch, Storable metric) ∧
      ∃ m', Http.outcome (Http.handle .updateBatch payload) m = (200, m') ∧
        m'.samples = batch.foldl record m.samples) ∨
    ((¬ ∀ metric ∈ batch, Storable metric) ∧
      Http.outcome (Http.handle .updateBatch payload) m = (400, m)) := by
  have hjson : Http.readJson Batch.ofJson payload = .ok batch := by
    unfold Http.readJson
    rw [if_neg (Nat.not_lt_of_le hlimit), hread]
    rfl
  unfold Http.outcome Http.handle Http.respond
  dsimp only
  rw [hjson]
  dsimp only
  by_cases hstorable : ∀ metric ∈ batch, Storable metric
  · obtain ⟨m', hupdate, hsamples⟩ := samples_updateBatch hstorable m
    refine Or.inl ⟨hstorable, m', ?_, hsamples⟩
    rw [hupdate]
    rfl
  · have hupdate := updateBatch_of_not_storable hstorable m
    refine Or.inr ⟨hstorable, ?_⟩
    rw [hupdate]
    rfl

theorem deliver_document (hagrees : Agrees s security)
    (hdocument : s.encoding = .document) (hfits : Fits s chunk)
    (hreadable : ∀ metric ∈ chunk, metric.HasReadableValue) (m : MemoryStore) :
    Settles chunk m (deliver s (served security .document) chunk m) := by
  obtain ⟨body, henclose, hopened, hpacked⟩ := exists_enclose hagrees chunk
  unfold Fits at hfits
  rw [hdocument] at hfits henclose hopened hpacked
  obtain ⟨hlimit, hsize⟩ := hfits
  have hbody : body.length ≤ Http.maxBodyBytes := hsize _ henclose
  have hne : body ≠ [] := by
    rintro rfl
    exact Gzip.compress_ne_nil _
      (List.length_eq_zero_iff.mp (Nat.le_zero.mp hpacked))
  obtain ⟨headers, hrequest, htype, hcoding, hlength, hhash, hip⟩ :=
    exists_request (e := ⟨body, s.signer.map (·.sign chunk.toJson), s.realIp⟩)
      (visible?_of_mem_signature s.signer _) hagrees.visible
  have houtcome := Http.outcome_app (r := ⟨"POST", "/updates/", headers, body⟩)
    rfl rfl ⟨hne, hlength⟩ htype hcoding hopened hpacked
      (Gzip.decompress_compress _) hbody
    (Nat.le_trans hlimit (by decide)) (hagrees.signature_eq hhash)
      (hagrees.isTrusted_eq hip) m
  -- a document leaves out a value that is not finite; a gauge breaks a rule
  -- with or without it
  have hstorable : (∀ metric ∈ chunk.map Metric.documented, Storable metric) ↔
      ∀ metric ∈ chunk, Storable metric := by
    simp only [List.forall_mem_map, storable_documented]
  have hdeliver : deliver s (served security .document) chunk =
      Http.transport (fun r => some <$> Http.app security r)
        ⟨body, s.signer.map (·.sign chunk.toJson), s.realIp⟩ :=
          deliver_eq henclose _
  rw [hdeliver]
  rcases outcome_updateBatch hlimit (Batch.ofJson_toJson hreadable) m with
    ⟨hall, m', hhandle, hsamples⟩ | ⟨hnot, hhandle⟩
  · have hchunk := hstorable.mp hall
    rw [foldl_record_documented hchunk] at hsamples
    obtain ⟨response, hstatus, htransport⟩ :=
      transport_of_outcome hrequest (houtcome.trans hhandle)
    have hsuccess : response.isSuccess = true := by
      unfold Http.Response.isSuccess
      rw [hstatus]
      rfl
    rw [htransport, if_pos hsuccess]
    exact settles_of_storable hchunk hsamples
  · obtain ⟨response, hstatus, htransport⟩ :=
      transport_of_outcome hrequest (houtcome.trans hhandle)
    have hfailure : ¬ response.isSuccess = true := by
      unfold Http.Response.isSuccess
      rw [hstatus]
      decide
    rw [htransport, if_neg hfailure]
    exact settles_of_not_storable m
      (fun hchunk => hnot (hstorable.mpr hchunk)) _

/-! ## Messages -/

theorem metadata_of_visible? {name : String} {value : Option String}
    (h : ∀ x, value = some x → Http.Headers.visible? x = some x) :
    Rpc.metadata name value = .ok (value.map fun x => (name, x)).toList := by
  cases value with
  | none => rfl
  | some x =>
      unfold Rpc.metadata
      simp [h x rfl]

theorem exists_call {e : Envelope}
    (hsignature : ∀ x, e.signature = some x → Http.Headers.visible? x = some x)
    (hip : ∀ x, e.realIp = some x → Http.Headers.visible? x = some x) :
    ∃ metadata, Rpc.callOf e = .ok ⟨metadata, e.body⟩ ∧
      Http.Headers.text? metadata Http.hashHeader = e.signature ∧
      Http.Headers.text? metadata Http.realIpHeader = e.realIp := by
  obtain ⟨body, signature, realIp⟩ := e
  refine ⟨(signature.map fun x => (Http.hashHeader, x)).toList ++
    (realIp.map fun x => (Http.realIpHeader, x)).toList, ?_, ?_⟩
  · unfold Rpc.callOf
    rw [metadata_of_visible? hsignature, metadata_of_visible? hip]
    rfl
  · cases signature with
    | none =>
        cases realIp with
        | none => exact ⟨rfl, rfl⟩
        | some ip => exact ⟨rfl, Http.Headers.text?_eq_some rfl (hip ip rfl)⟩
    | some signature =>
        cases realIp with
        | none =>
            exact ⟨Http.Headers.text?_eq_some rfl (hsignature signature rfl),
              rfl⟩
        | some ip =>
            exact ⟨Http.Headers.text?_eq_some rfl (hsignature signature rfl),
              Http.Headers.text?_eq_some rfl (hip ip rfl)⟩

theorem transport_of_answer {σ : Type}
    {app : Rpc.Call → StateM σ (Except Rpc.Status Nat)} {e : Envelope}
    {call : Rpc.Call} (hcall : Rpc.callOf e = .ok call) {s s' : σ}
    {answer : Except Rpc.Status Nat} (hanswer : app call s = (answer, s')) :
    Rpc.transport (fun call => some <$> app call) e s =
      ((answer.map fun _ => ()).mapError .call, s') := by
  unfold Rpc.transport
  rw [hcall]
  simp only [bind, StateT.bind, Functor.map, StateT.map, hanswer, pure]
  cases answer <;> rfl

theorem readBatch_eq_ok {call : Rpc.Call} {packed payload : Bytes}
    {batch : Batch} (hopened : Opened security.opener call.payload packed)
    (hpayload : Gzip.decompress packed = .ok payload)
    (hsigned : ∀ key, security.signer = some key →
      Http.Headers.text? call.metadata Http.hashHeader =
        some (key.sign payload))
    (htrusted : security.isTrusted
      (Http.Headers.text? call.metadata Http.realIpHeader) = true)
    (hbatch : Batch.ofMessages payload = .ok batch) :
    Rpc.readBatch security call = .ok batch := by
  have hdecrypt : Rpc.decrypt security call.payload = .ok packed := by
    unfold Opened at hopened
    unfold Rpc.decrypt
    cases hopener : security.opener with
    | none =>
        rw [hopener] at hopened
        exact congrArg Except.ok hopened
    | some opener =>
        rw [hopener] at hopened
        simp only [hopened]
        rfl
  have hsignature :
      Rpc.checkSignature security call.metadata payload = .ok () := by
    unfold Rpc.checkSignature
    cases hsigner : security.signer with
    | none => rfl
    | some key =>
        simp only [hsigned key hsigner, key.verify_sign]
        rfl
  unfold Rpc.readBatch
  simp only [htrusted, hdecrypt, hpayload, hsignature, hbatch, bind,
    Except.bind, mapError_ok]
  rfl

theorem deliver_messages (hagrees : Agrees s security)
    (hmessages : s.encoding = .messages) (hfits : Fits s chunk)
    (m : MemoryStore) :
    Settles chunk m (deliver s (served security .messages) chunk m) := by
  obtain ⟨body, henclose, hopened, -⟩ := exists_enclose hagrees chunk
  unfold Fits at hfits
  rw [hmessages] at hfits henclose hopened
  obtain ⟨metadata, hcall, hhash, hip⟩ :=
    exists_call (e := ⟨body, s.signer.map (·.sign chunk.toMessages), s.realIp⟩)
      (visible?_of_mem_signature s.signer _) hagrees.visible
  have hread : Rpc.readBatch security ⟨metadata, body⟩ = .ok chunk :=
    readBatch_eq_ok hopened (Gzip.decompress_compress _)
      (hagrees.signature_eq hhash) (hagrees.isTrusted_eq hip)
      (Batch.ofMessages_toMessages hfits)
  have hanswer : Rpc.updateBatch security ⟨metadata, body⟩ m =
      ((updateBatch chunk m).1.mapError Rpc.Status.ofService,
        (updateBatch chunk m).2) := by
    unfold Rpc.updateBatch
    rw [hread]
    rfl
  have hdeliver : deliver s (served security .messages) chunk =
      Rpc.transport (fun call => some <$> Rpc.updateBatch security call)
        ⟨body, s.signer.map (·.sign chunk.toMessages), s.realIp⟩ :=
          deliver_eq henclose _
  rw [hdeliver]
  by_cases hstorable : ∀ metric ∈ chunk, Storable metric
  · obtain ⟨m', hupdate, hsamples⟩ := samples_updateBatch hstorable m
    rw [hupdate] at hanswer
    rw [transport_of_answer hcall hanswer]
    exact settles_of_storable hstorable hsamples
  · have hupdate := updateBatch_of_not_storable hstorable m
    rw [hupdate] at hanswer
    rw [transport_of_answer hcall hanswer]
    exact settles_of_not_storable m hstorable _

/-! ## Both ways -/

/-- A chunk that an agent delivers to a server with the same secrets is stored,
metric by metric in its order, and the agent hears of success, exactly when none
of its metrics breaks a rule for metrics that are stored; otherwise the agent
hears of a failure and the store is as it was. -/
theorem deliver_settles (hagrees : Agrees s security) (hfits : Fits s chunk)
    (hreadable : s.encoding = .document →
      ∀ metric ∈ chunk, metric.HasReadableValue) (m : MemoryStore) :
    Settles chunk m (deliver s (served security s.encoding) chunk m) := by
  cases hencoding : s.encoding with
  | document =>
      exact deliver_document hagrees hencoding hfits (hreadable hencoding) m
  | messages => exact deliver_messages hagrees hencoding hfits m

end Enclosed

/-- An agent that signs and encrypts documents and gives its address. -/
def guardedAgent : Seal :=
  ⟨.document, some ⟨[0x6B, 0x65, 0x79], by decide⟩,
    some Rsa.publicExample.sealer,
    fun i => List.replicate Oaep.digestSize (UInt8.ofNat i), some "10.1.2.3"⟩

/-- A server that expects what this agent sends. -/
def guardedServer : Security :=
  ⟨guardedAgent.signer, some Rsa.privateExample.opener,
    some ⟨⟨.v4, 10 <<< 24⟩, 8⟩⟩

theorem opens_guarded :
    Rsa.privateExample.opener.Opens Rsa.publicExample.sealer :=
  Rsa.pair_example.opens (by decide +kernel)

theorem agrees_guarded : Agrees guardedAgent guardedServer where
  signer := rfl
  cipher := ⟨opens_guarded, fun _ => List.length_replicate⟩
  visible := by
    intro ip hip
    obtain rfl := Option.some.inj hip
    decide
  trusted := by decide +kernel

theorem fits_guarded {chunk : Batch} (h : chunk.toJson.length ≤ 1000) :
    Fits guardedAgent chunk := by
  refine ⟨Nat.le_trans h (by decide), fun e he => ?_⟩
  have hpacked := Gzip.length_compress_le chunk.toJson
  have hdiv : chunk.toJson.length / Deflate.storedLimit = 0 :=
    Nat.div_eq_of_lt (Nat.lt_of_le_of_lt h (by decide))
  have hsize : Rsa.publicExample.sealer.size = 72 := by decide +kernel
  have hbody : e.body.length ≤
      (Gzip.compress chunk.toJson).length * Rsa.publicExample.sealer.size :=
    length_body_le (s := guardedAgent) rfl opens_guarded
      (fun _ => List.length_replicate) he
  rw [hsize] at hbody
  have hlimit : 1100 * 72 ≤ Http.maxBodyBytes := by decide
  omega

theorem deliver_settles_guarded :
    let chunk : Batch :=
      [.gauge "Alloc" ⟨0x3FF8000000000000⟩, .counter "PollCount" 3]
    let answer : Except TransportError Unit × MemoryStore :=
      deliver guardedAgent (served guardedServer guardedAgent.encoding) chunk
        (.ephemeral .empty)
    answer.1 = .ok () ∧
      answer.2.samples =
        .ofLists [("Alloc", ⟨0x3FF8000000000000⟩)] [("PollCount", 3)] := by
  intro chunk answer
  have hreadable : ∀ metric ∈ chunk, metric.HasReadableValue := by
    have hvalue : Json.Readable ⟨0x3FF8000000000000⟩ := by decide +kernel
    simp only [chunk, Metric.HasReadableValue, List.mem_cons, List.not_mem_nil,
      or_false, forall_eq_or_imp, forall_eq, Metric.gauge, Metric.counter,
      Option.some.injEq, reduceCtorEq, IsEmpty.forall_iff, implies_true,
      and_true]
    intro v hv _
    exact hv ▸ hvalue
  have hsettles : Settles chunk (.ephemeral .empty) answer :=
    deliver_settles agrees_guarded (fits_guarded (by decide +kernel))
      (fun _ => hreadable) _
  have hok := hsettles.ok_iff.mpr (by decide +kernel)
  exact ⟨hok, (hsettles.samples_eq hok).trans (by decide)⟩

end Telemetry
