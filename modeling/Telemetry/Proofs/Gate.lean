import Telemetry.Rpc
import Telemetry.Proofs.Http.Admission
import Telemetry.Proofs.Service.History

/-!
# Nothing is stored behind a closed gate

A request over HTTP passes the layers and then a handler; a remote call goes
through checks of its own.  Either way samples change only if the answer is a
success, the sender is trusted, and the payload that was read is the payload
whose signature was checked.
-/

namespace Telemetry

/-- What a server does: its answer, and the store afterwards. -/
def serve {α : Type} (answer : StateM MemoryStore α) (m : MemoryStore) :
    α × MemoryStore :=
  answer m

namespace Service

variable {m m' : MemoryStore} {e : ServiceError}

theorem update_of_error {metric : Metric}
    (h : update metric m = (.error e, m')) : m' = m := by
  by_cases hstorable : Storable metric
  · obtain ⟨w, answer, -, hupdate⟩ := update_of_storable hstorable m
    rw [hupdate] at h
    cases h
  · rw [update_of_not_storable hstorable] at h
    cases h
    rfl

theorem updateBatch_of_error {batch : Batch}
    (h : updateBatch batch m = (.error e, m')) :
    m' = m := by
  by_cases hstorable : ∀ metric ∈ batch, Storable metric
  · rw [updateBatch_of_storable hstorable] at h
    cases h
  · rw [updateBatch_of_not_storable hstorable] at h
    cases h
    rfl

end Service

namespace Http

variable {α β : Type} {security : Security} {r : Request} {route : Route}
  {m : MemoryStore}

/-! ## Handlers -/

def KeepsOnError (op : α → ServiceM MemoryStore β) : Prop :=
  ∀ a m e m', op a m = (.error e, m') → m' = m

def ReadsOnly (op : α → ServiceM MemoryStore β) : Prop := ∀ a m, (op a m).2 = m

theorem keepsOnError_update :
    KeepsOnError (Service.update (σ := MemoryStore)) :=
  fun _ _ _ _ h => Service.update_of_error h

theorem keepsOnError_updateBatch :
    KeepsOnError (Service.updateBatch (σ := MemoryStore)) :=
  fun _ _ _ _ h => Service.updateBatch_of_error h

theorem readsOnly_read : ReadsOnly (Service.read (σ := MemoryStore)) :=
  Service.read_snd

theorem readsOnly_render :
    ReadsOnly fun _ : Unit => Page.render (σ := MemoryStore) :=
  fun _ _ => rfl

theorem readsOnly_ping :
    ReadsOnly fun _ : Unit => Service.ping (σ := MemoryStore) :=
  fun _ _ => rfl

theorem respond_readsOnly {op : α → ServiceM MemoryStore β} (hop : ReadsOnly op)
    (request : Except ApiError α) (response : β → Response) (m : MemoryStore) :
    (serve (respond request op response) m).2 = m := by
  cases request with
  | error e => rfl
  | ok a =>
      have hstore := hop a m
      unfold serve respond
      dsimp only
      rcases hanswer : op a m with ⟨answer, m'⟩
      rw [hanswer] at hstore
      cases answer with
      | error e => exact hstore
      | ok b => exact hstore

/-- An operation that changes the store is answered with its response. -/
theorem isSuccess_respond {op : α → ServiceM MemoryStore β}
    (hop : KeepsOnError op) {request : Except ApiError α}
    {response : β → Response} (hresponse : ∀ b, (response b).isSuccess = true)
    (h : (serve (respond request op response) m).2 ≠ m) :
    (serve (respond request op response) m).1.isSuccess = true := by
  cases request with
  | error e => exact absurd rfl h
  | ok a =>
      unfold serve respond at h ⊢
      dsimp only at h ⊢
      rcases hanswer : op a m with ⟨answer, m'⟩
      rw [hanswer] at h
      cases answer with
      | error e => exact absurd (hop a m e m' hanswer) h
      | ok b => exact hresponse b

/-- A handler that changes the store succeeds; without a body, only a path can
say what to store. -/
theorem handle_changes {body : Bytes}
    (h : (serve (handle route body) m).2 ≠ m) :
    (serve (handle route body) m).1.isSuccess = true ∧
      (body = [] →
        ∃ kind name value, route = .updateByPath kind name value) := by
  cases route with
  | index => exact absurd (respond_readsOnly readsOnly_render _ _ m) h
  | ping => exact absurd (respond_readsOnly readsOnly_ping _ _ m) h
  | readMetric => exact absurd (respond_readsOnly readsOnly_read _ _ m) h
  | readByPath kind name =>
      exact absurd (respond_readsOnly readsOnly_read _ _ m) h
  | updateByPath kind name value =>
      exact ⟨isSuccess_respond keepsOnError_update (fun _ => rfl) h,
        fun _ => ⟨kind, name, value, rfl⟩⟩
  | updateMetric =>
      refine ⟨isSuccess_respond keepsOnError_update (fun _ => rfl) h, ?_⟩
      -- nothing can be read from an empty document
      rintro rfl
      exact absurd rfl h
  | updateBatch =>
      refine ⟨isSuccess_respond keepsOnError_updateBatch (fun _ => rfl) h, ?_⟩
      rintro rfl
      exact absurd rfl h

/-- The router refuses a request or hands its body to the
handler of its path. -/
theorem serve_router (r : Request) (m : MemoryStore) :
    ((serve (router r) m).1.isSuccess = false ∧ (serve (router r) m).2 = m) ∨
      ∃ route, Route.ofPath? r.path = some route ∧ r.method ∈ route.methods ∧
        serve (router r) m = serve (handle route r.body) m := by
  unfold router
  cases hpath : Route.ofPath? r.path with
  | none => exact Or.inl ⟨rfl, rfl⟩
  | some route =>
      dsimp only
      unfold jsonOnly
      by_cases hmethod : route.methods.contains r.method = true
      · have hserved :
          ∃ route', some route = some route' ∧ r.method ∈ route'.methods ∧
            serve (handle route r.body) m = serve (handle route' r.body) m :=
          ⟨route, rfl, List.contains_iff_mem.mp hmethod, rfl⟩
        simp only [if_pos hmethod]
        split
        · split
          · exact Or.inr hserved
          · exact Or.inl ⟨rfl, rfl⟩
        · exact Or.inr hserved
      · simp only [if_neg hmethod]
        split
        · split
          · exact Or.inl ⟨rfl, rfl⟩
          · exact Or.inl ⟨rfl, rfl⟩
        · exact Or.inl ⟨rfl, rfl⟩

/-! ## The interface -/

/-- The requests that reach what stands behind the layers. -/
def reaching (security : Security) (r : Request) : List Request :=
  (outcome (protect security (fun inner => do
    modify (· ++ [inner])
    return Response.bare 200) r) []).2

theorem reaching_of_admitted {inner : Request}
    (h : admitted security r = .ok inner) :
    reaching security r = [inner] := by
  unfold reaching
  rw [decides_protect, h]
  rfl

theorem isSuccess_congr {response response' : Response}
    (h : response.status = response'.status) :
    response.isSuccess = response'.isSuccess := by
  unfold Response.isSuccess
  rw [h]

/-- A request is refused by the layers or by the router, or it is handled
as it was admitted. -/
theorem serve_app (security : Security) (r : Request) (m : MemoryStore) :
    ((serve (app security r) m).1.isSuccess = false ∧
      (serve (app security r) m).2 = m) ∨
      ∃ inner route, admitted security r = .ok inner ∧
      Route.ofPath? r.path = some route ∧
        r.method ∈ route.methods ∧
        (serve (app security r) m).1.isSuccess =
        (serve (handle route inner.body) m).1.isSuccess ∧
        (serve (app security r) m).2 =
        (serve (handle route inner.body) m).2 := by
  have happ :
      outcome (app security r) m = outcome (protect security router r) m :=
    outcome_map (status_finish r) _ m
  rw [decides_protect] at happ
  cases hadmitted : admitted security r with
  | error refusal =>
      have hfair := fair_admitted security r
      rw [hadmitted] at hfair happ
      refine Or.inl ⟨?_, congrArg Prod.snd happ⟩
      exact (isSuccess_congr (congrArg Prod.fst happ)).trans hfair
  | ok inner =>
      have hrecoded := (admitted_of_eq_ok hadmitted).recoded
      rw [hadmitted] at happ
      change outcome (app security r) m = outcome (router inner) m at happ
      have hsuccess : (serve (app security r) m).1.isSuccess =
          (serve (router inner) m).1.isSuccess :=
            isSuccess_congr (congrArg Prod.fst happ)
      have hstore := congrArg Prod.snd happ
      change (serve (app security r) m).2 = (serve (router inner) m).2 at hstore
      rw [hsuccess, hstore]
      rcases serve_router inner m
        with hrefused | ⟨route, hpath, hmethod, hhandled⟩
      · exact Or.inl hrefused
      · rw [hrecoded.path] at hpath
        rw [hrecoded.method] at hmethod
        exact Or.inr ⟨inner, route, rfl, hpath,
          hmethod, by rw [hhandled], by rw [hhandled]⟩

/-- A request that stores something only if it may. -/
structure Guarded (security : Security) (r : Request)
    (m : MemoryStore) : Prop where
  /-- Without success the store stays as it is. -/
  kept : (serve (app security r) m).1.isSuccess = false →
    (serve (app security r) m).2 = m
  sender : (serve (app security r) m).2 ≠ m → FromTrusted security r.headers
  /-- The body that was handled has the signature that the headers present; an
  empty body needs none, and then the path says what to store. -/
  signature : (serve (app security r) m).2 ≠ m →
    ∀ key, security.signer = some key →
    ∃ inner route, reaching security r = [inner] ∧
    Route.ofPath? r.path = some route ∧
      (serve (app security r) m).2 = (serve (handle route inner.body) m).2 ∧
      (Vouches key r.headers inner.body ∨
        inner.body = [] ∧ r.method = "POST" ∧
          ∃ kind name value, route = .updateByPath kind name value)

theorem guarded (security : Security) (r : Request) (m : MemoryStore) :
    Guarded security r m := by
  rcases serve_app security r m with
    ⟨hfailure, hstore⟩ | ⟨inner, route, hadmitted, hpath, hmethod,
      hsuccess, hstore⟩
  · exact ⟨fun _ => hstore, fun hchanged => absurd hstore hchanged,
      fun hchanged => absurd hstore hchanged⟩
  · have hchecked := admitted_of_eq_ok hadmitted
    refine ⟨?_, fun _ => hchecked.sender, ?_⟩
    · intro hfailure
      by_contra hchanged
      rw [hstore] at hchanged
      rw [hsuccess, (handle_changes hchanged).1] at hfailure
      cases hfailure
    · intro hchanged key hkey
      refine ⟨inner, route, reaching_of_admitted hadmitted, hpath, hstore, ?_⟩
      rcases hchecked.signature key hkey with hempty | hvouched
      · rw [hstore] at hchanged
        obtain ⟨kind, name, value, rfl⟩ := (handle_changes hchanged).2 hempty
        exact Or.inr ⟨hempty, List.mem_singleton.mp hmethod, kind, name,
          value, rfl⟩
      · exact Or.inl hvouched

end Http

namespace Rpc

variable {security : Security} {call : Call} {m : MemoryStore}

theorem readBatch_eq_ok {batch : Batch}
    (h : readBatch security call = .ok batch) :
    Http.FromTrusted security call.metadata ∧ ∃ packed messages,
      decrypt security call.payload = .ok packed ∧
        Gzip.decompress packed = .ok messages ∧
      checkSignature security call.metadata messages = .ok () ∧
      Batch.ofMessages messages = .ok batch := by
  unfold readBatch at h
  dsimp only at h
  split at h
  · cases h
  · next htrusted =>
      obtain ⟨packed, hpacked, h⟩ := exists_of_bind_eq_ok h
      obtain ⟨messages, hmessages, h⟩ := exists_of_bind_eq_ok h
      obtain ⟨_, hsignature, hbatch⟩ := exists_of_bind_eq_ok h
      exact ⟨Http.fromTrusted_of_isTrusted (by simpa using htrusted), packed,
        messages, hpacked, mapError_eq_ok_iff.mp hmessages, hsignature,
        mapError_eq_ok_iff.mp hbatch⟩

theorem vouches_of_checkSignature {metadata : Http.Headers} {messages : Bytes}
    (h : checkSignature security metadata messages = .ok ()) {key : SigningKey}
    (hkey : security.signer = some key) :
    Http.Vouches key metadata messages := by
  unfold checkSignature at h
  rw [hkey] at h
  dsimp only at h
  cases hsignature : Http.Headers.text? metadata Http.hashHeader with
  | none =>
      rw [hsignature] at h
      cases h
  | some signature =>
      rw [hsignature] at h
      exact ⟨signature, hsignature, mapError_eq_ok_iff.mp h⟩

structure Guarded (security : Security) (call : Call)
    (m : MemoryStore) : Prop where
  /-- Without success the store stays as it is. -/
  kept : (serve (updateBatch security call) m).1.isOk = false →
    (serve (updateBatch security call) m).2 = m
  sender : (serve (updateBatch security call) m).2 ≠ m →
    Http.FromTrusted security call.metadata
  /-- The messages that were decoded have the signature that the
  metadata present. -/
  signature : (serve (updateBatch security call) m).2 ≠ m →
    ∀ key, security.signer = some key → ∃ packed messages batch,
      decrypt security call.payload = .ok packed ∧
        Gzip.decompress packed = .ok messages ∧
      Batch.ofMessages messages = .ok batch ∧
      (serve (updateBatch security call) m).2 =
      (Service.updateBatch batch m).2 ∧
      Http.Vouches key call.metadata messages

theorem guarded (security : Security) (call : Call) (m : MemoryStore) :
    Guarded security call m := by
  cases hread : readBatch security call with
  | error status =>
      have hstore : (serve (updateBatch security call) m).2 = m := by
        unfold serve updateBatch
        rw [hread]
      exact ⟨fun _ => hstore, fun hchanged => absurd hstore hchanged,
        fun hchanged => absurd hstore hchanged⟩
  | ok batch =>
      rcases hupdate : Service.updateBatch batch m with ⟨answer, m'⟩
      have hserve : serve (updateBatch security call) m =
          (answer.mapError Status.ofService, m') := by
        unfold serve updateBatch
        rw [hread]
        dsimp only
        rw [hupdate]
      obtain ⟨hsender, packed, messages, hpacked, hmessages, hsignature,
        hbatch⟩ := readBatch_eq_ok hread
      refine ⟨?_, fun _ => hsender, ?_⟩
      · intro hfailure
        rw [hserve] at hfailure ⊢
        cases answer with
        | error e => exact Service.updateBatch_of_error hupdate
        | ok count => cases hfailure
      · intro _ key hkey
        refine ⟨packed, messages, batch, hpacked, hmessages, hbatch, ?_,
          vouches_of_checkSignature hsignature hkey⟩
        rw [hserve, hupdate]

end Rpc

/-- Whatever is asked for over either interface, the store changes only with a
success, for a trusted sender and by a payload with a valid signature. -/
theorem nothing_stored_behind_closed_gate (security : Security)
    (m : MemoryStore) :
    (∀ r, Http.Guarded security r m) ∧ ∀ call, Rpc.Guarded security call m :=
  ⟨fun r => Http.guarded security r m, fun call => Rpc.guarded security call m⟩

end Telemetry
