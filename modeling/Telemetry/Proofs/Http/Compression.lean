import Telemetry.Proofs.Http.Layers

/-!
# Which responses are compressed

A client accepts gzip when one of its header lines lists that very coding with
no weight, or with one above zero.  The responses that are compressed are the
successful ones with a body, for clients whose first line lists something that
begins with gzip.  Such a part may be another coding, or gzip with the weight
zero, so a response is compressed only for clients who accept it as long as all
such parts accept gzip.
-/

namespace Telemetry.Http

variable {σ : Type} {r inner : Request} {response sent : Response}

/-! ## Who accepts gzip -/

/-- The decimal places that end a weight: none, or a point and three at most. -/
def places? : List Char → Option (List Char)
  | [] => some []
  | '.' :: places => if places.length ≤ 3 then some places else none
  | _ => none

/-- Whether the characters are a weight, which is between zero and
one, and not zero. -/
def isPositiveWeight : List Char → Bool
  | '0' :: rest =>
    (places? rest).any fun places =>
      places.all Char.isDigit && places.any (· != '0')
  | '1' :: rest => (places? rest).any fun places => places.all (· == '0')
  | _ => false

/-- Whether a parameter of a coding leaves it acceptable: it is no weight,
or one above zero. -/
def leavesAcceptable (parameter : String) : Bool :=
  match Text.splitOn '=' parameter with
  | [name, weight] =>
    !sameIgnoringCase name "q" || isPositiveWeight weight.toList
  | name :: _ => !sameIgnoringCase name "q"
  | [] => true

/-- Whether a part of the header names gzip and does not weigh it zero. -/
def isAcceptance (part : String) : Bool :=
  match (Text.splitOn ';' part).map Text.trim with
  | coding :: parameters =>
    sameIgnoringCase coding "gzip" && parameters.all leavesAcceptable
  | [] => false

theorem isAcceptance_weight {part : String} (parameter weight : String)
    (hpart : (Text.splitOn ';' part).map Text.trim = ["gzip", parameter])
    (hparameter : Text.splitOn '=' parameter = ["q", weight]) :
    isAcceptance part = isPositiveWeight weight.toList := by
  have hleaves :
      leavesAcceptable parameter = isPositiveWeight weight.toList := by
    rw [leavesAcceptable, hparameter]
    simp [sameIgnoringCase_self]
  rw [isAcceptance, hpart]
  simp [sameIgnoringCase_self, hleaves]

/-- The client who sent the headers accepts gzip. -/
def ClientAccepts (h : Headers) : Prop :=
  ∃ part ∈ h.listed "accept-encoding", isAcceptance part = true

/-- A part of the first line begins with gzip, whatever follows. -/
def ListsPrefix (h : Headers) : Prop :=
  ∃ part ∈ h.firstListed "accept-encoding", "gzip".toList <+: part.toList

theorem acceptsGzip_iff_listsPrefix (h : Headers) :
    acceptsGzip h = true ↔ ListsPrefix h := by
  have hquestion : "?".startsWith "gzip" = false := by
    rw [String.startsWith_string_eq_false_iff]
    decide
  have hany : acceptsGzip h = (h.firstListed "accept-encoding").any
      (·.startsWith "gzip") :=
    h.any_parts_text? hquestion "accept-encoding"
  rw [hany, List.any_eq_true]
  simp only [String.startsWith_string_iff, ListsPrefix]

theorem ListsPrefix.clientAccepts {h : Headers} (hlists : ListsPrefix h)
    (hparts : ∀ part ∈ h.firstListed "accept-encoding",
      "gzip".toList <+: part.toList →
      isAcceptance part = true) : ClientAccepts h := by
  obtain ⟨part, hpart, hgzip⟩ := hlists
  obtain ⟨rest, hrest⟩ := h.exists_listed_eq_append "accept-encoding"
  refine ⟨part, ?_, hparts part hpart hgzip⟩
  rw [hrest]
  exact List.mem_append_left _ hpart

/-! ## How responses are sent -/

/-- The response is sent with its body compressed and with
headers that say so. -/
structure SentCompressed (response sent : Response) : Prop where
  status : sent.status = response.status
  coding : Headers.all sent.headers "content-encoding" = ["gzip"]
  length : Headers.all sent.headers "content-length" =
    [toString sent.body.length]
  body : Gzip.decompress sent.body = .ok response.body
  others : ∀ name, name ≠ "content-encoding" → name ≠ "content-length" →
    Headers.all sent.headers name = Headers.all response.headers name

/-- The response may be compressed. -/
def Compressible (response : Response) : Prop :=
  response.isSuccess = true ∧ response.body ≠ []

/-- The response is sent as it is, or compressed if it may be and the
client accepts that. -/
def SentAsAccepted (h : Headers) (response sent : Response) : Prop :=
  sent = response ∨ ClientAccepts h ∧ Compressible response ∧
    SentCompressed response sent

theorem sentCompressed_compressed (hbody : response.body ≠ []) :
    SentCompressed response (compressed response) := by
  have hempty : response.body.isEmpty = false :=
    List.isEmpty_eq_false_iff.mpr hbody
  rw [compressed, hempty, if_neg Bool.false_ne_true]
  refine ⟨rfl, ?_, Headers.all_set _ _ _, Gzip.decompress_compress _, ?_⟩
  · exact (Headers.all_set_of_ne (by decide) _).trans (Headers.all_set _ _ _)
  · intro name hcoding hlength
    exact (Headers.all_set_of_ne hlength _).trans
      (Headers.all_set_of_ne hcoding _)

theorem sentCompressed_packed {h : Headers} (hlists : ListsPrefix h)
    (hresponse : Compressible response) :
    SentCompressed response (packed h response) := by
  rw [packed, (acceptsGzip_iff_listsPrefix h).mpr hlists, hresponse.1]
  exact sentCompressed_compressed hresponse.2

theorem packed_eq_self {h : Headers}
    (hnot : ¬ (ListsPrefix h ∧ Compressible response)) :
    packed h response = response := by
  rw [packed]
  split
  · next hgzip =>
      rw [Bool.and_eq_true, acceptsGzip_iff_listsPrefix] at hgzip
      have hempty : response.body = [] := by
        by_contra hbody
        exact hnot ⟨hgzip.1, hgzip.2, hbody⟩
      rw [compressed, hempty]
      rfl
  · rfl

theorem answered_gzip (hinner : admitInflated r = .ok inner) (next : Handler σ)
    (s : σ) :
    answered (gzip next r) s = packed r.headers (answered (next inner) s) := by
  rw [gzip_eq, hinner]
  rfl

/-- A response is compressed if it is successful, has a body, and the first
line lists a part that begins with gzip; otherwise it is sent as it is.  Where
all such parts accept gzip, it is sent as the client accepts it.  A response
that comes without a coding is sent so just when a client for whom it is
compressed accepts gzip. -/
theorem compressed_iff_listsPrefix (hinner : admitInflated r = .ok inner)
    (next : Handler σ) (s : σ) :
    let response := answered (next inner) s
    let sent := answered (gzip next r) s
    (ListsPrefix r.headers ∧ Compressible response →
      SentCompressed response sent) ∧
      (¬ (ListsPrefix r.headers ∧ Compressible response) → sent = response) ∧
      ((∀ part ∈ Headers.firstListed r.headers "accept-encoding",
          "gzip".toList <+: part.toList → isAcceptance part = true) →
        SentAsAccepted r.headers response sent) ∧
      (Headers.all response.headers "content-encoding" = [] →
        (SentAsAccepted r.headers response sent ↔
          (ListsPrefix r.headers → Compressible response →
            ClientAccepts r.headers))) := by
  intro response sent
  have hsent : sent = packed r.headers response := answered_gzip hinner next s
  have hcompressed : ListsPrefix r.headers ∧ Compressible response →
      SentCompressed response sent := by
    rintro ⟨hlists, hresponse⟩
    rw [hsent]
    exact sentCompressed_packed hlists hresponse
  have hkept :
      ¬ (ListsPrefix r.headers ∧ Compressible response) → sent = response := by
    intro hnot
    rw [hsent]
    exact packed_eq_self hnot
  have haccepted :
    (ListsPrefix r.headers → Compressible response → ClientAccepts r.headers) →
      SentAsAccepted r.headers response sent := by
    intro h
    by_cases hboth : ListsPrefix r.headers ∧ Compressible response
    · exact .inr ⟨h hboth.1 hboth.2, hboth.2, hcompressed hboth⟩
    · exact .inl (hkept hboth)
  refine ⟨hcompressed, hkept, ?_, ?_⟩
  · intro hparts
    exact haccepted fun hlists _ => hlists.clientAccepts hparts
  · intro hplain
    refine ⟨fun hlawful hlists hresponse => ?_, haccepted⟩
    rcases hlawful with hsame | ⟨haccepts, -⟩
    · have hcoding := (hcompressed ⟨hlists, hresponse⟩).coding
      rw [hsame, hplain] at hcoding
      nomatch hcoding
    · exact haccepts

/-- Answers as the reading of a counter that stands at one. -/
def readsOne : Handler Unit := fun _ => return .text 200 "1"

theorem compressible_readsOne (r : Request) :
    Compressible (answered (readsOne r) ()) := by
  have hbody : Utf8.encode "1" ≠ [] := by decide
  exact ⟨rfl, hbody⟩

/-- A client who lists gzip with a weight of one half gets a compressed body. -/
theorem compressed_iff_listsPrefix_half :
    let r : Request :=
      ⟨"GET", "/value/counter/C", [("accept-encoding", "br, gzip;q=0.5")], []⟩
    let response := answered (readsOne r) ()
    let sent := answered (gzip readsOne r) ()
    admitInflated r = .ok r ∧ ClientAccepts r.headers ∧
      SentCompressed response sent ∧
      SentAsAccepted r.headers response sent := by
  intro r response sent
  have hinner : admitInflated r = .ok r := rfl
  have hlisted : Headers.firstListed r.headers "accept-encoding" =
      ["br", "gzip;q=0.5"] := by
    decide
  have hlists : ListsPrefix r.headers := by
    rw [ListsPrefix, hlisted]
    exact ⟨"gzip;q=0.5", by decide, by decide⟩
  have hparts : ∀ part ∈ Headers.firstListed r.headers "accept-encoding",
      "gzip".toList <+: part.toList → isAcceptance part = true := by
    rw [hlisted]
    intro part hpart hgzip
    rcases List.mem_pair.mp hpart with rfl | rfl
    · exact absurd hgzip (by decide)
    · rw [isAcceptance_weight "q=0.5" "0.5" (by decide) (by decide)]
      decide
  obtain ⟨hcompressed, -, haccepted, -⟩ :=
    compressed_iff_listsPrefix hinner readsOne ()
  exact ⟨hinner, hlists.clientAccepts hparts,
    hcompressed ⟨hlists, compressible_readsOne r⟩, haccepted hparts⟩

/-- A client who lists gzip with the weight zero does not accept it, and gets
a compressed body. -/
theorem compressed_at_zero_weight :
    let r : Request :=
      ⟨"GET", "/value/counter/C", [("accept-encoding", "gzip;q=0")], []⟩
    let response := answered (readsOne r) ()
    let sent := answered (gzip readsOne r) ()
    admitInflated r = .ok r ∧ ¬ ClientAccepts r.headers ∧
      SentCompressed response sent ∧
      ¬ SentAsAccepted r.headers response sent := by
  intro r response sent
  have hinner : admitInflated r = .ok r := rfl
  have hlisted : Headers.listed r.headers "accept-encoding" = ["gzip;q=0"] := by
    decide
  have hrefuses : ¬ ClientAccepts r.headers := by
    rw [ClientAccepts, hlisted]
    rintro ⟨part, hpart, haccepts⟩
    rw [List.mem_singleton.mp hpart] at haccepts
    rw [isAcceptance_weight "q=0" "0" (by decide) (by decide)] at haccepts
    exact absurd haccepts (by decide)
  have hlists : ListsPrefix r.headers := ⟨"gzip;q=0", by decide, by decide⟩
  have hsent : sent = packed r.headers response :=
    answered_gzip hinner readsOne ()
  have hcompressed : SentCompressed response sent := by
    rw [hsent]
    exact sentCompressed_packed hlists (compressible_readsOne r)
  refine ⟨hinner, hrefuses, hcompressed, ?_⟩
  rintro (hsame | ⟨haccepts, -⟩)
  · have hcoding := hcompressed.coding
    rw [hsame] at hcoding
    nomatch hcoding
  · exact hrefuses haccepts

end Telemetry.Http
