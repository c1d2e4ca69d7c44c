import Telemetry.Proofs.Http.Admission

/-!
# Which codings are undone

Every line of a header may list codings of the body, each applied to what those
before it gave.  The filter looks at all of them, and the decoder at the first
line only, in which it takes gzip once however often it is listed.  So a body is
handed on plain when gzip is listed once, in the first line, or not at all, and
otherwise with what is left of its codings.
-/

namespace Telemetry.Http

variable {r : Request} {codings : List String} {body plain : Bytes}

/-! ## Bodies under codings -/

/-- Opens a member of gzip, and again what it holds, the
given number of times. -/
def unzip : Nat → Bytes → Except Gzip.Error Bytes
  | 0, body => .ok body
  | n + 1, body => Gzip.decompress body >>= unzip n

/-- Undoing the codings one by one, the first of them first, leads from the body
to the plain one. -/
inductive Undone : List String → Bytes → Bytes → Prop
  | nil (body : Bytes) : Undone [] body body
  | identity {coding : String} {codings : List String} {body plain : Bytes}
      (hcoding : coding = "" ∨ sameIgnoringCase coding "identity" = true)
      (h : Undone codings body plain) : Undone (coding :: codings) body plain
  | gzip {coding : String} {codings : List String} {body inner plain : Bytes}
      (hcoding : sameIgnoringCase coding "gzip" = true)
      (hinner : Gzip.decompress body = .ok inner)
      (h : Undone codings inner plain) : Undone (coding :: codings) body plain

/-- The codings of a request lead to the body of the request from the plain one:
the one that is listed last was applied last. -/
def Encoded (r : Request) (plain : Bytes) : Prop :=
  Undone (declaredCodings r.headers).reverse r.body plain

def isGzip (coding : String) : Bool := sameIgnoringCase coding "gzip"

theorem isGzip_of_identity {coding : String}
    (h : coding = "" ∨ sameIgnoringCase coding "identity" = true) :
    isGzip coding = false := by
  rw [← Bool.not_eq_true, isGzip, sameIgnoringCase_iff]
  rcases h with rfl | h
  · decide
  · rw [sameIgnoringCase_iff.mp h]
    decide

/-- Only gzip changes a body. -/
theorem Undone.unzip_countP (h : Undone codings body plain) :
    unzip (codings.countP isGzip) body = .ok plain := by
  induction h with
  | nil body => rfl
  | identity hcoding h ih =>
      rw [List.countP_cons_of_neg (by simp [isGzip_of_identity hcoding])]
      exact ih
  | gzip hcoding hinner h ih =>
      have hgzip : isGzip _ = true := hcoding
      rw [List.countP_cons_of_pos hgzip, unzip, hinner]
      exact ih

theorem Undone.isKnownCoding (h : Undone codings body plain) :
    ∀ coding ∈ codings, isKnownCoding coding = true := by
  induction h with
  | nil body => exact fun _ h => nomatch h
  | identity hcoding h ih =>
      refine List.forall_mem_cons.mpr ⟨?_, ih⟩
      rcases hcoding with rfl | hcoding
      · decide
      · simp [Http.isKnownCoding, hcoding]
  | gzip hcoding hinner h ih =>
      refine List.forall_mem_cons.mpr ⟨?_, ih⟩
      simp [Http.isKnownCoding, hcoding]

def gzips (h : Headers) : Nat := (declaredCodings h).countP isGzip

theorem Encoded.unzip_gzips (h : Encoded r plain) :
    unzip (gzips r.headers) r.body = .ok plain := by
  rw [gzips, ← List.countP_reverse]
  exact h.unzip_countP

theorem Encoded.admitCoded (h : Encoded r plain) : admitCoded r = .ok r := by
  have hknown :
      (declaredCodings r.headers).find? (! isKnownCoding ·) = none := by
    apply List.find?_eq_none.mpr
    intro coding hcoding
    simp [h.isKnownCoding coding (List.mem_reverse.mpr hcoding)]
  rw [Http.admitCoded, hknown]
  exact ite_self _

/-! ## What the decoder heeds -/

def firstCodings (h : Headers) : List String := h.firstListed "content-encoding"

/-- How many members the decoder opens: one if the first line lists
gzip, however often. -/
def heeded (h : Headers) : Nat := ((firstCodings h).any isGzip).toNat

theorem heeded_le_gzips (h : Headers) : heeded h ≤ gzips h := by
  obtain ⟨rest, hrest⟩ := h.exists_listed_eq_append "content-encoding"
  have hgzips :
      gzips h = (firstCodings h).countP isGzip + rest.countP isGzip := by
    rw [firstCodings, ← List.countP_append, ← hrest]
    rfl
  rw [hgzips, heeded]
  cases hany : (firstCodings h).any isGzip with
  | false => exact Nat.zero_le _
  | true =>
      have hpos : 0 < (firstCodings h).countP isGzip :=
        List.countP_pos_iff.mpr (List.any_eq_true.mp hany)
      exact Nat.le_trans hpos (Nat.le_add_right _ _)

theorem isGzipped_eq (h : Headers) :
    isGzipped h = (firstCodings h).any isGzip := by
  have hquestion : isGzip "?" = false := by
    rw [← Bool.not_eq_true, isGzip, sameIgnoringCase_iff]
    decide
  exact h.any_parts_text? hquestion "content-encoding"

/-! ## What is handed on -/

/-- The filter and the decoder hand on `inner` when they are given `r`. -/
def HandsOn (r inner : Request) : Prop :=
  ∀ (σ : Type) (next : Handler σ),
    filterCodings (gzip next) r = packed r.headers <$> next inner

theorem filterCodings_gzip_eq {σ : Type} (hcoded : admitCoded r = .ok r)
    (next : Handler σ) :
    filterCodings (gzip next) r =
      orRefuse (admitInflated r) fun inner =>
        packed r.headers <$> next inner := by
  rw [filterCodings_eq, hcoded]
  exact gzip_eq next r

theorem handsOn_of_admitInflated {inner : Request}
    (hcoded : admitCoded r = .ok r) (hinflated : admitInflated r = .ok inner) :
    HandsOn r inner := by
  intro σ next
  rw [filterCodings_gzip_eq hcoded, hinflated]
  rfl

theorem exists_of_unzip_succ {n : Nat} (h : unzip (n + 1) body = .ok plain) :
    ∃ inner, Gzip.decompress body = .ok inner ∧ unzip n inner = .ok plain :=
  exists_of_bind_eq_ok h

theorem exists_handsOn (h : Encoded r plain)
    (hsize : heeded r.headers = 1 → r.body.length ≤ maxBodyBytes) :
    ∃ inner, HandsOn r inner ∧ Recoded r inner ∧
      unzip (heeded r.headers) r.body = .ok inner.body ∧
      unzip (gzips r.headers - heeded r.headers) inner.body = .ok plain := by
  have hunzip := h.unzip_gzips
  have hle := heeded_le_gzips r.headers
  have hgzipped := isGzipped_eq r.headers
  cases hfirst : (firstCodings r.headers).any isGzip with
  | false =>
      have hzero : heeded r.headers = 0 := by
        rw [heeded, hfirst, Bool.toNat_false]
      have hinflated : admitInflated r = .ok r := by
        rw [admitInflated, hgzipped, hfirst]
        rfl
      rw [hzero, Nat.sub_zero]
      exact ⟨r, handsOn_of_admitInflated h.admitCoded hinflated, Recoded.refl r,
        rfl, hunzip⟩
  | true =>
      have hone : heeded r.headers = 1 := by
        rw [heeded, hfirst, Bool.toNat_true]
      rw [hone] at hle hsize ⊢
      obtain ⟨rest, hrest⟩ := Nat.exists_eq_add_of_le' hle
      rw [hrest] at hunzip ⊢
      obtain ⟨inner, hinner, hplain⟩ := exists_of_unzip_succ hunzip
      have hinflated : admitInflated r = .ok { r with
          headers := Headers.setLength
            (Headers.remove r.headers "content-encoding") inner,
          body := inner } := by
        rw [admitInflated, hgzipped, hfirst]
        exact inflated_of_decompress (hsize rfl) hinner
      refine ⟨_, handsOn_of_admitInflated h.admitCoded hinflated,
        recoded_inflated r inner, ?_, hplain⟩
      rw [unzip, hinner]
      rfl

/-- A body that is validly encoded passes the filter.  If the decoder heeds the
first line and the body is too long, the request is refused.  Otherwise it is
handed on with as many members opened as the decoder heeds, and the others lead
from what is handed on to the plain body.  So the body is handed on plain when
gzip is listed no more often than the decoder heeds, and only then unless the
plain body is a member itself. -/
theorem handed_on_plain_iff_heeded (h : Encoded r plain) :
    (heeded r.headers = 1 → maxBodyBytes < r.body.length →
        ∀ (σ : Type) (next : Handler σ),
          filterCodings (gzip next) r = pure tooLong) ∧
      ((heeded r.headers = 1 → r.body.length ≤ maxBodyBytes) →
        ∃ inner, HandsOn r inner ∧ Recoded r inner ∧
          unzip (heeded r.headers) r.body = .ok inner.body ∧
          unzip (gzips r.headers - heeded r.headers) inner.body = .ok plain ∧
          (gzips r.headers = heeded r.headers → inner.body = plain) ∧
          ((∀ data, Gzip.decompress plain ≠ .ok data) →
            inner.body = plain → gzips r.headers = heeded r.headers)) := by
  constructor
  · intro hone hlong σ next
    have hgzipped : isGzipped r.headers = true := by
      rwa [isGzipped_eq, ← Bool.toNat_eq_one]
    rw [filterCodings_gzip_eq h.admitCoded,
      admitInflated_eq_error hgzipped hlong]
    rfl
  · intro hsize
    obtain ⟨inner, hhands, hrecoded, hheeded, hleft⟩ := exists_handsOn h hsize
    refine ⟨inner, hhands, hrecoded, hheeded, hleft, ?_, ?_⟩
    · intro hall
      rw [hall, Nat.sub_self] at hleft
      exact Except.ok.inj hleft
    · intro hplain hsame
      rcases hn : gzips r.headers - heeded r.headers with _ | n
      · exact Nat.le_antisymm (Nat.le_of_sub_eq_zero hn)
          (heeded_le_gzips r.headers)
      · rw [hn, hsame] at hleft
        obtain ⟨data, hdata, -⟩ := exists_of_unzip_succ hleft
        exact absurd hdata (hplain data)

theorem undone_compress {coding : String}
    (hcoding : sameIgnoringCase coding "gzip" = true)
    (h : Undone codings body plain) :
    Undone (coding :: codings) (Gzip.compress body) plain :=
  .gzip hcoding (Gzip.decompress_compress body) h

theorem length_compress_le_maxBodyBytes (h : body.length ≤ 1000) :
    (Gzip.compress body).length ≤ maxBodyBytes := by
  refine (Gzip.length_compress_le body).trans ?_
  rw [Deflate.storedLimit, maxBodyBytes]
  omega

/-- Two lines with codings of all kinds, among them one gzip in mixed case: the
body is handed on plain. -/
theorem handed_on_plain_iff_heeded_mixed_case :
    let plain := Utf8.encode "[]"
    let r : Request := ⟨"POST", "/updates/",
      [("content-encoding", "identity, GZip"),
        ("content-encoding", " Identity ,")], Gzip.compress plain⟩
    Encoded r plain ∧ r.body.length ≤ maxBodyBytes ∧ gzips r.headers = 1 ∧
      heeded r.headers = 1 ∧
      ∃ inner, HandsOn r inner ∧ inner.body = plain := by
  intro plain r
  have hupper : sameIgnoringCase "GZip" "gzip" = true :=
    sameIgnoringCase_iff.mpr (by decide)
  have hcapital : sameIgnoringCase "Identity" "identity" = true :=
    sameIgnoringCase_iff.mpr (by decide)
  have hlower : sameIgnoringCase "identity" "identity" = true :=
    sameIgnoringCase_self "identity"
  have hcodings : (declaredCodings r.headers).reverse =
      ["", "Identity", "GZip", "identity"] := by
    decide
  have hfirst : Undone ["identity"] plain plain :=
    .identity (.inr hlower) (.nil plain)
  have hgzip : Undone ["GZip", "identity"] (Gzip.compress plain) plain :=
    undone_compress hupper hfirst
  have hsecond :
      Undone ["Identity", "GZip", "identity"] (Gzip.compress plain) plain :=
    .identity (.inr hcapital) hgzip
  have hencoded : Encoded r plain := by
    rw [Encoded, hcodings]
    exact .identity (.inl rfl) hsecond
  have hshort : plain.length ≤ 1000 := by decide
  have hsize : r.body.length ≤ maxBodyBytes :=
    length_compress_le_maxBodyBytes hshort
  have hgzips : gzips r.headers = 1 := by
    rw [gzips, ← List.countP_reverse, hcodings]
    simp [isGzip_of_identity, hcapital, hlower, show isGzip "GZip" = true
      from hupper]
  have hheeded : heeded r.headers = 1 := by
    have hfirstCodings : firstCodings r.headers = ["identity", "GZip"] := by
      decide
    rw [heeded, hfirstCodings]
    simp [isGzip_of_identity, hlower, show isGzip "GZip" = true from hupper]
  obtain ⟨inner, hhands, -, -, -, hplain, -⟩ :=
    (handed_on_plain_iff_heeded hencoded).2 fun _ => hsize
  exact ⟨hencoded, hsize, hgzips, hheeded, inner, hhands,
    hplain (hgzips.trans hheeded.symm)⟩

/-- A second gzip, or one in a second line, passes the filter
and is not undone. -/
theorem second_gzip_not_undone :
    let plain := Utf8.encode "[]"
    let twice :
        Request := ⟨"POST", "/updates/", [("content-encoding", "gzip, gzip")],
          Gzip.compress (Gzip.compress plain)⟩
    let later : Request := ⟨"POST", "/updates/",
      [("content-encoding", "identity"), ("content-encoding", "gzip")],
      Gzip.compress plain⟩
    Gzip.compress plain ≠ plain ∧
      (Encoded twice plain ∧ ∃ inner, HandsOn twice inner ∧
        inner.body = Gzip.compress plain) ∧
      (Encoded later plain ∧ ∃ inner, HandsOn later inner ∧
        inner.body = Gzip.compress plain) := by
  intro plain twice later
  have hne : Gzip.compress plain ≠ plain := by
    rw [Gzip.compress_eq]
    intro h
    exact absurd (List.cons.inj h).1 (by decide)
  have hgzip : sameIgnoringCase "gzip" "gzip" = true :=
    sameIgnoringCase_self "gzip"
  have hidentity : sameIgnoringCase "identity" "identity" = true :=
    sameIgnoringCase_self _
  have htwiceCodings :
      (declaredCodings twice.headers).reverse = ["gzip", "gzip"] := by decide
  have htwice : Encoded twice plain := by
    have honce : Undone ["gzip"] (Gzip.compress plain) plain :=
      undone_compress hgzip (.nil plain)
    rw [Encoded, htwiceCodings]
    exact undone_compress hgzip honce
  have hlaterCodings : (declaredCodings later.headers).reverse =
      ["gzip", "identity"] := by decide
  have hlater : Encoded later plain := by
    have hsame : Undone ["identity"] plain plain :=
      .identity (.inr hidentity) (.nil plain)
    rw [Encoded, hlaterCodings]
    exact undone_compress hgzip hsame
  have hheeded : heeded twice.headers = 1 := by
    have htwiceFirst : firstCodings twice.headers = ["gzip", "gzip"] := by
      decide
    rw [heeded, htwiceFirst]
    simp [show isGzip "gzip" = true from hgzip]
  have hunheeded : heeded later.headers = 0 := by
    have hlaterFirst : firstCodings later.headers = ["identity"] := by decide
    rw [heeded, hlaterFirst]
    simp [isGzip_of_identity (.inr hidentity)]
  have hsize : twice.body.length ≤ maxBodyBytes := by
    have honce : plain.length = 2 := by decide
    have hinner := Gzip.length_compress_le plain
    rw [honce] at hinner
    exact length_compress_le_maxBodyBytes (hinner.trans (by decide))
  obtain ⟨inner, hhands, -, hunzip, -⟩ := exists_handsOn htwice fun _ => hsize
  obtain ⟨other, hothers, -, hkept, -⟩ := exists_handsOn hlater fun h => by
    rw [hunheeded] at h
    nomatch h
  rw [hheeded] at hunzip
  rw [hunheeded] at hkept
  have hopened : unzip 1 twice.body = .ok (Gzip.compress plain) := by
    rw [unzip, Gzip.decompress_compress]
    rfl
  exact ⟨hne,
    ⟨htwice, inner, hhands, Except.ok.inj (hunzip.symm.trans hopened)⟩, hlater,
    other, hothers, (Except.ok.inj hkept).symm⟩

end Telemetry.Http
