import Telemetry.Proofs.Json.Number

/-!
# Containers that are written are read back

The members of an object take the state of its reader from one value to the
next, each whatever follows it.  A list and a map read back when their values
do.
-/

namespace Telemetry.Json

open Cursor

/-! ## White space and colons -/

/-- The bytes begin with one that is not white space. -/
def Starts (bytes : Bytes) : Prop := ∃ b bs, bytes = b :: bs ∧ isSpace b = false

/-- The bytes begin with one that is neither white space nor
the first of `null`. -/
def StartsValue (bytes : Bytes) : Prop :=
  ∃ b bs, bytes = b :: bs ∧ isSpace b = false ∧ b ≠ 0x6E

theorem starts_writeInt64 (i : Int64) : StartsValue (writeInt64 i) := by
  rw [writeInt64_eq]
  split
  · exact ⟨0x2D, _, rfl, by decide, by decide⟩
  · obtain ⟨b, bs, heq, -⟩ := exists_decimal_eq_cons i.toInt.natAbs
    have hdigit : isDigit b = true :=
      isDigit_decimal i.toInt.natAbs b (by simp [heq])
    refine ⟨b, bs, by simpa using heq, isSpace_of_isDigit hdigit, ?_⟩
    rintro rfl
    exact absurd hdigit (by decide)

theorem starts_writeReal {x : Binary64} (h : x.isFinite = true) :
    StartsValue (writeReal x) := by
  obtain ⟨b, bs, heq⟩ := List.exists_cons_of_ne_nil (writeReal_ne_nil h)
  have hb : b ∈ writeReal x := by simp [heq]
  exact ⟨b, bs, heq, byte_of_mem_writeReal h hb⟩

/-- A value that is not null reads as one that is there. -/
theorem Reads.optional {α : Type} {read : Cursor → Except Error (α × Cursor)}
    {bytes : Bytes} {a : α} (h : Reads read bytes a)
    (hstarts : StartsValue bytes) :
    Reads (Cursor.optional read) bytes (some a) := by
  intro rest p hrest
  obtain ⟨q, hq⟩ := h rest p hrest
  obtain ⟨b, bs, rfl, hspace, hnull⟩ := hstarts
  refine ⟨q, ?_⟩
  simp only [List.cons_append] at hq ⊢
  simp [Cursor.optional, skipSpace_cons hspace, sees, peek, hnull, hq, bind,
    Except.bind, pure, Except.pure]

theorem reads_null {α : Type} (read : Cursor → Except Error (α × Cursor)) :
    Reads (Cursor.optional read) [0x6E, 0x75, 0x6C, 0x6C] none := by
  intro rest p _
  refine ⟨p.afterAll [0x6E, 0x75, 0x6C, 0x6C], ?_⟩
  simp [Cursor.optional, skipSpace_cons (by decide : isSpace 0x6E = false),
    sees, peek, advance, nullTail, readWord, bind, Except.bind, pure,
    Except.pure, Position.afterAll]

theorem colon_cons (rest : Bytes) (p : Position) :
    colon ⟨0x3A :: rest, p⟩ = .ok ⟨rest, p.after 0x3A⟩ := by
  simp [colon, skipSpace_cons (by decide : isSpace 0x3A = false), sees, peek,
    advance]

/-- A field that was not read before is read. -/
theorem Reads.member {α : Type} {read : Cursor → Except Error (α × Cursor)}
    {bytes : Bytes} {a : α} (h : Reads read bytes a) (key : String)
    {rest : Bytes} (hrest : Delimited rest) (p : Position) :
    ∃ q, Cursor.member none key read ⟨0x3A :: bytes ++ rest, p⟩ =
      .ok (a, ⟨rest, q⟩) := by
  obtain ⟨q, hq⟩ := h rest (p.after 0x3A) hrest
  refine ⟨q, ?_⟩
  simp [Cursor.member, placed, colon_cons, hq, bind, Except.bind, mapError_ok]

/-! ## Objects -/

def separator (first : Bool) : Bytes := if first then [] else [0x2C]

/-- The bytes are members that take the state of the reader of an object from
the first state to the second. -/
inductive Members {σ : Type}
    (step : σ → String → Cursor → Except Cursor.Failure (σ × Cursor)) :
    Bool → σ → Bytes → σ → Prop
  | nil (first : Bool) (s : σ) : Members step first s [] s
  | cons {first : Bool} {s t u : σ} {key : String} {value more : Bytes}
      (head : ∀ rest p, Delimited rest →
        ∃ q, step s key ⟨0x3A :: value ++ rest, p⟩ = .ok (t, ⟨rest, q⟩))
      (tail : Members step false t more u) :
      Members step first s
        (separator first ++ writeText key ++ 0x3A :: value ++ more) u

theorem Members.delimited {σ : Type}
    {step : σ → String → Cursor → Except Cursor.Failure (σ × Cursor)} {s u : σ}
    {bytes : Bytes} (h : Members step false s bytes u) (rest : Bytes) :
    Delimited (bytes ++ 0x7D :: rest) := by
  cases h with
  | nil => exact delimited_cons (Or.inr (Or.inr rfl)) rest
  | cons _ _ =>
      simp only [separator, Bool.false_eq_true, if_false, List.cons_append,
        List.nil_append]
      exact delimited_cons (Or.inl rfl) _

theorem nextKey_end (first : Bool) (rest : Bytes) (p : Position) :
    nextKey first ⟨0x7D :: rest, p⟩ = .ok (none, ⟨0x7D :: rest, p⟩) := by
  simp [nextKey, skipSpace_cons (by decide : isSpace 0x7D = false), peek]

theorem nextKey_separator (first : Bool) (key : String) (rest : Bytes)
    (p : Position) :
    ∃ q, nextKey first ⟨separator first ++ writeText key ++ rest, p⟩ =
      .ok (some ⟨writeText key ++ rest, q⟩, ⟨writeText key ++ rest, q⟩) := by
  have hquote : isSpace quoteByte = false := by decide
  have hcomma : isSpace 0x2C = false := by decide
  rw [writeText_eq_cons]
  cases first with
  | true =>
      refine ⟨p, ?_⟩
      simp only [separator, if_true, List.nil_append, List.cons_append]
      simp [nextKey, skipSpace_cons hquote, peek,
        (by decide : quoteByte ≠ 0x7D)]
  | false =>
      refine ⟨p.after 0x2C, ?_⟩
      simp only [separator, Bool.false_eq_true, if_false, List.nil_append,
        List.cons_append]
      simp [nextKey, skipSpace_cons hcomma, skipSpace_cons hquote, peek,
        advance]

/-- The members of an object are read by the steps that they stand for. -/
theorem Members.read {σ : Type}
    {step : σ → String → Cursor → Except Cursor.Failure (σ × Cursor)}
    {first : Bool} {s u : σ} {bytes : Bytes} (h : Members step first s bytes u)
    {fuel : Nat} (hfuel : bytes.length < fuel) (rest : Bytes) (p : Position) :
    ∃ q, members step fuel first s ⟨bytes ++ 0x7D :: rest, p⟩ =
      .ok (u, ⟨0x7D :: rest, q⟩) := by
  induction h generalizing fuel p with
  | nil first s =>
      obtain ⟨fuel, rfl⟩ :=
        Nat.exists_eq_add_one_of_ne_zero (Nat.ne_of_gt hfuel)
      refine ⟨p, ?_⟩
      rw [List.nil_append]
      simp [members, placed, nextKey_end, mapError_ok, bind, Except.bind, pure,
        Except.pure]
  | @cons first s t u key value more head tail ih =>
      obtain ⟨fuel, rfl⟩ : ∃ n, fuel = n + 1 :=
        Nat.exists_eq_add_one_of_ne_zero (by omega)
      have hmore : more.length < fuel := by
        simp only [List.length_append, List.length_cons] at hfuel
        omega
      obtain ⟨q₁, h₁⟩ := nextKey_separator first key
        (0x3A :: value ++ (more ++ 0x7D :: rest)) p
      obtain ⟨q₂, h₂⟩ := readText_writeText key (q₁.after quoteByte)
        (0x3A :: value ++ (more ++ 0x7D :: rest))
      obtain ⟨q₃, h₃⟩ := head (more ++ 0x7D :: rest) q₂ (tail.delimited rest)
      obtain ⟨q₄, h₄⟩ := ih hmore q₃
      refine ⟨q₄, ?_⟩
      have hadvance :
          advance ⟨writeText key ++ (0x3A :: value ++ (more ++ 0x7D :: rest)),
            q₁⟩ =
          ⟨(writeText key).tail ++ (0x3A :: value ++ (more ++ 0x7D :: rest)),
            q₁.after quoteByte⟩ := by
        rw [writeText_eq_cons]
        rfl
      simp only [List.append_assoc] at h₁ ⊢
      simp only [members, placed, h₁, mapError_ok, bind, Except.bind, hadvance,
        h₂, h₃, h₄]

/-- An object is read when its members are. -/
theorem Members.object {σ α : Type}
    {step : σ → String → Cursor → Except Cursor.Failure (σ × Cursor)} {s u : σ}
    {bytes : Bytes} (h : Members step true s bytes u)
    (finish : σ → Except Fault α) {a : α} (hfinish : finish u = .ok a)
    (rest : Bytes) (p : Position) :
    ∃ q, Cursor.object s step finish ⟨0x7B :: bytes ++ 0x7D :: rest, p⟩ =
      .ok (a, ⟨rest, q⟩) := by
  have hlength : bytes.length < (bytes ++ 0x7D :: rest).length + 1 := by
    rw [List.length_append]
    omega
  obtain ⟨q, hq⟩ := h.read hlength rest (p.after 0x7B)
  refine ⟨q.after 0x7D, ?_⟩
  have hadvance : advance ⟨0x7B :: bytes ++ 0x7D :: rest, p⟩ =
      ⟨bytes ++ 0x7D :: rest, p.after 0x7B⟩ := rfl
  simp only [Cursor.object, hadvance, hq, bind, Except.bind, hfinish, within,
    pure, Except.pure]
  simp [closeObject, skipSpace_cons (by decide : isSpace 0x7D = false), sees,
    peek, advance]

/-! ## Maps -/

def writeEntries {α : Type} (write : α → Bytes) :
    Bool → List (String × α) → Bytes
  | _, [] => []
  | first, (name, a) :: rest =>
    separator first ++ writeText name ++ 0x3A :: write a ++
      writeEntries write false rest

/-- One entry of a map is read. -/
def entryStep {α : Type} (read : Cursor → Except Error (α × Cursor))
    (entries : List (String × α)) (key : String) (c : Cursor) :
    Except Cursor.Failure (List (String × α) × Cursor) := placed do
  let (a, c) ← read (← c.colon)
  return ((key, a) :: entries, c)

theorem mapOf_eq {α : Type} (expected : String)
    (read : Cursor → Except Error (α × Cursor)) (c : Cursor) :
    c.mapOf expected read = (do
      let c ← c.token
      if c.sees 0x7B then
        let (entries, c) ← c.object [] (entryStep read) .ok
        return (entries.reverse, c)
      else c.refuse expected) := rfl

/-- Entries with what each value is read as. -/
def mapValues {α β : Type} (value : β → α) (entries : List (String × β)) :
    List (String × α) :=
  entries.map fun entry => (entry.1, value entry.2)

theorem members_writeEntries {α β : Type}
    {read : Cursor → Except Error (α × Cursor)} {write : β → Bytes}
    {value : β → α} {entries : List (String × β)}
    (h : ∀ entry ∈ entries, Reads read (write entry.2) (value entry.2))
    (first : Bool) (known : List (String × α)) :
    Members (entryStep read) first known (writeEntries write first entries)
      ((mapValues value entries).reverse ++ known) := by
  induction entries generalizing first known with
  | nil => exact .nil first known
  | cons entry entries ih =>
      obtain ⟨name, b⟩ := entry
      have hrest :=
        ih (fun entry hentry => h entry (List.mem_cons_of_mem _ hentry)) false
          ((name, value b) :: known)
      rw [mapValues, List.map_cons, List.reverse_cons, List.append_assoc]
      refine .cons (fun rest p hdelimited => ?_) hrest
      obtain ⟨q, hq⟩ :=
        h (name, b) List.mem_cons_self rest (p.after 0x3A) hdelimited
      refine ⟨q, ?_⟩
      simp [entryStep, placed, colon_cons, hq, bind, Except.bind, pure,
        Except.pure, mapError_ok]

/-- A map is read when its values are. -/
theorem reads_mapOf {α β : Type} {read : Cursor → Except Error (α × Cursor)}
    {write : β → Bytes} {value : β → α} {entries : List (String × β)}
    (h : ∀ entry ∈ entries, Reads read (write entry.2) (value entry.2))
    (expected : String) :
    Reads (Cursor.mapOf expected read)
      (0x7B :: writeEntries write true entries ++ [0x7D])
      (mapValues value entries) := by
  intro rest p _
  obtain ⟨q, hq⟩ := (members_writeEntries h true []).object .ok rfl rest p
  refine ⟨q, ?_⟩
  have hobject : Cursor.object [] (entryStep read) .ok
      ⟨0x7B :: (writeEntries write true entries ++ 0x7D :: rest), p⟩ =
      .ok ((mapValues value entries).reverse, ⟨rest, q⟩) := by simpa using hq
  simp only [List.cons_append, List.append_assoc, List.nil_append]
  simp [mapOf_eq, token_cons (by decide : isSpace 0x7B = false), bind,
    Except.bind, sees, peek, hobject, pure, Except.pure]

/-! ## Lists -/

def writeElements {β : Type} (write : β → Bytes) : Bool → List β → Bytes
  | _, [] => []
  | first, b :: rest =>
    separator first ++ write b ++ writeElements write false rest

theorem delimited_writeElements {β : Type} (write : β → Bytes) (bs : List β)
    (rest : Bytes) :
    Delimited (writeElements write false bs ++ 0x5D :: rest) := by
  cases bs with
  | nil => exact delimited_cons (Or.inr (Or.inl rfl)) rest
  | cons b bs => exact delimited_cons (Or.inl rfl) _

theorem nextElement_separator {bytes : Bytes} (hstarts : Starts bytes)
    (hopen : bytes.head? ≠ some 0x5D) (first : Bool) (rest : Bytes)
    (p : Position) :
    ∃ q c, nextElement first ⟨separator first ++ bytes ++ rest, p⟩ =
      .ok (some ⟨bytes ++ rest, q⟩, c) := by
  have hcomma : isSpace 0x2C = false := by decide
  obtain ⟨b, bs, rfl, hspace⟩ := hstarts
  have hb : b ≠ 0x5D := by simpa using hopen
  cases first with
  | true =>
      refine ⟨p, ⟨b :: bs ++ rest, p⟩, ?_⟩
      simp only [separator, if_true, List.nil_append, List.cons_append]
      simp [nextElement, skipSpace_cons hspace, peek, hb]
  | false =>
      refine ⟨p.after 0x2C, ⟨b :: bs ++ rest, p.after 0x2C⟩, ?_⟩
      simp only [separator, Bool.false_eq_true, if_false, List.nil_append,
        List.cons_append]
      simp [nextElement, skipSpace_cons hcomma, skipSpace_cons hspace, peek,
        advance, hb]

def elementStep {α : Type} (read : Cursor → Except Error (α × Cursor))
    (found : List α) (c : Cursor) : Except Cursor.Failure (List α × Cursor) :=
  placed do
  let (a, c) ← read c
  return (a :: found, c)

theorem listOf_eq {α : Type} (read : Cursor → Except Error (α × Cursor))
    (c : Cursor) :
    c.listOf read = (do
      let c ← c.token
      if c.sees 0x5B then
        let (found, c) ← within afterList closeList
          (elements (elementStep read) (c.advance.rest.length + 1) true []
            c.advance)
        return (found.reverse, c)
      else c.refuse "a sequence") := rfl

theorem elements_writeElements {α β : Type}
    {read : Cursor → Except Error (α × Cursor)} {write : β → Bytes}
    {value : β → α} {bs : List β}
    (hreads : ∀ b ∈ bs, Reads read (write b) (value b))
    (hstarts : ∀ b ∈ bs, Starts (write b) ∧ (write b).head? ≠ some 0x5D)
    (first : Bool) (found : List α) {fuel : Nat} (hfuel : bs.length < fuel)
    (rest : Bytes) (p : Position) :
    ∃ q, elements (elementStep read) fuel first found
        ⟨writeElements write first bs ++ 0x5D :: rest, p⟩ =
      .ok ((bs.map value).reverse ++ found, ⟨0x5D :: rest, q⟩) := by
  induction bs generalizing first found fuel p with
  | nil =>
      obtain ⟨fuel, rfl⟩ :=
        Nat.exists_eq_add_one_of_ne_zero (Nat.ne_of_gt hfuel)
      refine ⟨p, ?_⟩
      simp [writeElements, elements, placed, nextElement,
        skipSpace_cons (by decide : isSpace 0x5D = false), peek, mapError_ok,
        bind, Except.bind, pure, Except.pure]
  | cons b bs ih =>
      obtain ⟨fuel, rfl⟩ : ∃ n, fuel = n + 1 :=
        Nat.exists_eq_add_one_of_ne_zero
          (Nat.ne_of_gt (Nat.zero_lt_of_lt hfuel))
      have hlength : bs.length < fuel := by simpa using hfuel
      obtain ⟨hspace, hopen⟩ := hstarts b List.mem_cons_self
      obtain ⟨q₁, c₁, h₁⟩ := nextElement_separator hspace hopen first
        (writeElements write false bs ++ 0x5D :: rest) p
      obtain ⟨q₂, h₂⟩ := hreads b List.mem_cons_self
        (writeElements write false bs ++ 0x5D :: rest) q₁
        (delimited_writeElements write bs rest)
      obtain ⟨q₃, h₃⟩ := ih (fun b hb => hreads b (List.mem_cons_of_mem _ hb))
        (fun b hb => hstarts b (List.mem_cons_of_mem _ hb)) false
        (value b :: found) hlength q₂
      refine ⟨q₃, ?_⟩
      have hstep : elementStep read found
          ⟨write b ++ (writeElements write false bs ++ 0x5D :: rest), q₁⟩ =
          .ok (value b :: found,
            ⟨writeElements write false bs ++ 0x5D :: rest, q₂⟩) := by
        simp [elementStep, placed, h₂, bind, Except.bind, pure, Except.pure,
          mapError_ok]
      simp only [writeElements, List.append_assoc] at h₁ ⊢
      simp only [elements, placed, h₁, mapError_ok, bind, Except.bind,
        hstep, h₃]
      simp

theorem length_le_writeElements {β : Type} {write : β → Bytes} {bs : List β}
    (hstarts : ∀ b ∈ bs, Starts (write b)) (first : Bool) :
    bs.length ≤ (writeElements write first bs).length := by
  induction bs generalizing first with
  | nil => exact Nat.zero_le _
  | cons b bs ih =>
      obtain ⟨x, xs, heq, -⟩ := hstarts b List.mem_cons_self
      have hrest := ih (fun b hb => hstarts b (List.mem_cons_of_mem _ hb)) false
      simp only [writeElements, heq, List.length_append, List.length_cons]
      omega

/-- A list is read when its elements are. -/
theorem reads_listOf {α β : Type} {read : Cursor → Except Error (α × Cursor)}
    {write : β → Bytes} {value : β → α} {bs : List β}
    (hreads : ∀ b ∈ bs, Reads read (write b) (value b))
    (hstarts : ∀ b ∈ bs, Starts (write b) ∧ (write b).head? ≠ some 0x5D) :
    Reads (Cursor.listOf read) (0x5B :: writeElements write true bs ++ [0x5D])
      (bs.map value) := by
  intro rest p _
  have hlength :
      bs.length < (writeElements write true bs ++ 0x5D :: rest).length + 1 := by
    have := length_le_writeElements (fun b hb => (hstarts b hb).1) true
    rw [List.length_append]
    omega
  obtain ⟨q, hq⟩ :=
    elements_writeElements hreads hstarts true [] hlength rest (p.after 0x5B)
  refine ⟨q.after 0x5D, ?_⟩
  have hadvance :
      advance ⟨0x5B :: (writeElements write true bs ++ 0x5D :: rest), p⟩ =
      ⟨writeElements write true bs ++ 0x5D :: rest, p.after 0x5B⟩ := rfl
  have hclose : closeList ⟨0x5D :: rest, q⟩ = .ok ⟨rest, q.after 0x5D⟩ := by
    simp [closeList, skipSpace_cons (by decide : isSpace 0x5D = false), sees,
      peek, advance]
  rw [List.append_nil] at hq
  simp only [List.cons_append, List.append_assoc, List.nil_append]
  simp only [listOf_eq, token_cons (by decide : isSpace 0x5B = false), bind,
    Except.bind, sees, peek, List.head?_cons, BEq.rfl, if_true, hadvance, hq,
    within, hclose, pure, Except.pure, List.reverse_reverse]

end Telemetry.Json
