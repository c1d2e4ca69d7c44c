import Telemetry.Proofs.Cipher.Blocks
import Telemetry.Proofs.Text.Base64
import Telemetry.Proofs.Text.Cut

/-!
# Armoured blocks are read back

A block is written as base64 lines between the line that begins it and the line
that ends it.  The reader gives back the block that a file begins with, whatever
stands after it.
-/

namespace Telemetry

namespace Pem

variable {line label : Bytes} {rest : Bytes}

/-! ## Writing -/

def lineEnd : Bytes := [0x0A]

def body (contents : Bytes) : List Bytes :=
  chunks lineWidth (Base64.encode contents)

def write (block : Block) : Bytes :=
  beginning ++ Utf8.encode block.label ++ dashes ++ lineEnd
    ++ (body block.contents).flatMap (· ++ lineEnd)
    ++ (ending ++ Utf8.encode block.label ++ dashes ++ lineEnd)

/-! ## Lines -/

theorem lines_append (h : 0x0A ∉ line) (rest : Bytes) :
    lines (line ++ lineEnd ++ rest) = (line ++ lineEnd) :: lines rest := by
  induction line with
  | nil =>
      rw [List.nil_append]
      exact if_pos rfl
  | cons b line ih =>
      rw [List.mem_cons, not_or] at h
      rw [List.cons_append, List.cons_append, lines,
        if_neg (Ne.symm h.1), ih h.2]

theorem lines_flatMap_append {ls : List Bytes} (h : ∀ line ∈ ls, 0x0A ∉ line)
    (rest : Bytes) :
    lines (ls.flatMap (· ++ lineEnd) ++ rest) = ls.map (· ++ lineEnd) ++
      lines rest := by
  induction ls with
  | nil => rfl
  | cons line ls ih =>
      rw [List.flatMap_cons, List.append_assoc,
        lines_append (h line List.mem_cons_self),
        ih fun l hl => h l (List.mem_cons_of_mem line hl), List.map_cons,
        List.cons_append]

theorem isCharacter_of_mem_body {contents : Bytes}
    (hline : line ∈ body contents) {b : UInt8} (hb : b ∈ line) :
    Base64.isCharacter b = true := by
  have hmem : b ∈ (body contents).flatten :=
    List.mem_flatten.mpr ⟨line, hline, hb⟩
  unfold body at hmem
  rw [flatten_chunks] at hmem
  exact Base64.isCharacter_of_mem_encode hmem

/-! ## Reading -/

theorem strip?_append (front rest : Bytes) :
    strip? front (front ++ rest) = some rest := by
  have hfront : front.isPrefixOf (front ++ rest) = true :=
    List.isPrefixOf_iff_prefix.mpr (List.prefix_append _ _)
  unfold strip?
  rw [if_pos hfront, List.drop_left]

theorem hasDashes_append (front rest : Bytes) :
    hasDashes (front ++ dashes ++ rest) = true := by
  induction front with
  | nil => rfl
  | cons b front ih =>
      rw [List.cons_append, List.cons_append, hasDashes, ih, Bool.or_true]

theorem takeWhile_label (h : 0x2D ∉ label) (rest : Bytes) :
    (label ++ dashes ++ rest).takeWhile (· != 0x2D) = label := by
  have hlabel : ∀ b ∈ label, (b != 0x2D) = true := by
    rintro b hb
    exact bne_iff_ne.mpr fun heq => h (heq ▸ hb)
  rw [List.append_assoc, List.takeWhile_append_of_pos hlabel]
  exact List.append_nil _

/-- The text of a line of characters, and the text without
the end of the line. -/
theorem decode?_line (h : ∀ b ∈ line, Base64.isCharacter b = true) :
    Utf8.decode? (line ++ lineEnd) = some (Utf8.asciiText (line ++ lineEnd)) ∧
      Text.trimEnd (Utf8.asciiText (line ++ lineEnd)) =
        Utf8.asciiText line := by
  constructor
  · have hascii : ∀ b ∈ line ++ lineEnd, b.toNat < 128 := by
      intro b hb
      rcases List.mem_append.mp hb with hb | hb
      · exact (Base64.plain_of_isCharacter (h b hb)).1
      · rw [List.mem_singleton.mp hb]
        decide
    have hdecode := Utf8.decode?_encode (Utf8.asciiText (line ++ lineEnd))
    rwa [Utf8.encode_asciiText hascii] at hdecode
  · have hbare :
        ∀ c ∈ line.map fun b => Char.ofNat b.toNat, Text.isBlank c = false := by
      intro c hc
      obtain ⟨b, hb, rfl⟩ := List.mem_map.mp hc
      exact (Base64.plain_of_isCharacter (h b hb)).2.2.2
    have htrim := Text.trimEndChars_eq_self hbare
    unfold Text.trimEnd Utf8.asciiText
    rw [String.toList_ofList, List.map_append]
    unfold Text.trimEndChars at htrim ⊢
    rw [List.reverse_append]
    exact congrArg String.ofList htrim

theorem not_isPrefixOf_line (hline : line ≠ [])
    (h : ∀ b ∈ line, Base64.isCharacter b = true) (rest : Bytes) :
    ¬ ending.isPrefixOf (line ++ rest) = true := by
  cases line with
  | nil => exact absurd rfl hline
  | cons b line =>
      have hb := (Base64.plain_of_isCharacter (h b List.mem_cons_self)).2.2.1
      rw [List.isPrefixOf_iff_prefix]
      intro hfront
      exact hb (List.cons_prefix_cons.mp hfront).1.symm

/-- The lines before the one that ends a block are found. -/
theorem bodyLines?_append {ls : List Bytes} (hne : ∀ line ∈ ls, line ≠ [])
    (h : ∀ line ∈ ls, ∀ b ∈ line, Base64.isCharacter b = true) {last : String}
    (hlast : ending <+: Utf8.encode last) (more : List Bytes) :
    bodyLines? (ls.map (· ++ lineEnd) ++ Utf8.encode last :: more) =
      some (ls.map Utf8.asciiText) := by
  induction ls with
  | nil =>
      rw [List.map_nil, List.nil_append, bodyLines?, Utf8.decode?_encode]
      exact if_pos (List.isPrefixOf_iff_prefix.mpr hlast)
  | cons line ls ih =>
      have hcharacters := h line List.mem_cons_self
      obtain ⟨hdecode, htrim⟩ := decode?_line hcharacters
      have hother :=
        not_isPrefixOf_line (hne line List.mem_cons_self) hcharacters lineEnd
      have hrest := ih (fun l hl => hne l (List.mem_cons_of_mem line hl))
        fun l hl => h l (List.mem_cons_of_mem line hl)
      rw [List.map_cons, List.cons_append, bodyLines?, hdecode]
      simp only [Option.bind_eq_bind, Option.bind_some, if_neg hother,
        hrest, htrim]
      rfl

/-- The text of the lines of a block is that of what it holds. -/
theorem flatMap_asciiText_body (contents : Bytes) :
    ((body contents).map Utf8.asciiText).flatMap Utf8.encode =
      Base64.encode contents := by
  have hback : ∀ line ∈ body contents,
      Utf8.encode (Utf8.asciiText line) = line :=
    fun line hline => Utf8.encode_asciiText fun b hb =>
      (Base64.plain_of_isCharacter (isCharacter_of_mem_body hline hb)).1
  rw [List.flatMap_map, List.flatMap_congr hback, List.flatMap_id']
  exact flatten_chunks _ _

/-- A label that can be read: it ends no line and holds no dash. -/
structure IsLabel (label : String) : Prop where
  line : 0x0A ∉ Utf8.encode label
  bare : 0x2D ∉ Utf8.encode label

/-- The line between the dashes of a block and the label, as a text. -/
theorem encode_boundary {front : Bytes} {start : String}
    (hfront : Utf8.encode start = front) (label : String) :
    front ++ Utf8.encode label ++ dashes ++
      lineEnd = Utf8.encode (start ++ label ++ "-----\n") := by
  have hback : Utf8.encode "-----\n" = dashes ++ lineEnd := by decide +kernel
  rw [Utf8.encode_append, Utf8.encode_append, hfront, hback,
    ← List.append_assoc]

theorem lines_write_append {block : Block} (h : IsLabel block.label)
    (rest : Bytes) :
    lines (write block ++ rest) =
      (beginning ++ Utf8.encode block.label ++ dashes ++ lineEnd) ::
        ((body block.contents).map (· ++ lineEnd) ++
          (ending ++ Utf8.encode block.label ++ dashes ++ lineEnd) ::
            lines rest) := by
  have hboundary {front : Bytes} (hfront : 0x0A ∉ front) :
      0x0A ∉ front ++ Utf8.encode block.label ++ dashes := by
    simp only [List.mem_append, not_or]
    exact ⟨⟨hfront, h.line⟩, by decide⟩
  have hbody : ∀ line ∈ body block.contents, 0x0A ∉ line := by
    intro line hline hmem
    exact (Base64.plain_of_isCharacter
      (isCharacter_of_mem_body hline hmem)).2.1 rfl
  unfold write
  rw [List.append_assoc, List.append_assoc,
    lines_append (hboundary (by decide +kernel)), lines_flatMap_append hbody,
    lines_append (hboundary (by decide +kernel))]

/-- The block that a file begins with is read back. -/
theorem readFirst?_write_append {block : Block} (h : IsLabel block.label)
    (rest : Bytes) :
    readFirst? (write block ++ rest) = some block := by
  have hstart : Utf8.encode "-----BEGIN " = beginning := by decide +kernel
  have hend : Utf8.encode "-----END " = ending := by decide +kernel
  have hfirst := encode_boundary hstart block.label
  have hstrip :
      strip? beginning (beginning ++ Utf8.encode block.label ++ dashes ++
        lineEnd) = some (Utf8.encode block.label ++ dashes ++ lineEnd) := by
    rw [List.append_assoc, List.append_assoc, strip?_append,
      ← List.append_assoc]
  have hlast := encode_boundary hend block.label
  have hending :
      ending <+: Utf8.encode ("-----END " ++ block.label ++ "-----\n") := by
    rw [← hlast, List.append_assoc, List.append_assoc]
    exact List.prefix_append _ _
  have hne : ∀ line ∈ body block.contents, line ≠ [] :=
    fun _ => ne_nil_of_mem_chunks
  have hcharacters :
      ∀ line ∈ body block.contents, ∀ b ∈ line, Base64.isCharacter b = true :=
    fun _ hline _ => isCharacter_of_mem_body hline
  have hbody := bodyLines?_append hne hcharacters hending (lines rest)
  unfold readFirst?
  rw [lines_write_append h, firstBlock?, hstrip, hfirst,
    Utf8.decode?_encode, hlast]
  simp only [hasDashes_append, takeWhile_label h.bare, Utf8.decode?_encode,
    hbody, if_true, Option.bind_eq_bind, Option.bind_some,
    flatMap_asciiText_body, Base64.decode?_encode]

end Pem

end Telemetry
