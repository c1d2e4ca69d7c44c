import Mathlib.Data.String.Basic
import Telemetry.Page
import Telemetry.Proofs.List
import Telemetry.Proofs.Service

/-!
# What the index page says

The items of a page can be read back whatever the names of the samples are: a
tag that stands in the page was written by the page itself, so that it can be
taken apart at its tags, and the escaped text between two of them has one
meaning only.
-/

namespace Telemetry.Page

/-! ## Reading the items of a page -/

/-- Undoes the five entities, from left to right. -/
def unescapeChars : List Char → List Char
  | '&' :: 'a' :: 'm' :: 'p' :: ';' :: rest => '&' :: unescapeChars rest
  | '&' :: 'l' :: 't' :: ';' :: rest => '<' :: unescapeChars rest
  | '&' :: 'g' :: 't' :: ';' :: rest => '>' :: unescapeChars rest
  | '&' :: 'q' :: 'u' :: 'o' :: 't' :: ';' :: rest => '"' :: unescapeChars rest
  | '&' :: '#' :: '3' :: '9' :: ';' :: rest => '\'' :: unescapeChars rest
  | c :: rest => c :: unescapeChars rest
  | [] => []

def unescape (s : String) : String := String.ofList (unescapeChars s.toList)

/-- What an item without its end says. -/
def readItem (s : String) : String := unescape (Text.replaceAll "<li>" "" s)

/-- What the items of a text say; nothing is expected after the
end of the last one. -/
def readItems (text : String) : List String :=
  (Text.parts "</li>\n" text).dropLast.map readItem

/-! ## Escaped text -/

theorem unescapeChars_cons {c : Char} (h : c ≠ '&') (rest : List Char) :
    unescapeChars (c :: rest) = c :: unescapeChars rest := by
  rw [unescapeChars]
  all_goals
    intro _ hamp
    exact absurd hamp h

theorem unescapeChars_escapeChar (c : Char) (rest : List Char) :
    unescapeChars (escapeChar c ++ rest) = c :: unescapeChars rest := by
  unfold escapeChar
  split_ifs with hamp hlt hgt hquot hapos
  · subst hamp; rfl
  · subst hlt; rfl
  · subst hgt; rfl
  · subst hquot; rfl
  · subst hapos; rfl
  · exact unescapeChars_cons hamp rest

theorem unescape_escape (s : String) : unescape (escape s) = s := by
  have hchars (cs : List Char) :
      unescapeChars (cs.flatMap escapeChar) = cs := by
    induction cs with
    | nil => rfl
    | cons c cs ih => rw [List.flatMap_cons, unescapeChars_escapeChar, ih]
  unfold unescape escape
  rw [String.toList_ofList, hchars, String.ofList_toList]

def Untagged (s : String) : Prop := '<' ∉ s.toList ∧ '>' ∉ s.toList

theorem untagged_escape (s : String) : Untagged (escape s) := by
  have hchar (c : Char) : '<' ∉ escapeChar c ∧ '>' ∉ escapeChar c := by
    unfold escapeChar
    split_ifs with hamp hlt hgt hquot hapos
    any_goals decide
    exact ⟨mt List.mem_singleton.mp (Ne.symm hlt),
      mt List.mem_singleton.mp (Ne.symm hgt)⟩
  unfold Untagged escape
  rw [String.toList_ofList]
  constructor
  · intro hopens
    obtain ⟨c, -, hc⟩ := List.mem_flatMap.mp hopens
    exact (hchar c).1 hc
  · intro hcloses
    obtain ⟨c, -, hc⟩ := List.mem_flatMap.mp hcloses
    exact (hchar c).2 hc

/-! ## Items -/

abbrev itemEnd : List Char := ['<', '/', 'l', 'i', '>', '\n']

theorem partsFrom_item {body : List Char} (h : '<' ∉ body) (rest : List Char) :
    Text.partsFrom itemEnd 0 (['<', 'l', 'i', '>'] ++ body ++ itemEnd ++ rest)
      = (['<', 'l', 'i', '>'] ++ body) :: Text.partsFrom itemEnd 0 rest := by
  -- the tag begins as the end of an item does, so only what follows its first
  -- character is free of that beginning
  have hfree : '<' ∉ ['l', 'i', '>'] ++ body := by
    rw [List.mem_append]
    exact not_or.mpr ⟨by decide, h⟩
  calc
    Text.partsFrom itemEnd 0 (['<', 'l', 'i', '>'] ++ body ++ itemEnd ++ rest)
        = (Text.partsFrom itemEnd 0 (['l', 'i', '>'] ++ body ++
            (itemEnd ++ rest))).modifyHead ('<' :: ·) := by
      rw [List.append_assoc]
      rfl
    _ = (([] :: Text.partsFrom itemEnd 0 rest).modifyHead
          (['l', 'i', '>'] ++ body ++ ·)).modifyHead ('<' :: ·) := by
      rw [Text.partsFrom_append_of_notMem hfree,
        Text.partsFrom_separator_append]
    _ = (['<', 'l', 'i', '>'] ++ body) :: Text.partsFrom itemEnd 0 rest := by
      simp

theorem parts_item (body rest : String) (h : '<' ∉ body.toList) :
    Text.parts "</li>\n" ("<li>" ++ body ++ "</li>\n" ++ rest)
      = ("<li>" ++ body) :: Text.parts "</li>\n" rest := by
  unfold Text.parts
  rw [String.toList_append, String.toList_append, String.toList_append]
  calc
    (Text.partsFrom "</li>\n".toList 0
        ("<li>".toList ++ body.toList ++ "</li>\n".toList ++ rest.toList)).map
        String.ofList = String.ofList ("<li>".toList ++ body.toList) ::
        (Text.partsFrom "</li>\n".toList 0 rest.toList).map String.ofList :=
      congrArg (List.map String.ofList) (partsFrom_item h rest.toList)
    _ = _ := by rw [← String.toList_append, String.ofList_toList]

theorem readItem_tagged (s : String) : readItem ("<li>" ++ escape s) = s := by
  have hfirst : "<li>".toList.head? = some '<' := rfl
  have hparts : Text.parts "<li>" ("<li>" ++ escape s) = ["", escape s] := by
    have h : Text.parts "<li>" ("" ++ "<li>" ++ escape s) =
        "" :: Text.parts "<li>" (escape s) :=
      Text.parts_append hfirst (by simp) (escape s)
    rw [String.empty_append] at h
    rw [h, Text.parts_of_notMem hfirst (untagged_escape s).1]
  have hjoined : "".intercalate ["", escape s] = escape s := by
    simp
  unfold readItem Text.replaceAll
  rw [hparts, hjoined, unescape_escape]

theorem items_cons (l : String) (ls : List String) :
    items (l :: ls) = "<li>" ++ escape l ++ "</li>\n" ++ items ls := by
  simp [items, item]
  rfl

theorem parts_items (ls : List String) :
    Text.parts "</li>\n" (items ls) = ls.map (fun l => "<li>" ++ escape l) ++
      [""] := by
  induction ls with
  | nil => rfl
  | cons l ls ih =>
      rw [items_cons, parts_item _ _ (untagged_escape l).1, ih, List.map_cons,
        List.cons_append]

theorem readItems_items (ls : List String) : readItems (items ls) = ls := by
  unfold readItems
  rw [parts_items, List.dropLast_concat, List.map_map]
  calc
    ls.map (readItem ∘ fun l => "<li>" ++ escape l) = ls.map id :=
      List.map_congr_left fun l _ => readItem_tagged l
    _ = ls := List.map_id ls

/-! ## Lines -/

theorem lines_perm (gauges : List (String × Binary64))
    (counters : List (String × Int64)) :
    (lines gauges counters).Perm
      (gauges.map (fun g => line g.1 g.2.toText) ++
        counters.map fun c => line c.1 (Text.int64Text c.2)) :=
  List.mergeSort_perm _ _

theorem lines_ascending (gauges : List (String × Binary64))
    (counters : List (String × Int64)) :
    (lines gauges counters).Pairwise (· ≤ ·) :=
  pairwise_mergeSort_key id _

/-! ## The page -/

/-- A text that takes the place of the marker and from which the samples can
be read: its tags are those of its items, and the items say in ascending
order what is stored. -/
structure ShowsSamples (gauges : List (String × Binary64))
    (counters : List (String × Int64)) (text : String) : Prop where
  tagged : ∃ bodies : List String, (∀ body ∈ bodies, Untagged body) ∧
    text = String.join (bodies.map fun body => "<li>" ++ body ++ "</li>\n")
  ascending : (readItems text).Pairwise (· ≤ ·)
  complete : (readItems text).Perm
    (gauges.map (fun g => g.1 ++ ": " ++ g.2.toText) ++
      counters.map fun c => c.1 ++ ": " ++ Text.int64Text c.2)

theorem items_tagged (ls : List String) :
    ∃ bodies : List String, (∀ body ∈ bodies, Untagged body) ∧
      items ls =
        String.join (bodies.map fun body => "<li>" ++ body ++ "</li>\n") := by
  refine ⟨ls.map escape, ?_, ?_⟩
  · intro body hbody
    obtain ⟨l, -, rfl⟩ := List.mem_map.mp hbody
    exact untagged_escape l
  · rw [List.map_map]
    rfl

theorem shows_items (gauges : List (String × Binary64))
    (counters : List (String × Int64)) :
    ShowsSamples gauges counters (items (lines gauges counters)) where
  tagged := items_tagged _
  ascending := by
    rw [readItems_items]
    exact lines_ascending gauges counters
  complete := by
    rw [readItems_items]
    exact lines_perm gauges counters

theorem render_eq {σ : Type} [SampleStore σ] {s t u : σ}
    {gauges : List (String × Binary64)} {counters : List (String × Int64)}
    (hgauges : SampleStore.gauges s = (.ok gauges, t))
    (hcounters : SampleStore.counters t = (.ok counters, u)) :
    render s = (.ok (opening ++ items (lines gauges counters) ++ closing),
      u) := by
  rw [← replaceAll_marker]
  unfold render
  rw [run_bind_of_eq_ok (Service.ask_of_ok hgauges),
    run_bind_of_eq_ok (Service.ask_of_ok hcounters)]
  rfl

/-- The page of any store whose samples can be read is the template with a text
in place of its marker from which they can be read again. -/
theorem rendered_read_back :
    template = opening ++ marker ++ closing ∧
    (∀ m : MemoryStore, ∃ text,
      ShowsSamples m.samples.gauges.entries m.samples.counters.entries text ∧
      render m = (.ok (opening ++ text ++ closing), m)) ∧
    ∀ (σ : Type) [SampleStore σ] (s t u : σ) (gauges : List (String × Binary64))
      (counters : List (String × Int64)),
      SampleStore.gauges s = (.ok gauges, t) →
      SampleStore.counters t = (.ok counters, u) →
      ∃ text, ShowsSamples gauges counters text ∧
        render s = (.ok (opening ++ text ++ closing), u) := by
  refine ⟨rfl, ?_, ?_⟩
  · intro m
    exact ⟨_, shows_items _ _, render_eq (s := m) rfl rfl⟩
  · intro σ _ s t u gauges counters hgauges hcounters
    exact ⟨_, shows_items _ _, render_eq hgauges hcounters⟩

/-- A name that ends an item and begins another, and a name
that is the marker. -/
theorem rendered_read_back_forged :
    let m : MemoryStore :=
      { MemoryStore.ephemeral .empty with
        samples := (Samples.empty.setGauge "</li>\n<li>up: 1" .zero).addCounter
          "\x7b\x7bitems\x7d\x7d" 4 }
    SampleStore.gauges m = (.ok [("</li>\n<li>up: 1", .zero)], m) ∧
      SampleStore.counters m = (.ok [("\x7b\x7bitems\x7d\x7d", 4)], m) ∧
      ∃ text,
        ShowsSamples [("</li>\n<li>up: 1", .zero)]
            [("\x7b\x7bitems\x7d\x7d", 4)] text ∧
          render m = (.ok (opening ++ text ++ closing), m) := by
  intro m
  have hgauges :
      SampleStore.gauges m = (.ok [("</li>\n<li>up: 1", .zero)], m) := rfl
  have hcounters :
      SampleStore.counters m = (.ok [("\x7b\x7bitems\x7d\x7d", 4)], m) := rfl
  exact ⟨hgauges, hcounters,
    rendered_read_back.2.2 _ m m m _ _ hgauges hcounters⟩

end Telemetry.Page
