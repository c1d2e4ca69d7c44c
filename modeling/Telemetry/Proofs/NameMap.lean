import Telemetry.NameMap
import Mathlib.Data.List.Perm.Basic
import Mathlib.Data.List.Nodup

/-!
# Maps are what they give for names

What a map gives for a name is the last value that the name was given, and a map
is determined by what it gives for all names, because its pairs are always in
the order of their names.
-/

namespace Telemetry.NameMap

variable {α β : Type} {m n : NameMap α} {name : String} {a : α}

/-- What a list of pairs gives for a name. -/
def lookup (entries : List (String × α)) (name : String) : Option α :=
  (entries.find? fun entry => entry.1 == name).map (·.2)

theorem lookup_cons (name : String) (a : α) (entries : List (String × α))
    (other : String) :
    lookup ((name, a) :: entries) other =
      if name = other then some a else lookup entries other := by
  by_cases h : name = other
  · simp [lookup, h]
  · simp [lookup, h]

theorem lookup_insertEntry (name : String) (a : α) (entries : List (String × α))
    (other : String) :
    lookup (insertEntry name a entries) other =
      if name = other then some a else lookup entries other := by
  induction entries with
  | nil => exact lookup_cons name a [] other
  | cons head rest ih =>
      obtain ⟨first, b⟩ := head
      by_cases hlt : name < first
      · rw [insertEntry, if_pos hlt, lookup_cons]
      · by_cases heq : name = first
        · subst heq
          rw [insertEntry, if_neg hlt, if_pos rfl, lookup_cons, lookup_cons]
          by_cases hname : name = other
          · rw [if_pos hname, if_pos hname]
          · rw [if_neg hname, if_neg hname, if_neg hname]
        · rw [insertEntry, if_neg hlt, if_neg heq, lookup_cons, ih, lookup_cons]
          by_cases hfirst : first = other
          · have hname : name ≠ other := fun h => heq (h.trans hfirst.symm)
            rw [if_pos hfirst, if_neg hname, if_pos hfirst]
          · rw [if_neg hfirst, if_neg hfirst]

theorem find?_insert (m : NameMap α) (name : String) (a : α) (other : String) :
    (m.insert name a).find? other = if name = other then some a
      else m.find? other :=
  lookup_insertEntry name a m.entries other

@[simp] theorem find?_insert_self (m : NameMap α) (name : String) (a : α) :
    (m.insert name a).find? name = some a := by
  rw [find?_insert, if_pos rfl]

theorem mem_entries_of_find? (h : m.find? name = some a) :
    (name, a) ∈ m.entries := by
  obtain ⟨entry, hentry, rfl⟩ := Option.map_eq_some_iff.mp h
  have hname : entry.1 = name := by simpa using List.find?_some hentry
  subst hname
  exact List.mem_of_find?_eq_some hentry

/-- A name occurs at most once in a map. -/
theorem find?_of_mem_entries (h : (name, a) ∈ m.entries) :
    m.find? name = some a := by
  obtain ⟨entries, hascending⟩ := m
  change lookup entries name = some a
  change (name, a) ∈ entries at h
  induction entries with
  | nil => cases h
  | cons head rest ih =>
      obtain ⟨first, b⟩ := head
      obtain ⟨hhead, hrest⟩ := List.pairwise_cons.mp hascending
      rw [lookup_cons]
      rcases List.mem_cons.mp h with heq | hmem
      · obtain ⟨rfl, rfl⟩ := Prod.mk.inj heq
        rw [if_pos rfl]
      · have hlt : first < name := hhead _ hmem
        have hne : first ≠ name := by
          rintro rfl
          exact String.lt_irrefl first hlt
        rw [if_neg hne]
        exact ih hrest hmem

theorem mem_entries_iff : (name, a) ∈ m.entries ↔ m.find? name = some a :=
  ⟨find?_of_mem_entries, mem_entries_of_find?⟩

theorem nodup_entries (m : NameMap α) : m.entries.Nodup := by
  refine m.ascending.imp ?_
  rintro entry other hlt rfl
  exact String.lt_irrefl _ hlt

theorem ext_entries (h : m.entries = n.entries) : m = n := by
  obtain ⟨entries, _⟩ := m
  obtain ⟨_, _⟩ := n
  obtain rfl := h
  rfl

/-- Maps that give the same for all names are the same. -/
theorem ext_find? (h : ∀ name, m.find? name = n.find? name) : m = n := by
  have hperm : m.entries.Perm n.entries := by
    rw [List.perm_ext_iff_of_nodup m.nodup_entries n.nodup_entries]
    rintro ⟨name, a⟩
    rw [mem_entries_iff, mem_entries_iff, h]
  apply ext_entries
  refine List.Perm.eq_of_pairwise ?_ m.ascending n.ascending hperm
  intro entry other _ _ hlt hgt
  exact absurd (String.lt_trans hlt hgt) (String.lt_irrefl _)

/-! ## Many values -/

def insertAll (m : NameMap α) (entries : List (String × α)) : NameMap α :=
  entries.foldl (fun m entry => m.insert entry.1 entry.2) m

theorem find?_insertAll (m : NameMap α) (entries : List (String × α))
    (name : String) :
    (m.insertAll entries).find? name = ((ofList entries).find? name).or
      (m.find? name) := by
  induction entries generalizing m with
  | nil => rfl
  | cons entry rest ih =>
      have hleft : m.insertAll (entry :: rest) =
          (m.insert entry.1 entry.2).insertAll rest := rfl
      have hright : ofList (entry :: rest) =
          (empty.insert entry.1 entry.2).insertAll rest := rfl
      rw [hleft, hright, ih, ih, find?_insert, find?_insert, Option.or_assoc]
      by_cases hname : entry.1 = name
      · rw [if_pos hname, if_pos hname]
        rfl
      · rw [if_neg hname, if_neg hname]
        rfl

/-- Giving the same values again changes nothing. -/
theorem insertAll_insertAll (m : NameMap α) (entries : List (String × α)) :
    (m.insertAll entries).insertAll entries = m.insertAll entries := by
  apply ext_find?
  intro name
  rw [find?_insertAll, find?_insertAll, ← Option.or_assoc, Option.or_self]

/-! ## Changing all values -/

theorem insertEntry_map (f : α → β) (name : String) (a : α)
    (entries : List (String × α)) :
    insertEntry name (f a) (entries.map fun entry => (entry.1, f entry.2)) =
      (insertEntry name a entries).map fun entry => (entry.1, f entry.2) := by
  induction entries with
  | nil => rfl
  | cons head rest ih =>
      obtain ⟨first, b⟩ := head
      rw [List.map_cons, insertEntry, insertEntry, ih]
      by_cases hlt : name < first
      · rw [if_pos hlt, if_pos hlt]
        rfl
      · by_cases heq : name = first
        · rw [if_neg hlt, if_neg hlt, if_pos heq, if_pos heq]
          rfl
        · rw [if_neg hlt, if_neg hlt, if_neg heq, if_neg heq]
          rfl

theorem map_insert (f : α → β) (m : NameMap α) (name : String) (a : α) :
    (m.insert name a).map f = (m.map f).insert name (f a) :=
  ext_entries (insertEntry_map f name a m.entries).symm

theorem find?_map (f : α → β) (m : NameMap α) (name : String) :
    (m.map f).find? name = (m.find? name).map f := by
  rw [find?, map, List.find?_map, Option.map_map, find?, Option.map_map]
  rfl

@[simp] theorem map_id (m : NameMap α) : m.map id = m :=
  ext_entries (List.map_id m.entries)

/-! ## Listings -/

theorem find?_ofList_cons (entry : String × α) (rest : List (String × α))
    (name : String) :
    (ofList (entry :: rest)).find? name =
      ((ofList rest).find? name).or
        (if entry.1 = name then some entry.2 else none) := by
  have h : ofList (entry :: rest) =
      (empty.insert entry.1 entry.2).insertAll rest := rfl
  rw [h, find?_insertAll, find?_insert]
  rfl

/-- A map of pairs gives a name no value but one of those in the pairs. -/
theorem mem_of_find?_ofList {entries : List (String × α)}
    (h : (ofList entries).find? name = some a) : (name, a) ∈ entries := by
  induction entries with
  | nil => nomatch h
  | cons entry rest ih =>
      rw [find?_ofList_cons] at h
      rcases Option.or_eq_some_iff.mp h with hrest | ⟨-, hfirst⟩
      · exact List.mem_cons_of_mem _ (ih hrest)
      · obtain ⟨rfl, hvalue⟩ := Option.ite_none_right_eq_some.mp hfirst
        exact Option.some.inj hvalue ▸ List.mem_cons_self

/-- A map of pairs gives every name in the pairs a value. -/
theorem exists_find?_ofList {entries : List (String × α)}
    (h : (name, a) ∈ entries) : ∃ b, (ofList entries).find? name = some b := by
  induction entries with
  | nil => nomatch h
  | cons entry rest ih =>
      rw [find?_ofList_cons]
      cases hrest : (ofList rest).find? name with
      | some b => exact ⟨b, rfl⟩
      | none =>
          rcases List.mem_cons.mp h with rfl | hmem
          · exact ⟨a, if_pos rfl⟩
          · obtain ⟨b, hb⟩ := ih hmem
            exact nomatch hrest.symm.trans hb

/-- A listing of the pairs of a map, each once, in any order. -/
structure Lists (m : NameMap α) (listing : List (String × α)) : Prop where
  nodup : listing.Nodup
  mem_iff : ∀ name a, (name, a) ∈ listing ↔ m.find? name = some a

namespace Lists

variable {listing : List (String × α)}

theorem entries (m : NameMap α) : m.Lists m.entries :=
  ⟨m.nodup_entries, fun _ _ => mem_entries_iff⟩

theorem perm (h : m.Lists listing) : listing.Perm m.entries := by
  rw [List.perm_ext_iff_of_nodup h.nodup m.nodup_entries]
  rintro ⟨name, a⟩
  rw [h.mem_iff, mem_entries_iff]

theorem of_perm (h : listing.Perm m.entries) : m.Lists listing :=
  ⟨h.nodup_iff.mpr m.nodup_entries,
    fun _ _ => h.mem_iff.trans mem_entries_iff⟩

theorem map (h : m.Lists listing) (f : α → β) :
    (m.map f).Lists (listing.map fun entry => (entry.1, f entry.2)) :=
  .of_perm (h.perm.map _)

/-- The pairs of a map make up the map, whatever their order. -/
theorem ofList_eq (h : m.Lists listing) : ofList listing = m := by
  apply ext_find?
  intro name
  cases hfound : (ofList listing).find? name with
  | some a => exact ((h.mem_iff name a).mp (mem_of_find?_ofList hfound)).symm
  | none =>
      cases hname : m.find? name with
      | none => rfl
      | some a =>
          obtain ⟨b, hb⟩ := exists_find?_ofList ((h.mem_iff name a).mpr hname)
          exact nomatch hfound.symm.trans hb

end Lists

end Telemetry.NameMap
