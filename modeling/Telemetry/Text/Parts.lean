/-!
# The parts of a text

A text is taken apart at the occurrences of a separator, which are looked for
from left to right and do not overlap.  Where a pattern is replaced, another
text stands between the parts, and it is not searched again.
-/

namespace Telemetry.Text

/-- The parts between the occurrences of a separator that is not empty; so many
characters at the front still belong to an occurrence. -/
def partsFrom (separator : List Char) : Nat → List Char → List (List Char)
  | _, [] => [[]]
  | passed + 1, _ :: rest => partsFrom separator passed rest
  | 0, c :: rest =>
    if separator.isPrefixOf (c :: rest) then
      [] :: partsFrom separator (separator.length - 1) rest
    else (partsFrom separator 0 rest).modifyHead (c :: ·)

def parts (separator s : String) : List String :=
  (partsFrom separator.toList 0 s.toList).map String.ofList

def replaceAll (pattern replacement s : String) : String :=
  replacement.intercalate (parts pattern s)

section

variable {first c : Char} {others before rest : List Char}

theorem partsFrom_passed (separator passed rest : List Char) :
    partsFrom separator passed.length (passed ++ rest) =
      partsFrom separator 0 rest := by
  induction passed with
  | nil => rfl
  | cons c passed ih => exact ih

theorem partsFrom_separator_append (first : Char) (others rest : List Char) :
    partsFrom (first :: others) 0 (first :: others ++ rest)
      = [] :: partsFrom (first :: others) 0 rest := by
  have hfound :
      (first :: others).isPrefixOf (first :: (others ++ rest)) = true :=
    List.isPrefixOf_iff_prefix.mpr (List.prefix_append (first :: others) rest)
  rw [List.cons_append, partsFrom, if_pos hfound]
  exact congrArg _ (partsFrom_passed _ others rest)

theorem partsFrom_cons_of_ne (h : c ≠ first) :
    partsFrom (first :: others) 0 (c :: rest)
      = (partsFrom (first :: others) 0 rest).modifyHead (c :: ·) := by
  have hmissed : ¬(first :: others).isPrefixOf (c :: rest) = true := by
    intro hfound
    exact h
      (List.cons_prefix_cons.mp (List.isPrefixOf_iff_prefix.mp hfound)).1.symm
  rw [partsFrom, if_neg hmissed]

theorem partsFrom_append_of_notMem (h : first ∉ before) :
    partsFrom (first :: others) 0 (before ++ rest)
      = (partsFrom (first :: others) 0 rest).modifyHead (before ++ ·) := by
  induction before with
  | nil => exact (congrFun List.modifyHead_id _).symm
  | cons c before ih =>
      obtain ⟨hc, hbefore⟩ := not_or.mp (mt List.mem_cons.mpr h)
      rw [List.cons_append, partsFrom_cons_of_ne (Ne.symm hc), ih hbefore,
        List.modifyHead_modifyHead]
      rfl

end

section

variable {separator before : String} {first : Char}

theorem parts_append (hfirst : separator.toList.head? = some first)
    (hbefore : first ∉ before.toList) (rest : String) :
    parts separator (before ++ separator ++ rest) =
      before :: parts separator rest := by
  obtain ⟨others, hseparator⟩ := List.head?_eq_some_iff.mp hfirst
  unfold parts
  rw [String.toList_append, String.toList_append, hseparator, List.append_assoc,
    partsFrom_append_of_notMem hbefore, partsFrom_separator_append,
    List.modifyHead_cons, List.map_cons, List.append_nil, String.ofList_toList]

/-- Occurrences do not overlap. -/
example : parts "aa" "aaab" = ["", "ab"] := rfl

theorem parts_of_notMem (hfirst : separator.toList.head? = some first)
    (hbefore : first ∉ before.toList) : parts separator before = [before] := by
  obtain ⟨others, hseparator⟩ := List.head?_eq_some_iff.mp hfirst
  unfold parts
  rw [hseparator, ← List.append_nil before.toList,
    partsFrom_append_of_notMem hbefore, partsFrom, List.modifyHead_cons,
    List.append_nil, List.map_cons, List.map_nil, String.ofList_toList]

end

end Telemetry.Text
