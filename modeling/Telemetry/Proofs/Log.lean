import Telemetry.Log
import Telemetry.Proofs.Text.Cut
import Mathlib.Data.List.DropRight

/-!
# What a log shows of a body

A log shows the longest beginning of a long text that has room, a short text
without the blanks that end it, and of anything else only that it is not a text.
It never cuts a text within a character.
-/

namespace Telemetry

namespace Text

variable {s p q : String}

/-- A text without the blanks that end it. -/
structure TrimmedEnd (s p : String) : Prop where
  blanks : ∃ blanks, s.toList = p.toList ++ blanks ∧
    ∀ c ∈ blanks, isBlank c = true
  bare : ∀ c ∈ p.toList.getLast?, isBlank c = false

theorem trimmedEnd_trimEnd (s : String) : TrimmedEnd s (trimEnd s) where
  blanks := by
    refine ⟨s.toList.rtakeWhile isBlank, ?_,
      fun c hc => List.mem_rtakeWhile_imp hc⟩
    unfold trimEnd trimEndChars List.rtakeWhile
    rw [String.toList_ofList, ← List.reverse_append,
      List.takeWhile_append_dropWhile, List.reverse_reverse]
  bare := by
    intro c hc
    have hhead := List.head?_dropWhile_not isBlank s.toList.reverse
    unfold trimEnd trimEndChars at hc
    rw [String.toList_ofList, List.getLast?_reverse] at hc
    rw [Option.mem_def.mp hc] at hhead
    exact hhead

/-- What stands between two ends of a text without its blanks is nothing. -/
theorem TrimmedEnd.eq_of_isPrefix (hp : TrimmedEnd s p) (hq : TrimmedEnd s q)
    (hfront : p.toList <+: q.toList) : p = q := by
  obtain ⟨between, hbetween⟩ := hfront
  obtain ⟨blanks, hs, hblank⟩ := hp.blanks
  obtain ⟨others, hs', -⟩ := hq.blanks
  have hrest : blanks = between ++ others := by
    rw [hs, ← hbetween, List.append_assoc] at hs'
    exact List.append_cancel_left hs'
  rcases List.eq_nil_or_concat' between with rfl | ⟨before, c, rfl⟩
  · rw [List.append_nil] at hbetween
    exact String.toList_injective hbetween
  · have hlast : q.toList.getLast? = some c := by
      rw [← hbetween, ← List.append_assoc, List.getLast?_concat]
    have hc := hblank c (by rw [hrest]; simp)
    rw [hq.bare c hlast] at hc
    exact absurd hc Bool.false_ne_true

theorem TrimmedEnd.unique (hp : TrimmedEnd s p) (hq : TrimmedEnd s q) :
    p = q := by
  obtain ⟨blanks, hs, -⟩ := hp.blanks
  obtain ⟨others, hs', -⟩ := hq.blanks
  rcases List.prefix_or_prefix_of_prefix ⟨blanks, hs.symm⟩ ⟨others, hs'.symm⟩
    with h | h
  · exact hp.eq_of_isPrefix hq h
  · exact (hq.eq_of_isPrefix hp h).symm

end Text

theorem Utf8.LongestFront.unique {room : Nat} {s p q : String}
    (hp : LongestFront room s p) (hq : LongestFront room s q) : p = q := by
  have hpq := hq.longest p hp.front hp.fits
  have hqp := hp.longest q hq.front hq.fits
  exact String.toList_injective (hpq.eq_of_length_le hqp.length_le)

namespace Log

variable {room : Nat} {body : Bytes} {s text : String}

/-- What a log is to show of a body. -/
inductive Shows (room : Nat) : Bytes → String → Prop where
  /-- The longest beginning of a text that is too long. -/
  | beginning {s p : String} :
      room < (Utf8.encode s).length → Utf8.LongestFront room s p →
      Shows room (Utf8.encode s) (p ++ "...")
  | whole {s p : String} : (Utf8.encode s).length ≤ room → Text.TrimmedEnd s p →
      Shows room (Utf8.encode s) p
  | placeholder {body : Bytes} : (∀ s, Utf8.encode s ≠ body) →
      Shows room body "<non-utf8 body>"

theorem shows_encode_iff_of_lt (h : room < (Utf8.encode s).length) :
    Shows room (Utf8.encode s) text ↔ ∃ p, Utf8.LongestFront room s p ∧
      text = p ++ "..." := by
  constructor
  · intro hshows
    generalize hbody : Utf8.encode s = body at hshows
    cases hshows with
    | beginning _ hp =>
        obtain rfl := Utf8.encode_injective hbody
        exact ⟨_, hp, rfl⟩
    | whole hle => exact absurd h (by rw [hbody]; exact Nat.not_lt_of_le hle)
    | placeholder hno => exact absurd hbody (hno s)
  · rintro ⟨p, hp, rfl⟩
    exact .beginning h hp

theorem shows_encode_iff_of_le (h : (Utf8.encode s).length ≤ room) :
    Shows room (Utf8.encode s) text ↔ Text.TrimmedEnd s text := by
  constructor
  · intro hshows
    generalize hbody : Utf8.encode s = body at hshows
    cases hshows with
    | beginning hlt =>
        exact absurd h (by rw [hbody]; exact Nat.not_le_of_lt hlt)
    | whole _ hp =>
        obtain rfl := Utf8.encode_injective hbody
        exact hp
    | placeholder hno => exact absurd hbody (hno s)
  · exact .whole h

theorem shows_iff_of_decode?_eq_none (h : Utf8.decode? body = none) :
    Shows room body text ↔ text = "<non-utf8 body>" := by
  have hno (s : String) : Utf8.encode s ≠ body := by
    rintro rfl
    rw [Utf8.decode?_encode] at h
    exact Option.some_ne_none s h
  constructor
  · intro hshows
    cases hshows with
    | beginning => exact absurd rfl (hno _)
    | whole => exact absurd rfl (hno _)
    | placeholder => rfl
  · rintro rfl
    exact .placeholder hno

/-- The excerpt of a body is made whatever the body and the room, and is the one
text that a log is to show of it. -/
theorem excerpt_shows (room : Nat) (body : Bytes) :
    ∃ text, excerpt room body = .ok text ∧ ∀ shown, Shows room body shown ↔
      shown = text := by
  unfold excerpt
  split
  next hbody => exact ⟨_, rfl, fun _ => shows_iff_of_decode?_eq_none hbody⟩
  next s hbody =>
    obtain rfl := Utf8.encode_of_decode? hbody
    split_ifs with hlength
    · obtain ⟨p, hcut, hp⟩ := Utf8.exists_cut_boundaryUpTo s room
      rw [hcut]
      refine ⟨p ++ "...", rfl, fun shown => ?_⟩
      rw [shows_encode_iff_of_lt hlength]
      constructor
      · rintro ⟨q, hq, rfl⟩
        rw [hq.unique hp]
      · rintro rfl
        exact ⟨p, hp, rfl⟩
    · refine ⟨Text.trimEnd s, rfl, fun shown => ?_⟩
      rw [shows_encode_iff_of_le (Nat.le_of_not_lt hlength)]
      constructor
      · exact fun h => h.unique (Text.trimmedEnd_trimEnd s)
      · rintro rfl
        exact Text.trimmedEnd_trimEnd s

example : excerpt 5 (Utf8.encode "éééé") = .ok "éé..." := by decide +kernel

end Log

end Telemetry
