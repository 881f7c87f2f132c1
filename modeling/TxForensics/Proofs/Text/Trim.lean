import Mathlib.Data.List.TakeWhile
import TxForensics.Text.Blank

/-!
# What trimming leaves

A trimmed text is the part of a text between its first and its last character that are not blank:
nothing if all are blank (`trim_eq_nil_iff`), and else the same part whatever blank characters stand
around it (`trim_append`). So trimming twice is trimming once (`trim_trim`).
-/

namespace TxForensics.Text

variable {cs front back : List Char} {c : Char}

/-- Nothing is left of a text exactly when all its characters are blank. -/
theorem trim_eq_nil_iff : trim cs = [] ↔ ∀ c ∈ cs, isBlank c = true := by
  rw [trim, trimEnd, List.reverse_eq_nil_iff, List.dropWhile_eq_nil_iff]
  constructor
  · intro h
    cases hstart : trimStart cs with
    | nil => exact List.dropWhile_eq_nil_iff.mp hstart
    | cons c rest =>
      -- the character at which trimming has stopped would be blank
      have hblank : isBlank c = true := h c (by simp [hstart])
      have hfirst := List.head?_dropWhile_not isBlank cs
      rw [← trimStart, hstart, List.head?_cons] at hfirst
      rw [hfirst] at hblank
      cases hblank
  · intro h
    have hstart : trimStart cs = [] := List.dropWhile_eq_nil_iff.mpr h
    rw [hstart]
    intro c hc
    cases hc

theorem trimEnd_isPrefix (cs : List Char) : trimEnd cs <+: cs := by
  have h : trimEnd cs <+: cs.reverse.reverse :=
    List.reverse_prefix.mpr (List.dropWhile_suffix isBlank)
  rwa [List.reverse_reverse] at h

theorem not_isBlank_of_head?_trim (h : (trim cs).head? = some c) : isBlank c = false := by
  -- what is trimmed at the end has the first character of what was trimmed at the beginning
  obtain ⟨rest, hrest⟩ := trimEnd_isPrefix (trimStart cs)
  have hhead : (trimStart cs).head? = some c := by
    rw [← hrest, List.head?_append, ← trim, h, Option.some_or]
  have hfirst := List.head?_dropWhile_not isBlank cs
  rw [← trimStart, hhead] at hfirst
  exact hfirst

theorem not_isBlank_of_getLast?_trim (h : (trim cs).getLast? = some c) : isBlank c = false := by
  rw [trim, trimEnd, List.getLast?_reverse] at h
  have hlast := List.head?_dropWhile_not isBlank (trimStart cs).reverse
  rw [h] at hlast
  exact hlast

/-- Trimming a trimmed text changes nothing. -/
theorem trim_trim (cs : List Char) : trim (trim cs) = trim cs :=
  trim_eq_self_of_ends (fun _ => not_isBlank_of_head?_trim)
    (fun _ => not_isBlank_of_getLast?_trim)

theorem trimEnd_append (hback : ∀ c ∈ back, isBlank c = true) :
    trimEnd (cs ++ back) = trimEnd cs := by
  have hreverse : ∀ c ∈ back.reverse, isBlank c = true := by simpa using hback
  rw [trimEnd, List.reverse_append, List.dropWhile_append_of_pos hreverse, trimEnd]

/-- Blank characters at the ends of a text do not count. -/
theorem trim_append (hfront : ∀ c ∈ front, isBlank c = true)
    (hback : ∀ c ∈ back, isBlank c = true) : trim (front ++ (cs ++ back)) = trim cs := by
  have hstart : trimStart (front ++ (cs ++ back)) = trimStart (cs ++ back) :=
    List.dropWhile_append_of_pos hfront
  by_cases hcs : ∀ c ∈ cs, isBlank c = true
  · -- nothing is left of either text
    have hall : ∀ c ∈ front ++ (cs ++ back), isBlank c = true := by
      simp only [List.mem_append]
      rintro c (hc | hc | hc)
      · exact hfront c hc
      · exact hcs c hc
      · exact hback c hc
    rw [trim_eq_nil_iff.mpr hall, trim_eq_nil_iff.mpr hcs]
  · have hne : (cs.dropWhile isBlank).isEmpty = false := by
      rw [List.isEmpty_eq_false_iff]
      exact fun h => hcs (List.dropWhile_eq_nil_iff.mp h)
    have hrest : trimStart (cs ++ back) = trimStart cs ++ back := by
      rw [trimStart, List.dropWhile_append, hne]
      rfl
    rw [trim, hstart, hrest, trimEnd_append hback, trim]

end TxForensics.Text
