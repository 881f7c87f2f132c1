/-!
# Splitting a text at a separator

`splitOn sep` cuts a text at every occurrence of a separator character. There is always one field
more than there are separators (`length_splitOn`), no field holds the separator
(`not_mem_of_mem_splitOn`), and joining the fields gives the text back (`joinWith_splitOn`). Fields
without separators that are joined come apart again (`splitOn_joinWith`).
-/

namespace TxForensics.Text

/-- The fields of a text between the occurrences of `sep`; an empty text is one empty field. -/
def splitOn (sep : Char) : List Char → List (List Char)
  | [] => [[]]
  | c :: cs =>
    if c = sep then [] :: splitOn sep cs
    else match splitOn sep cs with
      | [] => [[c]]
      | field :: fields => (c :: field) :: fields

/-- The fields one after the other, with `sep` between neighbours. -/
def joinWith (sep : Char) : List (List Char) → List Char
  | [] => []
  | [field] => field
  | field :: fields => field ++ sep :: joinWith sep fields

theorem splitOn_ne_nil (sep : Char) (cs : List Char) : splitOn sep cs ≠ [] := by
  cases cs with
  | nil => simp [splitOn]
  | cons c cs =>
    rw [splitOn]
    split
    · simp
    · split <;> simp

theorem splitOn_cons_of_ne {sep c : Char} (h : c ≠ sep) (cs : List Char) :
    ∃ field fields, splitOn sep cs = field :: fields ∧
      splitOn sep (c :: cs) = (c :: field) :: fields := by
  obtain ⟨field, fields, hf⟩ := List.exists_cons_of_ne_nil (splitOn_ne_nil sep cs)
  exact ⟨field, fields, hf, by simp [splitOn, h, hf]⟩

/-- There is one field more than there are separators. -/
theorem length_splitOn (sep : Char) (cs : List Char) :
    (splitOn sep cs).length = cs.count sep + 1 := by
  induction cs with
  | nil => rfl
  | cons c cs ih =>
    by_cases h : c = sep
    · simp [splitOn, h, ih]
    · obtain ⟨field, fields, hf, hc⟩ := splitOn_cons_of_ne h cs
      rw [hf] at ih
      simp only [hc, List.length_cons] at ih ⊢
      rw [ih, List.count_cons_of_ne h]

/-- No field holds the separator. -/
theorem not_mem_of_mem_splitOn {sep : Char} {cs field : List Char}
    (h : field ∈ splitOn sep cs) : sep ∉ field := by
  induction cs generalizing field with
  | nil => simp [splitOn] at h; simp [h]
  | cons c cs ih =>
    by_cases hc : c = sep
    · simp only [splitOn, hc, if_true, List.mem_cons] at h
      rcases h with rfl | h
      · simp
      · exact ih h
    · obtain ⟨f, fs, hf, hs⟩ := splitOn_cons_of_ne hc cs
      rw [hs, List.mem_cons] at h
      rcases h with rfl | h
      · have : sep ∉ f := ih (by simp [hf])
        simp [this, Ne.symm hc]
      · exact ih (by simp [hf, h])

/-- What is in a field is in the text. -/
theorem mem_of_mem_splitOn {sep c : Char} {cs field : List Char} (h : field ∈ splitOn sep cs)
    (hc : c ∈ field) : c ∈ cs := by
  induction cs generalizing field with
  | nil =>
    rw [List.mem_singleton.mp h] at hc
    cases hc
  | cons d cs ih =>
    by_cases hd : d = sep
    · rw [splitOn, if_pos hd, List.mem_cons] at h
      rcases h with rfl | h
      · cases hc
      · exact List.mem_cons_of_mem d (ih h hc)
    · obtain ⟨f, fs, hf, hs⟩ := splitOn_cons_of_ne hd cs
      rw [hs, List.mem_cons] at h
      rcases h with rfl | h
      · rcases List.mem_cons.mp hc with rfl | hc
        · exact List.mem_cons_self
        · exact List.mem_cons_of_mem d (ih (by simp [hf]) hc)
      · exact List.mem_cons_of_mem d (ih (by simp [hf, h]) hc)

/-- Joining the fields of a text gives the text back. -/
theorem joinWith_splitOn (sep : Char) (cs : List Char) : joinWith sep (splitOn sep cs) = cs := by
  induction cs with
  | nil => rfl
  | cons c cs ih =>
    by_cases h : c = sep
    · obtain ⟨field, fields, hf⟩ := List.exists_cons_of_ne_nil (splitOn_ne_nil sep cs)
      rw [splitOn, if_pos h, hf, joinWith, ← hf, ih]
      · simp [h]
      · simp
    · obtain ⟨field, fields, hf, hs⟩ := splitOn_cons_of_ne h cs
      rw [hf] at ih
      rw [hs]
      cases fields with
      | nil => simpa [joinWith] using ih
      | cons f fs => simpa [joinWith] using ih

theorem mem_joinWith {sep c : Char} {fields : List (List Char)} (h : c ∈ joinWith sep fields) :
    c = sep ∨ ∃ field ∈ fields, c ∈ field := by
  induction fields with
  | nil => cases h
  | cons field fields ih =>
    cases fields with
    | nil => exact .inr ⟨field, List.mem_cons_self, h⟩
    | cons next fields =>
      rw [joinWith, List.mem_append, List.mem_cons] at h
      · rcases h with h | h | h
        · exact .inr ⟨field, List.mem_cons_self, h⟩
        · exact .inl h
        · rcases ih h with hc | ⟨f, hf, hc⟩
          · exact .inl hc
          · exact .inr ⟨f, List.mem_cons_of_mem field hf, hc⟩
      · exact List.cons_ne_nil next fields

theorem joinWith_ne_nil {sep : Char} {field : List Char} (h : field ≠ [])
    (fields : List (List Char)) : joinWith sep (field :: fields) ≠ [] := by
  cases fields with
  | nil => exact h
  | cons next fields => exact List.append_ne_nil_of_left_ne_nil h _

theorem splitOn_of_not_mem {sep : Char} {field : List Char} (h : sep ∉ field) :
    splitOn sep field = [field] := by
  induction field with
  | nil => rfl
  | cons c cs ih =>
    rw [List.mem_cons, not_or] at h
    rw [splitOn, if_neg (Ne.symm h.1), ih h.2]

/-- The first separator ends the first field. -/
theorem splitOn_append {sep : Char} {field : List Char} (h : sep ∉ field) (rest : List Char) :
    splitOn sep (field ++ sep :: rest) = field :: splitOn sep rest := by
  induction field with
  | nil => rw [List.nil_append, splitOn, if_pos rfl]
  | cons c cs ih =>
    rw [List.mem_cons, not_or] at h
    rw [List.cons_append, splitOn, if_neg (Ne.symm h.1), ih h.2]

/-- Splitting takes joined fields apart again. -/
theorem splitOn_joinWith {sep : Char} {fields : List (List Char)} (hne : fields ≠ [])
    (h : ∀ field ∈ fields, sep ∉ field) : splitOn sep (joinWith sep fields) = fields := by
  induction fields with
  | nil => exact absurd rfl hne
  | cons field fields ih =>
    have hfield : sep ∉ field := h field List.mem_cons_self
    cases fields with
    | nil => exact splitOn_of_not_mem hfield
    | cons next fields =>
      have hrest : splitOn sep (joinWith sep (next :: fields)) = next :: fields := by
        apply ih (List.cons_ne_nil next fields)
        intro f hf
        exact h f (List.mem_cons_of_mem field hf)
      rw [joinWith, splitOn_append hfield, hrest]
      exact List.cons_ne_nil next fields

/-- No fields are joined to what reads as one empty field. -/
theorem getD_splitOn_joinWith {sep : Char} {fields : List (List Char)}
    (h : ∀ field ∈ fields, sep ∉ field) (i : Nat) :
    (splitOn sep (joinWith sep fields)).getD i [] = fields.getD i [] := by
  cases fields with
  | nil => cases i <;> rfl
  | cons field fields => rw [splitOn_joinWith (List.cons_ne_nil field fields) h]

end TxForensics.Text
