/-!
# Words at the ends of a text

`after? word` is what follows a word at the beginning of a text, `before? word` what precedes one
at the end. Both are none of a text that does not begin or end with the word, and both take off
just the word (`after?_eq_some_iff`, `before?_eq_some_iff`).
-/

namespace TxForensics.Text

/-- What follows `word` at the beginning of a text. -/
def after? (word : String) (cs : List Char) : Option (List Char) :=
  if word.toList.isPrefixOf cs then some (cs.drop word.toList.length) else none

/-- What precedes `word` at the end of a text. -/
def before? (word : String) (cs : List Char) : Option (List Char) :=
  if word.toList.isSuffixOf cs then some (cs.take (cs.length - word.toList.length)) else none

theorem after?_eq_some_iff {word : String} {cs rest : List Char} :
    after? word cs = some rest ↔ cs = word.toList ++ rest := by
  constructor
  · intro h
    rw [after?] at h
    split at h
    · next hword =>
      obtain ⟨tail, rfl⟩ := List.isPrefixOf_iff_prefix.1 hword
      simp_all
    · exact absurd h (by simp)
  · rintro rfl
    rw [after?, if_pos (List.isPrefixOf_iff_prefix.2 (List.prefix_append _ _))]
    simp

theorem before?_eq_some_iff {word : String} {cs front : List Char} :
    before? word cs = some front ↔ cs = front ++ word.toList := by
  constructor
  · intro h
    rw [before?] at h
    split at h
    · next hword =>
      obtain ⟨head, rfl⟩ := List.isSuffixOf_iff_suffix.1 hword
      simp_all
    · exact absurd h (by simp)
  · rintro rfl
    rw [before?, if_pos (List.isSuffixOf_iff_suffix.2 (List.suffix_append _ _))]
    simp

end TxForensics.Text
