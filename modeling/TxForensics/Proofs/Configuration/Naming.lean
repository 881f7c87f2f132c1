import Mathlib
import TxForensics.Configuration.Layers
import TxForensics.Proofs.Text.Hex

/-!
# Variables of settings

A variable is named after a setting if its name is the mark and the key of the setting, with letters
of either case. Then its name leads to that key and to nothing below it; a name without the mark
leads to no key.
-/

namespace TxForensics.Configuration

def settingKeys : List String :=
  ["synthetic_lookback", "neighbor_tolerance", "function_context", "generic_revert_message"]

/-- Whether a variable is named after the setting `key`. -/
def NamedAfter (key name : String) : Prop := capitals name = variableMark ++ capitals key

instance (key name : String) : Decidable (NamedAfter key name) :=
  inferInstanceAs (Decidable (capitals name = variableMark ++ capitals key))

/-- Whether the name of a variable begins with the mark, in letters of either case. -/
def IsMarked (name : String) : Prop :=
  variableMark.toList <+: (Text.trim name.toList).map Char.toUpper

/-! ## Letters of either case -/

def IsKeyChar (c : Char) : Prop := c.isLower = true ∨ c = '_'

instance : DecidablePred IsKeyChar := fun c =>
  inferInstanceAs (Decidable (c.isLower = true ∨ c = '_'))

theorem IsKeyChar.isAscii {c : Char} (h : IsKeyChar c) : c.toNat < 128 := by
  rcases h with hlower | rfl
  · have hbounds : 97 ≤ c.val ∧ c.val ≤ 122 := by
      apply (Bool.and_eq_true_iff.mp hlower).imp <;> exact of_decide_eq_true
    have hle : c.val.toNat ≤ 122 := UInt32.le_iff_toNat_le.mp hbounds.2
    exact Nat.lt_of_le_of_lt hle (by decide)
  · decide

/-- Keys have no capitals. -/
theorem IsKeyChar.toLower_eq {c : Char} (h : IsKeyChar c) : c.toLower = c := by
  rcases h with hlower | rfl
  · exact Char.toLower_eq_of_not_isUpper (Char.not_isUpper_of_isLower hlower)
  · decide

theorem plain_ofNat : ∀ k < 128, IsKeyChar (Char.ofNat k).toLower →
    Text.isBlank (.ofNat k) = false ∧ Char.ofNat k ≠ '.' := by
  decide +kernel

/-- A letter of a key, in either case, is neither blank nor a point. -/
theorem plain_of_toLower {c : Char} (h : IsKeyChar c.toLower) :
    Text.isBlank c = false ∧ c ≠ '.' := by
  -- outside ASCII no letter becomes one of a key
  by_cases hascii : c.toNat < 128
  · exact Text.Utf8.forall_ascii
      (p := fun c => IsKeyChar c.toLower → Text.isBlank c = false ∧ c ≠ '.') plain_ofNat c hascii h
  · rw [Hex.toLower_of_not_ascii (Nat.le_of_not_lt hascii)] at h
    exact absurd h.isAscii hascii

theorem plain_of_map_toLower {cs ds : List Char} (hds : ∀ d ∈ ds, IsKeyChar d)
    (h : cs.map Char.toLower = ds) : ∀ c ∈ cs, Text.isBlank c = false ∧ c ≠ '.' := by
  intro c hc
  exact plain_of_toLower (hds _ (h ▸ List.mem_map_of_mem hc))

/-- Characters that make the same capitals as a key make the key in small letters. -/
theorem map_toLower_of_map_toUpper {cs ds : List Char} (hds : ∀ d ∈ ds, IsKeyChar d)
    (h : cs.map Char.toUpper = ds.map Char.toUpper) : cs.map Char.toLower = ds := by
  have hcs : (cs.map Char.toUpper).map Char.toLower = cs.map Char.toLower := by
    rw [List.map_map]
    exact List.map_congr_left fun c _ => Char.toLower_toUpper_eq_toLower c
  have hkey : (ds.map Char.toUpper).map Char.toLower = ds := by
    rw [List.map_map]
    refine (List.map_congr_left fun d hd => ?_).trans (List.map_id ds)
    exact (Char.toLower_toUpper_eq_toLower d).trans (hds d hd).toLower_eq
  rw [← hcs, h, hkey]

/-! ## Names -/

theorem isKeyChar_of_mem {key : String} (hkey : key ∈ settingKeys) :
    ∀ c ∈ key.toList, IsKeyChar c := by
  have hkeys : settingKeys.all (·.toList.all fun c => decide (IsKeyChar c)) = true := by decide
  exact List.all_iff_forall_prop.mp (List.all_eq_true.mp hkeys key hkey)

theorem ne_nil_of_mem {key : String} (hkey : key ∈ settingKeys) : key.toList ≠ [] := by
  rintro hnil
  obtain rfl : key = "" := String.toList_injective hnil
  revert hkey
  decide

/-- What the name has behind the mark is found, whatever the case of its letters. -/
theorem unmarked?_eq_some {mark rest : List Char}
    (h : mark.map Char.toUpper = variableMark.toList) : unmarked? (mark ++ rest) = some rest := by
  have hlength : mark.length = variableMark.length := by
    rw [← List.length_map Char.toUpper, h, String.length_toList]
  have htake : (mark ++ rest).take variableMark.length = mark := by
    rw [← hlength, List.take_left]
  have hdrop : (mark ++ rest).drop variableMark.length = rest := by
    rw [← hlength, List.drop_left]
  rw [unmarked?]
  simp only [htake, hdrop, if_pos h]

theorem unmarked?_eq_none {name : List Char}
    (h : ¬ variableMark.toList <+: name.map Char.toUpper) : unmarked? name = none := by
  have hmark : ¬ (name.take variableMark.length).map Char.toUpper = variableMark.toList := by
    intro heq
    rw [List.map_take] at heq
    exact h (heq ▸ List.take_prefix _ _)
  rw [unmarked?]
  simp only [if_neg hmark]

/-- A variable without the mark leads to no key. -/
theorem variablePath?_of_not_isMarked {name : String} (h : ¬ IsMarked name) :
    variablePath? name = none := by
  rw [variablePath?, unmarked?_eq_none h]
  rfl

/-- The name of a variable of a setting in its two parts. -/
theorem NamedAfter.exists_parts {key name : String} (hkey : key ∈ settingKeys)
    (h : NamedAfter key name) :
    ∃ mark rest, name.toList = mark ++ rest ∧ mark.map Char.toUpper = variableMark.toList ∧
      rest.map Char.toLower = key.toList := by
  have hcapitals := congrArg String.toList h
  rw [capitals, capitals, String.toList_append, String.toList_ofList, String.toList_ofList]
    at hcapitals
  obtain ⟨mark, rest, hname, hmark, hrest⟩ := List.map_eq_append_iff.mp hcapitals
  exact ⟨mark, rest, hname, hmark, map_toLower_of_map_toUpper (isKeyChar_of_mem hkey) hrest⟩

/-- **The variable of a setting leads to its key** and nowhere below it. -/
theorem variablePath?_of_namedAfter {key name : String} (hkey : key ∈ settingKeys)
    (h : NamedAfter key name) : variablePath? name = some [key.toList] := by
  obtain ⟨mark, rest, hname, hmark, hrest⟩ := h.exists_parts hkey
  have hmarkKey : mark.map Char.toLower = "postmortem_".toList :=
    map_toLower_of_map_toUpper (List.all_iff_forall_prop.mp (by decide)) hmark
  have hplainMark : ∀ c ∈ mark, Text.isBlank c = false ∧ c ≠ '.' :=
    plain_of_map_toLower (List.all_iff_forall_prop.mp (by decide)) hmarkKey
  have hplainRest : ∀ c ∈ rest, Text.isBlank c = false ∧ c ≠ '.' :=
    plain_of_map_toLower (isKeyChar_of_mem hkey) hrest
  have htrim : Text.trim name.toList = mark ++ rest := by
    rw [hname]
    apply Text.trim_eq_self
    intro c hc
    rcases List.mem_append.mp hc with hc | hc
    · exact (hplainMark c hc).1
    · exact (hplainRest c hc).1
  -- no letter of a key is a point, so the name is one key and no path
  have hpath : Text.splitOn '.' (Text.trim rest) = [rest] := by
    rw [Text.trim_eq_self fun c hc => (hplainRest c hc).1]
    exact Text.splitOn_of_not_mem fun hpoint => (hplainRest '.' hpoint).2 rfl
  have hfull : ([rest].all fun key => !key.isEmpty) = true := by
    cases rest with
    | nil => exact absurd hrest.symm (ne_nil_of_mem hkey)
    | cons c rest => rfl
  rw [variablePath?, htrim, unmarked?_eq_some hmark]
  show (do
    guard ((Text.splitOn '.' (Text.trim rest)).all fun key => !key.isEmpty)
    return (Text.splitOn '.' (Text.trim rest)).map (List.map Char.toLower) : Option _) = _
  rw [hpath, hfull, ← hrest]
  rfl

/-- A variable is named after one setting. -/
theorem NamedAfter.unique {key key' name : String} (hkey : key ∈ settingKeys)
    (hkey' : key' ∈ settingKeys) (h : NamedAfter key name) (h' : NamedAfter key' name) :
    key = key' := by
  have hpath := variablePath?_of_namedAfter hkey h
  rw [variablePath?_of_namedAfter hkey' h'] at hpath
  exact String.toList_injective (List.singleton_inj.mp (Option.some.inj hpath)).symm

/-- A variable of a setting has the mark, since its name leads to a key. -/
theorem NamedAfter.isMarked {key name : String} (hkey : key ∈ settingKeys)
    (h : NamedAfter key name) : IsMarked name := by
  have hpath := variablePath?_of_namedAfter hkey h
  apply Classical.byContradiction
  intro hmarked
  rw [variablePath?_of_not_isMarked hmarked] at hpath
  cases hpath

end TxForensics.Configuration
