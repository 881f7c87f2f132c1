import Mathlib.Data.List.Induction
import TxForensics.Proofs.Text.Hex

/-!
# The numerals of a number

A number has many unsigned numerals: the letters among its digits have either case, zeros stand in
front of the digits, and a plus sign in front of the zeros. The reader takes these for the number,
and nothing else for any number:

    unsigned?_eq_some_iff : unsigned? radix cs = some n ↔ Spells radix n cs

So what spells no number is what has not the form of a numeral (`exists_spells_iff`).
-/

namespace TxForensics.Text.Numeral

variable {radix n : Nat} {c : Char} {cs : List Char}

/-- Whether these are the digits of `n`, in either case, behind zeros. -/
def IsDigitsOf (radix n : Nat) (cs : List Char) : Prop :=
  ∃ zeros ds, cs = List.replicate zeros '0' ++ ds ∧ ds.map Char.toLower = Nat.toDigits radix n

def Spells (radix n : Nat) (cs : List Char) : Prop :=
  IsDigitsOf radix n cs ∨ ∃ ds, cs = '+' :: ds ∧ IsDigitsOf radix n ds

/-- Whether this has the form of a numeral: at least one digit, behind a plus sign or not. -/
def HasForm (isDigit : Char → Prop) (cs : List Char) : Prop :=
  ∃ ds, (cs = ds ∨ cs = '+' :: ds) ∧ ds ≠ [] ∧ ∀ c ∈ ds, isDigit c

/-! ## Digits of either case -/

/-- A digit of either case is one that becomes the digit written for its value. -/
theorem digit?_eq_some_iff {d : Nat} (hradix : radix ≤ 16) :
    digit? radix c = some d ↔ d < radix ∧ c.toLower = Nat.digitChar d := by
  have hhex : digit? 16 c = some d ↔ d < 16 ∧ c.toLower = Nat.digitChar d := Hex.digit?_eq_some_iff
  rw [digit?, Option.filter_eq_some_iff, decide_eq_true_eq] at hhex ⊢
  constructor
  · rintro ⟨hvalue, hd⟩
    exact ⟨hd, (hhex.mp ⟨hvalue, by omega⟩).2⟩
  · rintro ⟨hd, hc⟩
    exact ⟨(hhex.mpr ⟨by omega, hc⟩).1, hd⟩

/-- The decimal digits are the characters that have a value below ten. -/
theorem isDigit_iff : c.isDigit = true ↔ (digit? 10 c).isSome := by
  rw [Char.isDigit_iff_toNat, digit?, Option.isSome_filter, Option.any_eq_true]
  show 48 ≤ c.toNat ∧ c.toNat ≤ 57 ↔ _
  unfold digitValue?
  dsimp only
  split
  case isTrue h => exact iff_of_true h ⟨_, rfl, decide_eq_true (by omega)⟩
  case isFalse h =>
    refine iff_of_false h ?_
    rintro ⟨d, hd, hlt⟩
    rw [decide_eq_true_eq] at hlt
    split at hd
    · cases hd; omega
    · split at hd
      · cases hd; omega
      · cases hd

/-- A digit behind others is read last. -/
theorem valueFrom?_concat (value : Nat) (cs : List Char) (c : Char) :
    valueFrom? radix value (cs ++ [c]) =
      (valueFrom? radix value cs).bind fun value =>
        (digit? radix c).map (value * radix + ·) := by
  rw [valueFrom?_append]
  congr 1
  funext value
  rw [valueFrom?_cons]
  cases digit? radix c <;> rfl

/-! ## Digits without sign -/

/-- Digits of either case are read as the number that they were written for. -/
theorem value?_of_map_toLower (hlow : 1 < radix) (hhigh : radix ≤ 16)
    (h : cs.map Char.toLower = Nat.toDigits radix n) : value? radix cs = some n := by
  show valueFrom? radix 0 cs = some n
  -- the last digit is written and read last
  induction n using Nat.strongRecOn generalizing cs with
  | ind n ih =>
    by_cases hlt : n < radix
    · rw [Nat.toDigits_of_lt_base hlt] at h
      obtain ⟨c, rest, rfl, hc, hrest⟩ := List.map_eq_cons_iff.mp h
      obtain rfl := List.map_eq_nil_iff.mp hrest
      have hdigit : digit? radix c = some n := (digit?_eq_some_iff hhigh).mpr ⟨hlt, hc⟩
      rw [valueFrom?_cons, hdigit, Option.bind_some, Nat.zero_mul, Nat.zero_add]
      rfl
    · rw [Nat.toDigits_of_base_le hlow (Nat.le_of_not_lt hlt)] at h
      obtain ⟨front, last, rfl, hfront, hlast⟩ := List.map_eq_append_iff.mp h
      obtain ⟨c, rest, rfl, hc, hrest⟩ := List.map_eq_cons_iff.mp hlast
      obtain rfl := List.map_eq_nil_iff.mp hrest
      have hdigit : digit? radix c = some (n % radix) :=
        (digit?_eq_some_iff hhigh).mpr ⟨Nat.mod_lt n (by omega), hc⟩
      have hvalue : valueFrom? radix 0 front = some (n / radix) :=
        ih (n / radix) (Nat.div_lt_self (by omega) hlow) hfront
      rw [valueFrom?_concat, hvalue, Option.bind_some, hdigit, Option.map_some, Nat.div_add_mod']

theorem toLower_digitChar : ∀ d < 16, (Nat.digitChar d).toLower = Nat.digitChar d := by decide

/-- The digits that are written for a number are small letters. -/
theorem map_toLower_toDigits (hlow : 1 < radix) (hhigh : radix ≤ 16) (n : Nat) :
    (Nat.toDigits radix n).map Char.toLower = Nat.toDigits radix n := by
  induction n using Nat.strongRecOn with
  | ind n ih =>
    by_cases hlt : n < radix
    · rw [Nat.toDigits_of_lt_base hlt, List.map_singleton, toLower_digitChar n (by omega)]
    · have hmod : n % radix < radix := Nat.mod_lt n (by omega)
      rw [Nat.toDigits_of_base_le hlow (Nat.le_of_not_lt hlt), List.map_append,
        ih (n / radix) (Nat.div_lt_self (by omega) hlow), List.map_singleton,
        toLower_digitChar _ (by omega)]

/-- The digits that are written for a number are a numeral of it. -/
theorem spells_toDigits (hlow : 1 < radix) (hhigh : radix ≤ 16) (n : Nat) :
    Spells radix n (Nat.toDigits radix n) :=
  .inl ⟨0, Nat.toDigits radix n, rfl, map_toLower_toDigits hlow hhigh n⟩

/-- Only zero itself becomes zero in small letters. -/
theorem eq_zero_of_toLower (h : c.toLower = '0') : c = '0' := by
  unfold Char.toLower at h
  split at h
  case isTrue hupper =>
    have hvalue : c.val + ('a'.val - 'A'.val) = '0'.val := congrArg Char.val h
    have hlow : 65 ≤ c.val.toNat := UInt32.le_iff_toNat_le.mp hupper.1
    have hhigh : c.val.toNat ≤ 90 := UInt32.le_iff_toNat_le.mp hupper.2
    have hsum : (c.val + 32).toNat = 48 := congrArg UInt32.toNat hvalue
    rw [UInt32.toNat_add] at hsum
    have hshift : (32 : UInt32).toNat = 32 := rfl
    omega
  case isFalse => exact h

/-- A digit behind digits makes the number greater by one place, and zeros stay zeros. -/
theorem IsDigitsOf.concat {d : Nat} (hlow : 1 < radix) (h : IsDigitsOf radix n cs) (hd : d < radix)
    (hc : c.toLower = Nat.digitChar d) : IsDigitsOf radix (n * radix + d) (cs ++ [c]) := by
  obtain ⟨zeros, ds, rfl, hds⟩ := h
  by_cases hn : n = 0
  · subst hn
    rw [Nat.toDigits_of_lt_base (by omega)] at hds
    obtain ⟨z, rest, rfl, hz, hrest⟩ := List.map_eq_cons_iff.mp hds
    obtain rfl := List.map_eq_nil_iff.mp hrest
    obtain rfl := eq_zero_of_toLower hz
    refine ⟨zeros + 1, [c], by rw [List.replicate_succ'], ?_⟩
    rw [Nat.zero_mul, Nat.zero_add, Nat.toDigits_of_lt_base hd, ← hc]
    rfl
  · refine ⟨zeros, ds ++ [c], List.append_assoc .., ?_⟩
    rw [List.map_append, hds, Nat.mul_comm,
      ← Nat.toDigits_append_toDigits hlow (Nat.pos_of_ne_zero hn) hd, Nat.toDigits_of_lt_base hd,
      ← hc]
    rfl

/-- What is read as a number are its digits. -/
theorem isDigitsOf_of_value? (hlow : 1 < radix) (hhigh : radix ≤ 16) (hne : cs ≠ [])
    (h : value? radix cs = some n) : IsDigitsOf radix n cs := by
  induction cs using List.reverseRecOn generalizing n with
  | nil => exact absurd rfl hne
  | append_singleton front c ih =>
    have hvalue : valueFrom? radix 0 (front ++ [c]) = some n := h
    rw [valueFrom?_concat] at hvalue
    obtain ⟨m, hfront, hlast⟩ := Option.bind_eq_some_iff.mp hvalue
    obtain ⟨d, hdigit, rfl⟩ := Option.map_eq_some_iff.mp hlast
    obtain ⟨hd, hc⟩ := (digit?_eq_some_iff hhigh).mp hdigit
    -- a first digit is the number itself; the others go on with the number in front of them
    by_cases hfirst : front = []
    · subst hfirst
      obtain rfl : 0 = m := Option.some.inj hfront
      refine ⟨0, [c], rfl, ?_⟩
      rw [Nat.zero_mul, Nat.zero_add, Nat.toDigits_of_lt_base hd, ← hc]
      rfl
    · exact (ih hfirst hfront).concat hlow hd hc

theorem IsDigitsOf.ne_nil (h : IsDigitsOf radix n cs) : cs ≠ [] := by
  obtain ⟨zeros, ds, rfl, hds⟩ := h
  intro hnil
  obtain rfl : ds = [] := (List.append_eq_nil_iff.mp hnil).2
  exact Nat.toDigits_ne_nil hds.symm

/-- The digits of a number are the texts that have it as their value. -/
theorem isDigitsOf_iff (hlow : 1 < radix) (hhigh : radix ≤ 16) :
    IsDigitsOf radix n cs ↔ cs ≠ [] ∧ value? radix cs = some n := by
  constructor
  · intro h
    refine ⟨h.ne_nil, ?_⟩
    obtain ⟨zeros, ds, rfl, hds⟩ := h
    rw [value?_replicate_append (by omega), value?_of_map_toLower hlow hhigh hds]
  · rintro ⟨hne, h⟩
    exact isDigitsOf_of_value? hlow hhigh hne h

/-! ## Unsigned numerals -/

/-- Digits are digits. -/
theorem IsDigitsOf.isSome_digit? (hlow : 1 < radix) (hhigh : radix ≤ 16)
    (h : IsDigitsOf radix n cs) : ∀ c ∈ cs, (digit? radix c).isSome := by
  rw [← @isSome_valueFrom?_iff radix 0 cs]
  exact Option.isSome_iff_exists.mpr ⟨n, ((isDigitsOf_iff hlow hhigh).mp h).2⟩

/-- A plus sign is no digit. -/
theorem not_isDigitsOf_plus (hlow : 1 < radix) (hhigh : radix ≤ 16) (ds : List Char) :
    ¬ IsDigitsOf radix n ('+' :: ds) := by
  intro h
  have hplus := h.isSome_digit? hlow hhigh '+' List.mem_cons_self
  rw [digit?, show digitValue? '+' = none from rfl] at hplus
  cases hplus

theorem unsigned?_plus (ds : List Char) :
    unsigned? radix ('+' :: ds) = if ds = [] then none else value? radix ds := by
  rw [unsigned?, List.head?_cons, if_pos rfl, List.tail_cons]

theorem unsigned?_of_head? (h : cs.head? ≠ some '+') :
    unsigned? radix cs = if cs = [] then none else value? radix cs := by
  rw [unsigned?, if_neg h]

/-- **The numerals of a number** are what is read as that number. -/
theorem unsigned?_eq_some_iff (hlow : 1 < radix) (hhigh : radix ≤ 16) :
    unsigned? radix cs = some n ↔ Spells radix n cs := by
  have hread {ds : List Char} :
      (if ds = [] then none else value? radix ds) = some n ↔ IsDigitsOf radix n ds := by
    rw [isDigitsOf_iff hlow hhigh]
    split <;> simp_all
  -- a plus sign is taken off once, and none of what is left is a digit
  by_cases hplus : cs.head? = some '+'
  · obtain ⟨ds, rfl⟩ := List.head?_eq_some_iff.mp hplus
    rw [unsigned?_plus, hread]
    constructor
    · intro h
      exact .inr ⟨ds, rfl, h⟩
    · rintro (h | ⟨ds', heq, h⟩)
      · exact absurd h (not_isDigitsOf_plus hlow hhigh ds)
      · exact (List.cons.inj heq).2 ▸ h
  · rw [unsigned?_of_head? hplus, hread]
    constructor
    · exact .inl
    · rintro (h | ⟨ds, rfl, -⟩)
      · exact h
      · exact absurd rfl hplus

/-- A numeral is one of one number. -/
theorem Spells.unique {m : Nat} (hlow : 1 < radix) (hhigh : radix ≤ 16) (hm : Spells radix m cs)
    (hn : Spells radix n cs) : m = n := by
  rw [← unsigned?_eq_some_iff hlow hhigh] at hm hn
  exact Option.some.inj (hm.symm.trans hn)

/-- A text spells a number just when it has the form of a numeral. -/
theorem exists_spells_iff (hlow : 1 < radix) (hhigh : radix ≤ 16) {isDigit : Char → Prop}
    (hdigit : ∀ c, isDigit c ↔ (digit? radix c).isSome) :
    (∃ n, Spells radix n cs) ↔ HasForm isDigit cs := by
  have hdigits (ds : List Char) :
      (∃ n, IsDigitsOf radix n ds) ↔ ds ≠ [] ∧ ∀ c ∈ ds, isDigit c := by
    simp only [isDigitsOf_iff hlow hhigh, exists_and_left, hdigit]
    rw [← @isSome_valueFrom?_iff radix 0 ds, Option.isSome_iff_exists]
    rfl
  constructor
  · rintro ⟨n, h | ⟨ds, rfl, h⟩⟩
    · exact ⟨cs, .inl rfl, (hdigits cs).mp ⟨n, h⟩⟩
    · exact ⟨ds, .inr rfl, (hdigits ds).mp ⟨n, h⟩⟩
  · rintro ⟨ds, rfl | rfl, h⟩
    · obtain ⟨n, hn⟩ := (hdigits cs).mpr h
      exact ⟨n, .inl hn⟩
    · obtain ⟨n, hn⟩ := (hdigits ds).mpr h
      exact ⟨n, .inr ⟨ds, rfl, hn⟩⟩

end TxForensics.Text.Numeral
