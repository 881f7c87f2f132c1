import TxForensics.Text.Blank
import TxForensics.Text.Numeral

/-!
# What unsigned numerals denote

`readBelow` stops at the first digit that takes the number past its bound. The number grows with
every digit, so nothing is lost by reading all digits first and comparing once:

    readBelow_eq_ok_iff : readBelow radix bound cs = .ok n ↔ unsigned? radix cs = some n ∧ n < bound

Decimal numerals are read back as the number they were written for (`unsigned?_toDigits`), however
large it is.
-/

namespace TxForensics.Text.Numeral

/-- The number that an unsigned numeral denotes, however large: at least one digit, behind a plus
sign or not. -/
def unsigned? (radix : Nat) (cs : List Char) : Option Nat :=
  let digits := if cs.head? = some '+' then cs.tail else cs
  if digits = [] then none else value? radix digits

/-- The number that `cs` continues `value` to. -/
def valueFrom? (radix value : Nat) (cs : List Char) : Option Nat :=
  cs.foldlM (fun value c => (digit? radix c).map (value * radix + ·)) value

theorem valueFrom?_cons (radix value : Nat) (c : Char) (cs : List Char) :
    valueFrom? radix value (c :: cs) =
      (digit? radix c).bind fun d => valueFrom? radix (value * radix + d) cs := by
  rw [valueFrom?, List.foldlM_cons]
  cases digit? radix c <;> rfl

/-- A digit has a value below the radix. -/
theorem digit?_lt {radix d : Nat} {c : Char} (h : digit? radix c = some d) : d < radix := by
  simpa using (Option.filter_eq_some_iff.mp h).2

/-- Digits never make a number smaller. -/
theorem le_of_valueFrom? {radix value n : Nat} {cs : List Char}
    (h : valueFrom? radix value cs = some n) : value ≤ n := by
  induction cs generalizing value with
  | nil =>
    cases h
    exact Nat.le_refl _
  | cons c cs ih =>
    rw [valueFrom?_cons] at h
    obtain ⟨d, hd, hrest⟩ := Option.bind_eq_some_iff.mp h
    have hradix : 1 ≤ radix := Nat.lt_of_le_of_lt (Nat.zero_le d) (digit?_lt hd)
    calc value = value * 1 := (Nat.mul_one value).symm
      _ ≤ value * radix := Nat.mul_le_mul_left value hradix
      _ ≤ value * radix + d := Nat.le_add_right _ _
      _ ≤ n := ih hrest

/-- All characters have to be digits, and then there is a number. -/
theorem isSome_valueFrom?_iff {radix value : Nat} {cs : List Char} :
    (valueFrom? radix value cs).isSome ↔ ∀ c ∈ cs, (digit? radix c).isSome := by
  induction cs generalizing value with
  | nil => simp [valueFrom?]
  | cons c cs ih =>
    rw [valueFrom?_cons, List.forall_mem_cons]
    cases digit? radix c with
    | none => simp
    | some d =>
      rw [Option.bind_some, ih]
      exact (and_iff_right rfl).symm

/-- Zeros in front change nothing. -/
theorem value?_replicate_append {radix : Nat} (hradix : 0 < radix) (count : Nat) (cs : List Char) :
    value? radix (List.replicate count '0' ++ cs) = value? radix cs := by
  have hzero : digit? radix '0' = some 0 := by
    rw [digit?, show digitValue? '0' = some 0 from rfl, Option.filter_some,
      if_pos (decide_eq_true hradix)]
  show valueFrom? radix 0 (List.replicate count '0' ++ cs) = valueFrom? radix 0 cs
  induction count with
  | zero => rfl
  | succ count ih =>
    rw [List.replicate_succ, List.cons_append, valueFrom?_cons, hzero, Option.bind_some,
      Nat.zero_mul, Nat.add_zero, ih]

/-- Comparing after every digit accepts the same numbers as comparing at the end. -/
theorem readDigits_eq_ok_iff {radix bound value n : Nat} {cs : List Char} (hv : value < bound) :
    readDigits radix bound value cs = .ok n ↔
      valueFrom? radix value cs = some n ∧ n < bound := by
  -- over the digits; a number that has passed the bound stays above it
  induction cs generalizing value with
  | nil =>
    rw [readDigits, Except.ok.injEq]
    constructor
    · rintro rfl
      exact ⟨rfl, hv⟩
    · rintro ⟨h, -⟩
      exact Option.some.inj h
  | cons c cs ih =>
    rw [readDigits, valueFrom?_cons]
    cases hd : digit? radix c with
    | none => simp
    | some d =>
      rw [Option.bind_some]
      by_cases hlt : value * radix + d < bound
      · simp only [if_pos hlt]
        exact ih hlt
      · simp only [if_neg hlt]
        constructor
        · intro h
          cases h
        · rintro ⟨h, hn⟩
          have hle := le_of_valueFrom? h
          omega

/-- A numeral is read exactly when it denotes a number below the bound, and as that number. -/
theorem readBelow_eq_ok_iff {radix bound n : Nat} {cs : List Char} (hb : 0 < bound) :
    readBelow radix bound cs = .ok n ↔ unsigned? radix cs = some n ∧ n < bound := by
  cases cs with
  | nil => simp [readBelow, unsigned?]
  | cons c cs =>
    by_cases hplus : c = '+'
    · subst hplus
      cases cs with
      | nil => simp [readBelow, unsigned?]
      | cons d ds =>
        rw [readBelow, readDigits_eq_ok_iff hb]
        · simp [unsigned?, value?, valueFrom?]
        · simp
    · rw [readBelow, readDigits_eq_ok_iff hb]
      · simp [unsigned?, hplus, value?, valueFrom?]
      · simp
      · simp [hplus]
      · simp [hplus]

/-! ## Numerals that were written -/

/-- Digits are read in two parts, the second from what the first part has made. -/
theorem valueFrom?_append (radix value : Nat) (cs ds : List Char) :
    valueFrom? radix value (cs ++ ds) =
      (valueFrom? radix value cs).bind fun value => valueFrom? radix value ds :=
  List.foldlM_append

theorem digitValue?_digitChar : ∀ d < 16, digitValue? (Nat.digitChar d) = some d := by decide

theorem valueFrom?_digitChar {radix d : Nat} (hradix : radix ≤ 16) (hd : d < radix) (value : Nat) :
    valueFrom? radix value [Nat.digitChar d] = some (value * radix + d) := by
  rw [valueFrom?_cons, digit?, digitValue?_digitChar d (by omega), Option.filter_some,
    if_pos (decide_eq_true hd)]
  rfl

/-- Digits up to `f` are read as the number that they were written for. -/
theorem value?_toDigits_of_le {radix : Nat} (hlow : 1 < radix) (hhigh : radix ≤ 16) (n : Nat) :
    value? radix (Nat.toDigits radix n) = some n := by
  show valueFrom? radix 0 (Nat.toDigits radix n) = some n
  -- the last digit is written and read last
  induction n using Nat.strongRecOn with
  | ind n ih =>
    by_cases hlt : n < radix
    · rw [Nat.toDigits_of_lt_base hlt, valueFrom?_digitChar hhigh hlt, Nat.zero_mul, Nat.zero_add]
    · have hmod : n % radix < radix := Nat.mod_lt n (by omega)
      rw [Nat.toDigits_of_base_le hlow (Nat.le_of_not_lt hlt), valueFrom?_append,
        ih (n / radix) (Nat.div_lt_self (by omega) hlow), Option.bind_some,
        valueFrom?_digitChar hhigh hmod, Nat.div_add_mod']

/-- Zeros in front of a numeral do not count. -/
theorem value?_padded {radix : Nat} (hlow : 1 < radix) (hhigh : radix ≤ 16) (width n : Nat) :
    value? radix (padded radix width n) = some n := by
  unfold padded
  rw [value?_replicate_append (by omega), value?_toDigits_of_le hlow hhigh]

/-- Different numbers have different hexadecimal numerals of one width. -/
theorem hex_inj {width m n : Nat} : hex width m = hex width n ↔ m = n := by
  constructor
  · intro h
    have hdigits : padded 16 width m = padded 16 width n :=
      (List.cons.inj (List.cons.inj (String.ofList_injective h)).2).2
    have hm : value? 16 (padded 16 width m) = some m := value?_padded (by decide) (by decide) _ _
    rw [hdigits, value?_padded (by decide) (by decide)] at hm
    exact (Option.some.inj hm).symm
  · rintro rfl
    rfl

/-! ## Decimal numerals -/

theorem isBlank_of_isDigit {c : Char} (h : c.isDigit = true) : isBlank c = false := by
  rw [Char.isDigit, Bool.and_eq_true, decide_eq_true_eq, decide_eq_true_eq] at h
  have hlow : 48 ≤ c.toNat := UInt32.le_iff_toNat_le.mp h.1
  have hhigh : c.toNat ≤ 57 := UInt32.le_iff_toNat_le.mp h.2
  simp only [isBlank, Bool.or_eq_false_iff, Bool.and_eq_false_iff, decide_eq_false_iff_not,
    beq_eq_false_iff_ne]
  omega

/-- All digits of a decimal numeral are read as the number that it was written for. -/
theorem value?_toDigits (n : Nat) : value? 10 (Nat.toDigits 10 n) = some n :=
  value?_toDigits_of_le (by decide) (by decide) n

/-- A decimal numeral denotes the number that it was written for. -/
theorem unsigned?_toDigits (n : Nat) : unsigned? 10 (Nat.toDigits 10 n) = some n := by
  have hplus : (Nat.toDigits 10 n).head? ≠ some '+' := by
    intro h
    exact absurd (Nat.isDigit_of_mem_toDigits (by decide) (by decide) (List.mem_of_head? h))
      (by decide)
  rw [unsigned?, if_neg hplus, if_neg Nat.toDigits_ne_nil, value?_toDigits]

/-- Only zero is written with a zero in front. -/
theorem head?_toDigits_ne {n : Nat} (hn : 0 < n) : (Nat.toDigits 10 n).head? ≠ some '0' := by
  induction n using Nat.strongRecOn with
  | ind n ih =>
    by_cases hlt : n < 10
    · have hdigit : ∀ d < 10, 0 < d → Nat.digitChar d ≠ '0' := by decide
      rw [Nat.toDigits_of_lt_base hlt]
      simpa using hdigit n hlt hn
    · -- the first digit is that of the number without its last one
      rw [Nat.toDigits_of_base_le (by decide) (Nat.le_of_not_lt hlt), List.head?_append,
        Option.or_of_isSome (List.isSome_head?.2 Nat.toDigits_ne_nil)]
      exact ih (n / 10) (by omega) (by omega)

/-- Different numbers have different decimal numerals. -/
theorem decimal_inj {m n : Nat} : decimal m = decimal n ↔ m = n := by
  constructor
  · intro h
    have hdigits := String.ofList_injective h
    rw [← Nat.ofDigitChars_ten_toDigits (n := m), hdigits, Nat.ofDigitChars_ten_toDigits]
  · rintro rfl
    rfl

end TxForensics.Text.Numeral
