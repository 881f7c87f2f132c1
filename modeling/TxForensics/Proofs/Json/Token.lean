import Mathlib.Data.List.TakeDrop
import TxForensics.Json.Token
import TxForensics.Proofs.Text.Numeral

/-!
# The tokens of a printed tree

A printed tree is cut into the tokens that its structure has, and what follows it is cut as if it
stood alone:

    tokenize_printOnto : tokenize (printOnto tail j) = tokens j ++ tokenize tail

This needs that no number of the tree goes on into `tail` (`EndsNumber`), and that the tree is
`Lossless`: its numbers are integers that keep their kind.
-/

namespace TxForensics

namespace JsonToken

/-! ## Texts

Between two characters of a printed text no surrogate pair is open and no escape has failed, so
what has been read is its content alone. -/

/-- A control character is escaped by its code in four hexadecimal digits, and they are read as
that code. -/
theorem unit?_control : ∀ n < 0x20,
    Text.Numeral.padded 16 4 n = ['0', '0', (n / 16).digitChar, (n % 16).digitChar] ∧
      unit? '0' '0' (n / 16).digitChar (n % 16).digitChar = some n := by
  decide

/-- The form of a character inside a text is read as that character. -/
theorem readText_escape (content : List Char) (c : Char) (cs : List Char) :
    readText { content } (Json.escape c ++ cs) = readText { content := c :: content } cs := by
  have hcode {n : Nat} (h : c.toNat = n) : c = .ofNat n := by rw [← h, Char.ofNat_toNat]
  unfold Json.escape
  -- the forms of a character in the order in which the printer looks for them
  split
  · next h => rw [h]; rfl
  split
  · next h => rw [h]; rfl
  split
  · next h => rw [h]; rfl
  split
  · next h => rw [h]; rfl
  split
  · next h => rw [h]; rfl
  split
  · next h => rw [hcode h]; rfl
  split
  · next h => rw [hcode h]; rfl
  next hquote hbackslash _ _ _ _ _ =>
  split
  · next hlt =>
    obtain ⟨hdigits, hunit⟩ := unit?_control c.toNat hlt
    have hpush : ({ content } : PartialText).pushUnit c.toNat = { content := c :: content } := by
      rw [PartialText.pushUnit, if_neg (by omega), if_neg (by omega), Char.ofNat_toNat]
      rfl
    simp only [hdigits, List.cons_append, List.nil_append]
    rw [readText, hunit]
    show readText (PartialText.pushUnit { content } c.toNat) cs = _
    rw [hpush]
  · next hge =>
    rw [List.singleton_append, readText, if_neg hge]
    · rfl
    · exact hquote
    · exact fun _ _ _ _ _ h => absurd h hbackslash
    · exact fun _ h => absurd h hbackslash
    · exact fun _ _ h => absurd h hbackslash
    · exact fun h => absurd h hbackslash

/-- A printed text is read to its end as the text that was printed. -/
theorem readText_flatMap_escape (content s tail : List Char) :
    readText { content } (s.flatMap Json.escape ++ '"' :: tail) =
      (.text (some (.ofList (content.reverse ++ s))), tail) := by
  induction s generalizing content with
  | nil =>
    rw [List.append_nil]
    rfl
  | cons c s ih =>
    rw [List.flatMap_cons, List.append_assoc, readText_escape, ih, List.reverse_cons,
      List.append_assoc, List.singleton_append]

/-! ## Numbers -/

/-- Whether a number in front of this text ends there. -/
def EndsNumber (tail : List Char) : Prop :=
  ∀ c ∈ tail.head?, c.isDigit = false ∧ c ≠ '.' ∧ c ≠ 'e' ∧ c ≠ 'E'

theorem endsNumber_cons {c : Char} {cs : List Char}
    (h : c.isDigit = false ∧ c ≠ '.' ∧ c ≠ 'e' ∧ c ≠ 'E') : EndsNumber (c :: cs) := by
  simpa [EndsNumber] using h

/-- Digits end where a number ends. -/
theorem spanDigits_append {ds tail : List Char} (hds : ∀ c ∈ ds, c.isDigit = true)
    (htail : EndsNumber tail) : spanDigits (ds ++ tail) = (ds, tail) := by
  rw [spanDigits, List.span_eq_takeWhile_dropWhile, List.takeWhile_append_of_pos hds,
    List.dropWhile_append_of_pos hds]
  cases tail with
  | nil => simp
  | cons c cs =>
    have hc : c.isDigit = false := (htail c (by simp)).1
    simp [hc]

/-- A number without fraction ends with its digits where nothing continues it. -/
theorem readExponent_of_endsNumber (n : NumberText) {tail : List Char} (htail : EndsNumber tail) :
    readExponent n tail = (.number n.number?, tail) := by
  cases tail with
  | nil => rfl
  | cons c cs =>
    obtain ⟨-, -, he, hE⟩ := htail c (by simp)
    simp [readExponent, he, hE]

/-- The digits of a printed number are read, whichever sign stands in front. -/
theorem readNumber_toDigits (negative : Bool) (m : Nat) {tail : List Char}
    (htail : EndsNumber tail) :
    readNumber negative (Nat.toDigits 10 m ++ tail) =
      (.number { negative, whole := Nat.toDigits 10 m : NumberText }.number?, tail) := by
  have hdigits : ∀ c ∈ Nat.toDigits 10 m, c.isDigit = true :=
    fun _ => Nat.isDigit_of_mem_toDigits (by decide) (by decide)
  have hspan := spanDigits_append hdigits htail
  unfold readNumber
  rw [hspan]
  -- digits are there, they have no leading zero, and no point or exponent follows them
  split
  · next h => exact absurd (congrArg Prod.fst h) Nat.toDigits_ne_nil
  · next h =>
    have hdigits := congrArg Prod.fst h
    have hpos : 0 < m := by
      rcases Nat.eq_zero_or_pos m with rfl | hpos
      · simp at hdigits
      · exact hpos
    exact absurd (congrArg List.head? hdigits) (Text.Numeral.head?_toDigits_ne hpos)
  · next h =>
    obtain ⟨-, hrest⟩ := Prod.mk.inj h
    subst hrest
    exact absurd rfl (htail '.' (by simp)).2.1
  · next h =>
    obtain ⟨hwhole, hrest⟩ := Prod.mk.inj h
    subst hwhole hrest
    exact readExponent_of_endsNumber _ htail

theorem number?_toDigits {m : Nat} (hm : m < 2 ^ 64) :
    { negative := false, whole := Nat.toDigits 10 m : NumberText }.number? =
      some (.integer m) := by
  simp [NumberText.number?, Text.Numeral.value?_toDigits, hm, -Nat.reducePow]

theorem number?_neg_toDigits {m : Nat} (hpos : 0 < m) (hm : m ≤ 2 ^ 63) :
    { negative := true, whole := Nat.toDigits 10 m : NumberText }.number? =
      some (.integer (-m)) := by
  simp [NumberText.number?, Text.Numeral.value?_toDigits, hpos, hm, -Nat.reducePow]

/-! ## One token after the other -/

theorem length_readText_le (t : PartialText) (cs : List Char) :
    (readText t cs).2.length ≤ cs.length := by
  fun_induction readText t cs <;> simp <;> omega

theorem length_spanDigits_le (cs : List Char) : (spanDigits cs).2.length ≤ cs.length := by
  rw [spanDigits, List.span_eq_takeWhile_dropWhile]
  exact (List.dropWhile_suffix _).length_le

theorem length_readExponent_le (n : NumberText) (cs : List Char) :
    (readExponent n cs).2.length ≤ cs.length := by
  unfold readExponent
  split
  · next c cs =>
    split
    · -- a sign is skipped at most
      split
      next negative rest hsign =>
      have hrest : rest.length ≤ cs.length := by
        revert hsign
        split <;> (intro h; cases h; simp)
      have hspan := length_spanDigits_le rest
      split
      · simp
      · next hdigits =>
        rw [hdigits] at hspan
        exact Nat.le_succ_of_le (Nat.le_trans hspan hrest)
    · exact Nat.le_refl _
  · exact Nat.le_refl _

/-- A number is no shorter than its first digits. -/
theorem length_readNumber_le (negative : Bool) (cs : List Char) :
    (readNumber negative cs).2.length ≤ (spanDigits cs).2.length := by
  unfold readNumber
  split
  · simp
  · simp
  · next rest _ _ hspan =>
    have hfraction := length_spanDigits_le rest
    rw [hspan]
    split
    · simp
    · next hdigits =>
      rw [hdigits] at hfraction
      exact Nat.le_succ_of_le (Nat.le_trans (length_readExponent_le _ _) hfraction)
  · next hspan =>
    rw [hspan]
    exact length_readExponent_le _ _

theorem length_readName_le (token : JsonToken) (name cs : List Char) :
    (readName token name cs).2.length ≤ cs.length := by
  fun_induction readName token name cs with
  | case1 | case2 => exact Nat.le_refl _
  | case3 _ _ _ ih => exact Nat.le_succ_of_le ih
  | case4 => exact Nat.zero_le _

/-- A token takes the character that it begins with at least. -/
theorem length_readToken_le (c : Char) (cs : List Char) :
    (readToken c cs).2.length ≤ cs.length := by
  unfold readToken
  split
  · exact Nat.le_refl _
  · exact Nat.le_refl _
  · exact Nat.le_refl _
  · exact Nat.le_refl _
  · exact Nat.le_refl _
  · exact Nat.le_refl _
  · exact length_readText_le _ _
  · exact length_readName_le _ _ _
  · exact length_readName_le _ _ _
  · exact length_readName_le _ _ _
  · exact Nat.le_trans (length_readNumber_le _ _) (length_spanDigits_le _)
  · split
    · next hdigit =>
      have hspan : spanDigits (c :: cs) = (c :: (spanDigits cs).1, (spanDigits cs).2) := by
        rw [spanDigits, spanDigits, List.span_eq_takeWhile_dropWhile,
          List.span_eq_takeWhile_dropWhile, List.takeWhile_cons_of_pos hdigit,
          List.dropWhile_cons_of_pos hdigit]
      have hle := length_readNumber_le false (c :: cs)
      rw [hspan] at hle
      exact Nat.le_trans hle (length_spanDigits_le _)
    · simp

/-- More fuel than characters changes nothing. -/
theorem tokensWithin_eq {fuel fuel' : Nat} {cs : List Char} (h : cs.length ≤ fuel)
    (h' : cs.length ≤ fuel') : tokensWithin fuel cs = tokensWithin fuel' cs := by
  -- over the fuel of one side; a token leaves less text than there was
  induction fuel generalizing fuel' cs with
  | zero =>
    obtain rfl := List.eq_nil_of_length_eq_zero (Nat.le_zero.1 h)
    cases fuel' <;> rfl
  | succ fuel ih =>
    cases fuel' with
    | zero =>
      obtain rfl := List.eq_nil_of_length_eq_zero (Nat.le_zero.1 h')
      rfl
    | succ fuel' =>
      unfold tokensWithin
      have hskip := (List.dropWhile_suffix (l := cs) isSpace).length_le
      split
      · rfl
      · next c rest hcs =>
        rw [hcs, List.length_cons] at hskip
        have hread := length_readToken_le c rest
        have hrest : tokensWithin fuel (readToken c rest).2 =
            tokensWithin fuel' (readToken c rest).2 := ih (by omega) (by omega)
        simp only [hrest]

/-- The first token of a text, with the tokens of the text behind it. -/
theorem tokenize_cons {c : Char} {cs rest : List Char} {token : JsonToken}
    (hc : isSpace c = false) (hread : readToken c cs = (token, rest))
    (htoken : token.isBreak = false) : tokenize (c :: cs) = token :: tokenize rest := by
  have hle := length_readToken_le c cs
  rw [hread] at hle
  rw [tokenize, List.length_cons, tokensWithin, List.dropWhile_cons_of_neg (by simp [hc])]
  simp only [hread, htoken]
  rw [tokenize, tokensWithin_eq hle (Nat.le_refl _)]
  rfl

def marks : List (Char × JsonToken) :=
  [('[', .openBracket), (']', .closeBracket), ('{', .openBrace), ('}', .closeBrace), (',', .comma),
    (':', .colon)]

/-- Each of the six marks is a token of its own. -/
theorem tokenize_mark (c : Char) (token : JsonToken) (h : (c, token) ∈ marks) (cs : List Char) :
    tokenize (c :: cs) = token :: tokenize cs := by
  simp only [marks, List.mem_cons, List.not_mem_nil, or_false, Prod.mk.injEq] at h
  rcases h with ⟨rfl, rfl⟩ | ⟨rfl, rfl⟩ | ⟨rfl, rfl⟩ | ⟨rfl, rfl⟩ | ⟨rfl, rfl⟩ | ⟨rfl, rfl⟩
  all_goals exact tokenize_cons rfl rfl rfl

end JsonToken

namespace Json

/-! ## Trees -/

mutual

def tokens : Json → List JsonToken
  | null => [.null]
  | bool b => [.bool b]
  | number n => [.number (some n)]
  | text s => [.text (some s)]
  | array items => .openBracket :: (itemTokens items ++ [.closeBracket])
  | object ms => .openBrace :: (memberTokens ms ++ [.closeBrace])

def itemTokens : List Json → List JsonToken
  | [] => []
  | [j] => tokens j
  | j :: js => tokens j ++ .comma :: itemTokens js

def memberTokens : List (String × Json) → List JsonToken
  | [] => []
  | [(k, j)] => .text (some k) :: .colon :: tokens j
  | (k, j) :: ms => .text (some k) :: .colon :: (tokens j ++ .comma :: memberTokens ms)

end

/-- A tree that loses nothing when it is printed and read: its numbers are integers within the
limits of their kind, the keys of an object differ, and arrays and objects are nested at most
`depth` levels deep. -/
inductive Lossless : Nat → Json → Prop
  | null {depth : Nat} : Lossless depth null
  | bool {depth : Nat} {b : Bool} : Lossless depth (bool b)
  | text {depth : Nat} {s : String} : Lossless depth (text s)
  | integer {depth : Nat} {n : Int} (hn : -2 ^ 63 ≤ n ∧ n < 2 ^ 64) :
    Lossless depth (number (.integer n))
  | array {depth : Nat} {items : List Json} (hitems : ∀ j ∈ items, Lossless depth j) :
    Lossless (depth + 1) (array items)
  | object {depth : Nat} {ms : List (String × Json)} (hkeys : (ms.map Prod.fst).Nodup)
    (hmembers : ∀ m ∈ ms, Lossless depth m.2) : Lossless (depth + 1) (object ms)

open JsonToken

/-- A printed text is one token. -/
theorem tokenize_printText (s : String) (tail : List Char) :
    tokenize (printText s ++ tail) = .text (some s) :: tokenize tail := by
  have hread := readText_flatMap_escape [] s.toList tail
  rw [List.reverse_nil, List.nil_append, String.ofList_toList] at hread
  have hprint : printText s ++ tail = '"' :: (s.toList.flatMap escape ++ '"' :: tail) := by
    simp [printText]
  rw [hprint]
  exact tokenize_cons rfl hread rfl

theorem isSpace_of_isDigit {c : Char} (hc : c.isDigit = true) : isSpace c = false := by
  simp only [isSpace, Bool.or_eq_false_iff, beq_eq_false_iff_ne]
  refine ⟨⟨⟨?_, ?_⟩, ?_⟩, ?_⟩ <;> (rintro rfl; exact absurd hc (by decide))

theorem readToken_of_isDigit {c : Char} (hc : c.isDigit = true) (cs : List Char) :
    readToken c cs = readNumber false (c :: cs) := by
  unfold readToken
  split
  all_goals first | exact absurd hc (by decide) | exact if_pos hc

/-- A printed integer is one token, which holds that integer. -/
theorem tokenize_integer {n : Int} (hn : -2 ^ 63 ≤ n ∧ n < 2 ^ 64) {tail : List Char}
    (htail : EndsNumber tail) :
    tokenize ((Text.Numeral.signed n).toList ++ tail) =
      .number (some (.integer n)) :: tokenize tail := by
  unfold Text.Numeral.signed
  -- a negative integer has its sign as the first character, any other its first digit
  split
  · next hneg =>
    have hread : readToken '-' (Nat.toDigits 10 n.natAbs ++ tail) =
        (.number (some (.integer n)), tail) := by
      have habs : (-(n.natAbs : Int)) = n := by omega
      rw [← habs, Int.natAbs_neg, Int.natAbs_natCast,
        ← number?_neg_toDigits (m := n.natAbs) (by omega) (by omega)]
      exact readNumber_toDigits true n.natAbs htail
    have hprint : ("-" ++ Text.Numeral.decimal n.natAbs).toList ++ tail =
        '-' :: (Nat.toDigits 10 n.natAbs ++ tail) := by
      simp [Text.Numeral.decimal]
    rw [hprint]
    exact tokenize_cons rfl hread rfl
  · next hneg =>
    obtain ⟨c, cs, hdigits⟩ : ∃ c cs, Nat.toDigits 10 n.natAbs = c :: cs :=
      List.exists_cons_of_ne_nil Nat.toDigits_ne_nil
    have hdigit : c.isDigit = true :=
      Nat.isDigit_of_mem_toDigits (b := 10) (n := n.natAbs) (by decide) (by decide)
        (hdigits ▸ List.mem_cons_self)
    have hread : readToken c (cs ++ tail) = (.number (some (.integer n)), tail) := by
      have habs : (n.natAbs : Int) = n := by omega
      have hnumber := readNumber_toDigits false n.natAbs htail
      rw [number?_toDigits (by omega), habs, hdigits] at hnumber
      rw [readToken_of_isDigit hdigit]
      exact hnumber
    rw [Text.Numeral.decimal, String.toList_ofList, hdigits]
    exact tokenize_cons (isSpace_of_isDigit hdigit) hread rfl

/-- Whether a tree is cut into its tokens wherever it stands. -/
def PrintsTokens (j : Json) : Prop :=
  ∀ tail, EndsNumber tail → tokenize (printOnto tail j) = tokens j ++ tokenize tail

/-- Between items there is a comma, which ends a number. -/
theorem tokenize_printItemsOnto {items : List Json} (hitems : ∀ j ∈ items, PrintsTokens j)
    {tail : List Char} (htail : EndsNumber tail) :
    tokenize (printItemsOnto tail items) = itemTokens items ++ tokenize tail := by
  induction items with
  | nil => rfl
  | cons j js ih =>
    have hj := hitems j List.mem_cons_self
    cases js with
    | nil => exact hj tail htail
    | cons k js =>
      have hrest := ih fun j hj => hitems j (List.mem_cons_of_mem _ hj)
      rw [printItemsOnto, itemTokens, hj _ (endsNumber_cons (by decide)),
        tokenize_mark ',' .comma (by decide), hrest, List.append_assoc, List.cons_append]
      · simp
      · simp

theorem tokenize_printMembersOnto {ms : List (String × Json)}
    (hmembers : ∀ m ∈ ms, PrintsTokens m.2) {tail : List Char} (htail : EndsNumber tail) :
    tokenize (printMembersOnto tail ms) = memberTokens ms ++ tokenize tail := by
  induction ms with
  | nil => rfl
  | cons m ms ih =>
    obtain ⟨k, j⟩ := m
    have hj : PrintsTokens j := hmembers (k, j) List.mem_cons_self
    cases ms with
    | nil =>
      rw [printMembersOnto, memberTokens, tokenize_printText, tokenize_mark ':' .colon (by decide),
        hj _ htail]
      rfl
    | cons m ms =>
      have hrest := ih fun m hm => hmembers m (List.mem_cons_of_mem _ hm)
      rw [printMembersOnto, memberTokens, tokenize_printText, tokenize_mark ':' .colon (by decide),
        hj _ (endsNumber_cons (by decide)), tokenize_mark ',' .comma (by decide), hrest]
      · simp
      · simp
      · simp

/-- A tree prints its tokens, and they do not run into what follows. -/
theorem tokenize_printOnto {depth : Nat} {j : Json} (h : Lossless depth j) : PrintsTokens j := by
  induction h with
  | null =>
    intro tail _
    exact tokenize_cons rfl rfl rfl
  | @bool _ b =>
    intro tail _
    cases b with
    | false => exact tokenize_cons rfl rfl rfl
    | true => exact tokenize_cons rfl rfl rfl
  | text =>
    intro tail _
    exact tokenize_printText _ _
  | integer hn =>
    intro tail htail
    exact tokenize_integer hn htail
  | array _ ih =>
    intro tail _
    rw [printOnto, tokens, tokenize_mark '[' .openBracket (by decide),
      tokenize_printItemsOnto ih (endsNumber_cons (by decide)),
      tokenize_mark ']' .closeBracket (by decide)]
    simp
  | object _ _ ih =>
    intro tail _
    rw [printOnto, tokens, tokenize_mark '{' .openBrace (by decide),
      tokenize_printMembersOnto ih (endsNumber_cons (by decide)),
      tokenize_mark '}' .closeBrace (by decide)]
    simp

end Json

end TxForensics
