import Mathlib.Data.Option.Basic
import TxForensics.Proofs.Source.Function

/-!
# Where a declaration is matched

`nameFrom?` walks over a piece of code and stops at the first place where a word may begin and a
declaration stands (`MatchedAt`). What such a place declares is decided by the keyword, the blank
characters and the name or parenthesis behind it: `Declares` is the grammar of that, and
`nameAt?_eq_some_iff` says that the recognizer decides it.

A quote is none of these, so no declaration reaches across a quote (`nameAt?_append_quote`), and the
walk over a text with a quote in it is the walk over the part in front of the quote, and then over
the part behind it:

    nameFrom?_append_quote :
      nameFrom? inWord (front ++ q :: back) = (nameFrom? inWord front).or (nameFrom? false back)
-/

namespace TxForensics.Declaration

/-! ## The first match -/

/-- Whether the text behind `front` continues a word, where `inWord` tells it for an empty one. -/
def endsInWord (inWord : Bool) (front : List Char) : Bool :=
  (front.getLast?.map Text.isWordChar).getD inWord

theorem endsInWord_cons (inWord : Bool) (c : Char) (front : List Char) :
    endsInWord inWord (c :: front) = endsInWord (Text.isWordChar c) front := by
  unfold endsInWord
  rw [List.getLast?_cons]
  cases front.getLast? <;> rfl

/-- `code` is `front ++ rest`, the declaration of `name` begins with `rest`, and no place before it
begins one. -/
structure MatchedAt (inWord : Bool) (code front rest name : List Char) : Prop where
  split : code = front ++ rest
  boundary : endsInWord inWord front = false
  declares : nameAt? rest = some name
  first : ∀ front' rest', code = front' ++ rest' → front'.length < front.length →
    endsInWord inWord front' = false → nameAt? rest' = none

/-- A match is at one of the places of the code. -/
theorem MatchedAt.place {inWord : Bool} {code front rest name : List Char}
    (h : MatchedAt inWord code front rest name) :
    ∃ k ≤ code.length, front = code.take k ∧ rest = code.drop k := by
  refine ⟨front.length, ?_, ?_, ?_⟩
  · rw [h.split, List.length_append]
    exact Nat.le_add_right _ _
  · rw [h.split, List.take_left]
  · rw [h.split, List.drop_left]

/-- Where no declaration begins the walk goes on. -/
theorem nameFrom?_cons_of_none {inWord : Bool} {c : Char} {cs : List Char}
    (h : inWord = false → nameAt? (c :: cs) = none) :
    nameFrom? inWord (c :: cs) = nameFrom? (Text.isWordChar c) cs := by
  rw [nameFrom?]
  cases inWord with
  | false => rw [if_neg Bool.false_ne_true, h rfl]
  | true => rw [if_pos rfl]

theorem nameFrom?_cons_of_some {c : Char} {cs name : List Char}
    (h : nameAt? (c :: cs) = some name) : nameFrom? false (c :: cs) = some name := by
  rw [nameFrom?, if_neg Bool.false_ne_true, h]

/-- The name found is that of the first declaration. -/
theorem exists_matchedAt {inWord : Bool} {code name : List Char}
    (h : nameFrom? inWord code = some name) :
    ∃ front rest, MatchedAt inWord code front rest name := by
  induction code generalizing inWord with
  | nil => cases h
  | cons c cs ih =>
    -- the first character begins a declaration, or the match is one place further on
    by_cases hhere : inWord = false ∧ nameAt? (c :: cs) ≠ none
    · obtain ⟨rfl, hsome⟩ := hhere
      obtain ⟨found, hfound⟩ := Option.ne_none_iff_exists'.mp hsome
      rw [nameFrom?_cons_of_some hfound, ← hfound] at h
      exact ⟨[], c :: cs, rfl, rfl, h, fun _ _ _ hlt => absurd hlt (Nat.not_lt_zero _)⟩
    · have hnone : inWord = false → nameAt? (c :: cs) = none := by
        intro hword
        exact Classical.not_not.mp fun hsome => hhere ⟨hword, hsome⟩
      rw [nameFrom?_cons_of_none hnone] at h
      obtain ⟨front, rest, hsplit, hboundary, hdeclares, hfirst⟩ := ih h
      refine ⟨c :: front, rest, by rw [hsplit, List.cons_append], ?_, hdeclares, ?_⟩
      · rw [endsInWord_cons, hboundary]
      · intro front' rest' hsplit' hlt hboundary'
        cases front' with
        | nil =>
          rw [List.nil_append] at hsplit'
          rw [← hsplit']
          exact hnone hboundary'
        | cons d front' =>
          obtain ⟨rfl, htail⟩ := List.cons.inj hsplit'
          rw [endsInWord_cons] at hboundary'
          exact hfirst front' rest' htail (Nat.lt_of_succ_lt_succ hlt) hboundary'

/-- A declaration at any place where a word may begin gives a name. -/
theorem nameFrom?_ne_none_iff {inWord : Bool} {code : List Char} :
    nameFrom? inWord code ≠ none ↔ ∃ front rest name, code = front ++ rest ∧
      endsInWord inWord front = false ∧ nameAt? rest = some name := by
  constructor
  · intro h
    obtain ⟨name, hname⟩ := Option.ne_none_iff_exists'.mp h
    obtain ⟨front, rest, hmatch⟩ := exists_matchedAt hname
    exact ⟨front, rest, name, hmatch.split, hmatch.boundary, hmatch.declares⟩
  · rintro ⟨front, rest, name, rfl, hboundary, hdeclares⟩
    induction front generalizing inWord with
    | nil =>
      cases rest with
      | nil => cases hdeclares
      | cons c cs =>
        have hword : inWord = false := hboundary
        rw [List.nil_append, hword, nameFrom?_cons_of_some hdeclares]
        exact Option.some_ne_none name
    | cons c front ih =>
      rw [endsInWord_cons] at hboundary
      rw [List.cons_append, nameFrom?]
      split
      · exact Option.some_ne_none _
      · exact ih hboundary

/-! ## What a declaration looks like -/

/-- `text` begins with a declaration of `name`. -/
inductive Declares : List Char → List Char → Prop
  /-- A keyword, blank characters and a name, which goes on as far as it can. -/
  | named {keyword : String} (hkeyword : keyword = "function" ∨ keyword = "modifier")
      {blanks name rest : List Char} (hblanks : blanks ≠ [] ∧ ∀ c ∈ blanks, Text.isBlank c)
      (hname : name.head?.any isNameStart ∧ ∀ c ∈ name, isNameChar c)
      (hrest : rest.head?.any isNameChar = false) :
      Declares (keyword.toList ++ (blanks ++ (name ++ rest))) name
  /-- A keyword that is itself the name, in front of an opening parenthesis. -/
  | nameless {keyword : String}
      (hkeyword : keyword = "constructor" ∨ keyword = "fallback" ∨ keyword = "receive")
      {blanks rest : List Char} (hblanks : ∀ c ∈ blanks, Text.isBlank c) :
      Declares (keyword.toList ++ (blanks ++ '(' :: rest)) keyword.toList

theorem takeWhile_append_of_head? {p : Char → Bool} {front rest : List Char}
    (hfront : ∀ c ∈ front, p c) (hrest : rest.head?.any p = false) :
    (front ++ rest).takeWhile p = front := by
  rw [List.takeWhile_append_of_pos hfront]
  cases rest with
  | nil => rw [List.takeWhile_nil, List.append_nil]
  | cons c rest =>
    have hc : p c = false := hrest
    rw [List.takeWhile_cons, if_neg (by simp [hc]), List.append_nil]

theorem dropWhile_append_of_head? {p : Char → Bool} {front rest : List Char}
    (hfront : ∀ c ∈ front, p c) (hrest : rest.head?.any p = false) :
    (front ++ rest).dropWhile p = rest := by
  rw [List.dropWhile_append_of_pos hfront]
  cases rest with
  | nil => rfl
  | cons c rest =>
    have hc : p c = false := hrest
    rw [List.dropWhile_cons, if_neg (by simp [hc])]

theorem any_head?_dropWhile (p : Char → Bool) (cs : List Char) :
    (cs.dropWhile p).head?.any p = false := by
  have hfirst := List.head?_dropWhile_not p cs
  cases h : (cs.dropWhile p).head? with
  | none => rfl
  | some c =>
    rw [h] at hfirst
    exact hfirst

/-- No name begins with a blank character. -/
theorem not_isBlank_of_isNameStart {c : Char} (h : isNameStart c = true) :
    Text.isBlank c = false := by
  have hrange : c.toNat = 36 ∨ 65 ≤ c.toNat ∧ c.toNat ≤ 122 := by
    have halpha : c.isAlpha =
        (decide ('A'.val ≤ c.val ∧ c.val ≤ 'Z'.val) ||
          (decide ('a'.val ≤ c.val) && decide (c.val ≤ 'z'.val))) := rfl
    simp only [isNameStart, halpha, Bool.or_eq_true, Bool.and_eq_true, decide_eq_true_eq,
      beq_iff_eq, UInt32.le_iff_toNat_le] at h
    rcases h with ((⟨hle, hge⟩ | ⟨hle, hge⟩) | rfl) | rfl
    · exact .inr ⟨hle, Nat.le_trans hge (by decide)⟩
    · exact .inr ⟨Nat.le_trans (by decide) hle, hge⟩
    · decide
    · decide
  unfold Text.isBlank
  dsimp only
  simp only [Bool.or_eq_false_iff, Bool.and_eq_false_iff, decide_eq_false_iff_not,
    beq_eq_false_iff_ne]
  omega

/-- The name behind a keyword goes on as far as it can, behind at least one blank character. -/
theorem nameAfter?_eq_some_iff {keyword : String} {cs name : List Char} :
    nameAfter? keyword cs = some name ↔ ∃ blanks rest,
      cs = keyword.toList ++ (blanks ++ (name ++ rest)) ∧
        (blanks ≠ [] ∧ ∀ c ∈ blanks, Text.isBlank c) ∧
        (name.head?.any isNameStart ∧ ∀ c ∈ name, isNameChar c) ∧
        rest.head?.any isNameChar = false := by
  unfold nameAfter?
  simp only [Option.bind_eq_bind, Option.bind_eq_some_iff, Option.guard_eq_some', Option.pure_def,
    Option.some.injEq, Text.after?_eq_some_iff, Bool.and_eq_true]
  constructor
  · rintro ⟨rest, rfl, -, ⟨hblank, hstart⟩, rfl⟩
    refine ⟨rest.takeWhile Text.isBlank, (rest.dropWhile Text.isBlank).dropWhile isNameChar, ?_,
      ⟨?_, List.all_eq_true.mp List.all_takeWhile⟩,
      ⟨hstart, List.all_eq_true.mp List.all_takeWhile⟩, any_head?_dropWhile _ _⟩
    · rw [List.takeWhile_append_dropWhile, List.takeWhile_append_dropWhile]
    · cases rest with
      | nil => cases hblank
      | cons c rest =>
        have hc : Text.isBlank c = true := hblank
        rw [List.takeWhile_cons, if_pos hc]
        exact List.cons_ne_nil _ _
  · rintro ⟨blanks, rest, rfl, ⟨hne, hblanks⟩, ⟨hstart, hname⟩, hrest⟩
    -- the name begins with no blank character, so the blanks end where it begins
    have hstop : (name ++ rest).head?.any Text.isBlank = false := by
      cases name with
      | nil => cases hstart
      | cons c name => exact not_isBlank_of_isNameStart hstart
    have hdrop := dropWhile_append_of_head? hblanks hstop
    have htake := takeWhile_append_of_head? hname hrest
    refine ⟨_, rfl, (), ⟨?_, ?_⟩, ?_⟩
    · obtain ⟨c, blanks, rfl⟩ := List.exists_cons_of_ne_nil hne
      exact hblanks c List.mem_cons_self
    · rw [hdrop, htake]
      exact hstart
    · rw [hdrop, htake]

/-- A keyword that is a name has a parenthesis behind it, blank characters aside. -/
theorem nameless?_eq_some_iff {keyword : String} {cs name : List Char} :
    nameless? keyword cs = some name ↔ name = keyword.toList ∧ ∃ blanks rest,
      cs = keyword.toList ++ (blanks ++ '(' :: rest) ∧ ∀ c ∈ blanks, Text.isBlank c := by
  unfold nameless?
  simp only [Option.bind_eq_bind, Option.bind_eq_some_iff, Option.guard_eq_some', Option.pure_def,
    Option.some.injEq, Text.after?_eq_some_iff, beq_iff_eq, List.head?_eq_some_iff]
  constructor
  · rintro ⟨rest, rfl, -, ⟨after, hafter⟩, rfl⟩
    refine ⟨rfl, rest.takeWhile Text.isBlank, after, ?_, List.all_eq_true.mp List.all_takeWhile⟩
    rw [← hafter, List.takeWhile_append_dropWhile]
  · rintro ⟨rfl, blanks, rest, rfl, hblanks⟩
    exact ⟨_, rfl, (), ⟨rest, dropWhile_append_of_head? hblanks rfl⟩, rfl⟩

theorem nameAfter?_of_after? {keyword : String} {cs : List Char}
    (h : Text.after? keyword cs = none) : nameAfter? keyword cs = none := by
  rw [nameAfter?, h]
  rfl

theorem nameless?_of_after? {keyword : String} {cs : List Char}
    (h : Text.after? keyword cs = none) : nameless? keyword cs = none := by
  rw [nameless?, h]
  rfl

/-- The keywords are tried one after the other, and none of them begins another one. -/
theorem nameAt?_eq_some_iff {cs name : List Char} : nameAt? cs = some name ↔ Declares cs name := by
  unfold nameAt?
  simp only [Option.orElse_eq_some]
  constructor
  · have named {keyword : String} (hkeyword : keyword = "function" ∨ keyword = "modifier")
        (h : nameAfter? keyword cs = some name) : Declares cs name := by
      obtain ⟨blanks, rest, rfl, hblanks, hname, hrest⟩ := nameAfter?_eq_some_iff.mp h
      exact .named hkeyword hblanks hname hrest
    have nameless {keyword : String}
        (hkeyword : keyword = "constructor" ∨ keyword = "fallback" ∨ keyword = "receive")
        (h : nameless? keyword cs = some name) : Declares cs name := by
      obtain ⟨rfl, blanks, rest, rfl, hblanks⟩ := nameless?_eq_some_iff.mp h
      exact .nameless hkeyword hblanks
    rintro (h | ⟨-, h | ⟨-, h | ⟨-, h | ⟨-, h⟩⟩⟩⟩)
    · exact named (.inl rfl) h
    · exact named (.inr rfl) h
    · exact nameless (.inl rfl) h
    · exact nameless (.inr (.inl rfl)) h
    · exact nameless (.inr (.inr rfl)) h
  · intro h
    cases h with
    | @named keyword hkeyword blanks _ rest hblanks hname hrest =>
      have hhere : nameAfter? keyword (keyword.toList ++ (blanks ++ (name ++ rest))) = some name :=
        nameAfter?_eq_some_iff.mpr ⟨blanks, rest, rfl, hblanks, hname, hrest⟩
      rcases hkeyword with rfl | rfl
      · exact .inl hhere
      · exact .inr ⟨nameAfter?_of_after? rfl, .inl hhere⟩
    | @nameless keyword hkeyword blanks rest hblanks =>
      have hhere : nameless? keyword (keyword.toList ++ (blanks ++ '(' :: rest)) =
          some keyword.toList :=
        nameless?_eq_some_iff.mpr ⟨rfl, blanks, rest, rfl, hblanks⟩
      rcases hkeyword with rfl | rfl | rfl
      · exact .inr ⟨nameAfter?_of_after? rfl, .inr ⟨nameAfter?_of_after? rfl, .inl hhere⟩⟩
      · exact .inr ⟨nameAfter?_of_after? rfl, .inr ⟨nameAfter?_of_after? rfl,
          .inr ⟨nameless?_of_after? rfl, .inl hhere⟩⟩⟩
      · exact .inr ⟨nameAfter?_of_after? rfl, .inr ⟨nameAfter?_of_after? rfl,
          .inr ⟨nameless?_of_after? rfl, .inr ⟨nameless?_of_after? rfl, hhere⟩⟩⟩⟩

/-! ## No match reaches across a quote -/

def IsQuote (q : Char) : Prop := q = '"' ∨ q = '\x27'

instance (q : Char) : Decidable (IsQuote q) := inferInstanceAs (Decidable (_ ∨ _))

theorem IsQuote.not_isBlank {q : Char} (h : IsQuote q) : Text.isBlank q = false := by
  rcases h with rfl | rfl <;> decide

theorem IsQuote.not_isNameChar {q : Char} (h : IsQuote q) : isNameChar q = false := by
  rcases h with rfl | rfl <;> decide

theorem IsQuote.not_isWordChar {q : Char} (h : IsQuote q) : Text.isWordChar q = false := by
  rcases h with rfl | rfl <;> decide

theorem dropWhile_append_of_not {p : Char → Bool} {q : Char} (hq : p q = false)
    (front back : List Char) :
    (front ++ q :: back).dropWhile p = front.dropWhile p ++ q :: back := by
  induction front with
  | nil => rw [List.nil_append, List.dropWhile_cons, if_neg (by simp [hq]), List.dropWhile_nil,
      List.nil_append]
  | cons c front ih =>
    rw [List.cons_append, List.dropWhile_cons, List.dropWhile_cons]
    split
    · exact ih
    · rw [List.cons_append]

theorem takeWhile_append_of_not {p : Char → Bool} {q : Char} (hq : p q = false)
    (front back : List Char) : (front ++ q :: back).takeWhile p = front.takeWhile p := by
  induction front with
  | nil => rw [List.nil_append, List.takeWhile_cons, if_neg (by simp [hq]), List.takeWhile_nil]
  | cons c front ih =>
    rw [List.cons_append, List.takeWhile_cons, List.takeWhile_cons, ih]

/-- A word without quotes at the beginning of a text stands in front of the first quote. -/
theorem after?_append_quote {word : String} {q : Char} (hword : q ∉ word.toList)
    (front back : List Char) :
    Text.after? word (front ++ q :: back) = (Text.after? word front).map (· ++ q :: back) := by
  cases hfront : Text.after? word front with
  | some rest =>
    rw [Text.after?_eq_some_iff] at hfront
    rw [Option.map_some, Text.after?_eq_some_iff, hfront, List.append_assoc]
  | none =>
    rw [Option.map_none, Option.eq_none_iff_forall_ne_some]
    intro rest hrest
    rw [Text.after?_eq_some_iff, List.append_eq_append_iff] at hrest
    -- the word ends in front of the quote or behind it
    rcases hrest with ⟨mid, hmid, hback⟩ | ⟨mid, hmid, -⟩
    · -- the word would have the quote in it, or end in front of it
      cases mid with
      | nil =>
        have hsome : Text.after? word front = some [] := by
          rw [Text.after?_eq_some_iff, hmid]
          simp
        rw [hsome] at hfront
        cases hfront
      | cons c mid =>
        obtain ⟨rfl, -⟩ := List.cons.inj hback
        exact hword (by simp [hmid])
    · have hsome : Text.after? word front = some mid := Text.after?_eq_some_iff.mpr hmid
      rw [hsome] at hfront
      cases hfront

/-- Neither blank characters nor a name reach across a quote. -/
theorem nameAfter?_append_quote {keyword : String} {q : Char} (hq : IsQuote q)
    (hkeyword : q ∉ keyword.toList) (front back : List Char) :
    nameAfter? keyword (front ++ q :: back) = nameAfter? keyword front := by
  unfold nameAfter?
  rw [after?_append_quote hkeyword]
  cases Text.after? keyword front with
  | none => rfl
  | some rest =>
    have hblank : (rest ++ q :: back).head?.any Text.isBlank = rest.head?.any Text.isBlank := by
      cases rest with
      | nil => exact hq.not_isBlank
      | cons c rest => rfl
    rw [Option.map_some, Option.bind_eq_bind, Option.bind_some, Option.bind_eq_bind,
      Option.bind_some, hblank, dropWhile_append_of_not hq.not_isBlank,
      takeWhile_append_of_not hq.not_isNameChar]

theorem nameless?_append_quote {keyword : String} {q : Char} (hq : IsQuote q)
    (hkeyword : q ∉ keyword.toList) (front back : List Char) :
    nameless? keyword (front ++ q :: back) = nameless? keyword front := by
  unfold nameless?
  rw [after?_append_quote hkeyword]
  cases Text.after? keyword front with
  | none => rfl
  | some rest =>
    have hparenthesis : ((rest.dropWhile Text.isBlank ++ q :: back).head? == some '(') =
        ((rest.dropWhile Text.isBlank).head? == some '(') := by
      cases rest.dropWhile Text.isBlank with
      | nil => rcases hq with rfl | rfl <;> rfl
      | cons c rest => rfl
    rw [Option.map_some, Option.bind_eq_bind, Option.bind_some, Option.bind_eq_bind,
      Option.bind_some, dropWhile_append_of_not hq.not_isBlank, hparenthesis]

/-- What a declaration declares is decided in front of the next quote. -/
theorem nameAt?_append_quote {q : Char} (hq : IsQuote q) (front back : List Char) :
    nameAt? (front ++ q :: back) = nameAt? front := by
  have hkeywords : q ∉ "function".toList ∧ q ∉ "modifier".toList ∧ q ∉ "constructor".toList ∧
      q ∉ "fallback".toList ∧ q ∉ "receive".toList := by
    rcases hq with rfl | rfl <;> decide
  obtain ⟨hfunction, hmodifier, hconstructor, hfallback, hreceive⟩ := hkeywords
  unfold nameAt?
  rw [nameAfter?_append_quote hq hfunction, nameAfter?_append_quote hq hmodifier,
    nameless?_append_quote hq hconstructor, nameless?_append_quote hq hfallback,
    nameless?_append_quote hq hreceive]

/-- Behind a quote the walk begins anew. -/
theorem nameFrom?_append_quote {q : Char} (hq : IsQuote q) (inWord : Bool)
    (front back : List Char) :
    nameFrom? inWord (front ++ q :: back) =
      (nameFrom? inWord front).or (nameFrom? false back) := by
  -- over what stands in front; at the quote itself no declaration begins and no word goes on
  induction front generalizing inWord with
  | nil =>
    have hnone : nameAt? (q :: back) = none := nameAt?_append_quote hq [] back
    rw [List.nil_append, nameFrom?_cons_of_none fun _ => hnone, hq.not_isWordChar, nameFrom?.eq_1,
      Option.none_or]
  | cons c front ih =>
    have hsame : nameAt? (c :: (front ++ q :: back)) = nameAt? (c :: front) :=
      nameAt?_append_quote hq (c :: front) back
    rw [List.cons_append, nameFrom?, nameFrom?, hsame]
    split
    · rfl
    · exact ih _

end TxForensics.Declaration
