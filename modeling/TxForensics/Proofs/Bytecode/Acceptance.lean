import TxForensics.Proofs.Bytecode.Placeholder

/-!
# Which objects are accepted

A well-formed object is digits and whole placeholders behind at most one `0x` (`WellFormed`). More
than that is accepted, in two ways: reading takes off a mark of its own behind the one that is taken
off first, and a placeholder at the end of the object need not be whole, since zeros stand for as
many characters of it as there are.

    0x │ 0X │ 73 __$aa…$__ 5af4 │ __$ab
       │ ↑ again  ↑ body        │ ↑ cut

So an accepted object is well-formed exactly when it has no second mark and is not cut short
(`accepted_objects`). A scan from the left tells placeholders from digits, so the body and what is
cut off it are determined by the text (`IsWhole.not_cut`).
-/

namespace TxForensics.Object

/-! ## Texts of digits and placeholders -/

/-- A text of digits and whole placeholders. -/
inductive IsWhole : List Char → Prop
  | nil : IsWhole []
  | digit {c : Char} {rest : List Char} (isDigit : Hex.IsDigit c) (h : IsWhole rest) :
      IsWhole (c :: rest)
  | placeholder {name rest : List Char} (size : name.length + 2 = placeholderSize)
      (h : IsWhole rest) : IsWhole ('_' :: '_' :: (name ++ rest))

def IsCut (cut : List Char) : Prop :=
  ∃ name, cut = '_' :: '_' :: name ∧ name.length + 2 < placeholderSize

variable {object : String} {code : Bytes} {cs body cut : List Char}

theorem not_isDigit_underscore : ¬ Hex.IsDigit '_' := by decide

theorem IsWhole.of_digit {c : Char} {rest : List Char} (h : IsWhole (c :: rest))
    (hc : Hex.IsDigit c) : IsWhole rest := by
  cases h with
  | digit _ h => exact h
  | placeholder _ _ => exact absurd hc not_isDigit_underscore

/-- Underscores begin a placeholder. -/
theorem IsWhole.of_underscores {tail : List Char} (h : IsWhole ('_' :: '_' :: tail)) :
    ∃ name rest, tail = name ++ rest ∧ name.length + 2 = placeholderSize ∧ IsWhole rest := by
  cases h with
  | digit isDigit _ => exact absurd isDigit not_isDigit_underscore
  | placeholder size h => exact ⟨_, _, rfl, size, h⟩

/-- A text of whole placeholders is not one with a cut placeholder at its end as well. -/
theorem IsWhole.not_cut (h : IsWhole body) (hcut : IsCut cut) : ¬ IsWhole (body ++ cut) := by
  obtain ⟨name', rfl, hshort⟩ := hcut
  -- the same scan runs through both texts, until only the cut placeholder is left
  induction h with
  | nil =>
    intro h
    obtain ⟨name, rest, rfl, size, -⟩ := h.of_underscores
    rw [List.length_append] at hshort
    omega
  | digit isDigit _ ih => exact fun h => ih (h.of_digit isDigit)
  | @placeholder name rest size _ ih =>
    intro h
    rw [List.cons_append, List.cons_append, List.append_assoc] at h
    obtain ⟨other, rest', hsplit, size', h⟩ := h.of_underscores
    obtain ⟨-, rfl⟩ := List.append_inj hsplit (by omega)
    exact ih h

/-! ## What zeros leave -/

theorem length_linked (cs : List Char) : (linked cs).length = cs.length := by
  induction cs using linked.induct with
  | case1 rest ih =>
    rw [linked, List.length_append, List.length_replicate, ih, List.length_drop, List.length_cons,
      List.length_cons, placeholderSize]
    omega
  | case2 c rest hne ih =>
    rw [linked, List.length_cons, ih, List.length_cons]
    exact hne
  | case3 => rw [linked]

theorem linked_cons {c : Char} (hc : c ≠ '_') (rest : List Char) :
    linked (c :: rest) = c :: linked rest := by
  rw [linked]
  exact fun _ heq => absurd heq hc

theorem linked_of_isCut (h : IsCut cut) : linked cut = List.replicate cut.length '0' := by
  obtain ⟨name, rfl, hshort⟩ := h
  rw [placeholderSize] at hshort
  rw [linked, List.drop_eq_nil_of_le (by rw [placeholderSize]; omega), linked, List.append_nil,
    Nat.min_eq_right (by rw [placeholderSize]; omega), List.length_cons, List.length_cons]

/-- Zeros leave digits where there were digits and placeholders, whole or cut. -/
theorem isDigit_linked (hbody : IsWhole body) (hcut : cut = [] ∨ IsCut cut) :
    ∀ c ∈ linked (body ++ cut), Hex.IsDigit c := by
  -- over the body; what is cut comes at its end
  induction hbody with
  | nil =>
    intro c hc
    rw [List.nil_append] at hc
    rcases hcut with rfl | hcut
    · rw [linked] at hc
      cases hc
    · rw [linked_of_isCut hcut] at hc
      rw [List.eq_of_mem_replicate hc]
      decide
  | @digit d rest isDigit _ ih =>
    intro c hc
    have hd : d ≠ '_' := fun h => not_isDigit_underscore (h ▸ isDigit)
    rw [List.cons_append, linked_cons hd] at hc
    rcases List.mem_cons.mp hc with rfl | hc
    · exact isDigit
    · exact ih c hc
  | @placeholder name rest size _ ih =>
    intro c hc
    rw [List.cons_append, List.cons_append, List.append_assoc, ← List.cons_append,
      ← List.cons_append, linked_append_of_placeholder size] at hc
    rcases List.mem_append.mp hc with hc | hc
    · rw [List.eq_of_mem_replicate hc]
      decide
    · exact ih c hc

/-- And they leave digits only there. -/
theorem exists_parts_of_linked (h : ∀ c ∈ linked cs, Hex.IsDigit c) :
    ∃ body cut, cs = body ++ cut ∧ IsWhole body ∧ (cut = [] ∨ IsCut cut) := by
  -- along the scan: a placeholder, cut or whole, or one more character
  induction cs using linked.induct with
  | case1 rest ih =>
    by_cases hshort : rest.length + 2 < placeholderSize
    · exact ⟨[], '_' :: '_' :: rest, rfl, .nil, .inr ⟨rest, rfl, hshort⟩⟩
    · have hdrop : ∀ c ∈ linked (rest.drop (placeholderSize - 2)), Hex.IsDigit c := by
        intro c hc
        rw [linked] at h
        exact h c (List.mem_append_right _ hc)
      obtain ⟨body, cut, hrest, hbody, hcut⟩ := ih hdrop
      have hsize : (rest.take (placeholderSize - 2)).length + 2 = placeholderSize := by
        rw [List.length_take]
        rw [placeholderSize] at hshort ⊢
        omega
      refine ⟨_, cut, ?_, .placeholder hsize hbody, hcut⟩
      rw [List.cons_append, List.cons_append, List.append_assoc, ← hrest, List.take_append_drop]
  | case2 c rest hne ih =>
    have hlinked : linked (c :: rest) = c :: linked rest := by
      rw [linked]
      exact hne
    rw [hlinked, List.forall_mem_cons] at h
    obtain ⟨body, cut, rfl, hbody, hcut⟩ := ih h.2
    exact ⟨c :: body, cut, rfl, .digit h.1 hbody, hcut⟩
  | case3 => exact ⟨[], [], rfl, .nil, .inl rfl⟩

/-! ## Marks -/

/-- A text without a mark stays as it is. -/
theorem hexStripMark_eq_self (h : ∀ m ∈ ['x', 'X'], ∀ rest, cs ≠ '0' :: m :: rest) :
    Hex.stripMark cs = cs := by
  unfold Hex.stripMark
  split
  · next rest => exact absurd rfl (h 'x' (by decide) rest)
  · next rest => exact absurd rfl (h 'X' (by decide) rest)
  · rfl

theorem stripMark_eq_self (h : ∀ rest, cs ≠ '0' :: 'x' :: rest) : stripMark cs = cs := by
  unfold stripMark
  split
  · next rest => exact absurd rfl (h rest)
  · rfl

/-- Digits and placeholders begin with no mark. -/
theorem IsWhole.ne_mark (h : IsWhole cs) : ∀ m ∈ ['x', 'X'], ∀ rest, cs ≠ '0' :: m :: rest := by
  rintro m hm rest rfl
  have hdigit : ¬ Hex.IsDigit m := by
    simp only [List.mem_cons, List.not_mem_nil, or_false] at hm
    rcases hm with rfl | rfl
    · decide
    · decide
  have hm' : m ≠ '_' := by
    rintro rfl
    simp at hm
  cases h.of_digit (by decide) with
  | digit isDigit _ => exact hdigit isDigit
  | placeholder _ _ => exact hm' rfl

/-- A character that is no zero was there before. -/
theorem eq_cons_of_linked {c : Char} {ds : List Char} (hc : c ≠ '0') (h : linked cs = c :: ds) :
    ∃ rest, cs = c :: rest := by
  unfold linked at h
  split at h
  · next rest =>
    have hsize : min placeholderSize (rest.length + 2) =
        min (placeholderSize - 1) (rest.length + 1) + 1 := by
      rw [placeholderSize]
      omega
    rw [hsize, List.replicate_succ, List.cons_append] at h
    exact absurd (List.cons.inj h).1.symm hc
  · next d rest _ =>
    obtain ⟨rfl, -⟩ := List.cons.inj h
    exact ⟨rest, rfl⟩
  · cases h

/-- The two zeros at least that a placeholder leaves begin no mark. -/
theorem eq_mark_of_linked {m : Char} {ds : List Char} (hm : m ≠ '0')
    (h : linked cs = '0' :: m :: ds) : ∃ rest, cs = '0' :: m :: rest := by
  unfold linked at h
  split at h
  · next rest =>
    -- a placeholder leaves two zeros at least, and the mark has one
    have hsize : min placeholderSize (rest.length + 2) =
        min (placeholderSize - 2) rest.length + 2 := by
      rw [placeholderSize]
      omega
    rw [hsize, List.replicate_succ, List.replicate_succ, List.cons_append, List.cons_append] at h
    exact absurd (List.cons.inj (List.cons.inj h).2).1.symm hm
  · next d rest _ =>
    obtain ⟨rfl, hrest⟩ := List.cons.inj h
    obtain ⟨rest', rfl⟩ := eq_cons_of_linked hm hrest
    exact ⟨rest', rfl⟩
  · cases h

/-- It makes no difference whether a mark is taken off before or after zeros are put in. -/
theorem stripMark_linked (cs : List Char) :
    Hex.stripMark (linked cs) = linked (Hex.stripMark cs) := by
  by_cases hmark : ∃ m ∈ ['x', 'X'], ∃ rest, cs = '0' :: m :: rest
  · obtain ⟨m, hm, rest, rfl⟩ := hmark
    simp only [List.mem_cons, List.not_mem_nil, or_false] at hm
    rcases hm with rfl | rfl
    · rw [linked_cons (by decide), linked_cons (by decide)]
      rfl
    · rw [linked_cons (by decide), linked_cons (by decide)]
      rfl
  · have hcs : ∀ m ∈ ['x', 'X'], ∀ rest, cs ≠ '0' :: m :: rest :=
      fun m hm rest heq => hmark ⟨m, hm, rest, heq⟩
    have hlinked : ∀ m ∈ ['x', 'X'], ∀ rest, linked cs ≠ '0' :: m :: rest := by
      intro m hm rest heq
      have hne : m ≠ '0' := by
        rintro rfl
        simp at hm
      obtain ⟨rest', hrest⟩ := eq_mark_of_linked hne heq
      exact hcs m hm rest' hrest
    rw [hexStripMark_eq_self hlinked, hexStripMark_eq_self hcs]

/-! ## Accepted objects -/

/-- The object behind its first mark. -/
def unmarked (object : String) : List Char := stripMark (Text.trim object.toList)

theorem isAscii_of_encode (h : (Hex.stripMark cs).map Char.toLower = Hex.encode code) :
    isAscii cs = true := by
  obtain ⟨mark, hmark, hcs⟩ := Hex.exists_mark_append_stripMark cs
  have hall : ∀ mark ∈ ["", "0x", "0X"], isAscii mark.toList = true := by decide
  have hdigits : isAscii (Hex.stripMark cs) = true :=
    List.all_eq_true.mpr fun c hc => decide_eq_true (Hex.isDigit_of_encode h c hc).isAscii
  rw [hcs, isAscii, List.all_append, Bool.and_eq_true]
  exact ⟨hall mark hmark, hdigits⟩

/-- What an object denotes: the digits behind both marks, with zeros for placeholders. -/
theorem decode_eq_ok_iff :
    decode object = .ok code ↔ isAscii (unmarked object) = true ∧
      (linked (Hex.stripMark (unmarked object))).map Char.toLower = Hex.encode code := by
  show Hex.decode (if isAscii (unmarked object) then linked (unmarked object)
    else unmarked object) = .ok code ↔ _
  rw [Hex.decode_eq_decodePairs, Hex.decodePairs_encode_eq_ok_iff]
  split
  · next hascii => rw [stripMark_linked, and_iff_right hascii]
  · next hascii =>
    constructor
    · exact fun h => absurd (isAscii_of_encode h) hascii
    · exact fun h => absurd h.1 hascii

/-- An accepted object is made of digits and placeholders behind its marks, two characters for each
byte. -/
theorem exists_parts_of_decode (h : decode object = .ok code) :
    2 * code.length = (Hex.stripMark (unmarked object)).length ∧
      ∃ body cut, Hex.stripMark (unmarked object) = body ++ cut ∧ IsWhole body ∧
        (cut = [] ∨ IsCut cut) := by
  obtain ⟨-, hdigits⟩ := decode_eq_ok_iff.mp h
  constructor
  · have hlength := congrArg List.length hdigits
    rw [List.length_map, length_linked, Hex.length_encode] at hlength
    exact hlength.symm
  · exact exists_parts_of_linked (Hex.isDigit_of_encode hdigits)

/-- An object is accepted for its digits and placeholders, of which the last may be cut. -/
theorem exists_decode_iff :
    (∃ code, decode object = .ok code) ↔ isAscii (unmarked object) = true ∧
      ∃ body cut, Hex.stripMark (unmarked object) = body ++ cut ∧ IsWhole body ∧
        (cut = [] ∨ IsCut cut) ∧ (body ++ cut).length % 2 = 0 := by
  constructor
  · rintro ⟨code, h⟩
    obtain ⟨hlength, body, cut, hsplit, hbody, hcut⟩ := exists_parts_of_decode h
    rw [hsplit] at hlength
    exact ⟨(decode_eq_ok_iff.mp h).1, body, cut, hsplit, hbody, hcut, by omega⟩
  · rintro ⟨hascii, body, cut, hsplit, hbody, hcut, heven⟩
    have hlength : (linked (body ++ cut)).length = 2 * ((body ++ cut).length / 2) := by
      rw [length_linked]
      omega
    -- every even number of digits encodes some code
    obtain ⟨code, -, hcode⟩ := Hex.exists_encode_of_digits hlength (isDigit_linked hbody hcut)
    exact ⟨code, decode_eq_ok_iff.mpr ⟨hascii, by rw [hsplit, hcode]⟩⟩

/-! ## Well-formed objects -/

/-- The object is digits and whole placeholders behind one mark or none, with two characters for
each byte of the code. -/
def WellFormed (object : String) (code : Bytes) : Prop :=
  ∃ mark ∈ ["", "0x"], ∃ body, Text.trim object.toList = mark.toList ++ body ∧ IsWhole body ∧
    2 * code.length = body.length

theorem exists_mark_append_unmarked (object : String) :
    ∃ mark ∈ ["", "0x"], Text.trim object.toList = mark.toList ++ unmarked object := by
  unfold unmarked stripMark
  split
  · next rest heq => exact ⟨"0x", by decide, heq⟩
  · exact ⟨"", by decide, rfl⟩

theorem WellFormed.isWhole_unmarked (h : WellFormed object code) : IsWhole (unmarked object) := by
  obtain ⟨mark, hmark, body, htrim, hbody, -⟩ := h
  have hunmarked : unmarked object = body := by
    rw [unmarked, htrim]
    simp only [List.mem_cons, List.not_mem_nil, or_false] at hmark
    rcases hmark with rfl | rfl
    · exact stripMark_eq_self (hbody.ne_mark 'x' (by decide))
    · rfl
  rw [hunmarked]
  exact hbody

/-- **Which objects are accepted.** Behind its first mark an object has to be ASCII, and behind one
more mark or none it has to be digits and placeholders, an even number of characters; only the last
placeholder may be cut. An accepted object is well-formed exactly when it has no second mark and no
placeholder of it is cut. -/
theorem accepted_objects (object : String) :
    ((∃ code, decode object = .ok code) ↔ isAscii (unmarked object) = true ∧
      ∃ body cut, Hex.stripMark (unmarked object) = body ++ cut ∧ IsWhole body ∧
        (cut = [] ∨ IsCut cut) ∧ (body ++ cut).length % 2 = 0) ∧
    ∀ code, decode object = .ok code →
      (WellFormed object code ↔
        Hex.stripMark (unmarked object) = unmarked object ∧
          ∀ body cut, IsWhole body → IsCut cut → unmarked object ≠ body ++ cut) := by
  refine ⟨exists_decode_iff, fun code h => ⟨?_, ?_⟩⟩
  · intro hwell
    have hwhole := hwell.isWhole_unmarked
    refine ⟨hexStripMark_eq_self hwhole.ne_mark, ?_⟩
    rintro body cut hbody hcut heq
    exact hbody.not_cut hcut (heq ▸ hwhole)
  · rintro ⟨hmark, hnotCut⟩
    obtain ⟨hlength, body, cut, hsplit, hbody, hcut⟩ := exists_parts_of_decode h
    rw [hmark] at hlength hsplit
    -- nothing is cut, so the body is all there is
    obtain rfl : cut = [] := hcut.resolve_right fun hcut => hnotCut body cut hbody hcut hsplit
    rw [List.append_nil] at hsplit
    obtain ⟨mark, hmem, htrim⟩ := exists_mark_append_unmarked object
    exact ⟨mark, hmem, unmarked object, htrim, hsplit ▸ hbody, hlength⟩

/-- An object with a placeholder in the middle is accepted, and is well-formed. -/
theorem accepted_objects_placeholder :
    let object := "0x73__$f3a0a6f2c1c3d6c8bb41a30ce3d8f1b7e3$__5A"
    let code := 0x73 :: List.replicate 20 0 ++ [0x5a]
    decode object = .ok code ∧ WellFormed object code := by
  intro object code
  have hread : decode object = .ok code := decode_eq_ok_iff.mpr (by decide +kernel)
  have hwhole : IsWhole (unmarked object) := by
    have htext : unmarked object = '7' :: '3' :: '_' :: '_' ::
        ("$f3a0a6f2c1c3d6c8bb41a30ce3d8f1b7e3$__".toList ++ ['5', 'A']) := by
      decide +kernel
    rw [htext]
    exact .digit (by decide) (.digit (by decide)
      (.placeholder (by decide) (.digit (by decide) (.digit (by decide) .nil))))
  refine ⟨hread, ((accepted_objects object).2 code hread).mpr ⟨by decide +kernel, ?_⟩⟩
  intro body cut hbody hcut heq
  exact hbody.not_cut hcut (heq ▸ hwhole)

/-- An object may be accepted that is not well-formed: the two underscores at the end are all that
there is of a placeholder, and are read as a byte. -/
theorem cut_placeholder_accepted :
    ¬ ∀ object code, decode object = .ok code → WellFormed object code := by
  intro h
  have hread : decode "60__" = .ok [0x60, 0] := decode_eq_ok_iff.mpr (by decide +kernel)
  have hwhole : IsWhole ("60".toList ++ "__".toList) := (h _ _ hread).isWhole_unmarked
  have hbody : IsWhole "60".toList := .digit (by decide) (.digit (by decide) .nil)
  exact hbody.not_cut ⟨[], rfl, by decide⟩ hwhole

end TxForensics.Object
