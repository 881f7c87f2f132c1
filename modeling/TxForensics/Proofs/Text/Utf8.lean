import TxForensics.Text.Utf8

/-!
# Well-formed UTF-8 is written in one way

`decode?` accepts nothing that `encode` would have written otherwise: the octets of the characters
it finds are the octets it read (`encode_of_decode?`). So different octets never read as the same
text.

The other way round, the octets of a text are cut into its characters again, and nothing is replaced
(`decodeLossy_encode`). Both directions meet in `next`, which splits a character off exactly when
the octets begin with its encoding.
-/

namespace TxForensics.Text.Utf8

/-- A number outside of the surrogates is that of its character. -/
theorem toNat_ofNat_of_isValidChar {n : Nat} (h : n < 0xD800 ∨ 0xDFFF < n ∧ n < 0x110000) :
    (Char.ofNat n).toNat = n := by
  rw [Char.ofNat, dif_pos h]
  rfl

theorem toUInt8_eq {n : Nat} {b : UInt8} (h : n = b.toNat) : n.toUInt8 = b := by
  rw [h, Nat.toUInt8, UInt8.ofNat_toNat]

/-! ## Characters by the number of their octets -/

variable {lead b c d : UInt8}

theorem encodeChar_one (hlead : lead.toNat < 0x80) :
    encodeChar (.ofNat lead.toNat) = [lead] := by
  rw [encodeChar, toNat_ofNat_of_isValidChar (by omega)]
  rw [if_pos hlead, toUInt8_eq rfl]

theorem encodeChar_two (hlead : 0xC2 ≤ lead.toNat ∧ lead.toNat ≤ 0xDF)
    (hb : 0x80 ≤ b.toNat ∧ b.toNat ≤ 0xBF) :
    encodeChar (.ofNat (lead.toNat % 32 * 64 + payload b)) = [lead, b] := by
  have hpayload : payload b = b.toNat - 0x80 := by rw [payload]; omega
  rw [hpayload, encodeChar, toNat_ofNat_of_isValidChar (by omega)]
  rw [if_neg (by omega), if_pos (by omega), toUInt8_eq (b := lead) (by omega),
    toUInt8_eq (b := b) (by omega)]

theorem encodeChar_three (hlead : 0xE0 ≤ lead.toNat ∧ lead.toNat ≤ 0xEF)
    (hb : 0x80 ≤ b.toNat ∧ b.toNat ≤ 0xBF) (hc : 0x80 ≤ c.toNat ∧ c.toNat ≤ 0xBF)
    (hoverlong : lead.toNat = 0xE0 → 0xA0 ≤ b.toNat)
    (hsurrogate : lead.toNat = 0xED → b.toNat ≤ 0x9F) :
    encodeChar (.ofNat ((lead.toNat % 16 * 64 + payload b) * 64 + payload c)) = [lead, b, c] := by
  have hpayload : payload b = b.toNat - 0x80 := by rw [payload]; omega
  have hpayload' : payload c = c.toNat - 0x80 := by rw [payload]; omega
  rw [hpayload, hpayload', encodeChar, toNat_ofNat_of_isValidChar (by omega)]
  rw [if_neg (by omega), if_neg (by omega), if_pos (by omega), toUInt8_eq (b := lead) (by omega),
    toUInt8_eq (b := b) (by omega), toUInt8_eq (b := c) (by omega)]

theorem encodeChar_four (hlead : 0xF0 ≤ lead.toNat ∧ lead.toNat ≤ 0xF4)
    (hb : 0x80 ≤ b.toNat ∧ b.toNat ≤ 0xBF) (hc : 0x80 ≤ c.toNat ∧ c.toNat ≤ 0xBF)
    (hd : 0x80 ≤ d.toNat ∧ d.toNat ≤ 0xBF) (hoverlong : lead.toNat = 0xF0 → 0x90 ≤ b.toNat)
    (hlast : lead.toNat = 0xF4 → b.toNat ≤ 0x8F) :
    encodeChar (.ofNat
        (((lead.toNat % 8 * 64 + payload b) * 64 + payload c) * 64 + payload d)) =
      [lead, b, c, d] := by
  have hpayload : payload b = b.toNat - 0x80 := by rw [payload]; omega
  have hpayload' : payload c = c.toNat - 0x80 := by rw [payload]; omega
  have hpayload'' : payload d = d.toNat - 0x80 := by rw [payload]; omega
  rw [hpayload, hpayload', hpayload'', encodeChar, toNat_ofNat_of_isValidChar (by omega)]
  rw [if_neg (by omega), if_neg (by omega), if_neg (by omega), toUInt8_eq (b := lead) (by omega),
    toUInt8_eq (b := b) (by omega), toUInt8_eq (b := c) (by omega), toUInt8_eq (b := d) (by omega)]

/-! ## What the tests of the reader say -/

theorem isContinuation_iff : isContinuation b = true ↔ 0x80 ≤ b.toNat ∧ b.toNat ≤ 0xBF := by
  simp [isContinuation, UInt8.le_iff_toNat_le]

/-- The first octet tells how many follow. -/
theorem following?_eq_some {count : Nat} (h : following? lead = some count) :
    (count = 0 ∧ lead.toNat < 0x80) ∨ (count = 1 ∧ 0xC2 ≤ lead.toNat ∧ lead.toNat ≤ 0xDF) ∨
      (count = 2 ∧ 0xE0 ≤ lead.toNat ∧ lead.toNat ≤ 0xEF) ∨
      (count = 3 ∧ 0xF0 ≤ lead.toNat ∧ lead.toNat ≤ 0xF4) := by
  rw [following?] at h
  split at h
  · next hlt => exact .inl ⟨(Option.some.inj h).symm, UInt8.lt_iff_toNat_lt.mp hlt⟩
  split at h
  · next _ hle =>
    exact .inr (.inl ⟨(Option.some.inj h).symm, UInt8.le_iff_toNat_le.mp hle.1,
      UInt8.le_iff_toNat_le.mp hle.2⟩)
  split at h
  · next _ _ hle =>
    exact .inr (.inr (.inl ⟨(Option.some.inj h).symm, UInt8.le_iff_toNat_le.mp hle.1,
      UInt8.le_iff_toNat_le.mp hle.2⟩))
  split at h
  · next _ _ _ hle =>
    exact .inr (.inr (.inr ⟨(Option.some.inj h).symm, UInt8.le_iff_toNat_le.mp hle.1,
      UInt8.le_iff_toNat_le.mp hle.2⟩))
  · cases h

/-- A second octet continues, and excludes what has a shorter form or is no character. -/
theorem bounds_of_isSecond (h : isSecond lead b = true) :
    (0x80 ≤ b.toNat ∧ b.toNat ≤ 0xBF) ∧ (lead.toNat = 0xE0 → 0xA0 ≤ b.toNat) ∧
      (lead.toNat = 0xED → b.toNat ≤ 0x9F) ∧ (lead.toNat = 0xF0 → 0x90 ≤ b.toNat) ∧
      (lead.toNat = 0xF4 → b.toNat ≤ 0x8F) := by
  obtain ⟨hcontinues, hbound⟩ := Bool.and_eq_true_iff.mp h
  refine ⟨isContinuation_iff.mp hcontinues, ?_⟩
  have hlead : ∀ n : UInt8, lead = n ↔ lead.toNat = n.toNat := fun n => UInt8.toNat_inj.symm
  simp only [hlead] at hbound
  refine ⟨fun h => ?_, fun h => ?_, fun h => ?_, fun h => ?_⟩ <;>
    simpa [h, UInt8.le_iff_toNat_le] using hbound

/-- The octets of the character that is split off, and the rest, are what was there. -/
theorem encodeChar_of_next {rest tail : List UInt8} {ch : Char}
    (h : next lead rest = (some ch, tail)) : encodeChar ch ++ tail = lead :: rest := by
  unfold next at h
  -- one case for each number of octets; every other way through `next` gives no character
  split at h
  · next hfollowing =>
    have hlead := following?_eq_some hfollowing
    cases h
    rw [encodeChar_one (by omega), List.singleton_append]
  · next b r hfollowing =>
    have hlead := following?_eq_some hfollowing
    split at h
    · next hsecond =>
      obtain ⟨hb, -⟩ := bounds_of_isSecond hsecond
      cases h
      rw [encodeChar_two (by omega) hb, List.cons_append, List.singleton_append]
    · cases h
  · next b r hfollowing =>
    have hlead := following?_eq_some hfollowing
    split at h
    · next hsecond =>
      obtain ⟨hb, hoverlong, hsurrogate, -, -⟩ := bounds_of_isSecond hsecond
      split at h
      · next c r' =>
        split at h
        · next hc =>
          cases h
          rw [encodeChar_three (by omega) hb (isContinuation_iff.mp hc) hoverlong hsurrogate]
          rfl
        · cases h
      · cases h
    · cases h
  · next b r hfollowing =>
    have hlead := following?_eq_some hfollowing
    split at h
    · next hsecond =>
      obtain ⟨hb, -, -, hoverlong, hlast⟩ := bounds_of_isSecond hsecond
      split at h
      · next c r' =>
        split at h
        · next hc =>
          split at h
          · next d r'' =>
            split at h
            · next hd =>
              cases h
              rw [encodeChar_four (by omega) hb (isContinuation_iff.mp hc)
                (isContinuation_iff.mp hd) hoverlong hlast]
              rfl
            · cases h
          · cases h
        · cases h
      · cases h
    · cases h
  · cases h

/-! ## Whole texts -/

/-- What is read as a text is the encoding of that text. -/
theorem encode_of_decode? {octets : List UInt8} {cs : List Char} (h : decode? octets = some cs) :
    encode cs = octets := by
  rw [decode?] at h
  -- along the pieces that the reader cuts: one character, then the octets behind it
  induction octets using pieces.induct generalizing cs with
  | case1 =>
    rw [pieces] at h
    cases h
    rfl
  | case2 lead rest ih =>
    rw [pieces, List.mapM_cons] at h
    obtain ⟨c, hc, hrest⟩ := Option.bind_eq_some_iff.mp h
    obtain ⟨cs', hcs', heq⟩ := Option.bind_eq_some_iff.mp hrest
    cases heq
    have hnext : next lead rest = (some c, (next lead rest).2) := Prod.ext hc rfl
    rw [encode, List.flatMap_cons, ← encode, ih hcs']
    exact encodeChar_of_next hnext

/-- Different octets never read as the same text. -/
theorem decode?_injective {octets octets' : List UInt8} {cs : List Char}
    (h : decode? octets = some cs) (h' : decode? octets' = some cs) : octets = octets' := by
  rw [← encode_of_decode? h, ← encode_of_decode? h']

/-! ## Reading what was written -/

theorem following?_eq (lead : UInt8) :
    following? lead =
      if lead.toNat < 0x80 then some 0
      else if 0xC2 ≤ lead.toNat ∧ lead.toNat ≤ 0xDF then some 1
      else if 0xE0 ≤ lead.toNat ∧ lead.toNat ≤ 0xEF then some 2
      else if 0xF0 ≤ lead.toNat ∧ lead.toNat ≤ 0xF4 then some 3
      else none := rfl

/-- The bounds of `bounds_of_isSecond` are all that is asked of a second octet. -/
theorem isSecond_of_bounds (hb : 0x80 ≤ b.toNat ∧ b.toNat ≤ 0xBF)
    (hthree : lead.toNat = 0xE0 → 0xA0 ≤ b.toNat) (hsurrogate : lead.toNat = 0xED → b.toNat ≤ 0x9F)
    (hfour : lead.toNat = 0xF0 → 0x90 ≤ b.toNat) (hlast : lead.toNat = 0xF4 → b.toNat ≤ 0x8F) :
    isSecond lead b = true := by
  rw [isSecond, isContinuation_iff.mpr hb, Bool.true_and]
  split
  · next hlead => exact decide_eq_true (hthree (congrArg UInt8.toNat hlead))
  split
  · next _ hlead => exact decide_eq_true (hsurrogate (congrArg UInt8.toNat hlead))
  split
  · next _ _ hlead => exact decide_eq_true (hfour (congrArg UInt8.toNat hlead))
  split
  · next _ _ _ hlead => exact decide_eq_true (hlast (congrArg UInt8.toNat hlead))
  · rfl

theorem toNat_toUInt8 {n : Nat} (h : n < 256) : n.toUInt8.toNat = n := Nat.mod_eq_of_lt h

theorem toNat_continuation (n : Nat) : (0x80 + n % 64).toUInt8.toNat = 0x80 + n % 64 :=
  toNat_toUInt8 (by omega)

theorem isContinuation_of_mod (n : Nat) : isContinuation (0x80 + n % 64).toUInt8 = true := by
  rw [isContinuation_iff, toNat_continuation]
  omega

theorem next_one {n : Nat} (hn : n < 0x80) (rest : List UInt8) :
    next n.toUInt8 rest = (some (.ofNat n), rest) := by
  have hlead : n.toUInt8.toNat = n := toNat_toUInt8 (by omega)
  have hfollowing : following? n.toUInt8 = some 0 := by
    rw [following?_eq, hlead, if_pos hn]
  simp only [next, hfollowing, hlead]

theorem next_two {n : Nat} (hn : 0x80 ≤ n ∧ n < 0x800) (rest : List UInt8) :
    next (0xC0 + n / 64).toUInt8 ((0x80 + n % 64).toUInt8 :: rest) = (some (.ofNat n), rest) := by
  have hlead : (0xC0 + n / 64).toUInt8.toNat = 0xC0 + n / 64 := toNat_toUInt8 (by omega)
  have hb := toNat_continuation n
  have hfollowing : following? (0xC0 + n / 64).toUInt8 = some 1 := by
    rw [following?_eq, hlead, if_neg (by omega), if_pos (by omega)]
  have hsecond : isSecond (0xC0 + n / 64).toUInt8 (0x80 + n % 64).toUInt8 = true := by
    apply isSecond_of_bounds <;> omega
  have hnumber : (0xC0 + n / 64) % 32 * 64 + (0x80 + n % 64) % 64 = n := by omega
  simp only [next, hfollowing, hsecond, if_true, payload, hlead, hb, hnumber]

theorem next_three {n : Nat} (hn : 0x800 ≤ n ∧ n < 0x10000) (hvalid : n < 0xD800 ∨ 0xDFFF < n)
    (rest : List UInt8) :
    next (0xE0 + n / 4096).toUInt8
        ((0x80 + n / 64 % 64).toUInt8 :: (0x80 + n % 64).toUInt8 :: rest) =
      (some (.ofNat n), rest) := by
  have hlead : (0xE0 + n / 4096).toUInt8.toNat = 0xE0 + n / 4096 := toNat_toUInt8 (by omega)
  have hb := toNat_continuation (n / 64)
  have hc := toNat_continuation n
  have hfollowing : following? (0xE0 + n / 4096).toUInt8 = some 2 := by
    rw [following?_eq, hlead, if_neg (by omega), if_neg (by omega), if_pos (by omega)]
  have hsecond : isSecond (0xE0 + n / 4096).toUInt8 (0x80 + n / 64 % 64).toUInt8 = true := by
    apply isSecond_of_bounds <;> omega
  have hthird := isContinuation_of_mod n
  have hnumber : ((0xE0 + n / 4096) % 16 * 64 + (0x80 + n / 64 % 64) % 64) * 64 +
      (0x80 + n % 64) % 64 = n := by
    omega
  simp only [next, hfollowing, hsecond, hthird, if_true, payload, hlead, hb, hc, hnumber]

theorem next_four {n : Nat} (hn : 0x10000 ≤ n ∧ n < 0x110000) (rest : List UInt8) :
    next (0xF0 + n / 262144).toUInt8
        ((0x80 + n / 4096 % 64).toUInt8 :: (0x80 + n / 64 % 64).toUInt8 ::
          (0x80 + n % 64).toUInt8 :: rest) =
      (some (.ofNat n), rest) := by
  have hlead : (0xF0 + n / 262144).toUInt8.toNat = 0xF0 + n / 262144 := toNat_toUInt8 (by omega)
  have hb := toNat_continuation (n / 4096)
  have hc := toNat_continuation (n / 64)
  have hd := toNat_continuation n
  have hfollowing : following? (0xF0 + n / 262144).toUInt8 = some 3 := by
    rw [following?_eq, hlead, if_neg (by omega), if_neg (by omega), if_neg (by omega),
      if_pos (by omega)]
  have hsecond : isSecond (0xF0 + n / 262144).toUInt8 (0x80 + n / 4096 % 64).toUInt8 = true := by
    apply isSecond_of_bounds <;> omega
  have hthird := isContinuation_of_mod (n / 64)
  have hfourth := isContinuation_of_mod n
  have hnumber : (((0xF0 + n / 262144) % 8 * 64 + (0x80 + n / 4096 % 64) % 64) * 64 +
      (0x80 + n / 64 % 64) % 64) * 64 + (0x80 + n % 64) % 64 = n := by
    omega
  simp only [next, hfollowing, hsecond, hthird, hfourth, if_true, payload, hlead, hb, hc, hd,
    hnumber]

/-- The encoding of a character is split off whatever follows it. -/
theorem next_encodeChar (ch : Char) (rest : List UInt8) :
    ∃ lead tail, encodeChar ch = lead :: tail ∧ next lead (tail ++ rest) = (some ch, rest) := by
  have hvalid : ch.toNat < 0xD800 ∨ 0xDFFF < ch.toNat ∧ ch.toNat < 0x110000 := ch.valid
  have hch : Char.ofNat ch.toNat = ch := Char.ofNat_toNat ch
  rw [encodeChar]
  -- a character has one octet for each of the bounds that it reaches, and one more
  split
  · next hone =>
    refine ⟨_, [], rfl, ?_⟩
    rw [List.nil_append, next_one hone, hch]
  split
  · next hone htwo =>
    refine ⟨_, [_], rfl, ?_⟩
    rw [List.cons_append, List.nil_append, next_two ⟨by omega, htwo⟩, hch]
  split
  · next hone htwo hthree =>
    refine ⟨_, [_, _], rfl, ?_⟩
    rw [List.cons_append, List.cons_append, List.nil_append,
      next_three ⟨by omega, hthree⟩ (by omega), hch]
  · next hone htwo hthree =>
    refine ⟨_, [_, _, _], rfl, ?_⟩
    rw [List.cons_append, List.cons_append, List.cons_append, List.nil_append,
      next_four (by omega), hch]

/-- The octets of a text are cut into its characters. -/
theorem pieces_encode (cs : List Char) : pieces (encode cs) = cs.map some := by
  induction cs with
  | nil => rw [encode, List.flatMap_nil, pieces, List.map_nil]
  | cons c cs ih =>
    obtain ⟨lead, tail, hencode, hnext⟩ := next_encodeChar c (encode cs)
    rw [encode, List.flatMap_cons, ← encode, hencode, List.cons_append, pieces, hnext, ih,
      List.map_cons]

/-- The octets of a text are read as that text. -/
theorem decode?_encode (cs : List Char) : decode? (encode cs) = some cs := by
  rw [decode?, pieces_encode]
  induction cs with
  | nil => rfl
  | cons c cs ih =>
    rw [List.map_cons, List.mapM_cons, ih]
    rfl

/-- The encoding of a text reads as that text. -/
theorem decodeLossy_encode (cs : List Char) : decodeLossy (encode cs) = cs := by
  rw [decodeLossy, pieces_encode, List.map_map]
  exact List.map_id cs

/-! ## ASCII characters -/

/-- What holds of the first 128 characters one by one holds of every ASCII character. -/
theorem forall_ascii {p : Char → Prop} (h : ∀ k < 128, p (.ofNat k)) (c : Char)
    (hc : c.toNat < 128) : p c := by
  rw [← Char.ofNat_toNat c]
  exact h c.toNat hc

theorem size_append (cs ds : List Char) : size (cs ++ ds) = size cs + size ds := by
  induction cs with
  | nil => exact (Nat.zero_add _).symm
  | cons c cs ih => rw [List.cons_append, size, size, ih, Nat.add_assoc]

/-- A text has no fewer octets than characters, -/
theorem length_le_size (cs : List Char) : cs.length ≤ size cs := by
  induction cs with
  | nil => exact Nat.le_refl _
  | cons c cs ih =>
    have hwidth := width_pos c
    rw [List.length_cons, size]
    omega

/-- and just as many if all of these are ASCII. -/
theorem size_of_ascii {cs : List Char} (h : ∀ c ∈ cs, c.toNat < 0x80) : size cs = cs.length := by
  induction cs with
  | nil => rfl
  | cons c cs ih =>
    have hwidth : width c = 1 := if_pos (h c List.mem_cons_self)
    rw [size, hwidth, ih fun d hd => h d (List.mem_cons_of_mem c hd), List.length_cons,
      Nat.add_comm]

/-- An octet below 128 stands for the character with its number, and occurs in no other one. -/
theorem eq_of_mem_encodeChar {b : UInt8} {ch : Char} (h : b ∈ encodeChar ch)
    (hb : b.toNat < 0x80) : b.toNat = ch.toNat := by
  have hvalid : ch.toNat < 0xD800 ∨ 0xDFFF < ch.toNat ∧ ch.toNat < 0x110000 := ch.valid
  unfold encodeChar at h
  dsimp only at h
  split at h
  · next hone =>
    rw [List.mem_singleton.mp h]
    exact toNat_toUInt8 (by omega)
  -- every octet of a longer encoding is above 127
  · exfalso
    have hhigh {n : Nat} (hbn : b = n.toUInt8) : ¬ (0x80 ≤ n ∧ n < 256) := by
      rintro ⟨hle, hlt⟩
      rw [hbn, toNat_toUInt8 hlt] at hb
      omega
    split at h
    · simp only [List.mem_cons, List.not_mem_nil, or_false] at h
      rcases h with h | h <;> exact hhigh h (by omega)
    split at h
    · simp only [List.mem_cons, List.not_mem_nil, or_false] at h
      rcases h with h | h | h <;> exact hhigh h (by omega)
    · simp only [List.mem_cons, List.not_mem_nil, or_false] at h
      rcases h with h | h | h | h <;> exact hhigh h (by omega)

end TxForensics.Text.Utf8
