import Mathlib.Data.List.TakeWhile
import TxForensics.Configuration.Loose

/-!
# Texts of variables that can be read

The value of a variable cannot be read if a quoted text in it is cut within a character. Text is cut
in front of a backslash only, and not within a character of one octet: a text that has no backslash
is read, and so is one whose characters take one octet each (`exists_ofLoose`).

This carries over to what is left of a text behind a part that was read, for that is an end of the
text (`LeavesEnd`).
-/

namespace TxForensics.SettingValue

/-- A text without backslashes, or with characters of one octet only. -/
def Plain (cs : List Char) : Prop := '\\' ∉ cs ∨ ∀ c ∈ cs, Text.Utf8.width c = 1

theorem Plain.subset {cs ds : List Char} (h : Plain cs) (hsub : ds ⊆ cs) : Plain ds := by
  rcases h with h | h
  · exact .inl fun hmem => h (hsub hmem)
  · exact .inr fun c hc => h c (hsub hc)

theorem Plain.suffix {cs ds : List Char} (h : Plain cs) (hsuffix : ds <:+ cs) : Plain ds :=
  h.subset hsuffix.subset

/-- Trimming takes characters away and adds none. -/
theorem Plain.trim {cs : List Char} (h : Plain cs) : Plain (Text.trim cs) := by
  apply h.subset
  intro c hc
  have hend : c ∈ (Text.trimStart cs).reverse.dropWhile Text.isBlank := List.mem_reverse.mp hc
  have hstart : c ∈ Text.trimStart cs :=
    List.mem_reverse.mp ((List.dropWhile_suffix _).subset hend)
  exact (List.dropWhile_suffix _).subset hstart

/-! ## Reading without a cut -/

/-- Whether a part is malformed or is read as something `good`. -/
def Reads (good : α → Prop) : Except LooseError α → Prop
  | .ok a => good a
  | .error .malformed => True
  | .error (.divided _) => False

/-- Parts are read one after the other, each from what the one before has left. -/
theorem Reads.bind {good : α → Prop} {good' : β → Prop} {x : Except LooseError α}
    {f : α → Except LooseError β} (hx : Reads good x) (hf : ∀ a, good a → Reads good' (f a)) :
    Reads good' (x >>= f) := by
  match x with
  | .ok a => exact hf a hx
  | .error .malformed => exact trivial
  | .error (.divided d) => exact hx

theorem Reads.map {good : α → Prop} {good' : β → Prop} {x : Except LooseError α} {f : α → β}
    (hx : Reads good x) (hf : ∀ a, good a → good' (f a)) : Reads good' (x.map f) := by
  match x with
  | .ok a => exact hf a hx
  | .error .malformed => exact trivial
  | .error (.divided d) => exact hx

theorem reads_orMalformed {good : α → Prop} {read : Option α} (h : ∀ a, read = some a → good a) :
    Reads good (orMalformed read) := by
  cases read with
  | none => exact trivial
  | some a => exact h a rfl

/-- Whether a plain text is read so that what is left of it is an end of it. -/
def LeavesEnd (left : α → List Char) (reader : List Char → Except LooseError α) : Prop :=
  ∀ cs, Plain cs → Reads (fun a => left a <:+ cs) (reader cs)

/-- What is left of an end of a text is an end of the text. -/
theorem LeavesEnd.of_suffix {left : α → List Char} {reader : List Char → Except LooseError α}
    (hreader : LeavesEnd left reader) {cs rest : List Char} (h : Plain cs) (hrest : rest <:+ cs) :
    Reads (fun a => left a <:+ cs) (reader rest) := by
  have hread := hreader rest (h.suffix hrest)
  revert hread
  match reader rest with
  | .ok a => exact fun hleft => hleft.trans hrest
  | .error .malformed => exact id
  | .error (.divided d) => exact id

/-! ## Quoted texts -/

/-- A quoted text is made of characters of the text, and what is left of it is an end. -/
theorem spanQuoted?_spec {cs content rest : List Char} (h : spanQuoted? cs = some (content, rest)) :
    content ⊆ cs ∧ rest <:+ cs := by
  -- over the scan, which takes an escaped character along with its backslash
  induction cs using spanQuoted?.induct generalizing content with
  | case1 => cases h
  | case2 cs =>
    obtain ⟨rfl, rfl⟩ := Prod.mk.inj (Option.some.inj h)
    exact ⟨List.nil_subset _, List.suffix_cons _ _⟩
  | case3 c cs ih =>
    obtain ⟨⟨content', rest'⟩, hspan, heq⟩ := Option.map_eq_some_iff.mp h
    obtain ⟨rfl, rfl⟩ := Prod.mk.inj heq
    obtain ⟨hcontent, hrest⟩ := ih hspan
    refine ⟨?_, (hrest.trans (List.suffix_cons _ _)).trans (List.suffix_cons _ _)⟩
    exact List.cons_subset_cons _ (List.cons_subset_cons _ hcontent)
  | case4 c cs hquote hescape ih =>
    rw [spanQuoted?] at h
    · obtain ⟨⟨content', rest'⟩, hspan, heq⟩ := Option.map_eq_some_iff.mp h
      obtain ⟨rfl, rfl⟩ := Prod.mk.inj heq
      obtain ⟨hcontent, hrest⟩ := ih hspan
      exact ⟨List.cons_subset_cons _ hcontent, hrest.trans (List.suffix_cons _ _)⟩
    · exact hquote
    · exact hescape

/-- A plain text is cut between its characters, if at all. -/
theorem reads_unescape {content : List Char} (h : Plain content) :
    Reads (fun _ => True) (unescape content) := by
  unfold unescape
  dsimp only
  split
  case isTrue => exact trivial
  case isFalse =>
    -- without a backslash there is nothing to cut, and one-octet characters cannot be divided
    rcases h with hescape | hwidth
    · have hplain : ∀ c ∈ content, (decide (c ≠ '\\')) = true := by
        intro c hc
        exact decide_eq_true fun heq => hescape (heq ▸ hc)
      rw [List.dropWhile_eq_nil_iff.mpr hplain]
      exact trivial
    · split
      case isTrue => exact trivial
      case isFalse =>
        rw [Text.takeOctets_of_width_eq_one fun c hc =>
          hwidth c ((List.takeWhile_prefix _).subset hc)]
        exact (reads_orMalformed (fun _ _ => trivial)).bind fun _ _ => trivial

theorem leavesEnd_readQuoted : LeavesEnd Prod.snd readQuoted := by
  intro cs h
  have hspan : Reads (fun span => span.1 ⊆ cs ∧ span.2 <:+ cs) (orMalformed (spanQuoted? cs)) :=
    reads_orMalformed fun _ => spanQuoted?_spec
  apply hspan.bind
  rintro ⟨content, rest⟩ ⟨hcontent, hrest⟩
  exact (reads_unescape (h.subset hcontent)).bind fun _ _ => hrest

theorem leavesEnd_afterName : LeavesEnd id afterName := by
  intro cs h
  unfold afterName
  split
  case h_1 rest =>
    exact (leavesEnd_readQuoted.of_suffix h (List.suffix_cons _ _)).map fun _ hread => hread
  case h_2 => exact List.dropWhile_suffix _

/-! ## Values -/

theorem trimStart_suffix (cs : List Char) : Text.trimStart cs <:+ cs := List.dropWhile_suffix _

theorem suffix_of_trimStart_eq {cs rest : List Char} {c : Char}
    (h : Text.trimStart cs = c :: rest) : rest <:+ cs :=
  (List.suffix_cons c rest).trans (h ▸ trimStart_suffix cs)

section

variable {fuel : Nat} (hvalue : LeavesEnd Prod.snd (readLoose fuel))
  (hitems : LeavesEnd id (readLooseItems fuel)) (hmembers : LeavesEnd id (readLooseMembers fuel))

include hitems hmembers in
/-- A value is a sequence, a table, a quoted text, a character or anything else up to a mark. -/
theorem leavesEnd_readLoose_succ : LeavesEnd Prod.snd (readLoose (fuel + 1)) := by
  intro cs h
  -- blanks behind a value are taken off, and the rest is still an end
  have htrim : ∀ {x : Except LooseError (SettingValue × List Char)},
      Reads (fun read => read.2 <:+ cs) x →
      Reads (fun read => read.2 <:+ cs) (x >>= fun read => pure (read.1, Text.trimStart read.2)) :=
    fun hx => hx.bind fun _ hread => (trimStart_suffix _).trans hread
  rw [readLoose]
  split
  case h_1 rest heq =>
    apply htrim
    exact (hitems.of_suffix h (suffix_of_trimStart_eq heq)).map fun _ hread => hread
  case h_2 rest heq =>
    apply htrim
    exact (hmembers.of_suffix h (suffix_of_trimStart_eq heq)).map fun _ hread => hread
  case h_3 rest heq =>
    apply htrim
    exact (leavesEnd_readQuoted.of_suffix h (suffix_of_trimStart_eq heq)).map fun _ hread => hread
  case h_4 c rest heq =>
    have hrest : rest <:+ [c, '\x27'] ++ rest := List.suffix_append _ _
    exact htrim (x := .ok _) (hrest.trans (suffix_of_trimStart_eq heq))
  case h_5 => exact trivial
  case h_6 =>
    apply htrim (x := .ok _)
    exact (List.dropWhile_suffix _).trans (trimStart_suffix cs)

include hvalue hitems in
theorem leavesEnd_readLooseItems_succ : LeavesEnd id (readLooseItems (fuel + 1)) := by
  intro cs h
  rw [readLooseItems]
  split
  case h_1 rest heq => exact suffix_of_trimStart_eq heq
  case h_2 =>
    apply (hvalue.of_suffix h (trimStart_suffix cs)).bind
    intro read hread
    split
    case h_1 rest => exact (List.suffix_cons _ _).trans hread
    case h_2 rest => exact hitems.of_suffix h ((List.suffix_cons _ _).trans hread)
    case h_3 => exact trivial

include hvalue hmembers in
theorem leavesEnd_readLooseMembers_succ : LeavesEnd id (readLooseMembers (fuel + 1)) := by
  intro cs h
  rw [readLooseMembers]
  split
  case h_1 rest heq => exact suffix_of_trimStart_eq heq
  case h_2 =>
    apply (leavesEnd_afterName.of_suffix h (trimStart_suffix cs)).bind
    intro named hnamed
    split
    case h_1 rest heq =>
      have hrest : rest <:+ cs := (suffix_of_trimStart_eq heq).trans hnamed
      apply (hvalue.of_suffix h hrest).bind
      intro read hread
      split
      case h_1 rest => exact (List.suffix_cons _ _).trans hread
      case h_2 rest => exact hmembers.of_suffix h ((List.suffix_cons _ _).trans hread)
      case h_3 => exact trivial
    case h_2 => exact trivial

end

/-- By induction on the fuel, which the three readers pass to one another. -/
theorem leavesEnd_readers (fuel : Nat) :
    LeavesEnd Prod.snd (readLoose fuel) ∧ LeavesEnd id (readLooseItems fuel) ∧
      LeavesEnd id (readLooseMembers fuel) := by
  induction fuel with
  | zero => exact ⟨fun _ _ => trivial, fun _ _ => trivial, fun _ _ => trivial⟩
  | succ fuel ih =>
    obtain ⟨hvalue, hitems, hmembers⟩ := ih
    exact ⟨leavesEnd_readLoose_succ hitems hmembers, leavesEnd_readLooseItems_succ hvalue hitems,
      leavesEnd_readLooseMembers_succ hvalue hmembers⟩

/-- **A plain text is read as a value.** -/
theorem exists_ofLoose {text : List Char} (h : Plain text) : ∃ v, ofLoose text = .ok v := by
  have hreads := (leavesEnd_readers (2 * text.length + 2)).1 text h
  unfold ofLoose
  split
  case h_1 v _ => exact ⟨v, rfl⟩
  case h_2 d hread =>
    rw [hread] at hreads
    exact hreads.elim
  case h_3 => exact ⟨_, rfl⟩

end TxForensics.SettingValue
