import TxForensics.Json.Document
import TxForensics.Proofs.Json.Token

/-!
# Reading printed trees

What a lossless tree prints is read as its document, and as its tree with the members of every
object in the order of their keys:

    ofText_print : Document.ofText j.print = ⟨.ofJson j, true⟩
    parse_print  : Json.parse j.print = .ok j.sorted
-/

namespace TxForensics

namespace Json

open Document

/-! ## Documents of tokens -/

/-- Whether the tokens of a tree are read as that tree, given fuel for two calls a token. -/
def ParsesBack (j : Json) : Prop :=
  ∀ fuel ts, 2 * (tokens j).length ≤ fuel →
    parseValue fuel (tokens j ++ ts) = ⟨.ofJson j, .ok ts⟩

/-- A tree has a token at least, and none begins with the end of an array. -/
theorem exists_tokens_eq_cons (j : Json) :
    ∃ token rest, tokens j = token :: rest ∧ token ≠ .closeBracket := by
  cases j <;> exact ⟨_, _, by rw [tokens], by simp⟩

theorem exists_itemTokens_eq_cons (j : Json) (js : List Json) :
    ∃ token rest, itemTokens (j :: js) = token :: rest ∧ token ≠ .closeBracket := by
  obtain ⟨token, rest, htokens, hne⟩ := exists_tokens_eq_cons j
  cases js with
  | nil => exact ⟨token, rest, htokens, hne⟩
  | cons k js =>
    refine ⟨token, rest ++ .comma :: itemTokens (k :: js), ?_, hne⟩
    rw [itemTokens, htokens, List.cons_append]
    simp

theorem exists_memberTokens_eq_cons (m : String × Json) (ms : List (String × Json)) :
    ∃ k rest, memberTokens (m :: ms) = .text (some k) :: rest := by
  cases ms <;> exact ⟨_, _, rfl⟩

theorem length_tokens_pos (j : Json) : 0 < (tokens j).length := by
  obtain ⟨token, rest, htokens, -⟩ := exists_tokens_eq_cons j
  simp [htokens]

/-- Items are read one by one up to the bracket, with fuel for two calls a token. -/
theorem parseItems_itemTokens {items : List Json} (hne : items ≠ [])
    (hitems : ∀ j ∈ items, ParsesBack j) {fuel : Nat} {ts : List JsonToken}
    (hfuel : 2 * (itemTokens items).length < fuel) :
    parseItems fuel (itemTokens items ++ .closeBracket :: ts) = ⟨itemsOfJson items, .ok ts⟩ := by
  -- over the items, each of which uses up the fuel of its own tokens
  induction items generalizing fuel with
  | nil => exact absurd rfl hne
  | cons j js ih =>
    obtain ⟨fuel, rfl⟩ := Nat.exists_eq_succ_of_ne_zero (Nat.ne_of_gt (Nat.zero_lt_of_lt hfuel))
    have hj := hitems j List.mem_cons_self
    cases js with
    | nil =>
      rw [itemTokens] at hfuel ⊢
      rw [parseItems, hj fuel _ (by omega)]
      rfl
    | cons k js =>
      have hpos := length_tokens_pos j
      rw [itemTokens, List.length_append, List.length_cons] at hfuel
      · have hrest : parseItems fuel (itemTokens (k :: js) ++ .closeBracket :: ts) =
            ⟨itemsOfJson (k :: js), .ok ts⟩ :=
          ih (by simp) (fun j hj => hitems j (List.mem_cons_of_mem _ hj)) (by omega)
        rw [itemTokens, List.append_assoc, List.cons_append, parseItems, hj fuel _ (by omega)]
        · simp only [hrest]
          rfl
        · simp
      · simp

/-- Members are read one by one up to the brace, with fuel for two calls a token. -/
theorem parseMembers_memberTokens {ms : List (String × Json)} (hne : ms ≠ [])
    (hmembers : ∀ m ∈ ms, ParsesBack m.2) {fuel : Nat} {ts : List JsonToken}
    (hfuel : 2 * (memberTokens ms).length < fuel) :
    parseMembers fuel (memberTokens ms ++ .closeBrace :: ts) = ⟨membersOfJson ms, .ok ts⟩ := by
  -- as for items, with the key and the colon in front of each value
  induction ms generalizing fuel with
  | nil => exact absurd rfl hne
  | cons m ms ih =>
    obtain ⟨k, j⟩ := m
    obtain ⟨fuel, rfl⟩ := Nat.exists_eq_succ_of_ne_zero (Nat.ne_of_gt (Nat.zero_lt_of_lt hfuel))
    have hj : ParsesBack j := hmembers (k, j) List.mem_cons_self
    cases ms with
    | nil =>
      rw [memberTokens, List.length_cons, List.length_cons] at hfuel
      rw [memberTokens, List.cons_append, List.cons_append, parseMembers, hj fuel _ (by omega)]
      rfl
    | cons m ms =>
      rw [memberTokens, List.length_cons, List.length_cons, List.length_append,
        List.length_cons] at hfuel
      · have hrest : parseMembers fuel (memberTokens (m :: ms) ++ .closeBrace :: ts) =
            ⟨membersOfJson (m :: ms), .ok ts⟩ :=
          ih (by simp) (fun m hm => hmembers m (List.mem_cons_of_mem _ hm)) (by omega)
        rw [memberTokens, List.cons_append, List.cons_append, List.append_assoc, List.cons_append,
          parseMembers, hj fuel _ (by omega)]
        · simp only [hrest]
          rfl
        · simp
      · simp

/-- An array with something in it is its items. -/
theorem parseValue_openBracket {token : JsonToken} (h : token ≠ .closeBracket) (fuel : Nat)
    (ts : List JsonToken) :
    parseValue (fuel + 1) (.openBracket :: token :: ts) =
      ⟨.array (parseItems fuel (token :: ts)).value, (parseItems fuel (token :: ts)).rest⟩ := by
  cases token with
  | closeBracket => exact absurd rfl h
  | _ => rfl

/-- The tokens of a lossless tree are read as that tree. -/
theorem parseValue_tokens {depth : Nat} {j : Json} (h : Lossless depth j) : ParsesBack j := by
  induction h with
  | null | bool | text | integer =>
    intro fuel ts hfuel
    obtain ⟨fuel, rfl⟩ := Nat.exists_eq_add_of_le' (Nat.le_trans (by decide : 1 ≤ 2) hfuel)
    rfl
  | @array _ items _ ih =>
    intro fuel ts hfuel
    rw [tokens, List.length_cons, List.length_append, List.length_singleton] at hfuel
    obtain ⟨fuel, rfl⟩ : ∃ n, fuel = n + 1 := ⟨fuel - 1, by omega⟩
    rw [tokens, List.cons_append, List.append_assoc, List.singleton_append]
    -- an empty array is closed at once, without a call for its items
    cases items with
    | nil => rfl
    | cons j js =>
      have hitems : parseItems fuel (itemTokens (j :: js) ++ .closeBracket :: ts) =
          ⟨itemsOfJson (j :: js), .ok ts⟩ :=
        parseItems_itemTokens (List.cons_ne_nil j js) ih (by omega)
      obtain ⟨token, rest, hhead, hne⟩ := exists_itemTokens_eq_cons j js
      rw [hhead, List.cons_append] at hitems ⊢
      rw [parseValue_openBracket hne, hitems, ofJson]
  | @object _ ms _ _ ih =>
    intro fuel ts hfuel
    rw [tokens, List.length_cons, List.length_append, List.length_singleton] at hfuel
    obtain ⟨fuel, rfl⟩ : ∃ n, fuel = n + 1 := ⟨fuel - 1, by omega⟩
    rw [tokens, List.cons_append, List.append_assoc, List.singleton_append]
    cases ms with
    | nil => rfl
    | cons m ms =>
      have hmembers : parseMembers fuel (memberTokens (m :: ms) ++ .closeBrace :: ts) =
          ⟨membersOfJson (m :: ms), .ok ts⟩ :=
        parseMembers_memberTokens (List.cons_ne_nil m ms) ih (by omega)
      obtain ⟨k, rest, hhead⟩ := exists_memberTokens_eq_cons m ms
      rw [hhead, List.cons_append] at hmembers ⊢
      show (⟨.object (parseMembers fuel _).value, (parseMembers fuel _).rest⟩ : Parsed Document) = _
      rw [hmembers, ofJson]

/-! ## Trees of documents -/

mutual

/-- The tree with the members of every object in the order of their keys. -/
def sorted : Json → Json
  | null => null
  | bool b => bool b
  | number n => number n
  | text s => text s
  | array items => array (sortedItems items)
  | object ms => object (sortedMembers [] ms)

def sortedItems : List Json → List Json
  | [] => []
  | j :: js => j.sorted :: sortedItems js

/-- The members of an object among those before, in the order of their keys. -/
def sortedMembers (before : List (String × Json)) : List (String × Json) → List (String × Json)
  | [] => before
  | (k, j) :: ms => sortedMembers (insertByKey k j.sorted before) ms

end

theorem treeItems_itemsOfJson {depth : Nat} {items : List Json}
    (hitems : ∀ j ∈ items, (ofJson j).tree depth = .ok j.sorted) :
    treeItems depth (itemsOfJson items) = .ok (sortedItems items) := by
  induction items with
  | nil => rfl
  | cons j js ih =>
    have hrest := ih fun j hj => hitems j (List.mem_cons_of_mem _ hj)
    simp only [itemsOfJson, treeItems, hitems j List.mem_cons_self, hrest, sortedItems]

/-- Members go into the order of their keys as they are read. -/
theorem treeMembers_membersOfJson {depth : Nat} {ms : List (String × Json)}
    (hmembers : ∀ m ∈ ms, (ofJson m.2).tree depth = .ok m.2.sorted)
    (before : List (String × Json)) :
    treeMembers depth before (membersOfJson ms) = .ok (sortedMembers before ms) := by
  induction ms generalizing before with
  | nil => rfl
  | cons m ms ih =>
    obtain ⟨k, j⟩ := m
    have hj : (ofJson j).tree depth = .ok j.sorted := hmembers (k, j) List.mem_cons_self
    have hrest := ih fun m hm => hmembers m (List.mem_cons_of_mem _ hm)
    simp only [membersOfJson, treeMembers, hj, hrest, sortedMembers]

/-- A lossless tree is the tree of its document, up to the order of members. -/
theorem tree_ofJson {depth : Nat} {j : Json} (h : Lossless depth j) :
    (ofJson j).tree depth = .ok j.sorted := by
  induction h with
  | null | bool | text | integer => rfl
  | array _ ih =>
    rw [ofJson, tree, if_neg (Nat.succ_ne_zero _), Nat.add_sub_cancel, treeItems_itemsOfJson ih,
      sorted]
    rfl
  | object _ _ ih =>
    rw [ofJson, tree, if_neg (Nat.succ_ne_zero _), Nat.add_sub_cancel,
      treeMembers_membersOfJson ih, sorted]
    rfl

/-! ## Texts -/

theorem tokenize_print {depth : Nat} {j : Json} (h : Lossless depth j) :
    JsonToken.tokenize j.print.toList = tokens j := by
  have hend : JsonToken.EndsNumber [] := by simp [JsonToken.EndsNumber]
  rw [print, String.toList_ofList, tokenize_printOnto h [] hend]
  exact List.append_nil _

/-- What a lossless tree prints is read as its document. -/
theorem ofText_print {depth : Nat} {j : Json} (h : Lossless depth j) :
    Document.ofText j.print = ⟨.ofJson j, true⟩ := by
  have hparse : parseValue (2 * (tokens j).length + 1) (tokens j) = ⟨.ofJson j, .ok []⟩ := by
    have hvalue := parseValue_tokens h (2 * (tokens j).length + 1) [] (Nat.le_succ _)
    rwa [List.append_nil] at hvalue
  rw [Document.ofText, tokenize_print h, ofTokens, hparse]

/-- What a lossless tree prints is read as that tree, up to the order of members. -/
theorem parse_print {j : Json} (h : Lossless depthLimit j) : Json.parse j.print = .ok j.sorted := by
  rw [Json.parse, ofText_print h]
  simp only [tree_ofJson h, if_true]

end Json

end TxForensics
