import TxForensics.Proofs.Json.Order

/-!
# Trees with a hole

What a tree is read as depends on the value at one place of it only through what is read there:

    whole (tree with j in its hole) = part j >>= rest

unless reading stops before it comes to the hole. Where a change of what is read there makes a
change of the same kind in the result, the hole is *read through* (`ReadsThrough`). This holds of
the fields of a record, whether it is written as an object or as an array, and of the items of a
list, and it goes on from the outer hole to the inner one (`ReadsThrough.trans`). So a value that is
refused at its place refuses the whole tree, and two values that are read there make no difference
but their own.
-/

namespace TxForensics

/-- Whether the result of `whole` depends on the value in a hole only through what `part` reads of
it: reading stops before the hole, or goes on with what was read there, and changing that changes
the result by `lift` and in no other way. -/
inductive ReadsThrough (whole : Json → Except JsonShapeError β)
    (part : Json → Except JsonShapeError α) (lift : (α → α) → β → β) : Prop
  | stops {e : JsonShapeError} (hwhole : ∀ j, whole j = .error e)
  | goesOn (rest : α → Except JsonShapeError β) (hwhole : ∀ j, whole j = part j >>= rest)
      (hrest : ∀ change a, rest (change a) = (rest a).map (lift change))

namespace ReadsThrough

variable {whole : Json → Except JsonShapeError γ} {middle : Json → Except JsonShapeError β}
  {part : Json → Except JsonShapeError α} {lift : (β → β) → γ → γ} {lift' : (α → α) → β → β}

/-- What is read behind the hole may be read on, if that keeps to the change. -/
theorem bind (h : ReadsThrough middle part lift') (next : β → Except JsonShapeError γ)
    {lift'' : (α → α) → γ → γ}
    (hnext : ∀ change b, next (lift' change b) = (next b).map (lift'' change)) :
    ReadsThrough (fun j => middle j >>= next) part lift'' := by
  cases h with
  -- reading that stops before the hole stops the whole
  | stops hmiddle => exact .stops fun j => by rw [hmiddle j]; rfl
  | goesOn rest hmiddle hrest =>
    refine .goesOn (fun a => rest a >>= next) (fun j => ?_) fun change a => ?_
    · rw [hmiddle j]
      cases part j <;> rfl
    · show rest (change a) >>= next = (rest a >>= next).map _
      rw [hrest change a]
      cases rest a with
      | error e => rfl
      | ok b => exact hnext change b

/-- A hole in a part that stands in a hole is read through. -/
theorem trans (houter : ReadsThrough whole middle lift) (hinner : ReadsThrough middle part lift') :
    ReadsThrough whole part fun change => lift (lift' change) := by
  cases houter with
  | stops hwhole => exact .stops hwhole
  | goesOn rest hwhole hrest =>
    have h := hinner.bind rest fun change b => hrest (lift' change) b
    rwa [← funext hwhole] at h

/-- What is read through stays so when the hole is filled in another way. -/
theorem comp (h : ReadsThrough whole middle lift) (fill : Json → Json) :
    ReadsThrough (whole ∘ fill) (middle ∘ fill) lift := by
  cases h with
  | stops hwhole => exact .stops fun j => hwhole (fill j)
  | goesOn rest hwhole hrest => exact .goesOn rest (fun j => hwhole (fill j)) hrest

/-- A value that is refused refuses the whole. -/
theorem exists_error (h : ReadsThrough whole middle lift) {j : Json} {e : JsonShapeError}
    (hj : middle j = .error e) : ∃ e, whole j = .error e := by
  cases h with
  | stops hwhole => exact ⟨_, hwhole j⟩
  | goesOn _ hwhole _ => exact ⟨e, by rw [hwhole j, hj]; rfl⟩

/-- Of two values that are read, the second makes of the whole what the first makes of it, but for
what is read at their place. -/
theorem eq_map (h : ReadsThrough whole middle lift) {j j' : Json} {b b' : β}
    (hj : middle j = .ok b) (hj' : middle j' = .ok b') :
    whole j' = (whole j).map (lift fun _ => b') := by
  cases h with
  | stops hwhole => rw [hwhole j, hwhole j']; rfl
  | goesOn _ hwhole hrest =>
    rw [hwhole j, hwhole j', hj, hj']
    exact hrest (fun _ => b') b

end ReadsThrough

/-! ## Lists -/

/-- An item of a list is read through. -/
theorem Document.list_readsThrough (read : Document → Except JsonShapeError α)
    (before after : List Json) :
    ReadsThrough (fun j => Document.list read (.ofJson (.array (before ++ j :: after))))
      (fun j => read (.ofJson j)) fun change as => as.modify before.length change := by
  -- over the items before the hole: one that is refused stops reading, any other is put in front
  induction before with
  | nil =>
    refine .goesOn (fun a => (readItems read (itemsOfJson after)).map (a :: ·))
      (fun j => ?_) fun change a => ?_
    · show readItems read (.cons (.ofJson j) (itemsOfJson after)) = _
      rw [readItems]
      cases read (.ofJson j) with
      | error e => rfl
      | ok a => cases readItems read (itemsOfJson after) <;> rfl
    · cases readItems read (itemsOfJson after) <;> rfl
  | cons item before ih =>
    have hcons (j : Json) : Document.list read (.ofJson (.array (item :: before ++ j :: after))) =
        (do
          let a ← read (.ofJson item)
          let as ← Document.list read (.ofJson (.array (before ++ j :: after)))
          return a :: as) := rfl
    simp only [hcons]
    cases read (.ofJson item) with
    | error e => exact .stops fun j => rfl
    | ok a => exact ih.bind (fun as => .ok (a :: as)) fun change as => rfl

/-! ## Records -/

/-- Whether reading a field keeps to a change of the record. -/
def RecordField.Keeps (f : RecordField ρ) (change : ρ → ρ) : Prop :=
  ∀ r d, f.read (change r) d = (f.read r d).map change

/-- A field that sets another part of a record than the change keeps to it. -/
@[simp] theorem RecordField.keeps_of_set {name : String} {required : Bool}
    {read : Document → Except JsonShapeError α} {set : ρ → α → ρ} {change : ρ → ρ}
    (hset : ∀ r a, set (change r) a = change (set r a)) :
    Keeps ⟨name, required, fun r d => (read d).map (set r)⟩ change := by
  intro r d
  show (read d).map (set (change r)) = ((read d).map (set r)).map change
  cases read d with
  | error e => rfl
  | ok a => exact congrArg Except.ok (hset r a)

/-- Whether a field sets what `read` reads, so that changing what is read is a change of the
record. -/
def RecordField.Sets (f : RecordField ρ) (read : Document → Except JsonShapeError α)
    (lift : (α → α) → ρ → ρ) : Prop :=
  ∃ set : ρ → α → ρ, (∀ r d, f.read r d = (read d).map (set r)) ∧
    ∀ change r a, set r (change a) = lift change (set r a)

@[simp] theorem RecordField.sets_of_set {name : String} {required : Bool}
    {read : Document → Except JsonShapeError α} {set : ρ → α → ρ} {lift : (α → α) → ρ → ρ}
    (hset : ∀ change r a, set r (change a) = lift change (set r a)) :
    Sets ⟨name, required, fun r d => (read d).map (set r)⟩ read lift :=
  ⟨set, fun _ _ => rfl, hset⟩

/-- What a shape says of one of its fields: how it is read, and that a change of what is read is a
change of the record to which all other fields keep. -/
structure RecordShape.HasField (s : RecordShape ρ) (name : String)
    (read : Document → Except JsonShapeError α) (lift : (α → α) → ρ → ρ) : Prop where
  names : (s.fields.map RecordField.name).Nodup
  mem : name ∈ s.fields.map RecordField.name
  sets : ∀ f ∈ s.fields, f.name = name → f.Sets read lift
  keeps : ∀ f ∈ s.fields, f.name ≠ name → ∀ change, f.Keeps (lift change)

/-- A tree of a record with a hole for one of its fields: as a member of an object, or as the item
of an array at the position of the field. -/
inductive RecordHole (s : RecordShape ρ) (name : String) where
  | member (before after : List (String × Json))
  | item (before after : List Json)
      (hposition : (s.fields.map RecordField.name)[before.length]? = some name)

def RecordHole.fill {s : RecordShape ρ} {name : String} : RecordHole s name → Json → Json
  | .member before after, j => .object (before ++ (name, j) :: after)
  | .item before after _, j => .array (before ++ j :: after)

namespace RecordShape

variable {s : RecordShape ρ} {name : String} {read : Document → Except JsonShapeError α}
  {lift : (α → α) → ρ → ρ}

/-! ### Behind the hole -/

theorem readMembers_cons (seen : List String) (r : ρ) (m : String × Json)
    (ms : List (String × Json)) :
    s.readMembers seen r (Document.membersOfJson (m :: ms)) =
      match s.fields.find? (·.name == m.1) with
      | none => s.readMembers seen r (Document.membersOfJson ms)
      | some f =>
        if seen.contains m.1 then .error (.duplicateField m.1)
        else f.read r (.ofJson m.2) >>= fun r =>
          s.readMembers (m.1 :: seen) r (Document.membersOfJson ms) := rfl

/-- Reading members keeps to a change if their fields do; a field that has been seen is read no
more. -/
theorem readMembers_map {change : ρ → ρ} (ms : List (String × Json)) {seen : List String}
    (hkeeps : ∀ f ∈ s.fields, f.name ∉ seen → f.Keeps change) (r : ρ) :
    s.readMembers seen (change r) (Document.membersOfJson ms) =
      (s.readMembers seen r (Document.membersOfJson ms)).map (Prod.map id change) := by
  induction ms generalizing seen r with
  | nil => rfl
  | cons m ms ih =>
    rw [readMembers_cons, readMembers_cons]
    cases hfield : s.fields.find? (·.name == m.1) with
    | none => exact ih hkeeps r
    | some f =>
      have hname : f.name = m.1 := by simpa using List.find?_some hfield
      -- a name that comes again is refused with and without the change
      by_cases hseen : seen.contains m.1
      · simp only [if_pos hseen]
        rfl
      · have hread := hkeeps f (List.mem_of_find?_eq_some hfield)
          (by simpa [hname] using hseen) r (.ofJson m.2)
        simp only [if_neg hseen, hread]
        cases f.read r (.ofJson m.2) with
        | error e => rfl
        | ok r => exact ih (fun g hg hlater => hkeeps g hg fun h => hlater (.tail _ h)) r

/-- Reading items keeps to a change if the fields at their positions do. -/
theorem readItems_map {change : ρ → ρ} {fields : List (RecordField ρ)}
    (hkeeps : ∀ f ∈ fields, f.Keeps change) (position : Nat) (r : ρ) (items : List Json) :
    s.readItems position (change r) fields (Document.itemsOfJson items) =
      (s.readItems position r fields (Document.itemsOfJson items)).map change := by
  induction fields generalizing position r items with
  | nil => cases items <;> rfl
  | cons f fields ih =>
    obtain ⟨hf, hfields⟩ := List.forall_mem_cons.mp hkeeps
    cases items with
    | nil =>
      show (if f.required then _ else s.readItems (position + 1) (change r) fields _) =
        Except.map change (if f.required then _ else s.readItems (position + 1) r fields _)
      split
      · rfl
      · exact ih hfields (position + 1) r []
    | cons j items =>
      show (f.read (change r) (.ofJson j) >>= fun r => s.readItems (position + 1) r fields _) =
        (f.read r (.ofJson j) >>= fun r => s.readItems (position + 1) r fields _).map change
      rw [hf r (.ofJson j)]
      cases f.read r (.ofJson j) with
      | error e => rfl
      | ok r => exact ih hfields (position + 1) r items

/-! ### The hole -/

/-- A member with the name of the field is read through. -/
theorem readMembers_readsThrough (h : s.HasField name read lift)
    (before after : List (String × Json)) (seen : List String) (r : ρ) :
    ReadsThrough
      (fun j => s.readMembers seen r (Document.membersOfJson (before ++ (name, j) :: after)))
      (fun j => read (.ofJson j)) fun change => Prod.map id (lift change) := by
  -- over the members before the hole, with the names seen and the record made so far
  induction before generalizing seen r with
  | nil =>
    simp only [List.nil_append, readMembers_cons]
    cases hfield : s.fields.find? (·.name == name) with
    | none =>
      obtain ⟨f, hf, hname⟩ := List.mem_map.mp h.mem
      exact absurd (List.find?_eq_none.mp hfield f hf) (by simp [hname])
    | some f =>
      have hname : f.name = name := by simpa using List.find?_some hfield
      by_cases hseen : seen.contains name
      · simp only [if_pos hseen]
        exact .stops fun j => rfl
      · obtain ⟨set, hread, hset⟩ := h.sets f (List.mem_of_find?_eq_some hfield) hname
        simp only [if_neg hseen, hread]
        refine .goesOn (fun a =>
          s.readMembers (name :: seen) (set r a) (Document.membersOfJson after))
          (fun j => ?_) fun change a => ?_
        · cases read (.ofJson j) <;> rfl
        · rw [hset]
          -- the name is among those seen, so no later member sets the field again
          refine readMembers_map after (fun g hg hlater => h.keeps g hg ?_ change) (set r a)
          rintro rfl
          exact hlater List.mem_cons_self
  | cons m before ih =>
    simp only [List.cons_append, readMembers_cons]
    cases s.fields.find? (·.name == m.1) with
    | none => exact ih seen r
    | some f =>
      by_cases hseen : seen.contains m.1
      · simp only [if_pos hseen]
        exact .stops fun j => rfl
      · simp only [if_neg hseen]
        cases f.read r (.ofJson m.2) with
        | error e => exact .stops fun j => rfl
        | ok r => exact ih (m.1 :: seen) r

/-- An item at the position of the field is read through. -/
theorem readItems_readsThrough (h : s.HasField name read lift) (before after : List Json)
    {fields passed : List (RecordField ρ)} (hfields : s.fields = passed ++ fields)
    (hposition : (fields.map RecordField.name)[before.length]? = some name)
    (position : Nat) (r : ρ) :
    ReadsThrough
      (fun j => s.readItems position r fields (Document.itemsOfJson (before ++ j :: after)))
      (fun j => read (.ofJson j)) lift := by
  -- over the items before the hole, each of which passes a field
  induction before generalizing fields passed position r with
  | nil =>
    cases fields with
    | nil => cases hposition
    | cons f fields =>
      obtain rfl : f.name = name := by simpa using hposition
      have hnames := h.names
      rw [hfields, List.map_append, List.map_cons, List.nodup_append] at hnames
      have hothers : f.name ∉ fields.map RecordField.name := (List.nodup_cons.mp hnames.2.1).1
      obtain ⟨set, hread, hset⟩ := h.sets f (by simp [hfields]) rfl
      refine .goesOn (fun a =>
        s.readItems (position + 1) (set r a) fields (Document.itemsOfJson after))
        (fun j => ?_) fun change a => ?_
      · show (f.read r (.ofJson j) >>= fun r => s.readItems (position + 1) r fields _) = _
        rw [hread]
        cases read (.ofJson j) <;> rfl
      · rw [hset]
        refine readItems_map (fun g hg => h.keeps g (by simp [hfields, hg]) ?_ change) _ _ _
        intro heq
        exact hothers (heq ▸ List.mem_map_of_mem hg)
  | cons item before ih =>
    cases fields with
    | nil => cases hposition
    | cons f fields =>
      have hstep (j : Json) :
          s.readItems position r (f :: fields)
              (Document.itemsOfJson (item :: before ++ j :: after)) =
            f.read r (.ofJson item) >>= fun r => s.readItems (position + 1) r fields
              (Document.itemsOfJson (before ++ j :: after)) := rfl
      simp only [hstep]
      cases f.read r (.ofJson item) with
      | error e => exact .stops fun j => rfl
      | ok r =>
        exact ih (by rw [hfields, List.append_cons]) (by simpa using hposition) (position + 1) r

/-- **A field of a record is read through**, in an object and in an array. -/
theorem HasField.readsThrough (h : s.HasField name read lift) (hole : RecordHole s name) :
    ReadsThrough (fun j => s.read (.ofJson (hole.fill j))) (fun j => read (.ofJson j)) lift := by
  cases hole with
  | member before after =>
    apply (readMembers_readsThrough h before after [] s.blank).bind
    rintro change ⟨seen, r⟩
    -- whether a field is missing is told by the names that have been seen
    dsimp only [Prod.map, id]
    cases s.fields.find? fun field => field.required && !seen.contains field.name <;> rfl
  | item before after hposition =>
    exact readItems_readsThrough h before after (List.nil_append _).symm hposition 0 s.blank

end RecordShape

end TxForensics
