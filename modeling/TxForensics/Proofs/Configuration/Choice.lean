import TxForensics.Proofs.Configuration.Loose
import TxForensics.Proofs.Configuration.Naming

/-!
# One layer for each setting

For each setting something or nothing is given (`Given`): by its variable if there is one, else by
the file if its table has the key at the top. The settings of a file and an environment are these
values where they are given and the defaults elsewhere (`Chosen`), unless one of them has not the
type of its setting. Then there are none, and nothing that is given counts
(`Settings.chosen_or_default`).

    file          synthetic_lookback = "many"     neighbor_tolerance = 2
    environment   synthetic_lookback = 32                                   function_context = false
    settings      32                              2                         false

Variables without the mark are of no account here, and a file may have any other keys.
-/

namespace TxForensics

namespace Configuration

variable {table : List (String × TomlValue)} {env : List (String × String)} {key : String}
  {entries : List (String × SettingValue)}

/-! ## What is given for a setting -/

def givenBy (text : String) : Except Text.DividedCharacter SettingValue :=
  SettingValue.ofLoose (Text.trim text.toList)

/-- The text of the variable of a setting. Names that differ in the case of letters are of one
setting, and the last one counts. -/
def variableText? (env : List (String × String)) (key : String) : Option String :=
  (env.reverse.find? fun e => decide (NamedAfter key e.1)).map Prod.snd

/-- Whether all variables with the mark are named after settings and have texts that are read as
values, as all plain texts are (`OfSettings.of_plain`). -/
structure OfSettings (env : List (String × String)) : Prop where
  named : ∀ e ∈ env, IsMarked e.1 → ∃ key ∈ settingKeys, NamedAfter key e.1
  readable : ∀ e ∈ env, IsMarked e.1 → ∃ v, givenBy e.2 = .ok v

/-- Plain texts can be read. -/
theorem OfSettings.of_plain (hnamed : ∀ e ∈ env, ∃ key ∈ settingKeys, NamedAfter key e.1)
    (hplain : ∀ e ∈ env, SettingValue.Plain e.2.toList) : OfSettings env :=
  ⟨fun e he _ => hnamed e he, fun e he _ => SettingValue.exists_ofLoose (hplain e he).trim⟩

/-- What is given for a setting: by its variable if there is one, else by the file if its table has
the key, else nothing. -/
inductive Given (table : List (String × TomlValue)) (env : List (String × String)) (key : String) :
    Option SettingValue → Prop
  | byVariable {text : String} {v : SettingValue} (hvariable : variableText? env key = some text)
    (hv : givenBy text = .ok v) : Given table env key (some v)
  | byFile {v : TomlValue} (hvariable : variableText? env key = none)
    (hfile : table.lookup key = some v) : Given table env key (some (.ofToml v))
  | byDefault (hvariable : variableText? env key = none) (hfile : table.lookup key = none) :
    Given table env key none

/-- A variable counts for its setting if none of those behind it does. -/
theorem variableText?_cons (e : String × String) (env : List (String × String)) (key : String) :
    variableText? (e :: env) key =
      (variableText? env key).or (if NamedAfter key e.1 then some e.2 else none) := by
  rw [variableText?, List.reverse_cons, List.find?_append, Option.map_or]
  congr 1
  by_cases h : NamedAfter key e.1 <;> simp [h]

theorem variableEntries_of_not_isMarked {name text : String} (h : ¬ IsMarked name) :
    variableEntries ((name, text) :: env) = variableEntries env := by
  rw [variableEntries, variablePath?_of_not_isMarked h]

/-- The variable of a setting makes one entry. -/
theorem variableEntries_of_namedAfter {name text : String} {v : SettingValue}
    (hkey : key ∈ settingKeys) (hname : NamedAfter key name) (hv : givenBy text = .ok v) :
    variableEntries ((name, text) :: env) = (variableEntries env).map ((key, v) :: ·) := by
  have hentry : entryOf? [key.toList] v = some (key, v) := by
    rw [entryOf?, String.ofList_toList]
  rw [variableEntries, variablePath?_of_namedAfter hkey hname]
  show (givenBy text >>= fun v => variableEntries env >>= fun entries =>
    .ok ((entryOf? [key.toList] v).toList ++ entries)) = _
  rw [hv]
  show (variableEntries env >>= fun entries =>
    .ok ((entryOf? [key.toList] v).toList ++ entries)) = _
  rw [hentry]
  cases variableEntries env <;> rfl

/-- The last entry for a key is that of its last variable. -/
theorem exists_variableEntries (h : OfSettings env) :
    ∃ entries, variableEntries env = .ok entries ∧ ∀ key ∈ settingKeys,
      (entries.reverse.lookup key).map .ok = (variableText? env key).map givenBy := by
  -- over the variables in order, so that the last entry for a key is that of the last variable
  induction env with
  | nil => exact ⟨[], rfl, fun _ _ => rfl⟩
  | cons e env ih =>
    obtain ⟨name, text⟩ := e
    have hrest : OfSettings env :=
      ⟨fun e he => h.named e (.tail _ he), fun e he => h.readable e (.tail _ he)⟩
    obtain ⟨entries, hentries, hlookup⟩ := ih hrest
    by_cases hmarked : IsMarked name
    · obtain ⟨named, hnamed, hname⟩ := h.named _ List.mem_cons_self hmarked
      obtain ⟨v, hv⟩ := h.readable _ List.mem_cons_self hmarked
      refine ⟨(named, v) :: entries, ?_, ?_⟩
      · rw [variableEntries_of_namedAfter hnamed hname hv, hentries]
        rfl
      · intro key hkey
        -- the variable is named after one setting, so it counts for no other
        have hiff : NamedAfter key name ↔ key = named :=
          ⟨fun h => h.unique hkey hnamed hname, fun h => h ▸ hname⟩
        rw [variableText?_cons, List.reverse_cons, List.lookup_append, Option.map_or, Option.map_or,
          hlookup key hkey]
        congr 1
        by_cases heq : key = named
        · subst heq
          simp [hname, hv]
        · simp [hiff, heq]
    · refine ⟨entries, ?_, ?_⟩
      · rw [variableEntries_of_not_isMarked hmarked]
        exact hentries
      · intro key hkey
        rw [variableText?_cons, if_neg fun hname => hmarked (hname.isMarked hkey), Option.or_none]
        exact hlookup key hkey

/-- The variable of a setting has a value. -/
theorem OfSettings.exists_givenBy (h : OfSettings env) (hkey : key ∈ settingKeys) {text : String}
    (hvariable : variableText? env key = some text) : ∃ v, givenBy text = .ok v := by
  obtain ⟨e, hfind, rfl⟩ := Option.map_eq_some_iff.mp hvariable
  have hmem : e ∈ env := List.mem_reverse.mp (List.mem_of_find?_eq_some hfind)
  have hname : NamedAfter key e.1 := by simpa using List.find?_some hfind
  exact h.readable e hmem (hname.isMarked hkey)

/-- Something or nothing is given for every setting. -/
theorem exists_given (h : OfSettings env) (hkey : key ∈ settingKeys) :
    ∃ given, Given table env key given := by
  cases hvariable : variableText? env key with
  | some text =>
    obtain ⟨v, hv⟩ := h.exists_givenBy hkey hvariable
    exact ⟨_, .byVariable hvariable hv⟩
  | none =>
    cases hfile : table.lookup key with
    | some v => exact ⟨_, .byFile hvariable hfile⟩
    | none => exact ⟨_, .byDefault hvariable hfile⟩

/-! ## What layers choose -/

structure Layers.Hold (l : Layers) (table : List (String × TomlValue))
    (env : List (String × String)) : Prop where
  file : l.file = table
  environment : ∀ key ∈ settingKeys,
    (l.fromEnvironment? key).map .ok = (variableText? env key).map givenBy
  given : ∀ key ∈ settingKeys, ∃ given, Given table env key given

section

variable {l : Layers} (hl : l.Hold table env)
include hl

/-- What is given for a setting is what its layers choose. A sequence that goes into another is a
sequence all the same. -/
theorem Layers.Hold.chosen?_of_given {given : Option SettingValue} (hkey : key ∈ settingKeys)
    (h : Given table env key given) : (l.chosen? key).map Prod.snd = given := by
  have henv := hl.environment key hkey
  cases h with
  | byVariable hvariable hv =>
    rw [hvariable, Option.map_some, hv, Option.map_eq_some_iff] at henv
    obtain ⟨v, hentry, hok⟩ := henv
    obtain rfl := Except.ok.inj hok
    rw [chosen?, hentry]
    -- what the file has for the key counts at most where it is put together with the variable
    split
    case h_1 hv _ => exact congrArg some (Option.some.inj hv).symm
    case h_2 hv _ => exact congrArg some (Option.some.inj hv).symm
    case h_3 hv => cases hv
  | byFile hvariable hfile =>
    rw [hvariable, Option.map_none, Option.map_eq_none_iff] at henv
    simp [chosen?, henv, hl.file, hfile]
  | byDefault hvariable hfile =>
    rw [hvariable, Option.map_none, Option.map_eq_none_iff] at henv
    simp [chosen?, henv, hl.file, hfile]

/-- Since something or nothing is given for a setting, and its layers choose one thing, the two are
the same. -/
theorem Layers.Hold.given_iff {given : Option SettingValue} (hkey : key ∈ settingKeys) :
    Given table env key given ↔ (l.chosen? key).map Prod.snd = given := by
  constructor
  · exact hl.chosen?_of_given hkey
  · rintro rfl
    obtain ⟨given, hgiven⟩ := hl.given key hkey
    rw [hl.chosen?_of_given hkey hgiven]
    exact hgiven

end

/-! ## Types of settings -/

/-- Whether a value is a number of eight bytes. -/
inductive IsNumber : SettingValue → UInt64 → Prop
  | signed (n : UInt64) : IsNumber (.signed n.toNat) n
  | unsigned (n : UInt64) : IsNumber (.unsigned n.toNat) n

/-- Either kind of integer is taken for a number if it fits eight bytes. -/
theorem asNumber_eq_ok_iff {v : SettingValue} {n : UInt64} : asNumber v = .ok n ↔ IsNumber v n := by
  constructor
  · intro h
    cases v with
    | unsigned m =>
      rw [asNumber] at h
      split at h
      case isTrue hm =>
        obtain rfl := Except.ok.inj h
        -- a number below the bound is kept when it is cut to eight bytes
        have hmod : m.toUInt64.toNat = m := Nat.mod_eq_of_lt hm
        simpa only [hmod] using IsNumber.unsigned m.toUInt64
      case isFalse => cases h
    | signed m =>
      rw [asNumber] at h
      split at h
      case isTrue hm =>
        obtain rfl := Except.ok.inj h
        have hmod : m.toNat.toUInt64.toNat = m.toNat := Nat.mod_eq_of_lt (by omega)
        have hnumber := IsNumber.signed m.toNat.toUInt64
        rwa [hmod, Int.toNat_of_nonneg hm.1] at hnumber
      case isFalse => cases h
    | _ => cases h
  · intro h
    cases h with
    | signed =>
      have hn : n.toNat < 2 ^ 64 := n.toNat_lt
      rw [asNumber, if_pos (by omega), Int.toNat_natCast, Nat.toUInt64_eq, UInt64.ofNat_toNat]
    | unsigned =>
      rw [asNumber, if_pos n.toNat_lt, Nat.toUInt64_eq, UInt64.ofNat_toNat]

theorem asBool_eq_ok_iff {v : SettingValue} {b : Bool} : asBool v = .ok b ↔ v = .bool b := by
  cases v <;> simp [asBool]

theorem asText_eq_ok_iff {v : SettingValue} {s : String} : asText v = .ok s ↔ v = .text s := by
  cases v <;> simp [asText]

/-- Whether a value has the type of a setting. -/
def HasType (key : String) (v : SettingValue) : Prop :=
  if key = "function_context" then ∃ b, v = .bool b
  else if key = "generic_revert_message" then ∃ s, v = .text s
  else ∃ n, IsNumber v n

/-! ## Reading a setting -/

/-- Whether a setting takes the value `a`: what is given for it means `a`, or nothing is given and
`a` is the default. -/
def Takes (table : List (String × TomlValue)) (env : List (String × String)) (key : String)
    (means : SettingValue → α → Prop) (default a : α) : Prop :=
  (Given table env key none ∧ a = default) ∨ ∃ v, Given table env key (some v) ∧ means v a

section

variable {l : Layers} (hl : l.Hold table env) (hkey : key ∈ settingKeys)
  {typed : SettingValue → Except (String × Bool) α} {means : SettingValue → α → Prop}
  (htyped : ∀ v a, typed v = .ok a ↔ means v a) {default : α}
include hl hkey htyped

/-- A setting is read as what is given for it, or as the default. -/
theorem Layers.Hold.read_eq_ok_iff {a : α} :
    l.read key default typed = .ok a ↔ Takes table env key means default a := by
  unfold Takes
  simp only [hl.given_iff hkey, ← htyped]
  rw [read]
  cases l.chosen? key with
  | none => simp [eq_comm]
  | some chosen =>
    obtain ⟨source, v⟩ := chosen
    cases hv : typed v with
    | ok b => simp [hv]
    | error e => simp [hv]

/-- A setting that is refused is one for which something of another type is given. -/
theorem Layers.Hold.of_read_eq_error (htype : ∀ v, HasType key v ↔ ∃ a, means v a)
    {e : SettingError} (h : l.read key default typed = .error e) :
    e.key ∈ settingKeys ∧ Given table env e.key (some e.found) ∧ ¬ HasType e.key e.found := by
  rw [read] at h
  cases hchosen : l.chosen? key with
  | none => simp [hchosen] at h
  | some chosen =>
    obtain ⟨source, v⟩ := chosen
    cases hv : typed v with
    | ok b => simp [hchosen, hv] at h
    | error expected =>
      simp only [hchosen, hv, Except.error.injEq] at h
      subst h
      refine ⟨hkey, ?_, ?_⟩
      · rw [hl.given_iff hkey, hchosen]
        rfl
      · intro hfound
        obtain ⟨a, ha⟩ := (htype v).mp hfound
        rw [← htyped, hv] at ha
        cases ha

end

/-- Whether all settings have the values that are chosen for them. -/
structure Chosen (table : List (String × TomlValue)) (env : List (String × String))
    (s : Settings) : Prop where
  lookback : Takes table env "synthetic_lookback" IsNumber 20 s.lookback
  tolerance : Takes table env "neighbor_tolerance" IsNumber 5 s.tolerance
  withFunction : Takes table env "function_context" (fun v b => v = .bool b) true s.withFunction
  genericReason : Takes table env "generic_revert_message" (fun v t => v = .text t)
    "Transaction reverted" s.genericReason

theorem bind_eq_ok_iff {x : Except ε α} {f : α → Except ε β} {b : β} :
    x >>= f = .ok b ↔ ∃ a, x = .ok a ∧ f a = .ok b := by
  cases x with
  | error e =>
    constructor
    · intro h
      cases h
    · rintro ⟨a, ha, -⟩
      cases ha
  | ok a =>
    constructor
    · intro h
      exact ⟨a, rfl, h⟩
    · rintro ⟨_, ha, h⟩
      cases ha
      exact h

theorem bind_eq_error_iff {x : Except ε α} {f : α → Except ε β} {e : ε} :
    x >>= f = .error e ↔ x = .error e ∨ ∃ a, x = .ok a ∧ f a = .error e := by
  cases x with
  | error e' =>
    constructor
    · intro h
      cases h
      exact .inl rfl
    · rintro (h | ⟨a, ha, -⟩)
      · cases h
        rfl
      · cases ha
  | ok a =>
    constructor
    · intro h
      exact .inr ⟨a, rfl, h⟩
    · rintro (h | ⟨_, ha, h⟩)
      · cases h
      · cases ha
        exact h

namespace Layers

variable {l : Layers}

/-- There are settings only if all four are read. -/
theorem settings_eq_ok_iff {s : Settings} :
    l.settings = .ok s ↔
      l.read "function_context" true asBool = .ok s.withFunction ∧
      l.read "generic_revert_message" "Transaction reverted" asText = .ok s.genericReason ∧
      l.read "neighbor_tolerance" 5 asNumber = .ok s.tolerance ∧
      l.read "synthetic_lookback" 20 asNumber = .ok s.lookback := by
  unfold settings
  simp only [bind_eq_ok_iff]
  constructor
  · rintro ⟨b, hb, t, ht, m, hm, n, hn, hs⟩
    obtain rfl := Except.ok.inj hs
    exact ⟨hb, ht, hm, hn⟩
  · rintro ⟨hb, ht, hm, hn⟩
    exact ⟨_, hb, _, ht, _, hm, _, hn, rfl⟩

theorem of_settings_eq_error {e : SettingError} (h : l.settings = .error e) :
    l.read "function_context" true asBool = .error e ∨
      l.read "generic_revert_message" "Transaction reverted" asText = .error e ∨
      l.read "neighbor_tolerance" 5 asNumber = .error e ∨
      l.read "synthetic_lookback" 20 asNumber = .error e := by
  unfold settings at h
  simp only [bind_eq_error_iff] at h
  rcases h with h | ⟨b, -, h | ⟨t, -, h | ⟨m, -, h | ⟨n, -, h⟩⟩⟩⟩
  · exact .inl h
  · exact .inr (.inl h)
  · exact .inr (.inr (.inl h))
  · exact .inr (.inr (.inr h))
  · cases h

variable (hl : l.Hold table env)
include hl

/-- The settings of layers are those that are chosen. -/
theorem Hold.settings_eq_ok_iff {s : Settings} : l.settings = .ok s ↔ Chosen table env s := by
  rw [Layers.settings_eq_ok_iff,
    hl.read_eq_ok_iff (by decide) (fun _ _ => asBool_eq_ok_iff),
    hl.read_eq_ok_iff (by decide) (fun _ _ => asText_eq_ok_iff),
    hl.read_eq_ok_iff (by decide) (fun _ _ => asNumber_eq_ok_iff),
    hl.read_eq_ok_iff (by decide) (fun _ _ => asNumber_eq_ok_iff)]
  constructor
  · rintro ⟨hb, ht, hm, hn⟩
    exact ⟨hn, hm, hb, ht⟩
  · rintro ⟨hn, hm, hb, ht⟩
    exact ⟨hb, ht, hm, hn⟩

/-- Layers without settings have one for which something of another type is given. -/
theorem Hold.of_settings_eq_error {e : SettingError} (h : l.settings = .error e) :
    e.key ∈ settingKeys ∧ Given table env e.key (some e.found) ∧ ¬ HasType e.key e.found := by
  rcases Layers.of_settings_eq_error h with h | h | h | h
  · exact hl.of_read_eq_error (by decide) (fun _ _ => asBool_eq_ok_iff) (fun _ => Iff.rfl) h
  · exact hl.of_read_eq_error (by decide) (fun _ _ => asText_eq_ok_iff) (fun _ => Iff.rfl) h
  · exact hl.of_read_eq_error (by decide) (fun _ _ => asNumber_eq_ok_iff) (fun _ => Iff.rfl) h
  · exact hl.of_read_eq_error (by decide) (fun _ _ => asNumber_eq_ok_iff) (fun _ => Iff.rfl) h

/-- Where settings are chosen, everything that is given has its type. -/
theorem Hold.hasType_of_chosen {s : Settings} (hs : Chosen table env s) (hkey : key ∈ settingKeys)
    {v : SettingValue} (hv : Given table env key (some v)) : HasType key v := by
  -- what is taken is the one thing that is given, and it means something
  have hmeans {α : Type} {means : SettingValue → α → Prop} {default a : α}
      (h : Takes table env key means default a) : ∃ a, means v a := by
    rw [hl.given_iff hkey] at hv
    rcases h with ⟨hnone, -⟩ | ⟨w, hw, hmeans⟩
    · rw [hl.given_iff hkey, hv] at hnone
      cases hnone
    · rw [hl.given_iff hkey, hv] at hw
      obtain rfl := Option.some.inj hw
      exact ⟨a, hmeans⟩
  simp only [settingKeys, List.mem_cons, List.not_mem_nil, or_false] at hkey
  rcases hkey with rfl | rfl | rfl | rfl
  · exact hmeans hs.lookback
  · exact hmeans hs.tolerance
  · exact hmeans hs.withFunction
  · exact hmeans hs.genericReason

end Layers

end Configuration

namespace Settings

open TxForensics.Configuration

variable {file : Option String} {table : List (String × TomlValue)} {env : List (String × String)}

def tableOf? : Option String → Option (List (String × TomlValue))
  | none => some []
  | some text => Toml.parse text

/-- Settings come from layers that hold what the file and the environment give. -/
theorem exists_layers (hfile : tableOf? file = some table) (henv : OfSettings env) :
    ∃ l : Layers, l.Hold table env ∧ ofLayers file env = l.settings.mapError .setting := by
  obtain ⟨entries, hentries, hlookup⟩ := exists_variableEntries henv
  refine ⟨⟨table, entries⟩, ⟨rfl, hlookup, fun key hkey => exists_given henv hkey⟩, ?_⟩
  rw [ofLayers, hentries]
  cases file with
  | none =>
    obtain rfl := Option.some.inj hfile
    rfl
  | some text =>
    have htable : Toml.parse text = some table := hfile
    rw [Option.map_some, htable]
    rfl

/-- **Settings are chosen one by one, and all of them count or none.** The settings of a file and an
environment are those that are chosen. They exist where everything that is given has the type of its
setting, and are then used. Where something has another type, a setting of that kind is reported,
and all settings that are used are defaults. -/
theorem chosen_or_default (hfile : tableOf? file = some table) (henv : OfSettings env) :
    (∀ s, ofLayers file env = .ok s ↔ Chosen table env s) ∧
    ((∀ key ∈ settingKeys, ∀ v, Given table env key (some v) → HasType key v) →
      ∃ s, ofLayers file env = .ok s ∧ ofLayersOrDefault file env = s) ∧
    ∀ key ∈ settingKeys, ∀ v, Given table env key (some v) → ¬ HasType key v →
      (∃ e, ofLayers file env = .error (.setting e) ∧ e.key ∈ settingKeys ∧
        Given table env e.key (some e.found) ∧ ¬ HasType e.key e.found) ∧
      ofLayersOrDefault file env = {} := by
  obtain ⟨l, hl, heq⟩ := exists_layers hfile henv
  -- either all four are read, or one of them is refused
  cases hsettings : l.settings with
  | ok s =>
    have hlayers : ofLayers file env = .ok s := by rw [heq, hsettings]; rfl
    have hchosen : Chosen table env s := hl.settings_eq_ok_iff.mp hsettings
    refine ⟨?_, ?_, ?_⟩
    · intro s'
      rw [hlayers, ← hl.settings_eq_ok_iff, hsettings, Except.ok.injEq, Except.ok.injEq]
    · intro _
      refine ⟨s, hlayers, ?_⟩
      rw [ofLayersOrDefault, hlayers]
    · intro key hkey v hv htype
      exact absurd (hl.hasType_of_chosen hchosen hkey hv) htype
  | error e =>
    have hlayers : ofLayers file env = .error (.setting e) := by rw [heq, hsettings]; rfl
    obtain ⟨hkey, hfound, htype⟩ := hl.of_settings_eq_error hsettings
    refine ⟨?_, ?_, ?_⟩
    · intro s
      rw [hlayers, ← hl.settings_eq_ok_iff, hsettings]
      simp
    · intro htypes
      exact absurd (htypes e.key hkey e.found hfound) htype
    · intro _ _ _ _ _
      refine ⟨⟨e, hlayers, hkey, hfound, htype⟩, ?_⟩
      rw [ofLayersOrDefault, hlayers]

/-- A text that is given for a number in the file does not count where a variable gives a number;
a negative number in one variable counts, and then nothing else that is given does. -/
theorem chosen_or_default_shadowed :
    ofLayers (some "neighbor_tolerance = 2\nsynthetic_lookback = \"many\"\nextra = 1\n")
        [("POSTMORTEM_SYNTHETIC_LOOKBACK", "32"), ("postmortem_function_context", "false")] =
      .ok { lookback := 32, tolerance := 2, withFunction := false } ∧
    ofLayersOrDefault
        (some "neighbor_tolerance = 2\nsynthetic_lookback = \"many\"\nextra = 1\n")
        [("POSTMORTEM_SYNTHETIC_LOOKBACK", "32"), ("POSTMORTEM_NEIGHBOR_TOLERANCE", "-1")] =
      {} := by
  have hread : (tableOf? (some
      "neighbor_tolerance = 2\nsynthetic_lookback = \"many\"\nextra = 1\n")).map
        (fun table => settingKeys.map fun key => (table.lookup key).map SettingValue.ofToml) =
      some [some (.text "many"), some (.signed 2), none, none] := by
    decide +kernel
  obtain ⟨table, hfile, hlookup⟩ := Option.map_eq_some_iff.mp hread
  simp only [settingKeys, List.map_cons, List.map_nil, List.cons.injEq, and_true,
    Option.map_eq_some_iff, Option.map_eq_none_iff] at hlookup
  obtain ⟨-, ⟨v, htolerance, hv⟩, -, hreason⟩ := hlookup
  constructor
  · have henv : OfSettings
        [("POSTMORTEM_SYNTHETIC_LOOKBACK", "32"), ("postmortem_function_context", "false")] :=
      .of_plain (by decide +kernel) (fun e he => .inl (by revert e; decide +kernel))
    have hlookback : variableText?
        [("POSTMORTEM_SYNTHETIC_LOOKBACK", "32"), ("postmortem_function_context", "false")]
        "synthetic_lookback" = some "32" := by
      decide +kernel
    have hfunction : variableText?
        [("POSTMORTEM_SYNTHETIC_LOOKBACK", "32"), ("postmortem_function_context", "false")]
        "function_context" = some "false" := by
      decide +kernel
    apply ((chosen_or_default hfile henv).1 _).mpr
    exact
      { lookback := .inr ⟨_, .byVariable hlookback rfl, .unsigned 32⟩
        tolerance := .inr ⟨_, .byFile (by decide +kernel) htolerance, hv ▸ .signed 2⟩
        withFunction := .inr ⟨_, .byVariable hfunction rfl, rfl⟩
        genericReason := .inl ⟨.byDefault (by decide +kernel) hreason, rfl⟩ }
  · have henv : OfSettings
        [("POSTMORTEM_SYNTHETIC_LOOKBACK", "32"), ("POSTMORTEM_NEIGHBOR_TOLERANCE", "-1")] :=
      .of_plain (by decide +kernel) (fun e he => .inl (by revert e; decide +kernel))
    have htolerance : variableText?
        [("POSTMORTEM_SYNTHETIC_LOOKBACK", "32"), ("POSTMORTEM_NEIGHBOR_TOLERANCE", "-1")]
        "neighbor_tolerance" = some "-1" := by
      decide +kernel
    apply ((chosen_or_default hfile henv).2.2 "neighbor_tolerance" (by decide) (.signed (-1))
      (.byVariable htolerance rfl) _).2
    rw [HasType, if_neg (by decide), if_neg (by decide)]
    rintro ⟨n, hn⟩
    have hread := asNumber_eq_ok_iff.mpr hn
    rw [asNumber, if_neg (by decide)] at hread
    cases hread

end Settings

end TxForensics
