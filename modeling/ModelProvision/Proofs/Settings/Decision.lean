import ModelProvision.Proofs.Settings.Assignment
import ModelProvision.Settings.Load

/-!
# What the sources give, and which of them decides

What a source gives is said without any look-up (`Sources.Gives`). Where no two names of a source
differ in letter case only, what is looked up in it is what it gives (`layer_eq_some_iff`).

Arguments, environment and environment file are asked in this order, and the first of them that gives
a setting under one of its names decides it (`Sources.Decides`, **`decision?_eq_some_iff`**). So a
setting is decided once, or no source gives it (`exists_decides`, `Decides.unique`), and what decides
in one run decides in every run where the sources up to the deciding one give the same under the
names of the setting (`Decides.congr`).
-/

namespace ModelProvision

open LetterCase

/-! ## What the sources give -/

/-- The three sources. -/
inductive Tier where
  | arguments
  | environment
  | file
  deriving DecidableEq, Repr

/-- The place of a source in the order in which they are asked. -/
def Tier.rank : Tier → Nat
  | arguments => 0
  | environment => 1
  | file => 2

theorem Tier.rank_injective : Function.Injective rank := by
  intro tier tier' h
  cases tier <;> cases tier' <;> revert h <;> decide

namespace Sources

/-- A source gives a value under a name. -/
inductive Gives (s : Sources) : Tier → Text → Json → Prop where
  /-- The argument of exactly this name. -/
  | ofArgument {name : Text} {value : Json} (hmem : (name, value) ∈ Keyed.ofPairs s.arguments) :
      Gives s .arguments name value
  /-- A variable that has this name in some letter case. -/
  | ofVariable {name value : Text} (hmem : (name, value) ∈ s.environment) :
      Gives s .environment (toSmall name) (.string value)
  /-- The last binding of a key that is this name in some letter case. One without a value gives
  nothing. -/
  | ofBinding {file : Text} {before after : List DotEnv.Binding} {b : DotEnv.Binding} {value : Text}
      (hfile : s.file = some file)
      (hsplit : DotEnv.bindings (DotEnv.unifyLineEnds file) = before ++ b :: after)
      (hlast : b.key ∉ after.map DotEnv.Binding.key)
      (hvalue : b.given s.environment before = some value) :
      Gives s .file (toSmall b.key) (.string value)

/-- No two names of the environment, and no two of the file, differ in letter case only. -/
structure NamesDistinct (s : Sources) : Prop where
  environment : (s.environment.map fun p => toSmall p.1).Nodup
  file : ∀ file, s.file = some file →
    ∀ b ∈ DotEnv.bindings (DotEnv.unifyLineEnds file),
      ∀ b' ∈ DotEnv.bindings (DotEnv.unifyLineEnds file),
        toSmall b.key = toSmall b'.key → b.key = b'.key

/-- What a source gives for a name. -/
def layer (s : Sources) : Tier → Layer
  | .arguments => fun name => Keyed.lookup? name (Keyed.ofPairs s.arguments)
  | .environment => fun name => (lastInAnyCase? s.environment name).map Json.string
  | .file => fun name =>
    (lastInAnyCase? ((s.file.map (DotEnv.assign s.environment)).getD []) name).join.map Json.string

/-- Where no two names differ in letter case only, one of them is found by any spelling. -/
theorem lastInAnyCase?_eq_some_iff {α : Type} {pairs : List (Text × α)}
    (hdistinct : (pairs.map fun p => toSmall p.1).Nodup) {name : Text} {value : α} :
    lastInAnyCase? pairs name = some value ↔ ∃ key, (key, value) ∈ pairs ∧ toSmall key = name := by
  -- where names are distinct the last one is the only one
  have hreverse : (pairs.reverse.map fun p => toSmall p.1).Nodup := by
    rwa [List.map_reverse, List.nodup_reverse]
  simp only [lastInAnyCase?, Option.map_eq_some_iff, Keyed.find?_key_eq_some_iff hreverse,
    List.mem_reverse]
  constructor
  · rintro ⟨⟨key, value'⟩, ⟨hmem, hname⟩, rfl⟩
    exact ⟨key, hmem, hname⟩
  · rintro ⟨key, hmem, hname⟩
    exact ⟨(key, value), ⟨hmem, hname⟩, rfl⟩

/-- Then the file assigns under names that are distinct in any spelling. -/
theorem NamesDistinct.nodup_assign {s : Sources} (h : s.NamesDistinct) {file : Text}
    (hfile : s.file = some file) :
    ((DotEnv.assign s.environment file).map fun p => toSmall p.1).Nodup := by
  have hkeys := DotEnv.nodup_keys_foldl_assignOne s.environment
    (DotEnv.bindings (DotEnv.unifyLineEnds file))
  have hmem : ∀ key ∈ (DotEnv.assign s.environment file).map Prod.fst,
      ∃ b ∈ DotEnv.bindings (DotEnv.unifyLineEnds file), b.key = key := by
    intro key hkey
    obtain ⟨⟨key, value?⟩, hentry, rfl⟩ := List.mem_map.mp hkey
    obtain ⟨before, b, after, hsplit, hb, -, -⟩ := DotEnv.mem_assign_iff.mp hentry
    exact ⟨b, by rw [hsplit]; simp, hb⟩
  -- two keys of one spelling belong to bindings of one key
  have hsmall := hkeys.map_on (f := toSmall) fun key hkey key' hkey' hsame => by
    obtain ⟨b, hb, rfl⟩ := hmem key hkey
    obtain ⟨b', hb', rfl⟩ := hmem key' hkey'
    exact h.file file hfile b hb b' hb' hsame
  rwa [List.map_map] at hsmall

/-- **A layer holds what its source gives.** -/
theorem layer_eq_some_iff {s : Sources} (h : s.NamesDistinct) {tier : Tier} {name : Text}
    {value : Json} : s.layer tier name = some value ↔ s.Gives tier name value := by
  cases tier with
  | arguments =>
    rw [layer, Keyed.lookup?_eq_some_iff (Keyed.nodup_keys_ofPairs _)]
    constructor
    · exact .ofArgument
    · intro hgives
      cases hgives with
      | ofArgument hmem => exact hmem
  | environment =>
    simp only [layer, Option.map_eq_some_iff, lastInAnyCase?_eq_some_iff h.environment]
    constructor
    · rintro ⟨value, ⟨name, hmem, rfl⟩, rfl⟩
      exact .ofVariable hmem
    · intro hgives
      cases hgives with
      | ofVariable hmem => exact ⟨_, ⟨_, hmem, rfl⟩, rfl⟩
  | file =>
    simp only [layer, Option.map_eq_some_iff, Option.join_eq_some_iff]
    constructor
    -- what is looked up was assigned, by the last binding of its key
    · rintro ⟨value, hvalue, rfl⟩
      cases hfile : s.file with
      | none =>
        rw [hfile] at hvalue
        exact absurd hvalue (by simp [lastInAnyCase?])
      | some file =>
        rw [hfile, Option.map_some, Option.getD_some,
          lastInAnyCase?_eq_some_iff (h.nodup_assign hfile)] at hvalue
        obtain ⟨key, hassigned, rfl⟩ := hvalue
        obtain ⟨before, b, after, hsplit, rfl, hlast, hgiven⟩ := DotEnv.mem_assign_iff.mp hassigned
        exact .ofBinding hfile hsplit hlast hgiven
    · intro hgives
      cases hgives with
      | ofBinding hfile hsplit hlast hgiven =>
        refine ⟨_, ?_, rfl⟩
        rw [hfile, Option.map_some, Option.getD_some,
          lastInAnyCase?_eq_some_iff (h.nodup_assign hfile)]
        exact ⟨_, DotEnv.mem_assign_iff.mpr ⟨_, _, _, hsplit, rfl, hlast, hgiven⟩, rfl⟩

end Sources

/-! ## What decides -/

/-- The names that a setting may be given under. -/
def Field.Admits (f : Field) (name : Text) : Prop :=
  name = f.name ∨ f = .controllerNamespace ∧ name = "pod_namespace"

theorem Field.Admits.eq_name {f : Field} {name : Text} (h : f.Admits name)
    (hf : f ≠ .controllerNamespace) : name = f.name :=
  h.resolve_right fun hother => hf hother.1

theorem Field.mem_names_iff {f : Field} {name : Text} : name ∈ f.names ↔ f.Admits name := by
  cases f <;> simp [names, Admits, Field.name]

namespace Sources

/-- A source decides a setting by the value that it gives under a key. -/
structure Decides (s : Sources) (f : Field) (tier : Tier) (key : Text) (value : Json) : Prop where
  admits : f.Admits key
  gives : s.Gives tier key value
  /-- No source that is asked before gives the setting. -/
  first : ∀ earlier : Tier, earlier.rank < tier.rank →
    ∀ name, f.Admits name → ∀ w, ¬ s.Gives earlier name w
  /-- Another name decides only where its own is not given. -/
  preferred : key = f.name ∨ ∀ w, ¬ s.Gives tier f.name w

/-- No source gives the setting. -/
def Silent (s : Sources) (f : Field) : Prop :=
  ∀ tier name, f.Admits name → ∀ w, ¬ s.Gives tier name w

/-- What a source gives for a setting, under the preferred one of its names. -/
def choice (s : Sources) (f : Field) (tier : Tier) : Option (Text × Json) :=
  f.names.findSome? fun name => (s.layer tier name).map fun v => (name, v)

/-- The three sources are asked one after the other. -/
theorem decision?_eq (s : Sources) (f : Field) :
    decision? s.layers f.names =
      (s.choice f .arguments).or ((s.choice f .environment).or (s.choice f .file)) := by
  have hfirst : ∀ o o' o'' : Option (Text × Json),
      [o, o', o''].findSome? id = o.or (o'.or o'') := by
    intro o o' o''
    cases o <;> cases o' <;> cases o'' <;> rfl
  exact hfirst _ _ _

variable {s : Sources} {f : Field} {tier : Tier} {key : Text} {value : Json}

/-- A source offers nothing for a setting exactly if it gives it under none of its names … -/
theorem choice_eq_none_iff (h : s.NamesDistinct) :
    s.choice f tier = none ↔ ∀ name, f.Admits name → ∀ w, ¬ s.Gives tier name w := by
  rw [choice, List.findSome?_eq_none_iff]
  simp only [Field.mem_names_iff, Option.map_eq_none_iff, ← layer_eq_some_iff h]
  exact forall₂_congr fun _ _ => Option.eq_none_iff_forall_ne_some

/-- … and else what it gives under the setting's own name before all others. -/
theorem choice_eq_some_iff (h : s.NamesDistinct) :
    s.choice f tier = some (key, value) ↔
      f.Admits key ∧ s.Gives tier key value ∧ (key = f.name ∨ ∀ w, ¬ s.Gives tier f.name w) := by
  simp only [← layer_eq_some_iff h]
  have hnames : f.names = f.name :: if f = .controllerNamespace then ["pod_namespace"] else [] := by
    cases f <;> rfl
  rw [choice, hnames, List.findSome?_cons]
  cases hown : s.layer tier f.name with
  | some own =>
    -- the setting's own name is given, and no other name counts
    rw [Option.map_some]
    constructor
    · intro heq
      obtain ⟨rfl, rfl⟩ := Prod.mk.inj (Option.some.inj heq)
      exact ⟨.inl rfl, hown, .inl rfl⟩
    · rintro ⟨-, hgives, rfl | hnone⟩
      · obtain rfl := Option.some.inj (hown.symm.trans hgives)
        rfl
      · exact absurd rfl (hnone own)
  | none =>
    rw [Option.map_none]
    by_cases hf : f = .controllerNamespace
    · rw [if_pos hf]
      simp only [List.findSome?_singleton, Option.map_eq_some_iff]
      constructor
      · rintro ⟨v, hgives, heq⟩
        obtain ⟨rfl, rfl⟩ := Prod.mk.inj heq
        exact ⟨.inr ⟨hf, rfl⟩, hgives, .inr fun w hw => absurd hw (by simp)⟩
      -- only the controller's namespace has another name to be given under
      · rintro ⟨rfl | ⟨-, rfl⟩, hgives, -⟩
        · exact absurd (hown.symm.trans hgives) (by simp)
        · exact ⟨value, hgives, rfl⟩
    · rw [if_neg hf]
      constructor
      · intro heq
        exact absurd heq (by simp)
      · rintro ⟨rfl | ⟨hf', -⟩, hgives, -⟩
        · exact absurd (hown.symm.trans hgives) (by simp)
        · exact absurd hf' hf

/-- A source decides by its offer where those before have none. -/
theorem decides_iff (h : s.NamesDistinct) :
    s.Decides f tier key value ↔
      s.choice f tier = some (key, value) ∧
        ∀ earlier : Tier, earlier.rank < tier.rank → s.choice f earlier = none := by
  simp only [choice_eq_some_iff h, choice_eq_none_iff h]
  constructor
  · rintro ⟨hadmits, hgives, hfirst, hpreferred⟩
    exact ⟨⟨hadmits, hgives, hpreferred⟩, hfirst⟩
  · rintro ⟨⟨hadmits, hgives, hpreferred⟩, hfirst⟩
    exact ⟨hadmits, hgives, hfirst, hpreferred⟩

/-- **The decision is the one of the first source that gives the setting.** -/
theorem decision?_eq_some_iff (h : s.NamesDistinct) :
    decision? s.layers f.names = some (key, value) ↔ ∃ tier, s.Decides f tier key value := by
  simp only [decision?_eq, Option.or_eq_some_iff, decides_iff h]
  constructor
  -- each offer decides where those asked before were empty
  · rintro (harguments | ⟨hnone, henvironment | ⟨hnone', hfile⟩⟩)
    · exact ⟨.arguments, harguments, fun earlier hrank => absurd hrank (by simp [Tier.rank])⟩
    · refine ⟨.environment, henvironment, fun earlier hrank => ?_⟩
      cases earlier with
      | arguments => exact hnone
      | environment => exact absurd hrank (by simp)
      | file => exact absurd hrank (by simp [Tier.rank])
    · refine ⟨.file, hfile, fun earlier hrank => ?_⟩
      cases earlier with
      | arguments => exact hnone
      | environment => exact hnone'
      | file => exact absurd hrank (by simp)
  · rintro ⟨tier, hchoice, hfirst⟩
    cases tier with
    | arguments => exact .inl hchoice
    | environment => exact .inr ⟨hfirst .arguments (by decide), .inl hchoice⟩
    | file =>
      exact .inr ⟨hfirst .arguments (by decide),
        .inr ⟨hfirst .environment (by decide), hchoice⟩⟩

/-- There is no decision where no source gives the setting … -/
theorem decision?_eq_none_iff (h : s.NamesDistinct) :
    decision? s.layers f.names = none ↔ s.Silent f := by
  simp only [decision?_eq, Option.or_eq_none_iff, choice_eq_none_iff h]
  constructor
  · rintro ⟨harguments, henvironment, hfile⟩ tier
    cases tier with
    | arguments => exact harguments
    | environment => exact henvironment
    | file => exact hfile
  · intro hsilent
    exact ⟨hsilent .arguments, hsilent .environment, hsilent .file⟩

/-- … so it is decided or all are silent. -/
theorem exists_decides (h : s.NamesDistinct) (f : Field) :
    (∃ tier key value, s.Decides f tier key value) ∨ s.Silent f := by
  cases hdecision : decision? s.layers f.names with
  | none => exact .inr ((decision?_eq_none_iff h).mp hdecision)
  | some decided =>
    obtain ⟨tier, hdecides⟩ := (decision?_eq_some_iff h).mp hdecision
    exact .inl ⟨tier, _, _, hdecides⟩

/-- What is decided is decided once. -/
theorem Decides.unique (h : s.NamesDistinct) (hdecides : s.Decides f tier key value) {tier' : Tier}
    {key' : Text} {value' : Json} (hdecides' : s.Decides f tier' key' value') :
    tier = tier' ∧ key = key' ∧ value = value' := by
  have hvalue := ((decision?_eq_some_iff h).mpr ⟨tier, hdecides⟩).symm.trans
    ((decision?_eq_some_iff h).mpr ⟨tier', hdecides'⟩)
  obtain ⟨rfl, rfl⟩ := Prod.mk.inj (Option.some.inj hvalue)
  have hrank : tier.rank = tier'.rank := by
    -- neither source gives the setting before the other
    refine Nat.le_antisymm ?_ ?_
    · exact Nat.le_of_not_lt fun hlt => hdecides.first tier' hlt key hdecides.admits _ hdecides'.gives
    · exact Nat.le_of_not_lt fun hlt => hdecides'.first tier hlt key hdecides.admits _ hdecides.gives
  exact ⟨Tier.rank_injective hrank, rfl, rfl⟩

/-- Only the sources up to the deciding one count, and of each only what it gives for the setting. -/
theorem Decides.congr {s' : Sources} (hdecides : s.Decides f tier key value)
    (hsame : ∀ t : Tier, t.rank ≤ tier.rank → ∀ name, f.Admits name →
      ∀ w, s'.Gives t name w ↔ s.Gives t name w) : s'.Decides f tier key value where
  admits := hdecides.admits
  gives := (hsame tier (Nat.le_refl _) key hdecides.admits value).mpr hdecides.gives
  first := by
    intro earlier hrank name hadmits w hgives
    exact hdecides.first earlier hrank name hadmits w
      ((hsame earlier (Nat.le_of_lt hrank) name hadmits w).mp hgives)
  preferred := by
    refine hdecides.preferred.imp_right fun hnone w hgives => hnone w ?_
    exact (hsame tier (Nat.le_refl _) f.name (.inl rfl) w).mp hgives

/-- Whatever is no text was given as an argument. -/
theorem Gives.eq_arguments (hgives : s.Gives tier key value) (hvalue : ∀ t, value ≠ .string t) :
    tier = .arguments := by
  cases hgives with
  | ofArgument => rfl
  | ofVariable => exact absurd rfl (hvalue _)
  | ofBinding => exact absurd rfl (hvalue _)

end Sources

end ModelProvision
