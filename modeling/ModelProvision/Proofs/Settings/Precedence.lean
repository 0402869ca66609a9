import Mathlib.Data.List.Forall2
import ModelProvision.Proofs.Settings.Decision

/-!
# Settings by precedence

A setting that is decided is the text that decides it, one that no source gives is its default, and
only an argument can decide a setting by something that is no text (`setting_eq_error_iff`).
**`Settings.load_by_precedence`** says what loading makes of all settings together: it fails for
those that are no texts, and for no others (`Sources.Settles`).
-/

namespace ModelProvision

/-! ## Single settings -/

namespace Field

variable {s : Sources} {f : Field}

/-- A text that decides a setting is the setting … -/
theorem setting_of_decides (h : s.NamesDistinct) {tier : Tier} {key t : Text}
    (hdecides : s.Decides f tier key (.string t)) : f.setting s.layers = .ok t := by
  rw [setting, (Sources.decision?_eq_some_iff h).mpr ⟨tier, hdecides⟩]

/-- … a setting that no source gives has its default … -/
theorem setting_of_silent (h : s.NamesDistinct) (hsilent : s.Silent f) :
    f.setting s.layers = .ok f.default := by
  rw [setting, (Sources.decision?_eq_none_iff h).mpr hsilent]

/-- … and what is no text is reported by its key. -/
theorem setting_of_no_text (h : s.NamesDistinct) {tier : Tier} {key : Text} {value : Json}
    (hdecides : s.Decides f tier key value) (hvalue : ∀ t, value ≠ .string t) :
    f.setting s.layers = .error key := by
  rw [setting, (Sources.decision?_eq_some_iff h).mpr ⟨tier, hdecides⟩]
  cases value with
  | string t => exact absurd rfl (hvalue t)
  | _ => rfl

/-- Only an argument can be reported, and every one that decides and is no text is. -/
theorem setting_eq_error_iff (h : s.NamesDistinct) {key : Text} :
    f.setting s.layers = .error key ↔
      ∃ value, s.Decides f .arguments key value ∧ ∀ t, value ≠ .string t := by
  constructor
  · intro herror
    rcases Sources.exists_decides h f with ⟨tier, key', value, hdecides⟩ | hsilent
    · -- a text would have been the setting, and only an argument is anything else
      have hvalue : ∀ t, value ≠ .string t := by
        rintro t rfl
        exact absurd ((setting_of_decides h hdecides).symm.trans herror) (by simp)
      obtain rfl := Except.error.inj ((setting_of_no_text h hdecides hvalue).symm.trans herror)
      obtain rfl := hdecides.gives.eq_arguments hvalue
      exact ⟨value, hdecides, hvalue⟩
    · exact absurd ((setting_of_silent h hsilent).symm.trans herror) (by simp)
  · rintro ⟨value, hdecides, hvalue⟩
    exact setting_of_no_text h hdecides hvalue

/-- The key of a setting that is no text. -/
def faultyKey? (s : Sources) (f : Field) : Option Text :=
  match f.setting s.layers with
  | .error key => some key
  | .ok _ => none

theorem faultyKey?_eq_some_iff {key : Text} :
    f.faultyKey? s = some key ↔ f.setting s.layers = .error key := by
  rw [faultyKey?]
  cases f.setting s.layers <;> simp

theorem exists_setting_of_faultyKey? (hnone : f.faultyKey? s = none) :
    ∃ t, f.setting s.layers = .ok t := by
  cases hsetting : f.setting s.layers with
  | error key => exact absurd (hnone.symm.trans (faultyKey?_eq_some_iff.mpr hsetting)) (by simp)
  | ok t => exact ⟨t, rfl⟩

end Field

/-! ## All settings together -/

namespace Settings

variable {scope : Scope} {s : Sources}

/-- Loading reports the faulty keys, or holds all settings in a table. -/
theorem load_eq (scope : Scope) (s : Sources) :
    load scope s =
      match scope.fields.filterMap (Field.faultyKey? s) with
      | [] => .ok ⟨scope, fun f =>
          match Keyed.lookup? f (scope.fields.map fun f => (f, f.setting s.layers)) with
          | some (.ok value) => value
          | _ => f.default⟩
      | keys => .error (.invalidSettings keys) := by
  have hkeys : scope.fields.filterMap (Field.faultyKey? s) =
      (scope.fields.map fun f => (f, f.setting s.layers)).filterMap fun d => match d.2 with
        | .error key => some key
        | .ok _ => none := by
    rw [List.filterMap_map]
    rfl
  rw [hkeys]
  rfl

/-- Without a faulty key all settings are loaded, each as it is for itself … -/
theorem load_of_faultless (scope : Scope) (hnone : ∀ f ∈ scope.fields, f.faultyKey? s = none) :
    ∃ settings, load scope s = .ok settings ∧ settings.scope = scope ∧
      ∀ f ∈ scope.fields, f.setting s.layers = .ok (settings.value f) := by
  have hkeys : scope.fields.filterMap (Field.faultyKey? s) = [] :=
    List.filterMap_eq_nil_iff.mpr hnone
  refine ⟨_, by rw [load_eq, hkeys], rfl, fun f hf => ?_⟩
  -- the table has the setting as it was found
  obtain ⟨t, ht⟩ := Field.exists_setting_of_faultyKey? (hnone f hf)
  simp only [Keyed.lookup?_map_self hf, ht]

/-- … and with one all of them are reported. -/
theorem load_of_faulty {f : Field} (hf : f ∈ scope.fields) {key : Text}
    (hkey : f.faultyKey? s = some key) :
    load scope s = .error (.invalidSettings (scope.fields.filterMap (Field.faultyKey? s))) := by
  have hmem : key ∈ scope.fields.filterMap (Field.faultyKey? s) :=
    List.mem_filterMap.mpr ⟨f, hf, hkey⟩
  rw [load_eq]
  -- the key of `f` is reported, so the report is not empty
  cases hkeys : scope.fields.filterMap (Field.faultyKey? s) with
  | nil => exact absurd (hkeys ▸ hmem) List.not_mem_nil
  | cons k keys => rfl

end Settings

/-- What loading comes to where every setting is decided by the first source that gives it. -/
structure Sources.Settles (s : Sources) (loaded : Except Fault Settings) : Prop where
  /-- Only an argument can stand in the way. -/
  ok_iff : (∃ settings, loaded = .ok settings) ↔
    ∀ f key value, s.Decides f .arguments key value → ∃ t, value = .string t
  decided : ∀ settings, loaded = .ok settings → ∀ f tier key value,
    s.Decides f tier key value → value = .string (settings.value f)
  silent : ∀ settings, loaded = .ok settings → ∀ f, s.Silent f → settings.value f = f.default
  /-- The faulty settings are all reported, in their order, each by the key that decides it. -/
  faults : ∀ fault, loaded = .error fault → ∃ faulty keys, fault = .invalidSettings keys ∧
    faulty.Sublist Scope.injector.fields ∧
    (∀ f, f ∈ faulty ↔ ∃ key value, s.Decides f .arguments key value ∧ ∀ t, value ≠ .string t) ∧
    List.Forall₂ (fun f key => ∃ value, s.Decides f .arguments key value) faulty keys

namespace Settings

variable {s : Sources}

/-- A setting is faultless where every argument that decides it is a text. -/
theorem faultyKey?_eq_none_iff (h : s.NamesDistinct) {f : Field} :
    f.faultyKey? s = none ↔
      ∀ key value, s.Decides f .arguments key value → ∃ t, value = .string t := by
  simp only [Option.eq_none_iff_forall_ne_some, ne_eq, Field.faultyKey?_eq_some_iff,
    Field.setting_eq_error_iff h, not_exists, not_and, not_forall, not_not]

/-- The reported keys belong to the faulty settings, one by one and in their order. -/
theorem forall₂_faultyKey? (s : Sources) (fields : List Field) :
    List.Forall₂ (fun f key => f.faultyKey? s = some key)
      (fields.filter fun f => (f.faultyKey? s).isSome) (fields.filterMap (Field.faultyKey? s)) := by
  -- on the settings: a faultless one is in neither list
  induction fields with
  | nil => exact .nil
  | cons f rest ih =>
    cases hkey : f.faultyKey? s with
    | none => simpa [hkey] using ih
    | some key => simpa [hkey] using ih

/-- The case of no fault: settings are what decides them. -/
theorem settles_of_faultless (h : s.NamesDistinct) (hnone : ∀ f : Field, f.faultyKey? s = none) :
    s.Settles (load .injector s) := by
  obtain ⟨settings, hload, -, hvalue⟩ := load_of_faultless .injector fun f _ => hnone f
  -- there is one outcome, and it holds what each setting is
  have hsettings : ∀ settings', load .injector s = .ok settings' → ∀ f : Field,
      f.setting s.layers = .ok (settings'.value f) := by
    intro settings' hload' f
    obtain rfl := Except.ok.inj (hload.symm.trans hload')
    exact hvalue f (Scope.mem_fields_injector f)
  constructor
  case ok_iff =>
    exact iff_of_true ⟨settings, hload⟩ fun f => (faultyKey?_eq_none_iff h).mp (hnone f)
  case decided =>
    intro settings' hload' f tier key value hdecides
    have hsetting := hsettings settings' hload' f
    by_cases htext : ∃ t, value = .string t
    · obtain ⟨t, rfl⟩ := htext
      rw [Except.ok.inj ((Field.setting_of_decides h hdecides).symm.trans hsetting)]
    · have hfault := Field.setting_of_no_text h hdecides (not_exists.mp htext)
      exact absurd (hfault.symm.trans hsetting) (by simp)
  case silent =>
    intro settings' hload' f hsilent
    have hsetting := hsettings settings' hload' f
    exact (Except.ok.inj ((Field.setting_of_silent h hsilent).symm.trans hsetting)).symm
  case faults =>
    intro fault hfault
    exact absurd (hload.symm.trans hfault) (by simp)

/-- The case of a fault: all faulty settings are reported. -/
theorem settles_of_faulty (h : s.NamesDistinct) {f : Field} {key : Text}
    (hkey : f.faultyKey? s = some key) : s.Settles (load .injector s) := by
  have hload := load_of_faulty (Scope.mem_fields_injector f) hkey
  have hnot : ∀ settings, load .injector s ≠ .ok settings := by
    intro settings hsettings
    exact absurd (hload.symm.trans hsettings) (by simp)
  -- a key is faulty exactly for an argument that decides and is no text
  have hfaulty : ∀ f : Field, (f.faultyKey? s).isSome ↔
      ∃ key value, s.Decides f .arguments key value ∧ ∀ t, value ≠ .string t := by
    intro f
    simp only [Option.isSome_iff_exists, Field.faultyKey?_eq_some_iff, Field.setting_eq_error_iff h]
  constructor
  case ok_iff =>
    obtain ⟨key, value, hdecides, hvalue⟩ := (hfaulty f).mp (by rw [hkey]; rfl)
    refine iff_of_false (not_exists.mpr hnot) fun htexts => ?_
    obtain ⟨t, ht⟩ := htexts f key value hdecides
    exact hvalue t ht
  case decided => exact fun settings hsettings => absurd hsettings (hnot settings)
  case silent => exact fun settings hsettings => absurd hsettings (hnot settings)
  case faults =>
    intro fault hfault
    refine ⟨_, _, (Except.error.inj (hload.symm.trans hfault)).symm, List.filter_sublist, ?_,
      (forall₂_faultyKey? s _).imp ?_⟩
    · intro f
      rw [List.mem_filter, hfaulty, and_iff_right (Scope.mem_fields_injector f)]
    · intro f key hkey
      obtain ⟨value, hdecides, -⟩ :=
        (Field.setting_eq_error_iff h).mp (Field.faultyKey?_eq_some_iff.mp hkey)
      exact ⟨value, hdecides⟩

/-- **Loading settles every setting by the first source that gives it.** -/
theorem load_settles (h : s.NamesDistinct) : s.Settles (load .injector s) := by
  by_cases hfaulty : ∃ (f : Field) (key : Text), f.faultyKey? s = some key
  · obtain ⟨f, key, hkey⟩ := hfaulty
    exact settles_of_faulty h hkey
  · refine settles_of_faultless h fun f => Option.eq_none_iff_forall_ne_some.mpr fun key hkey => ?_
    exact hfaulty ⟨f, key, hkey⟩

/-- **The first source that gives a setting decides it.** Arguments come before the environment and
the environment before the file; within a source a setting's own name comes before any other. What
decides a setting is the only thing that does: sources asked later do not count, nor do other names
in the deciding one, unless a value of the file refers to them. -/
theorem load_by_precedence (h : s.NamesDistinct) :
    (∀ f, s.Silent f ∨ ∃ tier key value, s.Decides f tier key value ∧
      ∀ tier' key' value', s.Decides f tier' key' value' →
        tier' = tier ∧ key' = key ∧ value' = value) ∧
    s.Settles (load .injector s) ∧
    (∀ f tier key value, s.Decides f tier key value →
      ∀ s' : Sources, s'.NamesDistinct →
        (∀ t : Tier, t.rank ≤ tier.rank → ∀ name, f.Admits name →
          ∀ w, s'.Gives t name w ↔ s.Gives t name w) →
        s'.Decides f tier key value ∧ ∀ settings', load .injector s' = .ok settings' →
          value = .string (settings'.value f)) ∧
    (∀ file before b after raw, s.file = some file →
      DotEnv.bindings (DotEnv.unifyLineEnds file) = before ++ b :: after →
      b.key ∉ after.map DotEnv.Binding.key → b.value = some raw → ¬ DotEnv.opening <:+: raw →
      s.Gives .file (LetterCase.toSmall b.key) (.string raw)) := by
  refine ⟨fun f => ?_, load_settles h, ?_, ?_⟩
  · rcases Sources.exists_decides h f with ⟨tier, key, value, hdecides⟩ | hsilent
    · exact .inr ⟨tier, key, value, hdecides, fun _ _ _ hother => hother.unique h hdecides⟩
    · exact .inl hsilent
  -- other sources that agree up to the deciding one decide the same, and settle it the same
  · intro f tier key value hdecides s' h' hsame
    have hdecides' := hdecides.congr hsame
    exact ⟨hdecides', fun settings' hload' =>
      (load_settles h').decided settings' hload' f tier key value hdecides'⟩
  · intro file before b after raw hfile hsplit hlast hraw hplain
    exact .ofBinding hfile hsplit hlast (DotEnv.Binding.given_of_plain hraw hplain _ _)

end Settings

namespace Sample

/-- Every source gives the namespace of the controller, the file and the arguments under its other
name. -/
def layered : Sources where
  arguments := [("pod_namespace", .string "argued")]
  environment := [("Mi_Controller_Namespace", "inherited"), ("MI_LOG_LEVEL", [])]
  file := some "POD_NAMESPACE='written'\nMI_CONFIG_MAP_NAME='maps' # prod\n"

theorem bindings_layered {file : Text} (hfile : layered.file = some file) :
    DotEnv.bindings (DotEnv.unifyLineEnds file) =
      [⟨"POD_NAMESPACE", some "written"⟩, ⟨"MI_CONFIG_MAP_NAME", some "maps"⟩] := by
  obtain rfl := Option.some.inj hfile
  have hfirst : DotEnv.scanBinding
      (Text.ofString "POD_NAMESPACE='written'\nMI_CONFIG_MAP_NAME='maps' # prod\n") =
        (some ⟨"POD_NAMESPACE", some "written"⟩,
          Text.ofString "MI_CONFIG_MAP_NAME='maps' # prod\n") := rfl
  have hsecond : DotEnv.scanBinding (Text.ofString "MI_CONFIG_MAP_NAME='maps' # prod\n") =
      (some ⟨"MI_CONFIG_MAP_NAME", some "maps"⟩, []) := rfl
  have hends : DotEnv.unifyLineEnds
      (Text.ofString "POD_NAMESPACE='written'\nMI_CONFIG_MAP_NAME='maps' # prod\n") =
        Text.ofString "POD_NAMESPACE='written'\nMI_CONFIG_MAP_NAME='maps' # prod\n" := rfl
  rw [hends, DotEnv.bindings_of_scan (by decide) hfirst, DotEnv.bindings_of_scan (by decide) hsecond,
    DotEnv.bindings.eq_def]
  rfl

theorem namesDistinct_layered : layered.NamesDistinct where
  environment := by decide
  file := by
    intro file hfile
    rw [bindings_layered hfile]
    decide

theorem gives_arguments_layered {name : Text} {value : Json} :
    layered.Gives .arguments name value ↔ name = "pod_namespace" ∧ value = .string "argued" := by
  have hpairs : Keyed.ofPairs layered.arguments =
      [(Text.ofString "pod_namespace", Json.string "argued")] := rfl
  constructor
  · intro hgives
    cases hgives with
    | ofArgument hmem => simpa [hpairs] using hmem
  · rintro ⟨rfl, rfl⟩
    exact .ofArgument (by simp [hpairs])

theorem name_of_environment_layered {name : Text} {value : Json}
    (hgives : layered.Gives .environment name value) :
    name ∈ [Text.ofString "mi_controller_namespace", Text.ofString "mi_log_level"] := by
  cases hgives with
  | ofVariable hmem =>
    rcases List.mem_pair.mp hmem with heq | heq
    · rw [(Prod.mk.inj heq).1]
      decide
    · rw [(Prod.mk.inj heq).1]
      decide

/-- The argument comes before the variable and the binding, under whichever name. -/
theorem decides_controllerNamespace_layered :
    layered.Decides .controllerNamespace .arguments "pod_namespace" (.string "argued") where
  admits := .inr ⟨rfl, rfl⟩
  gives := gives_arguments_layered.mpr ⟨rfl, rfl⟩
  first := fun earlier hrank => absurd hrank (Nat.not_lt_zero _)
  preferred := .inr fun w hgives => absurd (gives_arguments_layered.mp hgives).1 (by decide)

/-- A variable with an empty value decides too. -/
theorem decides_logLevel_layered :
    layered.Decides .logLevel .environment "mi_log_level" (.string []) where
  admits := .inl rfl
  gives := by
    have hmem : (Text.ofString "MI_LOG_LEVEL", ([] : Text)) ∈ layered.environment :=
      List.mem_pair.mpr (.inr rfl)
    exact .ofVariable hmem
  first := by
    intro earlier hrank name hadmits w hgives
    obtain rfl := hadmits.eq_name (by decide)
    cases earlier with
    | arguments => exact absurd (gives_arguments_layered.mp hgives).1 (by decide)
    | environment => exact absurd hrank (by decide)
    | file => exact absurd hrank (by decide)
  preferred := .inl rfl

/-- What only the file gives is decided by the file. -/
theorem decides_configMapName_layered :
    layered.Decides .configMapName .file "mi_config_map_name" (.string "maps") where
  admits := .inl rfl
  gives := by
    have hgiven : DotEnv.Binding.given layered.environment [⟨"POD_NAMESPACE", some "written"⟩]
        ⟨"MI_CONFIG_MAP_NAME", some "maps"⟩ = some (Text.ofString "maps") :=
      DotEnv.Binding.given_of_plain rfl (by decide) _ _
    exact .ofBinding rfl (bindings_layered rfl) List.not_mem_nil hgiven
  first := by
    intro earlier hrank name hadmits w hgives
    obtain rfl := hadmits.eq_name (by decide)
    cases earlier with
    | arguments => exact absurd (gives_arguments_layered.mp hgives).1 (by decide)
    | environment => exact absurd (name_of_environment_layered hgives) (by decide)
    | file => exact absurd hrank (by decide)
  preferred := .inl rfl

end Sample

/-- The sample's settings come from three sources. -/
theorem Settings.load_by_precedence_layered :
    ∃ settings, load .injector Sample.layered = .ok settings ∧
      settings.value .controllerNamespace = "argued" ∧ settings.value .logLevel = [] ∧
      settings.value .configMapName = "maps" := by
  obtain ⟨-, hsettles, -, -⟩ := load_by_precedence Sample.namesDistinct_layered
  obtain ⟨settings, hload⟩ := hsettles.ok_iff.mpr fun f key value hdecides =>
    ⟨_, (Sample.gives_arguments_layered.mp hdecides.gives).2⟩
  have hvalue := hsettles.decided settings hload
  refine ⟨settings, hload, ?_, ?_, ?_⟩
  · exact (Json.string.inj (hvalue _ _ _ _ Sample.decides_controllerNamespace_layered)).symm
  · exact (Json.string.inj (hvalue _ _ _ _ Sample.decides_logLevel_layered)).symm
  · exact (Json.string.inj (hvalue _ _ _ _ Sample.decides_configMapName_layered)).symm

end ModelProvision
