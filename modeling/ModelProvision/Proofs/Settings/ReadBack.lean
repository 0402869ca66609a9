import ModelProvision.Proofs.Settings.Precedence
import ModelProvision.Proofs.Settings.Sheet

/-!
# Settings as they are read back

**`Settings.load_sheet`**: where a sheet assigns values to settings, each on one line, and neither
an argument nor a variable gives a setting, loading gives it the value assigned to it, or its default.

What stands between the lines was settled with the bindings of the sheet (`Sheet.bindings_text`).
Here no two entries are for one setting, so no two names agree in any letter case
(`Assigns.nodup_names`): no entry displaces another, the file holds the entries as they stand
(`Assigns.assign_text`), and what it gives under a name of a setting is the value assigned to it
(`Assigns.choice_file`).
-/

namespace ModelProvision

open LetterCase

/-! ## Where no argument is given -/

namespace Sources

variable {s : Sources} {f : Field} {tier : Tier} {key : Text} {value : Json}

/-- What a source offers for a setting is looked up under one of its names. -/
theorem exists_layer_of_choice (h : s.choice f tier = some (key, value)) :
    f.Admits key ∧ s.layer tier key = some value := by
  obtain ⟨name, hname, hlayer⟩ := List.exists_of_findSome?_eq_some h
  obtain ⟨value', hvalue, heq⟩ := Option.map_eq_some_iff.mp hlayer
  obtain ⟨rfl, rfl⟩ := Prod.mk.inj heq
  exact ⟨Field.mem_names_iff.mp hname, hvalue⟩

/-- No arguments offer nothing … -/
theorem choice_arguments_of_nil (h : s.arguments = []) : s.choice f .arguments = none := by
  rw [Option.eq_none_iff_forall_ne_some]
  rintro ⟨key, value⟩ hchoice
  have hlayer := (exists_layer_of_choice hchoice).2
  have hnone : s.layer .arguments key = none := by
    rw [layer, h]
    rfl
  exact absurd (hnone.symm.trans hlayer) (by simp)

/-- … and neither does an environment without a name of the setting. -/
theorem choice_environment_of_absent (h : ∀ p ∈ s.environment, ¬ f.Admits (toSmall p.1)) :
    s.choice f .environment = none := by
  rw [Option.eq_none_iff_forall_ne_some]
  rintro ⟨key, value⟩ hchoice
  obtain ⟨hadmits, hlayer⟩ := exists_layer_of_choice hchoice
  obtain ⟨t, ht, -⟩ := Option.map_eq_some_iff.mp hlayer
  obtain ⟨p, hfind, -⟩ := Option.map_eq_some_iff.mp ht
  have hname : toSmall p.1 = key := by simpa using List.find?_some hfind
  have hmem : p ∈ s.environment := List.mem_reverse.mp (List.mem_of_find?_eq_some hfind)
  exact h p hmem (hname ▸ hadmits)

/-- Variables and files hold nothing but texts. -/
theorem exists_string_of_choice (htier : tier ≠ .arguments)
    (h : s.choice f tier = some (key, value)) : ∃ t, value = .string t := by
  have hlayer := (exists_layer_of_choice h).2
  cases tier with
  | arguments => exact absurd rfl htier
  | environment =>
    obtain ⟨t, -, rfl⟩ := Option.map_eq_some_iff.mp hlayer
    exact ⟨t, rfl⟩
  | file =>
    obtain ⟨t, -, rfl⟩ := Option.map_eq_some_iff.mp hlayer
    exact ⟨t, rfl⟩

/-- So without arguments whatever is decided is a text … -/
theorem exists_string_of_decision (h : s.arguments = [])
    (hdecision : decision? s.layers f.names = some (key, value)) : ∃ t, value = .string t := by
  rw [decision?_eq, choice_arguments_of_nil h, Option.none_or] at hdecision
  rcases Option.or_eq_some_iff.mp hdecision with henvironment | ⟨-, hfile⟩
  · exact exists_string_of_choice (by decide) henvironment
  · exact exists_string_of_choice (by decide) hfile

/-- … and nothing is faulty. -/
theorem faultyKey?_of_no_arguments (h : s.arguments = []) (f : Field) : f.faultyKey? s = none := by
  rw [Option.eq_none_iff_forall_ne_some]
  intro key hfaulty
  have hsetting := Field.faultyKey?_eq_some_iff.mp hfaulty
  rw [Field.setting] at hsetting
  cases hdecision : decision? s.layers f.names with
  | none =>
    rw [hdecision] at hsetting
    exact absurd hsetting (by simp)
  | some decided =>
    obtain ⟨key', value⟩ := decided
    obtain ⟨t, rfl⟩ := exists_string_of_decision h hdecision
    rw [hdecision] at hsetting
    exact absurd hsetting (by simp)

end Sources

/-! ## Sheets that assign values -/

namespace DotEnv.Sheet

/-- A sheet assigns values to some settings: each on one line, and no others. -/
def Assigns (s : Sheet) (values : Field → Option Text) : Prop :=
  ∀ f, (s.entries.filter fun e => e.field = f).map Entry.value = (values f).toList

namespace Assigns

variable {s : Sheet} {values : Field → Option Text} (h : s.Assigns values)
include h

theorem value_eq_some_iff {f : Field} {v : Text} :
    values f = some v ↔ ∃ e ∈ s.entries, e.field = f ∧ e.value = v := by
  rw [← Option.mem_toList, ← h f, List.mem_map]
  simp only [List.mem_filter, decide_eq_true_eq, and_assoc]

/-- Each setting has one entry at most. -/
theorem nodup_fields : (s.entries.map Entry.field).Nodup := by
  rw [List.nodup_iff_count_le_one]
  intro f
  have hlength := congrArg List.length (h f)
  rw [List.length_map, ← List.countP_eq_length_filter] at hlength
  -- a setting occurs among the entries as often as it has values, which is once at most
  have hcount : (s.entries.map Entry.field).count f = s.entries.countP fun e => e.field = f := by
    rw [List.count_eq_countP, List.countP_map]
    congr
  rw [hcount, hlength]
  cases values f <;> simp

/-- A name names one setting only, so the entries have as many names as settings. -/
theorem nodup_names : (s.entries.map fun e => toSmall e.name).Nodup := by
  have hfields := h.nodup_fields
  rw [List.Nodup, List.pairwise_map] at hfields ⊢
  -- two entries of one name would be for one setting
  refine hfields.imp fun {e e'} hne hsame => hne ?_
  have hadmits' := e'.admits
  rw [← hsame] at hadmits'
  exact e.admits.unique hadmits'

/-- The file assigns the entries as they stand. -/
theorem assign_text (environment : List (Text × Text)) :
    assign environment s.text = s.entries.map fun e => (e.name, some e.value) := by
  have hkeys : ((s.entries.map Entry.binding).map Binding.key).Nodup := by
    have hnames : ((s.entries.map Entry.name).map toSmall).Nodup := by
      rw [List.map_map]
      exact h.nodup_names
    rw [List.map_map]
    exact hnames.of_map
  have hplain : ∀ b ∈ s.entries.map Entry.binding,
      ∃ raw, b.value = some raw ∧ ¬ opening <:+: raw := by
    intro b hb
    obtain ⟨e, -, rfl⟩ := List.mem_map.mp hb
    exact ⟨e.value, rfl, e.plain.noReference⟩
  rw [assign, bindings_text, foldl_assignOne_of_plain environment hkeys hplain, List.map_map]
  rfl

/-- Under a name in any letter case the file gives the value of the entry that has it. -/
theorem layer_file {sources : Sources} (hfile : sources.file = some s.text) {name : Text}
    {value : Json} :
    sources.layer .file name = some value ↔
      ∃ e ∈ s.entries, toSmall e.name = name ∧ value = .string e.value := by
  have hdistinct : ((s.entries.map fun e => (e.name, some e.value)).map
      fun p => toSmall p.1).Nodup := by
    rw [List.map_map]
    exact h.nodup_names
  simp only [Sources.layer, hfile, Option.map_some, Option.getD_some, h.assign_text,
    Option.map_eq_some_iff, Option.join_eq_some_iff, Sources.lastInAnyCase?_eq_some_iff hdistinct,
    List.mem_map]
  constructor
  · rintro ⟨v, ⟨key, ⟨e, he, heq⟩, rfl⟩, rfl⟩
    obtain ⟨rfl, hvalue⟩ := Prod.mk.inj heq
    exact ⟨e, he, rfl, congrArg Json.string (Option.some.inj hvalue).symm⟩
  · rintro ⟨e, he, rfl, rfl⟩
    exact ⟨e.value, ⟨e.name, ⟨e, he, rfl⟩, rfl⟩, rfl⟩

/-- Under whichever of its names the file gives a setting, it gives the assigned value. -/
theorem choice_file {sources : Sources} (hfile : sources.file = some s.text) (f : Field) :
    (sources.choice f .file).map Prod.snd = (values f).map Json.string := by
  cases hchoice : sources.choice f .file with
  | none =>
    cases hvalue : values f with
    | none => rfl
    | some v =>
      obtain ⟨e, he, rfl, -⟩ := h.value_eq_some_iff.mp hvalue
      -- the entry of the setting has a name that would have been found
      rw [Sources.choice, List.findSome?_eq_none_iff] at hchoice
      have hnone := hchoice _ (Field.mem_names_iff.mpr e.admits)
      rw [(h.layer_file hfile).mpr ⟨e, he, rfl, rfl⟩] at hnone
      exact absurd hnone (by simp)
  | some decided =>
    obtain ⟨key, value⟩ := decided
    obtain ⟨hadmits, hlayer⟩ := Sources.exists_layer_of_choice hchoice
    obtain ⟨e, he, rfl, rfl⟩ := (h.layer_file hfile).mp hlayer
    rw [h.value_eq_some_iff.mpr ⟨e, he, e.admits.unique hadmits, rfl⟩]
    rfl

/-- A setting is what the sheet assigns, or its default. -/
theorem setting_eq {sources : Sources} (harguments : sources.arguments = [])
    (hfile : sources.file = some s.text) {f : Field}
    (habsent : ∀ p ∈ sources.environment, ¬ f.Admits (toSmall p.1)) :
    f.setting sources.layers = .ok ((values f).getD f.default) := by
  have hchoice := h.choice_file hfile f
  rw [Field.setting, Sources.decision?_eq, Sources.choice_arguments_of_nil harguments,
    Sources.choice_environment_of_absent habsent, Option.none_or, Option.none_or]
  -- arguments and environment offer nothing, so the file decides
  cases hdecision : sources.choice f .file with
  | none =>
    rw [hdecision] at hchoice
    rw [Option.map_eq_none_iff.mp hchoice.symm]
    rfl
  | some decided =>
    rw [hdecision] at hchoice
    obtain ⟨v, hv, hstring⟩ := Option.map_eq_some_iff.mp hchoice.symm
    obtain ⟨key, value⟩ := decided
    obtain rfl : Json.string v = value := hstring
    rw [hv]
    rfl

end Assigns

end DotEnv.Sheet

namespace Settings

/-- **What a sheet assigns is read back.** Other settings have their defaults, save those that a
variable gives. -/
theorem load_sheet {sheet : DotEnv.Sheet} {values : Field → Option Text}
    (h : sheet.Assigns values) (environment : Environment) :
    ∃ settings, load .injector { environment := environment, file := some sheet.text } =
        .ok settings ∧
      settings.scope = .injector ∧
      ∀ f, (∀ p ∈ environment, ¬ f.Admits (toSmall p.1)) →
        settings.value f = (values f).getD f.default := by
  obtain ⟨settings, hload, hscope, hvalue⟩ :=
    load_of_faultless .injector fun f _ => Sources.faultyKey?_of_no_arguments
      (s := { environment := environment, file := some sheet.text }) rfl f
  refine ⟨settings, hload, hscope, fun f habsent => ?_⟩
  have hsetting := hvalue f (Scope.mem_fields_injector f)
  rw [h.setting_eq rfl rfl habsent] at hsetting
  exact (Except.ok.inj hsetting).symm

end Settings

namespace Sample

open DotEnv

/-- The value looks like three lines of other kinds. -/
def namespaceEntry : Entry where
  field := .controllerNamespace
  name := "Pod_NameSpace"
  value := "two\n# \"$lines\"\n= and more"
  indent := ⟨[], by decide⟩
  exported := some ⟨⟨"\t ", by decide⟩, by decide⟩
  gap := ⟨"  ", by decide⟩
  remark := some ⟨" =", by decide⟩
  admits := .inr ⟨rfl, by decide⟩
  plain := ⟨by decide, by decide, by decide, by decide +kernel⟩

def environmentEntry : Entry where
  field := .environment
  name := "mi_ENV"
  value := []
  indent := ⟨" ", by decide⟩
  exported := none
  gap := ⟨[], by decide⟩
  remark := none
  admits := .inl (by decide)
  plain := ⟨by decide, by decide, by decide, by decide +kernel⟩

/-- The last line has no end. -/
def sheet : Sheet where
  lines :=
    [(.blank ⟨[], by decide⟩, .both),
      (.comment ⟨[], by decide⟩ ⟨" MI_ENV='remarked'", by decide⟩, .carriageReturn),
      (.assigned namespaceEntry, .both),
      (.malformed ⟨" ", by decide⟩ ⟨"MI_ENV='malformed", by decide⟩, .lineFeed),
      (.blank ⟨"\t", by decide⟩, .carriageReturn)]
  last := .assigned environmentEntry

def written : Text :=
  "\r\n# MI_ENV='remarked'\rexport\t Pod_NameSpace='two\n# \"$lines\"\n= and more'  # =\r\n" ++
    Text.ofString " =MI_ENV='malformed\n\t\r mi_ENV=''"

theorem text_sheet : sheet.text = written := by decide +kernel

def assignment : Field → Option Text
  | .controllerNamespace => some "two\n# \"$lines\"\n= and more"
  | .environment => some []
  | _ => none

theorem assigns_sheet : sheet.Assigns assignment := by
  intro f
  cases f <;> decide +kernel

def home : Environment := [("HOME", "/root")]

theorem not_admits_home (f : Field) : ∀ p ∈ home, ¬ f.Admits (toSmall p.1) := by
  intro p hp
  obtain rfl := List.mem_singleton.mp hp
  rw [← Field.mem_names_iff]
  cases f <;> decide

end Sample

/-- The value that looks like other lines is read back. -/
theorem Settings.load_sheet_sample :
    Sample.sheet.Assigns Sample.assignment ∧
      ∃ settings, load .injector { environment := Sample.home, file := some Sample.written } =
          .ok settings ∧
        settings.value .controllerNamespace = "two\n# \"$lines\"\n= and more" ∧
        settings.value .environment = [] ∧ settings.value .logLevel = "INFO" := by
  refine ⟨Sample.assigns_sheet, ?_⟩
  obtain ⟨settings, hload, -, hvalue⟩ := load_sheet Sample.assigns_sheet Sample.home
  rw [Sample.text_sheet] at hload
  have habsent := Sample.not_admits_home
  exact ⟨settings, hload, hvalue _ (habsent _), hvalue _ (habsent _), hvalue _ (habsent _)⟩

end ModelProvision
