import Mathlib.Data.List.DropRight
import Mathlib.Data.List.Induction
import ModelProvision.Logging

/-!
# What set-ups leave in force

One set-up takes one of three courses, whatever logging was before (`SetUp.applyTo_cases`): it finds
no level and does nothing, it finds a level but no form and only puts the level in force, or it
succeeds and replaces the threshold, the form and the context.

So after a run of set-ups the form and the context are those of the last one that succeeded, as if
no other had been made (`setup_setUpAll`). The threshold is that of the last one that found a level,
and that one may have failed (`threshold_setUpAll`). **`setUpAll_leaves`** puts the two together: a
run leaves what its last success asks for by itself exactly when the level that was found last since
then is the one in force anyway. A failure that finds another level leaves a trace
(`setUpAll_keeps_failed_level`).
-/

namespace ModelProvision

/-- There is a level and there is a form of the names that the settings give. -/
def Settings.LoggingSupported (s : Settings) : Prop :=
  (Logging.threshold? (s.value .logLevel)).isSome ∧ (Logging.format? (s.value .logFormat)).isSome

instance (s : Settings) : Decidable s.LoggingSupported := inferInstanceAs (Decidable (_ ∧ _))

/-- Setting logging up succeeds where level and form are supported. -/
theorem Logging.setUp_eq_ok_iff {s : Settings} {service : Json} {log : Logging} :
    (log.setUp s service).1 = .ok () ↔ s.LoggingSupported := by
  rw [setUp, Settings.LoggingSupported]
  cases hthreshold : threshold? (s.value .logLevel) with
  | none => simp
  | some threshold =>
    cases hformat : format? (s.value .logFormat) with
    | none => simp [formatOf, hformat]
    | some format => simp [formatOf, hformat]

/-! ## One set-up -/

/-- What logging is set up with. -/
structure SetUp where
  settings : Settings
  service : Json

namespace SetUp

def threshold? (c : SetUp) : Option Nat := Logging.threshold? (c.settings.value .logLevel)

def format? (c : SetUp) : Option LogFormat := Logging.format? (c.settings.value .logFormat)

def context (c : SetUp) : LogContext := .ofSettings c.settings c.service

/-- Logging after the set-up, whether it succeeded or failed. -/
def applyTo (c : SetUp) (log : Logging) : Logging := (log.setUp c.settings c.service).2

def Succeeds (c : SetUp) : Prop := c.settings.LoggingSupported

instance (c : SetUp) : Decidable c.Succeeds :=
  inferInstanceAs (Decidable c.settings.LoggingSupported)

/-- The three courses of a set-up. -/
theorem applyTo_cases (c : SetUp) :
    (¬ c.Succeeds ∧ c.threshold? = none ∧ ∀ log, c.applyTo log = log) ∨
    (¬ c.Succeeds ∧ ∃ n, c.threshold? = some n ∧
      ∀ log, c.applyTo log = { log with threshold := n }) ∨
    (c.Succeeds ∧ ∃ n format, c.threshold? = some n ∧ c.format? = some format ∧
      ∀ log, c.applyTo log = { log with threshold := n, setup := some (format, c.context) }) := by
  unfold Succeeds Settings.LoggingSupported threshold? format? applyTo Logging.setUp
  cases Logging.threshold? (c.settings.value .logLevel) with
  | none => exact .inl ⟨by simp, rfl, fun log => rfl⟩
  | some n =>
    unfold Logging.formatOf
    cases Logging.format? (c.settings.value .logFormat) with
    | none => exact .inr (.inl ⟨by simp, n, rfl, fun log => rfl⟩)
    | some format => exact .inr (.inr ⟨by simp, n, format, rfl, rfl, fun log => rfl⟩)

end SetUp

/-- What logging is configured to do. -/
@[ext]
structure LogConfiguration where
  /-- Entries of a lower rank are not written. -/
  threshold : Nat
  /-- The steps that a record is taken through, once logging is set up. -/
  stages : Option (List String)
  /-- The fields that every record has. -/
  context : Fields

def Logging.configuration (log : Logging) : LogConfiguration where
  threshold := log.threshold
  stages := log.setup.map fun setup => stages setup.1
  context := log.context

/-- The configuration is the one that the set-up asks for. -/
structure SetUp.AsksFor (c : SetUp) (configuration : LogConfiguration) : Prop where
  level : c.threshold? = some configuration.threshold
  form : c.format?.map Logging.stages = configuration.stages
  context : configuration.context = c.context.fields

/-- A success leaves what it asks for, whatever was before. -/
theorem SetUp.Succeeds.asksFor {c : SetUp} (h : c.Succeeds) (log : Logging) :
    c.AsksFor (c.applyTo log).configuration := by
  rcases c.applyTo_cases with ⟨hfails, -⟩ | ⟨hfails, -⟩ | ⟨-, n, format, hlevel, hform, happly⟩
  · exact absurd h hfails
  · exact absurd h hfails
  · rw [happly]
    exact ⟨hlevel, by rw [hform]; rfl, rfl⟩

/-- The context of a component without a config map names none. -/
theorem LogContext.field_ne_of_base {s : Settings} (hscope : s.scope = .base) (service : Json)
    {field : Text × Json} (hfield : field ∈ (ofSettings s service).fields) :
    field.1 ≠ "controller_namespace" ∧ field.1 ≠ "config_map" := by
  simp only [ofSettings, fields, hscope, List.mem_cons, List.not_mem_nil, or_false] at hfield
  rcases hfield with rfl | rfl
  · show Text.ofString "service" ≠ _ ∧ Text.ofString "service" ≠ _
    decide
  · show Text.ofString "env" ≠ _ ∧ Text.ofString "env" ≠ _
    decide

/-! ## Runs -/

/-- The last set-up that succeeds, if one does. -/
def SetUp.lastSuccess (calls : List SetUp) : Option SetUp :=
  (calls.filter fun c => c.Succeeds).getLast?

/-- The set-ups after the last one that succeeds; all of them, if none does. -/
def SetUp.sinceSuccess (calls : List SetUp) : List SetUp :=
  calls.rtakeWhile fun c => ¬ c.Succeeds

/-- The level that set-ups found last, if one of them found any. -/
def SetUp.lastLevel (calls : List SetUp) : Option Nat :=
  (calls.filterMap threshold?).getLast?

namespace Logging

open SetUp (lastSuccess sinceSuccess lastLevel)

/-- Set logging up again and again. -/
def setUpAll (log : Logging) (calls : List SetUp) : Logging :=
  calls.foldl (fun log c => c.applyTo log) log

/-- Logging as if the last set-up that succeeds had been the only one; as it was, if none does. -/
def afterLastSuccess (log : Logging) (calls : List SetUp) : Logging :=
  log.setUpAll (lastSuccess calls).toList

variable (log : Logging) (calls : List SetUp)

theorem setUpAll_append_singleton (c : SetUp) :
    log.setUpAll (calls ++ [c]) = c.applyTo (log.setUpAll calls) := by
  unfold setUpAll
  rw [List.foldl_append]
  rfl

section Last

variable {c : SetUp}

theorem afterLastSuccess_of_succeeds (h : c.Succeeds) :
    log.afterLastSuccess (calls ++ [c]) = c.applyTo log := by
  have hlast : lastSuccess (calls ++ [c]) = some c := by simp [lastSuccess, h]
  rw [afterLastSuccess, hlast]
  rfl

theorem afterLastSuccess_of_fails (h : ¬ c.Succeeds) :
    log.afterLastSuccess (calls ++ [c]) = log.afterLastSuccess calls := by
  have hlast : lastSuccess (calls ++ [c]) = lastSuccess calls := by simp [lastSuccess, h]
  rw [afterLastSuccess, hlast, afterLastSuccess]

theorem sinceSuccess_of_succeeds (h : c.Succeeds) : sinceSuccess (calls ++ [c]) = [] :=
  List.rtakeWhile_concat_neg _ _ _ (by simpa using h)

theorem sinceSuccess_of_fails (h : ¬ c.Succeeds) :
    sinceSuccess (calls ++ [c]) = sinceSuccess calls ++ [c] :=
  List.rtakeWhile_concat_pos _ _ _ (by simpa using h)

/-- The level that is found last counts. -/
theorem lastLevel_append_singleton :
    lastLevel (calls ++ [c]) = c.threshold?.or (lastLevel calls) := by
  unfold lastLevel
  rw [List.filterMap_append, List.getLast?_append]
  cases hlevel : c.threshold? with
  | none => simp [hlevel]
  | some n => simp [hlevel]

end Last

/-- A run leaves the form and the context of its last success. By induction on the run from its end: only
a success touches them. -/
theorem setup_setUpAll : (log.setUpAll calls).setup = (log.afterLastSuccess calls).setup := by
  induction calls using List.reverseRecOn with
  | nil => rfl
  | append_singleton before c ih =>
    rw [setUpAll_append_singleton]
    rcases c.applyTo_cases with
      ⟨hfails, -, happly⟩ | ⟨hfails, n, -, happly⟩ | ⟨h, n, format, -, -, happly⟩
    -- no level, then a level without a form, then both
    · rw [happly, afterLastSuccess_of_fails log before hfails, ih]
    · rw [happly, afterLastSuccess_of_fails log before hfails, ← ih]
    · rw [happly, afterLastSuccess_of_succeeds log before h, happly]

/-- A run leaves the level that was found last since the last success, or the success's own. By induction
on the run from its end: each set-up that finds a level puts it in force. -/
theorem threshold_setUpAll :
    (log.setUpAll calls).threshold =
      (lastLevel (sinceSuccess calls)).getD (log.afterLastSuccess calls).threshold := by
  induction calls using List.reverseRecOn with
  | nil => rfl
  | append_singleton before c ih =>
    rw [setUpAll_append_singleton]
    rcases c.applyTo_cases with
      ⟨hfails, hlevel, happly⟩ | ⟨hfails, n, hlevel, happly⟩ | ⟨h, n, format, -, -, happly⟩
    · rw [happly, afterLastSuccess_of_fails log before hfails, sinceSuccess_of_fails before hfails,
        lastLevel_append_singleton, hlevel, Option.none_or, ih]
    · rw [happly, afterLastSuccess_of_fails log before hfails, sinceSuccess_of_fails before hfails,
        lastLevel_append_singleton, hlevel, Option.some_or, Option.getD_some]
    · rw [happly, afterLastSuccess_of_succeeds log before h, sinceSuccess_of_succeeds before h,
        happly]
      rfl

/-- What a run of set-ups leaves in force. -/
structure Leaves (log : Logging) (calls : List SetUp) (after : Logging) : Prop where
  /-- The last success by itself would leave what it asks for, whatever was before. -/
  asked : ∀ c ∈ lastSuccess calls, c.AsksFor (log.afterLastSuccess calls).configuration
  initial : lastSuccess calls = none → log.afterLastSuccess calls = log
  stages : after.configuration.stages = (log.afterLastSuccess calls).configuration.stages
  context : after.configuration.context = (log.afterLastSuccess calls).configuration.context
  /-- Nothing of an earlier config map is left after a component without one. -/
  forgotten : ∀ c ∈ lastSuccess calls, c.settings.scope = .base →
    ∀ field ∈ after.configuration.context,
      field.1 ≠ "controller_namespace" ∧ field.1 ≠ "config_map"
  /-- All is as the last success by itself would leave it, unless the last level that was found
  since is another one than its own. -/
  configuration_iff : after.configuration = (log.afterLastSuccess calls).configuration ↔
    ∀ n ∈ lastLevel (sinceSuccess calls), n = (log.afterLastSuccess calls).threshold

/-- The last success by itself leaves what it asks for. -/
theorem asksFor_afterLastSuccess {c : SetUp} (h : c ∈ lastSuccess calls) :
    c.AsksFor (log.afterLastSuccess calls).configuration := by
  have hsucceeds : c.Succeeds := by
    simpa using (List.mem_filter.mp (List.mem_of_getLast? h)).2
  rw [afterLastSuccess, Option.mem_def.mp h]
  exact hsucceeds.asksFor log

/-- A run leaves what its last success asks for, but for a level that was found since. -/
theorem leaves_setUpAll : log.Leaves calls (log.setUpAll calls) := by
  have hsetup := setup_setUpAll log calls
  have hstages : (log.setUpAll calls).configuration.stages =
      (log.afterLastSuccess calls).configuration.stages :=
    congrArg (Option.map fun setup : LogFormat × LogContext => Logging.stages setup.1) hsetup
  have hcontext : (log.setUpAll calls).configuration.context =
      (log.afterLastSuccess calls).configuration.context := by
    show Logging.context _ = Logging.context _
    rw [Logging.context, Logging.context, hsetup]
  constructor
  case asked => exact fun c hc => asksFor_afterLastSuccess log calls hc
  case initial =>
    intro hnone
    rw [afterLastSuccess, hnone]
    rfl
  case stages => exact hstages
  case context => exact hcontext
  case forgotten =>
    intro c hc hscope field hfield
    rw [hcontext, (asksFor_afterLastSuccess log calls hc).context] at hfield
    exact LogContext.field_ne_of_base hscope c.service hfield
  case configuration_iff =>
    have hthreshold := threshold_setUpAll log calls
    -- form and context agree anyway, so the level decides
    constructor
    · intro hsame n hn
      rw [Option.mem_def.mp hn] at hthreshold
      exact hthreshold.symm.trans (congrArg LogConfiguration.threshold hsame)
    · intro hlevel
      have hsame : (log.setUpAll calls).threshold = (log.afterLastSuccess calls).threshold := by
        rw [hthreshold]
        cases hlast : lastLevel (sinceSuccess calls) with
        | none => rfl
        | some n => exact hlevel n hlast
      exact LogConfiguration.ext hsame hstages hcontext

/-- **A run of set-ups leaves what its last success asks for, but for the levels of failures.** -/
theorem setUpAll_leaves :
    (∀ (c : SetUp) (log' : Logging),
      (log'.setUp c.settings c.service).1 = .ok () ↔ c.Succeeds) ∧
      log.Leaves calls (log.setUpAll calls) :=
  ⟨fun _ _ => setUp_eq_ok_iff, leaves_setUpAll log calls⟩

end Logging

namespace Sample

/-- A set-up that succeeds. -/
def wellFormed : SetUp := ⟨.defaults .injector, Logging.defaultService⟩

/-- A set-up that finds a level but no form. -/
def misformed : SetUp where
  settings :=
    { scope := .injector
      value := fun
        | .logLevel => "DEBUG"
        | .logFormat => "xml"
        | f => f.default }
  service := Logging.defaultService

end Sample

/-- The last success is not all that counts: a failure after it leaves its level in force. -/
theorem Logging.setUpAll_keeps_failed_level :
    Sample.wellFormed.Succeeds ∧ ¬ Sample.misformed.Succeeds ∧
      (setUpAll {} [Sample.wellFormed, Sample.misformed]).configuration ≠
        (afterLastSuccess {} [Sample.wellFormed, Sample.misformed]).configuration := by
  refine ⟨by decide, by decide, fun hsame => ?_⟩
  have hlevel := congrArg LogConfiguration.threshold hsame
  revert hlevel
  decide

end ModelProvision
