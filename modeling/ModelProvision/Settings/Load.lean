import ModelProvision.Fault
import ModelProvision.Plan
import ModelProvision.Settings.DotEnv
import ModelProvision.Settings.Environment
import ModelProvision.Settings.Field
import ModelProvision.Text.LetterCase

/-!
# Loading settings

A setting is decided by the first of three sources that gives it: the arguments of the caller, the
environment, the environment file. Within a source the preferred name decides. Names of arguments
match exactly; names in the other two match in any case, and of several that differ only in case the
one set last counts. An empty text is given; a key of the file without a value is not.

An argument that is no text makes loading fail, and the failure lists the keys of all such
arguments that decide a setting (`Settings.load`).
-/

namespace ModelProvision

/-- Where settings come from. -/
structure Sources where
  arguments : List (Text × Json) := []
  environment : Environment := []
  /-- The text of the environment file, if there is one. -/
  file : Option Text := none

/-- What one source gives for a name. -/
abbrev Layer := Text → Option Json

namespace Sources

/-- The value set last under a name in any case. -/
def lastInAnyCase? {α : Type} (pairs : List (Text × α)) (name : Text) : Option α :=
  -- the last pair set is the first from the back
  (pairs.reverse.find? fun p => LetterCase.toSmall p.1 = name).map Prod.snd

/-- What each source gives for a name, the deciding source first. -/
def layers (s : Sources) : List Layer :=
  let arguments := Keyed.ofPairs s.arguments
  let file := (s.file.map (DotEnv.assign s.environment)).getD []
  [fun name => Keyed.lookup? name arguments,
    fun name => (lastInAnyCase? s.environment name).map Json.string,
    fun name => (lastInAnyCase? file name).join.map Json.string]

end Sources

/-- The key that decides among names, the preferred one first, and its value. -/
def decision? (layers : List Layer) (names : List Text) : Option (Text × Json) :=
  layers.findSome? fun layer => names.findSome? fun name => (layer name).map fun v => (name, v)

/-- A setting, or the key whose value is no text. -/
def Field.setting (layers : List Layer) (f : Field) : Except Text Text :=
  match decision? layers f.names with
  | none => .ok f.default
  | some (_, .string t) => .ok t
  | some (key, _) => .error key

/-- The settings of a component. -/
structure Settings where
  scope : Scope
  value : Field → Text

namespace Settings

/-- The settings when nobody gives any. -/
def defaults (scope : Scope) : Settings := ⟨scope, Field.default⟩

/-- The settings of a scope; the fields outside the scope keep their defaults. -/
def load (scope : Scope) (s : Sources) : Except Fault Settings :=
  let layers := s.layers
  let decided := scope.fields.map fun (f : Field) => (f, f.setting layers)
  -- all faults are reported together, in the order of the fields
  match decided.filterMap fun d => match d.2 with
    | .error key => some key
    | .ok _ => none with
  | [] =>
    .ok ⟨scope, fun f =>
      match Keyed.lookup? f decided with
      | some (.ok value) => value
      | _ => f.default⟩
  | keys => .error (.invalidSettings keys)

/-- The image of the init container with its version. -/
def imageRef (s : Settings) : Text :=
  s.value .initializerImage ++ ":" ++ s.value .initializerVersion

/-- Where a plan mounts things under these settings. -/
def mountPaths (s : Settings) : MountPaths where
  localPath := s.value .localMountPath
  claimPath := s.value .claimMountPath

end Settings

end ModelProvision
