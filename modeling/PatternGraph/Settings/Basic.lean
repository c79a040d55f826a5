/-
This file defines the settings of an analysis and how they are read. Settings come in layers: the
defaults, then settings files in the order they were added, then single overrides. A later layer
wins key by key; a list replaces a list. A file that has to exist and does not, a file that is not
well formed, or in the end a setting of the wrong type, makes reading fail as a whole.

Types are not told apart more strictly than a reader of settings expects: a flag may be written as a
number or as one of the usual words, a number as a text, and the names of dialects and features in
any case. A structure may be given as the list of its settings.
-/

import PatternGraph.Flags
import PatternGraph.LogRecord
import PatternGraph.Reach.Checker
import PatternGraph.Settings.KeyPath
import PatternGraph.Settings.Toml.Document

namespace PatternGraph

/-- What an analysis goes by. -/
structure Settings where
  dialect : Dialect
  extraFeatures : List Feature
  /-- The letters of the flags that are active before a pattern begins. -/
  initialFlags : String
  /-- The number of reachability answers that are remembered. -/
  memoryLimit : Nat
  /-- The answer to what is not known once the memory is full. -/
  defaultAnswer : Bool

/-- A settings file as one layer. -/
structure SettingsFile where
  /-- What the file holds, `none` if it does not exist. -/
  contents : Option String
  /-- Whether the file may be missing. -/
  isOptional : Bool

/-- Everything that settings are made from. -/
structure SettingsLayers where
  files : List SettingsFile := []
  overrides : List (KeyPath × Value) := []

namespace Settings

/-- The settings before any layer. -/
def defaults : Value :=
  .record [
    ("dialect", .record [("name", .text "java"), ("extra_features", .list [])]),
    ("flags", .record [("initial", .text "")]),
    ("analysis", .record [("reachability_cache_limit", .integer Checker.defaultLimit),
      ("reachability_default_answer", .boolean false)])]

/-! ### Reading single settings -/

/-- A number of entries. Words for yes and no count as one and zero. -/
def count? : Value → Option Nat
  | .integer value => if 0 ≤ value then some value.toNat else none
  | .boolean value => some value.toNat
  | .text value =>
    if ["true", "on", "yes"].contains (Text.inSmallLetters value) then some 1
    else if ["false", "off", "no"].contains (Text.inSmallLetters value) then some 0
    else Text.numeral64? value
  | _ => none

/-- A choice between yes and no. -/
def choice? : Value → Option Bool
  | .boolean value => some value
  | .integer value => some (value != 0)
  | .text value =>
    if ["1", "true", "on", "yes"].contains (Text.inSmallLetters value) then some true
    else if ["0", "false", "off", "no"].contains (Text.inSmallLetters value) then some false
    else none
  | _ => none

/-- A text, or the text of a number or a choice. -/
def text? : Value → Option String
  | .text value => some value
  | .boolean value => some (toString value)
  | .integer value => some (toString value)
  | _ => none

/-- A name out of several in any case, given as a text or as the only key of a record. -/
def named? {α : Type} (all : List α) (name : α → String) (value : Value) : Option α :=
  let given? := match value with
    | .text given => some given
    | .record [(given, _)] => some given
    | _ => none
  given?.bind fun given => all.find? fun candidate => name candidate == Text.inSmallLetters given

/-- A list of features. -/
def features? : Value → Option (List Feature)
  | .list elements => elements.mapM (named? Feature.all Feature.name)
  | _ => none

/-- The settings of a structure by name, or by position if it is given as a list. -/
def members? (names : List String) : Value → Option (List Value)
  | .record fields => names.mapM fun name => fields.lookup name
  | .list elements => if names.length ≤ elements.length then some elements else none
  | _ => none

/-! ### Reading all settings -/

/-- The settings that the joined layers stand for. -/
def ofValue? (value : Value) : Option Settings := do
  let [dialect, flags, analysis] ← value.recordFields |> fun fields =>
    ["dialect", "flags", "analysis"].mapM fun name => fields.lookup name | none
  let name :: extraFeatures :: _ ← members? ["name", "extra_features"] dialect | none
  let initial :: _ ← members? ["initial"] flags | none
  let limit :: defaultAnswer :: _ ←
    members? ["reachability_cache_limit", "reachability_default_answer"] analysis | none
  return {
    dialect := ← named? Dialect.all Dialect.name name
    extraFeatures := ← features? extraFeatures
    initialFlags := ← text? initial
    memoryLimit := ← count? limit
    defaultAnswer := ← choice? defaultAnswer }

/-- Puts the fields of a file into settings. The key of a field may itself be a path. -/
def joinFields (settings : Value) (fields : List (String × Value)) : Value :=
  fields.foldl (fun settings (key, value) =>
    match KeyPath.parse? key with
    | some path => settings.assign path value
    | none => settings.assignField key value) settings

/-- Joins a file to settings. -/
def joinFile (settings : Value) (file : SettingsFile) : Option Value :=
  match file.contents with
  | some document => (Toml.parse? document).map (joinFields settings)
  | none => if file.isOptional then some settings else none

/-- The settings that layers stand for. -/
def load? (layers : SettingsLayers) : Option Settings :=
  (layers.files.foldlM joinFile (joinFields (.record []) defaults.recordFields)).bind fun joined =>
    ofValue? (layers.overrides.foldl (fun settings (path, value) => settings.assign path value)
      joined)

/-! ### What settings are used for -/

/-- The record of settings that were read. -/
def loadRecord (settings : Settings) : LogRecord where
  level := .debug
  message := "Loaded regex config: dialect " ++ settings.dialect.title ++ ", initial flags `" ++
    settings.initialFlags ++ "`"

/-- A pattern in the dialect of the settings. -/
def sourceOf (settings : Settings) (pattern : String) : Source :=
  ⟨pattern, settings.dialect, settings.extraFeatures⟩

/-- The flags active before a pattern begins. -/
def initialFlagSet (settings : Settings) : Except SyntaxFault FlagSet :=
  FlagSet.ofLetters? settings.initialFlags

/-- A checker with an empty memory. -/
def checker (settings : Settings) : Checker :=
  Checker.withLimit settings.defaultAnswer settings.memoryLimit

end Settings

end PatternGraph
