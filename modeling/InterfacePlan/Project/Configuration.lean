import InterfacePlan.Project.LoadError
import InterfacePlan.Settings.Basic
/-!
# Configuration files

Settings are read from two files that may both be missing: one of the user, and one of the project,
which goes on top.

## Main definitions

* `Settings.ofConfiguration`: the settings of a configuration text
* `Settings.load`: the settings of two configuration files
* `Configuration.pathBelow`: where a configuration file is expected
-/

namespace InterfacePlan

/-- The configuration file of a home directory or of a project directory. -/
def Configuration.pathBelow (directory : Path) : Path :=
  Path.join (Path.join directory ".vidl") "config.toml"

/-- The layer of settings in a configuration file. -/
def SettingsLayer.load (w : WorkingTree) (path : Path) : Except LoadError SettingsLayer := do
  let text ← w.readFor "failed to read config" path
  (Toml.decode text SettingsLayer.ofFile).mapError (.within ("failed to parse config: " ++ path))

namespace Settings

/-- **The settings of a configuration text**, on top of the defaults. -/
def ofConfiguration (text : String) : Except LoadError Settings := do
  let layer ← (Toml.decode text SettingsLayer.ofFile).mapError (.within "failed to parse config")
  return merged {} layer

/-- Settings with a configuration file on top, if it exists. -/
def mergedFile (s : Settings) (w : WorkingTree) (path : Path) : Except LoadError Settings :=
  if w.contains path then (SettingsLayer.load w path).map s.merged else .ok s

/-- **The settings of two configuration files**: that of the user, if there is a place for it, and
that of the project on top. -/
def load (w : WorkingTree) (user : Option Path) (project : Path) : Except LoadError Settings := do
  let settings ← match user with
    | some path => mergedFile {} w path
    | none => .ok {}
  settings.mergedFile w project

end Settings

end InterfacePlan
