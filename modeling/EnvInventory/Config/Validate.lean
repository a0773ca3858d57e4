import EnvInventory.Config.Basic
import EnvInventory.Date.Format
import EnvInventory.Failure
import EnvInventory.Glob.Rules

/-!
# Validating a configuration

A configuration is usable when its date format and both its globs can be read.  They are looked at in
this order, and the first that fails is reported.
-/

namespace EnvInventory.Config

/-- The problem with a date format, if it has one. -/
def dateFormatProblem? (format : String) : Option ValueProblem :=
  if format = "" then some .emptyFormat
  else if (DateFormat.read? format).isNone then some (.invalidFormat format)
  else none

def globProblem? (pattern : String) : Option ValueProblem :=
  if (Glob.read? pattern).isNone then some (.invalidGlob pattern "malformed glob expression")
  else none

/-- The first unusable setting of a configuration. -/
def problem? (config : Config) : Option ConfigError :=
  match dateFormatProblem? config.generate.dateFormat with
  | some problem => some (.invalidValue "generate" "date_format" problem)
  | none =>
      match globProblem? config.discovery.iniGlob with
      | some problem => some (.invalidValue "discovery" "ini_glob" problem)
      | none =>
          (globProblem? config.discovery.luaGlob).map (.invalidValue "discovery" "lua_glob")

/-- Resolve a configuration against a root and make sure that it is usable. -/
def resolved (root : String) (config : Config) : Except ConfigError Config :=
  match config.problem? with
  | some error => .error error
  | none => .ok (config.resolve root)

end EnvInventory.Config
