import FingerprintSet.Settings.Codec
import FingerprintSet.Toml.Written

/-!
# Written settings

Settings as a TOML document, which loads as the same settings.
-/

namespace FingerprintSet.Settings

/-- The document of settings.  There is none if a whole number is too large for TOML. -/
def toToml (settings : Settings) : Except SettingsError String :=
  match settings.toTree with
  | .ok tree => .ok (Toml.write tree)
  | .error complaint => .error (.unwritable complaint)

end FingerprintSet.Settings
