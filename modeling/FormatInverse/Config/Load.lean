import FormatInverse.Config.Decode
import FormatInverse.Json.Codec
import FormatInverse.Yaml.Reader

/-!
# Configurations from texts
-/

namespace FormatInverse.Config

/-- The usable configuration that a JSON text holds. -/
def ofJson (t : Text) : Except ConfigError Config := load (Json.read? t)

/-- The usable configuration that a YAML text holds. -/
def ofYaml (t : Text) : Except ConfigError Config := load (Yaml.read? t)

end FormatInverse.Config
