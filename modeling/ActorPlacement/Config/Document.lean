import ActorPlacement.Config.Basic
import ActorPlacement.Json.Printer
import ActorPlacement.Json.Reader
import ActorPlacement.Toml.Reader
import ActorPlacement.Toml.Writer

/-!
# Configurations as documents

A configuration is written in TOML; JSON says the same sections. TOML passes over what follows the
last field of a record that is written as a list, JSON refuses it.
-/

namespace ActorPlacement.Config

/-- Read a configuration from TOML. -/
def ofToml? (s : String) : Option (Config Float) := (Toml.readTree? s).bind (ofTree? .passedOver)

/-- Write a configuration in TOML. -/
def toToml (c : Config Float) : String := Toml.write c.toTree

/-- Read a configuration from JSON. -/
def ofJson? (s : String) : Option (Config Float) := (Json.readTree? s).bind (ofTree? .refused)

/-- Write a configuration in JSON. -/
def toJson (c : Config Float) : String := Json.compact c.toTree

end ActorPlacement.Config
