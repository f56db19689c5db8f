import DependencyFiles.Bundler.Basic
import DependencyFiles.Keyed
import DependencyFiles.Pip.Basic
import DependencyFiles.Text.Quoted

/-!
# Known ecosystems

A registry holds ecosystems under their ids, in ascending order, one for each id.
-/

namespace DependencyFiles

/-- The ecosystems at hand, under their ids. -/
structure Registry where
  ecosystems : List (String × Ecosystem) := []

namespace Registry

/-- Add an ecosystem, which takes the place of one with the same id. -/
def add (registry : Registry) (ecosystem : Ecosystem) : Registry :=
  ⟨Keyed.insert ecosystem.id ecosystem registry.ecosystems⟩

/-- The ecosystem with an id. -/
def find? (registry : Registry) (id : String) : Option Ecosystem := registry.ecosystems.lookup id

/-- The ids in ascending order. -/
def ids (registry : Registry) : List String := registry.ecosystems.map (·.1)

/-- The ecosystems that the library brings along. -/
def standard : Registry := (({} : Registry).add .bundler).add .pip

/-- A one-line account of the registry. -/
def describe (registry : Registry) : String :=
  "RulesRegistry \x7b rules: [" ++ ", ".intercalate (registry.ids.map Text.quote) ++ "] \x7d"

end Registry

end DependencyFiles
