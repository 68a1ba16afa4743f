import Refit.Adapter.Units
import Refit.Project.Analyze

namespace Refit

structure Adapter where
  name : String
  description : String
  recognises : Disk → Path → Report Bool
  analyze : Disk → Path → List ExtractedText → Report Analysis
  component : Disk → Component → Analysis → Report String
  page : Disk → Page → Analysis → Report String
  companion : Disk → String → Analysis → Report String
  styles : StyleUse → Analysis → Report (List (String × String))
  carriedStyles : Disk → StyleUse → Analysis → List (String × String) → Report (List CarriedStyle)
  configuration : Analysis → Report (List (String × String))
  manifest : Analysis → Report Json.Value
  render : Output.Renderer

namespace Adapter

def ofWorkshop (shop : Workshop) : Adapter :=
  { name := shop.dialect.name
    description := shop.dialect.description
    recognises := shop.dialect.recognises shop.rules
    analyze := fun disk path texts => do
      let root ← Report.ofExcept (disk.resolveUser path)
      Survey.analyze ⟨disk, root, shop.dialect.layout, shop.rules⟩ texts
    component := shop.component
    page := shop.page
    companion := fun disk path analysis => Report.ofExcept (shop.companion disk path analysis)
    styles := fun _ analysis => Report.ofExcept (shop.styles analysis)
    carriedStyles := fun disk styling analysis generated =>
      Report.ofExcept (shop.carriedStyles disk styling analysis generated)
    configuration := fun analysis => Report.ofExcept (shop.configuration analysis)
    manifest := fun analysis => pure (shop.manifest analysis)
    render := shop.render }

end Adapter

/-- A run can choose from the adapters that come with the program, and from plugins. -/
inductive Plugin where
  | adapter (make : Options → List IgnoreRule → Adapter)
  | useless
  | broken (message : String)

structure PluginEntry where
  name : String
  plugin : Plugin

structure Registry where
  options : Options
  rules : List IgnoreRule
  render : Output.Renderer
  plugins : List PluginEntry

namespace Registry

/-- The frameworks that come with the program. The signs of the first ones are more specific. -/
def builtin : List Dialect := [Dialect.lovable, Dialect.bolt]

def ofDialect (registry : Registry) (dialect : Dialect) : Adapter :=
  Adapter.ofWorkshop ⟨dialect, registry.options, registry.rules, registry.render⟩

def builtinAdapters (registry : Registry) : List Adapter := builtin.map registry.ofDialect

/-- Loads plugins. A name that was there before, in any case, is passed over, but its plugin has to
    load all the same. -/
def load (registry : Registry) : List String → List PluginEntry → Except RegistryFault (List Adapter)
  | _, [] => .ok []
  | seen, entry :: rest =>
    let key := Text.lower entry.name
    match entry.plugin with
    | .broken message => .error (.notLoaded entry.name message)
    | .useless => if seen.contains key then registry.load seen rest else .error .notAdapter
    | .adapter make =>
      if seen.contains key then registry.load seen rest
      else do
        let others ← registry.load (key :: seen) rest
        pure (make registry.options registry.rules :: others)

def adapters (registry : Registry) : Except RegistryFault (List Adapter) := do
  let plugins ← registry.load (builtin.map (fun dialect => Text.lower dialect.name)) registry.plugins
  pure (registry.builtinAdapters ++ plugins)

def names (registry : Registry) : List String :=
  Source.distinct (builtin.map (·.name) ++ registry.plugins.map (·.name))

def find (registry : Registry) (name : String) : Except RegistryFault Adapter := do
  let adapters ← registry.adapters
  match adapters.find? (fun adapter => Text.lower adapter.name = Text.lower name) with
  | some adapter => pure adapter
  | none => throw (.unknown name)

end Registry
end Refit
