namespace Refit

inductive Platform where
  | nextjs
  | react
  | other (name : String)
  deriving DecidableEq

namespace Platform

def choices : List String := ["nextjs", "react"]

def name : Platform → String
  | nextjs => "nextjs"
  | react => "react"
  | other name => name

def ofName (name : String) : Platform :=
  if name = "nextjs" then nextjs else if name = "react" then react else other name

end Platform

inductive TargetStyling where
  | tailwind
  | styledComponents
  | cssModules
  | other (name : String)
  deriving DecidableEq

namespace TargetStyling

def choices : List String := ["tailwind", "styled-components", "css-modules"]

def name : TargetStyling → String
  | tailwind => "tailwind"
  | styledComponents => "styled-components"
  | cssModules => "css-modules"
  | other name => name

def ofName (name : String) : TargetStyling :=
  if name = "tailwind" then tailwind
  else if name = "styled-components" then styledComponents
  else if name = "css-modules" then cssModules
  else other name

end TargetStyling

/-- Options with flags of a type: truth values in a run, any values while they are collected. -/
structure OptionsOf (Flag : Type) where
  outputPath : String
  preserveStructure : Flag
  createBackup : Flag
  migrateTests : Flag
  migrateStories : Flag
  convertToTypescript : Flag
  addLocalization : Flag
  addCompliance : Flag
  platform : Platform
  styling : TargetStyling
  dryRun : Flag

namespace OptionsOf

def plain {Flag : Type} (flag : Flag) (outputPath : String) : OptionsOf Flag :=
  ⟨outputPath, flag, flag, flag, flag, flag, flag, flag, .react, .tailwind, flag⟩

def map {α β : Type} (f : α → β) (options : OptionsOf α) : OptionsOf β :=
  ⟨options.outputPath, f options.preserveStructure, f options.createBackup, f options.migrateTests,
    f options.migrateStories, f options.convertToTypescript, f options.addLocalization,
    f options.addCompliance, options.platform, options.styling, f options.dryRun⟩

end OptionsOf

abbrev Options := OptionsOf Bool

end Refit
