import Refit.Output.Artifacts

namespace Refit

structure Problem where
  file : String
  kind : String
  cause : Fault

def Problem.message (problem : Problem) : String := problem.cause.message

structure Changes where
  components : Nat := 0
  pages : Nat := 0
  styles : Nat := 0
  tests : Nat := 0
  configurations : Nat := 0

structure Summary where
  totalFiles : Nat := 0
  migratedFiles : Nat := 0
  skippedFiles : Nat := 0
  errors : Nat := 0
  warnings : Nat := 0
  duration : Int := 0
  changes : Changes := {}

inductive OperationKind where
  | create
  | other (name : String)
  deriving DecidableEq

def OperationKind.text : OperationKind → String
  | create => "create"
  | other name => name

def OperationKind.ofText (text : String) : OperationKind :=
  if text = "create" then .create else .other text

structure Operation where
  kind : OperationKind
  path : String
  deriving DecidableEq

/-- What a rollback needs: where the backup is, and what was done since. -/
structure RollbackData where
  backupPath : String := ""
  operations : List Operation := []

def RollbackData.createdPaths (data : RollbackData) : List String :=
  (data.operations.filter (fun operation => operation.kind = .create)).map (·.path)

structure Outcome where
  success : Bool := false
  analysis : Option Analysis := none
  migratedFiles : List String := []
  skippedFiles : List String := []
  errors : List Problem := []
  warnings : List Notice := []
  summary : Summary := {}
  rollbackData : Option RollbackData := none
  unitFailures : Nat := 0
  aborted : Bool := false

namespace Outcome

def coreSuccess (outcome : Outcome) : Bool :=
  !outcome.aborted && outcome.analysis.isSome && outcome.unitFailures = 0

def counted (outcome : Outcome) : Outcome :=
  { outcome with
    summary :=
      { outcome.summary with
        migratedFiles := outcome.migratedFiles.length
        skippedFiles := outcome.skippedFiles.length
        errors := outcome.errors.length
        warnings := outcome.warnings.length } }

def countChange (outcome : Outcome) (change : Changes → Changes) : Outcome :=
  { outcome with summary := { outcome.summary with changes := change outcome.summary.changes } }

end Outcome

namespace Output

def changesValue (changes : Changes) : Json.Value :=
  .object
    [("components", .int changes.components), ("pages", .int changes.pages),
     ("styles", .int changes.styles), ("configurations", .int changes.configurations)]

def itemValue (file kind message : String) : Json.Value :=
  .object [("file", .string file), ("kind", .string kind), ("message", .string message)]

def readme (render : Renderer) (outcome : Outcome) (options : Options) (generatedAt : String) :
    Except Fault String :=
  render "docs/summary.md.j2"
    [("project_name", .string (projectName options "Migrated Project")),
     ("analysis", outcome.analysis.elim .null (fun analysis =>
       .object [("source", .string analysis.source), ("framework", .string analysis.framework)])),
     ("options", .object
       [("target_platform", .string options.platform.name),
        ("target_styling", .string options.styling.name),
        ("add_localization", .bool options.addLocalization),
        ("add_compliance", .bool options.addCompliance),
        ("convert_to_typescript", .bool options.convertToTypescript)]),
     ("summary", .object
       [("changes", changesValue outcome.summary.changes),
        ("migrated_files", .int outcome.summary.migratedFiles)]),
     ("errors", .array (outcome.errors.map (fun problem =>
       itemValue problem.file problem.kind problem.message))),
     ("warnings", .array (outcome.warnings.map (fun notice =>
       itemValue notice.file notice.kind notice.message))),
     ("locales", strings locales),
     ("package_manager", .string ((outcome.analysis.map (·.packageManager)).getD "npm")),
     ("generated_at", .string generatedAt)]

end Output
end Refit
