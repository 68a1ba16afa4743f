import Refit.Run.Session

namespace Refit.Stage

def select (disk : Disk) (project : Path) : List Adapter → Report (Option Adapter)
  | [] => do
      Report.note .info "adapters" ("No adapter recognised " ++ project.toString)
      pure none
  | adapter :: rest => do
      if ← adapter.recognises disk project then
        Report.note .info "adapters"
          ("Detected " ++ adapter.description ++ " project at " ++ project.toString)
        pure (some adapter)
      else select disk project rest

def validate : Stage Unit := do
  let session ← get
  match session.adapter with
  | none =>
    match ← report (select session.world.disk session.source session.candidates) with
    | some adapter => modify (fun session => { session with adapter := some adapter })
    | none => throw (.unrecognised session.source.toString)
  | some adapter =>
    if ← report (adapter.recognises session.world.disk session.source) then pure ()
    else throw (.foreignProject session.source.toString adapter.description)

def totalFiles (analysis : Analysis) : Nat :=
  analysis.components.length + analysis.pages.length + analysis.styling.files.length
    + analysis.assets.length

def analyze : Stage Unit := do
  let session ← get
  let adapter ← adapter
  let analysis ← report (adapter.analyze session.world.disk session.source session.texts)
  change (fun outcome =>
    { outcome with
      analysis := some analysis
      warnings := outcome.warnings ++ analysis.notices
      summary := { outcome.summary with totalFiles := totalFiles analysis } })

def backupPath (session : Session) (moment : Moment) : Path :=
  session.output.parent.join
    (Path.ofString ("backup-" ++ session.source.name ++ "-" ++ moment.compact))

def backup : Stage (Option Path) := do
  let session ← get
  if !session.options.createBackup || session.options.dryRun then pure none
  else
    let path := backupPath session (← now)
    perform .copyTree path (DiskAction.copyTree session.source path)
    modify (fun session =>
      { session with rollback := { session.rollback with backupPath := path.toString } })
    note .info part ("Backed up " ++ session.source.toString ++ " to " ++ path.toString)
    pure (some path)

def isPopulated (disk : Disk) (path : Path) : Bool :=
  match disk.entry? path with
  | some (.directory entries) => !entries.isEmpty
  | _ => false

def looksPopulated (path : Path) : Stage Bool := do
  let session ← get
  match session.world.blind with
  | some fault => throw fault
  | none => pure (isPopulated session.world.disk path)

def makeDirectory (path : Path) : Stage Unit :=
  perform .ensureDirectory path (DiskAction.makeDirectories path)

def skeleton (output : Path) (platform : Platform) : List Path :=
  (Output.directories platform).map (fun directory => Output.under output [directory])

def setup : Stage Unit := do
  let session ← get
  if ← looksPopulated session.output then throw (.outputNotEmpty session.output.toString)
  else if session.options.dryRun then pure ()
  else (skeleton session.output session.options.platform).forM makeDirectory

def migrateCompanion (companion : String) (owner : Path) (isTest : Bool) : Stage Unit := do
  let adapter ← adapter
  let found ← attempt
    (do report (adapter.companion (← disk) companion (← analysis)))
    (problem companion "transform")
  match found with
  | none => pure ()
  | some content =>
    let target ← claim (Output.companionPath owner companion) companion
    if ← attemptFiles (write target content) (problem companion "write") then
      migrated target
      if isTest then
        change (·.countChange (fun changes => { changes with tests := changes.tests + 1 }))

def migrateCompanions (component : Component) (owner : Path) : Stage Unit := do
  let options ← options
  (component.tests ++ component.story.toList.filter (· ≠ "")).forM (fun companion => do
    let isStory : Bool := component.story = some companion
    if if isStory then options.migrateStories else options.migrateTests then
      migrateCompanion companion owner (!isStory)
    else change (fun outcome => { outcome with skippedFiles := outcome.skippedFiles ++ [companion] }))

def migrateComponent (component : Component) : Stage Unit := do
  let adapter ← adapter
  let analysis ← analysis
  let session ← get
  let found ← attempt
    (report (adapter.component session.world.disk component analysis))
    (unitProblem component.path "transform")
  match found with
  | none => pure ()
  | some content =>
    let target ← claim (Output.componentPath session.output component analysis session.options) component.path
    if ← attemptFiles (write target content) (unitProblem component.path "write") then
      migrated target
      change (·.countChange (fun changes => { changes with components := changes.components + 1 }))
      migrateCompanions component target

def migrateComponents : Stage Unit := do
  let _ ← adapter
  (← analysis).components.forM migrateComponent

def migratePage (page : Page) : Stage Unit := do
  let adapter ← adapter
  let analysis ← analysis
  let session ← get
  let found ← attempt
    (report (adapter.page session.world.disk page analysis))
    (unitProblem page.path "transform")
  match found with
  | none => pure ()
  | some content =>
    let target ← claim (Output.pagePath session.output page analysis session.options) page.path
    if ← attemptFiles (write target content) (unitProblem page.path "write") then
      migrated target
      change (·.countChange (fun changes => { changes with pages := changes.pages + 1 }))

def migratePages : Stage Unit := do
  let _ ← adapter
  (← analysis).pages.forM migratePage

def writeStyle (name content sourceFile : String) : Stage Unit := do
  let output := (← get).output
  let target ← claim (Output.under output ["src", "styles", name]) sourceFile
  if ← attemptFiles (write target content) (problem sourceFile "write") then
    migrated target
    change (·.countChange (fun changes => { changes with styles := changes.styles + 1 }))

def carryStyle (style : CarriedStyle) : Stage Unit := do
  let own := (Path.ofString style.source).name
  if style.name ≠ own then
    warn
      { file := style.source
        kind := "compatibility"
        message := "Style file " ++ own ++ " clashes with a generated file; writing " ++ style.name
          ++ " instead" }
  writeStyle style.name style.content style.source

def stylesPlace (analysis : Analysis) : String :=
  (analysis.layout.stylesDir.filter (· ≠ "")).getD "styles"

def migrateStyles : Stage Unit := do
  let adapter ← adapter
  let analysis ← analysis
  let found ← attempt
    (do
      let files ← report (adapter.styles analysis.styling analysis)
      let carried ← report (adapter.carriedStyles (← disk) analysis.styling analysis files)
      pure (files, carried))
    (problem (stylesPlace analysis) "transform")
  match found with
  | none => pure ()
  | some (files, carried) =>
    files.forM (fun file => writeStyle file.1 file.2 file.1)
    carried.forM carryStyle

def migrateAsset (asset : Asset) : Stage Unit := do
  let analysis ← analysis
  let output := (← get).output
  let target ← claim (Output.assetPath output asset analysis.layout.publicDir) asset.path
  let source := (Path.ofString analysis.root).join (Path.ofString asset.path)
  if ← attemptFiles (copy source target) (problem asset.path "write") then migrated target

def migrateAssets : Stage Unit := do (← analysis).assets.forM migrateAsset

def writeConfiguration (name content : String) : Stage Unit := do
  let output := (← get).output
  let target ← claim (Output.under output [name]) name
  if ← attemptFiles (write target content) (problem name "write") then
    migrated target
    change (·.countChange (fun changes => { changes with configurations := changes.configurations + 1 }))

def migrateConfiguration : Stage Unit := do
  let adapter ← adapter
  let found ← attempt
    (do report (adapter.configuration (← analysis)))
    (problem "configuration" "transform")
  match found with
  | none => pure ()
  | some files => files.forM (fun file => writeConfiguration file.1 file.2)

def migrate : Stage Unit := do
  migrateComponents
  migratePages
  migrateStyles
  migrateAssets
  migrateConfiguration

def writeArtifact (names : List String) (content : String) : Stage Unit := do
  let path := (← get).output.below names
  let _ ← attemptFiles (write path content) (problem (Path.ofNames names) "write")

def artifact (names : List String) (kind : String) (make : Stage String) : Stage Unit := do
  match ← attempt make (problem (Path.ofNames names) kind) with
  | none => pure ()
  | some content => writeArtifact names content

def rendered (outcome : Except Fault String) : Stage String :=
  match outcome with
  | .ok text => pure text
  | .error fault => throw fault

def writeLocales (options : Options) (texts : List ExtractedText) (generatedAt : String) : Stage Unit :=
  if options.addLocalization then
    (Output.localeFiles texts generatedAt).forM (fun file => writeArtifact ["src", "locales", file.1] file.2)
  else pure ()

def writeCompliance (options : Options) (render : Output.Renderer) (generatedAt : String) : Stage Unit :=
  if options.addCompliance then
    artifact ["docs", "COMPLIANCE.md"] "transform" (rendered (Output.compliance render generatedAt))
  else pure ()

def writeReadme (options : Options) (render : Output.Renderer) (generatedAt : String) : Stage Unit := do
  change Outcome.counted
  let outcome := (← get).outcome
  artifact ["README.md"] "transform" (rendered (Output.readme render outcome options generatedAt))

def finalize : Stage Unit := do
  if (← options).dryRun then pure ()
  else
    let adapter ← adapter
    let analysis ← analysis
    let session ← get
    let generatedAt := (← now).isoText
    artifact ["package.json"] "dependency"
      (do pure (Json.document (← report (adapter.manifest analysis))))
    writeLocales session.options (if session.texts.isEmpty then analysis.texts else session.texts) generatedAt
    writeCompliance session.options adapter.render generatedAt
    writeReadme session.options adapter.render generatedAt

end Refit.Stage
