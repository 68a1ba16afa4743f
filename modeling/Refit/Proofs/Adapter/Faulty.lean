import Refit.Proofs.Run.Groundwork

/-!
The names in an analysis, also in that of an adapter with faults, which does what an adapter of the program
does or fails. The name of a component has no slash, paths lead down, and the route of a page is made from
names of the disk.
-/

open List

namespace Refit

open Path

variable {α : Type}

theorem Entry.named_of_places : (tree : Entry) → tree.tidy = true →
    (∀ place standing, tree.at? place = some standing → ∀ name ∈ place, Path.ValidName name) → tree.named = true
  | file _, _, _ => rfl
  | directory entries, ordered, valid => by
      obtain ⟨each, pairs⟩ := tidy_directory.1 ordered
      refine named_directory.2 (fun item member => ?_)
      obtain ⟨name, entry⟩ := item
      have inside (rest : List String) : (directory entries).at? (name :: rest) = entry.at? rest := by
        unfold at?
        rw [get?_directory, findIn_of_mem pairs member]
        rfl
      refine ⟨valid [name] entry.standing (inside []) name (by simp), ?_⟩
      refine named_of_places entry (each _ member).2 (fun place standing stands other inPlace => ?_)
      exact valid (name :: place) standing ((inside place).trans stands) other (by simp [inPlace])
decreasing_by
  have := sizeOf_lt_of_mem member
  simp at this ⊢
  omega

/-- Log files do not change what can stand in a path. -/
theorem World.Relogged.regular {start world : World} (relogged : Relogged start world) (regular : start.disk.Regular) :
    world.disk.Regular where
  tidy := relogged.touched.changes.tidy regular.tidy
  start := relogged.touched.changes.workingDirectory ▸ regular.start
  named := by
    refine Entry.named_of_places _ (relogged.touched.changes.tidy regular.tidy) (fun place standing stands => ?_)
    have kind := relogged.touched.isDirectory (fun _ there => there.2) place
    unfold Disk.at? at kind
    rw [stands] at kind
    cases before : start.disk.root.get? place with
    | none => simp [Entry.at?, before] at kind
    | some entry => exact Entry.valid_of_get? regular.named before

/-- A text that leads down from where it is used. -/
def Path.Descends (text : String) : Prop := ∃ names, Path.ofString text = ⟨.relative, names⟩ ∧ ".." ∉ names

/-- The route of a page comes from names of the disk, which stand in its path. -/
def Page.Routed (page : Page) : Prop :=
  ∃ lowercase names, page.route = Route.ofPath lowercase (ofNames names) ∧
    (∀ name ∈ names, Path.ValidName name) ∧ ".." ∉ names ∧
    ('\\' ∉ page.path.toList → '\\' ∉ (ofNames names).toList)

structure Analysis.Named (analysis : Analysis) : Prop where
  components : ∀ component ∈ analysis.components, '/' ∉ component.name.toList ∧ Path.Descends component.path
  pages : ∀ page ∈ analysis.pages, page.Routed
  styles : ∀ file ∈ analysis.styling.files, Path.Descends file

namespace Survey

open Disk

variable {survey : Survey}

theorem valid_of_fileBelow (regular : survey.disk.Regular) (valid : survey.root.Valid) {path : Path}
    (file : FileBelow survey.disk survey.root path) : path.Valid := by
  obtain ⟨names, plain, rfl⟩ := file.1
  intro name member
  rcases mem_append.1 member with above | below
  · exact valid name above
  · exact valid_below regular.named file name below

theorem Tells.descends {text : String} (tells : survey.Tells text) (regular : survey.disk.Regular) :
    Path.Descends text := by
  obtain ⟨path, file, seen⟩ := tells
  exact descends_of_seenFrom regular.named ⟨[], by simp, by simp [Path.below]⟩ file seen

theorem suffix_ofNames (above : List String) {names : List String} (some : names ≠ []) :
    (ofNames names).toList <:+ (ofNames (above ++ names)).toList := by
  have parts : body names <:+ body (above ++ names) := by
    induction above with
    | nil => exact suffix_rfl
    | cons name rest ih =>
      have step : body (name :: (rest ++ names)) = name.toList ++ '/' :: body (rest ++ names) := by
        cases joined : rest ++ names with
        | nil => exact absurd (append_eq_nil_iff.1 joined).2 some
        | cons => simp [body]
      rw [cons_append, step]
      exact (ih.trans (suffix_cons _ _)).trans (suffix_append _ _)
  have whole : above ++ names ≠ [] := by simp [some]
  rw [ofNames, ofNames, toList_toString (.inr some), toList_toString (.inr whole)]
  exact parts

theorem pages_routed (regular : survey.disk.Regular) {found : Structure} (down : LeadsDown found)
    {made : List (Page × Reading)} (done : survey.pages found = .ok made) :
    ∀ page ∈ made.map (·.1), page.Routed := by
  refine forall_mem_map.2 (fun item inMade => ?_)
  obtain ⟨_, path, below, ⟨above, _, rfl⟩, file, seen, seenBelow, route⟩ := pages_origin regular down done item inMade
  obtain ⟨names, rfl, rfl⟩ := seenFrom_ok seenBelow
  obtain ⟨whole, same, text⟩ := seenFrom_ok seen
  rw [below_below] at same file
  obtain rfl : above ++ names = whole := by simpa [Path.below] using same
  have validAll := valid_below regular.named file
  obtain ⟨others, plain, same⟩ := file.1
  obtain rfl : above ++ names = others := by simpa [Path.below] using same
  refine ⟨_, names, route, fun name member => validAll name (by simp [member]), ?_, fun clear => ?_⟩
  · exact fun member => plain (mem_append_right _ member)
  · by_cases empty : names = []
    · subst empty
      decide
    · rw [text] at clear
      exact fun member => clear ((suffix_ofNames above empty).subset member)

theorem analyze_named (regular : survey.disk.Regular) (valid : survey.root.Valid)
    (down : survey.layout.looksDown = true) {texts : List ExtractedText} {analysis : Analysis}
    {records after : List Log.Record} (run : exec (survey.analyze texts) records = (.ok analysis, after)) :
    analysis.Named := by
  obtain ⟨_, covers⟩ := analyze_covers regular down run
  obtain ⟨_, structured, ⟨components, surveyed, told⟩, ⟨pages, paged, toldPages⟩, _⟩ := analyze_ok run
  have leads := structureOf_leadsDown down structured
  obtain ⟨_, _, origin⟩ := components_origin regular leads surveyed
  refine ⟨fun component member => ⟨?_, ?_⟩, toldPages ▸ pages_routed regular leads paged,
    fun file member => (covers.styles file member).descends regular⟩
  · rw [told] at member
    obtain ⟨item, inMade, rfl⟩ := mem_map.1 member
    obtain ⟨path, file, single⟩ := origin item inMade
    obtain ⟨_, _, _, name, _⟩ := componentOf_ok single
    rw [name]
    exact clear_stem (clear_name (valid_of_fileBelow regular valid file))
  · exact (covers.components component member component.path (by simp [Component.units])).descends regular

end Survey

open Output

/-- Work that comes to nothing but what other work comes to. -/
def Report.Tracks {α : Type} (work whole : Report α) : Prop := ∀ value, work.Yields value → whole.Yields value

theorem Report.Yields.exec {work : Report α} {value : α} (yields : work.Yields value) :
    ∃ records, Refit.exec work [] = (.ok value, records) := ⟨_, Prod.ext yields rfl⟩

theorem Report.yields_ofExcept {outcome : Except Fault α} {value : α}
    (yields : (Report.ofExcept outcome).Yields value) : outcome = .ok value := by
  obtain ⟨records, run⟩ := yields.exec
  exact Report.exec_ofExcept_ok run

namespace Adapter

/-- Each method of an adapter does what the one of another adapter does, or fails. -/
structure Faulty (whole adapter : Adapter) : Prop where
  recognises : ∀ disk root, (adapter.recognises disk root).Tracks (whole.recognises disk root)
  analyze : ∀ disk root texts, (adapter.analyze disk root texts).Tracks (whole.analyze disk root texts)
  component : ∀ disk component analysis,
    (adapter.component disk component analysis).Tracks (whole.component disk component analysis)
  page : ∀ disk page analysis, (adapter.page disk page analysis).Tracks (whole.page disk page analysis)
  companion : ∀ disk file analysis,
    (adapter.companion disk file analysis).Tracks (whole.companion disk file analysis)
  styles : ∀ styling analysis, (adapter.styles styling analysis).Tracks (whole.styles styling analysis)
  carriedStyles : ∀ disk styling analysis generated,
    (adapter.carriedStyles disk styling analysis generated).Tracks
      (whole.carriedStyles disk styling analysis generated)
  configuration : ∀ analysis, (adapter.configuration analysis).Tracks (whole.configuration analysis)
  manifest : ∀ analysis, (adapter.manifest analysis).Tracks (whole.manifest analysis)
  render : ∀ name context text, adapter.render name context = .ok text → whole.render name context = .ok text

theorem Faulty.refl (adapter : Adapter) : Faulty adapter adapter :=
  ⟨fun _ _ _ => id, fun _ _ _ _ => id, fun _ _ _ _ => id, fun _ _ _ _ => id, fun _ _ _ _ => id, fun _ _ _ => id,
    fun _ _ _ _ _ => id, fun _ _ => id, fun _ _ => id, fun _ _ _ => id⟩

/-- An adapter that comes with the program, with faults or without. -/
def Stock (adapter : Adapter) : Prop := ∃ whole : Adapter, whole.Builtin ∧ Faulty whole adapter

theorem Builtin.stock {adapter : Adapter} (builtin : adapter.Builtin) : adapter.Stock :=
  ⟨adapter, builtin, .refl adapter⟩

namespace Stock

variable {adapter : Adapter} {disk : Disk} {source : Path} {analysis : Analysis} {texts : List ExtractedText}
  {files : List (String × String)} {styling : StyleUse}

theorem surveys (stock : adapter.Stock) (resolved : source.Resolved)
    (yields : (adapter.analyze disk source texts).Yields analysis) :
    ∃ survey : Survey, survey.disk = disk ∧ survey.root = source ∧ survey.layout.looksDown = true ∧
      ∃ records after, exec (survey.analyze texts) records = (.ok analysis, after) := by
  obtain ⟨whole, ⟨registry, dialect, member, rfl⟩, faulty⟩ := stock
  obtain ⟨after, run⟩ := (faulty.analyze _ _ _ _ yields).exec
  obtain ⟨root, middle, found, run⟩ := exec_bind_ok run
  have known := Report.exec_ofExcept_ok found
  rw [Disk.resolveUser_resolved _ resolved] at known
  split at known
  · cases known
  · cases known
    exact ⟨⟨disk, source, dialect.layout, registry.rules⟩, rfl, rfl, (Builtin.looksDown member).2, middle, after, run⟩

theorem analyze (stock : adapter.Stock) (regular : disk.Regular) (resolved : source.Resolved)
    (yields : (adapter.analyze disk source texts).Yields analysis) :
    analysis.Grounded disk source ∧ analysis.Named := by
  obtain ⟨survey, rfl, rfl, down, records, after, run⟩ := stock.surveys resolved yields
  exact ⟨Survey.analyze_grounded regular resolved.valid down run, Survey.analyze_named regular resolved.valid down run⟩

def styleNames : List String :=
  ["globals.css", "tokens.css", "theme.ts", "theme.js", "GlobalStyle.ts", "GlobalStyle.js", "base.module.css",
   "components.css"]

theorem names_insert {known : List String} (named : ∀ file ∈ files, file.1 ∈ known) {name : String}
    (new : name ∈ known) (content : String) : ∀ file ∈ Json.insert files name content, file.1 ∈ known := by
  induction files with
  | nil => simpa [Json.insert] using new
  | cons first rest ih =>
    obtain ⟨here, later⟩ := forall_mem_cons.1 named
    unfold Json.insert
    split
    · exact forall_mem_cons.2 ⟨new, later⟩
    · exact forall_mem_cons.2 ⟨here, ih later⟩

theorem generatedStyles {shop : Workshop} (made : shop.generatedStyles analysis = .ok files) :
    ∀ file ∈ files, file.1 ∈ styleNames := by
  unfold Workshop.generatedStyles at made
  split at made
  · obtain ⟨_, _, made⟩ := bind_ok made
    obtain ⟨_, _, last⟩ := bind_ok made
    cases last
    simp [styleNames]
  · obtain ⟨_, _, made⟩ := bind_ok made
    obtain ⟨_, _, last⟩ := bind_ok made
    cases last
    have both : ∀ typed, "theme" ++ scriptExtension typed ∈ styleNames ∧
        "GlobalStyle" ++ scriptExtension typed ∈ styleNames := by decide
    simpa using both _
  · obtain ⟨_, _, made⟩ := bind_ok made
    obtain ⟨_, _, last⟩ := bind_ok made
    cases last
    simp [styleNames]
  · cases made
    simp

theorem styles (stock : adapter.Stock)
    (yields : (adapter.styles styling analysis).Yields files) : ∀ file ∈ files, file.1 ∈ styleNames := by
  obtain ⟨whole, ⟨registry, dialect, _, rfl⟩, faulty⟩ := stock
  have made := Report.yields_ofExcept (faulty.styles _ _ _ yields)
  obtain ⟨generated, first, rest⟩ := bind_ok made
  obtain ⟨extra, second, last⟩ := bind_ok rest
  cases last
  have named := generatedStyles first
  unfold Workshop.extraStyles at second
  split at second
  · obtain ⟨text, _, last⟩ := bind_ok second
    cases last
    exact names_insert named (by simp [styleNames]) text
  · cases second
    exact named

theorem carriedStyles (stock : adapter.Stock) {carried : List CarriedStyle}
    (yields : (adapter.carriedStyles disk styling analysis files).Yields carried) :
    ∀ style ∈ carried, style.source ∈ styling.files ∧
      (style.name = (Path.ofString style.source).name ∨
        style.name = "legacy-" ++ (Path.ofString style.source).name) := by
  obtain ⟨whole, ⟨registry, dialect, _, rfl⟩, faulty⟩ := stock
  have made := Report.yields_ofExcept (faulty.carriedStyles _ _ _ _ _ yields)
  unfold Workshop.carriedStyles at made
  split at made
  · intro style member
    obtain ⟨file, inFiles, single⟩ := exists_of_mem_mapM made style member
    obtain ⟨content, _, last⟩ := bind_ok single
    cases last
    refine ⟨inFiles, ?_⟩
    split
    · exact .inr rfl
    · exact .inl rfl
  · cases made
    simp

theorem configuration (stock : adapter.Stock) {files : List (String × String)}
    (yields : (adapter.configuration analysis).Yields files) :
    ∀ file ∈ files, file.1 ∈ configurationNames := by
  obtain ⟨whole, ⟨registry, dialect, _, rfl⟩, faulty⟩ := stock
  have made := Report.yields_ofExcept (faulty.configuration _ _ yields)
  simp only [Workshop.configuration, Output.configuration, pure_bind] at made
  have types : ∀ file ∈ (if isTyped analysis registry.options then
      [("tsconfig.json", Json.document (Output.tsconfig registry.options.platform))] else []),
      file.1 ∈ configurationNames := by
    split <;> simp [configurationNames]
  have one {name : String} (known : name ∈ configurationNames) (text : String) :
      ∀ file ∈ [(name, text)], file.1 ∈ configurationNames := by simpa using known
  split at made
  · obtain ⟨styles, _, made⟩ := bind_ok made
    have styled := forall_mem_append.2 ⟨types, one (by decide : "tailwind.config.js" ∈ _) styles⟩
    split at made
    all_goals
      obtain ⟨bundler, _, last⟩ := bind_ok made
      cases last
      exact forall_mem_append.2 ⟨styled, one (by decide) bundler⟩
  · have plain := forall_mem_append.2 ⟨types, forall_mem_nil _⟩
    split at made
    all_goals
      obtain ⟨bundler, _, last⟩ := bind_ok made
      cases last
      exact forall_mem_append.2 ⟨plain, one (by decide) bundler⟩

end Stock
end Adapter
end Refit
