import Refit.Proofs.Run.Distinct

open List

namespace Refit

open Path

namespace Output

theorem resolve_below (disk : Disk) {root : Path} (resolved : root.Resolved) {names : List String} {last : String}
    (upright : Upright names) (plain : last ≠ "..") :
    ∃ name rest, disk.resolve (root.below (names ++ [last])) = root.below (name :: rest) := by
  obtain ⟨inner, reached⟩ := upright.flatten root.names
  have absolute : disk.absoluteNames (root.below (names ++ [last])) = root.names ++ (names ++ [last]) := by
    rw [Disk.absoluteNames_below, Disk.absoluteNames_resolved disk resolved]
  have place : Disk.flatten [] (root.names ++ (names ++ [last])) = root.names ++ (inner ++ [last]) := by
    rw [Disk.flatten_append, Disk.flatten_plain resolved.plain, nil_append, Disk.flatten_append, reached,
      Disk.flatten, if_neg plain, Disk.flatten, append_assoc]
  have path : disk.resolve (root.below (names ++ [last])) = root.below (inner ++ [last]) := by
    rw [Disk.resolve, absolute, place, Path.below, resolved.root]
  cases inner with
  | nil => exact ⟨last, [], path⟩
  | cons name rest => exact ⟨name, rest ++ [last], path⟩

end Output

namespace Migration

open Session Stage Output

/-- Every path that a run gives out lies strictly below its output, if no page that is placed by its route
    has a backslash in its path. -/
theorem taken_below {migration : Migration} (stocked : migration.Stocked) {world : World}
    (regular : world.disk.Regular) {source : String} {observer : Option Observer} {texts : List ExtractedText}
    {started : Moment} {session final : Session} {told : List Progress}
    (begins : migration.session source texts world = .ok session)
    (ends : runSession observer started session = (final, told))
    (clear : ∀ analysis, final.outcome.analysis = some analysis → analysis.Clear session.options) :
    ∀ text ∈ final.names.taken, ∃ name rest,
      world.disk.resolve (ofString text) = session.output.below (name :: rest) := by
  obtain ⟨sourcePath, outputPath, sourceFound, outputFound, rfl⟩ := session_eq_ok begins
  have sourceResolved := Disk.resolved_of_resolveUser regular.start (ofString_valid source) sourceFound
  have outputResolved := Disk.resolved_of_resolveUser regular.start (ofString_valid _) outputFound
  obtain ⟨items, held, untouched, journal, fits, names, _⟩ :=
    runSession_writes observer started (migration.fresh sourcePath outputPath texts world)
  rw [ends] at fits names
  intro text member
  rw [names, journal.taken, untouched.names] at member
  have given : text ∈ (targetsOf items).map toString := by
    simpa [fresh, Names.empty] using member
  obtain ⟨target, inTargets, rfl⟩ := mem_map.1 given
  obtain ⟨item, inItems, is⟩ := mem_filterMap.1 inTargets
  obtain ⟨requested, asked, offers⟩ := journal.offers item inItems target is
  obtain ⟨chosen, found, known, surveyed, suits⟩ := fits item inItems
  obtain ⟨names, spot, went⟩ :=
    @target_cases (migration.fresh sourcePath outputPath texts world) stocked regular sourceResolved _ _ surveyed _ suits
      _ _ asked offers
  obtain ⟨upright, plain⟩ := spot.upright (clear found known)
  have below : ∃ last, target = outputPath.below (names.dropLast ++ [last]) ∧ Path.ValidName last ∧ last ≠ ".." := by
    rcases went with same | ⟨name, same, fine, dash⟩
    · have some := spot.region.nonempty
      refine ⟨names.getLast some, ?_, spot.valid _ (getLast_mem some),
        plain _ (List.getLast?_eq_some_getLast some)⟩
      rw [dropLast_append_getLast]
      exact same
    · exact ⟨name, same, fine, fun dots => absurd (dots ▸ dash) (by decide)⟩
  obtain ⟨last, rfl, fine, other⟩ := below
  have valid : (outputPath.below (names.dropLast ++ [last])).Valid := by
    refine forall_mem_append.2 ⟨outputResolved.valid, forall_mem_append.2 ⟨fun name inside => ?_, ?_⟩⟩
    · exact spot.valid name (dropLast_subset _ inside)
    · simpa using fine
  rw [ofString_toString valid]
  exact resolve_below world.disk outputResolved upright other

/-- A registry for outputs whose pages are placed by their routes. -/
def routedRegistry : Registry :=
  { plainRegistry with options := { plainRegistry.options with platform := .nextjs } }

/-- A world with a project that has entries in its directory of pages. -/
def pagesWorld (entries : List (String × Entry)) : World :=
  { buttonWorld with
    disk :=
      { root := .directory
          [("project", .directory
            [("lovable.json", .file []), ("src", .directory [("pages", .directory entries)])])]
        workingDirectory := []
        homes := [] } }

def pagesSession (entries : List (String × Entry)) : Session :=
  (builtin routedRegistry routedRegistry none).fresh ⟨.slash, ["project"]⟩ ⟨.slash, ["out"]⟩ [] (pagesWorld entries)

/-- A page whose brackets begin in the name of its directory. -/
def bracketed : List (String × Entry) :=
  [("[a", .directory [("..].b.tsx", .file (Text.Utf8.encode "<p/>"))])]

/-- A page with backslashes between its brackets. -/
def slashed : List (String × Entry) := [("[a\\..\\..\\..\\escape].tsx", .file (Text.Utf8.encode "<p/>"))]

theorem pages_stocked : (builtin routedRegistry routedRegistry none).Stocked := by
  rintro adapter (chosen | offered)
  · cases chosen
  · obtain ⟨dialect, member, rfl⟩ := mem_map.1 offered
    exact Adapter.Builtin.stock ⟨routedRegistry, dialect, member, rfl⟩

/-- The route of a page can go back over a part of its own brackets. -/
theorem taken_below_bracketed :
    ∃ final told, (builtin routedRegistry routedRegistry none).Stocked ∧ (pagesWorld bracketed).disk.Regular ∧
      (builtin routedRegistry routedRegistry none).session "/project" [] (pagesWorld bracketed) =
        .ok (pagesSession bracketed) ∧
      runSession none buttonWorld.clock.now (pagesSession bracketed) = (final, told) ∧
      (∀ analysis, final.outcome.analysis = some analysis → analysis.Clear (pagesSession bracketed).options) ∧
      "/out/pages/[a]/../b.jsx" ∈ final.names.taken ∧
      ∀ text ∈ final.names.taken, ∃ name rest,
        (pagesWorld bracketed).disk.resolve (ofString text) = (pagesSession bracketed).output.below (name :: rest) := by
  have begins : (builtin routedRegistry routedRegistry none).session "/project" [] (pagesWorld bracketed) =
      .ok (pagesSession bracketed) := rfl
  have regular : (pagesWorld bracketed).disk.Regular := ⟨by decide +kernel, by decide +kernel, by decide⟩
  have facts : "/out/pages/[a]/../b.jsx" ∈
        (runSession none buttonWorld.clock.now (pagesSession bracketed)).1.names.taken ∧
      ∀ analysis ∈ (runSession none buttonWorld.clock.now (pagesSession bracketed)).1.outcome.analysis,
        ∀ page ∈ analysis.pages, '\\' ∉ page.path.toList := by
    decide +kernel
  have clear : ∀ analysis,
      (runSession none buttonWorld.clock.now (pagesSession bracketed)).1.outcome.analysis = some analysis →
        analysis.Clear (pagesSession bracketed).options := fun analysis known _ => facts.2 analysis known
  have below := fun final told (ends : runSession none buttonWorld.clock.now (pagesSession bracketed) = (final, told)) =>
    taken_below pages_stocked regular begins ends
  generalize runSession none buttonWorld.clock.now (pagesSession bracketed) = run at facts clear below ⊢
  exact ⟨run.1, run.2, pages_stocked, regular, begins, rfl, clear, facts.1, below run.1 run.2 rfl clear⟩

/-- A page with backslashes in its name is written outside the output. -/
theorem taken_escapes_slashed :
    (builtin routedRegistry routedRegistry none).Stocked ∧ (pagesWorld slashed).disk.Regular ∧
      (builtin routedRegistry routedRegistry none).session "/project" [] (pagesWorld slashed) =
        .ok (pagesSession slashed) ∧
      "/out/pages/[a]/../../../escape.jsx" ∈
        (runSession none buttonWorld.clock.now (pagesSession slashed)).1.names.taken ∧
      (pagesWorld slashed).disk.resolve (ofString "/out/pages/[a]/../../../escape.jsx") =
        ⟨.slash, ["escape.jsx"]⟩ ∧
      (runSession none buttonWorld.clock.now (pagesSession slashed)).1.world.disk.isFile ⟨.slash, ["escape.jsx"]⟩ = true :=
  ⟨pages_stocked, ⟨by decide +kernel, by decide +kernel, by decide⟩, rfl, by decide +kernel⟩

end Migration
end Refit
