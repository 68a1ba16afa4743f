import Refit.Proofs.Output.Names
import Refit.Proofs.Run.Lockstep

namespace Refit

open Disk

variable {component : Component} {companion : String} {page : Page}

namespace Adapter.Builtin

variable {adapter : Adapter} {start disk other : Disk} {source : Path} {analysis : Analysis}

section

variable (builtin : adapter.Builtin) (keeps : Keeps start source disk ∧ Keeps start source other)
  (grounded : analysis.Grounded start source)
include builtin keeps grounded

theorem component_eq (member : component ∈ analysis.components) :
    adapter.component other component analysis = adapter.component disk component analysis := by
  obtain ⟨registry, dialect, _, rfl⟩ := builtin
  exact (Workshop.component_keeps keeps.2 grounded member).trans
    (Workshop.component_keeps keeps.1 grounded member).symm

theorem page_eq (member : page ∈ analysis.pages) :
    adapter.page other page analysis = adapter.page disk page analysis := by
  obtain ⟨registry, dialect, _, rfl⟩ := builtin
  exact (Workshop.page_keeps keeps.2 grounded member).trans (Workshop.page_keeps keeps.1 grounded member).symm

theorem companion_eq (file : start.HasUnit source companion) :
    adapter.companion other companion analysis = adapter.companion disk companion analysis := by
  obtain ⟨registry, dialect, _, rfl⟩ := builtin
  exact congrArg Report.ofExcept ((Workshop.companion_keeps keeps.2 grounded file).trans
    (Workshop.companion_keeps keeps.1 grounded file).symm)

theorem carriedStyles_eq (generated : List (String × String)) :
    adapter.carriedStyles other analysis.styling analysis generated =
      adapter.carriedStyles disk analysis.styling analysis generated := by
  obtain ⟨registry, dialect, _, rfl⟩ := builtin
  exact congrArg Report.ofExcept ((Workshop.carriedStyles_keeps keeps.2 grounded generated).trans
    (Workshop.carriedStyles_keeps keeps.1 grounded generated).symm)

end

end Adapter.Builtin

namespace Setting

/-- Nothing was in the output at the start. -/
def Vacant (setting : Setting) : Prop :=
  ∀ name rest, setting.start.disk.at? (setting.start.disk.placeOf setting.output ++ name :: rest) = none

end Setting

namespace Stage

open Session Setting Event

variable {setting : Setting} {real : Session} {world : World} {file : String} {requested target : Path} {role : Role}

theorem offers_of_claim {s after : Session} {path : Path}
    (run : exec (claim path file) s = (.ok target, after)) : Output.Names.Offers path target := by
  rw [claim, exec_get_bind] at run
  rcases claimed : s.names.claim path with ⟨answer, names⟩
  rw [claimed] at run
  cases answer with
  | none => cases run
  | some pair =>
    obtain ⟨given, renamed⟩ := pair
    have offers := Output.Names.offers_of_claim claimed
    cases renamed with
    | false =>
      cases run
      exact offers
    | true =>
      obtain ⟨_, _, _, last⟩ := exec_bind_ok run
      cases last
      exact offers

section

variable (mirrored : setting.Mirrored real world)
include mirrored

theorem complain_mirrors (role : Role) (file kind : String) (fault : Fault) :
    Agrees setting (complain role file kind fault) (complain role file kind fault) real world := by
  unfold complain
  split
  · exact mirrors_unitProblem mirrored _ _ _
  · exact mirrors_problem mirrored _ _ _

theorem deliver_mirrors
    {call : Path → Call} (makes : ∀ target, (call target).creates = true ∧ (call target).path = target)
    (inside : ∀ target, Output.Names.Offers requested target → ∀ original path name, call target = .copy original path →
      ¬ setting.start.disk.ProjectFile setting.source (setting.start.disk.placeOf path ++ [name])) :
    Follows setting (deliver role file requested call) real world := by
  refine mirrors_bind (mirrors_claim mirrored _ _) (fun target after later claimed mirrored => ?_)
  obtain ⟨creates, path⟩ := makes target
  refine mirrors_deliver mirrored (call target) creates path (inside target (offers_of_claim claimed))
    (fun _ _ => complain_traces _ _ _ _)
    (fun after => traces_bind (.of_step (.changed after _) trivial) (fun _ _ _ => traces_pure _))
    (fun _ => traces_pure _) (fun _ _ mirrored => ?_)
  exact mirrors_bind (mirrors_change mirrored rfl) (fun _ _ _ _ mirrored => mirrors_pure mirrored _)

theorem write_mirrors (role : Role) (file content : String) (requested : Path) :
    Follows setting (deliver role file requested (fun target => .write target content)) real world :=
  deliver_mirrors mirrored (fun _ => ⟨rfl, rfl⟩) (fun _ _ _ _ _ impossible => nomatch impossible)

end

theorem convey_mirrors {make other : Stage String} (made : Agrees setting make other real world) :
    Mirrors setting setting.Fine (convey role file requested make) (convey role file requested other)
      real world := by
  refine mirrors_bind (agrees_attempt made (fun _ _ _ mirrored => complain_mirrors mirrored _ _ _ _))
    (fun found _ _ _ mirrored => ?_)
  cases found with
  | none => exact mirrors_pure mirrored _
  | some content => exact write_mirrors mirrored role file content requested

/-- A chore comes to the same in a dry run: it reads nothing that changes, and puts no file into one of the project. -/
def Suits (setting : Setting) : Chore → Prop
  | .make _ _ _ work => ∀ disk other, Keeps setting.start.disk setting.source disk ∧
      Keeps setting.start.disk setting.source other → work other = work disk
  | .copy _ requested _ => ∀ target, Output.Names.Offers requested target → ∀ name,
      ¬ setting.start.disk.ProjectFile setting.source (setting.start.disk.placeOf target ++ [name])
  | .write .. | .skip _ => True

def SuitsAll (setting : Setting) : Work → Prop
  | .single chore followers => Suits setting chore ∧ ∀ owner, ∀ other ∈ followers owner, Suits setting other
  | .batch _ _ _ second chores =>
    (∀ files disk other, Keeps setting.start.disk setting.source disk ∧
      Keeps setting.start.disk setting.source other → second other files = second disk files) ∧
    ∀ files carried, ∀ chore ∈ chores files carried, Suits setting chore

section

variable (mirrored : setting.Mirrored real world)
include mirrored

theorem chore_mirrors {chore : Chore} (suits : Suits setting chore) : Follows setting chore.run real world := by
  cases chore with
  | make => exact convey_mirrors (mirrors_get_bind (mirrors_report mirrored (suits _ _ mirrored.keeps)))
  | write warning =>
    cases warning with
    | none => exact write_mirrors mirrored _ _ _ _
    | some notice =>
      exact mirrors_bind (mirrors_warn mirrored notice) (fun _ _ _ _ mirrored => write_mirrors mirrored _ _ _ _)
  | copy =>
    refine deliver_mirrors mirrored (fun _ => ⟨rfl, rfl⟩) (fun target offers _ _ name is => ?_)
    cases is
    exact suits target offers name
  | skip => exact mirrors_bind (mirrors_change mirrored rfl) (fun _ _ _ _ mirrored => mirrors_pure mirrored _)

theorem runAll_mirrors {chores : List Chore} (suit : ∀ chore ∈ chores, Suits setting chore) :
    Follows setting (Chore.runAll chores) real world :=
  mirrors_forM mirrored (fun chore _ after => chore_keeps chore after) (fun chore member _ _ mirrored =>
    mirrors_seq (chore_mirrors mirrored (suit chore member)) (fun _ _ => traces_pure _)
      (fun _ _ _ mirrored => mirrors_pure mirrored _))

theorem work_mirrors {work : Work} (suits : SuitsAll setting work) : Follows setting work.run real world := by
  cases work with
  | single chore followers =>
    refine mirrors_seq (chore_mirrors mirrored suits.1) (fun result after => ?_) (fun result _ _ mirrored => ?_)
    · cases result with
      | none => exact traces_pure _
      | some target => exact runAll_traces _
    · cases result with
      | none => exact mirrors_pure mirrored _
      | some target => exact runAll_mirrors mirrored (suits.2 target)
  | batch role place first second chores =>
    have made : Agrees setting (reports first second) (reports first second) real world :=
      mirrors_bind (mirrors_report mirrored rfl) (fun files _ _ _ mirrored => mirrors_get_bind
        (mirrors_bind (mirrors_report mirrored (suits.1 files _ _ mirrored.keeps))
          (fun _ _ _ _ mirrored => mirrors_pure mirrored _)))
    refine mirrors_bind (agrees_attempt made (fun _ _ _ mirrored => complain_mirrors mirrored _ _ _ _))
      (fun result _ _ _ mirrored => ?_)
    cases result with
    | none => exact mirrors_pure mirrored _
    | some both => exact runAll_mirrors mirrored (suits.2 both.1 both.2)

end

theorem inside_vacant (vacant : setting.Vacant) (within : target.Within setting.output)
    (name : String) :
    ¬ setting.start.disk.ProjectFile setting.source (setting.start.disk.placeOf target ++ [name]) := by
  obtain ⟨names, plain, rfl⟩ := within
  rintro ⟨_, content, stands⟩
  rw [placeOf_below _ _ plain, List.append_assoc] at stands
  cases names with
  | nil => exact nomatch (vacant name []).symm.trans stands
  | cons first rest => exact nomatch (vacant first (rest ++ [name])).symm.trans stands

theorem all_suit {adapter : Adapter} {analysis : Analysis} (vacant : setting.Vacant) (builtin : adapter.Builtin)
    (known : analysis ∈ setting.analysis) (options : Options) :
    ∀ work ∈ Work.all adapter analysis options setting.output, SuitsAll setting work := by
  have grounded := setting.grounded analysis known
  simp only [Work.all, List.forall_mem_append, List.forall_mem_cons, List.forall_mem_map, List.not_mem_nil,
    false_implies, implies_true, and_true]
  refine ⟨fun component member => ⟨fun _ _ keeps => builtin.component_eq keeps grounded member, fun owner => ?_⟩,
    fun page member => ⟨fun _ _ keeps => builtin.page_eq keeps grounded member, by simp⟩,
    ⟨fun files _ _ keeps => builtin.carriedStyles_eq keeps grounded files, fun _ _ => List.forall_mem_append.2
      ⟨List.forall_mem_map.2 (fun _ _ => trivial), List.forall_mem_map.2 (fun _ _ => trivial)⟩⟩,
    fun asset member => ⟨fun target offers name => ?_, by simp⟩, fun _ _ _ _ => rfl,
    fun _ _ => List.forall_mem_map.2 (fun _ _ => trivial)⟩
  · refine List.forall_mem_map.2 (fun companion attached => ?_)
    split
    · have file : setting.start.disk.HasUnit setting.source companion := by
        refine grounded.components component member companion ?_
        rcases List.mem_append.1 attached with test | story
        · simp [Component.units, test]
        · exact List.mem_append_right _ (List.mem_filter.1 story).1
      exact fun _ _ keeps => builtin.companion_eq keeps grounded file
    · trivial
  · obtain ⟨_, names, read, plain⟩ := grounded.assets asset member
    obtain ⟨base, listed, place⟩ := Output.assetPath_below setting.output analysis.layout.publicDir read
    have bases : ∀ base ∈ [["public"], ["src", "assets"]], base ≠ [] ∧ ".." ∉ base := by decide
    obtain ⟨nonempty, down⟩ := bases base listed
    rw [place] at offers
    exact inside_vacant vacant (offers.below (by simp [nonempty]) (by simp [down, plain])) name

theorem migrate_mirrors (vacant : setting.Vacant) (mirrored : setting.Mirrored real world) :
    Follows setting migrate real world := by
  have dry : (real.dry world).adapter = real.adapter ∧
      (real.dry world).outcome.analysis = real.outcome.analysis := ⟨rfl, rfl⟩
  unfold Follows Mirrors
  rw [exec_migrate, exec_migrate, dry.1, dry.2]
  cases worker : real.adapter with
  | none => exact fun _ => ⟨world, rfl, mirrored⟩
  | some adapter =>
    cases known : real.outcome.analysis with
    | none => exact fun _ => ⟨world, rfl, mirrored⟩
    | some found =>
      have suit := all_suit vacant (mirrored.builtin adapter worker) (mirrored.analysis.symm.trans known)
        real.options
      -- The two runs have one list of works: the list does not depend on the dry-run flag.
      have same : Work.all adapter found (real.dry world).options (real.dry world).output =
          Work.all adapter found real.options real.output := rfl
      dsimp only
      rw [same, mirrored.output]
      exact mirrors_forM mirrored (fun work _ _ => work_traces work)
        (fun work member _ _ mirrored => work_mirrors mirrored (suit work member))

end Stage
end Refit
