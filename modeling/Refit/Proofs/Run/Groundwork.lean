import Refit.Proofs.Run.DryRun

namespace Refit

variable {event : Event} {start : Session}

/-- The work comes to a value. -/
def Report.Yields {α : Type} (work : Report α) (value : α) : Prop := (exec work []).1 = .ok value

theorem Call.calls_perform (call : Call) (world : World) :
    (call.perform world).2.calls = world.calls ++ [(call.operation, call.path)] := by
  rcases call.perform_cases world with ⟨_, run⟩ | ⟨_, _, _, run⟩ | ⟨_, _, run⟩ <;> rw [run] <;> rfl

/-- The steps that a run can take before its migration stage. -/
def Event.lays (start : Session) (event : Event) : Prop :=
  event.validates ∨ event.analyzes ∨ event.backsUp start ∨ event.setsUp

namespace Session

/-- From one session to another, no file of the output was made. -/
structure Untouched (s t : Session) : Prop extends SameRun s t where
  names : t.names = s.names
  files : t.outcome.migratedFiles = s.outcome.migratedFiles
  changes : t.outcome.summary.changes = s.outcome.summary.changes
  unitFailures : t.outcome.unitFailures = s.outcome.unitFailures
  calls : ∃ more, t.world.calls = s.world.calls ++ more ∧
    ∀ call ∈ more, call.1 = .copyTree ∨ call.1 = .ensureDirectory

theorem Untouched.refl (s : Session) : Untouched s s := ⟨.refl s, rfl, rfl, rfl, rfl, [], by simp, by simp⟩

theorem Untouched.trans {s t u : Session} (first : Untouched s t) (second : Untouched t u) : Untouched s u := by
  obtain ⟨more, grown, kinds⟩ := first.calls
  obtain ⟨others, further, sorts⟩ := second.calls
  refine ⟨first.toSameRun.trans second.toSameRun, second.names.trans first.names, second.files.trans first.files,
    second.changes.trans first.changes, second.unitFailures.trans first.unitFailures, more ++ others, ?_, ?_⟩
  · rw [further, grown, List.append_assoc]
  · intro call member
    exact (List.mem_append.1 member).elim (kinds call) (sorts call)

theorem Step.untouches {s t : Session} (step : Step event s t) (lays : event.lays start) :
    Untouched s t := by
  have quiet {t : Session} (same : SameRun s t) (outcome : t.outcome = s.outcome) (names : t.names = s.names)
      (calls : t.world.calls = s.world.calls) : Untouched s t :=
    ⟨same, names, by rw [outcome], by rw [outcome], by rw [outcome], [], by simp [calls], by simp⟩
  have called (call : Call) {t : Session} (same : SameRun s t) (outcome : t.outcome = s.outcome)
      (names : t.names = s.names) (world : t.world = (call.perform s.world).2)
      (kind : call.operation = .copyTree ∨ call.operation = .ensureDirectory) : Untouched s t :=
    ⟨same, names, by rw [outcome], by rw [outcome], by rw [outcome], [(call.operation, call.path)],
      by rw [world, Call.calls_perform], by simpa using kind⟩
  have same := step.sameRun
  cases step with
  | logged | timed | chosen => exact quiet same rfl rfl rfl
  | analyzed => exact ⟨same, rfl, rfl, rfl, rfl, [], by simp [Session.change], by simp⟩
  | failed _ call real run =>
    refine called call same rfl rfl (by rw [run]) ?_
    cases call with
    | makeDirectory path => exact .inr rfl
    | backUp source path => exact .inl rfl
    | write path content | copy source path => rcases lays with is | is | is | is <;> cases is
  | made _ path real run => exact called (.makeDirectory path) same rfl rfl (by rw [run]) (.inr rfl)
  | backedUp _ path real run => exact called (.backUp s.source path) same rfl rfl (by rw [run]) (.inl rfl)
  | _ => rcases lays with is | is | is | is <;> cases is

theorem Trace.untouches {s t : Session} (trace : Trace (Event.lays start) s t) : Untouched s t := by
  induction trace with
  | refl => exact .refl s
  | tail _ last ih =>
    obtain ⟨_, lays, step⟩ := last
    exact ih.trans (step.untouches lays)

end Session

namespace Migration

open Session Stage Event

/-- How the stages before the migration stage end. -/
def laid (observer : Option Observer) (session : Session) : Except Fault Unit × Session :=
  exec (inTurn observer stages.length 1 (stages.take 4)) (begun session)

section

variable (observer : Option Observer)
include observer

theorem laid_trace (session : Session) :
    Trace (lays session) session (laid observer session).2 := by
  have begins : Trace (lays session) session (begun session) := .of_step (.logged session _) (.inl trivial)
  unfold laid
  rw [← (runStages_inTurn observer stages.length 1 (stages.take 4) (begun session) []).2]
  refine begins.trans (runStages_trace (.inl trivial) observer _ _ [] (fun stage member after same => ?_))
  have start : SameRun session after := begins.sameRun.trans same
  simp only [stages, List.take, List.mem_cons, List.not_mem_nil, or_false] at member
  rcases member with rfl | rfl | rfl | rfl
  · exact Trace.mono validate_traces (fun _ is => .inl is)
  · exact Trace.mono analyze_traces (fun _ is => .inr (.inl is))
  · have backed : Traces (lays session) backup after :=
      Trace.mono (backup_traces start) (fun _ is => .inr (.inr (.inl is)))
    exact traces_bind backed (fun _ _ _ => traces_pure _)
  · exact Trace.mono setup_traces (fun _ is => .inr (.inr (.inr is)))

theorem inTurn_append (total number : Nat) (first second : List NamedStage) :
    inTurn observer total number (first ++ second) =
      (do inTurn observer total number first; inTurn observer total (number + first.length) second) := by
  induction first generalizing number with
  | nil => exact (pure_bind _ _).symm
  | cons stage rest ih =>
    have further : number + 1 + rest.length = number + (stage :: rest).length := by
      rw [List.length_cons, Nat.add_right_comm, Nat.add_assoc]
    rw [List.cons_append, inTurn, inTurn, ih, further, bind_assoc]

theorem prepared_eq (session : Session) :
    ((prepared observer session).1, (prepared observer session).2.1) =
      match laid observer session with
      | (.ok (), held) => exec (announced observer stages.length 5
          ⟨"migration", "Migrating components, pages and styles", Stage.migrate⟩) held
      | (.error fault, held) => (.error fault, held) := by
  obtain ⟨ended, held⟩ := runStages_inTurn observer stages.length 1 preparation (begun session) []
  have split : inTurn observer stages.length 1 preparation = (do
      inTurn observer stages.length 1 (stages.take 4)
      announced observer stages.length 5 ⟨"migration", "Migrating components, pages and styles", Stage.migrate⟩) := by
    have parts : preparation = stages.take 4 ++
        [⟨"migration", "Migrating components, pages and styles", Stage.migrate⟩] := rfl
    rw [parts, inTurn_append]
    refine bind_congr (fun _ => ?_)
    exact bind_pure_unit
  unfold prepared laid
  rw [ended, held, split, exec_bind]
  rcases exec (inTurn observer stages.length 1 (stages.take 4)) (begun session) with ⟨outcome, held⟩
  cases outcome <;> rfl

theorem prepared_cases (session : Session) :
    (∃ fault, (prepared observer session).1 = .error fault ∧
      (prepared observer session).2.1 = (laid observer session).2) ∨
    ∃ record, (laid observer session).1 = .ok () ∧
      ((prepared observer session).1, (prepared observer session).2.1) =
        exec Stage.migrate { (laid observer session).2 with world := (laid observer session).2.world.note record } := by
  have whole := prepared_eq observer session
  rcases run : laid observer session with ⟨outcome, held⟩
  rw [run] at whole
  cases outcome with
  | error fault => exact .inl ⟨fault, congrArg Prod.fst whole, congrArg Prod.snd whole⟩
  | ok =>
    dsimp only at whole
    unfold announced at whole
    split at whole
    · next fault _ => exact .inl ⟨fault, congrArg Prod.fst whole, congrArg Prod.snd whole⟩
    · exact .inr ⟨_, rfl, whole⟩

end

/-- An adapter that a run has, or may choose, surveys the project before the run has done more than log. -/
def Surveyed (session : Session) (chosen : Adapter) (found : Analysis) : Prop :=
  (session.adapter = some chosen ∨ chosen ∈ session.candidates) ∧
    ∃ world, World.Relogged session.world world ∧
      (chosen.analyze world.disk session.source session.texts).Yields found

end Migration

namespace Stage

open Session Event

theorem validate_chooses {s t : Session} (run : exec validate s = (.ok (), t)) :
    ∃ chosen records, (s.adapter = some chosen ∨ chosen ∈ s.candidates) ∧
      t = { s with adapter := some chosen, world := s.world.noteAll records } := by
  unfold validate at run
  rw [exec_get_bind] at run
  cases known : s.adapter with
  | none =>
    rw [known] at run
    obtain ⟨answer, middle, selected, run⟩ := exec_bind_ok run
    rw [exec_report] at selected
    obtain ⟨chose, rfl⟩ := Prod.mk.inj selected
    cases answer with
    | none => cases run
    | some chosen =>
      cases run
      obtain ⟨member, _⟩ := recognises_of_select (Prod.ext chose rfl)
      exact ⟨chosen, _, .inr member, rfl⟩
  | some chosen =>
    rw [known] at run
    obtain ⟨answer, middle, asked, run⟩ := exec_bind_ok run
    rw [exec_report] at asked
    obtain ⟨_, rfl⟩ := Prod.mk.inj asked
    cases answer with
    | false => cases run
    | true =>
      cases run
      exact ⟨chosen, _, .inl rfl, by rw [← known]⟩

theorem analyze_finds {s t : Session} (run : exec analyze s = (.ok (), t)) :
    ∃ chosen found, s.adapter = some chosen ∧ t.adapter = some chosen ∧ t.outcome.analysis = some found ∧
      (chosen.analyze s.world.disk s.source s.texts).Yields found := by
  unfold analyze at run
  rw [exec_get_bind] at run
  obtain ⟨chosen, middle, adapted, run⟩ := exec_bind_ok run
  rw [exec_adapter] at adapted
  cases known : s.adapter with
  | none =>
    rw [known] at adapted
    cases adapted
  | some adapter =>
    rw [known] at adapted
    cases adapted
    obtain ⟨found, later, surveyed, run⟩ := exec_bind_ok run
    rw [exec_report] at surveyed
    obtain ⟨yields, rfl⟩ := Prod.mk.inj surveyed
    cases run
    exact ⟨chosen, found, rfl, known, rfl, yields⟩

end Stage

namespace Session

theorem Step.keepsFindings {s t : Session} (step : Step event s t) (is : event.backsUp start ∨ event.setsUp) :
    t.adapter = s.adapter ∧ t.outcome.analysis = s.outcome.analysis := by
  cases step with
  | chosen | analyzed => rcases is with is | is <;> cases is
  | _ => exact ⟨rfl, rfl⟩

theorem Trace.keepsFindings {s t : Session} (trace : Trace (fun event => event.backsUp start ∨ event.setsUp) s t) :
    t.adapter = s.adapter ∧ t.outcome.analysis = s.outcome.analysis := by
  induction trace with
  | refl => exact ⟨rfl, rfl⟩
  | tail _ last ih =>
    obtain ⟨_, is, step⟩ := last
    have kept := step.keepsFindings is
    exact ⟨kept.1.trans ih.1, kept.2.trans ih.2⟩

end Session

namespace Migration

open Session Stage Event

theorem announced_ok {observer : Option Observer} {total number : Nat} {stage : NamedStage} {s t : Session}
    (run : exec (announced observer total number stage) s = (.ok (), t)) :
    ∃ record, exec stage.run { s with world := s.world.note record } = (.ok (), t) := by
  unfold announced at run
  split at run
  · cases run
  · exact ⟨_, run⟩

theorem laid_surveyed {observer : Option Observer} {session : Session} (done : (laid observer session).1 = .ok ()) :
    ∃ chosen found, (laid observer session).2.adapter = some chosen ∧
      (laid observer session).2.outcome.analysis = some found ∧ Surveyed session chosen found := by
  have run : exec (inTurn observer stages.length 1 (stages.take 4)) (begun session) =
      (.ok (), (laid observer session).2) := Prod.ext done rfl
  obtain ⟨_, validated, first, afterFirst⟩ := exec_bind_ok run
  obtain ⟨_, analyzed, second, afterSecond⟩ := exec_bind_ok afterFirst
  obtain ⟨_, backed, third, afterThird⟩ := exec_bind_ok afterSecond
  obtain ⟨_, set, fourth, last⟩ := exec_bind_ok afterThird
  obtain ⟨greeted, first⟩ := announced_ok first
  obtain ⟨announcement, second⟩ := announced_ok second
  obtain ⟨backing, third⟩ := announced_ok third
  obtain ⟨setting, fourth⟩ := announced_ok fourth
  obtain ⟨chosen, records, offered, rfl⟩ := validate_chooses first
  obtain ⟨adapter, found, same, worker, known, yields⟩ := analyze_finds second
  obtain rfl : adapter = chosen := (Option.some.inj same).symm
  have ended : set = (laid observer session).2 := congrArg Prod.snd last
  have backedUp : Trace (fun event => event.backsUp analyzed ∨ event.setsUp) analyzed backed := by
    have noted : Trace (fun event => event.backsUp analyzed ∨ event.setsUp) analyzed
        { analyzed with world := analyzed.world.note backing } := .of_step (.logged analyzed _) (.inl trivial)
    obtain ⟨_, after, third, last⟩ := exec_bind_ok third
    cases last
    have backs := backup_traces noted.sameRun
    unfold Traces at backs
    rw [third] at backs
    exact noted.trans (backs.mono (fun _ is => .inl is))
  have setUp : Trace (fun event => event.backsUp analyzed ∨ event.setsUp) backed set := by
    have noted : Trace (fun event => event.backsUp analyzed ∨ event.setsUp) backed
        { backed with world := backed.world.note setting } := .of_step (.logged backed _) (.inl trivial)
    have sets := @setup_traces { backed with world := backed.world.note setting }
    unfold Traces at sets
    rw [fourth] at sets
    exact noted.trans (sets.mono (fun _ is => .inr is))
  obtain ⟨keptAdapter, keptAnalysis⟩ := Trace.keepsFindings (backedUp.trans setUp)
  rw [← ended]
  refine ⟨adapter, found, keptAdapter.trans worker, keptAnalysis.trans known, offered, _, ?_, yields⟩
  exact (((World.Relogged.refl session.world).note _).note greeted).noteAll records |>.note announcement

end Migration
end Refit
