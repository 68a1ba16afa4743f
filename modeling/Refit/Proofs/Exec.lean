namespace Refit

variable {ε σ α β : Type} {step : ExceptT ε (StateM σ) α} {next : α → ExceptT ε (StateM σ) β} {s : σ}

theorem bind_ok {step : Except ε α} {next : α → Except ε β} {result : β} (done : step >>= next = .ok result) :
    ∃ value, step = .ok value ∧ next value = .ok result := by
  cases step with
  | error fault => cases done
  | ok value => exact ⟨value, rfl, done⟩

/-- What a computation comes to, and the state after it. -/
def exec (step : ExceptT ε (StateM σ) α) (state : σ) : Except ε α × σ := step.run.run state

@[simp] theorem exec_pure (value : α) (s : σ) : exec (pure value : ExceptT ε (StateM σ) α) s = (.ok value, s) := rfl

@[simp] theorem exec_throw (fault : ε) (s : σ) :
    exec (throw fault : ExceptT ε (StateM σ) α) s = (.error fault, s) := rfl

theorem exec_bind (step : ExceptT ε (StateM σ) α) (next : α → ExceptT ε (StateM σ) β) (s : σ) :
    exec (step >>= next) s =
      match exec step s with
      | (.ok value, after) => exec (next value) after
      | (.error fault, after) => (.error fault, after) := by
  change (ExceptT.bind step next s : Except ε β × σ) = _
  unfold ExceptT.bind ExceptT.mk exec
  simp only [ExceptT.run, StateT.run, bind, StateT.bind]
  rcases step s with ⟨outcome, after⟩
  cases outcome <;> rfl

theorem exec_bind_ok {after : σ} {result : β} (run : exec (step >>= next) s = (.ok result, after)) :
    ∃ value middle, exec step s = (.ok value, middle) ∧ exec (next value) middle = (.ok result, after) := by
  rw [exec_bind] at run
  rcases first : exec step s with ⟨outcome, middle⟩
  rw [first] at run
  cases outcome with
  | ok value => exact ⟨value, middle, rfl, run⟩
  | error fault => cases run

theorem exec_tryCatch (step : ExceptT ε (StateM σ) α) (onFault : ε → ExceptT ε (StateM σ) α) (s : σ) :
    exec (tryCatch step onFault) s =
      match exec step s with
      | (.ok value, after) => (.ok value, after)
      | (.error fault, after) => exec (onFault fault) after := by
  change (ExceptT.tryCatch step onFault s : Except ε α × σ) = _
  unfold ExceptT.tryCatch ExceptT.mk exec
  simp only [ExceptT.run, StateT.run, bind, StateT.bind]
  rcases step s with ⟨outcome, after⟩
  cases outcome <;> rfl

theorem exec_map (f : α → β) (step : ExceptT ε (StateM σ) α) (s : σ) :
    exec (step.map f) s = ((exec step s).1.map f, (exec step s).2) := by
  unfold ExceptT.map ExceptT.mk exec
  simp only [ExceptT.run, StateT.run, bind, StateT.bind]
  rcases step s with ⟨outcome, after⟩
  cases outcome <;> rfl

@[simp] theorem exec_get (s : σ) : exec (get : ExceptT ε (StateM σ) σ) s = (.ok s, s) := rfl

@[simp] theorem exec_modify (f : σ → σ) (s : σ) :
    exec (modify f : ExceptT ε (StateM σ) PUnit) s = (.ok (), f s) := rfl

@[simp] theorem exec_set (t s : σ) : exec (set t : ExceptT ε (StateM σ) PUnit) s = (.ok (), t) := rfl

theorem exec_get_bind (next : σ → ExceptT ε (StateM σ) β) (s : σ) :
    exec (get >>= next) s = exec (next s) s := by
  rfl

theorem exec_bind_related (related : σ → σ → Prop)
    (trans : ∀ {first second third}, related first second → related second third → related first third)
    (first : related s (exec step s).2)
    (second : ∀ value after, exec step s = (.ok value, after) → related s after →
      related after (exec (next value) after).2) : related s (exec (step >>= next) s).2 := by
  rw [exec_bind]
  rcases run : exec step s with ⟨outcome, after⟩
  rw [run] at first
  cases outcome with
  | ok value => exact trans first (second value after run first)
  | error fault => exact first

theorem exec_forM_related (related : σ → σ → Prop) (refl : ∀ state, related state state)
    (trans : ∀ {first second third}, related first second → related second third → related first third)
    {items : List α} {f : α → ExceptT ε (StateM σ) Unit}
    (each : ∀ item ∈ items, ∀ after, related s after → related after (exec (f item) after).2) :
    related s (exec (items.forM f) s).2 := by
  induction items generalizing s with
  | nil => exact refl s
  | cons item rest ih =>
    have first := each item (by simp) s (refl s)
    have whole : related s (exec (do f item; rest.forM f) s).2 := by
      apply exec_bind_related related trans first
      intro _ after _ same
      exact ih (fun other member later further => each other (by simp [member]) later (trans same further))
    exact whole

theorem throw_bind (fault : ε) (next : α → ExceptT ε (StateM σ) β) :
    (throw fault : ExceptT ε (StateM σ) α) >>= next = throw fault := rfl

end Refit
