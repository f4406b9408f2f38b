import Mathlib.Tactic

/-!
# Runs of a machine under a guard

A machine is a partial step function driven by choices of its environment.
A guarded run takes only steps whose choice meets a condition on the state it
is made in.  An invariant that every guarded step keeps holds at the end of
every guarded run.
-/

namespace GuardedRuns

variable {State Choice : Type*}

def run (step : State → Choice → Option State) :
    State → List Choice → Option State
  | state, [] => some state
  | state, choice :: choices =>
      (step state choice).bind fun next => run step next choices

@[simp] theorem run_nil
    (step : State → Choice → Option State) (state : State) :
    run step state [] = some state := rfl

theorem run_cons
    {step : State → Choice → Option State} {state next : State}
    {choice : Choice} (hstep : step state choice = some next)
    (choices : List Choice) :
    run step state (choice :: choices) = run step next choices := by
  simp [run, hstep]

theorem run_append
    {step : State → Choice → Option State} {state middle final : State}
    {before after : List Choice} (hbefore : run step state before = some middle)
    (hafter : run step middle after = some final) :
    run step state (before ++ after) = some final := by
  induction before generalizing state with
  | nil =>
      rw [run_nil, Option.some.injEq] at hbefore
      rwa [hbefore]
  | cons choice before ih =>
      obtain ⟨next, hstep, hrest⟩ := Option.bind_eq_some_iff.mp hbefore
      rw [List.cons_append, run_cons hstep]
      exact ih hrest

/-- A run in which every choice meets the guard in the state it is made in. -/
inductive GuardedRun (step : State → Choice → Option State)
    (guard : State → Choice → Prop) : State → List Choice → State → Prop
  | nil (state : State) : GuardedRun step guard state [] state
  | cons {state next final : State} {choice : Choice} {choices : List Choice}
      (hguard : guard state choice) (hstep : step state choice = some next)
      (hrest : GuardedRun step guard next choices final) :
      GuardedRun step guard state (choice :: choices) final

namespace GuardedRun

variable {step : State → Choice → Option State}
  {guard : State → Choice → Prop}

/-- The induction rule: what every guarded step keeps, every run keeps. -/
theorem invariant
    (Inv : State → Prop)
    (hkeep : ∀ state choice next, Inv state → guard state choice →
      step state choice = some next → Inv next)
    {state final : State} {choices : List Choice}
    (hrun : GuardedRun step guard state choices final)
    (hinit : Inv state) : Inv final := by
  induction hrun with
  | nil => exact hinit
  | cons hguard hstep _ ih => exact ih (hkeep _ _ _ hinit hguard hstep)

theorem run_eq
    {state final : State} {choices : List Choice}
    (hrun : GuardedRun step guard state choices final) :
    run step state choices = some final := by
  induction hrun with
  | nil => rfl
  | cons _ hstep _ ih => rw [run_cons hstep, ih]

/-- Under a guard that always holds, every run is a guarded one. -/
theorem of_run
    (hguard : ∀ state choice, guard state choice)
    {state final : State} {choices : List Choice}
    (hrun : run step state choices = some final) :
    GuardedRun step guard state choices final := by
  induction choices generalizing state with
  | nil =>
      rw [run_nil, Option.some.injEq] at hrun
      subst final
      exact .nil state
  | cons choice choices ih =>
      obtain ⟨next, hstep, hrest⟩ := Option.bind_eq_some_iff.mp hrun
      exact .cons (hguard state choice) hstep (ih hrest)

end GuardedRun

def checkedRun (step : State → Choice → Option State)
    (guard : State → Choice → Prop)
    [∀ state choice, Decidable (guard state choice)] :
    State → List Choice → Option State
  | state, [] => some state
  | state, choice :: choices =>
      if guard state choice then
        (step state choice).bind fun next => checkedRun step guard next choices
      else none

theorem GuardedRun.of_checkedRun
    {step : State → Choice → Option State} {guard : State → Choice → Prop}
    [∀ state choice, Decidable (guard state choice)]
    {state final : State} {choices : List Choice}
    (hrun : checkedRun step guard state choices = some final) :
    GuardedRun step guard state choices final := by
  induction choices generalizing state with
  | nil =>
      simp only [checkedRun, Option.some.injEq] at hrun
      subst final
      exact .nil state
  | cons choice choices ih =>
      unfold checkedRun at hrun
      by_cases hguard : guard state choice
      · rw [if_pos hguard] at hrun
        cases hstep : step state choice with
        | none => simp [hstep] at hrun
        | some next =>
            rw [hstep, Option.bind_some] at hrun
            exact .cons hguard hstep (ih hrun)
      · simp [if_neg hguard] at hrun

end GuardedRuns
