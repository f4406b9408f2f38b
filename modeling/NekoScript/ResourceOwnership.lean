import Mathlib.Tactic

/-!
# Ownership of resources that must be released once

A history records when resources are acquired, used and released, newest event
first.  An ownership ledger adds which holder has which resource at the moment.
Its fields say that a held resource is live and has no second holder, so
granting a fresh resource, using a held one and releasing a held one are the
only ways to extend it, and every ledger has a disciplined history.
-/

namespace ResourceOwnership

inductive Event (Resource : Type*) where
  | acquired (resource : Resource)
  | used (resource : Resource)
  | released (resource : Resource)
  deriving DecidableEq, Repr

abbrev History (Resource : Type*) := List (Event Resource)

variable {Holder Resource : Type*} [DecidableEq Resource]

def Event.resource : Event Resource → Resource
  | .acquired resource => resource
  | .used resource => resource
  | .released resource => resource

def History.releases (history : History Resource) (resource : Resource) : ℕ :=
  history.count (.released resource)

/-- No resource is acquired twice, and none is used or released after its
release. -/
def History.Disciplined : History Resource → Prop
  | [] => True
  | .acquired resource :: past =>
      (∀ event ∈ past, event.resource ≠ resource) ∧ History.Disciplined past
  | .used resource :: past =>
      History.releases past resource = 0 ∧ History.Disciplined past
  | .released resource :: past =>
      History.releases past resource = 0 ∧ History.Disciplined past

@[simp] theorem History.releases_nil (resource : Resource) :
    History.releases ([] : History Resource) resource = 0 := rfl

@[simp] theorem History.releases_cons_acquired
    (past : History Resource) (other resource : Resource) :
    History.releases (.acquired other :: past) resource =
      past.releases resource := by
  simp [History.releases]

@[simp] theorem History.releases_cons_used
    (past : History Resource) (other resource : Resource) :
    History.releases (.used other :: past) resource =
      past.releases resource := by
  simp [History.releases]

@[simp] theorem History.releases_cons_released
    (past : History Resource) (other resource : Resource) :
    History.releases (.released other :: past) resource =
      past.releases resource + if other = resource then 1 else 0 := by
  simp [History.releases, List.count_cons]

theorem History.releases_eq_zero_of_unmentioned
    {history : History Resource} {resource : Resource}
    (hnew : ∀ event ∈ history, event.resource ≠ resource) :
    history.releases resource = 0 := by
  apply List.count_eq_zero.mpr
  intro hmem
  exact hnew _ hmem rfl

theorem History.Disciplined.past
    {event : Event Resource} {past : History Resource}
    (h : History.Disciplined (event :: past)) : past.Disciplined := by
  cases event <;> exact h.2

theorem History.Disciplined.of_append
    {later earlier : History Resource}
    (h : History.Disciplined (later ++ earlier)) : earlier.Disciplined := by
  induction later with
  | nil => exact h
  | cons event later ih => exact ih h.past

theorem History.Disciplined.releases_le_one
    {history : History Resource} (h : history.Disciplined)
    (resource : Resource) : history.releases resource ≤ 1 := by
  induction history with
  | nil => simp
  | cons event past ih =>
      have hpast := ih h.past
      cases event with
      | acquired other => simpa using hpast
      | used other => simpa using hpast
      | released other =>
          by_cases heq : other = resource
          · subst other
            simp [h.1]
          · simpa [heq] using hpast

theorem History.Disciplined.releases_before_use
    {later earlier : History Resource} {resource : Resource}
    (h : History.Disciplined (later ++ .used resource :: earlier)) :
    earlier.releases resource = 0 :=
  h.of_append.1

/-- Whatever was acquired has been released once. -/
def History.ReleasedOnce (history : History Resource) : Prop :=
  ∀ resource, .acquired resource ∈ history → history.releases resource = 1

/-! ## Ledgers -/

/-- Holders, each with at most one resource, over a disciplined history. -/
structure Ledger (Holder Resource : Type*) [DecidableEq Resource] where
  holds : Holder → Option Resource
  history : History Resource
  acquired_of_holds : ∀ holder resource, holds holder = some resource →
    .acquired resource ∈ history
  live_of_holds : ∀ holder resource, holds holder = some resource →
    history.releases resource = 0
  holder_unique : ∀ first second resource, holds first = some resource →
    holds second = some resource → first = second
  disciplined : history.Disciplined

namespace Ledger

def empty : Ledger Holder Resource where
  holds := fun _ => none
  history := []
  acquired_of_holds := by simp
  live_of_holds := by simp
  holder_unique := by simp
  disciplined := trivial

variable (ledger : Ledger Holder Resource)

theorem ne_of_holds_of_unmentioned
    {holder : Holder} {resource other : Resource}
    (hheld : ledger.holds holder = some other)
    (hnew : ∀ event ∈ ledger.history, event.resource ≠ resource) :
    other ≠ resource :=
  hnew _ (ledger.acquired_of_holds holder other hheld)

variable [DecidableEq Holder]

/-- A holder receives a resource never seen before. -/
def grant (holder : Holder) (resource : Resource)
    (hnew : ∀ event ∈ ledger.history, event.resource ≠ resource) :
    Ledger Holder Resource where
  holds := Function.update ledger.holds holder (some resource)
  history := .acquired resource :: ledger.history
  acquired_of_holds := by
    intro other held hheld
    by_cases heq : other = holder
    · subst other
      simp only [Function.update_self, Option.some.injEq] at hheld
      simp [hheld]
    · rw [Function.update_of_ne heq] at hheld
      exact List.mem_cons_of_mem _ (ledger.acquired_of_holds other held hheld)
  live_of_holds := by
    intro other held hheld
    rw [History.releases_cons_acquired]
    by_cases heq : other = holder
    · subst other
      simp only [Function.update_self, Option.some.injEq] at hheld
      subst held
      exact History.releases_eq_zero_of_unmentioned hnew
    · rw [Function.update_of_ne heq] at hheld
      exact ledger.live_of_holds other held hheld
  holder_unique := by
    intro first second held hfirst hsecond
    by_cases hf : first = holder <;> by_cases hs : second = holder
    · rw [hf, hs]
    · subst first
      rw [Function.update_self, Option.some.injEq] at hfirst
      subst held
      rw [Function.update_of_ne hs] at hsecond
      exact absurd rfl (ledger.ne_of_holds_of_unmentioned hsecond hnew)
    · subst second
      rw [Function.update_self, Option.some.injEq] at hsecond
      subst held
      rw [Function.update_of_ne hf] at hfirst
      exact absurd rfl (ledger.ne_of_holds_of_unmentioned hfirst hnew)
    · rw [Function.update_of_ne hf] at hfirst
      rw [Function.update_of_ne hs] at hsecond
      exact ledger.holder_unique first second held hfirst hsecond
  disciplined := ⟨hnew, ledger.disciplined⟩

def use (holder : Holder) (resource : Resource)
    (hheld : ledger.holds holder = some resource) :
    Ledger Holder Resource where
  holds := ledger.holds
  history := .used resource :: ledger.history
  acquired_of_holds := by
    intro other held h
    exact List.mem_cons_of_mem _ (ledger.acquired_of_holds other held h)
  live_of_holds := by
    intro other held h
    simpa using ledger.live_of_holds other held h
  holder_unique := ledger.holder_unique
  disciplined := ⟨ledger.live_of_holds holder resource hheld, ledger.disciplined⟩

/-- A held resource is released and its holder left without one. -/
def release (holder : Holder) (resource : Resource)
    (hheld : ledger.holds holder = some resource) :
    Ledger Holder Resource where
  holds := Function.update ledger.holds holder none
  history := .released resource :: ledger.history
  acquired_of_holds := by
    intro other held h
    by_cases heq : other = holder
    · subst other
      simp at h
    · rw [Function.update_of_ne heq] at h
      exact List.mem_cons_of_mem _ (ledger.acquired_of_holds other held h)
  live_of_holds := by
    intro other held h
    by_cases heq : other = holder
    · subst other
      simp at h
    · rw [Function.update_of_ne heq] at h
      have hne : resource ≠ held := by
        intro hsame
        subst held
        exact heq (ledger.holder_unique other holder resource h hheld)
      simpa [hne] using ledger.live_of_holds other held h
  holder_unique := by
    intro first second held hfirst hsecond
    by_cases hf : first = holder
    · subst first
      simp at hfirst
    · by_cases hs : second = holder
      · subst second
        simp at hsecond
      · rw [Function.update_of_ne hf] at hfirst
        rw [Function.update_of_ne hs] at hsecond
        exact ledger.holder_unique first second held hfirst hsecond
  disciplined := ⟨ledger.live_of_holds holder resource hheld, ledger.disciplined⟩

/-- Nothing leaks: what was acquired and not released has a holder. -/
def Accounted (ledger : Ledger Holder Resource) : Prop :=
  ∀ resource, .acquired resource ∈ ledger.history →
    ledger.history.releases resource = 0 →
    ∃ holder, ledger.holds holder = some resource

omit [DecidableEq Holder] in
theorem accounted_empty : (empty : Ledger Holder Resource).Accounted := by
  intro resource hmem
  simp [empty] at hmem

variable {ledger}

theorem Accounted.grant
    (h : ledger.Accounted) {holder : Holder} {resource : Resource}
    (hnew : ∀ event ∈ ledger.history, event.resource ≠ resource)
    (hnone : ledger.holds holder = none) :
    (ledger.grant holder resource hnew).Accounted := by
  intro other hmem hreleases
  rcases List.mem_cons.mp hmem with heq | hold
  · rw [Event.acquired.injEq] at heq
    subst other
    exact ⟨holder, Function.update_self ..⟩
  · have hlive : ledger.history.releases other = 0 := by
      simpa [Ledger.grant] using hreleases
    obtain ⟨held, hheld⟩ := h other hold hlive
    refine ⟨held, ?_⟩
    have hne : held ≠ holder := by
      rintro rfl
      rw [hnone] at hheld
      contradiction
    exact (Function.update_of_ne hne ..).trans hheld

theorem Accounted.release
    (h : ledger.Accounted) {holder : Holder} {resource : Resource}
    (hheld : ledger.holds holder = some resource) :
    (ledger.release holder resource hheld).Accounted := by
  intro other hmem hreleases
  have hlive : ledger.history.releases other = 0 ∧ resource ≠ other := by
    simpa [Ledger.release] using hreleases
  rcases List.mem_cons.mp hmem with heq | hold
  · contradiction
  · obtain ⟨keeper, hkeeper⟩ := h other hold hlive.1
    refine ⟨keeper, ?_⟩
    have hne : keeper ≠ holder := by
      rintro rfl
      rw [hheld, Option.some.injEq] at hkeeper
      exact hlive.2 hkeeper
    exact (Function.update_of_ne hne ..).trans hkeeper

omit [DecidableEq Holder] in
/-- What was acquired and is held by nobody was released exactly once. -/
theorem Accounted.releases_eq_one
    (h : ledger.Accounted) {resource : Resource}
    (hmem : .acquired resource ∈ ledger.history)
    (hnone : ∀ holder, ledger.holds holder ≠ some resource) :
    ledger.history.releases resource = 1 := by
  have hle := ledger.disciplined.releases_le_one resource
  have hne : ledger.history.releases resource ≠ 0 := by
    intro hzero
    obtain ⟨holder, hheld⟩ := h resource hmem hzero
    exact hnone holder hheld
  omega

end Ledger

end ResourceOwnership
