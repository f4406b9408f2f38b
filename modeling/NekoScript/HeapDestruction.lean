import NekoScript.CollectorRuns
import Mathlib.Tactic

/-!
# Finalizers when the heap is destroyed

`duk__free_run_finalizers` goes over `heap_allocated` in rounds, and runs the
finalizers that have not been run.  They may allocate objects with finalizers, so
there are further rounds, and a limit that shrinks from round to round.  Whatever
the finalizers store, the rounds end, and no finalizer is run twice.
-/

namespace NekoScript

def CollectorAction.isStore : CollectorAction → Bool
  | .allocate _ _ => true
  | .write _ _ => true
  | .setRoots _ => true
  | _ => false

namespace DukHeap

/-- A script goes on after a store that it cannot make. -/
def performStore (heap : DukHeap) (action : CollectorAction) : DukHeap :=
  if action.isStore then (collectorStep heap action).getD heap else heap

/-- What the finalizer of an object does to the heap; it does not call
`Duktape.gc`. -/
abbrev FinalizerScript := DukHeap → ℕ → List CollectorAction

/-- `duk_hobject_run_finalizer`, while nothing is collected. -/
def finalizeObject (script : FinalizerScript) (heap : DukHeap) (x : ℕ) : DukHeap :=
  (script heap x).foldl performStore
    { heap with finalized := Function.update heap.finalized x true }

def awaitsFinalizer (heap : DukHeap) (x : ℕ) : Bool :=
  heap.isObject x && (heap.hasFinalizerRaw x && !heap.finalized x)

def finalizeTurn (script : FinalizerScript) (acc : DukHeap × List ℕ) (curr : ℕ) :
    DukHeap × List ℕ :=
  if acc.1.awaitsFinalizer curr then
    (acc.1.finalizeObject script curr, acc.2 ++ [curr])
  else acc

/-- One round, and the objects whose finalizers were run.  New elements are put
before the first one, so this round does not come to them. -/
def finalizeRound (script : FinalizerScript) (heap : DukHeap) : DukHeap × List ℕ :=
  heap.heapAllocated.foldl (finalizeTurn script) (heap, [])

def finalizeRounds (script : FinalizerScript) : ℕ → ℕ → DukHeap → Option (DukHeap × List ℕ)
  | 0, _, _ => none
  | fuel + 1, limit, heap =>
      let round := heap.finalizeRound script
      if round.2.length = 0 || limit ≤ round.2.length then some round
      else
        (finalizeRounds script fuel (limit * 3 / 4) round.1).map fun later =>
          (later.1, round.2 ++ later.2)

/-- `duk__free_run_finalizers` -/
def freeRunFinalizers (script : FinalizerScript) (fuel : ℕ) (heap : DukHeap) :
    Option (DukHeap × List ℕ) :=
  heap.finalizeRounds script fuel (heap.heapAllocated.length * 2)

/-! ## What finalizers leave -/

/-- Elements are added in front, and no flag FINALIZED is cleared. -/
structure Extends (heap heap' : DukHeap) : Prop where
  next : heap.next ≤ heap'.next
  heapAllocated : heap.heapAllocated <:+ heap'.heapAllocated
  finalized : ∀ x < heap.next, heap.finalized x → heap'.finalized x

variable {script : FinalizerScript} {heap heap' heap'' : DukHeap}

theorem Extends.refl (heap : DukHeap) : Extends heap heap :=
  ⟨le_rfl, List.suffix_refl _, fun _ _ h => h⟩

theorem Extends.trans (h : Extends heap heap') (h' : Extends heap' heap'') :
    Extends heap heap'' := by
  constructor
  · exact h.next.trans h'.next
  · exact h.heapAllocated.trans h'.heapAllocated
  · intro x hx hflag
    exact h'.finalized x (hx.trans_le h.next) (h.finalized x hx hflag)

theorem Extends.not_finalized (h : Extends heap heap') {x : ℕ} (hx : x < heap.next)
    (hlater : heap'.finalized x = false) : heap.finalized x = false := by
  cases hnow : heap.finalized x with
  | false => rfl
  | true => simp [h.finalized x hx hnow] at hlater

theorem extends_hold {holder x : ℕ} (heq : heap.hold holder x = some heap') :
    Extends heap heap' := by
  unfold hold at heq
  split at heq
  next =>
    rw [← Option.some.inj heq]
    exact ⟨le_rfl, List.suffix_refl _, fun _ _ h => h⟩
  next => contradiction

theorem extends_allocate (header : HeapHdr) : Extends heap (heap.allocate header) := by
  have hflag : ∀ x < heap.next, heap.finalized x →
      Function.update heap.finalized heap.next false x := by
    intro x hx hflag
    have hne : x ≠ heap.next := by omega
    simpa [hne] using hflag
  cases header with
  | string => exact ⟨Nat.le_succ _, List.suffix_refl _, hflag⟩
  | buffer => exact ⟨Nat.le_succ _, List.suffix_cons _ _, hflag⟩
  | object h => exact ⟨Nat.le_succ _, List.suffix_cons _ _, hflag⟩

theorem extends_of_store {action : CollectorAction} (hstore : action.isStore)
    (hstep : collectorStep heap action = some heap') : Extends heap heap' := by
  cases action with
  | allocate header holder =>
      simp only [collectorStep] at hstep
      split at hstep
      next => exact (extends_allocate header).trans (extends_hold hstep)
      next => contradiction
  | write x object =>
      simp only [collectorStep] at hstep
      split at hstep
      next =>
        rw [← Option.some.inj hstep]
        exact ⟨le_rfl, List.suffix_refl _, fun _ _ h => h⟩
      next => contradiction
  | setRoots roots =>
      simp only [collectorStep] at hstep
      split at hstep
      next =>
        rw [← Option.some.inj hstep]
        exact ⟨le_rfl, List.suffix_refl _, fun _ _ h => h⟩
      next => contradiction
  | _ => contradiction

/-- A heap that comes from a well-formed one by stores. -/
structure Grown (heap heap' : DukHeap) : Prop extends Extends heap heap' where
  wellFormed : heap'.WellFormed

theorem grown_performStore (h : heap.WellFormed) (action : CollectorAction) :
    Grown heap (heap.performStore action) := by
  unfold performStore
  split
  next hstore =>
    cases hstep : collectorStep heap action with
    | none => exact ⟨Extends.refl heap, h⟩
    | some heap' =>
        have hguard : SettlesPending heap action := by
          cases action with
          | collect finalizers => contradiction
          | _ => rfl
        exact ⟨extends_of_store hstore hstep, wellFormed_of_collectorStep h hguard hstep⟩
  next => exact ⟨Extends.refl heap, h⟩

theorem grown_foldl_performStore (h : heap.WellFormed) (actions : List CollectorAction) :
    Grown heap (actions.foldl performStore heap) := by
  induction actions generalizing heap with
  | nil => exact ⟨Extends.refl heap, h⟩
  | cons action actions ih =>
      have hhead := grown_performStore h action
      have htail := ih hhead.wellFormed
      exact ⟨hhead.toExtends.trans htail.toExtends, htail.wellFormed⟩

theorem grown_finalizeObject (h : heap.WellFormed) {x : ℕ} (hx : x < heap.next) :
    Grown heap (heap.finalizeObject script x) ∧
      (heap.finalizeObject script x).finalized x := by
  have hflag : ({ heap with
      finalized := Function.update heap.finalized x true } : DukHeap).WellFormed :=
    h.rearrange rfl rfl rfl rfl rfl rfl (List.Perm.refl _)
  have hscript := grown_foldl_performStore hflag (script heap x)
  constructor
  · constructor
    · constructor
      · exact hscript.next
      · exact hscript.heapAllocated
      · intro y hy hfinalized
        apply hscript.finalized y hy
        rcases eq_or_ne y x with heq | hne
        · simp [heq]
        · simpa [hne] using hfinalized
    · exact hscript.wellFormed
  · exact hscript.finalized x hx (by simp)

/-! ## Rounds -/

/-- What the turns of `xs` do, and which finalizers they run. -/
structure Turns (heap : DukHeap) (xs : List ℕ) (heap' : DukHeap) (ran : List ℕ) : Prop
    extends Grown heap heap' where
  sublist : ran.Sublist xs
  before : ∀ x ∈ ran, heap.finalized x = false
  after : ∀ x ∈ ran, heap'.finalized x
  idle : ran = [] → heap' = heap ∧ ∀ x ∈ xs, heap.awaitsFinalizer x = false

theorem Turns.skip {x : ℕ} {xs ran : List ℕ} (hturns : Turns heap xs heap' ran)
    (hawaits : heap.awaitsFinalizer x = false) : Turns heap (x :: xs) heap' ran := by
  constructor
  · exact hturns.toGrown
  · exact hturns.sublist.cons x
  · exact hturns.before
  · exact hturns.after
  · intro hnil
    rcases hturns.idle hnil with ⟨heq, hnone⟩
    constructor
    · exact heq
    · intro y hy
      rcases List.mem_cons.mp hy with hhead | hy
      · rw [hhead]
        exact hawaits
      · exact hnone y hy

theorem Turns.run {x : ℕ} {xs ran : List ℕ} (hgrown : Grown heap heap')
    (hself : heap'.finalized x) (hturns : Turns heap' xs heap'' ran)
    (hbefore : heap.finalized x = false) (hlt : ∀ y ∈ x :: xs, y < heap.next) :
    Turns heap (x :: xs) heap'' (x :: ran) := by
  constructor
  · exact ⟨hgrown.toExtends.trans hturns.toExtends, hturns.wellFormed⟩
  · exact hturns.sublist.cons_cons x
  · intro y hy
    rcases List.mem_cons.mp hy with heq | hy
    · rw [heq]
      exact hbefore
    · have hmem := List.mem_cons_of_mem x (hturns.sublist.subset hy)
      exact hgrown.not_finalized (hlt y hmem) (hturns.before y hy)
  · intro y hy
    rcases List.mem_cons.mp hy with heq | hy
    · rw [heq]
      exact hturns.finalized x ((hlt x List.mem_cons_self).trans_le hgrown.next) hself
    · exact hturns.after y hy
  · simp

theorem exists_turns (h : heap.WellFormed) {xs : List ℕ} (hxs : ∀ x ∈ xs, x < heap.next)
    (log : List ℕ) :
    ∃ heap' ran, xs.foldl (finalizeTurn script) (heap, log) = (heap', log ++ ran) ∧
      Turns heap xs heap' ran := by
  induction xs generalizing heap log with
  | nil =>
      refine ⟨heap, [], by simp, ⟨⟨Extends.refl heap, h⟩, List.Sublist.refl _, ?_, ?_, ?_⟩⟩
      · simp
      · simp
      · simp
  | cons x xs ih =>
      cases hawaits : heap.awaitsFinalizer x with
      | false =>
          have hturn : finalizeTurn script (heap, log) x = (heap, log) := by
            simp [finalizeTurn, hawaits]
          rcases ih h (fun y hy => hxs y (List.mem_cons_of_mem x hy)) log with
            ⟨heap', ran, hfold, hturns⟩
          refine ⟨heap', ran, ?_, hturns.skip hawaits⟩
          rw [List.foldl_cons, hturn, hfold]
      | true =>
          have hturn : finalizeTurn script (heap, log) x =
              (heap.finalizeObject script x, log ++ [x]) := by
            simp [finalizeTurn, hawaits]
          have hbefore : heap.finalized x = false := by
            simp only [awaitsFinalizer, Bool.and_eq_true, Bool.not_eq_true'] at hawaits
            exact hawaits.2.2
          rcases grown_finalizeObject h (hxs x List.mem_cons_self) with ⟨hgrown, hself⟩
          have hbelow : ∀ y ∈ xs, y < (heap.finalizeObject script x).next := by
            intro y hy
            exact (hxs y (List.mem_cons_of_mem x hy)).trans_le hgrown.next
          rcases ih hgrown.wellFormed hbelow (log ++ [x]) with ⟨heap', ran, hfold, hturns⟩
          refine ⟨heap', x :: ran, ?_, hturns.run hgrown hself hbefore hxs⟩
          rw [List.foldl_cons, hturn, hfold]
          simp

theorem WellFormed.heapAllocated_lt (h : heap.WellFormed) :
    ∀ x ∈ heap.heapAllocated, x < heap.next := by
  intro x hx
  exact h.below x (by simp [elements, hx])

theorem WellFormed.exists_finalizeRound (h : heap.WellFormed) :
    ∃ heap' ran, heap.finalizeRound script = (heap', ran) ∧
      Turns heap heap.heapAllocated heap' ran := by
  rcases exists_turns h h.heapAllocated_lt [] with ⟨heap', ran, hfold, hturns⟩
  rw [List.nil_append] at hfold
  exact ⟨heap', ran, hfold, hturns⟩

/-- What some rounds leave, and which finalizers they have run. -/
structure Rounds (heap heap' : DukHeap) (ran : List ℕ) : Prop extends Grown heap heap' where
  nodup : ran.Nodup
  mem : ∀ x ∈ ran, x ∈ heap'.heapAllocated
  before : ∀ x ∈ ran, x ∈ heap.heapAllocated → heap.finalized x = false
  after : ∀ x ∈ ran, heap'.finalized x

theorem Turns.rounds (h : heap.WellFormed) {ran : List ℕ}
    (hturns : Turns heap heap.heapAllocated heap' ran) : Rounds heap heap' ran := by
  have hnodup := h.nodup
  simp only [elements, List.nodup_append] at hnodup
  constructor
  · exact hturns.toGrown
  · exact hturns.sublist.nodup hnodup.1
  · intro x hx
    exact hturns.heapAllocated.subset (hturns.sublist.subset hx)
  · exact fun x hx _ => hturns.before x hx
  · exact hturns.after

theorem Rounds.trans {ran ran' : List ℕ} (hfirst : Rounds heap heap' ran)
    (hrest : Rounds heap' heap'' ran') (h : heap.WellFormed) :
    (∀ x ∈ ran, x ∉ ran') ∧ Rounds heap heap'' (ran ++ ran') := by
  have hdisjoint : ∀ x ∈ ran, x ∉ ran' := by
    intro x hx hx'
    have hflag := hfirst.after x hx
    simp [hrest.before x hx' (hfirst.mem x hx)] at hflag
  have hlt : ∀ x ∈ ran, x < heap'.next := by
    intro x hx
    exact hfirst.wellFormed.heapAllocated_lt x (hfirst.mem x hx)
  refine ⟨hdisjoint, ⟨⟨hfirst.toExtends.trans hrest.toExtends, hrest.wellFormed⟩, ?_, ?_, ?_, ?_⟩⟩
  · rw [List.nodup_append]
    refine ⟨hfirst.nodup, hrest.nodup, ?_⟩
    intro x hx y hy heq
    exact hdisjoint x hx (heq ▸ hy)
  · intro x hx
    rcases List.mem_append.mp hx with hx | hx
    · exact hrest.heapAllocated.subset (hfirst.mem x hx)
    · exact hrest.mem x hx
  · intro x hx hmem
    rcases List.mem_append.mp hx with hx | hx
    · exact hfirst.before x hx hmem
    · have hlater := hrest.before x hx (hfirst.heapAllocated.subset hmem)
      exact hfirst.not_finalized (h.heapAllocated_lt x hmem) hlater
  · intro x hx
    rcases List.mem_append.mp hx with hx | hx
    · exact hrest.finalized x (hlt x hx) (hfirst.after x hx)
    · exact hrest.after x hx

def NoneAwaits (heap : DukHeap) : Prop :=
  ∀ x ∈ heap.heapAllocated, heap.awaitsFinalizer x = false

theorem finalizeRounds_of_end {ran : List ℕ} {limit : ℕ}
    (hround : heap.finalizeRound script = (heap', ran))
    (hend : ran.length = 0 ∨ limit ≤ ran.length) (fuel : ℕ) :
    heap.finalizeRounds script (fuel + 1) limit = some (heap', ran) := by
  have hcond : (ran.length = 0 || limit ≤ ran.length) = true := by simpa using hend
  simp only [finalizeRounds, hround, hcond, if_true]

theorem finalizeRounds_of_more {ran later : List ℕ} {limit fuel : ℕ}
    (hround : heap.finalizeRound script = (heap', ran))
    (hmore : ¬(ran.length = 0 ∨ limit ≤ ran.length))
    (hlater : heap'.finalizeRounds script fuel (limit * 3 / 4) = some (heap'', later)) :
    heap.finalizeRounds script (fuel + 1) limit = some (heap'', ran ++ later) := by
  have hcond : ¬(ran.length = 0 || limit ≤ ran.length) = true := by simpa using hmore
  simp only [finalizeRounds, hround, if_neg hcond, hlater, Option.map_some]

theorem exists_finalizeRounds (h : heap.WellFormed) {fuel limit : ℕ} (hfuel : limit < fuel) :
    ∃ final ran, heap.finalizeRounds script fuel limit = some (final, ran) ∧
      Rounds heap final ran ∧ (final.NoneAwaits ∨ ran ≠ []) := by
  induction fuel generalizing heap limit with
  | zero => omega
  | succ fuel ih =>
      rcases h.exists_finalizeRound with ⟨heap', ran, hround, hturns⟩
      have hrounds := hturns.rounds h
      by_cases hend : ran.length = 0 ∨ limit ≤ ran.length
      · refine ⟨heap', ran, finalizeRounds_of_end hround hend fuel, hrounds, ?_⟩
        by_cases hnil : ran = []
        · left
          rcases hturns.idle hnil with ⟨heq, hnone⟩
          rw [heq]
          exact hnone
        · exact .inr hnil
      · have hshrinks : limit * 3 / 4 < fuel := by omega
        rcases ih hturns.wellFormed hshrinks with ⟨final, later, hlater, hrest, -⟩
        refine ⟨final, ran ++ later, finalizeRounds_of_more hround hend hlater,
          (hrounds.trans hrest h).2, .inr ?_⟩
        intro hnil
        have hempty := (List.append_eq_nil_iff.mp hnil).1
        simp [hempty] at hend

/-- Whatever the finalizers store, their rounds end.  No finalizer is run twice, no
element is lost, and either no object is left whose finalizer has not been run, or
a finalizer was run in a later round, for an object that got it from another one. -/
theorem finalizers_run_once (script : FinalizerScript) (heap : DukHeap)
    (h : heap.WellFormed) :
    ∃ final ran,
      heap.freeRunFinalizers script (heap.heapAllocated.length * 2 + 1) = some (final, ran) ∧
        Rounds heap final ran ∧
          (final.NoneAwaits ∨ ∃ x ∈ ran, x ∉ (heap.finalizeRound script).2) := by
  rcases h.exists_finalizeRound with ⟨heap', ran, hround, hturns⟩
  have hrounds := hturns.rounds h
  unfold freeRunFinalizers
  rw [hround]
  by_cases hnil : ran = []
  · refine ⟨heap', ran, finalizeRounds_of_end hround (.inl (by simp [hnil])) _, hrounds, .inl ?_⟩
    rcases hturns.idle hnil with ⟨heq, hnone⟩
    rw [heq]
    exact hnone
  · -- the first limit is twice the number of elements, so it is not reached
    have hpos : ran.length ≠ 0 := by simpa using hnil
    have hle := hturns.sublist.length_le
    have hmore : ¬(ran.length = 0 ∨ heap.heapAllocated.length * 2 ≤ ran.length) := by omega
    have hshrinks : heap.heapAllocated.length * 2 * 3 / 4 < heap.heapAllocated.length * 2 := by
      omega
    rcases exists_finalizeRounds hturns.wellFormed hshrinks with
      ⟨final, later, hlater, hrest, hdone⟩
    rcases hrounds.trans hrest h with ⟨hdisjoint, htrans⟩
    refine ⟨final, ran ++ later, finalizeRounds_of_more hround hmore hlater, htrans, ?_⟩
    rcases hdone with hnone | hlater
    · exact .inl hnone
    · right
      rcases List.exists_mem_of_ne_nil later hlater with ⟨x, hx⟩
      refine ⟨x, List.mem_append_right ran hx, ?_⟩
      intro hfirst
      exact hdisjoint x hfirst hx

/-- The finalizer of one object makes another one that has a finalizer. -/
def breeding : FinalizerScript := fun _ x =>
  if x = 2 then [.allocate (.object ⟨[1], true, none, []⟩) 0] else []

theorem finalizers_run_once_breeding :
    ∃ final, smallHeap.freeRunFinalizers breeding 7 = some (final, [2, 4]) ∧
      Rounds smallHeap final [2, 4] := by
  have hlog : (smallHeap.freeRunFinalizers breeding 7).map Prod.snd = some [2, 4] := by decide
  rcases finalizers_run_once breeding smallHeap wellFormed_smallHeap with
    ⟨final, ran, heq, hrounds, -⟩
  have hran : ran = [2, 4] := by
    have hsome : smallHeap.freeRunFinalizers breeding 7 = some (final, ran) := heq
    simpa [hsome] using hlog
  rw [hran] at heq hrounds
  exact ⟨final, heq, hrounds⟩

end DukHeap

end NekoScript
