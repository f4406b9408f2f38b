import NekoScript.MarkAndSweep
import NekoScript.GuardedRuns
import Mathlib.Tactic

/-!
# Runs of the collector

Scripts allocate and store, reference counts bring objects to `refzero_list` and
free them, collections move objects to `finalize_list`, and finalizers are run in
between.  As long as no collection leaves an object of `finalize_list` aside, an
allocated element is on one list of the heap, and nothing refers to freed memory.
-/

namespace NekoScript

open DepthLimitedMarking GuardedRuns

/-- The flags DUK_MS_FLAG_NO_FINALIZERS and DUK_MS_FLAG_SKIP_FINALIZERS. -/
inductive GcFinalizers where
  | run
  | skip
  | no
  deriving DecidableEq, Repr

inductive CollectorAction where
  | allocate (header : HeapHdr) (holder : ℕ)
  | write (x : ℕ) (h : HeapObject)
  | setRoots (roots : List ℕ)
  | refzero (x : ℕ)
  | freeUnreferenced (x : ℕ)
  | finalizeRefzero (thread : ℕ)
  | processRefzero
  | collect (finalizers : GcFinalizers)
  | finalizePending (thread : ℕ)
  | requeue
  | finish

namespace DukHeap

variable (heap : DukHeap)

def allocated (xs : List ℕ) : Bool := xs.all fun x => (heap.headers x).isSome

/-- The reference count is not zero. -/
def referenced (x : ℕ) : Bool :=
  heap.roots.contains x || heap.elements.any fun y => (heap.refs y).contains x

def setHeader (x : ℕ) (header : HeapHdr) : DukHeap :=
  { heap with headers := Function.update heap.headers x (some header) }

/-- The object, which may be a thread, refers to `x` as well. -/
def hold (holder x : ℕ) : Option DukHeap :=
  match heap.headers holder with
  | some (.object h) =>
      some (heap.setHeader holder (.object { h with internal := x :: h.internal }))
  | _ => none

/-- A new header has no flags. -/
def allocate (header : HeapHdr) : DukHeap :=
  let fresh := { heap.setHeader heap.next header with
    next := heap.next + 1
    marks := { heap.marks with deferred := Function.update heap.marks.deferred heap.next false }
    finalized := Function.update heap.finalized heap.next false }
  match header with
  | .string => { fresh with stringTable := heap.next :: heap.stringTable }
  | _ => { fresh with heapAllocated := heap.next :: heap.heapAllocated }

def free (x : ℕ) : DukHeap := { heap with headers := Function.update heap.headers x none }

/-- `duk_hobject_run_finalizer` sets FINALIZED and pushes the object. -/
def runFinalizer (thread x : ℕ) : Option DukHeap :=
  ({ heap with finalized := Function.update heap.finalized x true } : DukHeap).hold thread x

/-- `duk_heap_mark_and_sweep`.  `duk__run_object_finalizers` puts the objects back at
the head of `heap_allocated`, one after another. -/
def heapMarkAndSweep (fuel : ℕ) (finalizers : GcFinalizers) : Option DukHeap := do
  let swept ← heap.collectGarbage fuel
  match finalizers with
  | .run => return { swept with running := true }
  | .skip => return { swept with
      heapAllocated := swept.finalizeList.reverse ++ swept.heapAllocated
      finalizeList := [] }
  | .no => return swept

end DukHeap

/-- A script stores what is allocated.  The counts of references are exact, so
that they drop to zero for what nothing refers to.  While finalizers are run, no
count is looked at, and none of them calls `Duktape.gc`. -/
def collectorStep (heap : DukHeap) : CollectorAction → Option DukHeap
  | .allocate header holder =>
      if heap.allocated header.refs then (heap.allocate header).hold holder heap.next else none
  | .write x h =>
      if heap.isObject x && heap.allocated h.refs then some (heap.setHeader x (.object h))
      else none
  | .setRoots roots => if heap.allocated roots then some { heap with roots := roots } else none
  | .refzero x =>
      if !heap.running && heap.heapAllocated.contains x && heap.isObject x &&
          !heap.referenced x then
        some { heap with
          heapAllocated := heap.heapAllocated.erase x
          refzeroList := heap.refzeroList ++ [x] }
      else none
  | .freeUnreferenced x =>
      -- strings and buffers refer to nothing, and are freed at once
      if !heap.running && !heap.isObject x && !heap.referenced x &&
          (heap.heapAllocated.contains x || heap.stringTable.contains x) then
        some { heap.free x with
          heapAllocated := heap.heapAllocated.erase x
          stringTable := heap.stringTable.erase x }
      else none
  | .finalizeRefzero thread =>
      match heap.refzeroList with
      | x :: _ =>
          if !heap.running && heap.hasFinalizerRaw x && !heap.finalized x then
            heap.runFinalizer thread x
          else none
      | [] => none
  | .processRefzero =>
      match heap.refzeroList with
      | x :: rest =>
          if heap.running || (heap.hasFinalizerRaw x && !heap.finalized x) then none
          else if heap.referenced x then
            -- only a finalizer can have stored the object
            if heap.finalized x then
              some { heap with
                heapAllocated := x :: heap.heapAllocated
                refzeroList := rest
                finalized := Function.update heap.finalized x false }
            else none
          else some { heap.free x with refzeroList := rest }
      | [] => none
  | .collect finalizers =>
      if heap.running then none else heap.heapMarkAndSweep heap.fuel finalizers
  | .finalizePending thread =>
      match heap.finalizeList with
      | x :: _ =>
          if heap.running && !heap.finalized x then heap.runFinalizer thread x else none
      | [] => none
  | .requeue =>
      match heap.finalizeList with
      | x :: rest =>
          if heap.running && heap.finalized x then
            some { heap with
              heapAllocated := x :: heap.heapAllocated
              finalizeList := rest }
          else none
      | [] => none
  | .finish =>
      if heap.running && heap.finalizeList.isEmpty then some { heap with running := false }
      else none

/-- No collection leaves an object of `finalize_list` aside. -/
def settlesPending (heap : DukHeap) : CollectorAction → Bool
  | .collect _ => heap.pendingSettled
  | _ => true

def SettlesPending (heap : DukHeap) (action : CollectorAction) : Prop :=
  settlesPending heap action = true

instance (heap : DukHeap) (action : CollectorAction) :
    Decidable (SettlesPending heap action) :=
  inferInstanceAs (Decidable (settlesPending heap action = true))

namespace DukHeap

variable {heap heap' : DukHeap}

/-! ## Steps that keep a heap well formed -/

theorem WellFormed.mem_of_allocated (h : heap.WellFormed) {xs : List ℕ}
    (hxs : heap.allocated xs) {x : ℕ} (hx : x ∈ xs) : x ∈ heap.elements := by
  rw [← h.mem_elements x]
  exact List.all_eq_true.mp hxs x hx

/-- The elements are on other lists; strings are where they were. -/
theorem WellFormed.rearrange (h : heap.WellFormed) (hheaders : heap'.headers = heap.headers)
    (hnext : heap'.next = heap.next) (hroots : heap'.roots = heap.roots)
    (hstrings : heap'.stringTable = heap.stringTable) (hmarks : heap'.marks = heap.marks)
    (hflags : heap'.finalizable = heap.finalizable)
    (hperm : heap'.elements.Perm heap.elements) : heap'.WellFormed := by
  have hrefs : heap'.refs = heap.refs := by
    funext x
    simp [refs, hheaders]
  constructor
  · exact hperm.nodup_iff.mpr h.nodup
  · intro x
    rw [hheaders, h.mem_elements x, hperm.mem_iff]
  · intro x hx
    rw [hnext]
    exact h.below x (hperm.mem_iff.mp hx)
  · rw [hstrings, hheaders]
    exact h.strings
  · intro x y hy
    rw [hrefs] at hy
    exact hperm.mem_iff.mpr (h.closed x y hy)
  · intro x hx
    rw [hroots] at hx
    exact hperm.mem_iff.mpr (h.roots x hx)
  · rw [hmarks]
    exact h.reached
  · intro x hx hstring
    rw [hstrings] at hstring
    rw [hmarks]
    exact h.deferred x (hperm.mem_iff.mp hx) hstring
  · rw [hflags]
    exact h.finalizable

theorem WellFormed.setRoots (h : heap.WellFormed) {roots : List ℕ}
    (hroots : heap.allocated roots) : ({ heap with roots := roots } : DukHeap).WellFormed :=
  { h with roots := fun _ hx => h.mem_of_allocated hroots hx }

theorem WellFormed.setHeader (h : heap.WellFormed) {x : ℕ} (hx : heap.isObject x)
    {object : HeapObject} (hrefs : ∀ y ∈ object.refs, y ∈ heap.elements) :
    (heap.setHeader x (.object object)).WellFormed := by
  have hmem : x ∈ heap.elements := by
    rw [← h.mem_elements x]
    unfold isObject at hx
    split at hx
    next hsome => simp [hsome]
    next => contradiction
  constructor
  · exact h.nodup
  · intro y
    change (Function.update heap.headers x _ y).isSome ↔ y ∈ heap.elements
    rcases eq_or_ne y x with rfl | hne
    · simpa using hmem
    · simpa [hne] using h.mem_elements y
  · exact h.below
  · intro y hy
    have hne : y ≠ x := by
      intro heq
      subst heq
      simp [isObject, h.strings _ hy] at hx
    simpa [DukHeap.setHeader, hne] using h.strings y hy
  · intro y z hz
    rcases eq_or_ne y x with rfl | hne
    · have hz' : z ∈ object.refs := by simpa [refs, DukHeap.setHeader, HeapHdr.refs] using hz
      exact hrefs z hz'
    · have hz' : z ∈ heap.refs y := by simpa [refs, DukHeap.setHeader, hne] using hz
      exact h.closed y z hz'
  · exact h.roots
  · exact h.reached
  · exact h.deferred
  · exact h.finalizable

theorem WellFormed.hold (h : heap.WellFormed) {holder x : ℕ} (hx : x ∈ heap.elements)
    (heq : heap.hold holder x = some heap') : heap'.WellFormed := by
  unfold DukHeap.hold at heq
  split at heq
  next object hheader =>
    rw [Option.some.injEq] at heq
    rw [← heq]
    apply h.setHeader
    · simp [isObject, hheader]
    · intro y hy
      have hrefs : heap.refs holder = object.refs := by simp [refs, hheader, HeapHdr.refs]
      simp only [HeapObject.refs, List.mem_append, List.mem_cons] at hy
      rcases hy with hy | hy | rfl | hy
      · exact h.closed holder y (by simp [hrefs, HeapObject.refs, hy])
      · exact h.closed holder y (by simp [hrefs, HeapObject.refs, hy])
      · exact hx
      · exact h.closed holder y (by simp [hrefs, HeapObject.refs, hy])
  next => contradiction

theorem WellFormed.runFinalizer (h : heap.WellFormed) {thread x : ℕ} (hx : x ∈ heap.elements)
    (heq : heap.runFinalizer thread x = some heap') : heap'.WellFormed := by
  have hflag : ({ heap with
      finalized := Function.update heap.finalized x true } : DukHeap).WellFormed :=
    h.rearrange rfl rfl rfl rfl rfl rfl (List.Perm.refl _)
  exact hflag.hold hx heq

theorem elements_allocate (header : HeapHdr) :
    (heap.allocate header).elements.Perm (heap.next :: heap.elements) := by
  cases header with
  | string =>
      rw [List.perm_iff_count]
      intro y
      simp only [DukHeap.allocate, DukHeap.setHeader, elements, List.count_append,
        List.count_cons]
      omega
  | buffer => exact List.Perm.refl _
  | object h => exact List.Perm.refl _

@[simp] theorem allocate_headers (header : HeapHdr) :
    (heap.allocate header).headers =
      Function.update heap.headers heap.next (some header) := by
  cases header <;> rfl

@[simp] theorem allocate_next (header : HeapHdr) :
    (heap.allocate header).next = heap.next + 1 := by
  cases header <;> rfl

@[simp] theorem allocate_roots (header : HeapHdr) :
    (heap.allocate header).roots = heap.roots := by
  cases header <;> rfl

@[simp] theorem allocate_marks (header : HeapHdr) :
    (heap.allocate header).marks = { heap.marks with
      deferred := Function.update heap.marks.deferred heap.next false } := by
  cases header <;> rfl

@[simp] theorem allocate_finalizable (header : HeapHdr) :
    (heap.allocate header).finalizable = heap.finalizable := by
  cases header <;> rfl

theorem mem_stringTable_allocate (header : HeapHdr) (x : ℕ) :
    x ∈ (heap.allocate header).stringTable ↔
      x = heap.next ∧ header = .string ∨ x ∈ heap.stringTable := by
  cases header <;> simp [DukHeap.allocate, DukHeap.setHeader]

theorem WellFormed.allocate (h : heap.WellFormed) {header : HeapHdr}
    (hrefs : ∀ y ∈ header.refs, y ∈ heap.elements) : (heap.allocate header).WellFormed := by
  have hperm : (heap.allocate header).elements.Perm (heap.next :: heap.elements) :=
    elements_allocate header
  have hmem : ∀ x, x ∈ (heap.allocate header).elements ↔ x = heap.next ∨ x ∈ heap.elements := by
    intro x
    rw [hperm.mem_iff, List.mem_cons]
  have hfresh : heap.next ∉ heap.elements := by
    intro hx
    have hlt := h.below heap.next hx
    omega
  constructor
  · rw [hperm.nodup_iff, List.nodup_cons]
    exact ⟨hfresh, h.nodup⟩
  · intro x
    rw [hmem x, allocate_headers]
    rcases eq_or_ne x heap.next with rfl | hne
    · simp
    · simpa [hne] using h.mem_elements x
  · intro x hx
    rw [allocate_next]
    rcases (hmem x).mp hx with rfl | hx
    · omega
    · have hlt := h.below x hx
      omega
  · intro x hx
    rw [allocate_headers]
    rcases (mem_stringTable_allocate header x).mp hx with ⟨rfl, rfl⟩ | hx
    · simp
    · have hne : x ≠ heap.next := by
        intro heq
        subst heq
        exact hfresh (by simp [elements, hx])
      simpa [hne] using h.strings x hx
  · intro x y hy
    rw [hmem y]
    right
    rcases eq_or_ne x heap.next with rfl | hne
    · exact hrefs y (by simpa [refs] using hy)
    · exact h.closed x y (by simpa [refs, hne] using hy)
  · intro x hx
    rw [allocate_roots] at hx
    exact (hmem x).mpr (.inr (h.roots x hx))
  · intro x
    rw [allocate_marks]
    exact h.reached x
  · intro x hx hstring
    rw [allocate_marks]
    rcases eq_or_ne x heap.next with rfl | hne
    · simp
    · have hx' : x ∈ heap.elements := by
        rcases (hmem x).mp hx with heq | hx
        · contradiction
        · exact hx
      have hstring' : x ∉ heap.stringTable := by
        intro hmem
        exact hstring ((mem_stringTable_allocate header x).mpr (.inr hmem))
      simpa [hne] using h.deferred x hx' hstring'
  · rw [allocate_finalizable]
    exact h.finalizable

theorem referenced_eq_false {x : ℕ} (hx : heap.referenced x = false) :
    x ∉ heap.roots ∧ ∀ y ∈ heap.elements, x ∉ heap.refs y := by
  simpa [referenced] using hx

/-- Nothing refers to `x`, which is on no list any more. -/
theorem WellFormed.free (h : heap.WellFormed) {x : ℕ} (hx : heap.referenced x = false)
    (hheaders : heap'.headers = Function.update heap.headers x none)
    (hnext : heap'.next = heap.next) (hroots : heap'.roots = heap.roots)
    (hmarks : heap'.marks = heap.marks) (hflags : heap'.finalizable = heap.finalizable)
    (hstrings : ∀ y, y ∈ heap'.stringTable ↔ y ≠ x ∧ y ∈ heap.stringTable)
    (hperm : heap.elements.Perm (x :: heap'.elements)) : heap'.WellFormed := by
  have hnodup := h.nodup
  rw [hperm.nodup_iff, List.nodup_cons] at hnodup
  have hmem : ∀ y, y ∈ heap'.elements ↔ y ≠ x ∧ y ∈ heap.elements := by
    intro y
    rw [hperm.mem_iff, List.mem_cons]
    constructor
    · intro hy
      refine ⟨?_, .inr hy⟩
      intro heq
      subst heq
      exact hnodup.1 hy
    · intro hy
      rcases hy with ⟨hne, heq | hy⟩
      · contradiction
      · exact hy
  rcases referenced_eq_false hx with ⟨hroot, hnone⟩
  constructor
  · exact hnodup.2
  · intro y
    rw [hmem y, hheaders]
    rcases eq_or_ne y x with rfl | hne
    · simp
    · simpa [hne] using h.mem_elements y
  · intro y hy
    rw [hnext]
    exact h.below y ((hmem y).mp hy).2
  · intro y hy
    rcases (hstrings y).mp hy with ⟨hne, hy⟩
    rw [hheaders]
    simpa [hne] using h.strings y hy
  · intro y z hz
    rcases eq_or_ne y x with rfl | hne
    · simp [refs, hheaders] at hz
    · have hz' : z ∈ heap.refs y := by simpa [refs, hheaders, hne] using hz
      rw [hmem z]
      refine ⟨?_, h.closed y z hz'⟩
      intro heq
      subst heq
      have hy : y ∈ heap.elements := by
        rw [← h.mem_elements y]
        unfold refs at hz'
        split at hz'
        next hsome => simp [hsome]
        next => simp at hz'
      exact hnone y hy hz'
  · intro y hy
    rw [hroots] at hy
    rw [hmem y]
    refine ⟨?_, h.roots y hy⟩
    intro heq
    subst heq
    exact hroot hy
  · rw [hmarks]
    exact h.reached
  · intro y hy hstring
    rcases (hmem y).mp hy with ⟨hne, hy⟩
    rw [hmarks]
    apply h.deferred y hy
    intro hmem
    exact hstring ((hstrings y).mpr ⟨hne, hmem⟩)
  · rw [hflags]
    exact h.finalizable

theorem WellFormed.freeRefzero (h : heap.WellFormed) {x : ℕ} {rest : List ℕ}
    (hlist : heap.refzeroList = x :: rest) (hx : heap.referenced x = false) :
    ({ heap.free x with refzeroList := rest } : DukHeap).WellFormed := by
  have hstring : x ∉ heap.stringTable := by
    intro hmem
    have hlists := h.nodup_lists hmem
    simp [hlist] at hlists
  refine h.free hx rfl rfl rfl rfl rfl ?_ ?_
  · intro y
    change y ∈ heap.stringTable ↔ y ≠ x ∧ y ∈ heap.stringTable
    constructor
    · intro hy
      refine ⟨?_, hy⟩
      intro heq
      subst heq
      exact hstring hy
    · exact fun hy => hy.2
  · rw [List.perm_iff_count]
    intro y
    simp only [elements, DukHeap.free, hlist, List.count_append, List.count_cons]
    omega

theorem WellFormed.freeUnreferenced (h : heap.WellFormed) {x : ℕ}
    (hx : heap.referenced x = false) (hmem : x ∈ heap.heapAllocated ∨ x ∈ heap.stringTable) :
    ({ heap.free x with
      heapAllocated := heap.heapAllocated.erase x
      stringTable := heap.stringTable.erase x } : DukHeap).WellFormed := by
  have hnodup := h.nodup
  simp only [elements, List.nodup_append] at hnodup
  refine h.free hx rfl rfl rfl rfl rfl ?_ ?_
  · intro y
    exact hnodup.2.1.2.1.2.1.mem_erase_iff
  · have hcounts : ∀ y, heap.heapAllocated.count y + heap.stringTable.count y =
        (heap.heapAllocated.erase x).count y + (heap.stringTable.erase x).count y +
          (if x == y then 1 else 0) := by
      intro y
      by_cases hallocated : x ∈ heap.heapAllocated
      · have hstring : x ∉ heap.stringTable := by
          intro hstring
          exact (h.nodup_lists hstring).1 hallocated
        have herase := (List.perm_iff_count.mp (List.perm_cons_erase hallocated)) y
        rw [List.erase_of_not_mem hstring, herase, List.count_cons]
        omega
      · have hstring := hmem.resolve_left hallocated
        have herase := (List.perm_iff_count.mp (List.perm_cons_erase hstring)) y
        rw [List.erase_of_not_mem hallocated, herase, List.count_cons]
        omega
    rw [List.perm_iff_count]
    intro y
    have hcount := hcounts y
    simp only [elements, DukHeap.free, List.count_append, List.count_cons] at hcount ⊢
    omega

theorem WellFormed.heapMarkAndSweep (h : heap.WellFormed) (hsettled : heap.pendingSettled)
    {finalizers : GcFinalizers}
    (heq : heap.heapMarkAndSweep heap.fuel finalizers = some heap') : heap'.WellFormed := by
  rcases h.exists_collected hsettled with ⟨swept, hcollect, -, hswept⟩
  unfold DukHeap.heapMarkAndSweep at heq
  rw [hcollect] at heq
  cases finalizers with
  | run =>
      rw [← Option.some.inj heq]
      exact hswept.rearrange rfl rfl rfl rfl rfl rfl (List.Perm.refl _)
  | skip =>
      rw [← Option.some.inj heq]
      refine hswept.rearrange rfl rfl rfl rfl rfl rfl ?_
      rw [List.perm_iff_count]
      intro y
      simp only [elements, List.count_append, List.count_reverse, List.count_nil]
      omega
  | no =>
      rw [← Option.some.inj heq]
      exact hswept

end DukHeap

open DukHeap

theorem wellFormed_of_collectorStep {heap heap' : DukHeap} {action : CollectorAction}
    (h : heap.WellFormed) (hguard : SettlesPending heap action)
    (hstep : collectorStep heap action = some heap') : heap'.WellFormed := by
  cases action with
  | allocate header holder =>
      simp only [collectorStep] at hstep
      split at hstep
      next hrefs =>
        have hwell := h.allocate (fun y hy => h.mem_of_allocated hrefs hy)
        apply hwell.hold ?_ hstep
        rw [(elements_allocate header).mem_iff]
        exact List.mem_cons_self
      next => contradiction
  | write x object =>
      simp only [collectorStep] at hstep
      split at hstep
      next hcond =>
        rw [Bool.and_eq_true] at hcond
        rw [← Option.some.inj hstep]
        exact h.setHeader hcond.1 fun y hy => h.mem_of_allocated hcond.2 hy
      next => contradiction
  | setRoots roots =>
      simp only [collectorStep] at hstep
      split at hstep
      next hroots =>
        rw [← Option.some.inj hstep]
        exact h.setRoots hroots
      next => contradiction
  | refzero x =>
      simp only [collectorStep] at hstep
      split at hstep
      next hcond =>
        simp only [Bool.and_eq_true, List.contains_iff_mem] at hcond
        rw [← Option.some.inj hstep]
        refine h.rearrange rfl rfl rfl rfl rfl rfl ?_
        have herase := List.perm_cons_erase hcond.1.1.2
        rw [List.perm_iff_count] at herase ⊢
        intro y
        have hcount := herase y
        simp only [elements, List.count_append, List.count_cons, List.count_nil] at hcount ⊢
        omega
      next => contradiction
  | freeUnreferenced x =>
      simp only [collectorStep] at hstep
      split at hstep
      next hcond =>
        simp only [Bool.and_eq_true, Bool.not_eq_true', Bool.or_eq_true,
          List.contains_iff_mem] at hcond
        rw [← Option.some.inj hstep]
        exact h.freeUnreferenced hcond.1.2 hcond.2
      next => contradiction
  | finalizeRefzero thread =>
      simp only [collectorStep] at hstep
      split at hstep
      next x rest hlist =>
        split at hstep
        next => exact h.runFinalizer (by simp [elements, hlist]) hstep
        next => contradiction
      next => contradiction
  | processRefzero =>
      simp only [collectorStep] at hstep
      split at hstep
      next x rest hlist =>
        split at hstep
        next => contradiction
        next =>
          split at hstep
          next hreferenced =>
            split at hstep
            next =>
              rw [← Option.some.inj hstep]
              refine h.rearrange rfl rfl rfl rfl rfl rfl ?_
              rw [List.perm_iff_count]
              intro y
              simp only [elements, hlist, List.count_append, List.count_cons]
              omega
            next => contradiction
          next hreferenced =>
            rw [← Option.some.inj hstep]
            exact h.freeRefzero hlist (by simpa using hreferenced)
      next => contradiction
  | collect finalizers =>
      simp only [collectorStep] at hstep
      split at hstep
      next => contradiction
      next => exact h.heapMarkAndSweep hguard hstep
  | finalizePending thread =>
      simp only [collectorStep] at hstep
      split at hstep
      next x rest hlist =>
        split at hstep
        next => exact h.runFinalizer (by simp [elements, hlist]) hstep
        next => contradiction
      next => contradiction
  | requeue =>
      simp only [collectorStep] at hstep
      split at hstep
      next x rest hlist =>
        split at hstep
        next =>
          rw [← Option.some.inj hstep]
          refine h.rearrange rfl rfl rfl rfl rfl rfl ?_
          rw [List.perm_iff_count]
          intro y
          simp only [elements, hlist, List.count_append, List.count_cons]
          omega
        next => contradiction
      next => contradiction
  | finish =>
      simp only [collectorStep] at hstep
      split at hstep
      next =>
        rw [← Option.some.inj hstep]
        exact h.rearrange rfl rfl rfl rfl rfl rfl (List.Perm.refl _)
      next => contradiction

/-- In every run in which no collection leaves an object of `finalize_list` aside,
every allocated element is on one list of the heap, and nothing refers to freed
memory. -/
theorem wellFormed_of_guardedRun {heap final : DukHeap} {actions : List CollectorAction}
    (h : heap.WellFormed)
    (hrun : GuardedRun collectorStep SettlesPending heap actions final) : final.WellFormed := by
  apply hrun.invariant DukHeap.WellFormed ?_ h
  intro state action next hinv hguard hstep
  exact wellFormed_of_collectorStep hinv hguard hstep

/-- The finalizer of the unreachable object is put off, and run by the next
collection; a third one frees the object. -/
def putOff : List CollectorAction :=
  [.allocate (.object ⟨[1], false, some 0, []⟩) 0, .collect .no, .collect .run,
    .finalizePending 0, .requeue, .finish, .write 0 ⟨[1], false, none, []⟩, .collect .run]

theorem wellFormed_of_putOff :
    ∃ final, GuardedRun collectorStep SettlesPending smallHeap putOff final ∧
      final.WellFormed ∧ final.headers 2 = none := by
  have hrun : (checkedRun collectorStep SettlesPending smallHeap putOff).any
      (fun final => (final.headers 2).isNone) := by decide
  rcases Option.any_eq_true_iff_get _ _ |>.mp hrun with ⟨hsome, hnone⟩
  have hguarded := GuardedRun.of_checkedRun (Option.some_get hsome).symm
  exact ⟨_, hguarded, wellFormed_of_guardedRun wellFormed_smallHeap hguarded,
    Option.isNone_iff_eq_none.mp hnone⟩

/-! ## Runs in which finalizers are not put off -/

def runsFinalizers : CollectorAction → Bool
  | .collect finalizers => finalizers ≠ .no
  | _ => true

def RunsFinalizers (_ : DukHeap) (action : CollectorAction) : Prop :=
  runsFinalizers action = true

instance (heap : DukHeap) (action : CollectorAction) :
    Decidable (RunsFinalizers heap action) :=
  inferInstanceAs (Decidable (runsFinalizers action = true))

/-- Between collections no object waits for its finalizer. -/
structure NonePending (heap : DukHeap) : Prop where
  wellFormed : heap.WellFormed
  idle : heap.running = false → heap.finalizeList = []

theorem pendingSettled_of_nil {heap : DukHeap} (h : heap.WellFormed)
    (hnil : heap.finalizeList = []) : heap.pendingSettled := by
  rcases h.exists_markPhases with ⟨m, m', hphases, -⟩
  simp [pendingSettled, hphases, hnil]

theorem hold_lists {heap heap' : DukHeap} {holder x : ℕ}
    (heq : heap.hold holder x = some heap') :
    heap'.finalizeList = heap.finalizeList ∧ heap'.running = heap.running := by
  unfold hold at heq
  split at heq
  next =>
    rw [← Option.some.inj heq]
    exact ⟨rfl, rfl⟩
  next => contradiction

theorem settlesPending_of_nonePending {heap heap' : DukHeap} {action : CollectorAction}
    (h : NonePending heap) (hstep : collectorStep heap action = some heap') :
    SettlesPending heap action := by
  cases action with
  | collect finalizers =>
      simp only [collectorStep] at hstep
      split at hstep
      next => contradiction
      next hidle => exact pendingSettled_of_nil h.wellFormed (h.idle (by simpa using hidle))
  | _ => rfl

theorem idle_of_heapMarkAndSweep {heap heap' : DukHeap} {finalizers : GcFinalizers} {fuel : ℕ}
    (hmode : finalizers ≠ .no) (heq : heap.heapMarkAndSweep fuel finalizers = some heap') :
    heap'.running = false → heap'.finalizeList = [] := by
  unfold heapMarkAndSweep at heq
  rcases Option.bind_eq_some_iff.mp heq with ⟨swept, -, hswept⟩
  cases finalizers with
  | run =>
      rw [← Option.some.inj hswept]
      simp
  | skip =>
      rw [← Option.some.inj hswept]
      simp
  | no => contradiction

theorem idle_of_collectorStep {heap heap' : DukHeap} {action : CollectorAction}
    (h : NonePending heap) (hguard : RunsFinalizers heap action)
    (hstep : collectorStep heap action = some heap') :
    heap'.running = false → heap'.finalizeList = [] := by
  cases action with
  | allocate header holder =>
      simp only [collectorStep] at hstep
      split at hstep
      next =>
        rcases hold_lists hstep with ⟨hlist, hrunning⟩
        rw [hlist, hrunning]
        cases header <;> exact h.idle
      next => contradiction
  | collect finalizers =>
      simp only [collectorStep] at hstep
      split at hstep
      next => contradiction
      next =>
        have hmode : finalizers ≠ .no := of_decide_eq_true hguard
        exact idle_of_heapMarkAndSweep hmode hstep
  | write x object =>
      simp only [collectorStep] at hstep
      split at hstep
      next =>
        rw [← Option.some.inj hstep]
        exact h.idle
      next => contradiction
  | setRoots roots =>
      simp only [collectorStep] at hstep
      split at hstep
      next =>
        rw [← Option.some.inj hstep]
        exact h.idle
      next => contradiction
  | refzero x =>
      simp only [collectorStep] at hstep
      split at hstep
      next =>
        rw [← Option.some.inj hstep]
        exact h.idle
      next => contradiction
  | freeUnreferenced x =>
      simp only [collectorStep] at hstep
      split at hstep
      next =>
        rw [← Option.some.inj hstep]
        exact h.idle
      next => contradiction
  | finalizeRefzero thread =>
      simp only [collectorStep] at hstep
      split at hstep
      next =>
        split at hstep
        next =>
          rcases hold_lists hstep with ⟨hlist, hrunning⟩
          rw [hlist, hrunning]
          exact h.idle
        next => contradiction
      next => contradiction
  | processRefzero =>
      simp only [collectorStep] at hstep
      split at hstep
      next =>
        split at hstep
        next => contradiction
        next =>
          split at hstep
          next =>
            split at hstep
            next =>
              rw [← Option.some.inj hstep]
              exact h.idle
            next => contradiction
          next =>
            rw [← Option.some.inj hstep]
            exact h.idle
      next => contradiction
  | finalizePending thread =>
      simp only [collectorStep] at hstep
      split at hstep
      next =>
        split at hstep
        next =>
          rcases hold_lists hstep with ⟨hlist, hrunning⟩
          rw [hlist, hrunning]
          exact h.idle
        next => contradiction
      next => contradiction
  | requeue =>
      simp only [collectorStep] at hstep
      split at hstep
      next =>
        split at hstep
        next hcond =>
          rw [← Option.some.inj hstep]
          intro hidle
          have hrunning : heap.running = false := hidle
          simp [hrunning] at hcond
        next => contradiction
      next => contradiction
  | finish =>
      simp only [collectorStep] at hstep
      split at hstep
      next hcond =>
        rw [Bool.and_eq_true, List.isEmpty_iff] at hcond
        rw [← Option.some.inj hstep]
        exact fun _ => hcond.2
      next => contradiction

/-- In every run in which collections do not put finalizers off, every state is
well formed, and every collection finds `finalize_list` empty. -/
theorem nonePending_of_guardedRun {heap final : DukHeap} {actions : List CollectorAction}
    (h : NonePending heap)
    (hrun : GuardedRun collectorStep RunsFinalizers heap actions final) :
    NonePending final := by
  apply hrun.invariant NonePending ?_ h
  intro state action next hinv hguard hstep
  constructor
  · have hsettles := settlesPending_of_nonePending hinv hstep
    exact wellFormed_of_collectorStep hinv.wellFormed hsettles hstep
  · exact idle_of_collectorStep hinv hguard hstep

/-- The unreachable object is stored by its finalizer. -/
def rescued : List CollectorAction :=
  [.collect .run, .finalizePending 0, .write 0 ⟨[1, 2], false, none, []⟩, .requeue, .finish,
    .collect .run]

theorem nonePending_of_rescued :
    ∃ final, GuardedRun collectorStep RunsFinalizers smallHeap rescued final ∧
      NonePending final ∧ final.finalized 2 = false ∧ final.heapAllocated = [2, 0] := by
  have hrun : (checkedRun collectorStep RunsFinalizers smallHeap rescued).any
      (fun final => !final.finalized 2 && final.heapAllocated == [2, 0]) := by decide
  rcases Option.any_eq_true_iff_get _ _ |>.mp hrun with ⟨hsome, hfinal⟩
  rw [Bool.and_eq_true, Bool.not_eq_true', beq_iff_eq] at hfinal
  have hguarded := GuardedRun.of_checkedRun (Option.some_get hsome).symm
  exact ⟨_, hguarded, nonePending_of_guardedRun ⟨wellFormed_smallHeap, fun _ => rfl⟩ hguarded,
    hfinal.1, hfinal.2⟩

end NekoScript
