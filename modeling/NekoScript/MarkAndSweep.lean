import NekoScript.DepthLimitedMarking
import NekoScript.JSClass
import Mathlib.Tactic

/-!
# The engine's mark-and-sweep collector

`duk_heap_mark_and_sweep` marks what is reachable, moves unreachable objects with
a finalizer aside, and frees the rest.  Recursion is limited; what lies deeper is
set aside and found again by scans of `heap_allocated` and `refzero_list`, but not
of `finalize_list`.  Unless an object of that list has been set aside, a collection
frees what nothing that is kept refers to, and nothing else.
-/

namespace NekoScript

open DepthLimitedMarking

/-- `own` are the keys and values of an object, `internal` is what its kind refers
to besides: the data, constants and functions of compiled code, the buffer of a
buffer object, the stacks of a thread. -/
structure HeapObject where
  own : List ℕ
  finalizer : Bool
  prototype : Option ℕ
  internal : List ℕ

inductive HeapHdr where
  | string
  | buffer
  | object (h : HeapObject)

/-- In the order of `duk__mark_hobject`. -/
def HeapObject.refs (h : HeapObject) : List ℕ := h.own ++ (h.prototype.toList ++ h.internal)

def HeapHdr.refs : HeapHdr → List ℕ
  | .string => []
  | .buffer => []
  | .object h => h.refs

/-- `marks` are the flags REACHABLE and TEMPROOT, and whether the recursion limit
was reached; `roots` is what `duk__mark_roots_heap` marks. -/
@[ext] structure DukHeap where
  headers : ℕ → Option HeapHdr
  next : ℕ
  heapAllocated : List ℕ
  refzeroList : List ℕ
  finalizeList : List ℕ
  stringTable : List ℕ
  roots : List ℕ
  marks : Marking ℕ
  finalizable : ℕ → Bool
  finalized : ℕ → Bool
  running : Bool

/-- `DUK_USE_MARK_AND_SWEEP_RECLIMIT` -/
def markReclimit : ℕ := 256

namespace DukHeap

variable (heap : DukHeap)

def refs (x : ℕ) : List ℕ :=
  match heap.headers x with
  | some header => header.refs
  | none => []

def isObject (x : ℕ) : Bool :=
  match heap.headers x with
  | some (.object _) => true
  | _ => false

def prototypes : PrototypeChain.Heap Unit Unit := fun x =>
  match heap.headers x with
  | some (.object h) => some ⟨h.prototype, fun _ => if h.finalizer then some () else none⟩
  | _ => none

/-- `duk_hobject_hasprop_raw` of the finalizer. -/
def hasFinalizerRaw (x : ℕ) : Bool :=
  match heap.prototypes.lookup () prototypeChainSanity x with
  | .found _ _ => true
  | _ => false

/-! ## Marking -/

/-- `duk__mark_heaphdr` -/
def markHeaphdr (m : Marking ℕ) (x : ℕ) : Marking ℕ := mark heap.refs markReclimit m x

/-- `duk__mark_roots_heap` -/
def markRootsHeap (m : Marking ℕ) : Marking ℕ := heap.roots.foldl heap.markHeaphdr m

/-- `duk__mark_refzero_list` -/
def markRefzeroList (m : Marking ℕ) : Marking ℕ := heap.refzeroList.foldl heap.markHeaphdr m

/-- `duk__mark_finalize_list` -/
def markFinalizeList (m : Marking ℕ) : Marking ℕ := heap.finalizeList.foldl heap.markHeaphdr m

def scannedElements : List ℕ := heap.heapAllocated ++ heap.refzeroList

/-- `duk__mark_temproots_by_heap_scan` -/
def markTemprootsByHeapScan (fuel : ℕ) (m : Marking ℕ) : Option (Marking ℕ) :=
  rescan heap.refs markReclimit heap.scannedElements fuel m

def isFinalizable (x : ℕ) : Bool :=
  !heap.marks.reached x && (heap.isObject x && (!heap.finalized x && heap.hasFinalizerRaw x))

/-- `duk__mark_finalizable` -/
def markFinalizable : DukHeap :=
  let found := heap.heapAllocated.filter heap.isFinalizable
  if found.isEmpty then heap
  else
    let flagged := { heap with finalizable := fun x => heap.finalizable x || found.contains x }
    { flagged with
      marks := (flagged.heapAllocated.filter flagged.finalizable).foldl flagged.markHeaphdr
        flagged.marks }

def markPhases (fuel : ℕ) : Option DukHeap := do
  let m ← heap.markTemprootsByHeapScan fuel (heap.markRefzeroList (heap.markRootsHeap heap.marks))
  let found := { heap with marks := m }.markFinalizable
  let m ← found.markTemprootsByHeapScan fuel (found.markFinalizeList found.marks)
  return { found with marks := m }

/-! ## Sweeping -/

def clearReachable (x : ℕ) : DukHeap :=
  { heap with marks := { heap.marks with reached := Function.update heap.marks.reached x false } }

/-- One turn of the loop of `duk__sweep_heap`. -/
def sweepElement (curr : ℕ) : DukHeap :=
  if heap.marks.reached curr then
    let kept :=
      if heap.finalizable curr then { heap with finalizeList := curr :: heap.finalizeList }
      else { heap with heapAllocated := heap.heapAllocated ++ [curr] }
    { kept.clearReachable curr with
      finalized := Function.update heap.finalized curr false
      finalizable := Function.update heap.finalizable curr false }
  else { heap with headers := Function.update heap.headers curr none }

/-- `duk__sweep_heap` -/
def sweepHeap : DukHeap :=
  heap.heapAllocated.foldl sweepElement { heap with heapAllocated := [] }

def sweepString (h : ℕ) : DukHeap :=
  if heap.marks.reached h then
    { heap.clearReachable h with stringTable := heap.stringTable ++ [h] }
  else { heap with headers := Function.update heap.headers h none }

/-- `duk__sweep_stringtable_probe` -/
def sweepStringtable : DukHeap :=
  heap.stringTable.foldl sweepString { heap with stringTable := [] }

/-- `duk__clear_refzero_list_flags` -/
def clearRefzeroListFlags : DukHeap := heap.refzeroList.foldl clearReachable heap

/-- `duk__clear_finalize_list_flags` -/
def clearFinalizeListFlags : DukHeap := heap.finalizeList.foldl clearReachable heap

/-- `duk_heap_mark_and_sweep`, before the finalizers are run. -/
def collectGarbage (fuel : ℕ) : Option DukHeap := do
  let marked ← heap.markPhases fuel
  return marked.sweepHeap.sweepStringtable.clearRefzeroListFlags.clearFinalizeListFlags

/-! ## What a collection is for -/

/-- The headers that are allocated. -/
def elements : List ℕ :=
  heap.heapAllocated ++ (heap.refzeroList ++ (heap.finalizeList ++ heap.stringTable))

def Reachable (x : ℕ) : Prop :=
  ∃ root ∈ heap.roots ++ heap.refzeroList, Reaches heap.refs root x

/-- An object that is unreachable and has a finalizer that has not been run. -/
def Doomed (x : ℕ) : Prop :=
  x ∈ heap.heapAllocated ∧ heap.isObject x ∧ heap.finalized x = false ∧
    heap.hasFinalizerRaw x ∧ ¬heap.Reachable x

/-- Finalizers must find what their objects refer to. -/
def Retained (x : ℕ) : Prop :=
  heap.Reachable x ∨
    ∃ object, (heap.Doomed object ∨ object ∈ heap.finalizeList) ∧ Reaches heap.refs object x

/-- What holds between collections. -/
structure WellFormed : Prop where
  nodup : heap.elements.Nodup
  mem_elements : ∀ x, (heap.headers x).isSome ↔ x ∈ heap.elements
  below : ∀ x ∈ heap.elements, x < heap.next
  strings : ∀ x ∈ heap.stringTable, heap.headers x = some .string
  closed : ∀ x, ∀ y ∈ heap.refs x, y ∈ heap.elements
  roots : ∀ x ∈ heap.roots, x ∈ heap.elements
  reached : ∀ x, heap.marks.reached x = false
  deferred : ∀ x ∈ heap.elements, x ∉ heap.stringTable → heap.marks.deferred x = false
  finalizable : ∀ x, heap.finalizable x = false

/-- The heap when a collection has freed what is not retained. -/
structure CollectedTo (heap' : DukHeap) : Prop where
  headers_of_retained : ∀ x, heap.Retained x → heap'.headers x = heap.headers x
  headers_of_not_retained : ∀ x, ¬heap.Retained x → heap'.headers x = none
  heapAllocated : ∀ x, x ∈ heap'.heapAllocated ↔
    x ∈ heap.heapAllocated ∧ heap.Retained x ∧ ¬heap.Doomed x
  finalizeList : ∀ x, x ∈ heap'.finalizeList ↔ heap.Doomed x ∨ x ∈ heap.finalizeList
  refzeroList : heap'.refzeroList = heap.refzeroList
  stringTable : ∀ x, x ∈ heap'.stringTable ↔ x ∈ heap.stringTable ∧ heap.Retained x
  roots : heap'.roots = heap.roots
  finalized : ∀ x, heap'.finalized x ↔
    heap.finalized x ∧ ¬(x ∈ heap.heapAllocated ∧ heap.Retained x)

def fuel : ℕ := heap.scannedElements.length + 1

/-- No object of `finalize_list` has been set aside when the marking is over. -/
def pendingSettled : Bool :=
  match heap.markPhases heap.fuel with
  | some marked => heap.finalizeList.all fun x => !marked.marks.deferred x
  | none => false

/-! ## The marking -/

variable {heap}

theorem WellFormed.nodup_lists (h : heap.WellFormed) {x : ℕ} (hx : x ∈ heap.stringTable) :
    x ∉ heap.heapAllocated ∧ x ∉ heap.refzeroList ∧ x ∉ heap.finalizeList := by
  have hnodup := h.nodup
  simp only [elements, List.nodup_append, List.mem_append] at hnodup
  grind

theorem WellFormed.deferred_scanned (h : heap.WellFormed) {x : ℕ}
    (hx : x ∈ heap.scannedElements) : heap.marks.deferred x = false := by
  apply h.deferred x
  · simp only [scannedElements, elements, List.mem_append] at hx ⊢
    tauto
  · intro hstring
    have hlists := h.nodup_lists hstring
    simp only [scannedElements, List.mem_append] at hx
    tauto

theorem WellFormed.mem_of_reaches (h : heap.WellFormed) {x y : ℕ} (hx : x ∈ heap.elements)
    (hxy : Reaches heap.refs x y) : y ∈ heap.elements := by
  induction hxy with
  | refl => exact hx
  | tail _ hstep _ => exact h.closed _ _ hstep

theorem WellFormed.mem_of_reachable (h : heap.WellFormed) {x : ℕ} (hx : heap.Reachable x) :
    x ∈ heap.elements := by
  rcases hx with ⟨root, hroot, hreaches⟩
  apply h.mem_of_reaches ?_ hreaches
  rcases List.mem_append.mp hroot with hroot | hroot
  · exact h.roots root hroot
  · simp [elements, hroot]

theorem WellFormed.mem_of_retained (h : heap.WellFormed) {x : ℕ} (hx : heap.Retained x) :
    x ∈ heap.elements := by
  rcases hx with hx | ⟨object, hobject, hreaches⟩
  · exact h.mem_of_reachable hx
  · apply h.mem_of_reaches ?_ hreaches
    rcases hobject with hdoomed | hpending
    · simp [elements, hdoomed.1]
    · simp [elements, hpending]

theorem reachable_of_mem {x y : ℕ} (hx : heap.Reachable x) (hy : y ∈ heap.refs x) :
    heap.Reachable y := by
  rcases hx with ⟨root, hroot, hreaches⟩
  exact ⟨root, hroot, hreaches.tail hy⟩

theorem retained_of_mem {x y : ℕ} (hx : heap.Retained x) (hy : y ∈ heap.refs x) :
    heap.Retained y := by
  rcases hx with hx | ⟨object, hobject, hreaches⟩
  · exact .inl (reachable_of_mem hx hy)
  · exact .inr ⟨object, hobject, hreaches.tail hy⟩

theorem reachable_of_refzero {x : ℕ} (hx : x ∈ heap.refzeroList) : heap.Reachable x :=
  ⟨x, List.mem_append_right _ hx, .refl⟩

theorem Doomed.retained {x : ℕ} (hx : heap.Doomed x) : heap.Retained x :=
  .inr ⟨x, .inl hx, .refl⟩

theorem retained_of_pending {x : ℕ} (hx : x ∈ heap.finalizeList) : heap.Retained x :=
  .inr ⟨x, .inr hx, .refl⟩

/-- The objects that are found when this has been marked. -/
def found (heap : DukHeap) (m : Marking ℕ) : List ℕ :=
  heap.heapAllocated.filter ({ heap with marks := m } : DukHeap).isFinalizable

def MarkedFrom (heap : DukHeap) (m : Marking ℕ) (x : ℕ) : Prop :=
  heap.Reachable x ∨
    ∃ object ∈ heap.found m ++ heap.finalizeList, Reaches heap.refs object x

theorem markFinalizable_eq (hflags : ∀ x, heap.finalizable x = false) (m : Marking ℕ) :
    ({ heap with marks := m } : DukHeap).markFinalizable =
      { heap with
        finalizable := fun x => (heap.found m).contains x
        marks := (heap.found m).foldl heap.markHeaphdr m } := by
  have hnone : heap.finalizable = fun _ => false := funext hflags
  have hfound : (fun x => heap.finalizable x || (heap.found m).contains x) =
      fun x => (heap.found m).contains x := by
    simp [hflags]
  unfold markFinalizable
  change (if (heap.found m).isEmpty then _ else _) = _
  split
  next hempty =>
    rw [List.isEmpty_iff] at hempty
    ext <;> simp [hempty, hnone]
  next =>
    have hfilter : heap.heapAllocated.filter (fun x => (heap.found m).contains x) =
        heap.found m := by
      apply List.filter_congr
      intro x hx
      simp [found, hx]
    change ({ heap with
      finalizable := fun x => heap.finalizable x || (heap.found m).contains x
      marks := (heap.heapAllocated.filter fun x =>
        heap.finalizable x || (heap.found m).contains x).foldl heap.markHeaphdr m } : DukHeap) = _
    rw [hfound, hfilter]

/-- The marking after the first scans, and after the last. -/
structure Marked (heap : DukHeap) (m m' : Marking ℕ) : Prop where
  first : Completed heap.refs heap.Reachable heap.scannedElements
    (heap.roots ++ heap.refzeroList) heap.marks m
  last : Completed heap.refs (heap.MarkedFrom m) heap.scannedElements
    (heap.found m ++ heap.finalizeList) m m'

theorem WellFormed.exists_markPhases (h : heap.WellFormed) :
    ∃ m m', heap.markPhases heap.fuel =
        some { heap with finalizable := fun x => (heap.found m).contains x, marks := m' } ∧
      heap.Marked m m' := by
  have hstart : Tricolour heap.refs heap.Reachable heap.scannedElements heap.marks := by
    constructor
    · intro x hx
      simp [h.reached x] at hx
    · intro x hx
      simp [h.reached x] at hx
    · intro x hx hdeferred
      simp [h.deferred_scanned hx] at hdeferred
  have hroots : ∀ x ∈ heap.roots ++ heap.refzeroList, heap.Reachable x := by
    intro x hx
    exact ⟨x, hx, .refl⟩
  rcases exists_completed (fun _ _ => reachable_of_mem) hroots hstart
    (fun x hx => h.deferred_scanned hx) with ⟨m, hm, hfirst⟩
  have hsecond : Tricolour heap.refs (heap.MarkedFrom m) heap.scannedElements m := by
    constructor
    · intro x hx
      exact .inl (hfirst.tricolour.sound x hx)
    · exact hfirst.tricolour.closed
    · exact hfirst.tricolour.reached
  have hsources : ∀ x ∈ heap.found m ++ heap.finalizeList, heap.MarkedFrom m x := by
    intro x hx
    exact .inr ⟨x, hx, .refl⟩
  have hstep : ∀ x y, heap.MarkedFrom m x → y ∈ heap.refs x → heap.MarkedFrom m y := by
    intro x y hx hy
    rcases hx with hx | ⟨object, hobject, hreaches⟩
    · exact .inl (reachable_of_mem hx hy)
    · exact .inr ⟨object, hobject, hreaches.tail hy⟩
  rcases exists_completed hstep hsources hsecond hfirst.deferred with ⟨m', hm', hlast⟩
  refine ⟨m, m', ?_, hfirst, hlast⟩
  rw [List.foldl_append] at hm hm'
  have hfirstScan : heap.markTemprootsByHeapScan heap.fuel
      (heap.markRefzeroList (heap.markRootsHeap heap.marks)) = some m := hm
  unfold markPhases
  rw [hfirstScan]
  simp only [Option.bind_eq_bind, Option.bind_some, markFinalizable_eq h.finalizable m]
  have hlastScan : ({ heap with
        finalizable := fun x => (heap.found m).contains x
        marks := (heap.found m).foldl heap.markHeaphdr m } : DukHeap).markTemprootsByHeapScan
      heap.fuel (({ heap with
        finalizable := fun x => (heap.found m).contains x
        marks := (heap.found m).foldl heap.markHeaphdr m } : DukHeap).markFinalizeList
          ((heap.found m).foldl heap.markHeaphdr m)) = some m' := hm'
  rw [hlastScan]
  rfl

theorem WellFormed.refs_of_deferred (h : heap.WellFormed) {m : Marking ℕ}
    (hscanned : ∀ x ∈ heap.scannedElements, m.deferred x = false)
    (hpending : ∀ x ∈ heap.finalizeList, x ∉ heap.scannedElements → m.deferred x = false)
    {x : ℕ} (hx : x ∈ heap.elements) (hdeferred : m.deferred x) : heap.refs x = [] := by
  by_cases hmem : x ∈ heap.scannedElements
  · simp [hscanned x hmem] at hdeferred
  · by_cases hlist : x ∈ heap.finalizeList
    · simp [hpending x hlist hmem] at hdeferred
    · have hstring : x ∈ heap.stringTable := by
        simp only [scannedElements, elements, List.mem_append] at hx hmem
        tauto
      simp [refs, h.strings x hstring, HeapHdr.refs]

section Marked

variable {m m' : Marking ℕ} (h : heap.WellFormed) (hm : heap.Marked m m')
  (hpending : ∀ x ∈ heap.finalizeList, m'.deferred x = false)

include h hm hpending

theorem Marked.first_reached_iff (x : ℕ) : m.reached x ↔ heap.Reachable x := by
  constructor
  · exact hm.first.tricolour.sound x
  · intro hx
    rcases hx with ⟨root, hroot, hreaches⟩
    apply hm.first.tricolour.reached_of_reaches ?_ (hm.first.sources root hroot) hreaches
    intro y hy hdeferred
    have hnot : ∀ z ∈ heap.finalizeList, z ∉ heap.scannedElements → m.deferred z = false := by
      intro z hz hscanned
      cases hnow : m.deferred z with
      | false => rfl
      | true =>
          have hlater := hm.last.kept z hscanned hnow
          simp [hpending z hz] at hlater
    have hmem := h.mem_of_reachable (hm.first.tricolour.sound y hy)
    simp [h.refs_of_deferred hm.first.deferred hnot hmem hdeferred]

theorem Marked.mem_found_iff (x : ℕ) : x ∈ heap.found m ↔ heap.Doomed x := by
  have hreached := hm.first_reached_iff h hpending x
  have hflags : ({ heap with marks := m } : DukHeap).isFinalizable x =
      (!m.reached x && (heap.isObject x && (!heap.finalized x && heap.hasFinalizerRaw x))) := rfl
  simp only [found, List.mem_filter, hflags, Doomed, ← hreached]
  simp only [Bool.and_eq_true, Bool.not_eq_true', Bool.not_eq_true]
  tauto

theorem Marked.retained_of_reached {x : ℕ} (hx : m'.reached x) : heap.Retained x := by
  rcases hm.last.tricolour.sound x hx with hreachable | ⟨object, hobject, hreaches⟩
  · exact .inl hreachable
  · right
    refine ⟨object, ?_, hreaches⟩
    rcases List.mem_append.mp hobject with hobject | hobject
    · exact .inl ((hm.mem_found_iff h hpending object).mp hobject)
    · exact .inr hobject

theorem Marked.reached_iff (x : ℕ) : m'.reached x ↔ heap.Retained x := by
  constructor
  · exact hm.retained_of_reached h hpending
  · intro hx
    have haside : ∀ y, m'.reached y → m'.deferred y → ∀ z ∈ heap.refs y, m'.reached z := by
      intro y hy hdeferred
      have hmem := h.mem_of_retained (hm.retained_of_reached h hpending hy)
      simp [h.refs_of_deferred hm.last.deferred (fun z hz _ => hpending z hz) hmem hdeferred]
    rcases hx with hx | ⟨object, hobject, hreaches⟩
    · exact hm.last.reached x ((hm.first_reached_iff h hpending x).mpr hx)
    · have hsource : object ∈ heap.found m ++ heap.finalizeList := by
        rcases hobject with hobject | hobject
        · exact List.mem_append_left _ ((hm.mem_found_iff h hpending object).mpr hobject)
        · exact List.mem_append_right _ hobject
      exact hm.last.tricolour.reached_of_reaches haside (hm.last.sources object hsource) hreaches

end Marked

/-! ## The sweep -/

/-- What sweeping these elements does. -/
def sweptElements (heap : DukHeap) (xs : List ℕ) : DukHeap :=
  { heap with
    headers := fun x => if x ∈ xs ∧ heap.marks.reached x = false then none else heap.headers x
    heapAllocated := heap.heapAllocated ++
      xs.filter fun x => heap.marks.reached x && !heap.finalizable x
    finalizeList := (xs.filter fun x => heap.marks.reached x && heap.finalizable x).reverse ++
      heap.finalizeList
    marks := { heap.marks with
      reached := fun x => heap.marks.reached x && !xs.contains x }
    finalized := fun x => heap.finalized x && !(xs.contains x && heap.marks.reached x)
    finalizable := fun x => heap.finalizable x && !(xs.contains x && heap.marks.reached x) }

theorem sweepElement_of_reached {x : ℕ} (hreached : heap.marks.reached x) :
    heap.sweepElement x =
      { heap.clearReachable x with
        heapAllocated := heap.heapAllocated ++ if heap.finalizable x then [] else [x]
        finalizeList := (if heap.finalizable x then [x] else []) ++ heap.finalizeList
        finalized := Function.update heap.finalized x false
        finalizable := Function.update heap.finalizable x false } := by
  cases hflag : heap.finalizable x <;>
    simp [sweepElement, clearReachable, hreached, hflag]

theorem foldl_sweepElement {xs : List ℕ} (hnodup : xs.Nodup) :
    xs.foldl sweepElement heap = heap.sweptElements xs := by
  induction xs generalizing heap with
  | nil => simp [sweptElements]
  | cons x xs ih =>
      rw [List.nodup_cons] at hnodup
      have hother : ∀ y ∈ xs, y ≠ x := by
        intro y hy heq
        subst heq
        exact hnodup.1 hy
      rw [List.foldl_cons, ih hnodup.2]
      cases hreached : heap.marks.reached x with
      | false =>
          have heq : heap.sweepElement x =
              { heap with headers := Function.update heap.headers x none } := by
            simp [sweepElement, hreached]
          rw [heq]
          ext1
          · funext y
            rcases eq_or_ne y x with rfl | hy <;> simp [sweptElements, *]
          · rfl
          · simp [sweptElements, hreached]
          · rfl
          · simp [sweptElements, hreached]
          · rfl
          · rfl
          · simp only [sweptElements, Marking.mk.injEq, and_true]
            funext y
            rcases eq_or_ne y x with rfl | hy <;> simp [*]
          · funext y
            rcases eq_or_ne y x with rfl | hy <;> simp [sweptElements, *]
          · funext y
            rcases eq_or_ne y x with rfl | hy <;> simp [sweptElements, *]
          · rfl
      | true =>
          -- the flags of the elements that are still to be swept are as they were
          have hkept : xs.filter (fun y => Function.update heap.marks.reached x false y &&
                !Function.update heap.finalizable x false y) =
              xs.filter fun y => heap.marks.reached y && !heap.finalizable y := by
            apply List.filter_congr
            intro y hy
            simp [hother y hy]
          have hqueued : xs.filter (fun y => Function.update heap.marks.reached x false y &&
                Function.update heap.finalizable x false y) =
              xs.filter fun y => heap.marks.reached y && heap.finalizable y := by
            apply List.filter_congr
            intro y hy
            simp [hother y hy]
          rw [sweepElement_of_reached hreached]
          ext1
          · funext y
            rcases eq_or_ne y x with rfl | hy <;> simp [sweptElements, clearReachable, *]
          · rfl
          · cases hflag : heap.finalizable x <;> simp [sweptElements, clearReachable, *]
          · rfl
          · cases hflag : heap.finalizable x <;> simp [sweptElements, clearReachable, *]
          · rfl
          · rfl
          · simp only [sweptElements, clearReachable, Marking.mk.injEq, and_true]
            funext y
            rcases eq_or_ne y x with rfl | hy <;> simp [*]
          · funext y
            rcases eq_or_ne y x with rfl | hy <;> simp [sweptElements, clearReachable, *]
          · funext y
            rcases eq_or_ne y x with rfl | hy <;> simp [sweptElements, clearReachable, *]
          · rfl

/-- What sweeping these strings does. -/
def sweptStrings (heap : DukHeap) (xs : List ℕ) : DukHeap :=
  { heap with
    headers := fun x => if x ∈ xs ∧ heap.marks.reached x = false then none else heap.headers x
    stringTable := heap.stringTable ++ xs.filter heap.marks.reached
    marks := { heap.marks with reached := fun x => heap.marks.reached x && !xs.contains x } }

theorem foldl_sweepString {xs : List ℕ} (hnodup : xs.Nodup) :
    xs.foldl sweepString heap = heap.sweptStrings xs := by
  induction xs generalizing heap with
  | nil => simp [sweptStrings]
  | cons x xs ih =>
      rw [List.nodup_cons] at hnodup
      rw [List.foldl_cons, ih hnodup.2]
      cases hreached : heap.marks.reached x with
      | false =>
          have heq : heap.sweepString x =
              { heap with headers := Function.update heap.headers x none } := by
            simp [sweepString, hreached]
          rw [heq]
          ext1
          · funext y
            rcases eq_or_ne y x with rfl | hy <;> simp [sweptStrings, *]
          · rfl
          · rfl
          · rfl
          · rfl
          · simp [sweptStrings, hreached]
          · rfl
          · simp only [sweptStrings, Marking.mk.injEq, and_true]
            funext y
            rcases eq_or_ne y x with rfl | hy <;> simp [*]
          · rfl
          · rfl
          · rfl
      | true =>
          have hkept : xs.filter (Function.update heap.marks.reached x false) =
              xs.filter heap.marks.reached := by
            apply List.filter_congr
            intro y hy
            have hne : y ≠ x := by
              intro heq
              subst heq
              exact hnodup.1 hy
            simp [hne]
          have heq : heap.sweepString x =
              { heap.clearReachable x with stringTable := heap.stringTable ++ [x] } := by
            simp [sweepString, hreached]
          rw [heq]
          ext1
          · funext y
            rcases eq_or_ne y x with rfl | hy <;> simp [sweptStrings, clearReachable, *]
          · rfl
          · rfl
          · rfl
          · rfl
          · simp [sweptStrings, clearReachable, *]
          · rfl
          · simp only [sweptStrings, clearReachable, Marking.mk.injEq, and_true]
            funext y
            rcases eq_or_ne y x with rfl | hy <;> simp [*]
          · rfl
          · rfl
          · rfl

theorem foldl_clearReachable (xs : List ℕ) :
    xs.foldl clearReachable heap =
      { heap with
        marks := { heap.marks with
          reached := fun x => heap.marks.reached x && !xs.contains x } } := by
  induction xs generalizing heap with
  | nil => simp
  | cons x xs ih =>
      rw [List.foldl_cons, ih]
      simp only [clearReachable, DukHeap.mk.injEq, Marking.mk.injEq, and_true, true_and]
      funext y
      rcases eq_or_ne y x with rfl | hy <;> simp [*]

/-- The heap that is left when `m` and `m'` are the markings. -/
def collected (heap : DukHeap) (m m' : Marking ℕ) : DukHeap :=
  let queued :=
    (heap.heapAllocated.filter fun x => m'.reached x && (heap.found m).contains x).reverse ++
      heap.finalizeList
  { heap with
    headers := fun x =>
      if x ∈ heap.stringTable ∧ (m'.reached x && !heap.heapAllocated.contains x) = false then
        none
      else if x ∈ heap.heapAllocated ∧ m'.reached x = false then none
      else heap.headers x
    heapAllocated :=
      heap.heapAllocated.filter fun x => m'.reached x && !(heap.found m).contains x
    finalizeList := queued
    stringTable :=
      heap.stringTable.filter fun x => m'.reached x && !heap.heapAllocated.contains x
    marks := { m' with
      reached := fun x => (((m'.reached x && !heap.heapAllocated.contains x) &&
        !heap.stringTable.contains x) && !heap.refzeroList.contains x) && !queued.contains x }
    finalized := fun x => heap.finalized x && !(heap.heapAllocated.contains x && m'.reached x)
    finalizable := fun x =>
      (heap.found m).contains x && !(heap.heapAllocated.contains x && m'.reached x) }

theorem WellFormed.exists_collectGarbage (h : heap.WellFormed) :
    ∃ m m', heap.markPhases heap.fuel =
        some { heap with finalizable := fun x => (heap.found m).contains x, marks := m' } ∧
      heap.Marked m m' ∧ heap.collectGarbage heap.fuel = some (heap.collected m m') := by
  rcases h.exists_markPhases with ⟨m, m', hphases, hm⟩
  refine ⟨m, m', hphases, hm, ?_⟩
  have hnodup := h.nodup
  simp only [elements, List.nodup_append] at hnodup
  unfold collectGarbage
  rw [hphases]
  simp only [Option.bind_eq_bind, Option.bind_some, sweepHeap, foldl_sweepElement hnodup.1,
    sweepStringtable, sweptElements, foldl_sweepString hnodup.2.1.2.1.2.1, sweptStrings,
    clearRefzeroListFlags, foldl_clearReachable, clearFinalizeListFlags, List.nil_append]
  rfl

section Collected

variable {m m' : Marking ℕ} (h : heap.WellFormed) (hm : heap.Marked m m')
  (hpending : ∀ x ∈ heap.finalizeList, m'.deferred x = false)

include h hm hpending

theorem Marked.collectedTo : heap.CollectedTo (heap.collected m m') := by
  have hreached := hm.reached_iff h hpending
  have hfound := hm.mem_found_iff h hpending
  have hnot : ∀ x, ¬heap.Retained x → m'.reached x = false := by
    intro x hx
    rw [← hreached x] at hx
    simpa using hx
  constructor
  · intro x hx
    have hmark := (hreached x).mpr hx
    by_cases hstring : x ∈ heap.stringTable
    · have hlists := h.nodup_lists hstring
      simp [collected, hmark, hlists.1]
    · simp [collected, hmark, hstring]
  · intro x hx
    have hmark := hnot x hx
    by_cases hmem : x ∈ heap.elements
    · have hrefzero : x ∉ heap.refzeroList := by
        intro hlist
        exact hx (.inl (reachable_of_refzero hlist))
      have hlist : x ∉ heap.finalizeList := by
        intro hlist
        exact hx (retained_of_pending hlist)
      simp only [elements, List.mem_append, hrefzero, hlist, false_or] at hmem
      rcases hmem with hmem | hmem
      · simp [collected, hmark, hmem]
      · simp [collected, hmark, hmem]
    · have hnone : heap.headers x = none := by
        rw [← h.mem_elements x] at hmem
        simpa using hmem
      simp [collected, hnone]
  · intro x
    simp only [collected, List.mem_filter, Bool.and_eq_true, hreached, Bool.not_eq_true',
      List.contains_iff_mem, hfound, ← Bool.not_eq_true]
  · intro x
    simp only [collected, List.mem_append, List.mem_reverse, List.mem_filter, Bool.and_eq_true,
      hreached, List.contains_iff_mem, hfound]
    constructor
    · intro hx
      rcases hx with ⟨-, -, hx⟩ | hx
      · exact .inl hx
      · exact .inr hx
    · intro hx
      rcases hx with hx | hx
      · exact .inl ⟨hx.1, hx.retained, hx⟩
      · exact .inr hx
  · rfl
  · intro x
    simp only [collected, List.mem_filter, Bool.and_eq_true, hreached]
    constructor
    · intro hx
      exact ⟨hx.1, hx.2.1⟩
    · intro hx
      have hlists := h.nodup_lists hx.1
      exact ⟨hx.1, hx.2, by simp [hlists.1]⟩
  · rfl
  · intro x
    simp only [collected, Bool.and_eq_true, Bool.not_eq_true', ← Bool.not_eq_true, hreached,
      List.contains_iff_mem]

end Collected

/-- What a collection leaves is what was retained. -/
theorem CollectedTo.mem_elements_iff {heap' : DukHeap} (h : heap.WellFormed)
    (hcollected : heap.CollectedTo heap') (x : ℕ) :
    x ∈ heap'.elements ↔ heap.Retained x := by
  simp only [elements, List.mem_append, hcollected.heapAllocated, hcollected.finalizeList,
    hcollected.refzeroList, hcollected.stringTable]
  constructor
  · intro hx
    rcases hx with hx | hx | (hx | hx) | hx
    · exact hx.2.1
    · exact .inl (reachable_of_refzero hx)
    · exact hx.retained
    · exact retained_of_pending hx
    · exact hx.2
  · intro hx
    have hmem := h.mem_of_retained hx
    simp only [elements, List.mem_append] at hmem
    tauto

theorem CollectedTo.refs_eq {heap' : DukHeap} (hcollected : heap.CollectedTo heap') {x : ℕ}
    (hx : heap.Retained x) : heap'.refs x = heap.refs x := by
  simp [refs, hcollected.headers_of_retained x hx]

theorem Marked.wellFormed {m m' : Marking ℕ} (h : heap.WellFormed) (hm : heap.Marked m m')
    (hpending : ∀ x ∈ heap.finalizeList, m'.deferred x = false) :
    (heap.collected m m').WellFormed := by
  have hreached := hm.reached_iff h hpending
  have hfound := hm.mem_found_iff h hpending
  have hcollected := hm.collectedTo h hpending
  have hmem := hcollected.mem_elements_iff h
  have hretained : ∀ x, x ∈ (heap.collected m m').elements → x ∈ heap.elements := by
    intro x hx
    exact h.mem_of_retained ((hmem x).mp hx)
  constructor
  · have hnodup := h.nodup
    simp only [elements, List.nodup_append, List.mem_append] at hnodup
    rcases hnodup with ⟨hallocated, ⟨hrefzero, ⟨hpendingList, hstrings, hlast⟩, hmiddle⟩, hfirst⟩
    simp only [elements, collected, List.nodup_append, List.nodup_reverse, List.mem_append,
      List.mem_reverse, List.mem_filter, Bool.and_eq_true, Bool.not_eq_true',
      List.contains_iff_mem]
    constructor
    · exact hallocated.filter _
    constructor
    · constructor
      · exact hrefzero
      constructor
      · constructor
        · constructor
          · exact hallocated.filter _
          constructor
          · exact hpendingList
          · grind
        constructor
        · exact hstrings.filter _
        · grind
      · grind
    · grind
  · intro x
    rw [hmem x]
    by_cases hx : heap.Retained x
    · rw [hcollected.headers_of_retained x hx, h.mem_elements x]
      simp [hx, h.mem_of_retained hx]
    · simp [hx, hcollected.headers_of_not_retained x hx]
  · intro x hx
    exact h.below x (hretained x hx)
  · intro x hx
    have hstring := (hcollected.stringTable x).mp hx
    rw [hcollected.headers_of_retained x hstring.2]
    exact h.strings x hstring.1
  · intro x y hy
    by_cases hx : heap.Retained x
    · rw [hcollected.refs_eq hx] at hy
      exact (hmem y).mpr (retained_of_mem hx hy)
    · simp [refs, hcollected.headers_of_not_retained x hx] at hy
  · intro x hx
    exact (hmem x).mpr (.inl ⟨x, List.mem_append_left _ hx, .refl⟩)
  · intro x
    cases hmark : m'.reached x with
    | false => simp [collected, hmark]
    | true =>
        have hlists := h.mem_of_retained ((hreached x).mp hmark)
        simp only [elements, List.mem_append] at hlists
        rcases hlists with hx | hx | hx | hx <;> simp [collected, hx]
  · intro x hx hstring
    have hlists := hx
    simp only [elements, List.mem_append, hcollected.heapAllocated, hcollected.finalizeList,
      hcollected.refzeroList, hstring, or_false] at hlists
    have hscanned : x ∈ heap.heapAllocated ∨ x ∈ heap.refzeroList → m'.deferred x = false := by
      intro hlist
      exact hm.last.deferred x (List.mem_append.mpr hlist)
    rcases hlists with hx | hx | hx | hx
    · exact hscanned (.inl hx.1)
    · exact hscanned (.inr hx)
    · exact hscanned (.inl hx.1)
    · exact hpending x hx
  · intro x
    by_cases hx : heap.Doomed x
    · have hmark := (hreached x).mpr hx.retained
      simp [collected, hmark, hx.1]
    · have hnot : x ∉ heap.found m := by
        rw [hfound x]
        exact hx
      simp [collected, hnot]

theorem WellFormed.exists_collected (h : heap.WellFormed) (hsettled : heap.pendingSettled) :
    ∃ heap', heap.collectGarbage heap.fuel = some heap' ∧ heap.CollectedTo heap' ∧
      heap'.WellFormed := by
  rcases h.exists_collectGarbage with ⟨m, m', hphases, hm, hcollect⟩
  have hpending : ∀ x ∈ heap.finalizeList, m'.deferred x = false := by
    simpa [pendingSettled, hphases] using hsettled
  exact ⟨_, hcollect, hm.collectedTo h hpending, hm.wellFormed h hpending⟩

theorem CollectedTo.finalized_of_freed {heap' : DukHeap} (h : heap.WellFormed)
    (hcollected : heap.CollectedTo heap') {x : ℕ} (hobject : heap.isObject x)
    (hfinalizer : heap.hasFinalizerRaw x) (hfreed : heap'.headers x = none) :
    heap.finalized x := by
  have hheader : (heap.headers x).isSome := by
    unfold isObject at hobject
    split at hobject
    next hsome => simp [hsome]
    next => contradiction
  have hnot : ¬heap.Retained x := by
    intro hx
    rw [hcollected.headers_of_retained x hx] at hfreed
    simp [hfreed] at hheader
  have hmem := (h.mem_elements x).mp hheader
  simp only [elements, List.mem_append] at hmem
  rcases hmem with hx | hx | hx | hx
  · cases hflag : heap.finalized x with
    | true => rfl
    | false =>
        have hdoomed : heap.Doomed x :=
          ⟨hx, hobject, hflag, hfinalizer, fun hreachable => hnot (.inl hreachable)⟩
        exact absurd hdoomed.retained hnot
  · exact absurd (.inl (reachable_of_refzero hx)) hnot
  · exact absurd (retained_of_pending hx) hnot
  · simp [isObject, h.strings x hx] at hobject

/-- A collection ends.  If no object of `finalize_list` is left aside, it keeps
what is retained, frees everything else, and frees no object before its finalizer
has been run. -/
theorem collection_exact (heap : DukHeap) (h : heap.WellFormed) :
    ∃ heap', heap.collectGarbage heap.fuel = some heap' ∧
      (heap.pendingSettled → heap.CollectedTo heap' ∧
        ∀ x, heap.isObject x → heap.hasFinalizerRaw x → heap'.headers x = none →
          heap.finalized x) := by
  rcases h.exists_collectGarbage with ⟨m, m', -, -, hends⟩
  refine ⟨_, hends, fun hsettled => ?_⟩
  rcases h.exists_collected hsettled with ⟨heap', hcollect, hcollected, -⟩
  have heq : heap.collected m m' = heap' := Option.some.inj (hends.symm.trans hcollect)
  rw [heq]
  refine ⟨hcollected, ?_⟩
  intro x hobject hfinalizer hfreed
  exact hcollected.finalized_of_freed h hobject hfinalizer hfreed

/-- A heap with its thread, an unreachable object that has a finalizer, and an
unreachable buffer. -/
def smallHeap : DukHeap where
  headers := fun x =>
    match x with
    | 0 => some (.object ⟨[1], false, none, []⟩)
    | 1 => some .string
    | 2 => some (.object ⟨[1], true, none, []⟩)
    | 3 => some .buffer
    | _ => none
  next := 4
  heapAllocated := [3, 2, 0]
  refzeroList := []
  finalizeList := []
  stringTable := [1]
  roots := [0]
  marks := ⟨fun _ => false, fun _ => false, false⟩
  finalizable := fun _ => false
  finalized := fun _ => false
  running := false

theorem wellFormed_smallHeap : smallHeap.WellFormed := by
  constructor
  · decide
  · intro x
    match x with
    | 0 => decide
    | 1 => decide
    | 2 => decide
    | 3 => decide
    | x + 4 => simp [smallHeap, elements]
  · decide
  · simp [smallHeap]
  · intro x
    match x with
    | 0 => decide
    | 1 => decide
    | 2 => decide
    | 3 => decide
    | x + 4 => simp [smallHeap, refs]
  · decide
  · simp [smallHeap]
  · simp [smallHeap]
  · simp [smallHeap]

theorem collection_exact_smallHeap :
    smallHeap.pendingSettled ∧
      ∃ heap', smallHeap.collectGarbage smallHeap.fuel = some heap' ∧
        (smallHeap.pendingSettled → smallHeap.CollectedTo heap' ∧
          ∀ x, smallHeap.isObject x → smallHeap.hasFinalizerRaw x → heap'.headers x = none →
            smallHeap.finalized x) :=
  ⟨by decide, collection_exact smallHeap wellFormed_smallHeap⟩

/-- Two objects whose finalizers were put off, the second one at the end of a chain
that starts at the first. -/
def deepHeap : DukHeap where
  headers := fun x =>
    if x ≤ 256 then some (.object ⟨[x + 1], x == 0 || x == 256, none, []⟩)
    else if x = 257 then some .buffer
    else none
  next := 258
  heapAllocated := 257 :: (List.range 255).map (· + 1)
  refzeroList := []
  finalizeList := [0, 256]
  stringTable := []
  roots := []
  marks := ⟨fun _ => false, fun _ => false, false⟩
  finalizable := fun _ => false
  finalized := fun _ => false
  running := false

-- the second object is set aside, and its buffer freed while it refers to it
example : (deepHeap.collectGarbage deepHeap.fuel).any fun heap =>
    (heap.headers 257).isNone && (heap.refs 256).contains 257 := by
  decide +kernel

end DukHeap

end NekoScript
