import NekoScript.JSClass
import Mathlib.Tactic

/-!
# Lifetime of the natives behind `JSClass<T>` objects

The finalizer deletes whatever native it finds through the prototype chain but
removes the pointer from the finalized object only.  As long as every finalized
object has its own pointer, or finds none, the heap is an ownership ledger
whose holders are the objects with an own pointer.  Otherwise the object that
still has the pointer is finalized in the end, and its native deleted again.

An activation keeps its `this` alive, but the native it runs on may belong to an
object further up the chain, which a handler can cut off and have finalized.
-/

namespace NekoScript

open PrototypeChain ResourceOwnership GuardedRuns

variable {Class : Type}

/-- Every native is deleted at most once, no method is entered on a deleted one,
and none of those that still run has lost its own. -/
structure LifetimeSafe (heap : ScriptHeap Class) : Prop where
  released : ∀ self, heap.history.releases self ≤ 1
  entered : ∀ later earlier self, heap.history = later ++ .used self :: earlier →
    History.releases earlier self = 0
  running : ∀ method ∈ heap.running, heap.history.releases method.self = 0

/-- A finalized object has the pointer its finalizer reads as an own property,
and no method is running on the native it names, unless the finalizer finds
none. -/
def finalizesOwnPointer (heap : ScriptHeap Class) : HeapAction Class → Bool
  | .finalize object =>
      match heap.getPropString object .intFinalizer with
      | .found _ (.finalizer cls) =>
          match heap.getPropString object (.identifier cls) with
          | .found holder (.pointer self) =>
              holder == object && heap.running.all (·.self ≠ self)
          | _ => true
      | _ => true
  | _ => true

def FinalizesOwnPointer (heap : ScriptHeap Class) (action : HeapAction Class) :
    Prop :=
  finalizesOwnPointer heap action = true

instance (heap : ScriptHeap Class) (action : HeapAction Class) :
    Decidable (FinalizesOwnPointer heap action) :=
  inferInstanceAs (Decidable (finalizesOwnPointer heap action = true))

theorem finalizesOwnPointer_iff
    {heap : ScriptHeap Class} {object : ℕ} :
    FinalizesOwnPointer heap (.finalize object) ↔
      ∀ armer cls holder self,
        heap.getPropString object .intFinalizer = .found armer (.finalizer cls) →
        heap.getPropString object (.identifier cls) = .found holder (.pointer self) →
        holder = object ∧ ∀ method ∈ heap.running, method.self ≠ self := by
  unfold FinalizesOwnPointer
  simp only [finalizesOwnPointer]
  split
  next armer cls hfinalizer =>
    split
    next holder self hpointer =>
      constructor
      · intro hguard armer' cls' holder' self' hfound hread
        rw [hfinalizer] at hfound
        obtain rfl : cls = cls' := by simpa using (Lookup.found.inj hfound).2
        rw [hpointer] at hread
        obtain ⟨rfl, hvalue⟩ := Lookup.found.inj hread
        obtain rfl : self = self' := by simpa using hvalue
        simpa using hguard
      · intro hown
        simpa using hown _ _ _ _ hfinalizer hpointer
    next hnone =>
      refine iff_of_true rfl ?_
      intro armer' cls' holder self hfound hpointer
      rw [hfinalizer] at hfound
      obtain rfl : cls = cls' := by simpa using (Lookup.found.inj hfound).2
      exact absurd hpointer (hnone holder self)
  next hnone =>
    refine iff_of_true rfl ?_
    intro armer cls holder self hfound
    exact absurd hfound (hnone armer cls)

def ScriptHeap.ownPointer (heap : ScriptHeap Class)
    (holder : ℕ × Class) : Option ℕ :=
  match heap.objects.own holder.1 (.identifier holder.2) with
  | some (.pointer self) => some self
  | _ => none

/-- The ledger a heap stands for, and what holds of objects besides. -/
structure LifetimeInvariant (heap : ScriptHeap Class)
    (ledger : Ledger (ℕ × Class) ℕ) : Prop where
  holds : ledger.holds = heap.ownPointer
  history : ledger.history = heap.history
  fresh : ∀ event ∈ heap.history, event.resource < heap.nextNative
  unallocated : ∀ object, heap.nextObject ≤ object →
    heap.objects object = none ∧ heap.finalized object = false
  armed : ∀ object cls self, heap.ownPointer (object, cls) = some self →
    heap.objects.own object .intFinalizer = some (.finalizer cls) ∧
      heap.finalized object = false
  running : ∀ method ∈ heap.running, heap.history.releases method.self = 0

theorem initial_lifetimeInvariant :
    LifetimeInvariant (ScriptHeap.initial : ScriptHeap Class) Ledger.empty := by
  constructor
  · rfl
  · rfl
  · simp [ScriptHeap.initial]
  · simp [ScriptHeap.initial]
  · simp [ScriptHeap.ownPointer, ScriptHeap.initial, Heap.own]
  · simp [ScriptHeap.initial]

theorem LifetimeInvariant.lifetimeSafe
    {heap : ScriptHeap Class} {ledger : Ledger (ℕ × Class) ℕ}
    (hinv : LifetimeInvariant heap ledger) : LifetimeSafe heap := by
  have hdisciplined : heap.history.Disciplined :=
    hinv.history ▸ ledger.disciplined
  refine ⟨hdisciplined.releases_le_one, ?_, hinv.running⟩
  intro later earlier self hsplit
  rw [hsplit] at hdisciplined
  exact hdisciplined.releases_before_use

theorem LifetimeInvariant.unmentioned
    {heap : ScriptHeap Class} {ledger : Ledger (ℕ × Class) ℕ}
    (hinv : LifetimeInvariant heap ledger) :
    ∀ event ∈ ledger.history, event.resource ≠ heap.nextNative := by
  intro event hmem
  rw [hinv.history] at hmem
  exact (hinv.fresh event hmem).ne

/-- Only own properties, flags and the history matter: a step that keeps them and
enters no method keeps the invariant. -/
theorem LifetimeInvariant.congr
    {heap next : ScriptHeap Class} {ledger : Ledger (ℕ × Class) ℕ}
    (hinv : LifetimeInvariant heap ledger)
    (hown : ∀ object key, next.objects.own object key = heap.objects.own object key)
    (hhistory : next.history = heap.history)
    (hnative : next.nextNative = heap.nextNative)
    (hunallocated : ∀ object, next.nextObject ≤ object →
      next.objects object = none ∧ next.finalized object = false)
    (hfinalized : ∀ object, heap.finalized object = false →
      next.finalized object = false)
    (hrunning : ∀ method ∈ next.running, method ∈ heap.running) :
    LifetimeInvariant next ledger := by
  have hpointer : next.ownPointer = heap.ownPointer := by
    funext holder
    simp [ScriptHeap.ownPointer, hown]
  constructor
  · rw [hpointer]
    exact hinv.holds
  · rw [hhistory]
    exact hinv.history
  · rw [hhistory, hnative]
    exact hinv.fresh
  · exact hunallocated
  · intro object cls self hself
    rw [hpointer] at hself
    obtain ⟨harmed, hflag⟩ := hinv.armed object cls self hself
    exact ⟨(hown _ _).trans harmed, hfinalized object hflag⟩
  · intro method hmem
    rw [hhistory]
    exact hinv.running method (hrunning method hmem)

/-- A pointer that is found is the own pointer of some object. -/
theorem ScriptHeap.ownPointer_of_getPointer
    {heap : ScriptHeap Class} {object : ℕ} {cls : Class}
    {self : ℕ}
    (hself : ScriptHeap.getPointer
      (heap.getPropString object (.identifier cls)) = some self) :
    ∃ holder, heap.getPropString object (.identifier cls) =
        .found holder (.pointer self) ∧
      heap.ownPointer (holder, cls) = some self := by
  cases hlookup : heap.getPropString object (.identifier cls) with
  | absent => simp [hlookup, ScriptHeap.getPointer] at hself
  | chainLimit => simp [hlookup, ScriptHeap.getPointer] at hself
  | found holder value =>
      have hown := Heap.own_of_lookup hlookup
      cases value with
      | finalizer other => simp [hlookup, ScriptHeap.getPointer] at hself
      | pointer stored =>
          have hstored : stored = self := by
            simpa [hlookup, ScriptHeap.getPointer] using hself
          subst stored
          exact ⟨holder, rfl, by simp [ScriptHeap.ownPointer, hown]⟩

/-- The finalizer an armed object runs is the one of its own class. -/
theorem LifetimeInvariant.found_of_ownPointer
    {heap : ScriptHeap Class} {ledger : Ledger (ℕ × Class) ℕ}
    (hinv : LifetimeInvariant heap ledger) {object self : ℕ} {cls : Class}
    (hself : heap.ownPointer (object, cls) = some self) :
    heap.getPropString object .intFinalizer = .found object (.finalizer cls) :=
  Heap.lookup_eq_of_own (hinv.armed object cls self hself).1 _

theorem ScriptHeap.isSome_of_lookup
    {heap : ScriptHeap Class} {object holder : ℕ} {key : HiddenKey Class}
    {value : HiddenValue Class}
    (hlookup : heap.getPropString object key = .found holder value) :
    (heap.objects object).isSome := by
  unfold ScriptHeap.getPropString Heap.lookup at hlookup
  cases hentry : heap.objects object with
  | none => simp [hentry] at hlookup
  | some entry => rfl

theorem LifetimeInvariant.allocated
    {heap : ScriptHeap Class} {ledger : Ledger (ℕ × Class) ℕ}
    (hinv : LifetimeInvariant heap ledger) {object : ℕ}
    (hobject : (heap.objects object).isSome) : object < heap.nextObject := by
  by_contra hge
  have hempty := (hinv.unallocated object (by omega)).1
  simp [hempty] at hobject

theorem ScriptHeap.own_of_ownPointer
    {heap : ScriptHeap Class} {object self : ℕ} {cls : Class}
    (hself : heap.ownPointer (object, cls) = some self) :
    heap.objects.own object (.identifier cls) = some (.pointer self) := by
  unfold ScriptHeap.ownPointer at hself
  split at hself
  next stored hown =>
    rw [Option.some.injEq] at hself
    rw [← hself]
    exact hown
  next => contradiction

theorem ScriptHeap.ownPointer_eq_none
    {heap : ScriptHeap Class} {object : ℕ} {cls : Class}
    (hlookup : ∀ holder value,
      heap.getPropString object (.identifier cls) ≠ .found holder value) :
    heap.ownPointer (object, cls) = none := by
  cases hown : heap.objects.own object (.identifier cls) with
  | none => simp [ScriptHeap.ownPointer, hown]
  | some value =>
      have hfound := Heap.lookup_eq_of_own hown prototypeChainSanity
      exact absurd hfound (hlookup object value)

theorem ScriptHeap.ownPointer_eq_none_of_finalizer
    (heap : ScriptHeap Class) {object holder : ℕ} {cls other : Class}
    (hlookup : heap.getPropString object (.identifier cls) =
      .found holder (.finalizer other)) :
    heap.ownPointer (object, cls) = none := by
  cases hown : heap.objects.own object (.identifier cls) with
  | none => simp [ScriptHeap.ownPointer, hown]
  | some value =>
      have hfound := Heap.lookup_eq_of_own hown prototypeChainSanity
      have hsame : Lookup.found object value = .found holder (.finalizer other) :=
        hfound.symm.trans hlookup
      have hvalue : value = .finalizer other := (Lookup.found.inj hsame).2
      simp [ScriptHeap.ownPointer, hown, hvalue]

/-! ## Steps that delete nothing -/

theorem LifetimeInvariant.instanceMethodWrapper
    {heap : ScriptHeap Class} {ledger : Ledger (ℕ × Class) ℕ}
    (hinv : LifetimeInvariant heap ledger) (cls : Class) (this : ℕ) :
    ∃ ledger', LifetimeInvariant
      (JSClass.instanceMethodWrapper cls this heap) ledger' := by
  unfold JSClass.instanceMethodWrapper
  cases hself : ScriptHeap.getPointer
      (heap.getPropString this (.identifier cls)) with
  | none => exact ⟨ledger, hinv⟩
  | some self =>
      obtain ⟨holder, _, hown⟩ := ScriptHeap.ownPointer_of_getPointer hself
      have hheld : ledger.holds (holder, cls) = some self := by
        rw [hinv.holds]
        exact hown
      refine ⟨ledger.use (holder, cls) self hheld, ?_⟩
      have hacquired : Event.acquired self ∈ heap.history := by
        rw [← hinv.history]
        exact ledger.acquired_of_holds _ _ hheld
      constructor
      · exact hinv.holds
      · simp only [Ledger.use, hinv.history]
        rfl
      · intro event hmem
        have hcases : event = .used self ∨ event ∈ heap.history :=
          List.mem_cons.mp hmem
        rcases hcases with rfl | hold
        · exact hinv.fresh (.acquired self) hacquired
        · exact hinv.fresh event hold
      · exact hinv.unallocated
      · exact hinv.armed
      · intro method hmem
        change History.releases (.used self :: heap.history) method.self = 0
        rw [History.releases_cons_used]
        rcases List.mem_cons.mp hmem with rfl | hold
        · rw [← hinv.history]
          exact ledger.live_of_holds _ _ hheld
        · exact hinv.running method hold

theorem LifetimeInvariant.mark
    {heap : ScriptHeap Class} {ledger : Ledger (ℕ × Class) ℕ}
    (hinv : LifetimeInvariant heap ledger) {object : ℕ}
    (hallocated : object < heap.nextObject)
    (hnone : ∀ cls, heap.ownPointer (object, cls) = none) :
    LifetimeInvariant
      { heap with finalized := Function.update heap.finalized object true }
      ledger := by
  constructor
  · exact hinv.holds
  · exact hinv.history
  · exact hinv.fresh
  · intro other hother
    have hne : other ≠ object := by
      have hle : heap.nextObject ≤ other := hother
      omega
    obtain ⟨hempty, hflag⟩ := hinv.unallocated other hother
    exact ⟨hempty, by simpa [hne] using hflag⟩
  · intro other cls self hself
    have hpointer : heap.ownPointer (other, cls) = some self := hself
    have hne : other ≠ object := by
      intro heq
      rw [heq, hnone cls] at hpointer
      contradiction
    obtain ⟨harmed, hflag⟩ := hinv.armed other cls self hpointer
    exact ⟨harmed, by simpa [hne] using hflag⟩
  · exact hinv.running

theorem LifetimeInvariant.create
    {heap : ScriptHeap Class} {ledger : Ledger (ℕ × Class) ℕ}
    (hinv : LifetimeInvariant heap ledger) (prototype : Option ℕ) :
    LifetimeInvariant (heap.create prototype) ledger := by
  apply hinv.congr
  · intro object key
    rw [ScriptHeap.create, Heap.own_allocate]
    by_cases hobject : object = heap.nextObject
    · subst object
      have hempty := (hinv.unallocated heap.nextObject le_rfl).1
      simp [Heap.own, hempty]
    · rw [if_neg hobject]
  · rfl
  · rfl
  · intro object hobject
    have hlt : heap.nextObject + 1 ≤ object := hobject
    have hne : object ≠ heap.nextObject := by omega
    obtain ⟨hempty, hflag⟩ := hinv.unallocated object (by omega)
    exact ⟨by simpa [ScriptHeap.create, Heap.allocate, hne] using hempty, hflag⟩
  · exact fun _ hflag => hflag
  · exact fun _ hmem => hmem

theorem LifetimeInvariant.free
    {heap : ScriptHeap Class} {ledger : Ledger (ℕ × Class) ℕ}
    (hinv : LifetimeInvariant heap ledger) {object : ℕ}
    (hdead : heap.finalized object = true ∨ hasFinalizer object heap = false) :
    LifetimeInvariant { heap with objects := heap.objects.free object }
      ledger := by
  have hnone : ∀ cls, heap.ownPointer (object, cls) = none := by
    intro cls
    by_contra hsome
    obtain ⟨self, hself⟩ := Option.ne_none_iff_exists'.mp hsome
    rcases hdead with hflag | hfinalizer
    · rw [(hinv.armed object cls self hself).2] at hflag
      contradiction
    · simp [hasFinalizer, hinv.found_of_ownPointer hself] at hfinalizer
  have hpointer : ScriptHeap.ownPointer
      { heap with objects := heap.objects.free object } = heap.ownPointer := by
    funext ⟨other, cls⟩
    by_cases hother : other = object
    · subst other
      rw [hnone cls]
      simp [ScriptHeap.ownPointer, Heap.own_free]
    · simp [ScriptHeap.ownPointer, Heap.own_free, hother]
  constructor
  · rw [hpointer]
    exact hinv.holds
  · exact hinv.history
  · exact hinv.fresh
  · intro other hother
    obtain ⟨hempty, hflag⟩ := hinv.unallocated other hother
    refine ⟨?_, hflag⟩
    by_cases heq : other = object
    · subst other
      simp [Heap.free]
    · simpa [Heap.free, heq] using hempty
  · intro other cls self hself
    rw [hpointer] at hself
    have hne : other ≠ object := by
      intro heq
      rw [heq, hnone cls] at hself
      contradiction
    obtain ⟨harmed, hflag⟩ := hinv.armed other cls self hself
    refine ⟨?_, hflag⟩
    rw [Heap.own_free, if_neg hne]
    exact harmed
  · exact hinv.running

/-! ## Construction -/

variable [DecidableEq Class]

theorem constructor_own
    (cls : Class) (prototype : Option ℕ) (heap : ScriptHeap Class)
    (object : ℕ) (key : HiddenKey Class) :
    (JSClass.constructor cls prototype heap).objects.own object key =
      if object = heap.nextObject then
        if key = .identifier cls then some (.pointer heap.nextNative)
        else if key = .intFinalizer then some (.finalizer cls)
        else none
      else heap.objects.own object key := by
  have hallocated :
      ((heap.objects.allocate heap.nextObject prototype)
        heap.nextObject).isSome := by
    simp [Heap.allocate]
  have harmed :
      (((heap.objects.allocate heap.nextObject prototype).setOwn
        heap.nextObject .intFinalizer (some (.finalizer cls)))
          heap.nextObject).isSome := by
    rw [Heap.isSome_setOwn]
    exact hallocated
  simp only [JSClass.constructor, ScriptHeap.putOwn, ScriptHeap.allocateNative,
    ScriptHeap.create]
  rw [Heap.own_setOwn _ _ _ _ _ harmed, Heap.own_setOwn _ _ _ _ _ hallocated,
    Heap.own_allocate]
  by_cases hobject : object = heap.nextObject
  · by_cases hkey : key = .identifier cls
    · simp [hobject, hkey]
    · by_cases hfinalizer : key = .intFinalizer
      · simp [hobject, hfinalizer]
      · simp [hobject, hkey, hfinalizer]
  · simp [hobject]

theorem LifetimeInvariant.constructor
    {heap : ScriptHeap Class} {ledger : Ledger (ℕ × Class) ℕ}
    (hinv : LifetimeInvariant heap ledger)
    (cls : Class) (prototype : Option ℕ) :
    LifetimeInvariant (JSClass.constructor cls prototype heap)
      (ledger.grant (heap.nextObject, cls) heap.nextNative hinv.unmentioned) := by
  have hnone : ∀ other, heap.ownPointer (heap.nextObject, other) = none := by
    intro other
    have hempty := (hinv.unallocated heap.nextObject le_rfl).1
    simp [ScriptHeap.ownPointer, Heap.own, hempty]
  have hpointer : (JSClass.constructor cls prototype heap).ownPointer =
      Function.update heap.ownPointer (heap.nextObject, cls)
        (some heap.nextNative) := by
    funext holder
    rcases holder with ⟨object, other⟩
    by_cases hobject : object = heap.nextObject
    · subst object
      by_cases hcls : other = cls
      · subst other
        simp [ScriptHeap.ownPointer, constructor_own]
      · have hne : (heap.nextObject, other) ≠ (heap.nextObject, cls) := by
          simp [hcls]
        rw [Function.update_of_ne hne, hnone other]
        simp [ScriptHeap.ownPointer, constructor_own, hcls]
    · have hne : (object, other) ≠ (heap.nextObject, cls) := by
        simp [hobject]
      rw [Function.update_of_ne hne]
      simp [ScriptHeap.ownPointer, constructor_own, hobject]
  constructor
  · rw [hpointer, ← hinv.holds]
    rfl
  · simp only [Ledger.grant, hinv.history]
    rfl
  · intro event hmem
    have hcases : event = .acquired heap.nextNative ∨ event ∈ heap.history :=
      List.mem_cons.mp hmem
    change event.resource < heap.nextNative + 1
    rcases hcases with rfl | hold
    · simp [Event.resource]
    · have hlt := hinv.fresh event hold
      omega
  · intro object hobject
    have hlt : heap.nextObject + 1 ≤ object := hobject
    have hne : object ≠ heap.nextObject := by omega
    obtain ⟨hempty, hflag⟩ := hinv.unallocated object (by omega)
    refine ⟨?_, hflag⟩
    simp [JSClass.constructor, ScriptHeap.putOwn, ScriptHeap.allocateNative,
      ScriptHeap.create, Heap.setOwn, Heap.allocate, hne, hempty]
  · intro object other self hself
    rw [hpointer] at hself
    by_cases hobject : object = heap.nextObject
    · subst object
      by_cases hcls : other = cls
      · subst other
        refine ⟨by simp [constructor_own], ?_⟩
        exact (hinv.unallocated heap.nextObject le_rfl).2
      · have hne : (heap.nextObject, other) ≠ (heap.nextObject, cls) := by
          simp [hcls]
        rw [Function.update_of_ne hne, hnone other] at hself
        contradiction
    · have hne : (object, other) ≠ (heap.nextObject, cls) := by
        simp [hobject]
      rw [Function.update_of_ne hne] at hself
      obtain ⟨harmed, hflag⟩ := hinv.armed object other self hself
      refine ⟨?_, hflag⟩
      rw [constructor_own, if_neg hobject]
      exact harmed
  · intro method hmem
    change History.releases (.acquired heap.nextNative :: heap.history) method.self = 0
    rw [History.releases_cons_acquired]
    exact hinv.running method hmem

/-! ## Finalization -/

theorem runFinalizer_of_notArmed
    {heap : ScriptHeap Class} {object : ℕ}
    (h : ∀ holder cls, heap.getPropString object .intFinalizer ≠
      .found holder (.finalizer cls)) :
    runFinalizer object heap =
      { heap with finalized := Function.update heap.finalized object true } := by
  unfold runFinalizer
  dsimp only
  split
  next holder cls hlookup => exact absurd hlookup (h holder cls)
  next => rfl

theorem runFinalizer_of_found
    {heap : ScriptHeap Class} {object holder : ℕ} {cls : Class}
    (h : heap.getPropString object .intFinalizer =
      .found holder (.finalizer cls)) :
    runFinalizer object heap = JSClass.finalizer cls object
      { heap with finalized := Function.update heap.finalized object true } := by
  have hsame : ScriptHeap.getPropString
      { heap with finalized := Function.update heap.finalized object true }
        object .intFinalizer = .found holder (.finalizer cls) := h
  simp only [runFinalizer, hsame]

/-- Deleting the own pointer of an object, and with it the native it names. -/
theorem LifetimeInvariant.disarm
    {heap : ScriptHeap Class} {ledger : Ledger (ℕ × Class) ℕ}
    (hinv : LifetimeInvariant heap ledger) {object : ℕ} {cls : Class}
    (hobject : (heap.objects object).isSome)
    (hallocated : object < heap.nextObject)
    (hothers : ∀ other, other ≠ cls → heap.ownPointer (object, other) = none)
    (hidle : ∀ self, heap.ownPointer (object, cls) = some self →
      ∀ method ∈ heap.running, method.self ≠ self) :
    ∃ ledger', LifetimeInvariant
      ((ScriptHeap.putOwn
        { heap with finalized := Function.update heap.finalized object true }
          object (.identifier cls) none).deleteNative
            (heap.ownPointer (object, cls))) ledger' := by
  have hcleared : ∀ holder,
      ScriptHeap.ownPointer (heap.putOwn object (.identifier cls) none) holder =
        Function.update heap.ownPointer (object, cls) none holder := by
    rintro ⟨other, otherCls⟩
    simp only [ScriptHeap.ownPointer, ScriptHeap.putOwn]
    rw [Heap.own_setOwn _ _ _ _ _ hobject]
    by_cases hholder : (other, otherCls) = (object, cls)
    · obtain ⟨rfl, rfl⟩ := Prod.mk.inj hholder
      simp
    · rw [Function.update_of_ne hholder]
      have hnot : ¬ (other = object ∧
          HiddenKey.identifier otherCls = HiddenKey.identifier cls) := by
        simpa [Prod.mk.injEq] using hholder
      rw [if_neg hnot]
      rfl
  have hunallocated : ∀ other, heap.nextObject ≤ other →
      (heap.objects.setOwn object (.identifier cls) none) other = none ∧
        Function.update heap.finalized object true other = false := by
    intro other hother
    have hne : other ≠ object := by omega
    obtain ⟨hempty, hflag⟩ := hinv.unallocated other hother
    exact ⟨by simpa [Heap.setOwn, hne] using hempty, by simpa [hne] using hflag⟩
  have harmed : ∀ other otherCls self,
      Function.update heap.ownPointer (object, cls) none (other, otherCls) =
          some self →
        (heap.objects.setOwn object (.identifier cls) none).own
            other .intFinalizer = some (.finalizer otherCls) ∧
          Function.update heap.finalized object true other = false := by
    intro other otherCls self hself
    have hne : other ≠ object := by
      intro heq
      subst other
      by_cases hcls : otherCls = cls
      · simp [hcls] at hself
      · rw [Function.update_of_ne (by simp [hcls]), hothers otherCls hcls] at hself
        contradiction
    rw [Function.update_of_ne (by simp [hne])] at hself
    obtain ⟨hown, hflag⟩ := hinv.armed other otherCls self hself
    rw [Heap.own_setOwn _ _ _ _ _ hobject]
    exact ⟨by simpa [hne] using hown, by simpa [hne] using hflag⟩
  cases hpointer : heap.ownPointer (object, cls) with
  | none =>
      have hsame : Function.update heap.ownPointer (object, cls) none =
          heap.ownPointer := by
        rw [← hpointer]
        exact Function.update_eq_self _ _
      refine ⟨ledger, ?_, hinv.history, hinv.fresh, hunallocated, ?_, hinv.running⟩
      · rw [hinv.holds, ← hsame]
        funext holder
        exact (hcleared holder).symm
      · intro other otherCls self hself
        exact harmed other otherCls self ((hcleared _).symm.trans hself)
  | some self =>
      have hheld : ledger.holds (object, cls) = some self := by
        rw [hinv.holds]
        exact hpointer
      refine ⟨ledger.release (object, cls) self hheld, ?_, ?_, ?_,
        hunallocated, ?_, ?_⟩
      · simp only [Ledger.release, hinv.holds]
        funext holder
        exact (hcleared holder).symm
      · simp only [Ledger.release, hinv.history]
        rfl
      · intro event hmem
        have hcases : event = .released self ∨ event ∈ heap.history :=
          List.mem_cons.mp hmem
        rcases hcases with rfl | hold
        · have hacquired : Event.acquired self ∈ heap.history := by
            rw [← hinv.history]
            exact ledger.acquired_of_holds _ _ hheld
          exact hinv.fresh (.acquired self) hacquired
        · exact hinv.fresh event hold
      · intro other otherCls held hself
        exact harmed other otherCls held ((hcleared _).symm.trans hself)
      · intro method hmem
        change History.releases (.released self :: heap.history) method.self = 0
        rw [History.releases_cons_released, hinv.running method hmem,
          if_neg (hidle self hpointer method hmem).symm]

theorem LifetimeInvariant.runFinalizer
    {heap : ScriptHeap Class} {ledger : Ledger (ℕ × Class) ℕ}
    (hinv : LifetimeInvariant heap ledger) {object : ℕ}
    (hguard : FinalizesOwnPointer heap (.finalize object))
    (hfinalizer : hasFinalizer object heap = true) :
    ∃ ledger', LifetimeInvariant (runFinalizer object heap) ledger' := by
  unfold hasFinalizer at hfinalizer
  cases hlookup : heap.getPropString object .intFinalizer with
  | absent => simp [hlookup] at hfinalizer
  | chainLimit => simp [hlookup] at hfinalizer
  | found holder value =>
      have hobject := ScriptHeap.isSome_of_lookup hlookup
      have hallocated := hinv.allocated hobject
      cases value with
      | pointer stored =>
          have hnone : ∀ cls, heap.ownPointer (object, cls) = none := by
            intro cls
            by_contra hsome
            obtain ⟨self, hself⟩ := Option.ne_none_iff_exists'.mp hsome
            rw [hinv.found_of_ownPointer hself] at hlookup
            simp at hlookup
          rw [runFinalizer_of_notArmed (by simp [hlookup])]
          exact ⟨ledger, hinv.mark hallocated hnone⟩
      | finalizer cls =>
          have hothers : ∀ other, other ≠ cls →
              heap.ownPointer (object, other) = none := by
            intro other hne
            by_contra hsome
            obtain ⟨self, hself⟩ := Option.ne_none_iff_exists'.mp hsome
            rw [hinv.found_of_ownPointer hself] at hlookup
            simp [hne] at hlookup
          rw [runFinalizer_of_found hlookup]
          have hread : ScriptHeap.getPropString
              { heap with
                finalized := Function.update heap.finalized object true }
              object (.identifier cls) =
                heap.getPropString object (.identifier cls) := rfl
          unfold JSClass.finalizer
          rw [hread]
          cases hpointer : heap.getPropString object (.identifier cls) with
          | chainLimit =>
              have hnone : ∀ other, heap.ownPointer (object, other) = none := by
                intro other
                by_cases hcls : other = cls
                · subst other
                  exact ScriptHeap.ownPointer_eq_none (by simp [hpointer])
                · exact hothers other hcls
              exact ⟨ledger, hinv.mark hallocated hnone⟩
          | absent =>
              have hnone : heap.ownPointer (object, cls) = none :=
                ScriptHeap.ownPointer_eq_none (by simp [hpointer])
              have hdisarm := hinv.disarm hobject hallocated hothers (by simp [hnone])
              rw [hnone] at hdisarm
              exact hdisarm
          | found owner value =>
              have hown := Heap.own_of_lookup hpointer
              have hsame : ScriptHeap.getPointer (.found owner value) =
                  heap.ownPointer (object, cls) := by
                cases value with
                | finalizer other =>
                    rw [heap.ownPointer_eq_none_of_finalizer hpointer]
                    rfl
                | pointer self =>
                    obtain ⟨rfl, _⟩ := finalizesOwnPointer_iff.mp hguard _ _ _ _ hlookup
                      hpointer
                    simp [ScriptHeap.getPointer, ScriptHeap.ownPointer, hown]
              have hidle : ∀ self, heap.ownPointer (object, cls) = some self →
                  ∀ method ∈ heap.running, method.self ≠ self := by
                intro self hself
                have hfound := Heap.lookup_eq_of_own
                  (ScriptHeap.own_of_ownPointer hself) prototypeChainSanity
                exact (finalizesOwnPointer_iff.mp hguard _ _ _ _ hlookup hfound).2
              have hdisarm := hinv.disarm hobject hallocated hothers hidle
              rw [← hsame] at hdisarm
              exact hdisarm

/-! ## Runs -/

theorem LifetimeInvariant.step
    {heap next : ScriptHeap Class} {ledger : Ledger (ℕ × Class) ℕ}
    (hinv : LifetimeInvariant heap ledger) {action : HeapAction Class}
    (hguard : FinalizesOwnPointer heap action)
    (hstep : heapStep heap action = some next) :
    ∃ ledger', LifetimeInvariant next ledger' := by
  cases action with
  | construct cls prototype =>
      simp only [heapStep, Option.ite_none_right_eq_some, Option.some.injEq] at hstep
      rcases hstep with ⟨_, rfl⟩
      exact ⟨_, hinv.constructor cls prototype⟩
  | create prototype =>
      simp only [heapStep, Option.ite_none_right_eq_some, Option.some.injEq] at hstep
      rcases hstep with ⟨_, rfl⟩
      exact ⟨ledger, hinv.create prototype⟩
  | setPrototype object prototype =>
      simp only [heapStep, Option.ite_none_right_eq_some, Option.some.injEq] at hstep
      rcases hstep with ⟨_, rfl⟩
      refine ⟨ledger, hinv.congr ?_ rfl rfl ?_ (fun _ hflag => hflag)
        (fun _ hmem => hmem)⟩
      · intro other key
        exact Heap.own_setPrototype _ _ _ _ _
      · intro other hother
        obtain ⟨hempty, hflag⟩ := hinv.unallocated other hother
        refine ⟨?_, hflag⟩
        by_cases heq : other = object
        · subst other
          simp [Heap.setPrototype, hempty]
        · simpa [Heap.setPrototype, heq] using hempty
  | reference object =>
      simp only [heapStep, Option.ite_none_right_eq_some, Option.some.injEq] at hstep
      rcases hstep with ⟨_, rfl⟩
      exact ⟨ledger, hinv.congr (fun _ _ => rfl) rfl rfl hinv.unallocated
        (fun _ hflag => hflag) (fun _ hmem => hmem)⟩
  | drop object =>
      simp only [heapStep, Option.ite_none_left_eq_some, Option.some.injEq] at hstep
      rcases hstep with ⟨_, rfl⟩
      exact ⟨ledger, hinv.congr (fun _ _ => rfl) rfl rfl hinv.unallocated
        (fun _ hflag => hflag) (fun _ hmem => hmem)⟩
  | callMethod cls this =>
      simp only [heapStep, Option.ite_none_right_eq_some, Option.some.injEq] at hstep
      rcases hstep with ⟨_, rfl⟩
      exact hinv.instanceMethodWrapper cls this
  | returnMethod =>
      simp only [heapStep, Option.ite_none_right_eq_some, Option.some.injEq] at hstep
      rcases hstep with ⟨_, rfl⟩
      exact ⟨ledger, hinv.congr (fun _ _ => rfl) rfl rfl hinv.unallocated
        (fun _ hflag => hflag) (fun _ hmem => List.mem_of_mem_tail hmem)⟩
  | finalize object =>
      simp only [heapStep, Option.ite_none_right_eq_some, Option.some.injEq,
        Bool.and_eq_true] at hstep
      rcases hstep with ⟨⟨⟨_, hfinalizer⟩, _⟩, rfl⟩
      exact hinv.runFinalizer hguard hfinalizer
  | rescue object =>
      simp only [heapStep, Option.ite_none_right_eq_some, Option.some.injEq] at hstep
      rcases hstep with ⟨_, rfl⟩
      have hkeep : ∀ other, heap.finalized other = false →
          Function.update heap.finalized object false other = false := by
        intro other hflag
        by_cases heq : other = object
        · simp [heq]
        · simpa [heq] using hflag
      refine ⟨ledger, hinv.congr (fun _ _ => rfl) rfl rfl ?_ hkeep (fun _ hmem => hmem)⟩
      intro other hother
      obtain ⟨hempty, hflag⟩ := hinv.unallocated other hother
      exact ⟨hempty, hkeep other hflag⟩
  | free object =>
      simp only [heapStep, Option.ite_none_right_eq_some, Option.some.injEq,
        Bool.and_eq_true, Bool.or_eq_true, Bool.not_eq_true'] at hstep
      rcases hstep with ⟨⟨⟨_, hdead⟩, _⟩, rfl⟩
      exact ⟨ledger, hinv.free hdead⟩
  | destroyHeap =>
      simp only [heapStep, Option.ite_none_left_eq_some, Option.some.injEq] at hstep
      rcases hstep with ⟨_, rfl⟩
      exact ⟨ledger, hinv.congr (fun _ _ => rfl) rfl rfl hinv.unallocated
        (fun _ hflag => hflag) (fun _ hmem => hmem)⟩

theorem exists_lifetimeInvariant_of_guardedRun
    {actions : List (HeapAction Class)} {heap : ScriptHeap Class}
    (hrun : GuardedRun heapStep FinalizesOwnPointer ScriptHeap.initial
      actions heap) :
    ∃ ledger, LifetimeInvariant heap ledger := by
  refine hrun.invariant (fun heap => ∃ ledger, LifetimeInvariant heap ledger)
    ?_ ⟨_, initial_lifetimeInvariant⟩
  rintro state action next ⟨ledger, hinv⟩ hguard hstep
  exact hinv.step hguard hstep

/-- As long as no finalizer follows the prototype chain to another object's
pointer, or deletes a native that a method is running on, natives live and die as
they should. -/
theorem lifetimeSafe_of_finalizesOwnPointer
    (actions : List (HeapAction Class)) (heap : ScriptHeap Class)
    (hrun : GuardedRun heapStep FinalizesOwnPointer ScriptHeap.initial
      actions heap) :
    LifetimeSafe heap := by
  obtain ⟨ledger, hinv⟩ := exists_lifetimeInvariant_of_guardedRun hrun
  exact hinv.lifetimeSafe

/-- While `show` runs on the dialog, a handler drops the last reference to it. -/
def dialogLifecycle : List (HeapAction ClassName) :=
  [.create none, .construct .nkWinTaskDialog (some 0),
    .callMethod .nkWinTaskDialog 1, .drop 1, .returnMethod, .finalize 1, .free 1,
    .destroyHeap]

theorem lifetimeSafe_dialogLifecycle :
    ∃ heap, run heapStep ScriptHeap.initial dialogLifecycle = some heap ∧
      heap.history = [.released 0, .used 0, .acquired 0] ∧
      LifetimeSafe heap := by
  have hsome : (checkedRun heapStep FinalizesOwnPointer ScriptHeap.initial
      dialogLifecycle).isSome := by decide
  obtain ⟨heap, hrun⟩ := Option.isSome_iff_exists.mp hsome
  have hguarded := GuardedRun.of_checkedRun hrun
  have hhistory : (checkedRun heapStep FinalizesOwnPointer ScriptHeap.initial
      dialogLifecycle).map ScriptHeap.history =
        some [.released 0, .used 0, .acquired 0] := by decide
  rw [hrun, Option.map_some, Option.some.injEq] at hhistory
  exact ⟨heap, hguarded.run_eq, hhistory,
    lifetimeSafe_of_finalizesOwnPointer _ heap hguarded⟩

/-- `child = Object.create(dialog)` is collected while `dialog` stays in use,
and the heap is destroyed in the end. -/
def inheritedFinalization : List (HeapAction ClassName) :=
  [.create none, .construct .nkWinTaskDialog (some 0), .create (some 1),
    .drop 2, .finalize 2, .callMethod .nkWinTaskDialog 1, .returnMethod,
    .destroyHeap, .finalize 1]

theorem not_lifetimeSafe_of_inherited_finalizer :
    ¬ ∀ (actions : List (HeapAction ClassName)) (heap : ScriptHeap ClassName),
      run heapStep ScriptHeap.initial actions = some heap → LifetimeSafe heap := by
  intro hsafe
  have hhistory : (run heapStep ScriptHeap.initial inheritedFinalization).map
      ScriptHeap.history =
        some [.released 0, .used 0, .released 0, .acquired 0] := by decide
  obtain ⟨heap, hrun, hheap⟩ := Option.map_eq_some_iff.mp hhistory
  have hreleases := (hsafe _ heap hrun).released 0
  rw [hheap] at hreleases
  simp at hreleases

/-! ## The condition is needed -/

/-- A finalizer deletes the native it finds, and changes nothing but the finalized
object. -/
theorem runFinalizer_of_pointer
    {heap : ScriptHeap Class} {object armer holder self : ℕ} {cls : Class}
    (hfinalizer : heap.getPropString object .intFinalizer =
      .found armer (.finalizer cls))
    (hpointer : heap.getPropString object (.identifier cls) =
      .found holder (.pointer self)) :
    runFinalizer object heap =
      { heap with
        objects := heap.objects.setOwn object (.identifier cls) none
        finalized := Function.update heap.finalized object true
        history := .released self :: heap.history } := by
  have hread : ScriptHeap.getPropString
      { heap with finalized := Function.update heap.finalized object true }
      object (.identifier cls) = .found holder (.pointer self) := hpointer
  rw [runFinalizer_of_found hfinalizer]
  simp only [JSClass.finalizer, hread, ScriptHeap.getPointer,
    ScriptHeap.deleteNative, ScriptHeap.putOwn]

/-- Methods can return, one after another, and leave the rest of the heap as it
is. -/
theorem run_returnMethod (heap : ScriptHeap Class) :
    run heapStep heap (List.replicate heap.running.length .returnMethod) =
      some { heap with running := [] } := by
  cases heap with
  | mk objects finalized roots running nextObject nextNative destroying history =>
      induction running with
      | nil => rfl
      | cons method running ih =>
          rw [List.length_cons, List.replicate_succ, run_cons rfl]
          exact ih

/-- An armed object that has not been finalized can be finalized once the heap is
being destroyed. -/
theorem exists_run_released
    {heap : ScriptHeap Class} {owner self : ℕ} {cls : Class}
    (harmed : heap.objects.own owner .intFinalizer = some (.finalizer cls))
    (hself : heap.objects.own owner (.identifier cls) = some (.pointer self))
    (hunmarked : heap.finalized owner = false) :
    ∃ rest final, run heapStep heap rest = some final ∧
      final.history = .released self :: heap.history := by
  let dying : ScriptHeap Class := { heap with running := [], destroying := true }
  have hfinalizer : dying.getPropString owner .intFinalizer =
      .found owner (.finalizer cls) := Heap.lookup_eq_of_own harmed _
  have hpointer : dying.getPropString owner (.identifier cls) =
      .found owner (.pointer self) := Heap.lookup_eq_of_own hself _
  have hlast : heapStep dying (.finalize owner) =
      some (runFinalizer owner dying) := by
    simp [heapStep, hasFinalizer, hfinalizer, hunmarked, dying]
  have hhistory : (runFinalizer owner dying).history =
      .released self :: heap.history := by
    rw [runFinalizer_of_pointer hfinalizer hpointer]
  have hdying : ∃ rest, run heapStep heap rest = some dying := by
    have hreturns := run_returnMethod heap
    cases hdestroying : heap.destroying with
    | true =>
        refine ⟨_, hreturns.trans ?_⟩
        simp [dying, ← hdestroying]
    | false =>
        have hdestroy : heapStep { heap with running := [] } .destroyHeap = some dying := by
          simp [heapStep, hdestroying, dying]
        exact ⟨_ ++ [.destroyHeap], run_append hreturns (run_cons hdestroy [])⟩
  obtain ⟨rest, hrest⟩ := hdying
  exact ⟨rest ++ [.finalize owner], _, run_append hrest (run_cons hlast []), hhistory⟩

/-- A finalizer that finds the native of another object, or one that a method is
running on, breaks the lifetime of this native: either the method has lost it, or
its owner is finalized at the latest when the heap is destroyed and deletes it a
second time. -/
theorem exists_not_lifetimeSafe_of_finalize
    {actions : List (HeapAction Class)} {heap next : ScriptHeap Class}
    {object : ℕ}
    (hrun : GuardedRun heapStep FinalizesOwnPointer ScriptHeap.initial
      actions heap)
    (hstep : heapStep heap (.finalize object) = some next)
    (hunguarded : ¬ FinalizesOwnPointer heap (.finalize object)) :
    ∃ rest final, run heapStep next rest = some final ∧ ¬ LifetimeSafe final := by
  obtain ⟨ledger, hinv⟩ := exists_lifetimeInvariant_of_guardedRun hrun
  rw [finalizesOwnPointer_iff] at hunguarded
  push Not at hunguarded
  obtain ⟨armer, cls, owner, self, hfinalizer, hpointer, hfault⟩ := hunguarded
  have hnext : runFinalizer object heap = next := by
    simp only [heapStep, Option.ite_none_right_eq_some, Option.some.injEq] at hstep
    exact hstep.2
  have hown := Heap.own_of_lookup hpointer
  have hobject := ScriptHeap.isSome_of_lookup hfinalizer
  have hpointed : heap.ownPointer (owner, cls) = some self := by
    simp [ScriptHeap.ownPointer, hown]
  rw [runFinalizer_of_pointer hfinalizer hpointer] at hnext
  by_cases howner : owner = object
  · obtain ⟨method, hmem, hself⟩ := hfault howner
    refine ⟨[], next, rfl, fun hsafe => ?_⟩
    have hlost := hsafe.running method (hnext ▸ hmem)
    rw [← hnext, hself] at hlost
    simp at hlost
  · obtain ⟨harmed, hunmarked⟩ := hinv.armed owner cls self hpointed
    have hkept : ∀ key, next.objects.own owner key = heap.objects.own owner key := by
      intro key
      rw [← hnext, Heap.own_setOwn _ _ _ _ _ hobject]
      simp [howner]
    obtain ⟨rest, final, hrest, hhistory⟩ := exists_run_released
      ((hkept _).trans harmed) ((hkept _).trans hown)
      (by rw [← hnext]; simpa [howner] using hunmarked)
    refine ⟨rest, final, hrest, fun hsafe => ?_⟩
    have htwice := hsafe.released self
    rw [hhistory, ← hnext] at htwice
    simp at htwice

end NekoScript
