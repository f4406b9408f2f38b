import NekoScript.JSClassLifetime
import Mathlib.Tactic

/-!
# Receivers of native methods

`JSClass<T>::instanceMethodWrapper` looks the native up from whatever the method
was called on, and only a debug assertion stands between a missing pointer and
the method.  A script can also get hold of a finalizer and call it.
-/

namespace NekoScript

open PrototypeChain GuardedRuns

/-- What a method is called on.  Property reads of a primitive start at its
prototype, and `undefined` and `null` have none. -/
inductive Receiver where
  | nullish
  | primitive (prototype : ℕ)
  | object (id : ℕ)
  deriving DecidableEq, Repr

/-- Where property reads start. -/
def Receiver.start : Receiver → Option ℕ
  | .nullish => none
  | .primitive prototype => some prototype
  | .object id => some id

/-- What the classes register with `registerMethod` and `registerProperty`, and
the function that `NKWinAPI`'s constructor returns. -/
inductive RegisteredMethod where
  | show | navigate | preventClose | enableButton | enableRadioButton
  | raw
  | call
  deriving DecidableEq, Repr

def RegisteredMethod.cls : RegisteredMethod → ClassName
  | .raw => .nkWinVersionInfo
  | .call => .nkWinAPI
  | _ => .nkWinTaskDialog

/-- The template argument `oper` of the wrapper: `operatorPushThis` or, for
`Call`, `operatorPushCurrentFunction`. -/
def RegisteredMethod.oper (this : Receiver) (currentFunction : ℕ) :
    RegisteredMethod → Receiver
  | .call => .object currentFunction
  | _ => this

inductive MethodEntry where
  | raised
  | entered (self : Option ℕ)
  deriving DecidableEq, Repr

section Model

variable {Class : Type} [DecidableEq Class]

/-- How `instanceMethodWrapper` gets to the method: a property read of
`undefined` or `null` raises an error, and so does one that meets the limit of
the chain. -/
def JSClass.enter (cls : Class) (receiver : Receiver) (heap : ScriptHeap Class) :
    MethodEntry :=
  match receiver.start with
  | none => .raised
  | some object =>
      match heap.getPropString object (.identifier cls) with
      | .chainLimit => .raised
      | value => .entered (ScriptHeap.getPointer value)

/-- `JSClass<T>::finalizer` called by a script. -/
def JSClass.callFinalizer (cls : Class) (argument : Receiver)
    (heap : ScriptHeap Class) : ScriptHeap Class :=
  match argument with
  | .nullish => heap
  | .object id => JSClass.finalizer cls id heap
  | .primitive prototype =>
      match heap.getPropString prototype (.identifier cls) with
      | .chainLimit => heap
      -- a primitive has no property to delete
      | value => heap.deleteNative (ScriptHeap.getPointer value)

inductive ReceiverAction (Class : Type) where
  | heap (action : HeapAction Class)
  | callFinalizer (cls : Class) (argument : Receiver)
  deriving DecidableEq, Repr

def receiverStep (heap : ScriptHeap Class) :
    ReceiverAction Class → Option (ScriptHeap Class)
  | .heap action => heapStep heap action
  | .callFinalizer cls argument =>
      if !heap.destroying && argument.start.all heap.reachable then
        some (JSClass.callFinalizer cls argument heap)
      else none

/-- The object, the class and the native of a construction. -/
abbrev Construction (Class : Type) := ℕ × Class × ℕ

def ReceiverAction.constructs (heap : ScriptHeap Class) :
    ReceiverAction Class → List (Construction Class)
  | .heap (.construct cls _) => [(heap.nextObject, cls, heap.nextNative)]
  | _ => []

/-- What the constructors of a run have created. -/
def constructions : ScriptHeap Class → List (ReceiverAction Class) →
    List (Construction Class)
  | _, [] => []
  | heap, action :: actions =>
      action.constructs heap ++
        match receiverStep heap action with
        | none => []
        | some next => constructions next actions

end Model

/-- The call raises an error, or runs the method on a native that the
constructor of its class created for an object on the prototype chain. -/
def ReceiverChecked (created : List (Construction ClassName))
    (heap : ScriptHeap ClassName) (method : RegisteredMethod) (receiver : Receiver) :
    Prop :=
  match JSClass.enter method.cls receiver heap with
  | .raised => True
  | .entered none => False
  | .entered (some self) =>
      ∃ object length holder, receiver.start = some object ∧
        holder ∈ heap.objects.chain length object ∧
        (holder, method.cls, self) ∈ created

/-- The receiver is `undefined` or `null`, its prototype chain exceeds the limit
of the engine, or some object within this limit has a native of the class. -/
def FindsNative (heap : ScriptHeap ClassName) (method : RegisteredMethod)
    (receiver : Receiver) : Prop :=
  ∀ object, receiver.start = some object →
    (heap.objects.chain (prototypeChainSanity + 1) object).length =
        prototypeChainSanity + 1 ∨
      ∃ holder ∈ heap.objects.chain (prototypeChainSanity + 1) object,
        heap.ownPointer (holder, method.cls) ≠ none

/-- The wrapper as the lifetime of natives sees it: without a native, nothing is
entered. -/
theorem instanceMethodWrapper_eq_enter
    {Class : Type} [DecidableEq Class] (cls : Class) (this : ℕ)
    (heap : ScriptHeap Class) :
    JSClass.instanceMethodWrapper cls this heap =
      match JSClass.enter cls (.object this) heap with
      | .entered (some self) => heap.enterMethod this self
      | _ => heap := by
  unfold JSClass.instanceMethodWrapper JSClass.enter
  simp only [Receiver.start]
  cases hlookup : heap.getPropString this (.identifier cls) with
  | absent => rfl
  | chainLimit => rfl
  | found holder value => cases value <;> rfl

section Runs

variable {Class : Type} [DecidableEq Class]

/-- Every hidden pointer has been written by a constructor. -/
structure ConstructedPointers (heap : ScriptHeap Class)
    (created : List (Construction Class)) : Prop where
  unallocated : ∀ object, heap.nextObject ≤ object → heap.objects object = none
  pointers : ∀ holder cls value,
    heap.objects.own holder (.identifier cls) = some value →
    ∃ self, value = .pointer self ∧ (holder, cls, self) ∈ created

omit [DecidableEq Class] in
theorem initial_constructedPointers :
    ConstructedPointers (ScriptHeap.initial : ScriptHeap Class) [] := by
  constructor
  · simp [ScriptHeap.initial]
  · simp [ScriptHeap.initial, Heap.own]

variable {heap next : ScriptHeap Class} {created : List (Construction Class)}

omit [DecidableEq Class] in
theorem ConstructedPointers.congr
    (hinv : ConstructedPointers heap created)
    (hunallocated : ∀ object, next.nextObject ≤ object → next.objects object = none)
    (hown : ∀ holder cls value,
      next.objects.own holder (.identifier cls) = some value →
      heap.objects.own holder (.identifier cls) = some value) :
    ConstructedPointers next created :=
  ⟨hunallocated, fun holder cls value hvalue =>
    hinv.pointers holder cls value (hown holder cls value hvalue)⟩

theorem ConstructedPointers.constructor
    (hinv : ConstructedPointers heap created) (cls : Class) (prototype : Option ℕ) :
    ConstructedPointers (JSClass.constructor cls prototype heap)
      (created ++ [(heap.nextObject, cls, heap.nextNative)]) := by
  constructor
  · intro object hobject
    have hlt : heap.nextObject + 1 ≤ object := hobject
    have hne : object ≠ heap.nextObject := by omega
    have hempty := hinv.unallocated object (by omega)
    simp [JSClass.constructor, ScriptHeap.putOwn, ScriptHeap.allocateNative,
      ScriptHeap.create, Heap.setOwn, Heap.allocate, hne, hempty]
  · intro holder other value hvalue
    rw [constructor_own] at hvalue
    by_cases hholder : holder = heap.nextObject
    · rw [if_pos hholder] at hvalue
      by_cases hcls : other = cls
      · subst hcls
        rw [if_pos rfl, Option.some.injEq] at hvalue
        subst hvalue
        exact ⟨heap.nextNative, rfl, by simp [hholder]⟩
      · simp [hcls] at hvalue
    · rw [if_neg hholder] at hvalue
      obtain ⟨self, hself, hmem⟩ := hinv.pointers holder other value hvalue
      exact ⟨self, hself, List.mem_append_left _ hmem⟩

omit [DecidableEq Class] in
theorem ConstructedPointers.create
    (hinv : ConstructedPointers heap created) (prototype : Option ℕ) :
    ConstructedPointers (heap.create prototype) created := by
  apply hinv.congr
  · intro object hobject
    have hlt : heap.nextObject + 1 ≤ object := hobject
    have hne : object ≠ heap.nextObject := by omega
    have hempty := hinv.unallocated object (by omega)
    simpa [ScriptHeap.create, Heap.allocate, hne] using hempty
  · intro holder cls value hvalue
    rw [ScriptHeap.create, Heap.own_allocate] at hvalue
    by_cases hholder : holder = heap.nextObject
    · simp [hholder] at hvalue
    · simpa [hholder] using hvalue

theorem ConstructedPointers.putOwn_none
    (hinv : ConstructedPointers heap created) (object : ℕ) (key : HiddenKey Class) :
    ConstructedPointers (heap.putOwn object key none) created := by
  apply hinv.congr
  · intro other hother
    have hempty := hinv.unallocated other hother
    by_cases heq : other = object
    · subst other
      simp [ScriptHeap.putOwn, Heap.setOwn, hempty]
    · simpa [ScriptHeap.putOwn, Heap.setOwn, heq] using hempty
  · intro holder cls value hvalue
    exact Heap.own_of_setOwn_none hvalue

omit [DecidableEq Class] in
theorem ConstructedPointers.deleteNative
    (hinv : ConstructedPointers heap created) (self : Option ℕ) :
    ConstructedPointers (heap.deleteNative self) created := by
  cases self with
  | none => exact hinv
  | some self => exact ⟨hinv.unallocated, hinv.pointers⟩

theorem ConstructedPointers.finalizer
    (hinv : ConstructedPointers heap created) (cls : Class) (object : ℕ) :
    ConstructedPointers (JSClass.finalizer cls object heap) created := by
  unfold JSClass.finalizer
  split
  · exact hinv
  · exact (hinv.putOwn_none object _).deleteNative _

theorem ConstructedPointers.runFinalizer
    (hinv : ConstructedPointers heap created) (object : ℕ) :
    ConstructedPointers (runFinalizer object heap) created := by
  have hmarked : ConstructedPointers
      { heap with finalized := Function.update heap.finalized object true }
      created :=
    ⟨hinv.unallocated, hinv.pointers⟩
  unfold NekoScript.runFinalizer
  dsimp only
  split
  · exact hmarked.finalizer _ object
  · exact hmarked

theorem ConstructedPointers.callFinalizer
    (hinv : ConstructedPointers heap created) (cls : Class) (argument : Receiver) :
    ConstructedPointers (JSClass.callFinalizer cls argument heap) created := by
  unfold JSClass.callFinalizer
  cases argument with
  | nullish => exact hinv
  | object id => exact hinv.finalizer cls id
  | primitive prototype =>
      dsimp only
      split
      · exact hinv
      · exact hinv.deleteNative _

/-- Only constructors write pointers. -/
theorem ConstructedPointers.heapStep
    (hinv : ConstructedPointers heap created) {action : HeapAction Class}
    (hstep : heapStep heap action = some next) :
    ConstructedPointers next
      (created ++ (ReceiverAction.heap action).constructs heap) := by
  cases action with
  | construct cls prototype =>
      simp only [NekoScript.heapStep, Option.ite_none_right_eq_some,
        Option.some.injEq] at hstep
      rcases hstep with ⟨_, rfl⟩
      exact hinv.constructor cls prototype
  | create prototype =>
      simp only [NekoScript.heapStep, Option.ite_none_right_eq_some,
        Option.some.injEq] at hstep
      rcases hstep with ⟨_, rfl⟩
      simpa [ReceiverAction.constructs] using hinv.create prototype
  | setPrototype object prototype =>
      simp only [NekoScript.heapStep, Option.ite_none_right_eq_some,
        Option.some.injEq] at hstep
      rcases hstep with ⟨_, rfl⟩
      simp only [ReceiverAction.constructs, List.append_nil]
      apply hinv.congr
      · intro other hother
        have hempty := hinv.unallocated other hother
        by_cases heq : other = object
        · subst other
          simp [Heap.setPrototype, hempty]
        · simpa [Heap.setPrototype, heq] using hempty
      · intro holder cls value hvalue
        rw [Heap.own_setPrototype] at hvalue
        exact hvalue
  | reference object =>
      simp only [NekoScript.heapStep, Option.ite_none_right_eq_some,
        Option.some.injEq] at hstep
      rcases hstep with ⟨_, rfl⟩
      simp only [ReceiverAction.constructs, List.append_nil]
      exact ⟨hinv.unallocated, hinv.pointers⟩
  | drop object =>
      simp only [NekoScript.heapStep, Option.ite_none_left_eq_some,
        Option.some.injEq] at hstep
      rcases hstep with ⟨_, rfl⟩
      simp only [ReceiverAction.constructs, List.append_nil]
      exact ⟨hinv.unallocated, hinv.pointers⟩
  | callMethod cls this =>
      simp only [NekoScript.heapStep, Option.ite_none_right_eq_some,
        Option.some.injEq] at hstep
      rcases hstep with ⟨_, rfl⟩
      simp only [ReceiverAction.constructs, List.append_nil]
      unfold JSClass.instanceMethodWrapper
      split
      · exact hinv
      · exact ⟨hinv.unallocated, hinv.pointers⟩
  | returnMethod =>
      simp only [NekoScript.heapStep, Option.ite_none_right_eq_some,
        Option.some.injEq] at hstep
      rcases hstep with ⟨_, rfl⟩
      simp only [ReceiverAction.constructs, List.append_nil]
      exact ⟨hinv.unallocated, hinv.pointers⟩
  | finalize object =>
      simp only [NekoScript.heapStep, Option.ite_none_right_eq_some,
        Option.some.injEq] at hstep
      rcases hstep with ⟨_, rfl⟩
      simp only [ReceiverAction.constructs, List.append_nil]
      exact hinv.runFinalizer object
  | rescue object =>
      simp only [NekoScript.heapStep, Option.ite_none_right_eq_some,
        Option.some.injEq] at hstep
      rcases hstep with ⟨_, rfl⟩
      simp only [ReceiverAction.constructs, List.append_nil]
      exact ⟨hinv.unallocated, hinv.pointers⟩
  | free object =>
      simp only [NekoScript.heapStep, Option.ite_none_right_eq_some,
        Option.some.injEq] at hstep
      rcases hstep with ⟨_, rfl⟩
      simp only [ReceiverAction.constructs, List.append_nil]
      apply hinv.congr
      · intro other hother
        have hempty := hinv.unallocated other hother
        by_cases heq : other = object
        · subst other
          simp [Heap.free]
        · simpa [Heap.free, heq] using hempty
      · intro holder cls value hvalue
        rw [Heap.own_free] at hvalue
        by_cases heq : holder = object
        · simp [heq] at hvalue
        · simpa [heq] using hvalue
  | destroyHeap =>
      simp only [NekoScript.heapStep, Option.ite_none_left_eq_some,
        Option.some.injEq] at hstep
      rcases hstep with ⟨_, rfl⟩
      simp only [ReceiverAction.constructs, List.append_nil]
      exact ⟨hinv.unallocated, hinv.pointers⟩

theorem ConstructedPointers.step
    (hinv : ConstructedPointers heap created) {action : ReceiverAction Class}
    (hstep : receiverStep heap action = some next) :
    ConstructedPointers next (created ++ action.constructs heap) := by
  cases action with
  | heap action => exact hinv.heapStep hstep
  | callFinalizer cls argument =>
      simp only [receiverStep, Option.ite_none_right_eq_some, Option.some.injEq]
        at hstep
      rcases hstep with ⟨_, rfl⟩
      simpa [ReceiverAction.constructs] using hinv.callFinalizer cls argument

theorem ConstructedPointers.run
    {actions : List (ReceiverAction Class)} {final : ScriptHeap Class}
    (hinv : ConstructedPointers heap created)
    (hrun : run receiverStep heap actions = some final) :
    ConstructedPointers final (created ++ constructions heap actions) := by
  induction actions generalizing heap created with
  | nil =>
      rw [run_nil, Option.some.injEq] at hrun
      subst final
      simpa [constructions] using hinv
  | cons action actions ih =>
      cases hstep : receiverStep heap action with
      | none => simp [GuardedRuns.run, hstep] at hrun
      | some next =>
          rw [run_cons hstep] at hrun
          have hnext := ih (hinv.step hstep) hrun
          simpa [constructions, hstep] using hnext

end Runs

/-! ## The check of the receiver -/

section Check

variable {heap : ScriptHeap ClassName} {created : List (Construction ClassName)}
  {method : RegisteredMethod} {receiver : Receiver}

theorem ConstructedPointers.ownPointer_eq_none_iff
    (hinv : ConstructedPointers heap created) (holder : ℕ) (cls : ClassName) :
    heap.ownPointer (holder, cls) = none ↔
      heap.objects.own holder (.identifier cls) = none := by
  cases hown : heap.objects.own holder (.identifier cls) with
  | none => simp [ScriptHeap.ownPointer, hown]
  | some value =>
      obtain ⟨self, hself, -⟩ := hinv.pointers holder cls value hown
      simp [ScriptHeap.ownPointer, hown, hself]

theorem receiverChecked_iff
    (hinv : ConstructedPointers heap created) :
    ReceiverChecked created heap method receiver ↔
      FindsNative heap method receiver := by
  unfold ReceiverChecked JSClass.enter FindsNative
  cases hstart : receiver.start with
  | none => simp
  | some object =>
      have hfinds : (∀ start, some object = some start →
          (heap.objects.chain (prototypeChainSanity + 1) start).length =
              prototypeChainSanity + 1 ∨
            ∃ holder ∈ heap.objects.chain (prototypeChainSanity + 1) start,
              heap.ownPointer (holder, method.cls) ≠ none) ↔
          heap.getPropString object (.identifier method.cls) ≠ .absent := by
        rw [ScriptHeap.getPropString, Ne, Heap.lookup_eq_absent_iff]
        simp only [Option.some.injEq, forall_eq', ne_eq,
          hinv.ownPointer_eq_none_iff]
        by_cases hlength : (heap.objects.chain (prototypeChainSanity + 1) object).length =
            prototypeChainSanity + 1
        · simp [hlength]
        · simp [hlength]
      rw [hfinds]
      dsimp only
      cases hlookup : heap.getPropString object (.identifier method.cls) with
      | chainLimit => simp
      | absent => simp [ScriptHeap.getPointer]
      | found holder value =>
          obtain ⟨self, hself, hmem⟩ :=
            hinv.pointers holder method.cls value (Heap.own_of_lookup hlookup)
          subst hself
          refine iff_of_true ?_ (by simp)
          exact ⟨object, _, holder, rfl, Heap.mem_chain_of_lookup hlookup, hmem⟩

end Check

/-- In every state that a script can bring about, a registered method is
entered with a native of its own class if and only if there is one within the
limit of the receiver's prototype chain, or the lookup itself fails. -/
theorem receiverChecked_iff_findsNative
    (actions : List (ReceiverAction ClassName)) (heap : ScriptHeap ClassName)
    (hrun : run receiverStep ScriptHeap.initial actions = some heap)
    (method : RegisteredMethod) (this : Receiver) (currentFunction : ℕ) :
    ReceiverChecked (constructions ScriptHeap.initial actions) heap method
        (method.oper this currentFunction) ↔
      FindsNative heap method (method.oper this currentFunction) := by
  have hinv := initial_constructedPointers.run hrun
  rw [List.nil_append] at hinv
  exact receiverChecked_iff hinv

/-- A dialog and its prototype. -/
def oneDialog : List (ReceiverAction ClassName) :=
  [.heap (.create none), .heap (.construct .nkWinTaskDialog (some 0))]

theorem receiverChecked_oneDialog :
    ∃ heap, run receiverStep ScriptHeap.initial oneDialog = some heap ∧
      ReceiverChecked (constructions ScriptHeap.initial oneDialog) heap .show
        (.object 1) := by
  have hsome : (run receiverStep ScriptHeap.initial oneDialog).isSome := by decide
  obtain ⟨heap, hrun⟩ := Option.isSome_iff_exists.mp hsome
  have hpointer : (run receiverStep ScriptHeap.initial oneDialog).map
      (fun heap => heap.ownPointer (1, .nkWinTaskDialog)) = some (some 0) := by decide
  rw [hrun, Option.map_some, Option.some.injEq] at hpointer
  refine ⟨heap, hrun, ?_⟩
  apply (receiverChecked_iff_findsNative oneDialog heap hrun .show (.object 1) 0).mpr
  intro object hstart
  obtain rfl : 1 = object := Option.some.inj hstart
  have hown := ScriptHeap.own_of_ownPointer hpointer
  have hmem := Heap.mem_chain_of_lookup
    (Heap.lookup_eq_of_own hown prototypeChainSanity)
  refine Or.inr ⟨1, hmem, ?_⟩
  change heap.ownPointer (1, .nkWinTaskDialog) ≠ none
  simp [hpointer]

/-- `NKWinTaskDialog.prototype.show()` enters `Show` without a native. -/
theorem not_receiverChecked_prototype :
    ¬ ∀ (actions : List (ReceiverAction ClassName)) (heap : ScriptHeap ClassName),
      run receiverStep ScriptHeap.initial actions = some heap →
      ∀ (method : RegisteredMethod) (this : Receiver) (currentFunction : ℕ),
        ReceiverChecked (constructions ScriptHeap.initial actions) heap method
          (method.oper this currentFunction) := by
  intro hchecked
  have hsome : (run receiverStep ScriptHeap.initial oneDialog).isSome := by decide
  obtain ⟨heap, hrun⟩ := Option.isSome_iff_exists.mp hsome
  have hentered : (run receiverStep ScriptHeap.initial oneDialog).map
      (fun heap => JSClass.enter ClassName.nkWinTaskDialog (.object 0) heap) =
        some (.entered none) := by decide
  rw [hrun, Option.map_some, Option.some.injEq] at hentered
  have hshow := hchecked oneDialog heap hrun .show (.object 0) 0
  change ReceiverChecked _ heap .show (.object 0) at hshow
  unfold ReceiverChecked at hshow
  change (match JSClass.enter ClassName.nkWinTaskDialog (.object 0) heap with
    | .raised => True
    | .entered none => False
    | .entered (some self) => _) at hshow
  rw [hentered] at hshow
  exact hshow

end NekoScript
