import NekoScript.PrototypeChain
import NekoScript.ResourceOwnership
import NekoScript.GuardedRuns
import Mathlib.Tactic

/-!
# Objects of `JSClass<T>`

`JSClass<T>::constructor` stores the native `T*` under an ordinary hidden
property and installs `JSClass<T>::finalizer` as the object's finalizer.  Both
are found through the prototype chain, while `duk_del_prop_string` removes an
own property only.  This file models the script-visible operations on such
objects, the calls of their methods and the collector steps that run finalizers.
-/

namespace NekoScript

open PrototypeChain ResourceOwnership

/-- The classes that `InitDuktapeContext` sets up. -/
inductive ClassName where
  | nkWinAPI
  | nkWinVersionInfo
  | nkWinTaskDialog
  deriving DecidableEq, Repr

/-- The hidden properties of a script object that `JSClass` uses; the template
argument `T` ranges over `Class`. -/
inductive HiddenKey (Class : Type) where
  | identifier (cls : Class)
  | intFinalizer
  deriving DecidableEq, Repr

inductive HiddenValue (Class : Type) where
  | pointer (self : ℕ)
  | finalizer (cls : Class)
  deriving DecidableEq, Repr

def prototypeChainSanity : ℕ := 10000

/-- A method that has been entered and has not returned: the `this` of its
activation, and the native it runs on. -/
structure RunningMethod where
  this : ℕ
  self : ℕ
  deriving DecidableEq, Repr

/-- The script heap, the native allocator and what has happened to natives.
`roots` are the objects referenced from anywhere but a prototype link of
another object or a running method: script variables, the value stack,
properties of live objects. -/
structure ScriptHeap (Class : Type) where
  objects : Heap (HiddenKey Class) (HiddenValue Class)
  finalized : ℕ → Bool
  roots : List ℕ
  running : List RunningMethod
  nextObject : ℕ
  nextNative : ℕ
  destroying : Bool
  history : History ℕ

namespace ScriptHeap

variable {Class : Type}

def initial : ScriptHeap Class where
  objects := fun _ => none
  finalized := fun _ => false
  roots := []
  running := []
  nextObject := 0
  nextNative := 0
  destroying := false
  history := []

variable [DecidableEq Class] (heap : ScriptHeap Class)

/-- An activation keeps its `this` alive. -/
def reachable (object : ℕ) : Bool :=
  (heap.running.map RunningMethod.this ++ heap.roots).any fun root =>
    object ∈ heap.objects.chain heap.nextObject root

def getPropString (object : ℕ) (key : HiddenKey Class) :
    Lookup (HiddenValue Class) :=
  heap.objects.lookup key prototypeChainSanity object

/-- `duk_put_prop_string` and `duk_del_prop_string` with a hidden key. -/
def putOwn (object : ℕ) (key : HiddenKey Class)
    (value : Option (HiddenValue Class)) : ScriptHeap Class :=
  { heap with objects := heap.objects.setOwn object key value }

/-- `duk_get_pointer`: anything but a pointer reads as null. -/
def getPointer : Lookup (HiddenValue Class) → Option ℕ
  | .found _ (.pointer self) => some self
  | _ => none

def create (prototype : Option ℕ) : ScriptHeap Class :=
  { heap with
    objects := heap.objects.allocate heap.nextObject prototype
    roots := heap.nextObject :: heap.roots
    nextObject := heap.nextObject + 1 }

def allocateNative : ScriptHeap Class :=
  { heap with
    nextNative := heap.nextNative + 1
    history := .acquired heap.nextNative :: heap.history }

def deleteNative : Option ℕ → ScriptHeap Class
  | none => heap
  | some self => { heap with history := .released self :: heap.history }

def enterMethod (this self : ℕ) : ScriptHeap Class :=
  { heap with
    running := ⟨this, self⟩ :: heap.running
    history := .used self :: heap.history }

/-- The method entered last returns or throws. -/
def leaveMethod : ScriptHeap Class :=
  { heap with running := heap.running.tail }

end ScriptHeap

variable {Class : Type} [DecidableEq Class]

/-! ## `JSClass.h` -/

/-- `JSClass<T>::constructor`, in a constructor call. -/
def JSClass.constructor (cls : Class) (prototype : Option ℕ)
    (heap : ScriptHeap Class) : ScriptHeap Class :=
  let this := heap.nextObject
  let self := heap.nextNative
  (((heap.create prototype).allocateNative).putOwn
      this .intFinalizer (some (.finalizer cls))).putOwn
        this (.identifier cls) (some (.pointer self))

/-- `JSClass<T>::finalizer`.  The pointer is read through the prototype chain;
a chain over the engine's limit makes that read throw. -/
def JSClass.finalizer (cls : Class) (object : ℕ)
    (heap : ScriptHeap Class) : ScriptHeap Class :=
  match heap.getPropString object (.identifier cls) with
  | .chainLimit => heap
  | value =>
      (heap.putOwn object (.identifier cls) none).deleteNative
        (ScriptHeap.getPointer value)

/-- `JSClass<T>::instanceMethodWrapper`, up to the first statement of the method.
Without a pointer no method of a native runs. -/
def JSClass.instanceMethodWrapper (cls : Class) (this : ℕ)
    (heap : ScriptHeap Class) : ScriptHeap Class :=
  match ScriptHeap.getPointer (heap.getPropString this (.identifier cls)) with
  | none => heap
  | some self => heap.enterMethod this self

/-! ## The engine -/

/-- `duk_hobject_run_finalizer` with `duk__finalize_helper`. -/
def runFinalizer (object : ℕ) (heap : ScriptHeap Class) :
    ScriptHeap Class :=
  let heap := { heap with
    finalized := Function.update heap.finalized object true }
  match heap.getPropString object .intFinalizer with
  | .found _ (.finalizer cls) => JSClass.finalizer cls object heap
  | _ => heap

def hasFinalizer (object : ℕ) (heap : ScriptHeap Class) : Bool :=
  match heap.getPropString object .intFinalizer with
  | .found _ _ => true
  | _ => false

inductive HeapAction (Class : Type) where
  | construct (cls : Class) (prototype : Option ℕ)
  | create (prototype : Option ℕ)
  | setPrototype (object : ℕ) (prototype : Option ℕ)
  | reference (object : ℕ)
  | drop (object : ℕ)
  | callMethod (cls : Class) (this : ℕ)
  | returnMethod
  | finalize (object : ℕ)
  | rescue (object : ℕ)
  | free (object : ℕ)
  | destroyHeap
  deriving DecidableEq, Repr

/-- Script code names only reachable objects, and runs no more once the heap
is being destroyed.  While a method runs, the handlers it calls may do anything
else a script can do, and the collector may run.  The collector finalizes an
unreachable object once, frees it afterwards when no other object has it as
prototype, and forgets that it was finalized when it is reachable again.  Heap
destruction finalizes every object that has not been. -/
def heapStep (heap : ScriptHeap Class) :
    HeapAction Class → Option (ScriptHeap Class)
  | .construct cls prototype =>
      if !heap.destroying && prototype.all heap.reachable then
        some (JSClass.constructor cls prototype heap)
      else none
  | .create prototype =>
      if !heap.destroying && prototype.all heap.reachable then
        some (heap.create prototype)
      else none
  | .setPrototype object prototype =>
      -- `Object.setPrototypeOf` refuses a prototype loop
      if !heap.destroying && heap.reachable object &&
          prototype.all (fun parent => heap.reachable parent &&
            object ∉ heap.objects.chain heap.nextObject parent) then
        some { heap with
          objects := heap.objects.setPrototype object prototype }
      else none
  | .reference object =>
      if !heap.destroying && heap.reachable object then
        some { heap with roots := object :: heap.roots }
      else none
  | .drop object =>
      if heap.destroying then none
      else some { heap with roots := heap.roots.erase object }
  | .callMethod cls this =>
      if !heap.destroying && heap.reachable this then
        some (JSClass.instanceMethodWrapper cls this heap)
      else none
  | .returnMethod =>
      if heap.running ≠ [] then some heap.leaveMethod else none
  | .finalize object =>
      if (heap.destroying || !heap.reachable object) &&
          hasFinalizer object heap && !heap.finalized object then
        some (runFinalizer object heap)
      else none
  | .rescue object =>
      if !heap.destroying && heap.finalized object &&
          heap.reachable object then
        some { heap with
          finalized := Function.update heap.finalized object false }
      else none
  | .free object =>
      if !heap.destroying && !heap.reachable object &&
          (heap.finalized object || !hasFinalizer object heap) &&
          (List.range heap.nextObject).all (fun child =>
            ((heap.objects child).bind fun entry => entry.prototype) ≠
              some object) then
        some { heap with objects := heap.objects.free object }
      else none
  | .destroyHeap =>
      if heap.destroying ∨ heap.running ≠ [] then none
      else some { heap with destroying := true }

end NekoScript
