import NekoScript.EnvironmentBlock
import NekoScript.Registries
import NekoScript.ReentrantCalls
import NekoScript.ValueStack
import Mathlib.Tactic

/-!
# `EventEmitter`

The methods of `init_EventEmitter.js` on a heap of emitters, objects of events
and arrays of listeners.  The property `_events` is read through the prototype
of an emitter and written to the emitter itself.  A listener runs in the middle
of `emitEvent`; it may call any method of any emitter, and it may throw.
-/

namespace NekoScript

open Programs ReentrantCalls PrototypeChain Registries

namespace EventEmitter

/-- An object `{ listener, once }`. -/
abbrev ListenerObject := Registration ℕ

/-- The name of an event, or a RegExp without the flag `g`: its `test` depends on
the key alone. -/
inductive Selector where
  | string (evt : DukString)
  | regExp (test : DukString → Bool)

/-- The argument `listener`: a function, or an object that is stored as it is. -/
inductive ListenerArgument where
  | function (id : ℕ)
  | wrapped (object : ListenerObject)
  deriving DecidableEq

inductive EmitterKey where
  | events
  | onceReturnValue
  deriving DecidableEq

inductive EmitterValue where
  | events (table : ℕ)
  | value (value : JSValue)
  deriving DecidableEq

structure EmitterWorld where
  objects : Heap EmitterKey EmitterValue
  nextObject : ℕ
  /-- The own properties of the objects of events, in order. -/
  tables : ℕ → List (DukString × ℕ)
  nextTable : ℕ
  arrays : ℕ → List ListenerObject
  nextArray : ℕ

/-- `EventEmitter.prototype` -/
def prototypeId : ℕ := 0

def EmitterWorld.initial : EmitterWorld where
  objects := Heap.allocate (fun _ => none) prototypeId none
  nextObject := 1
  tables := fun _ => []
  nextTable := 0
  arrays := fun _ => []
  nextArray := 0

/-- What an object `{}` inherits. -/
def inheritedKeys : List DukString := protoKey :: objectPrototypeMethods

/-! ## Listeners -/

/-- `listener === argument` -/
def ListenerArgument.is (argument : ListenerArgument) (listener : ℕ) : Bool :=
  match argument with
  | .function id => listener = id
  | .wrapped _ => false

def ListenerArgument.object : ListenerArgument → ListenerObject
  | .function id => ⟨id, false⟩
  | .wrapped object => object

/-- The loop of `indexOfListener`, which counts down. -/
def indexBelow (listeners : List ListenerObject) (argument : ListenerArgument) :
    ℕ → Option ℕ
  | 0 => none
  | i + 1 =>
      if (listeners[i]?.map fun object => argument.is object.listener) = some true then some i
      else indexBelow listeners argument i

def indexOfListener (listeners : List ListenerObject) (argument : ListenerArgument) :
    Option ℕ :=
  indexBelow listeners argument listeners.length

/-- The body of the loop of `addListener`. -/
def pushUnlessPresent (argument : ListenerArgument) (listeners : List ListenerObject) :
    List ListenerObject :=
  match indexOfListener listeners argument with
  | some _ => listeners
  | none => listeners ++ [argument.object]

/-- The body of the loop of `removeListener`. -/
def spliceListener (argument : ListenerArgument) (listeners : List ListenerObject) :
    List ListenerObject :=
  match indexOfListener listeners argument with
  | some index => listeners.eraseIdx index
  | none => listeners

/-! ## Methods -/

/-- What `getListeners` returns. -/
inductive Listeners where
  | array (id : ℕ)
  | object (properties : List (DukString × ℕ))
  /-- What the object of events inherits under the name. -/
  | inherited

namespace EmitterWorld

variable (w : EmitterWorld)

def setEvents (this table : ℕ) : EmitterWorld :=
  { w with objects := w.objects.setOwn this .events (some (.events table)) }

/-- `_getEvents` -/
def getEvents (this : ℕ) : Option (ℕ × EmitterWorld) :=
  match w.objects.lookup .events prototypeChainSanity this with
  | .found _ (.events table) => some (table, w)
  | .absent =>
      some (w.nextTable,
        { w.setEvents this w.nextTable with
          tables := Function.update w.tables w.nextTable []
          nextTable := w.nextTable + 1 })
  | _ => none

/-- `events[evt] = []` -/
def addEvent (table : ℕ) (evt : DukString) : EmitterWorld :=
  { w with
    tables := Function.update w.tables table (w.tables table ++ [(evt, w.nextArray)])
    arrays := Function.update w.arrays w.nextArray []
    nextArray := w.nextArray + 1 }

def getListeners (this : ℕ) (evt : Selector) : Option (Listeners × EmitterWorld) :=
  (w.getEvents this).map fun (table, w) =>
    match evt with
    | .regExp test => (.object ((w.tables table).filter fun event => test event.1), w)
    | .string evt =>
        match (w.tables table).lookup evt with
        | some array => (.array array, w)
        | none =>
            if inheritedKeys.contains evt then (.inherited, w)
            else (.array w.nextArray, w.addEvent table evt)

/-- What `for (key in …)` finds in the result of `getListenersAsObject`. -/
def Listeners.properties (evt : Selector) : Listeners → List (DukString × ℕ)
  | .array id =>
      match evt with
      | .string evt => [(evt, id)]
      | .regExp _ => []
  | .object properties => properties
  | .inherited => []

def getListenersAsObject (this : ℕ) (evt : Selector) :
    Option (List (DukString × ℕ) × EmitterWorld) :=
  (w.getListeners this evt).map fun (listeners, w) =>
    (Listeners.properties evt listeners, w)

def setArray (array : ℕ) (listeners : List ListenerObject) : EmitterWorld :=
  { w with arrays := Function.update w.arrays array listeners }

/-- `addListener` and `removeListener`, which differ in what they do to an
array. -/
def changeListeners (this : ℕ) (evt : Selector)
    (change : List ListenerObject → List ListenerObject) : Option EmitterWorld :=
  (w.getListenersAsObject this evt).map fun (listeners, w) =>
    listeners.foldl (fun w event => w.setArray event.2 (change (w.arrays event.2))) w

def addListener (this : ℕ) (evt : Selector) (listener : ListenerArgument) :
    Option EmitterWorld :=
  w.changeListeners this evt (pushUnlessPresent listener)

def addOnceListener (this : ℕ) (evt : Selector) (listener : ℕ) : Option EmitterWorld :=
  w.addListener this evt (.wrapped ⟨listener, true⟩)

def removeListener (this : ℕ) (evt : Selector) (listener : ListenerArgument) :
    Option EmitterWorld :=
  w.changeListeners this evt (spliceListener listener)

def defineEvent (this : ℕ) (evt : DukString) : Option EmitterWorld :=
  (w.getListeners this (.string evt)).map Prod.snd

def defineEvents (this : ℕ) (evts : List DukString) : Option EmitterWorld :=
  evts.foldlM (fun w evt => w.defineEvent this evt) w

/-- `this.removeListener` or `this.addListener` -/
def single (remove : Bool) (this : ℕ) (evt : Selector) (listener : ListenerArgument) :
    Option EmitterWorld :=
  if remove then w.removeListener this evt listener else w.addListener this evt listener

/-- `manipulateListeners` with an array, which is gone through from its end. -/
def manipulateArray (remove : Bool) (this : ℕ) (evt : Selector)
    (listeners : List ListenerArgument) : Option EmitterWorld :=
  listeners.reverse.foldlM (fun w listener => w.single remove this evt listener) w

end EmitterWorld

/-- A property of the object that `manipulateListeners` takes. -/
inductive BulkValue where
  | function (id : ℕ)
  | array (listeners : List ListenerArgument)

namespace EmitterWorld

variable (w : EmitterWorld)

def manipulateProperty (remove : Bool) (this : ℕ) (evt : DukString) :
    BulkValue → Option EmitterWorld
  | .function id => w.single remove this (.string evt) (.function id)
  | .array listeners => w.manipulateArray remove this (.string evt) listeners

/-- `manipulateListeners` with an object. -/
def manipulateObject (remove : Bool) (this : ℕ) (properties : List (DukString × BulkValue)) :
    Option EmitterWorld :=
  properties.foldlM (fun w property =>
    w.manipulateProperty remove this property.1 property.2) w

def filterEvents (table : ℕ) (keep : DukString → Bool) : EmitterWorld :=
  { w with
    tables := Function.update w.tables table
      ((w.tables table).filter fun event => keep event.1) }

def removeEvent (this : ℕ) (evt : Option Selector) : Option EmitterWorld :=
  (w.getEvents this).map fun (table, w) =>
    match evt with
    | some (.string evt) => w.filterEvents table (· ≠ evt)
    | some (.regExp test) => w.filterEvents table fun evt => !test evt
    | none => { w with objects := w.objects.setOwn this .events none }

def setOnceReturnValue (this : ℕ) (value : JSValue) : EmitterWorld :=
  { w with objects := w.objects.setOwn this .onceReturnValue (some (.value value)) }

/-- `_getOnceReturnValue` -/
def getOnceReturnValue (this : ℕ) : JSValue :=
  match w.objects.own this .onceReturnValue with
  | some (.value value) => value
  | _ => .boolean true

end EmitterWorld

/-- The methods that call no listener. -/
inductive EmitterMethod where
  | addListener (evt : Selector) (listener : ListenerArgument)
  | addOnceListener (evt : Selector) (listener : ℕ)
  | removeListener (evt : Selector) (listener : ListenerArgument)
  | getListeners (evt : Selector)
  | defineEvents (evts : List DukString)
  | manipulateArray (remove : Bool) (evt : Selector) (listeners : List ListenerArgument)
  | manipulateObject (remove : Bool) (properties : List (DukString × BulkValue))
  | removeEvent (evt : Option Selector)
  | setOnceReturnValue (value : JSValue)

def EmitterMethod.run (w : EmitterWorld) (this : ℕ) : EmitterMethod → Option EmitterWorld
  | .addListener evt listener => w.addListener this evt listener
  | .addOnceListener evt listener => w.addOnceListener this evt listener
  | .removeListener evt listener => w.removeListener this evt listener
  | .getListeners evt => (w.getListeners this evt).map Prod.snd
  | .defineEvents evts => w.defineEvents this evts
  | .manipulateArray remove evt listeners => w.manipulateArray remove this evt listeners
  | .manipulateObject remove properties => w.manipulateObject remove this properties
  | .removeEvent evt => w.removeEvent this evt
  | .setOnceReturnValue value => some (w.setOnceReturnValue this value)

/-! ## Emission -/

inductive EmitterOp where
  | method (this : ℕ) (method : EmitterMethod)
  | getListenersAsObject (this : ℕ) (evt : Selector)
  | slice (array : ℕ)
  | removeListener (this : ℕ) (evt : Selector) (listener : ℕ)
  /-- `evt` is what is emitted. -/
  | apply (this : ℕ) (evt : Selector) (listener : ListenerObject) (args : List JSValue)
  /-- The listener runs, up to its return. -/
  | returns
  | getOnceReturnValue (this : ℕ)

def EmitterOp.Answer : EmitterOp → Type
  | .getListenersAsObject _ _ => List (DukString × ℕ)
  | .slice _ => List ListenerObject
  | .returns | .getOnceReturnValue _ => JSValue
  | _ => Unit

abbrev EmitterProgram := Program EmitterOp EmitterOp.Answer

/-- The operator `===`. -/
def strictEquals : JSValue → JSValue → Bool
  | .number .nan, _ => false
  | value, other => value = other

/-- `if (condition) this.removeListener(evt, listener)` -/
def removeIf (condition : Bool) (this : ℕ) (evt : Selector) (listener : ℕ) :
    EmitterProgram Unit :=
  if condition then .perform (.removeListener this evt listener) .pure else .pure ()

/-- The body of the inner loop of `emitEvent`. -/
def callListener (this : ℕ) (evt : Selector) (args : List JSValue)
    (listener : ListenerObject) : EmitterProgram Unit := do
  removeIf listener.once this evt listener.listener
  .perform (.apply this evt listener args) .pure
  let response : JSValue ← .perform .returns .pure
  let value : JSValue ← .perform (.getOnceReturnValue this) .pure
  removeIf (strictEquals response value) this evt listener.listener

/-- `emitEvent`.  The copy of an array is gone through from its end. -/
def emitEvent (this : ℕ) (evt : Selector) (args : List JSValue) : EmitterProgram Unit := do
  let listenersMap : List (DukString × ℕ) ← .perform (.getListenersAsObject this evt) .pure
  listenersMap.forM fun event => do
    let listeners : List ListenerObject ← .perform (.slice event.2) .pure
    listeners.reverse.forM (callListener this evt args)

inductive EmitterCall where
  | method (this : ℕ) (method : EmitterMethod)
  /-- `emitEvent`, `trigger` or `emit`. -/
  | emitEvent (this : ℕ) (evt : Selector) (args : List JSValue)

def EmitterCall.this : EmitterCall → ℕ
  | .method this _ => this
  | .emitEvent this _ _ => this

def EmitterCall.body : EmitterCall → EmitterProgram Unit
  | .method this called => .perform (.method this called) .pure
  | .emitEvent this evt args => EventEmitter.emitEvent this evt args

/-- The listeners that an emission under this name would find. -/
def EmitterWorld.listenersOf (w : EmitterWorld) (this : ℕ) (evt : DukString) :
    List ListenerObject :=
  match w.objects.lookup .events prototypeChainSanity this with
  | .found _ (.events table) => (((w.tables table).lookup evt).map w.arrays).getD []
  | _ => []

structure AppliedListener where
  this : ℕ
  listener : ℕ
  args : List JSValue
  deriving DecidableEq

/-- For statements about runs: the listeners when the emission began, the
copies of arrays and the calls it has made since, the last ones first. -/
structure EmissionLocals where
  start : List ListenerObject
  copies : List (List ListenerObject)
  called : List AppliedListener

def EmitterCall.start (w : EmitterWorld) : EmitterCall → List ListenerObject
  | .emitEvent this (.string evt) _ => w.listenersOf this evt
  | _ => []

/-- `Object.create(prototype)`, or a constructor with this prototype. -/
structure CreateObject where
  prototype : ℕ

def EmitterWorld.create (w : EmitterWorld) (action : CreateObject) : Option EmitterWorld :=
  if action.prototype < w.nextObject then
    some { w with
      objects := w.objects.allocate w.nextObject (some action.prototype)
      nextObject := w.nextObject + 1 }
  else none

def emitterEffect : (op : EmitterOp) → EmitterWorld → EmissionLocals →
    Option (op.Answer × EmitterWorld × EmissionLocals)
  | .method this method, w, l => (method.run w this).map fun w => ((), w, l)
  | .getListenersAsObject this evt, w, l =>
      (w.getListenersAsObject this evt).map fun (listeners, w) => (listeners, w, l)
  | .slice array, w, l =>
      some (w.arrays array, w, { l with copies := w.arrays array :: l.copies })
  | .removeListener this evt listener, w, l =>
      (w.removeListener this evt (.function listener)).map fun w => ((), w, l)
  | .apply this _ listener args, w, l =>
      some ((), w, { l with called := ⟨this, listener.listener, args⟩ :: l.called })
  | .returns, _, _ => none
  | .getOnceReturnValue this, w, l => some (w.getOnceReturnValue this, w, l)

def EmitterOp.awaits : EmitterOp → Bool
  | .returns => true
  | _ => false

def emitterHost : Host EmitterCall EmitterOp EmitterOp.Answer Unit CreateObject
    EmitterWorld EmissionLocals where
  body := EmitterCall.body
  awaits := EmitterOp.awaits
  effect := emitterEffect
  resume := fun _ _ w l => some (w, l)
  throws := EmitterOp.awaits
  catches := EmitterOp.awaits
  enter := fun w _ _ call =>
    if call.this < w.nextObject then some (w, ⟨call.start w, [], []⟩) else none
  leave := fun _ _ w => w
  abandon := fun _ w => w
  external := EmitterWorld.create

end EventEmitter

end NekoScript
