import NekoScript.DuktapeValues
import NekoScript.Programs
import Mathlib.Tactic

/-!
# The value stack as native code uses it

Native functions are programs over the operations of the Duktape API, each on
the value stack of a context, and over effects of their own.  Property reads,
string coercions of objects and calls run script code; what they come to is
left to the environment.
-/

namespace NekoScript

open Programs

/-- A `duk_context`: the main thread or a coroutine. -/
abbrev Context := ℕ

inductive JSValue where
  | undefined
  | null
  | boolean (value : Bool)
  | number (value : DukNumber)
  | string (value : DukString)
  | object (id : ℕ)
  | array (id : ℕ)
  | newObject
  | globalStash
  | eventEmitterEmit
  /-- A buffer, pointer or light function. -/
  | other (truthy : Bool)
  deriving DecidableEq

namespace JSValue

def isObject : JSValue → Bool
  | .object _ | .array _ | .newObject | .globalStash | .eventEmitterEmit => true
  | _ => false

def isArray : JSValue → Bool
  | .array _ => true
  | _ => false

def isNullOrUndefined : JSValue → Bool
  | .undefined | .null => true
  | _ => false

def toBoolean : JSValue → Bool
  | .undefined | .null => false
  | .boolean value => value
  | .number .nan => false
  | .number (.infinite _) => true
  | .number (.finite value) => value ≠ 0
  | .string value => 0 < value.length
  | .other truthy => truthy
  | _ => true

end JSValue

def DukNumber.coerceInt : DukNumber → ℤ
  | .nan => 0
  | .infinite negative => if negative then -0x80000000 else 0x7fffffff
  | .finite value =>
      if value < -0x80000000 then -0x80000000
      else if value > 0x7fffffff then 0x7fffffff
      else value.num.tdiv value.den

inductive PropKey where
  | name (name : String)
  | index (index : ℕ)
  /-- A name after a byte 0xFF, which scripts cannot spell. -/
  | hidden (name : String)
  deriving DecidableEq

inductive ThrownError where
  | api (error : JSError)
  | win32 (code : ℤ) (function : String)
  deriving DecidableEq

/-- The API operations that the natives use.  `index` counts from the bottom of
the current frame; the other operations are on its top. -/
inductive StackOp where
  | push (value : JSValue)
  | pushThis
  | dup (index : ℕ)
  | pop
  | swapTop
  | replaceTop (value : JSValue)
  | get (index : ℕ)
  | getTop
  /-- `duk_get_top` -/
  | count
  | getProp (key : PropKey)
  /-- `duk_to_string` of an object. -/
  | objectToString
  /-- `duk_to_string` of a number, buffer, pointer or light function. -/
  | scalarToString
  | getLength
  /-- `duk_call_method` up to the call. -/
  | callMethod (nargs : ℕ)
  /-- The rest of `duk_call_method`. -/
  | callResult
  | throw (error : ThrownError)

@[reducible] def StackOp.Answer : StackOp → Type
  | .get _ | .getTop | .getProp _ | .callResult => JSValue
  | .objectToString | .scalarToString => DukString
  | .getLength | .count => ℕ
  | .throw _ => Empty
  | _ => Unit

def StackOp.awaits : StackOp → Bool
  | .getProp _ | .objectToString | .scalarToString | .getLength | .callResult
  | .throw _ => true
  | _ => false

def StackOp.runsScript : StackOp → Bool
  | .getProp _ | .objectToString | .callResult => true
  | _ => false

def StackOp.calls : StackOp → Bool
  | .callMethod _ => true
  | _ => false

def StackOp.throws : StackOp → Bool
  | .throw _ => true
  | op => op.runsScript

abbrev ValueFrame := List JSValue

def ValueFrame.get (frame : ValueFrame) (index : ℕ) : JSValue :=
  (frame.reverse[index]?).getD .undefined

def StackOp.perform (this : JSValue) :
    (op : StackOp) → ValueFrame → Option (op.Answer × ValueFrame)
  | .push value, frame => some ((), value :: frame)
  | .pushThis, frame => some ((), this :: frame)
  | .dup index, frame => some ((), frame.get index :: frame)
  | .pop, _ :: frame => some ((), frame)
  | .swapTop, first :: second :: frame => some ((), second :: first :: frame)
  | .replaceTop value, _ :: frame => some ((), value :: frame)
  | .get index, frame => some (frame.get index, frame)
  | .getTop, top :: frame => some (top, top :: frame)
  | .count, frame => some (frame.length, frame)
  -- the arguments, `this` and the function are taken off the stack
  | .callMethod nargs, frame => some ((), frame.drop (nargs + 2))
  | _, _ => none

def StackOp.resume :
    (op : StackOp) → op.Answer → ValueFrame → Option ValueFrame
  | .getProp _, value, frame => some (value :: frame)
  | .objectToString, value, _ :: frame => some (.string value :: frame)
  | .scalarToString, value, _ :: frame => some (.string value :: frame)
  | .getLength, _, frame => some frame
  | .callResult, value, frame => some (value :: frame)
  | _, _, _ => none

inductive NativeOp (Effect : Type) where
  | stack (ctx : Context) (op : StackOp)
  | effect (e : Effect)

@[reducible] def NativeOp.Answer {Effect : Type} (EffectAnswer : Effect → Type) :
    NativeOp Effect → Type
  | .stack _ op => op.Answer
  | .effect e => EffectAnswer e

section Api

variable {Effect : Type} {EffectAnswer : Effect → Type}

variable (EffectAnswer) in
abbrev NativeProgram (α : Type) :=
  Program (NativeOp Effect) (NativeOp.Answer EffectAnswer) α

def stackOp (ctx : Context) (op : StackOp) :
    NativeProgram EffectAnswer op.Answer :=
  .perform (.stack ctx op) .pure

def effect (e : Effect) : NativeProgram EffectAnswer (EffectAnswer e) :=
  .perform (.effect e) .pure

def dukThrow {α : Type} (ctx : Context) (error : ThrownError) :
    NativeProgram EffectAnswer α :=
  .perform (.stack ctx (.throw error)) fun answer => Empty.elim answer

def dukToString (ctx : Context) : NativeProgram EffectAnswer DukString := do
  let value : JSValue ← stackOp ctx .getTop
  match value with
  | .undefined => replaceBy (lexerString "undefined".toList)
  | .null => replaceBy (lexerString "null".toList)
  | .boolean true => replaceBy (lexerString "true".toList)
  | .boolean false => replaceBy (lexerString "false".toList)
  | .string value => pure value
  | .number _ | .other _ => stackOp ctx .scalarToString
  | _ => stackOp ctx .objectToString
where
  replaceBy (text : DukString) : NativeProgram EffectAnswer DukString := do
    stackOp ctx (.replaceTop (.string text))
    pure text

def dukToBoolean (ctx : Context) : NativeProgram EffectAnswer Bool := do
  let value : JSValue ← stackOp ctx .getTop
  stackOp ctx (.replaceTop (.boolean value.toBoolean))
  pure value.toBoolean

def dukRequireBoolean (ctx : Context) (index : ℕ) :
    NativeProgram EffectAnswer Bool := do
  let value : JSValue ← stackOp ctx (.get index)
  match value with
  | .boolean value => pure value
  | _ => dukThrow ctx (.api (.requireType "boolean" index))

def dukRequireInt (ctx : Context) (index : ℕ) : NativeProgram EffectAnswer ℤ := do
  let value : JSValue ← stackOp ctx (.get index)
  match value with
  | .number value => pure value.coerceInt
  | _ => dukThrow ctx (.api (.requireType "number" index))

/-! ## Helper.cpp -/

/-- The string is copied up to its first NUL. -/
def jsGetPropString (ctx : Context) (key : PropKey) :
    NativeProgram EffectAnswer DukString := do
  let _ ← stackOp ctx (.getProp key)
  let result ← dukToString ctx
  stackOp ctx .pop
  pure (cString result)

/-- The overload that also tells whether the property is null or undefined. -/
def jsGetPropStringIsNull (ctx : Context) (key : PropKey) :
    NativeProgram EffectAnswer (DukString × Bool) := do
  let _ ← stackOp ctx (.getProp key)
  let value : JSValue ← stackOp ctx .getTop
  let result ← dukToString ctx
  stackOp ctx .pop
  pure (cString result, value.isNullOrUndefined)

def jsGetPropBoolean (ctx : Context) (key : PropKey) :
    NativeProgram EffectAnswer Bool := do
  let _ ← stackOp ctx (.getProp key)
  let result ← dukToBoolean ctx
  stackOp ctx .pop
  pure result

def jsThrowWin32Error {α : Type} (ctx : Context) (code : ℤ) (function : String) :
    NativeProgram EffectAnswer α :=
  dukThrow ctx (.win32 code function)

/-- `JSEventEmitter::putEmitOnStack`; the stash is out of reach of scripts. -/
def putEmitOnStack (ctx : Context) : NativeProgram EffectAnswer Unit := do
  stackOp ctx (.push .globalStash)
  stackOp ctx (.push .eventEmitterEmit)
  stackOp ctx .swapTop
  stackOp ctx .pop

/-! ## These programs use the value stack only, and call nothing -/

variable {ctx : Context} {P : NativeOp Effect → Prop}
  (hP : ∀ op : StackOp, op.calls = false → P (.stack ctx op))

include hP

theorem all_stackOp (op : StackOp) (hop : op.calls = false) :
    (stackOp ctx op : NativeProgram EffectAnswer _).All P :=
  ⟨hP op hop, fun _ => trivial⟩

theorem all_dukThrow {α : Type} (error : ThrownError) :
    (dukThrow ctx error : NativeProgram EffectAnswer α).All P :=
  ⟨hP _ rfl, fun answer => Empty.elim answer⟩

theorem all_dukToString :
    (dukToString ctx : NativeProgram EffectAnswer _).All P := by
  have hreplace : ∀ text,
      (dukToString.replaceBy ctx text : NativeProgram EffectAnswer _).All P :=
    fun text => ⟨hP _ rfl, fun _ => trivial⟩
  refine ⟨hP _ rfl, ?_⟩
  intro value
  simp only [Program.pure_bind]
  split
  · exact hreplace _
  · exact hreplace _
  · exact hreplace _
  · exact hreplace _
  · exact trivial
  · exact all_stackOp hP _ rfl
  · exact all_stackOp hP _ rfl
  · exact all_stackOp hP _ rfl

theorem all_jsGetPropString (key : PropKey) :
    (jsGetPropString ctx key : NativeProgram EffectAnswer _).All P := by
  refine ⟨hP _ rfl, fun _ => ?_⟩
  apply Program.All.bind (all_dukToString hP)
  exact fun _ => ⟨hP _ rfl, fun _ => trivial⟩

theorem all_jsGetPropStringIsNull (key : PropKey) :
    (jsGetPropStringIsNull ctx key : NativeProgram EffectAnswer _).All P := by
  refine ⟨hP _ rfl, fun _ => ⟨hP _ rfl, fun _ => ?_⟩⟩
  apply Program.All.bind (all_dukToString hP)
  exact fun _ => ⟨hP _ rfl, fun _ => trivial⟩

theorem all_jsGetPropBoolean (key : PropKey) :
    (jsGetPropBoolean ctx key : NativeProgram EffectAnswer _).All P :=
  ⟨hP _ rfl, fun _ => ⟨hP _ rfl, fun _ => ⟨hP _ rfl, fun _ =>
    ⟨hP _ rfl, fun _ => trivial⟩⟩⟩⟩

theorem all_dukRequireBoolean (index : ℕ) :
    (dukRequireBoolean ctx index : NativeProgram EffectAnswer _).All P := by
  refine ⟨hP _ rfl, ?_⟩
  intro value
  simp only [Program.pure_bind]
  split
  · exact trivial
  · exact all_dukThrow hP _

theorem all_dukRequireInt (index : ℕ) :
    (dukRequireInt ctx index : NativeProgram EffectAnswer _).All P := by
  refine ⟨hP _ rfl, ?_⟩
  intro value
  simp only [Program.pure_bind]
  split
  · exact trivial
  · exact all_dukThrow hP _

theorem all_putEmitOnStack :
    (putEmitOnStack ctx : NativeProgram EffectAnswer _).All P :=
  ⟨hP _ rfl, fun _ => ⟨hP _ rfl, fun _ => ⟨hP _ rfl, fun _ =>
    ⟨hP _ rfl, fun _ => trivial⟩⟩⟩⟩

end Api

end NekoScript
