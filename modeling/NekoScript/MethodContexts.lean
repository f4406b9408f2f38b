import NekoScript.NKWinAPI
import NekoScript.TaskDialogHost
import Mathlib.Tactic

/-!
# The contexts that methods of natives work on

The engine calls `instanceMethodWrapper` with the context that runs the call.
The bodies of the methods use the member `ctx` of their object, which is the
context on which the object was constructed.
-/

namespace NekoScript

open Programs

def jsClassIdentifier (typeName : String) : PropKey := .hidden ("i" ++ typeName)

section Wrapper

variable {Effect : Type} {EffectAnswer : Effect → Type}

def operatorPushThis (ctx : Context) : NativeProgram EffectAnswer Unit :=
  stackOp ctx .pushThis

def operatorPushCurrentFunction (function : JSValue) (ctx : Context) :
    NativeProgram EffectAnswer Unit :=
  stackOp ctx (.push function)

/-- `JSClass<T>::instanceMethodWrapper<func, oper>`, where `func` is run on the
object that the identifier property leads to. -/
def instanceMethodWrapper (typeName : String)
    (oper : Context → NativeProgram EffectAnswer Unit)
    (func : NativeProgram EffectAnswer ℤ) (ctx : Context) :
    NativeProgram EffectAnswer ℤ := do
  oper ctx
  let _ ← stackOp ctx (.getProp (jsClassIdentifier typeName))
  stackOp ctx .pop
  stackOp ctx .pop
  func

end Wrapper

/-! ## NKWinVersionInfo -/

inductive VersionInfoEffect where
  | memcpy (buffer : JSValue) (data : List UInt8)

@[reducible] def VersionInfoEffect.Answer : VersionInfoEffect → Type
  | .memcpy _ _ => Unit

def raw (verData : List UInt8) (ctx : Context) :
    NativeProgram VersionInfoEffect.Answer ℤ := do
  stackOp ctx (.push (.other (0 < verData.length)))
  let buf : JSValue ← stackOp ctx .getTop
  effect (VersionInfoEffect.memcpy buf verData)
  pure 1

/-! ## NKWinAPI -/

inductive WinAPIEffect where
  /-- What the engine keeps for a value: its bytes and their address. -/
  | view (value : JSValue)
  | newArguments (count : ℕ)
  | deleteArguments
  | invokeStdcall (proc : ℤ) (count : ℕ) (words : ℕ → ℕ)

@[reducible] def WinAPIEffect.Answer : WinAPIEffect → Type
  | .view _ => DukValue
  | .invokeStdcall _ _ _ => ℕ
  | _ => Unit

/-- The loop of `Call`, whose next word is stored below `p`. -/
def callArguments (ctx : Context) :
    List ℕ → (p : ℕ) → (words : ℕ → ℕ) →
      NativeProgram WinAPIEffect.Answer (ℕ → ℕ)
  | [], _, words => pure words
  | i :: rest, p, words => do
      let value : JSValue ← stackOp ctx (.get i)
      let value : DukValue ← effect (WinAPIEffect.view value)
      match convertArgument value with
      | some word => callArguments ctx rest (p - 1) (Function.update words (p - 1) word)
      | none => do
          effect WinAPIEffect.deleteArguments
          dukThrow ctx (.api unsupportedArgument)

def winAPICall (proc : ℤ) (ctx : Context) : NativeProgram WinAPIEffect.Answer ℤ := do
  let count : ℕ ← stackOp ctx .count
  if 0 < count then effect (WinAPIEffect.newArguments count)
  let words ← callArguments ctx (List.range count) count fun _ => 0
  let ret : ℕ ← effect (WinAPIEffect.invokeStdcall proc count words)
  stackOp ctx (.push (.number (.finite ret)))
  pure 1

/-! ## Calls -/

structure NativeClass where
  Effect : Type
  Answer : Effect → Type
  State : Type
  alive : State → Bool
  awaits : Effect → Bool
  perform : (e : Effect) → State → Option (Answer e × State)
  resume : (e : Effect) → Answer e → State → Option State

def taskDialogClass : NativeClass where
  Effect := DialogEffect
  Answer := DialogEffect.Answer
  State := World × DialogLocals
  alive := fun s => (s.1.dialogs s.2.self).isSome
  awaits := DialogEffect.awaits
  perform := fun e s =>
    (s.1.dialogs s.2.self).bind fun dialog =>
      (e.perform s.1 s.2 dialog).map fun done => (done.1, done.2.1, done.2.2)
  resume := fun e answer s => e.resume s.1 s.2 answer

def versionInfoClass : NativeClass where
  Effect := VersionInfoEffect
  Answer := VersionInfoEffect.Answer
  State := Unit
  alive := fun _ => true
  awaits := fun _ => false
  perform := fun
    | .memcpy _ _, s => some ((), s)
  resume := fun _ _ _ => none

/-- Of an `NKWinAPI` function only what the called procedure returns matters. -/
def winAPIClass : NativeClass where
  Effect := WinAPIEffect
  Answer := WinAPIEffect.Answer
  State := Unit
  alive := fun _ => true
  awaits := fun
    | .view _ | .invokeStdcall _ _ _ => true
    | _ => false
  perform := fun
    | .newArguments _, s => some ((), s)
    | .deleteArguments, s => some ((), s)
    | _, _ => none
  resume := fun _ _ s => some s

/-- The functions that `instanceMethodWrapper` is instantiated with. -/
inductive NativeMethod where
  | taskDialog (method : DialogMethod)
  | versionInfoRaw (verData : List UInt8)
  | winAPI (proc : ℤ)

namespace NativeMethod

@[reducible] def cls : NativeMethod → NativeClass
  | .taskDialog _ => taskDialogClass
  | .versionInfoRaw _ => versionInfoClass
  | .winAPI _ => winAPIClass

def typeName : NativeMethod → String
  | .taskDialog _ => "NKWinTaskDialog"
  | .versionInfoRaw _ => "NKWinVersionInfo"
  | .winAPI _ => "NKWinAPI"

def body (ctx : Context) : (m : NativeMethod) → NativeProgram m.cls.Answer ℤ
  | .taskDialog m => m.body ctx
  | .versionInfoRaw verData => raw verData ctx
  | .winAPI proc => winAPICall proc ctx

/-- The second template argument, for the JS object of the native. -/
def oper (object : JSValue) :
    (m : NativeMethod) → Context → NativeProgram m.cls.Answer Unit
  | .taskDialog _ => operatorPushThis
  | .versionInfoRaw _ => operatorPushThis
  | .winAPI _ => operatorPushCurrentFunction object

/-- The body returns without an operation on a value stack. -/
def leavesStack : (m : NativeMethod) → m.cls.State → Bool
  | .taskDialog .preventClose, _ => true
  | .taskDialog .showDialog, s => (s.1.hwnd s.2.self).isSome
  | _, _ => false

end NativeMethod

/-- A native object that was constructed on `ctx` and not deleted. -/
structure JSClassObject (cls : NativeClass) where
  ctx : Context
  state : cls.State
  alive : cls.alive state = true

structure Move (cls : NativeClass) where
  answer : (op : NativeOp cls.Effect) → Option (NativeOp.Answer cls.Answer op)
  meanwhile : cls.State → cls.State

/-- The uppermost frames of the contexts, none of one that was collected, and
the turns of the environment to come. -/
structure CallState (cls : NativeClass) where
  frames : Context → Option ValueFrame
  this : Context → JSValue
  native : cls.State
  moves : List (Move cls)

namespace CallState

variable {cls : NativeClass} (s : CallState cls)

def setFrame (ctx : Context) (frame : ValueFrame) : CallState cls :=
  { s with frames := Function.update s.frames ctx (some frame) }

def await (op : NativeOp cls.Effect) :
    Option (NativeOp.Answer cls.Answer op × CallState cls) :=
  match s.moves with
  | [] => none
  | move :: moves =>
      (move.answer op).map fun answer =>
        (answer, { s with native := move.meanwhile s.native, moves := moves })

/-- An operation on the value stack of a context that was collected is
undefined. -/
def perform : (op : NativeOp cls.Effect) → CallState cls →
    Option (NativeOp.Answer cls.Answer op × CallState cls)
  | .stack ctx op, s =>
      (s.frames ctx).bind fun frame =>
        if op.awaits then
          (s.await (.stack ctx op)).bind fun done =>
            (op.resume done.1 frame).map fun frame =>
              (done.1, done.2.setFrame ctx frame)
        else
          (op.perform (s.this ctx) frame).map fun done =>
            (done.1, s.setFrame ctx done.2)
  | .effect e, s =>
      if cls.awaits e then
        (s.await (.effect e)).bind fun done =>
          (cls.resume e done.1 done.2.native).map fun native =>
            (done.1, { done.2 with native := native })
      else
        (cls.perform e s.native).map fun done => (done.1, { s with native := done.2 })

end CallState

/-- The call of a method from any context: the function runs there, and the
identifier property is read. -/
structure MethodCall (m : NativeMethod) where
  self : JSClassObject m.cls
  object : JSValue
  caller : Context
  frames : Context → Option ValueFrame
  this : Context → JSValue
  running : (frames caller).isSome = true
  identifier : JSValue
  moves : List (Move m.cls)

def NativeOp.context {Effect : Type} : NativeOp Effect → Option Context
  | .stack ctx _ => some ctx
  | .effect _ => none

namespace MethodCall

variable {m : NativeMethod} (call : MethodCall m)

def readIdentifier : Move m.cls where
  answer := fun
    | .stack _ (.getProp _) => some call.identifier
    | _ => none
  meanwhile := id

def start : CallState m.cls where
  frames := call.frames
  this := call.this
  native := call.self.state
  moves := call.readIdentifier :: call.moves

def program : NativeProgram m.cls.Answer ℤ :=
  instanceMethodWrapper m.typeName (m.oper call.object) (m.body call.self.ctx)
    call.caller

/-- The contexts whose value stacks the call reads, pushes to, or throws on. -/
def contexts : List Context :=
  (call.program.trace CallState.perform call.start).filterMap NativeOp.context

def OnCaller : Prop := ∀ ctx ∈ call.contexts, ctx = call.caller

end MethodCall

/-! ## The operations of the bodies -/

namespace NKWinTaskDialog

variable {ctx : Context} {P : DialogOp → Prop}
  (hstack : ∀ op, P (.stack ctx op)) (heffect : ∀ e, P (.effect e))

include hstack heffect

theorem all_configured {p : DialogProgram ℤ} (hp : p.All P) :
    (createConfig ctx >>= fun _ => p).All P := by
  have hconfig : (createConfig ctx).All P :=
    all_createConfig (fun op _ => hstack op) (fun _ => heffect _)
      (fun _ _ _ => heffect _) (heffect _) (fun _ _ => heffect _) (heffect _)
  exact hconfig.bind fun _ => hp

theorem all_showDialog : (showDialog ctx).All P := by
  refine ⟨heffect _, ?_⟩
  intro self
  simp only [Program.pure_bind]
  split
  · exact ⟨heffect _, fun _ => trivial⟩
  · apply all_configured hstack heffect
    apply Program.All.bind (all_taskDialogIndirect hstack fun e _ => heffect e)
    exact fun hr => all_freeRuntime_checkResult (fun op _ => hstack op)
      (fun _ => heffect _) hr _

theorem all_navigate : (navigate ctx).All P := by
  refine ⟨heffect _, ?_⟩
  intro self
  simp only [Program.pure_bind]
  split
  · exact all_showDialog hstack heffect
  · apply all_configured hstack heffect
    refine ⟨heffect _, fun self => ⟨heffect _, fun result => ?_⟩⟩
    exact all_freeRuntime_checkResult (fun op _ => hstack op)
      (fun _ => heffect _) result _

theorem all_method (m : DialogMethod) : (m.body ctx).All P := by
  cases m with
  | showDialog => exact all_showDialog hstack heffect
  | navigate => exact all_navigate hstack heffect
  | preventClose => exact ⟨heffect _, fun _ => trivial⟩
  | enableButton =>
      exact all_enableButton (fun op _ => hstack op) (heffect _)
        fun _ _ => heffect _
  | enableRadioButton =>
      exact all_enableRadioButton (fun op _ => hstack op) (heffect _)
        fun _ _ => heffect _

end NKWinTaskDialog

theorem all_callArguments
    {ctx : Context} {P : NativeOp WinAPIEffect → Prop}
    (hstack : ∀ op, P (.stack ctx op)) (heffect : ∀ e, P (.effect e))
    (indices : List ℕ) (p : ℕ) (words : ℕ → ℕ) :
    (callArguments ctx indices p words).All P := by
  induction indices generalizing p words with
  | nil => exact trivial
  | cons i rest ih =>
      refine ⟨hstack _, fun value => ⟨heffect _, fun value => ?_⟩⟩
      simp only [Program.pure_bind]
      split
      · exact ih _ _
      · exact ⟨heffect _, fun _ => all_dukThrow (fun op _ => hstack op) _⟩

theorem all_winAPICall
    {ctx : Context} {P : NativeOp WinAPIEffect → Prop}
    (hstack : ∀ op, P (.stack ctx op)) (heffect : ∀ e, P (.effect e)) (proc : ℤ) :
    (winAPICall proc ctx).All P := by
  refine ⟨hstack _, fun count => ?_⟩
  have hrest : (callArguments ctx (List.range count) count (fun _ => 0) >>=
      fun words => effect (.invokeStdcall proc count words) >>= fun ret =>
        stackOp ctx (.push (.number (.finite ret))) >>= fun _ =>
          (pure 1 : NativeProgram WinAPIEffect.Answer ℤ)).All P := by
    apply Program.All.bind (all_callArguments hstack heffect _ _ _)
    exact fun words => ⟨heffect _, fun ret => ⟨hstack _, fun _ => trivial⟩⟩
  simp only [Program.pure_bind]
  split
  · exact ⟨heffect _, fun _ => hrest⟩
  · exact hrest

theorem NativeMethod.all_body (m : NativeMethod) (ctx : Context) :
    (m.body ctx).All fun op => ∀ used ∈ op.context, used = ctx := by
  cases m with
  | taskDialog m =>
      exact NKWinTaskDialog.all_method (by simp [NativeOp.context])
        (by simp [NativeOp.context]) m
  | versionInfoRaw verData =>
      refine ⟨?_, fun _ => ⟨?_, fun _ => ⟨?_, fun _ => trivial⟩⟩⟩ <;>
        simp [NativeOp.context]
  | winAPI proc =>
      exact all_winAPICall (by simp [NativeOp.context])
        (by simp [NativeOp.context]) proc

/-! ## The first operation of a body -/

def usedContexts {cls : NativeClass} {α : Type} (p : NativeProgram cls.Answer α)
    (s : CallState cls) : List Context :=
  (p.trace CallState.perform s).filterMap NativeOp.context

section Reached

variable {cls : NativeClass} {α : Type} {s s' : CallState cls} {ctx : Context}

theorem usedContexts_stack
    {op : StackOp} {next : op.Answer → NativeProgram cls.Answer α}
    {answer : op.Answer}
    (hperform : CallState.perform (.stack ctx op) s = some (answer, s')) :
    usedContexts (.perform (.stack ctx op) next) s =
      ctx :: usedContexts (next answer) s' := by
  rw [usedContexts, Program.trace_perform hperform]
  rfl

theorem mem_usedContexts_stack
    {op : StackOp} {next : op.Answer → NativeProgram cls.Answer α} :
    ctx ∈ usedContexts (.perform (.stack ctx op) next) s := by
  simp [usedContexts, Program.trace, NativeOp.context]

theorem usedContexts_effect
    {e : cls.Effect} {next : cls.Answer e → NativeProgram cls.Answer α}
    {answer : cls.Answer e}
    (hperform : CallState.perform (.effect e) s = some (answer, s')) :
    usedContexts (.perform (.effect e) next) s = usedContexts (next answer) s' := by
  rw [usedContexts, Program.trace_perform hperform]
  rfl

theorem mem_usedContexts_effect
    {e : cls.Effect} {next : cls.Answer e → NativeProgram cls.Answer α}
    {answer : cls.Answer e}
    (hperform : CallState.perform (.effect e) s = some (answer, s'))
    (hmem : ctx ∈ usedContexts (next answer) s') :
    ctx ∈ usedContexts (.perform (.effect e) next) s :=
  (usedContexts_effect hperform).symm ▸ hmem

theorem usedContexts_eq_nil
    {p : NativeProgram cls.Answer α} (hp : p.All fun op => op.context = none) :
    usedContexts p s = [] := by
  rw [usedContexts, List.filterMap_eq_nil_iff]
  exact hp.trace s

theorem perform_stack
    {op : StackOp} {answer : op.Answer} {frame frame' : ValueFrame}
    (hframe : s.frames ctx = some frame) (hawaits : op.awaits = false)
    (hop : op.perform (s.this ctx) frame = some (answer, frame')) :
    CallState.perform (.stack ctx op) s = some (answer, s.setFrame ctx frame') := by
  simp [CallState.perform, hframe, hawaits, hop]

end Reached

namespace NKWinTaskDialog

variable {s : CallState taskDialogClass} {ctx : Context}

theorem perform_dialogEffect
    {e : DialogEffect} {answer : e.Answer} {dialog : Dialog} {w : World}
    {l : DialogLocals}
    (hdialog : s.native.1.dialogs s.native.2.self = some dialog)
    (hawaits : e.awaits = false)
    (hperform : e.perform s.native.1 s.native.2 dialog = some (answer, w, l)) :
    @CallState.perform taskDialogClass (.effect e) s =
      some (answer, { s with native := (w, l) }) := by
  simp [CallState.perform, taskDialogClass, hdialog, hawaits, hperform]

/-- `CreateConfig` comes to `duk_is_object(ctx, 0)`. -/
theorem mem_usedContexts_createConfig
    {dialog : Dialog} (hdialog : s.native.1.dialogs s.native.2.self = some dialog)
    (p : DialogProgram ℤ) :
    ctx ∈ @usedContexts taskDialogClass ℤ (createConfig ctx >>= fun _ => p) s := by
  apply mem_usedContexts_effect
  · exact perform_dialogEffect hdialog rfl rfl
  apply mem_usedContexts_effect
  · exact perform_dialogEffect hdialog rfl rfl
  exact mem_usedContexts_stack

theorem mem_usedContexts_showDialog
    {dialog : Dialog} (hdialog : s.native.1.dialogs s.native.2.self = some dialog)
    (hhwnd : dialog.hwnd = none) :
    ctx ∈ @usedContexts taskDialogClass ℤ (showDialog ctx) s := by
  apply mem_usedContexts_effect
  · exact perform_dialogEffect hdialog rfl rfl
  simp only [Program.pure_bind, hhwnd]
  exact mem_usedContexts_createConfig hdialog _

theorem mem_usedContexts_navigate
    {dialog : Dialog} (hdialog : s.native.1.dialogs s.native.2.self = some dialog) :
    ctx ∈ @usedContexts taskDialogClass ℤ (navigate ctx) s := by
  apply mem_usedContexts_effect
  · exact perform_dialogEffect hdialog rfl rfl
  simp only [Program.pure_bind]
  split
  next hhwnd => exact mem_usedContexts_showDialog hdialog hhwnd
  next => exact mem_usedContexts_createConfig hdialog _

end NKWinTaskDialog

theorem NativeMethod.mem_usedContexts_body
    (m : NativeMethod) {ctx : Context} {s : CallState m.cls}
    (halive : m.cls.alive s.native = true) (hstack : m.leavesStack s.native = false) :
    ctx ∈ usedContexts (m.body ctx) s := by
  cases m with
  | taskDialog m =>
      obtain ⟨dialog, hdialog⟩ := Option.isSome_iff_exists.mp halive
      cases m with
      | showDialog =>
          apply NKWinTaskDialog.mem_usedContexts_showDialog hdialog
          simpa [NativeMethod.leavesStack, World.hwnd, hdialog] using hstack
      | navigate => exact NKWinTaskDialog.mem_usedContexts_navigate hdialog
      | preventClose => contradiction
      | enableButton => exact mem_usedContexts_stack
      | enableRadioButton => exact mem_usedContexts_stack
  | versionInfoRaw verData => exact mem_usedContexts_stack
  | winAPI proc => exact mem_usedContexts_stack

theorem NativeMethod.usedContexts_body_eq_nil
    (m : NativeMethod) {ctx : Context} {s : CallState m.cls}
    (hstack : m.leavesStack s.native = true) :
    usedContexts (m.body ctx) s = [] := by
  cases m with
  | taskDialog m =>
      cases m with
      | showDialog =>
          obtain ⟨window, hwindow⟩ := Option.isSome_iff_exists.mp hstack
          obtain ⟨dialog, hdialog, hhwnd⟩ := Option.bind_eq_some_iff.mp hwindow
          refine (usedContexts_effect
            (NKWinTaskDialog.perform_dialogEffect hdialog rfl rfl)).trans ?_
          simp only [Program.pure_bind, hhwnd]
          exact usedContexts_eq_nil ⟨rfl, fun _ => trivial⟩
      | preventClose => exact usedContexts_eq_nil ⟨rfl, fun _ => trivial⟩
      | _ => contradiction
  | _ => contradiction

/-! ## The whole call -/

namespace MethodCall

variable {m : NativeMethod} (call : MethodCall m)

theorem usedContexts_oper
    (object : JSValue) {ctx : Context} {s : CallState m.cls} {frame : ValueFrame}
    (hframe : s.frames ctx = some frame)
    (f : Unit → NativeProgram m.cls.Answer ℤ) :
    ∃ value, usedContexts ((m.oper object ctx).bind f) s =
      ctx :: usedContexts (f ()) (s.setFrame ctx (value :: frame)) := by
  cases m with
  | taskDialog m => exact ⟨_, usedContexts_stack (perform_stack hframe rfl rfl)⟩
  | versionInfoRaw verData =>
      exact ⟨_, usedContexts_stack (perform_stack hframe rfl rfl)⟩
  | winAPI proc => exact ⟨_, usedContexts_stack (perform_stack hframe rfl rfl)⟩

theorem exists_contexts :
    ∃ s : CallState m.cls, s.native = call.self.state ∧
      call.contexts = call.caller :: call.caller :: call.caller :: call.caller ::
        usedContexts (m.body call.self.ctx) s := by
  obtain ⟨frame, hframe⟩ := Option.isSome_iff_exists.mp call.running
  have hstart : call.start.frames call.caller = some frame := hframe
  have hoper := usedContexts_oper call.object hstart fun _ => do
    let _ ← stackOp call.caller (.getProp (jsClassIdentifier m.typeName))
    stackOp call.caller .pop
    stackOp call.caller .pop
    m.body call.self.ctx
  rcases hoper with ⟨value, hoper⟩
  let pushed : CallState m.cls := call.start.setFrame call.caller (value :: frame)
  let read : CallState m.cls := { call.start with
    frames := Function.update call.frames call.caller
      (some (call.identifier :: value :: frame))
    moves := call.moves }
  let popped : CallState m.cls := read.setFrame call.caller (value :: frame)
  have hget : CallState.perform
      (.stack call.caller (.getProp (jsClassIdentifier m.typeName))) pushed =
      some (call.identifier, read) := by
    simp [CallState.perform, CallState.setFrame, CallState.await, start,
      readIdentifier, StackOp.awaits, StackOp.resume, pushed, read]
  have hpop : CallState.perform (.stack call.caller .pop) read =
      some ((), popped) :=
    perform_stack (Function.update_self ..) rfl rfl
  have hpop' : CallState.perform (.stack call.caller .pop) popped =
      some ((), popped.setFrame call.caller frame) :=
    perform_stack (Function.update_self ..) rfl rfl
  refine ⟨popped.setFrame call.caller frame, rfl, ?_⟩
  calc
    call.contexts =
        call.caller :: usedContexts (.perform (.stack call.caller
          (.getProp (jsClassIdentifier m.typeName))) fun _ =>
            .perform (.stack call.caller .pop) fun _ =>
              .perform (.stack call.caller .pop) fun _ => m.body call.self.ctx)
          pushed := hoper
    _ = call.caller :: call.caller :: usedContexts
          (.perform (.stack call.caller .pop) fun _ =>
            .perform (.stack call.caller .pop) fun _ => m.body call.self.ctx)
          read := by
          rw [usedContexts_stack hget]
    _ = call.caller :: call.caller :: call.caller :: usedContexts
          (.perform (.stack call.caller .pop) fun _ => m.body call.self.ctx)
          popped := by
          rw [usedContexts_stack hpop]
    _ = call.caller :: call.caller :: call.caller :: call.caller ::
          usedContexts (m.body call.self.ctx)
            (popped.setFrame call.caller frame) := by
          rw [usedContexts_stack hpop']

end MethodCall

/-- The method was called from the context of its object, or its body does
without the value stack. -/
theorem onCaller_iff {m : NativeMethod} (call : MethodCall m) :
    call.OnCaller ↔
      call.self.ctx = call.caller ∨ m.leavesStack call.self.state = true := by
  rcases call.exists_contexts with ⟨s, hnative, hcontexts⟩
  rw [MethodCall.OnCaller, hcontexts]
  constructor
  · intro hcaller
    cases hstack : m.leavesStack call.self.state with
    | true => exact .inr rfl
    | false =>
        left
        apply hcaller
        have hmem : call.self.ctx ∈ usedContexts (m.body call.self.ctx) s :=
          m.mem_usedContexts_body (hnative ▸ call.self.alive) (hnative ▸ hstack)
        simp [hmem]
  · intro hcondition
    have hbody : ∀ ctx ∈ usedContexts (m.body call.self.ctx) s,
        ctx = call.caller := by
      intro ctx hmem
      rcases hcondition with hsame | hstack
      · obtain ⟨op, hop, hctx⟩ := List.mem_filterMap.mp hmem
        rw [← hsame]
        exact (m.all_body call.self.ctx).trace s op hop ctx hctx
      · rw [m.usedContexts_body_eq_nil (hnative ▸ hstack)] at hmem
        contradiction
    simpa using hbody

/-- A coroutine calls `enableButton(0, true)` on a dialog of the main thread. -/
def enableFromCoroutine : MethodCall (.taskDialog .enableButton) where
  self :=
    { ctx := 0
      state := ({ World.initial with dialogs := fun _ => some (.new 10) },
        ⟨0, .object 10, [], none, []⟩)
      alive := rfl }
  object := .object 10
  caller := 1
  frames := fun ctx =>
    if ctx = 1 then some [.boolean true, .number (.finite 0)] else some []
  this := fun _ => .object 10
  running := rfl
  identifier := .other true
  moves := []

theorem not_onCaller_enableFromCoroutine : ¬ enableFromCoroutine.OnCaller := by
  have hcontexts : enableFromCoroutine.contexts = [1, 1, 1, 1, 0, 0] := by
    decide +kernel
  intro hcaller
  have hzero : (0 : Context) = 1 := hcaller 0 (by rw [hcontexts]; decide)
  contradiction

end NekoScript
