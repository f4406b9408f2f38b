import NekoScript.NKWinTaskDialog
import NekoScript.ReentrantCalls
import NekoScript.ResourceOwnership
import Mathlib.Tactic

/-!
# Task dialogs, the script and Windows together

Windows dispatches the notifications of every live dialog window from whatever
native call pumps messages, and the script calls native methods from whatever
script code runs.  The records at the end of `World` are of what the code does,
for statements about whole runs.  All dialogs are constructed and used on one
context.
-/

namespace NekoScript

open Programs ReentrantCalls ResourceOwnership

/-- A dialog window, and the dialog whose callback gets its notifications. -/
structure Window where
  dialog : ℕ
  live : Bool
  deriving DecidableEq

/-- A call of `emit` by the callback of a dialog. -/
structure Emission where
  dialog : ℕ
  owner : ℕ
  this : JSValue
  args : List JSValue
  deriving DecidableEq

/-- What the assertions on the runtime arrays find, and how often each array
allocated for the dialog so far was released. -/
structure RuntimeAssertion where
  dialog : ℕ
  buttons : Option ℕ
  radios : Option ℕ
  releases : List ℕ
  deriving DecidableEq

/-- The `_hwnd` of a dialog when the call that opened a window of it exits. -/
structure OpenerExit where
  dialog : ℕ
  window : ℕ
  hwnd : Option ℕ
  deriving DecidableEq

structure World where
  dialogs : ℕ → Option Dialog
  nextDialog : ℕ
  windows : ℕ → Option Window
  nextWindow : ℕ
  /-- The arrays that were allocated and deleted. -/
  arrays : History ℕ
  arrayDialog : ℕ → ℕ
  contents : ℕ → List (Option TaskDialogButton)
  nextArray : ℕ
  emissions : List Emission
  assertions : List RuntimeAssertion
  exits : List OpenerExit

structure DialogLocals where
  self : ℕ
  /-- The `this` binding of the innermost native function that the engine
  called; a callback has none of its own. -/
  this : JSValue
  frame : ValueFrame
  modal : Option ℕ
  allocated : List ℕ

def World.initial : World where
  dialogs := fun _ => none
  nextDialog := 0
  windows := fun _ => none
  nextWindow := 0
  arrays := []
  arrayDialog := fun _ => 0
  contents := fun _ => []
  nextArray := 0
  emissions := []
  assertions := []
  exits := []

namespace World

variable (w : World)

def hwnd (dialog : ℕ) : Option ℕ := (w.dialogs dialog).bind (·.hwnd)

def owner (dialog : ℕ) : Option ℕ := (w.dialogs dialog).map (·.ptr)

def runtime (dialog : ℕ) (field : RuntimeField) : Option ℕ :=
  (w.dialogs dialog).bind (·.runtime field)

def setDialog (self : ℕ) (dialog : Dialog) : World :=
  { w with dialogs := Function.update w.dialogs self (some dialog) }

def allocateRuntime (self : ℕ) (field : RuntimeField) (length : ℕ)
    (dialog : Dialog) : World :=
  { w.setDialog self (dialog.setRuntime field (some w.nextArray)) with
    arrays := .acquired w.nextArray :: w.arrays
    arrayDialog := Function.update w.arrayDialog w.nextArray self
    contents := Function.update w.contents w.nextArray (List.replicate length none)
    nextArray := w.nextArray + 1 }

def releaseRuntime (self : ℕ) (field : RuntimeField) (dialog : Dialog) : World :=
  match dialog.runtime field with
  | none => w
  | some array =>
      { w.setDialog self (dialog.setRuntime field none) with
        arrays := .released array :: w.arrays }

def assertRuntime (self : ℕ) : World :=
  { w with assertions :=
      { dialog := self
        buttons := w.runtime self .buttons
        radios := w.runtime self .radios
        releases := ((List.range w.nextArray).filter
          fun array => w.arrayDialog array = self).map w.arrays.releases }
        :: w.assertions }

def openWindow (self : ℕ) : World :=
  { w with
    windows := Function.update w.windows w.nextWindow (some ⟨self, true⟩)
    nextWindow := w.nextWindow + 1 }

def recordCall (l : DialogLocals) (dialog : Dialog) : StackOp → World
  | .callMethod nargs =>
      match l.frame.drop nargs with
      | this :: _ =>
          { w with emissions :=
              { dialog := l.self
                owner := dialog.ptr
                this := this
                args := (l.frame.take nargs).reverse } :: w.emissions }
      | [] => w
  | _ => w

/-- An activation is left, by return or by an error. -/
def recordExit (l : DialogLocals) : World :=
  match l.modal with
  | none => w
  | some window =>
      { w with exits := ⟨l.self, window, w.hwnd l.self⟩ :: w.exits }

end World

def DialogEffect.awaits : DialogEffect → Bool
  | .createDialogWindow | .modalLoop _ | .sendMessage _ _
  | .setForegroundWindow _ | .pump => true
  | _ => false

def DialogEffect.pumps : DialogEffect → Bool
  | .modalLoop _ | .sendMessage _ _ | .setForegroundWindow _ | .pump => true
  | _ => false

/-- A store through a null pointer or outside of the array is undefined. -/
def DialogEffect.perform (w : World) (l : DialogLocals) (dialog : Dialog) :
    (e : DialogEffect) → Option (e.Answer × World × DialogLocals)
  | .self => some (dialog, w, l)
  | .modifyConfig f =>
      some ((), w.setDialog l.self { dialog with config := f dialog.config }, l)
  | .setHwnd hwnd => some ((), w.setDialog l.self { dialog with hwnd := hwnd }, l)
  | .setPreventClose value =>
      some ((), w.setDialog l.self { dialog with preventClose := value }, l)
  | .newRuntime field length =>
      some ((), w.allocateRuntime l.self field length dialog,
        { l with allocated := w.nextArray :: l.allocated })
  | .deleteRuntime field => some ((), w.releaseRuntime l.self field dialog, l)
  | .storeButton field index button =>
      match dialog.runtime field with
      | none => none
      | some array =>
          let stored := (w.contents array).set index (some button)
          if index < (w.contents array).length then
            some ((), { w with contents := Function.update w.contents array stored }, l)
          else none
  | .assertRuntimeNull => some ((), w.assertRuntime l.self, l)
  | _ => none

def DialogEffect.resume (w : World) (l : DialogLocals) :
    (e : DialogEffect) → e.Answer → Option (World × DialogLocals)
  | .createDialogWindow, .error _ => some (w, l)
  | .createDialogWindow, .ok window =>
      if window = w.nextWindow then
        some (w.openWindow l.self, { l with modal := some window })
      else none
  | .modalLoop window, _ =>
      match w.windows window with
      | some ⟨_, true⟩ => none
      | _ => some (w, l)
  | .sendMessage _ _, _ => some (w, l)
  | .setForegroundWindow _, _ => some (w, l)
  | .pump, _ => some (w, l)
  | _, _ => none

inductive DialogMethod where
  | showDialog | navigate | preventClose | enableButton | enableRadioButton
  deriving DecidableEq

def DialogMethod.nargs : DialogMethod → ℕ
  | .showDialog | .navigate => 1
  | .preventClose => 0
  | .enableButton | .enableRadioButton => 2

def DialogMethod.body (ctx : Context) : DialogMethod → DialogProgram ℤ
  | .showDialog => NKWinTaskDialog.showDialog ctx
  | .navigate => NKWinTaskDialog.navigate ctx
  | .preventClose => NKWinTaskDialog.preventClose
  | .enableButton => NKWinTaskDialog.enableButton ctx
  | .enableRadioButton => NKWinTaskDialog.enableRadioButton ctx

inductive DialogCall where
  /-- The script calls a method on `this`, whose identifier property, its own
  or inherited, is the native object `self`. -/
  | method (method : DialogMethod) (this : JSValue) (self : ℕ)
      (args : List JSValue)
  | notify (window : ℕ) (notification : Notification) (wParam : ℕ)
      (lParam : List UInt16)
  | other (this : JSValue)

inductive DialogAction where
  | construct (object : ℕ)
  | destroy (dialog : ℕ)

abbrev DialogFrame := Frame DialogCall DialogLocals

def DialogCall.body (ctx : Context) : DialogCall → DialogProgram ℤ
  | .method m _ _ _ => m.body ctx
  | .notify window notification wParam lParam =>
      NKWinTaskDialog.callback ctx window notification wParam lParam
  | .other _ => do
      NKWinTaskDialog.perform .pump
      pure 0

/-- Script code runs: the main program, or what an operation calls. -/
def scriptRuns : Option DialogOp → Bool
  | none => true
  | some (.stack _ op) => op.runsScript
  | some (.effect _) => false

def messagesPumped : Option DialogOp → Bool
  | some (.effect e) => e.pumps
  | _ => false

/-- The arguments, padded with undefined or cut to the number registered. -/
def DialogMethod.initialFrame (method : DialogMethod) (args : List JSValue) :
    ValueFrame :=
  ((args ++ List.replicate method.nargs JSValue.undefined).take method.nargs).reverse

/-- After `TDN_DESTROYED` no notification is sent any more. -/
def World.deliver (w : World) (window dialog : ℕ) : Notification → World
  | .destroyed =>
      { w with windows := Function.update w.windows window (some ⟨dialog, false⟩) }
  | _ => w

def DialogCall.enter (w : World) (below : List DialogFrame)
    (awaited : Option DialogOp) : DialogCall → Option (World × DialogLocals)
  | .method m this self args =>
      if scriptRuns awaited && (w.dialogs self).isSome then
        some (w, ⟨self, this, m.initialFrame args, none, []⟩)
      else none
  | .notify window notification _ _ =>
      match w.windows window, below with
      | some ⟨dialog, true⟩, top :: _ =>
          if messagesPumped awaited && (w.dialogs dialog).isSome then
            some (w.deliver window dialog notification,
              ⟨dialog, top.locals.this, [], none, []⟩)
          else none
      | _, _ => none
  | .other this =>
      if scriptRuns awaited then some (w, ⟨0, this, [], none, []⟩) else none

def DialogAction.perform (w : World) : DialogAction → Option World
  | .construct object =>
      some { w with
        dialogs := Function.update w.dialogs w.nextDialog (some (.new object))
        nextDialog := w.nextDialog + 1 }
  | .destroy dialog =>
      (w.dialogs dialog).map fun _ =>
        let w := w.assertRuntime dialog
        { w with dialogs := Function.update w.dialogs dialog none }

def taskDialogHost (ctx : Context) :
    Host DialogCall DialogOp (NativeOp.Answer DialogEffect.Answer) ℤ
      DialogAction World DialogLocals where
  body := DialogCall.body ctx
  awaits
    | .stack _ op => op.awaits
    | .effect e => e.awaits
  -- a program starts from its native object, the value stack included
  effect := fun op w l =>
    (w.dialogs l.self).bind fun dialog =>
      match op with
      | .stack _ op =>
          (op.perform l.this l.frame).map fun done =>
            (done.1, w.recordCall l dialog op, { l with frame := done.2 })
      | .effect e => e.perform w l dialog
  resume
    | .stack _ op, answer, w, l =>
        (op.resume answer l.frame).map fun frame => (w, { l with frame := frame })
    | .effect e, answer, w, l => e.resume w l answer
  throws
    | .stack _ op => op.throws
    | .effect _ => false
  catches
    | .stack _ op => op.runsScript
    | .effect _ => false
  enter := fun w below awaited call => call.enter w below awaited
  leave := fun frame _ w => w.recordExit frame.locals
  abandon := fun frame w => w.recordExit frame.locals
  external := fun w action => action.perform w

abbrev DialogState := State DialogCall DialogOp
  (NativeOp.Answer DialogEffect.Answer) ℤ World DialogLocals

abbrev DialogChoice := Choice DialogCall DialogOp
  (NativeOp.Answer DialogEffect.Answer) DialogAction

/-- An environment in which nothing goes wrong: options are read as `options`
says, arrays have one element, handlers return undefined, and Windows creates
`window` and reports success. -/
def calmAnswer (options : PropKey → JSValue) (window : ℕ) :
    (op : DialogOp) → Option (NativeOp.Answer DialogEffect.Answer op)
  | .stack _ (.getProp key) => some (options key)
  | .stack _ .getLength => some (1 : ℕ)
  | .stack _ .callResult => some JSValue.undefined
  | .effect .createDialogWindow => some (Except.ok window)
  | .effect (.modalLoop _) => some sOk
  | .effect (.sendMessage _ _) => some sOk
  | .effect (.setForegroundWindow _) => some ()
  | .effect .pump => some ()
  | _ => none

/-- `show` without options: the 27 options are read, the window is created and
the handler of its first notification returns. -/
def openDialog (object self window : ℕ) : List DialogChoice :=
  .enter (.method .showDialog (.object object) self []) ::
    List.replicate 29 (.answer (calmAnswer (fun _ => .undefined) window))

/-! ## What operations do to the world -/

namespace TaskDialogHost

variable {ctx c : Context} {w w' : World} {l l' : DialogLocals}

theorem of_effect_stack
    {op : StackOp} {answer : op.Answer}
    (h : (taskDialogHost ctx).effect (.stack c op) w l = some (answer, w', l')) :
    ∃ dialog frame, w.dialogs l.self = some dialog ∧
      op.perform l.this l.frame = some (answer, frame) ∧
      w' = w.recordCall l dialog op ∧ l' = { l with frame := frame } := by
  simp only [taskDialogHost, Option.bind_eq_some_iff, Option.map_eq_some_iff,
    Prod.mk.injEq] at h
  rcases h with ⟨dialog, hdialog, done, hdone, hanswer, hw, hl⟩
  exact ⟨dialog, done.2, hdialog, by rw [hdone, ← hanswer], hw.symm, hl.symm⟩

theorem of_effect_effect
    {e : DialogEffect} {answer : e.Answer}
    (h : (taskDialogHost ctx).effect (.effect e) w l = some (answer, w', l')) :
    ∃ dialog, w.dialogs l.self = some dialog ∧
      e.perform w l dialog = some (answer, w', l') := by
  simpa only [taskDialogHost, Option.bind_eq_some_iff] using h

theorem of_resume_stack
    {op : StackOp} {answer : op.Answer}
    (h : (taskDialogHost ctx).resume (.stack c op) answer w l = some (w', l')) :
    w' = w ∧ ∃ frame, l' = { l with frame := frame } := by
  simp only [taskDialogHost, Option.map_eq_some_iff, Prod.mk.injEq] at h
  rcases h with ⟨frame, _, hw, hl⟩
  exact ⟨hw.symm, frame, hl.symm⟩

theorem recordCall_eq
    {dialog : Dialog} {op : StackOp} (hop : op.calls = false) :
    w.recordCall l dialog op = w := by
  cases op <;> first | rfl | contradiction

theorem effect_stack
    {op : StackOp} {answer : op.Answer} {dialog : Dialog} {frame : ValueFrame}
    (hdialog : w.dialogs l.self = some dialog) (hcalls : op.calls = false)
    (hperform : op.perform l.this l.frame = some (answer, frame)) :
    (taskDialogHost ctx).effect (.stack c op) w l =
      some (answer, w, { l with frame := frame }) := by
  simp only [taskDialogHost, hdialog, hperform, Option.bind_some, Option.map_some,
    recordCall_eq hcalls]

theorem effect_effect
    {e : DialogEffect} {answer : e.Answer} {dialog : Dialog}
    (hdialog : w.dialogs l.self = some dialog)
    (hperform : e.perform w l dialog = some (answer, w', l')) :
    (taskDialogHost ctx).effect (.effect e) w l = some (answer, w', l') := by
  simp only [taskDialogHost, hdialog, hperform, Option.bind_some]

theorem of_resume_effect
    {e : DialogEffect} {answer : e.Answer}
    (h : e.resume w l answer = some (w', l')) :
    (w' = w ∧ l' = l) ∨
      (e = .createDialogWindow ∧ w' = w.openWindow l.self ∧
        l' = { l with modal := some w.nextWindow }) := by
  cases e <;> cases answer <;> simp only [DialogEffect.resume, reduceCtorEq] at h
  case createDialogWindow.ok window =>
    split at h
    next hwindow =>
      simp only [Option.some.injEq, Prod.mk.injEq] at h
      exact .inr ⟨rfl, h.1.symm, hwindow ▸ h.2.symm⟩
    next => contradiction
  all_goals
    (try split at h) <;>
      simp only [Option.some.injEq, Prod.mk.injEq, reduceCtorEq] at h
  all_goals exact .inl ⟨h.1.symm, h.2.symm⟩

theorem of_resume_failed
    {hr : ℤ} (h : (taskDialogHost ctx).resume (.effect .createDialogWindow)
      (Except.error hr) w l = some (w', l')) : w' = w ∧ l' = l := by
  simp only [taskDialogHost, DialogEffect.resume, Option.some.injEq,
    Prod.mk.injEq] at h
  exact ⟨h.1.symm, h.2.symm⟩

theorem of_resume_created
    {window : ℕ} (h : (taskDialogHost ctx).resume (.effect .createDialogWindow)
      (Except.ok window) w l = some (w', l')) :
    window = w.nextWindow ∧ w' = w.openWindow l.self ∧
      l' = { l with modal := some w.nextWindow } := by
  simp only [taskDialogHost, DialogEffect.resume] at h
  split at h
  next hwindow =>
    simp only [Option.some.injEq, Prod.mk.injEq] at h
    exact ⟨hwindow, h.1.symm, hwindow ▸ h.2.symm⟩
  next => contradiction

theorem of_resume_modalLoop
    {window : ℕ} {hr : ℤ}
    (h : (taskDialogHost ctx).resume (.effect (.modalLoop window)) hr w l =
      some (w', l')) :
    w' = w ∧ l' = l ∧ ∀ dialog, w.windows window ≠ some ⟨dialog, true⟩ := by
  simp only [taskDialogHost, DialogEffect.resume] at h
  split at h
  next => contradiction
  next hclosed =>
    simp only [Option.some.injEq, Prod.mk.injEq] at h
    exact ⟨h.1.symm, h.2.symm, hclosed⟩

theorem of_enter_method
    {below : List DialogFrame} {awaited : Option DialogOp} {m : DialogMethod}
    {this : JSValue} {self : ℕ} {args : List JSValue}
    (h : (DialogCall.method m this self args).enter w below awaited =
      some (w', l)) :
    w' = w ∧ l = ⟨self, this, m.initialFrame args, none, []⟩ ∧
      (w.dialogs self).isSome := by
  simp only [DialogCall.enter] at h
  split at h
  next hcond =>
    simp only [Option.some.injEq, Prod.mk.injEq] at h
    rw [Bool.and_eq_true] at hcond
    exact ⟨h.1.symm, h.2.symm, hcond.2⟩
  next => contradiction

theorem of_enter_notify
    {below : List DialogFrame} {awaited : Option DialogOp} {window wParam : ℕ}
    {notification : Notification} {lParam : List UInt16}
    (h : (DialogCall.notify window notification wParam lParam).enter w below
      awaited = some (w', l)) :
    ∃ dialog top rest, below = top :: rest ∧
      w.windows window = some ⟨dialog, true⟩ ∧
      w' = w.deliver window dialog notification ∧
      l = ⟨dialog, top.locals.this, [], none, []⟩ ∧
      (w.dialogs dialog).isSome := by
  simp only [DialogCall.enter] at h
  split at h
  next dialog top rest hwindow =>
    split at h
    next hcond =>
      simp only [Option.some.injEq, Prod.mk.injEq] at h
      rw [Bool.and_eq_true] at hcond
      exact ⟨dialog, top, rest, rfl, hwindow, h.1.symm, h.2.symm, hcond.2⟩
    next => contradiction
  next => contradiction

theorem of_enter_other
    {below : List DialogFrame} {awaited : Option DialogOp} {this : JSValue}
    (h : (DialogCall.other this).enter w below awaited = some (w', l)) :
    w' = w ∧ l = ⟨0, this, [], none, []⟩ := by
  simp only [DialogCall.enter] at h
  split at h
  next =>
    simp only [Option.some.injEq, Prod.mk.injEq] at h
    exact ⟨h.1.symm, h.2.symm⟩
  next => contradiction

/-- An effect on a native object replaces that object at most, and leaves the
bookkeeping of windows, events and exits alone. -/
structure Replaced (w : World) (l : DialogLocals) (old new : Dialog)
    (w' : World) (l' : DialogLocals) : Prop where
  dialogs : w'.dialogs = Function.update w.dialogs l.self (some new)
  ptr : new.ptr = old.ptr
  nextDialog : w'.nextDialog = w.nextDialog
  windows : w'.windows = w.windows
  nextWindow : w'.nextWindow = w.nextWindow
  emissions : w'.emissions = w.emissions
  exits : w'.exits = w.exits
  self : l'.self = l.self
  this : l'.this = l.this
  frame : l'.frame = l.frame
  modal : l'.modal = l.modal

theorem replaced_self
    {dialog : Dialog} (hdialog : w.dialogs l.self = some dialog) :
    Replaced w l dialog dialog w l := by
  constructor <;> try rfl
  rw [← hdialog, Function.update_eq_self]

theorem replaced_setDialog (old new : Dialog) (hptr : new.ptr = old.ptr) :
    Replaced w l old new (w.setDialog l.self new) l := by
  constructor <;> first | rfl | exact hptr

theorem exists_replaced
    {e : DialogEffect} {answer : e.Answer} {dialog : Dialog}
    (hdialog : w.dialogs l.self = some dialog)
    (h : e.perform w l dialog = some (answer, w', l')) :
    ∃ new, Replaced w l dialog new w' l' ∧
      ((∀ hwnd, e ≠ .setHwnd hwnd) → new.hwnd = dialog.hwnd) ∧
      ((∀ value, e ≠ .setPreventClose value) →
        new.preventClose = dialog.preventClose) := by
  cases e with
  | self =>
      simp only [DialogEffect.perform, Option.some.injEq, Prod.mk.injEq] at h
      rcases h with ⟨_, rfl, rfl⟩
      exact ⟨dialog, replaced_self hdialog, fun _ => rfl, fun _ => rfl⟩
  | modifyConfig f =>
      simp only [DialogEffect.perform, Option.some.injEq, Prod.mk.injEq] at h
      rcases h with ⟨_, rfl, rfl⟩
      exact ⟨_, replaced_setDialog dialog _ rfl, fun _ => rfl, fun _ => rfl⟩
  | setHwnd hwnd =>
      simp only [DialogEffect.perform, Option.some.injEq, Prod.mk.injEq] at h
      rcases h with ⟨_, rfl, rfl⟩
      exact ⟨_, replaced_setDialog dialog _ rfl, fun hne => absurd rfl (hne hwnd),
        fun _ => rfl⟩
  | setPreventClose value =>
      simp only [DialogEffect.perform, Option.some.injEq, Prod.mk.injEq] at h
      rcases h with ⟨_, rfl, rfl⟩
      exact ⟨_, replaced_setDialog dialog _ rfl, fun _ => rfl,
        fun hne => absurd rfl (hne value)⟩
  | newRuntime field length =>
      simp only [DialogEffect.perform, Option.some.injEq, Prod.mk.injEq] at h
      rcases h with ⟨_, rfl, rfl⟩
      refine ⟨dialog.setRuntime field (some w.nextArray), ?_, fun _ => rfl, fun _ => rfl⟩
      constructor <;> rfl
  | deleteRuntime field =>
      simp only [DialogEffect.perform, Option.some.injEq, Prod.mk.injEq] at h
      rcases h with ⟨_, rfl, rfl⟩
      unfold World.releaseRuntime
      split
      next => exact ⟨dialog, replaced_self hdialog, fun _ => rfl, fun _ => rfl⟩
      next =>
        refine ⟨dialog.setRuntime field none, ?_, fun _ => rfl, fun _ => rfl⟩
        constructor <;> rfl
  | storeButton field index button =>
      simp only [DialogEffect.perform] at h
      split at h
      next => contradiction
      next array _ =>
        split at h
        next =>
          simp only [Option.some.injEq, Prod.mk.injEq] at h
          rcases h with ⟨_, rfl, rfl⟩
          obtain ⟨hdialogs⟩ := replaced_self hdialog
          refine ⟨dialog, ?_, fun _ => rfl, fun _ => rfl⟩
          constructor <;> first | rfl | exact hdialogs
        next => contradiction
  | assertRuntimeNull =>
      simp only [DialogEffect.perform, Option.some.injEq, Prod.mk.injEq] at h
      rcases h with ⟨_, rfl, rfl⟩
      obtain ⟨hdialogs⟩ := replaced_self hdialog
      refine ⟨dialog, ?_, fun _ => rfl, fun _ => rfl⟩
      constructor <;> first | rfl | exact hdialogs
  | createDialogWindow => simp [DialogEffect.perform] at h
  | modalLoop window => simp [DialogEffect.perform] at h
  | sendMessage hwnd message => simp [DialogEffect.perform] at h
  | setForegroundWindow hwnd => simp [DialogEffect.perform] at h
  | pump => simp [DialogEffect.perform] at h

/-! ## Rules for every discipline -/

section Rules

variable {D : Discipline DialogCall DialogOp (NativeOp.Answer DialogEffect.Answer)
    DialogAction World DialogLocals}
  {below : List DialogFrame} {call : DialogCall} {entry : World}
  {α : Type} {Q : α → World → DialogLocals → Prop}

theorem meets_silentStack
    {op : StackOp} (hawaits : op.awaits = false) (hcalls : op.calls = false)
    {next : op.Answer → DialogProgram α}
    (hnext : ∀ answer frame, op.perform l.this l.frame = some (answer, frame) →
      D.Meets (taskDialogHost ctx) below call entry Q (next answer)
        w { l with frame := frame }) :
    D.Meets (taskDialogHost ctx) below call entry Q
      (.perform (.stack c op) next) w l := by
  apply Discipline.Meets.silent hawaits
  intro answer w' l' hdone
  obtain ⟨dialog, frame, _, hperform, hw, rfl⟩ := of_effect_stack hdone
  rw [recordCall_eq hcalls] at hw
  subst w'
  exact hnext answer frame hperform

theorem meets_putEmitOnStack_pushThis
    {next : Unit → DialogProgram α}
    (hnext : D.Meets (taskDialogHost ctx) below call entry Q (next ())
      w { l with frame := l.this :: .eventEmitterEmit :: l.frame }) :
    D.Meets (taskDialogHost ctx) below call entry Q
      ((putEmitOnStack c).bind fun _ => .perform (.stack c .pushThis) next) w l := by
  apply meets_silentStack rfl rfl
  rintro _ frame ⟨⟩
  apply meets_silentStack rfl rfl
  rintro _ frame ⟨⟩
  apply meets_silentStack rfl rfl
  rintro _ frame ⟨⟩
  apply meets_silentStack rfl rfl
  rintro _ frame ⟨⟩
  apply meets_silentStack rfl rfl
  rintro _ frame ⟨⟩
  exact hnext

theorem meets_silentEffect
    {e : DialogEffect} (hawaits : e.awaits = false)
    {next : e.Answer → DialogProgram α}
    (hnext : ∀ dialog answer w' l', w.dialogs l.self = some dialog →
      e.perform w l dialog = some (answer, w', l') →
      D.Meets (taskDialogHost ctx) below call entry Q (next answer) w' l') :
    D.Meets (taskDialogHost ctx) below call entry Q
      (.perform (.effect e) next) w l := by
  apply Discipline.Meets.silent hawaits
  intro answer w' l' hdone
  obtain ⟨dialog, hdialog, hperform⟩ := of_effect_effect hdone
  exact hnext dialog answer w' l' hdialog hperform

theorem meets_self
    {next : Dialog → DialogProgram α}
    (hnext : ∀ dialog, w.dialogs l.self = some dialog →
      D.Meets (taskDialogHost ctx) below call entry Q (next dialog) w l) :
    D.Meets (taskDialogHost ctx) below call entry Q
      (.perform (.effect .self) next) w l := by
  apply meets_silentEffect rfl
  intro dialog self w' l' hdialog hperform
  simp only [DialogEffect.perform, Option.some.injEq, Prod.mk.injEq] at hperform
  rcases hperform with ⟨rfl, rfl, rfl⟩
  exact hnext dialog hdialog

end Rules

end TaskDialogHost

end NekoScript
