import NekoScript.TaskDialogHost
import Mathlib.Tactic

/-!
# The options of a task dialog

Whenever `CreateConfig` reads a property or converts a value, script code may
run.  Options are data if nothing comes of that: what a property is and what a
value is as a string is the same at every read, and no native object of a dialog
is touched.
-/

namespace NekoScript

open Programs ReentrantCalls TaskDialogHost UnicodeCoding

structure OptionData where
  property : JSValue → PropKey → JSValue
  length : JSValue → ℕ
  /-- The string that objects, numbers, buffers, .. are converted to. -/
  text : JSValue → DukString

namespace OptionData

variable (data : OptionData)

def answers : (op : DialogOp) → World → DialogLocals →
    Option (NativeOp.Answer DialogEffect.Answer op)
  | .stack _ (.getProp key), _, l => l.frame.head?.map (data.property · key)
  | .stack _ .getLength, _, l => l.frame.head?.map data.length
  | .stack _ .objectToString, _, l => l.frame.head?.map data.text
  | .stack _ .scalarToString, _, l => l.frame.head?.map data.text
  | _, _, _ => none

/-- `duk_to_string` -/
def toText : JSValue → DukString
  | .undefined => lexerString "undefined".toList
  | .null => lexerString "null".toList
  | .boolean true => lexerString "true".toList
  | .boolean false => lexerString "false".toList
  | .string value => value
  | value => data.text value

/-- The property is absent, or an array of these strings.  The values of an
array, of eight bytes each, lie in a 32-bit address space. -/
def IsStrings (value : JSValue) : Option (List (List UInt16)) → Prop
  | none => value = .undefined
  | some texts =>
      value.isArray = true ∧ data.length value = texts.length ∧
        8 * texts.length < 2 ^ 32 ∧
        ∀ i text, texts[i]? = some text →
          data.property value (.index i) = .string (storedUnits text)

end OptionData

/-- What `CreateConfig` reads the options from. -/
def optionsObject (argument : JSValue) : JSValue :=
  if argument.isObject then argument else .newObject

structure DialogOptions where
  data : OptionData
  argument : JSValue
  buttons : Option (List (List UInt16))
  radioButtons : Option (List (List UInt16))
  buttons_read : data.IsStrings
    (data.property (optionsObject argument) (.name "buttons")) buttons
  radioButtons_read : data.IsStrings
    (data.property (optionsObject argument) (.name "radioButtons")) radioButtons

/-- What the script does when an operation runs script code: it may call methods of
dialogs, and in the end it gives an answer or raises an error.  `σ` is the rest
of its state. -/
structure OptionScript (σ : Type) where
  answer : (op : DialogOp) → World → DialogLocals → σ →
    Option (NativeOp.Answer DialogEffect.Answer op)
  after : DialogOp → World → DialogLocals → σ → World × σ

/-- What an operation comes back to. -/
def OptionScript.left {σ : Type} (ctx : Context) (script : OptionScript σ) (op : DialogOp)
    (w : World) (l : DialogLocals) (s : σ) : World × σ :=
  if (taskDialogHost ctx).awaits op then script.after op w l s else (w, s)

/-- A native of a dialog while this script reads its options. -/
def OptionScript.perform {σ : Type} (ctx : Context) (script : OptionScript σ) (op : DialogOp)
    (s : (World × DialogLocals) × σ) :
    Except DialogOp (NativeOp.Answer DialogEffect.Answer op) × ((World × DialogLocals) × σ) :=
  let left := script.left ctx op s.1.1 s.1.2 s.2
  let done := (taskDialogHost ctx).performAlone
    (fun op _ _ => script.answer op s.1.1 s.1.2 s.2) op (left.1, s.1.2)
  (done.1, (done.2, left.2))

/-- Reading the options raises no error, runs no method of a dialog, and gives
what `data` says. -/
structure OptionScript.Reads {σ : Type} (script : OptionScript σ) (data : OptionData) :
    Prop where
  answer : ∀ op w l s, script.answer op w l s = data.answers op w l
  after : ∀ op w l s, (script.after op w l s).1 = w

/-- A script that does nothing but to hold these options. -/
def OptionData.script (data : OptionData) : OptionScript Unit where
  answer op w l _ := data.answers op w l
  after _ w _ s := (w, s)

theorem OptionData.reads_script (data : OptionData) : data.script.Reads data :=
  ⟨fun _ _ _ _ => rfl, fun _ _ _ _ => rfl⟩

namespace DialogOptions

variable (options : DialogOptions)

def buttonTexts : List (List UInt16) := options.buttons.getD []

def radioTexts : List (List UInt16) := options.radioButtons.getD []

end DialogOptions

/-- The options `{ buttons: [..], radioButtons: [..] }`. -/
def OptionData.literal (buttons radioButtons : List (List UInt16)) : OptionData where
  property
    | .object 0, .name "buttons" => .array 1
    | .object 0, .name "radioButtons" => .array 2
    | .array 1, .index i => (buttons[i]?.map fun text =>
        JSValue.string (storedUnits text)).getD .undefined
    | .array 2, .index i => (radioButtons[i]?.map fun text =>
        JSValue.string (storedUnits text)).getD .undefined
    | _, _ => .undefined
  length
    | .array 1 => buttons.length
    | .array 2 => radioButtons.length
    | _ => 0
  text := fun _ => []

def DialogOptions.literal (buttons radioButtons : List (List UInt16))
    (hbuttons : 8 * buttons.length < 2 ^ 32)
    (hradio : 8 * radioButtons.length < 2 ^ 32) : DialogOptions where
  data := .literal buttons radioButtons
  argument := .object 0
  buttons := some buttons
  radioButtons := some radioButtons
  buttons_read := by
    refine ⟨rfl, rfl, hbuttons, ?_⟩
    intro i text htext
    simp [OptionData.literal, optionsObject, JSValue.isObject, htext]
  radioButtons_read := by
    refine ⟨rfl, rfl, hradio, ?_⟩
    intro i text htext
    simp [OptionData.literal, optionsObject, JSValue.isObject, htext]

/-! ## Reading -/

/-- A native of a dialog that nothing disturbs, with these options. -/
def performDialogOp (ctx : Context) (data : OptionData) (op : DialogOp)
    (s : World × DialogLocals) :
    Except DialogOp (NativeOp.Answer DialogEffect.Answer op) × (World × DialogLocals) :=
  (taskDialogHost ctx).performAlone data.answers op s

/-- A program that reads options that are data does the same as if nothing disturbed
it. -/
theorem OptionScript.Reads.exec_eq
    {σ α : Type} {script : OptionScript σ} {data : OptionData} (hreads : script.Reads data)
    (ctx : Context) (p : DialogProgram α) (s : (World × DialogLocals) × σ) :
    ∃ after, p.exec (script.perform ctx) s =
      ((p.exec (performDialogOp ctx data) s.1).1,
        ((p.exec (performDialogOp ctx data) s.1).2, after)) := by
  induction p generalizing s with
  | pure value => exact ⟨s.2, rfl⟩
  | perform op next ih =>
      have hleft : (script.left ctx op s.1.1 s.1.2 s.2).1 = s.1.1 := by
        unfold OptionScript.left
        split
        · exact hreads.after _ _ _ _
        · rfl
      obtain ⟨after, hperform⟩ : ∃ after, script.perform ctx op s =
          ((performDialogOp ctx data op s.1).1,
            ((performDialogOp ctx data op s.1).2, after)) := by
        refine ⟨(script.left ctx op s.1.1 s.1.2 s.2).2, ?_⟩
        unfold OptionScript.perform performDialogOp Host.performAlone Host.alone
        simp only [hleft, hreads.answer]
      cases hdone : performDialogOp ctx data op s.1 with
      | mk outcome s₁ =>
          rw [hdone] at hperform
          cases outcome with
          | error e =>
              exact ⟨after, by rw [Program.exec_failed hperform, Program.exec_failed hdone]⟩
          | ok answer =>
              rw [Program.exec_perform hperform, Program.exec_perform hdone]
              exact ih answer (s₁, after)

theorem OptionScript.Reads.ends_iff
    {σ α : Type} {script : OptionScript σ} {data : OptionData} (hreads : script.Reads data)
    (ctx : Context) (p : DialogProgram α) (Q : α → World × DialogLocals → Prop)
    (s : (World × DialogLocals) × σ) :
    p.Ends (script.perform ctx) (fun value s => Q value s.1) s ↔
      p.Ends (performDialogOp ctx data) Q s.1 := by
  obtain ⟨after, hexec⟩ := hreads.exec_eq ctx p s
  constructor
  · rintro ⟨value, s', hdone, hQ⟩
    rw [hexec, Prod.mk.injEq] at hdone
    refine ⟨value, s'.1, Prod.ext hdone.1 ?_, hQ⟩
    rw [← hdone.2]
  · rintro ⟨value, s', hdone, hQ⟩
    rw [hdone] at hexec
    exact ⟨value, _, hexec, hQ⟩

def DialogLocals.setFrame (l : DialogLocals) (frame : ValueFrame) : DialogLocals :=
  { l with frame := frame }

@[simp] theorem DialogLocals.setFrame_frame (l : DialogLocals) (frame : ValueFrame) :
    (l.setFrame frame).frame = frame := rfl

@[simp] theorem DialogLocals.setFrame_eq (l : DialogLocals) : l.setFrame l.frame = l := rfl

namespace DialogOptions

variable {ctx c : Context} {data : OptionData} {w w' : World} {l l' : DialogLocals}
  {dialog : Dialog} {value : JSValue} {rest : ValueFrame}

theorem exec_silentStack
    {op : StackOp} {answer : op.Answer} {frame : ValueFrame}
    (hdialog : w.dialogs l.self = some dialog) (hawaits : op.awaits = false)
    (hcalls : op.calls = false)
    (hperform : op.perform l.this l.frame = some (answer, frame)) :
    (stackOp c op : DialogProgram op.Answer).exec (performDialogOp ctx data) (w, l) =
      (.ok answer, (w, l.setFrame frame)) :=
  Program.exec_perform
    (Host.performAlone_effect hawaits (effect_stack hdialog hcalls hperform))

theorem exec_silentEffect
    {e : DialogEffect} {answer : e.Answer}
    (hdialog : w.dialogs l.self = some dialog) (hawaits : e.awaits = false)
    (hperform : e.perform w l dialog = some (answer, w', l')) :
    (NKWinTaskDialog.perform e).exec (performDialogOp ctx data) (w, l) =
      (.ok answer, (w', l')) :=
  Program.exec_perform
    (Host.performAlone_effect hawaits (effect_effect hdialog hperform))

theorem exec_read
    {op : StackOp} {answer : op.Answer} {frame : ValueFrame}
    (hawaits : op.awaits = true) (hanswer : data.answers (.stack c op) w l = some answer)
    (hresume : op.resume answer l.frame = some frame) :
    (stackOp c op : DialogProgram op.Answer).exec (performDialogOp ctx data) (w, l) =
      (.ok answer, (w, l.setFrame frame)) := by
  apply Program.exec_perform
  apply Host.performAlone_answer hawaits hanswer
  simp [taskDialogHost, hresume, DialogLocals.setFrame]

theorem exec_getProp (hframe : l.frame = value :: rest) (key : PropKey) :
    (stackOp c (.getProp key) : DialogProgram JSValue).exec (performDialogOp ctx data)
      (w, l) = (.ok (data.property value key),
        (w, l.setFrame (data.property value key :: l.frame))) := by
  apply exec_read rfl
  · simp [OptionData.answers, hframe]
  · rfl

theorem exec_getLength (hframe : l.frame = value :: rest) :
    (stackOp c .getLength : DialogProgram ℕ).exec (performDialogOp ctx data) (w, l) =
      (.ok (data.length value), (w, l)) := by
  apply exec_read rfl
  · simp [OptionData.answers, hframe]
  · rfl

theorem exec_getTop
    (hdialog : w.dialogs l.self = some dialog) (hframe : l.frame = value :: rest) :
    (stackOp c .getTop : DialogProgram JSValue).exec (performDialogOp ctx data) (w, l) =
      (.ok value, (w, l)) := by
  have hperform : StackOp.getTop.perform l.this l.frame = some (value, l.frame) := by
    rw [hframe]
    rfl
  exact exec_silentStack hdialog rfl rfl hperform

theorem exec_pop
    (hdialog : w.dialogs l.self = some dialog) (hframe : l.frame = value :: rest) :
    (stackOp c .pop : DialogProgram Unit).exec (performDialogOp ctx data) (w, l) =
      (.ok (), (w, l.setFrame rest)) := by
  have hperform : StackOp.pop.perform l.this l.frame = some ((), rest) := by
    rw [hframe]
    rfl
  exact exec_silentStack hdialog rfl rfl hperform

theorem exec_replaceTop
    (hdialog : w.dialogs l.self = some dialog) (hframe : l.frame = value :: rest)
    (new : JSValue) :
    (stackOp c (.replaceTop new) : DialogProgram Unit).exec (performDialogOp ctx data)
      (w, l) = (.ok (), (w, l.setFrame (new :: rest))) := by
  have hperform : (StackOp.replaceTop new).perform l.this l.frame =
      some ((), new :: rest) := by
    rw [hframe]
    rfl
  exact exec_silentStack hdialog rfl rfl hperform

/-- The value on the top of the stack is converted in place. -/
theorem exec_dukToString
    (hdialog : w.dialogs l.self = some dialog) (hframe : l.frame = value :: rest) :
    ∃ top, (dukToString c : DialogProgram DukString).exec (performDialogOp ctx data)
      (w, l) = (.ok (data.toText value), (w, l.setFrame (top :: rest))) := by
  have hreplace : ∀ text,
      (dukToString.replaceBy c text : DialogProgram DukString).exec
        (performDialogOp ctx data) (w, l) =
          (.ok text, (w, l.setFrame (.string text :: rest))) := by
    intro text
    unfold dukToString.replaceBy
    rw [Program.monad_bind, Program.exec_bind_ok (exec_replaceTop hdialog hframe _)]
    rfl
  have hobject : (stackOp c .objectToString : DialogProgram DukString).exec
      (performDialogOp ctx data) (w, l) =
        (.ok (data.text value), (w, l.setFrame (.string (data.text value) :: rest))) := by
    apply exec_read rfl
    · simp [OptionData.answers, hframe]
    · rw [hframe]
      rfl
  have hscalar : (stackOp c .scalarToString : DialogProgram DukString).exec
      (performDialogOp ctx data) (w, l) =
        (.ok (data.text value), (w, l.setFrame (.string (data.text value) :: rest))) := by
    apply exec_read rfl
    · simp [OptionData.answers, hframe]
    · rw [hframe]
      rfl
  unfold dukToString
  rw [Program.monad_bind, Program.exec_bind_ok (exec_getTop hdialog hframe)]
  cases value with
  | undefined => exact ⟨_, hreplace _⟩
  | null => exact ⟨_, hreplace _⟩
  | boolean value => cases value <;> exact ⟨_, hreplace _⟩
  | string value =>
      refine ⟨.string value, ?_⟩
      rw [← hframe, DialogLocals.setFrame_eq]
      rfl
  | number value => exact ⟨_, hscalar⟩
  | other truthy => exact ⟨_, hscalar⟩
  | object id => exact ⟨_, hobject⟩
  | array id => exact ⟨_, hobject⟩
  | newObject => exact ⟨_, hobject⟩
  | globalStash => exact ⟨_, hobject⟩
  | eventEmitterEmit => exact ⟨_, hobject⟩

/-- A value that was read is converted to a string and popped. -/
theorem exec_dukToString_pop
    {α : Type} (hdialog : w.dialogs l.self = some dialog) (value : JSValue)
    (f : DukString → DialogProgram α) :
    ((dukToString c).bind fun text => (stackOp c .pop).bind fun _ => f text).exec
      (performDialogOp ctx data) (w, l.setFrame (value :: l.frame)) =
        (f (data.toText value)).exec (performDialogOp ctx data) (w, l) := by
  set read := l.setFrame (value :: l.frame) with hread
  have hself : w.dialogs read.self = some dialog := hdialog
  obtain ⟨top, htext⟩ : ∃ top, (dukToString c : DialogProgram DukString).exec
      (performDialogOp ctx data) (w, read) =
        (.ok (data.toText value), (w, read.setFrame (top :: l.frame))) :=
    exec_dukToString hself rfl
  have hpop : (stackOp c .pop : DialogProgram Unit).exec (performDialogOp ctx data)
      (w, read.setFrame (top :: l.frame)) = (.ok (), (w, l)) :=
    exec_pop hself rfl
  rw [Program.exec_bind_ok htext, Program.exec_bind_ok hpop]

theorem exec_jsGetPropString
    (hdialog : w.dialogs l.self = some dialog) (hframe : l.frame = value :: rest)
    (key : PropKey) :
    (jsGetPropString c key : DialogProgram DukString).exec (performDialogOp ctx data)
      (w, l) = (.ok (cString (data.toText (data.property value key))), (w, l)) := by
  unfold jsGetPropString
  rw [Program.monad_bind, Program.exec_bind_ok (exec_getProp hframe key)]
  simp only [Program.monad_bind]
  rw [exec_dukToString_pop hdialog]
  rfl

theorem exec_jsGetPropStringIsNull
    (hdialog : w.dialogs l.self = some dialog) (hframe : l.frame = value :: rest)
    (key : PropKey) :
    (jsGetPropStringIsNull c key : DialogProgram (DukString × Bool)).exec
      (performDialogOp ctx data) (w, l) =
        (.ok (cString (data.toText (data.property value key)),
          (data.property value key).isNullOrUndefined), (w, l)) := by
  set read := l.setFrame (data.property value key :: l.frame) with hread
  have hself : w.dialogs read.self = some dialog := hdialog
  have htop : (stackOp c .getTop : DialogProgram JSValue).exec (performDialogOp ctx data)
      (w, read) = (.ok (data.property value key), (w, read)) :=
    exec_getTop hself rfl
  unfold jsGetPropStringIsNull
  rw [Program.monad_bind, Program.exec_bind_ok (exec_getProp hframe key),
    Program.monad_bind, Program.exec_bind_ok htop]
  simp only [Program.monad_bind]
  rw [exec_dukToString_pop hdialog]
  rfl

theorem exec_jsGetPropBoolean
    (hdialog : w.dialogs l.self = some dialog) (hframe : l.frame = value :: rest)
    (key : PropKey) :
    (jsGetPropBoolean c key : DialogProgram Bool).exec (performDialogOp ctx data)
      (w, l) = (.ok (data.property value key).toBoolean, (w, l)) := by
  set read := l.setFrame (data.property value key :: l.frame) with hread
  have hself : w.dialogs read.self = some dialog := hdialog
  have htop : (stackOp c .getTop : DialogProgram JSValue).exec (performDialogOp ctx data)
      (w, read) = (.ok (data.property value key), (w, read)) :=
    exec_getTop hself rfl
  have hreplace : (stackOp c (.replaceTop (.boolean (data.property value key).toBoolean)) :
      DialogProgram Unit).exec (performDialogOp ctx data) (w, read) =
        (.ok (), (w, read.setFrame
          (.boolean (data.property value key).toBoolean :: l.frame))) :=
    exec_replaceTop hself rfl _
  have hpop : (stackOp c .pop : DialogProgram Unit).exec (performDialogOp ctx data)
      (w, read.setFrame (.boolean (data.property value key).toBoolean :: l.frame)) =
        (.ok (), (w, l)) :=
    exec_pop hself rfl
  have hboolean : (dukToBoolean c : DialogProgram Bool).exec (performDialogOp ctx data)
      (w, read) = (.ok (data.property value key).toBoolean, (w, read.setFrame
        (.boolean (data.property value key).toBoolean :: l.frame))) := by
    unfold dukToBoolean
    rw [Program.monad_bind, Program.exec_bind_ok htop, Program.monad_bind,
      Program.exec_bind_ok hreplace]
    rfl
  unfold jsGetPropBoolean
  rw [Program.monad_bind, Program.exec_bind_ok (exec_getProp hframe key),
    Program.monad_bind, Program.exec_bind_ok hboolean, Program.monad_bind,
    Program.exec_bind_ok hpop]
  rfl

theorem exec_arrayField_array
    (hdialog : w.dialogs l.self = some dialog) (hframe : l.frame = value :: rest)
    {name : String} (harray : (data.property value (.name name)).isArray = true)
    (use : ℕ → DialogProgram Unit) :
    (NKWinTaskDialog.arrayField c name use).exec (performDialogOp ctx data) (w, l) =
      ((use (data.length (data.property value (.name name)))).bind fun _ =>
        stackOp c .pop).exec (performDialogOp ctx data)
          (w, l.setFrame (data.property value (.name name) :: l.frame)) := by
  set read := l.setFrame (data.property value (.name name) :: l.frame) with hread
  have hself : w.dialogs read.self = some dialog := hdialog
  have htop : (stackOp c .getTop : DialogProgram JSValue).exec (performDialogOp ctx data)
      (w, read) = (.ok (data.property value (.name name)), (w, read)) :=
    exec_getTop hself rfl
  have hlength : (stackOp c .getLength : DialogProgram ℕ).exec (performDialogOp ctx data)
      (w, read) = (.ok (data.length (data.property value (.name name))), (w, read)) :=
    exec_getLength rfl
  unfold NKWinTaskDialog.arrayField
  rw [Program.monad_bind, Program.exec_bind_ok (exec_getProp hframe _),
    Program.monad_bind, Program.exec_bind_ok htop, if_pos harray, Program.monad_bind,
    Program.exec_bind_ok hlength]
  rfl

theorem exec_arrayField_other
    (hdialog : w.dialogs l.self = some dialog) (hframe : l.frame = value :: rest)
    {name : String} (hother : (data.property value (.name name)).isArray = false)
    (use : ℕ → DialogProgram Unit) :
    (NKWinTaskDialog.arrayField c name use).exec (performDialogOp ctx data) (w, l) =
      (.ok (), (w, l)) := by
  set read := l.setFrame (data.property value (.name name) :: l.frame) with hread
  have hself : w.dialogs read.self = some dialog := hdialog
  have htop : (stackOp c .getTop : DialogProgram JSValue).exec (performDialogOp ctx data)
      (w, read) = (.ok (data.property value (.name name)), (w, read)) :=
    exec_getTop hself rfl
  have hpop : (stackOp c .pop : DialogProgram Unit).exec (performDialogOp ctx data)
      (w, read) = (.ok (), (w, l)) :=
    exec_pop hself rfl
  unfold NKWinTaskDialog.arrayField
  rw [Program.monad_bind, Program.exec_bind_ok (exec_getProp hframe _),
    Program.monad_bind, Program.exec_bind_ok htop, if_neg (by simp [hother])]
  exact hpop

end DialogOptions

end NekoScript
