import NekoScript.ActivationLocals
import NekoScript.TaskDialogRouting
import Mathlib.Tactic

/-!
# The value stack of a dialog

`callback` pushes `emit` and the object before it looks at the notification, and
each case that calls `emit` takes both off again.  `CreateConfig` pops what it
has read.
-/

namespace NekoScript

open Programs ReentrantCalls TaskDialogHost GuardedRuns

/-- The slots that are left above the stack as it was found. -/
def Notification.leftover : Notification → ℕ
  | .unlisted _ => 2
  | _ => 0

/-- The height of the value stack at which an activation starts: a native finds
its arguments, and a callback starts from where the stack is. -/
def DialogCall.found : DialogCall → ℕ
  | .method m _ _ _ => m.nargs
  | .notify _ _ _ _ => 0
  | .other _ => 0

def DialogCall.listed : DialogCall → Bool
  | .notify _ notification _ _ => notification.listed
  | _ => true

def DialogCall.leftover : DialogCall → ℕ
  | .notify _ notification _ _ => notification.leftover
  | _ => 0

/-- An activation that returns has left the stack at the height it found. -/
def LeavesAsFound (frame : DialogFrame) : Prop :=
  frame.locals.frame.length = frame.call.found

instance : DecidablePred LeavesAsFound :=
  fun _ => inferInstanceAs (Decidable (_ = _))

theorem leftover_eq_zero_iff (call : DialogCall) :
    call.leftover = 0 ↔ call.listed = true := by
  cases call with
  | method m this self args => simp [DialogCall.leftover, DialogCall.listed]
  | notify window notification wParam lParam =>
      cases notification <;>
        simp [DialogCall.leftover, DialogCall.listed, Notification.leftover,
          Notification.listed]
  | other this => simp [DialogCall.leftover, DialogCall.listed]

theorem length_frame_of_enter
    {call : DialogCall} {w w' : World} {below : List DialogFrame}
    {awaited : Option DialogOp} {l : DialogLocals}
    (henter : call.enter w below awaited = some (w', l)) :
    l.frame.length = call.found := by
  cases call with
  | method m this self args =>
      rcases of_enter_method henter with ⟨_, rfl, _⟩
      change (m.initialFrame args).length = m.nargs
      simp [DialogMethod.initialFrame]
  | notify window notification wParam lParam =>
      rcases of_enter_notify henter with ⟨_, _, _, _, _, _, rfl, _⟩
      rfl
  | other this =>
      rcases of_enter_other henter with ⟨_, rfl⟩
      rfl

namespace StackBalance

variable {ctx c : Context} {α β : Type} {l : DialogLocals} {rest : ValueFrame}

/-! ## Operations -/

section Operations

variable {Q : α → DialogLocals → Prop}

theorem leaves_stack
    {op : StackOp} (hsilent : op.awaits = false) {next : op.Answer → DialogProgram α}
    (hnext : ∀ answer frame, op.perform l.this l.frame = some (answer, frame) →
      (taskDialogHost ctx).Leaves Q (next answer) { l with frame := frame }) :
    (taskDialogHost ctx).Leaves Q (.perform (.stack c op) next) l := by
  intro w answer w' l' hdone
  have hawaits : ¬ (taskDialogHost ctx).awaits (.stack c op) = true := by
    simp [taskDialogHost, hsilent]
  unfold Host.Performs at hdone
  rw [if_neg hawaits] at hdone
  rcases of_effect_stack hdone with ⟨_, frame, _, hperform, _, rfl⟩
  exact hnext answer frame hperform

theorem leaves_awaited
    {op : StackOp} (hawaited : op.awaits = true) {next : op.Answer → DialogProgram α}
    (hnext : ∀ answer frame, op.resume answer l.frame = some frame →
      (taskDialogHost ctx).Leaves Q (next answer) { l with frame := frame }) :
    (taskDialogHost ctx).Leaves Q (.perform (.stack c op) next) l := by
  intro w answer w' l' hdone
  have hawaits : (taskDialogHost ctx).awaits (.stack c op) = true := hawaited
  unfold Host.Performs at hdone
  rw [if_pos hawaits] at hdone
  simp only [taskDialogHost, Option.map_eq_some_iff, Prod.mk.injEq] at hdone
  rcases hdone with ⟨frame, hresume, _, rfl⟩
  exact hnext answer frame hresume

/-- Effects on the native object and on Windows do not touch the value stack. -/
theorem leaves_effect
    {e : DialogEffect} {next : e.Answer → DialogProgram α}
    (hnext : ∀ answer l', l'.frame = l.frame →
      (taskDialogHost ctx).Leaves Q (next answer) l') :
    (taskDialogHost ctx).Leaves Q (.perform (.effect e) next) l := by
  intro w answer w' l' hdone
  unfold Host.Performs at hdone
  split at hdone
  next =>
    rcases of_resume_effect hdone with ⟨_, rfl⟩ | ⟨_, _, rfl⟩
    · exact hnext answer _ rfl
    · exact hnext answer _ rfl
  next =>
    rcases of_effect_effect hdone with ⟨dialog, hdialog, hperform⟩
    rcases exists_replaced hdialog hperform with ⟨_, hreplaced, _⟩
    exact hnext answer l' hreplaced.frame

theorem leaves_throw (error : ThrownError) :
    (taskDialogHost ctx).Leaves Q (dukThrow c error : DialogProgram α) l := by
  apply leaves_awaited rfl
  intro answer
  exact Empty.elim answer

end Operations

/-- The program ends with the value stack as it was. -/
def KeepsFrame (ctx : Context) (p : DialogProgram α) : Prop :=
  ∀ l, (taskDialogHost ctx).Leaves (fun _ l' => l'.frame = l.frame) p l

/-- One value is above `rest`. -/
def OneAbove (rest : ValueFrame) (l : DialogLocals) : Prop :=
  ∃ top, l.frame = top :: rest

theorem keepsFrame_pure (value : α) : KeepsFrame ctx (.pure value) :=
  fun _ => rfl

theorem keepsFrame_perform (e : DialogEffect) :
    KeepsFrame ctx (NKWinTaskDialog.perform e) := by
  intro l
  apply leaves_effect
  exact fun _ _ hframe => hframe

theorem KeepsFrame.bind
    {p : DialogProgram α} {f : α → DialogProgram β} (hp : KeepsFrame ctx p)
    (hf : ∀ value, KeepsFrame ctx (f value)) : KeepsFrame ctx (p.bind f) := by
  intro l
  apply (hp l).bind
  intro value l' hframe
  have hrest := hf value l'
  rwa [hframe] at hrest

theorem KeepsFrame.forM
    {ι : Type} {items : List ι} {f : ι → DialogProgram PUnit}
    (hf : ∀ item, KeepsFrame ctx (f item)) : KeepsFrame ctx (items.forM f) := by
  intro l
  have hstep : ∀ item l', l'.frame = l.frame →
      (taskDialogHost ctx).Leaves (fun _ l'' => l''.frame = l.frame) (f item) l' := by
    intro item l' hframe
    have hitem := hf item l'
    rwa [hframe] at hitem
  exact Host.Leaves.forM (I := fun l' : DialogLocals => l'.frame = l.frame) hstep rfl

/-- A program that keeps the stack, run above one value. -/
theorem KeepsFrame.oneAbove
    {p : DialogProgram α} (hp : KeepsFrame ctx p) (habove : OneAbove rest l) :
    (taskDialogHost ctx).Leaves (fun _ => OneAbove rest) p l := by
  apply (hp l).mono
  intro _ l' hframe
  unfold OneAbove
  rw [hframe]
  exact habove

/-- An operation whose result depends on the value on top only. -/
theorem leaves_onTop
    {Q : α → DialogLocals → Prop} {op : StackOp} (hsilent : op.awaits = false)
    (habove : OneAbove rest l) {next : op.Answer → DialogProgram α}
    (hnext : ∀ top answer frame, op.perform l.this (top :: rest) = some (answer, frame) →
      (taskDialogHost ctx).Leaves Q (next answer) { l with frame := frame }) :
    (taskDialogHost ctx).Leaves Q (.perform (.stack c op) next) l := by
  rcases habove with ⟨top, hframe⟩
  apply leaves_stack hsilent
  intro answer frame hperform
  rw [hframe] at hperform
  exact hnext top answer frame hperform

/-- A coercion that may run a script. -/
theorem leaves_coerced
    {op : StackOp} (hawaited : op.awaits = true)
    (hcoerce : ∀ answer top frame, op.resume answer (top :: rest) = some frame →
      ∃ coerced, frame = coerced :: rest) (habove : OneAbove rest l) :
    (taskDialogHost ctx).Leaves (fun _ => OneAbove rest)
      (stackOp c op : DialogProgram op.Answer) l := by
  rcases habove with ⟨top, hframe⟩
  apply leaves_awaited hawaited
  intro answer frame hresume
  rw [hframe] at hresume
  exact hcoerce answer top frame hresume

theorem leaves_pop (habove : OneAbove rest l) :
    (taskDialogHost ctx).Leaves (fun _ l' => l'.frame = rest)
      (stackOp c .pop : DialogProgram Unit) l := by
  apply leaves_onTop rfl habove
  intro top _ frame hperform
  exact (Prod.mk.inj (Option.some.inj hperform)).2.symm

theorem leaves_dukToString (habove : OneAbove rest l) :
    (taskDialogHost ctx).Leaves (fun _ => OneAbove rest)
      (dukToString c : DialogProgram DukString) l := by
  have hreplace : ∀ text l', OneAbove rest l' →
      (taskDialogHost ctx).Leaves (fun _ => OneAbove rest)
        (dukToString.replaceBy c text : DialogProgram DukString) l' := by
    intro text l' habove'
    apply leaves_onTop rfl habove'
    intro top _ frame hperform
    exact ⟨_, (Prod.mk.inj (Option.some.inj hperform)).2.symm⟩
  have hscalar : ∀ l', OneAbove rest l' →
      (taskDialogHost ctx).Leaves (fun _ => OneAbove rest)
        (stackOp c .scalarToString : DialogProgram DukString) l' := by
    intro l'
    apply leaves_coerced rfl
    exact fun _ _ _ hresume => ⟨_, (Option.some.inj hresume).symm⟩
  have hobject : ∀ l', OneAbove rest l' →
      (taskDialogHost ctx).Leaves (fun _ => OneAbove rest)
        (stackOp c .objectToString : DialogProgram DukString) l' := by
    intro l'
    apply leaves_coerced rfl
    exact fun _ _ _ hresume => ⟨_, (Option.some.inj hresume).symm⟩
  apply leaves_onTop rfl habove
  intro top value frame hperform
  have hsame : top :: rest = frame := (Prod.mk.inj (Option.some.inj hperform)).2
  have hone : OneAbove rest { l with frame := frame } := ⟨top, hsame.symm⟩
  simp only [Program.pure_bind]
  split
  · exact hreplace _ _ hone
  · exact hreplace _ _ hone
  · exact hreplace _ _ hone
  · exact hreplace _ _ hone
  · exact hone
  · exact hscalar _ hone
  · exact hscalar _ hone
  · exact hobject _ hone

/-! ## `Helper.cpp` -/

theorem leaves_getProp
    {Q : α → DialogLocals → Prop} {key : PropKey} {next : JSValue → DialogProgram α}
    (hnext : ∀ value l', l'.frame = value :: l.frame →
      (taskDialogHost ctx).Leaves Q (next value) l') :
    (taskDialogHost ctx).Leaves Q (.perform (.stack c (.getProp key)) next) l := by
  apply leaves_awaited rfl
  intro value frame hresume
  exact hnext value _ (Option.some.inj hresume).symm

theorem leaves_getTop
    {Q : α → DialogLocals → Prop} {next : JSValue → DialogProgram α}
    (habove : OneAbove rest l)
    (hnext : ∀ value l', OneAbove rest l' →
      (taskDialogHost ctx).Leaves Q (next value) l') :
    (taskDialogHost ctx).Leaves Q (.perform (.stack c .getTop) next) l := by
  apply leaves_onTop rfl habove
  intro top value frame hperform
  exact hnext value _ ⟨top, (Prod.mk.inj (Option.some.inj hperform)).2.symm⟩

/-- Whatever is done with it, the value that was read is popped. -/
theorem leaves_popped
    {value : β} (habove : OneAbove rest l) :
    (taskDialogHost ctx).Leaves (fun _ l' => l'.frame = rest)
      ((stackOp c .pop : DialogProgram Unit).bind fun _ => .pure value) l := by
  apply (leaves_pop habove).bind
  exact fun _ _ hframe => hframe

theorem keepsFrame_jsGetPropString (key : PropKey) :
    KeepsFrame ctx (jsGetPropString c key) := by
  intro l
  apply leaves_getProp
  intro value l' hframe
  apply (leaves_dukToString ⟨value, hframe⟩).bind
  intro _ _ habove
  exact leaves_popped habove

theorem keepsFrame_jsGetPropStringIsNull (key : PropKey) :
    KeepsFrame ctx (jsGetPropStringIsNull c key) := by
  intro l
  apply leaves_getProp
  intro value l' hframe
  apply leaves_getTop ⟨value, hframe⟩
  intro _ _ habove
  apply (leaves_dukToString habove).bind
  intro _ _ habove
  exact leaves_popped habove

theorem keepsFrame_jsGetPropBoolean (key : PropKey) :
    KeepsFrame ctx (jsGetPropBoolean c key) := by
  intro l
  apply leaves_getProp
  intro value l' hframe
  apply leaves_getTop ⟨value, hframe⟩
  intro top l'' habove
  apply leaves_onTop rfl habove
  intro _ _ frame hperform
  exact leaves_popped ⟨_, (Prod.mk.inj (Option.some.inj hperform)).2.symm⟩

/-! ## `CreateConfig` -/

theorem keepsFrame_getLength
    {next : ℕ → DialogProgram α} (hnext : ∀ length, KeepsFrame ctx (next length)) :
    KeepsFrame ctx (.perform (.stack c .getLength) next) := by
  intro l
  apply leaves_awaited rfl
  intro length frame hresume
  rw [← Option.some.inj hresume]
  exact hnext length l

theorem keepsFrame_textField (text : ConfigText) :
    KeepsFrame ctx (NKWinTaskDialog.textField c text) :=
  (keepsFrame_jsGetPropStringIsNull _).bind fun _ => keepsFrame_perform _

theorem keepsFrame_flagField (flag : TaskDialogFlag) :
    KeepsFrame ctx (NKWinTaskDialog.flagField c flag) := by
  apply (keepsFrame_jsGetPropBoolean _).bind
  intro value
  cases value with
  | true => exact keepsFrame_perform _
  | false => exact keepsFrame_pure _

theorem keepsFrame_iconFields : KeepsFrame ctx (NKWinTaskDialog.iconFields c) := by
  apply (keepsFrame_jsGetPropString _).bind
  intro _
  apply (keepsFrame_perform _).bind
  intro _
  exact (keepsFrame_jsGetPropString _).bind fun _ => keepsFrame_perform _

theorem keepsFrame_arrayField
    (name : String) {use : ℕ → DialogProgram Unit}
    (huse : ∀ length, KeepsFrame ctx (use length)) :
    KeepsFrame ctx (NKWinTaskDialog.arrayField c name use) := by
  intro l
  apply leaves_getProp
  intro value l' hframe
  apply leaves_getTop ⟨value, hframe⟩
  intro top l'' habove
  simp only [Program.pure_bind]
  split
  · have hread : KeepsFrame ctx
        (.perform (.stack c .getLength) fun length => use length) :=
      keepsFrame_getLength huse
    exact (hread.oneAbove habove).bind fun _ _ => leaves_pop
  · exact leaves_pop habove

theorem keepsFrame_commonButtons : KeepsFrame ctx (NKWinTaskDialog.commonButtons c) := by
  apply keepsFrame_arrayField
  intro length
  apply KeepsFrame.forM
  intro i
  exact (keepsFrame_jsGetPropString _).bind fun _ => keepsFrame_perform _

theorem keepsFrame_button (i : ℕ) : KeepsFrame ctx (NKWinTaskDialog.button c i) := by
  apply (keepsFrame_jsGetPropString _).bind
  intro _
  exact (keepsFrame_perform _).bind fun _ => keepsFrame_perform _

theorem keepsFrame_radioButton (i : ℕ) :
    KeepsFrame ctx (NKWinTaskDialog.radioButton c i) := by
  apply (keepsFrame_jsGetPropString _).bind
  intro _
  exact (keepsFrame_perform _).bind fun _ => keepsFrame_perform _

/-- Room is made for the items, they are read, and the configuration is told. -/
theorem keepsFrame_items
    {texts array native : DialogEffect} {items : List ℕ} {item : ℕ → DialogProgram PUnit}
    {tell : native.Answer → DialogProgram Unit} (hitem : ∀ i, KeepsFrame ctx (item i))
    (htell : ∀ answer, KeepsFrame ctx (tell answer)) :
    KeepsFrame ctx ((NKWinTaskDialog.perform texts).bind fun _ =>
      (NKWinTaskDialog.perform array).bind fun _ =>
        (items.forM item).bind fun _ =>
          (NKWinTaskDialog.perform native).bind tell) := by
  apply (keepsFrame_perform _).bind
  intro _
  apply (keepsFrame_perform _).bind
  intro _
  apply (KeepsFrame.forM hitem).bind
  intro _
  exact (keepsFrame_perform _).bind htell

theorem keepsFrame_buttons : KeepsFrame ctx (NKWinTaskDialog.buttons c) := by
  apply keepsFrame_arrayField
  intro length
  apply keepsFrame_items keepsFrame_button
  exact fun _ => keepsFrame_perform _

theorem keepsFrame_radioButtons : KeepsFrame ctx (NKWinTaskDialog.radioButtons c) := by
  apply keepsFrame_arrayField
  intro length
  apply keepsFrame_items keepsFrame_radioButton
  exact fun _ => keepsFrame_perform _

theorem leaves_pushOptions :
    (taskDialogHost ctx).Leaves (fun _ => OneAbove l.frame)
      (NKWinTaskDialog.pushOptions c) l := by
  apply leaves_stack rfl
  intro options frame hperform
  have hsame : l.frame = frame := (Prod.mk.inj (Option.some.inj hperform)).2
  simp only [Program.pure_bind]
  split
  · apply leaves_stack rfl
    intro _ frame' hperform'
    have hpushed := (Prod.mk.inj (Option.some.inj hperform')).2
    exact ⟨_, hsame ▸ hpushed.symm⟩
  · apply leaves_stack rfl
    intro _ frame' hperform'
    have hpushed := (Prod.mk.inj (Option.some.inj hperform')).2
    exact ⟨_, hsame ▸ hpushed.symm⟩

theorem keepsFrame_createConfig : KeepsFrame ctx (NKWinTaskDialog.createConfig c) := by
  have hfields : KeepsFrame ctx
      ((NKWinTaskDialog.configTexts.forM (NKWinTaskDialog.textField c)).bind fun _ =>
        (NKWinTaskDialog.configFlags.forM (NKWinTaskDialog.flagField c)).bind fun _ =>
          (NKWinTaskDialog.iconFields c).bind fun _ =>
            NKWinTaskDialog.commonButtons c) := by
    apply (KeepsFrame.forM keepsFrame_textField).bind
    intro _
    apply (KeepsFrame.forM keepsFrame_flagField).bind
    intro _
    exact keepsFrame_iconFields.bind fun _ => keepsFrame_commonButtons
  intro l
  apply leaves_effect
  intro _ l1 hframe1
  have hhead : (taskDialogHost ctx).Leaves (fun _ => OneAbove l.frame)
      (NKWinTaskDialog.createConfigHead c) l1 := by
    apply leaves_effect
    intro _ l2 hframe2
    have hpushed : (taskDialogHost ctx).Leaves (fun _ => OneAbove l.frame)
        (NKWinTaskDialog.pushOptions c) l2 := by
      rw [← hframe1, ← hframe2]
      exact leaves_pushOptions
    exact hpushed.bind fun _ _ habove => hfields.oneAbove habove
  apply hhead.bind
  intro _ _ habove
  apply (keepsFrame_buttons.oneAbove habove).bind
  intro _ _ habove
  apply (keepsFrame_radioButtons.oneAbove habove).bind
  intro _ _ habove
  exact leaves_pop habove

/-! ## `callback` -/

theorem leaves_push
    {Q : α → DialogLocals → Prop} {value : JSValue} {next : Unit → DialogProgram α}
    (hnext : ∀ l', l'.frame = value :: l.frame →
      (taskDialogHost ctx).Leaves Q (next ()) l') :
    (taskDialogHost ctx).Leaves Q (.perform (.stack c (.push value)) next) l := by
  apply leaves_stack rfl
  intro _ frame hperform
  exact hnext _ (Prod.mk.inj (Option.some.inj hperform)).2.symm

theorem leaves_pushAll (args : List JSValue) :
    (taskDialogHost ctx).Leaves (fun _ l' => l'.frame = args.reverse ++ l.frame)
      (args.forM fun arg => (stackOp c (.push arg) : DialogProgram Unit)) l := by
  induction args generalizing l with
  | nil => exact rfl
  | cons arg args ih =>
      apply leaves_push
      intro l' hframe
      apply (ih (l := l')).mono
      intro _ l'' hframe'
      rw [hframe', hframe]
      simp

/-- The call takes the name, the arguments, the object and `emit` off the
stack. -/
theorem leaves_emit
    {this emitted : JSValue} (hframe : l.frame = this :: emitted :: rest)
    (name : String) (args : List JSValue) :
    (taskDialogHost ctx).Leaves (fun _ l' => l'.frame = rest)
      (NKWinTaskDialog.emit c name args) l := by
  apply leaves_push
  intro l1 hframe1
  apply (leaves_pushAll args).bind
  intro _ l2 hframe2
  have hpushed : l2.frame = (args.reverse ++ [JSValue.text name, this, emitted]) ++ rest := by
    rw [hframe2, hframe1, hframe]
    simp
  have hlength : (args.reverse ++ [JSValue.text name, this, emitted]).length =
      args.length + 1 + 2 := by simp
  apply leaves_stack rfl
  intro _ frame hperform
  have hdrop : l2.frame.drop (args.length + 1 + 2) = frame :=
    (Prod.mk.inj (Option.some.inj hperform)).2
  rw [hpushed, ← hlength, List.drop_left] at hdrop
  apply leaves_awaited rfl
  intro value frame' hresume
  have hresult : value :: frame = frame' := Option.some.inj hresume
  apply leaves_pop
  exact ⟨value, by rw [← hresult, hdrop]⟩

theorem leaves_pushEmit
    {Q : α → DialogLocals → Prop} {next : Unit → DialogProgram α}
    (hnext : ∀ l', l'.frame = l.this :: .eventEmitterEmit :: l.frame →
      (taskDialogHost ctx).Leaves Q (next ()) l') :
    (taskDialogHost ctx).Leaves Q
      ((putEmitOnStack c).bind fun _ => .perform (.stack c .pushThis) next) l := by
  apply leaves_stack rfl
  rintro _ frame ⟨⟩
  apply leaves_stack rfl
  rintro _ frame ⟨⟩
  apply leaves_stack rfl
  rintro _ frame ⟨⟩
  apply leaves_stack rfl
  rintro _ frame ⟨⟩
  apply leaves_stack rfl
  rintro _ frame ⟨⟩
  exact hnext _ rfl

theorem leaves_emitted
    {this emitted : JSValue} (hframe : l.frame = this :: emitted :: rest)
    (name : String) (args : List JSValue) (result : ℤ) :
    (taskDialogHost ctx).Leaves (fun _ l' => l'.frame = rest)
      ((NKWinTaskDialog.emit c name args).bind fun _ => .pure result) l := by
  apply (leaves_emit hframe name args).bind
  exact fun _ _ hrest => hrest

/-- Every case calls `emit` once, and what is not listed leaves what has been
pushed for it. -/
theorem leaves_callback
    (handle : ℕ) (notification : Notification) (wParam : ℕ) (lParam : List UInt16) :
    (taskDialogHost ctx).Leaves
      (fun _ l' => l'.frame.length = l.frame.length + notification.leftover)
      (NKWinTaskDialog.callback c handle notification wParam lParam) l := by
  have hlength : ∀ (value : ℤ) (l' : DialogLocals), l'.frame = l.frame →
      l'.frame.length = l.frame.length + 0 := by
    intro _ l' hframe
    rw [hframe, Nat.add_zero]
  apply leaves_pushEmit
  intro l1 hframe
  cases notification with
  | created =>
      apply leaves_effect
      intro _ l2 hframe2
      apply leaves_effect
      intro _ l3 hframe3
      have hsame : l3.frame = l.this :: .eventEmitterEmit :: l.frame := by
        rw [hframe3, hframe2, hframe]
      exact (leaves_emitted hsame _ _ _).mono hlength
  | navigated => exact (leaves_emitted hframe _ _ _).mono hlength
  | buttonClicked =>
      apply leaves_effect
      intro _ l2 hframe2
      have hsame : l2.frame = l.this :: .eventEmitterEmit :: l.frame := by
        rw [hframe2, hframe]
      apply (leaves_emit hsame _ _).bind
      intro _ l3 hframe3
      apply leaves_effect
      intro self l4 hframe4
      simp only [Program.pure_bind]
      split
      · apply leaves_effect
        intro _ l5 hframe5
        exact hlength 0 l5 (by rw [hframe5, hframe4, hframe3])
      · exact hlength 0 l4 (by rw [hframe4, hframe3])
  | hyperlinkClicked => exact (leaves_emitted hframe _ _ _).mono hlength
  | timer => exact (leaves_emitted hframe _ _ _).mono hlength
  | destroyed =>
      apply leaves_effect
      intro _ l2 hframe2
      have hsame : l2.frame = l.this :: .eventEmitterEmit :: l.frame := by
        rw [hframe2, hframe]
      exact (leaves_emitted hsame _ _ _).mono hlength
  | radioButtonClicked => exact (leaves_emitted hframe _ _ _).mono hlength
  | dialogConstructed =>
      apply leaves_effect
      intro _ l2 hframe2
      apply leaves_effect
      intro _ l3 hframe3
      apply leaves_effect
      intro _ l4 hframe4
      have hsame : l4.frame = l.this :: .eventEmitterEmit :: l.frame := by
        rw [hframe4, hframe3, hframe2, hframe]
      exact (leaves_emitted hsame _ _ _).mono hlength
  | verificationClicked => exact (leaves_emitted hframe _ _ _).mono hlength
  | help => exact (leaves_emitted hframe _ _ _).mono hlength
  | expandoButtonClicked => exact (leaves_emitted hframe _ _ _).mono hlength
  | unlisted code =>
      change l1.frame.length = l.frame.length + 2
      rw [hframe]
      rfl

/-! ## Whole activations -/

/-- The program ends with the value stack as high as it was. -/
def KeepsHeight (ctx : Context) (p : DialogProgram α) : Prop :=
  ∀ l, (taskDialogHost ctx).Leaves
    (fun _ l' => l'.frame.length = l.frame.length) p l

theorem KeepsFrame.height {p : DialogProgram α} (hp : KeepsFrame ctx p) :
    KeepsHeight ctx p := by
  intro l
  apply (hp l).mono
  exact fun _ _ hframe => congrArg List.length hframe

theorem KeepsHeight.bind
    {p : DialogProgram α} {f : α → DialogProgram β} (hp : KeepsHeight ctx p)
    (hf : ∀ value, KeepsHeight ctx (f value)) : KeepsHeight ctx (p.bind f) := by
  intro l
  apply (hp l).bind
  intro value l' hheight
  have hrest := hf value l'
  rwa [hheight] at hrest

theorem keepsFrame_throw (error : ThrownError) :
    KeepsFrame ctx (dukThrow c error : DialogProgram α) :=
  fun _ => leaves_throw error

theorem keepsFrame_get
    {index : ℕ} {next : JSValue → DialogProgram α}
    (hnext : ∀ value, KeepsFrame ctx (next value)) :
    KeepsFrame ctx (.perform (.stack c (.get index)) next) := by
  intro l
  apply leaves_stack rfl
  intro value frame hperform
  have hsame : l.frame = frame := (Prod.mk.inj (Option.some.inj hperform)).2
  rw [← hsame]
  exact hnext value l

theorem keepsFrame_dukRequireBoolean (index : ℕ) :
    KeepsFrame ctx (dukRequireBoolean c index : DialogProgram Bool) := by
  apply keepsFrame_get
  intro value
  simp only [Program.pure_bind]
  split
  · exact keepsFrame_pure _
  · exact keepsFrame_throw _

theorem keepsFrame_dukRequireInt (index : ℕ) :
    KeepsFrame ctx (dukRequireInt c index : DialogProgram ℤ) := by
  apply keepsFrame_get
  intro value
  simp only [Program.pure_bind]
  split
  · exact keepsFrame_pure _
  · exact keepsFrame_throw _

theorem keepsFrame_checkResult (result : ℤ) (function : String) :
    KeepsFrame ctx (NKWinTaskDialog.checkResult c result function) := by
  unfold NKWinTaskDialog.checkResult
  split
  · exact keepsFrame_throw _
  · exact keepsFrame_pure _

theorem keepsFrame_freeRuntime : KeepsFrame ctx NKWinTaskDialog.freeRuntime :=
  (keepsFrame_perform _).bind fun _ => keepsFrame_perform _

theorem keepsHeight_callback
    (handle : ℕ) {notification : Notification} (hlisted : notification.leftover = 0)
    (wParam : ℕ) (lParam : List UInt16) :
    KeepsHeight ctx (NKWinTaskDialog.callback c handle notification wParam lParam) := by
  intro l
  have hcallback : (taskDialogHost ctx).Leaves
      (fun _ l' => l'.frame.length = l.frame.length + notification.leftover)
      (NKWinTaskDialog.callback c handle notification wParam lParam) l :=
    leaves_callback handle notification wParam lParam
  rwa [hlisted] at hcallback

theorem keepsHeight_taskDialogIndirect :
    KeepsHeight ctx (NKWinTaskDialog.taskDialogIndirect c) := by
  apply (keepsFrame_perform _).height.bind
  intro created
  cases created with
  | error hr => exact (keepsFrame_pure _).height
  | ok window =>
      apply (keepsHeight_callback window rfl 0 []).bind
      exact fun _ => (keepsFrame_perform _).height

theorem keepsHeight_showDialog : KeepsHeight ctx (NKWinTaskDialog.showDialog c) := by
  apply (keepsFrame_perform _).height.bind
  intro self
  split
  · exact ((keepsFrame_perform _).bind fun _ => keepsFrame_pure _).height
  · apply keepsFrame_createConfig.height.bind
    intro _
    apply keepsHeight_taskDialogIndirect.bind
    intro hr
    exact (keepsFrame_freeRuntime.bind fun _ => keepsFrame_checkResult hr _).height

theorem keepsHeight_navigate : KeepsHeight ctx (NKWinTaskDialog.navigate c) := by
  apply (keepsFrame_perform _).height.bind
  intro self
  split
  · exact keepsHeight_showDialog
  · apply keepsFrame_createConfig.height.bind
    intro _
    apply (keepsFrame_perform _).height.bind
    intro _
    apply (keepsFrame_perform _).height.bind
    intro result
    exact (keepsFrame_freeRuntime.bind fun _ => keepsFrame_checkResult result _).height

theorem keepsFrame_enableButton : KeepsFrame ctx (NKWinTaskDialog.enableButton c) := by
  have hsend : ∀ enabled button,
      KeepsFrame ctx (NKWinTaskDialog.enableButton.send c enabled button) := by
    intro enabled button
    apply (keepsFrame_perform _).bind
    intro _
    apply (keepsFrame_perform _).bind
    exact fun result => keepsFrame_checkResult result _
  apply (keepsFrame_dukRequireBoolean 1).bind
  intro enabled
  apply keepsFrame_get
  intro button
  simp only [Program.pure_bind]
  split
  · exact hsend _ _
  · exact (keepsFrame_dukRequireInt 0).bind fun _ => hsend _ _

theorem keepsFrame_enableRadioButton :
    KeepsFrame ctx (NKWinTaskDialog.enableRadioButton c) := by
  apply (keepsFrame_dukRequireInt 0).bind
  intro button
  apply (keepsFrame_dukRequireBoolean 1).bind
  intro enabled
  apply (keepsFrame_perform _).bind
  intro _
  apply (keepsFrame_perform _).bind
  exact fun result => keepsFrame_checkResult result _

theorem keepsHeight_method (m : DialogMethod) : KeepsHeight ctx (m.body ctx) := by
  cases m with
  | showDialog => exact keepsHeight_showDialog
  | navigate => exact keepsHeight_navigate
  | preventClose => exact ((keepsFrame_perform _).bind fun _ => keepsFrame_pure _).height
  | enableButton => exact keepsFrame_enableButton.height
  | enableRadioButton => exact keepsFrame_enableRadioButton.height

theorem leaves_body (call : DialogCall) :
    (taskDialogHost ctx).Leaves
      (fun _ l' => l'.frame.length = l.frame.length + call.leftover)
      (call.body ctx) l := by
  cases call with
  | method m this self args => exact keepsHeight_method m l
  | notify window notification wParam lParam =>
      exact leaves_callback window notification wParam lParam
  | other this => exact ((keepsFrame_perform _).bind fun _ => keepsFrame_pure _).height l

end StackBalance

/-! ## Runs -/

/-- The dialogs, with a record of every activation that has returned. -/
abbrev departureHost (ctx : Context) :=
  (taskDialogHost ctx).observe
    (departures : Observer DialogCall DialogOp ℤ DialogLocals (List DialogFrame))

abbrev DepartureState := State DialogCall DialogOp
  (NativeOp.Answer DialogEffect.Answer) ℤ (World × List DialogFrame) DialogLocals

/-- Windows sends the notifications that the callback lists. -/
def SendsListed (_ : DepartureState) : DialogChoice → Prop
  | .enter call => call.listed = true
  | _ => True

instance (s : DepartureState) (choice : DialogChoice) : Decidable (SendsListed s choice) := by
  unfold SendsListed
  cases choice <;> infer_instance

/-- Whatever happens in a run, an unlisted notification costs two slots and
nothing else costs any. -/
theorem height_of_run
    {ctx : Context} {choices : List DialogChoice} {s : DepartureState}
    (hrun : GuardedRun (departureHost ctx).step (fun _ _ => True)
      ⟨(World.initial, []), []⟩ choices s) :
    ∀ frame ∈ s.world.2,
      frame.locals.frame.length = frame.call.found + frame.call.leftover := by
  have hbody : ∀ (_ : DepartureState) (call : DialogCall) (below : List DialogFrame)
      (awaited : Option DialogOp) (w w' : World) (l : DialogLocals), True →
      (taskDialogHost ctx).enter w below awaited call = some (w', l) →
      (taskDialogHost ctx).Leaves
        (fun _ l' => l'.frame.length = call.found + call.leftover)
        ((taskDialogHost ctx).body call) l := by
    intro _ call below awaited w w' l _ henter
    rw [← length_frame_of_enter henter]
    exact StackBalance.leaves_body call
  exact left_of_guardedRun (Q := fun frame =>
    frame.locals.frame.length = frame.call.found + frame.call.leftover) hbody hrun

theorem leavesAsFound_iff_listed
    {ctx : Context} {choices : List DialogChoice} {s : DepartureState}
    (hrun : GuardedRun (departureHost ctx).step (fun _ _ => True)
      ⟨(World.initial, []), []⟩ choices s)
    {frame : DialogFrame} (hmem : frame ∈ s.world.2) :
    LeavesAsFound frame ↔ frame.call.listed = true := by
  have hheight := height_of_run hrun frame hmem
  unfold LeavesAsFound
  rw [← leftover_eq_zero_iff]
  omega

/-- Every run of the dialogs has such a record. -/
theorem exists_departures
    {ctx : Context} {choices : List DialogChoice} {s : DialogState}
    (hrun : run (taskDialogHost ctx).step ⟨World.initial, []⟩ choices = some s) :
    ∃ left, run (departureHost ctx).step ⟨(World.initial, []), []⟩ choices =
      some ⟨(s.world, left), s.stack⟩ :=
  Host.exists_run_observe hrun []

/-- With listed notifications only, every activation of a run leaves the value
stack as it found it, and so does `CreateConfig` within `show` and `navigate`. -/
theorem stackBalanced_of_sendsListed
    {ctx : Context} {choices : List DialogChoice} {s : DepartureState}
    (hrun : GuardedRun (departureHost ctx).step SendsListed
      ⟨(World.initial, []), []⟩ choices s) :
    (∀ frame ∈ s.world.2, LeavesAsFound frame) ∧
      StackBalance.KeepsFrame ctx (NKWinTaskDialog.createConfig ctx) := by
  have hbody : ∀ (s : DepartureState) (call : DialogCall) (below : List DialogFrame)
      (awaited : Option DialogOp) (w w' : World) (l : DialogLocals),
      SendsListed s (.enter call) →
      (taskDialogHost ctx).enter w below awaited call = some (w', l) →
      (taskDialogHost ctx).Leaves (fun _ l' => LeavesAsFound ⟨call, l'⟩)
        ((taskDialogHost ctx).body call) l := by
    intro _ call below awaited w w' l hlisted henter
    have hleaves : (taskDialogHost ctx).Leaves
        (fun _ l' => l'.frame.length = l.frame.length + call.leftover)
        (call.body ctx) l := StackBalance.leaves_body call
    rwa [(leftover_eq_zero_iff call).mpr hlisted, length_frame_of_enter henter] at hleaves
  exact ⟨left_of_guardedRun hbody hrun, StackBalance.keepsFrame_createConfig⟩

/-- A timer, whose handler returns. -/
theorem stackBalanced_timer :
    ∃ s, run (departureHost 0).step ⟨(World.initial, []), []⟩
        (.external (.construct 10) :: openDialog 10 0 0 ++
          [.enter (.notify 0 .timer 200 []),
            .answer (calmAnswer (fun _ => .undefined) 0)]) = some s ∧
      s.world.2.length = 1 ∧ ∀ frame ∈ s.world.2, LeavesAsFound frame := by
  have hchecked : ((checkedRun (departureHost 0).step SendsListed
      ⟨(World.initial, []), []⟩
      (.external (.construct 10) :: openDialog 10 0 0 ++
        [.enter (.notify 0 .timer 200 []),
          .answer (calmAnswer (fun _ => .undefined) 0)])).map
      fun s => s.world.2.length) = some 1 := by
    decide +kernel
  rcases Option.map_eq_some_iff.mp hchecked with ⟨s, hs, hlength⟩
  have hrun := GuardedRun.of_checkedRun hs
  exact ⟨s, hrun.run_eq, hlength, (stackBalanced_of_sendsListed hrun).1⟩

/-- A notification with the code 11, for which the callback has no case. -/
theorem not_leavesAsFound_of_unlisted :
    ∃ s, run (departureHost 0).step ⟨(World.initial, []), []⟩
        (.external (.construct 10) :: openDialog 10 0 0 ++
          [.enter (.notify 0 (.unlisted 11) 0 [])]) = some s ∧
      ¬ ∀ frame ∈ s.world.2, LeavesAsFound frame := by
  have hrun : ((run (departureHost 0).step ⟨(World.initial, []), []⟩
      (.external (.construct 10) :: openDialog 10 0 0 ++
        [.enter (.notify 0 (.unlisted 11) 0 [])])).map
      fun s => decide (∀ frame ∈ s.world.2, LeavesAsFound frame)) = some false := by
    decide +kernel
  rcases Option.map_eq_some_iff.mp hrun with ⟨s, hs, hfalse⟩
  exact ⟨s, hs, of_decide_eq_false hfalse⟩

end NekoScript
