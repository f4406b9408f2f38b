import NekoScript.CreateConfigRuns
import Mathlib.Tactic

/-!
# The buttons of the dialog that `CreateConfig` builds

The loop over `radioButtons` stores into the array of the push buttons, and the
configuration refers to that array twice.
-/

namespace NekoScript

open Programs ReentrantCalls TaskDialogHost UnicodeCoding GuardedRuns

/-- What Windows finds at an index of an array of the configuration. -/
def World.button (w : World) (array : Option ℕ) (i : ℕ) : Option TaskDialogButton :=
  array.bind fun array => (w.contents array)[i]?.join

/-- The `count` buttons at `array` are these. -/
def World.ButtonsAt (w : World) (array : Option ℕ) (count : ℕ)
    (buttons : List TaskDialogButton) : Prop :=
  count = buttons.length ∧ ∀ i < count, w.button array i = buttons[i]?

/-- A notification that carries this id calls `emit` with the event and the
number. -/
def Reported (ctx : Context) (notification : Notification) (event : String) (id : ℤ)
    (number : ℕ) : Prop :=
  ∀ (handle wParam : ℕ) (lParam : List UInt16) rest call (w : World)
    (l : DialogLocals) (dialog : Dialog), (wParam : ℤ) = id →
    w.dialogs l.self = some dialog →
    ∃ s, (taskDialogHost ctx).settle rest call
        (NKWinTaskDialog.callback ctx handle notification wParam lParam) w l = some s ∧
      s.world.emissions =
        ⟨l.self, dialog.ptr, l.this, [.text event, .number (.finite number)]⟩ ::
          w.emissions

/-- The dialog that the options describe; in `before`, the arrays below
`nextArray` had been allocated. -/
structure DescribedBy (ctx : Context) (options : DialogOptions) (before : World)
    (dialog : Dialog) (after : World) : Prop where
  untouched : ∀ array < before.nextArray, after.contents array = before.contents array
  pushButtons : after.ButtonsAt dialog.config.tdc.pButtons dialog.config.tdc.cButtons
    (numbered 1000 options.buttonTexts)
  radioButtons : after.ButtonsAt dialog.config.tdc.pRadioButtons
    dialog.config.tdc.cRadioButtons (numbered 2000 options.radioTexts)
  pushReported : ∀ i < dialog.config.tdc.cButtons, ∀ button,
    after.button dialog.config.tdc.pButtons i = some button →
      Reported ctx .buttonClicked "buttonClicked" button.nButtonID i
  radioReported : ∀ i < dialog.config.tdc.cRadioButtons, ∀ button,
    after.button dialog.config.tdc.pRadioButtons i = some button →
      Reported ctx .radioButtonClicked "radioButtonClicked" button.nButtonID i

/-- `CreateConfig` ends, so that no store was led out of its array, and has
built what the options describe. -/
def BuildsDescribed {σ : Type} (ctx : Context) (script : OptionScript σ)
    (options : DialogOptions) (w : World) (l : DialogLocals) (state : σ) : Prop :=
  (NKWinTaskDialog.createConfig ctx).Ends (script.perform ctx)
    (fun _ s => ∃ dialog, s.1.1.dialogs l.self = some dialog ∧
      DescribedBy ctx options w dialog s.1.1) ((w, l), state)

/-- The same of a `CreateConfig` that nothing disturbs. -/
def BuildsUndisturbed (ctx : Context) (options : DialogOptions) (w : World)
    (l : DialogLocals) : Prop :=
  (NKWinTaskDialog.createConfig ctx).Ends (performDialogOp ctx options.data)
    (fun _ s => ∃ dialog, s.1.dialogs l.self = some dialog ∧
      DescribedBy ctx options w dialog s.1) (w, l)

theorem buildsDescribed_iff_undisturbed
    {σ : Type} {ctx : Context} {script : OptionScript σ} {options : DialogOptions}
    (hreads : script.Reads options.data) (w : World) (l : DialogLocals) (state : σ) :
    BuildsDescribed ctx script options w l state ↔ BuildsUndisturbed ctx options w l :=
  hreads.ends_iff ctx _ (fun _ s => ∃ dialog, s.1.dialogs l.self = some dialog ∧
    DescribedBy ctx options w dialog s.1) _

namespace CreateConfig

variable {ctx c : Context} {data : OptionData} {w w' : World} {l l' : DialogLocals}
  {dialog : Dialog} {value : JSValue} {rest : ValueFrame}

/-! ## The events -/

theorem clickedButton_pushButton {i : ℕ} (hi : 8 * i < 2 ^ 32) :
    NKWinTaskDialog.clickedButton (1000 + i) = .number (.finite i) := by
  have hcommon : parseCommonButtonID ((1000 + i : ℕ) : ℤ) = "" := by
    have hne : ∀ button : CommonButton, ((1000 + i : ℕ) : ℤ) ≠ button.id := by
      intro button
      cases button <;> simp only [CommonButton.id] <;> omega
    unfold parseCommonButtonID
    simp only [hne, if_false]
  have hbmod : (((1000 + i : ℕ) : ℤ) - 1000).bmod (2 ^ 32) = i := by
    rw [Int.bmod_eq_of_le] <;> omega
  unfold NKWinTaskDialog.clickedButton
  rw [if_pos hcommon]
  unfold NKWinTaskDialog.JSValue.int
  rw [hbmod]
  simp

theorem int_radioButton {i : ℕ} (hi : 8 * i < 2 ^ 32) :
    NKWinTaskDialog.JSValue.int (((2000 + i : ℕ) : ℤ) - 2000) = .number (.finite i) := by
  have hbmod : (((2000 + i : ℕ) : ℤ) - 2000).bmod (2 ^ 32) = i := by
    rw [Int.bmod_eq_of_le] <;> omega
  unfold NKWinTaskDialog.JSValue.int
  rw [hbmod]
  simp

section Events

variable {α : Type} {c : Context} {frames : List (Activation DialogCall DialogOp
    (NativeOp.Answer DialogEffect.Answer) ℤ DialogLocals)} {call : DialogCall}
  {P : DialogState → Prop}

theorem settles_stack
    {op : StackOp} {answer : op.Answer} {frame : ValueFrame}
    {next : op.Answer → DialogProgram ℤ}
    (hdialog : w.dialogs l.self = some dialog) (hawaits : op.awaits = false)
    (hcalls : op.calls = false)
    (hperform : op.perform l.this l.frame = some (answer, frame))
    (hnext : ∃ s, (taskDialogHost ctx).settle frames call (next answer) w
      (l.setFrame frame) = some s ∧ P s) :
    ∃ s, (taskDialogHost ctx).settle frames call (.perform (.stack c op) next) w l =
      some s ∧ P s := by
  have hsilent : ¬ (taskDialogHost ctx).awaits (.stack c op) = true := by
    change ¬ op.awaits = true
    rw [hawaits]
    simp
  rw [Host.settle, if_neg hsilent, effect_stack hdialog hcalls hperform]
  exact hnext

theorem settles_effect
    {e : DialogEffect} {answer : e.Answer} {next : e.Answer → DialogProgram ℤ}
    (hdialog : w.dialogs l.self = some dialog) (hawaits : e.awaits = false)
    (hperform : e.perform w l dialog = some (answer, w', l'))
    (hnext : ∃ s, (taskDialogHost ctx).settle frames call (next answer) w' l' = some s ∧
      P s) :
    ∃ s, (taskDialogHost ctx).settle frames call (.perform (.effect e) next) w l =
      some s ∧ P s := by
  have hsilent : ¬ (taskDialogHost ctx).awaits (.effect e) = true := by
    change ¬ e.awaits = true
    rw [hawaits]
    simp
  rw [Host.settle, if_neg hsilent, effect_effect hdialog hperform]
  exact hnext

theorem settle_callMethod
    {nargs : ℕ} {next : Unit → DialogProgram ℤ} {after : JSValue → DialogProgram ℤ}
    (hdialog : w.dialogs l.self = some dialog)
    (hnext : next () = .perform (.stack c .callResult) after) :
    (taskDialogHost ctx).settle frames call (.perform (.stack c (.callMethod nargs)) next)
      w l = some ⟨w.recordCall l dialog (.callMethod nargs),
        ⟨⟨call, l.setFrame (l.frame.drop (nargs + 2))⟩, .stack c .callResult, after⟩ ::
          frames⟩ := by
  have hcall : (taskDialogHost ctx).effect (.stack c (.callMethod nargs)) w l =
      some ((), w.recordCall l dialog (.callMethod nargs),
        l.setFrame (l.frame.drop (nargs + 2))) := by
    simp only [taskDialogHost, hdialog, Option.bind_some]
    rfl
  have hsilent : ¬ (taskDialogHost ctx).awaits (.stack c (.callMethod nargs)) = true := by
    simp [taskDialogHost, StackOp.awaits]
  have hawaits : (taskDialogHost ctx).awaits (.stack c .callResult) = true := rfl
  rw [Host.settle, if_neg hsilent, hcall, Option.bind_some, hnext, Host.settle,
    if_pos hawaits]

/-- `emit` is called before script code runs. -/
theorem settles_emit
    (name : String) (arg : JSValue) {f : Unit → DialogProgram ℤ} {owner : ℕ}
    (hdialog : w.dialogs l.self = some dialog) (howner : dialog.ptr = owner)
    (hframe : l.frame = l.this :: rest) :
    ∃ s, (taskDialogHost ctx).settle frames call
        ((NKWinTaskDialog.emit c name [arg]).bind f) w l = some s ∧
      s.world.emissions =
        ⟨l.self, owner, l.this, [.text name, arg]⟩ :: w.emissions := by
  subst owner
  refine settles_stack hdialog rfl rfl rfl ?_
  refine settles_stack hdialog rfl rfl rfl ?_
  refine ⟨_, settle_callMethod hdialog rfl, ?_⟩
  have htarget : (arg :: .text name :: l.frame).drop ([arg].length + 1) =
      l.this :: rest := hframe
  simp only [World.recordCall, DialogLocals.setFrame_frame, htarget]
  rfl

theorem settles_prologue
    {next : Unit → DialogProgram ℤ} (hdialog : w.dialogs l.self = some dialog)
    (hnext : ∃ s, (taskDialogHost ctx).settle frames call (next ()) w
      (l.setFrame (l.this :: .eventEmitterEmit :: l.frame)) = some s ∧ P s) :
    ∃ s, (taskDialogHost ctx).settle frames call
      ((putEmitOnStack c).bind fun _ => .perform (.stack c .pushThis) next) w l =
        some s ∧ P s := by
  refine settles_stack hdialog rfl rfl rfl ?_
  refine settles_stack hdialog rfl rfl rfl ?_
  refine settles_stack hdialog rfl rfl rfl ?_
  refine settles_stack hdialog rfl rfl rfl ?_
  exact settles_stack hdialog rfl rfl rfl hnext

theorem reported_pushButton {i : ℕ} (hi : 8 * i < 2 ^ 32) :
    Reported ctx .buttonClicked "buttonClicked" (1000 + i) i := by
  intro handle wParam lParam frames call w l dialog hid hdialog
  have hwParam : wParam = 1000 + i := by omega
  subst wParam
  apply settles_prologue hdialog
  refine settles_effect hdialog rfl rfl ?_
  have hcleared : (w.setDialog l.self { dialog with preventClose := false }).dialogs
      l.self = some { dialog with preventClose := false } :=
    Function.update_self _ _ _
  rw [clickedButton_pushButton hi]
  exact settles_emit _ _ hcleared rfl rfl

theorem reported_radioButton {i : ℕ} (hi : 8 * i < 2 ^ 32) :
    Reported ctx .radioButtonClicked "radioButtonClicked" (2000 + i) i := by
  intro handle wParam lParam frames call w l dialog hid hdialog
  have hwParam : wParam = 2000 + i := by omega
  subst wParam
  apply settles_prologue hdialog
  rw [int_radioButton hi]
  exact settles_emit _ _ hdialog rfl rfl

end Events

/-! ## What the configuration describes -/

theorem Prepared.button
    {before : World} {id i : ℕ} {natives : List (List UInt16)} {d : Dialog}
    (h : Prepared before id natives d w) (hi : i < natives.length) :
    w.button d.config.tdc.pButtons i = (numbered 1000 natives)[i]? := by
  rw [h.pButtons]
  cases hruntime : d.runtime .buttons with
  | none =>
      have hnil := h.absent hruntime
      subst hnil
      simp at hi
  | some array =>
      obtain ⟨_, _, hstored⟩ := h.array array hruntime
      simp [World.button, hstored i hi]

theorem numbered_inj {base : ℤ} {texts texts' : List (List UInt16)}
    (h : ∀ i : ℕ, (numbered base texts)[i]? = (numbered base texts')[i]?) :
    texts = texts' := by
  apply List.ext_getElem?
  intro i
  have hi := h i
  rw [getElem?_numbered, getElem?_numbered] at hi
  have hinj : Function.Injective fun text : List UInt16 =>
      (⟨base + i, text⟩ : TaskDialogButton) := by
    intro text text' heq
    exact (TaskDialogButton.mk.inj heq).2
  exact Option.map_injective hinj hi

theorem length_numbered (base : ℤ) (texts : List (List UInt16)) :
    (numbered base texts).length = texts.length := by
  simp [numbered]

theorem Prepared.texts_eq
    {options : DialogOptions} {before : World} {id : ℕ}
    {natives : List (List UInt16)} {d : Dialog} (h : Prepared before id natives d w)
    (hdescribed : DescribedBy ctx options before d w) :
    natives = options.buttonTexts := by
  obtain ⟨hcount, hbuttons⟩ := hdescribed.pushButtons
  rw [length_numbered, h.cButtons] at hcount
  apply numbered_inj
  intro i
  by_cases hi : i < natives.length
  · rw [← h.button hi]
    apply hbuttons
    rw [h.cButtons]
    exact hi
  · rw [List.getElem?_eq_none (by rw [length_numbered]; omega),
      List.getElem?_eq_none (by rw [length_numbered]; omega)]

theorem eight_mul_lt
    {strings : Option (List (List UInt16))} {i : ℕ} (hread : data.IsStrings value strings)
    (hi : i < (strings.getD []).length) : 8 * i < 2 ^ 32 := by
  cases strings with
  | none => simp at hi
  | some texts =>
      have hlt : i < texts.length := hi
      obtain ⟨_, _, hfits, _⟩ := hread
      omega

/-- With the buttons in place, their clicks are reported. -/
theorem describedBy_of_buttonsAt
    {options : DialogOptions} {before : World} {d : Dialog}
    (huntouched : ∀ array < before.nextArray, w.contents array = before.contents array)
    (hpush : w.ButtonsAt d.config.tdc.pButtons d.config.tdc.cButtons
      (numbered 1000 options.buttonTexts))
    (hradio : w.ButtonsAt d.config.tdc.pRadioButtons d.config.tdc.cRadioButtons
      (numbered 2000 options.radioTexts)) :
    DescribedBy ctx options before d w := by
  refine ⟨huntouched, hpush, hradio, ?_, ?_⟩
  · obtain ⟨hcount, hbuttons⟩ := hpush
    rw [length_numbered] at hcount
    intro i hi button hbutton
    rw [hbuttons i hi, getElem?_numbered] at hbutton
    obtain ⟨text, _, rfl⟩ := Option.map_eq_some_iff.mp hbutton
    rw [hcount] at hi
    exact reported_pushButton (eight_mul_lt options.buttons_read hi)
  · obtain ⟨hcount, hbuttons⟩ := hradio
    rw [length_numbered] at hcount
    intro i hi button hbutton
    rw [hbuttons i hi, getElem?_numbered] at hbutton
    obtain ⟨text, _, rfl⟩ := Option.map_eq_some_iff.mp hbutton
    rw [hcount] at hi
    exact reported_radioButton (eight_mul_lt options.radioButtons_read hi)

theorem Prepared.described
    {options : DialogOptions} {before : World} {id : ℕ} {d : Dialog}
    (h : Prepared before id options.buttonTexts d w) (hradio : options.radioTexts = []) :
    DescribedBy ctx options before d w := by
  apply describedBy_of_buttonsAt h.untouched
  · refine ⟨?_, ?_⟩
    · rw [length_numbered]
      exact h.cButtons
    · rw [h.cButtons]
      exact fun i hi => h.button hi
  · refine ⟨?_, ?_⟩
    · rw [hradio, length_numbered]
      exact h.cRadioButtons
    · rw [h.cRadioButtons]
      intro i hi
      omega

theorem Overwritten.not_described
    {options : DialogOptions} {before : World} {id : ℕ} {s : World × DialogLocals}
    {d : Dialog} (h : Overwritten id s) (hd : s.1.dialogs id = some d) :
    ¬ DescribedBy ctx options before d s.1 := by
  intro hdescribed
  obtain ⟨_, same, array, text, hshared, hruntime, hfirst⟩ := h
  have heq : same = d := by
    have hdialog := hshared.dialog
    rw [hd] at hdialog
    exact (Option.some.inj hdialog).symm
  subst heq
  obtain ⟨hcount, hbuttons⟩ := hdescribed.pushButtons
  have hpos : 0 < same.config.tdc.cButtons := by
    rw [← hshared.length array hruntime]
    exact (List.getElem?_eq_some_iff.mp hfirst).1
  have hbutton := hbuttons 0 hpos
  rw [hshared.pButtons, hruntime] at hbutton
  simp only [World.button, Option.bind_some, hfirst, Option.join_some,
    getElem?_numbered] at hbutton
  obtain ⟨_, _, hid⟩ := Option.map_eq_some_iff.mp hbutton.symm
  have hne := congrArg TaskDialogButton.nButtonID hid
  simp at hne

end CreateConfig

/-- A run of the host in which `show` comes to the creation of the window, with
the dialog that the options describe. -/
theorem exists_run_showDialog
    {ctx : Context} {options : DialogOptions} {w : World} {l : DialogLocals}
    {dialog : Dialog} (hdialog : w.dialogs l.self = some dialog)
    (hhwnd : dialog.hwnd = none) (hbuilds : BuildsUndisturbed ctx options w l)
    (rest : List (Activation DialogCall DialogOp (NativeOp.Answer DialogEffect.Answer) ℤ
      DialogLocals)) (call : DialogCall) :
    ∃ (choices : List DialogChoice) (s : DialogState) (described : Dialog),
      ((taskDialogHost ctx).settle rest call (NKWinTaskDialog.showDialog ctx) w l).bind
        (fun s => run (taskDialogHost ctx).step s choices) = some s ∧
      s.stack.head?.map (·.op) = some (.effect .createDialogWindow) ∧
      s.world.dialogs l.self = some described ∧
      DescribedBy ctx options w described s.world := by
  obtain ⟨_, ⟨w', l'⟩, hexec, described, hdescribed⟩ := hbuilds
  have hself : (taskDialogHost ctx).effect (.effect .self) w l = some (dialog, w, l) :=
    effect_effect hdialog rfl
  have hsilent : ¬ (taskDialogHost ctx).awaits (.effect .self) = true := by
    simp [taskDialogHost, DialogEffect.awaits]
  let shown : Unit → DialogProgram ℤ := fun _ => do
    let hr ← NKWinTaskDialog.taskDialogIndirect ctx
    NKWinTaskDialog.freeRuntime
    NKWinTaskDialog.checkResult ctx hr "TaskDialogIndirect"
  have hsettle : (taskDialogHost ctx).settle rest call (NKWinTaskDialog.showDialog ctx)
      w l = (taskDialogHost ctx).settle rest call
        ((NKWinTaskDialog.createConfig ctx).bind shown) w l := by
    change (taskDialogHost ctx).settle rest call (.perform (.effect .self) _) w l = _
    rw [Host.settle, if_neg hsilent, hself, Option.bind_some, Program.pure_bind]
    simp only [hhwnd]
    rfl
  obtain ⟨choices, hrun⟩ : ∃ choices : List DialogChoice,
      ((taskDialogHost ctx).settle rest call
        ((NKWinTaskDialog.createConfig ctx).bind shown) w l).bind
          (fun s => run (taskDialogHost ctx).step s choices) =
        (taskDialogHost ctx).settle rest call (shown ()) w' l' :=
    Host.exists_run_of_exec hexec
  obtain ⟨s, hcreate, hworld, hop⟩ : ∃ s : DialogState,
      (taskDialogHost ctx).settle rest call (shown ()) w' l' = some s ∧ s.world = w' ∧
        s.stack.head?.map (·.op) = some (.effect .createDialogWindow) :=
    ⟨_, rfl, rfl, rfl⟩
  rw [hsettle]
  subst hworld
  exact ⟨choices, s, described, hrun.trans hcreate, hop, hdescribed⟩

theorem buildsUndisturbed_iff
    {ctx : Context} {options : DialogOptions} {w : World} {l : DialogLocals}
    {dialog : Dialog} (hdialog : w.dialogs l.self = some dialog)
    (hruntime : ∀ field, dialog.runtime field = none)
    (hargument : l.frame.get 0 = options.argument) :
    BuildsUndisturbed ctx options w l ↔
      options.radioTexts = [] ∧
        ∀ text ∈ options.buttonTexts, ∀ unit ∈ text,
          unit ≠ 0 ∧ IsScalar unit.toNat := by
  have hnative : options.buttonTexts.map nativeText = options.buttonTexts ↔
      ∀ text ∈ options.buttonTexts, ∀ unit ∈ text,
        unit ≠ 0 ∧ IsScalar unit.toNat := by
    have hmap := List.map_inj_left (f := nativeText) (g := id) (l := options.buttonTexts)
    rw [List.map_id] at hmap
    rw [hmap]
    exact forall₂_congr fun text _ => nativeText_eq_iff text
  rw [← hnative]
  constructor
  · intro hbuilds
    by_cases hradio : options.radioTexts = []
    · refine ⟨hradio, ?_⟩
      have hends := CreateConfig.ends_createConfig hdialog hruntime hargument ctx ctx
        hradio
      obtain ⟨_, s, _, ⟨d, hd, hdescribed⟩, d', hprepared⟩ := hbuilds.and hends
      have heq : d' = d := by
        have hsame := hprepared.dialog
        rw [hd] at hsame
        exact (Option.some.inj hsame).symm
      subst heq
      exact hprepared.texts_eq hdescribed
    · obtain ⟨s, ⟨d, hd, hdescribed⟩, hoverwritten⟩ :=
        CreateConfig.overwritten_of_ends_createConfig hdialog hruntime hargument hradio
          hbuilds
      exact absurd hdescribed (hoverwritten.not_described hd)
  · rintro ⟨hradio, htexts⟩
    have hends := CreateConfig.ends_createConfig hdialog hruntime hargument ctx ctx hradio
    apply hends.mono
    rintro _ s ⟨d, hprepared⟩
    rw [htexts] at hprepared
    exact ⟨d, hprepared.dialog, hprepared.described hradio⟩

/-- The dialog object 10, and the call of one of its methods with the options. -/
def literalWorld : World := World.initial.setDialog 0 (.new 10)

def literalCall : DialogLocals := ⟨0, .object 10, [.object 0], none, []⟩

end NekoScript
