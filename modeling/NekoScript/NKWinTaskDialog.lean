import NekoScript.HelperConversions
import NekoScript.ValueStack
import Mathlib.Tactic

/-!
# Task dialogs

The methods and the notification callback of `NKWinTaskDialog`, as programs
over the value stack and over effects on the native object and on Windows.
`TaskDialogIndirect` is the creation of a window, the first notification of
that window, and the modal loop.
-/

namespace NekoScript

open Programs

/-- The members `_title`, `_mainInstruction`, .. and their fields of `_tdc`. -/
inductive ConfigText where
  | title | mainInstruction | content | expandedInformation
  | expandedControlText | collapsedControlText | footer | verificationText
  deriving DecidableEq

def ConfigText.name : ConfigText → String
  | .title => "title"
  | .mainInstruction => "mainInstruction"
  | .content => "content"
  | .expandedInformation => "expandedInformation"
  | .expandedControlText => "expandedControlText"
  | .collapsedControlText => "collapsedControlText"
  | .footer => "footer"
  | .verificationText => "verificationText"

/-- The `TDF_` flags that options set. -/
inductive TaskDialogFlag where
  | allowDialogCancellation | useCommandLinks | useCommandLinksNoIcon
  | enableHyperlinks | expandFooterArea | expandedByDefault
  | verificationFlagChecked | showProgressBar | showMarqueeProgressBar
  | positionRelativeToWindow | rtlLayout | noDefaultRadioButton
  | canBeMinimized | sizeToContent
  deriving DecidableEq

def TaskDialogFlag.name : TaskDialogFlag → String
  | .allowDialogCancellation => "allowDialogCancellation"
  | .useCommandLinks => "useCommandLinks"
  | .useCommandLinksNoIcon => "useCommandLinksNoIcon"
  | .enableHyperlinks => "enableHyperlinks"
  | .expandFooterArea => "expandFooterArea"
  | .expandedByDefault => "expandedByDefault"
  | .verificationFlagChecked => "verificationFlagChecked"
  | .showProgressBar => "showProgressBar"
  | .showMarqueeProgressBar => "showMarqueeProgressBar"
  | .positionRelativeToWindow => "positionRelativeToWindow"
  | .rtlLayout => "rtlLayout"
  | .noDefaultRadioButton => "noDefaultRadioButton"
  | .canBeMinimized => "canBeMinimized"
  | .sizeToContent => "sizeToContent"

inductive TaskDialogIcon where
  | information | warning | error | shield | securityShieldBlue
  | securityWarning | securityError | securitySuccess | securityShieldGray
  deriving DecidableEq

inductive CommonButton where
  | ok | yes | no | cancel | retry | close
  deriving DecidableEq

def CommonButton.id : CommonButton → ℤ
  | .ok => 1
  | .cancel => 2
  | .retry => 4
  | .yes => 6
  | .no => 7
  | .close => 8

def literal (text : String) : DukString := lexerString text.toList

def JSValue.text (text : String) : JSValue := .string (literal text)

def parseIcon (icon : DukString) : Option TaskDialogIcon :=
  if icon = literal "info" then some .information
  else if icon = literal "information" then some .information
  else if icon = literal "warn" then some .warning
  else if icon = literal "warning" then some .warning
  else if icon = literal "err" then some .error
  else if icon = literal "error" then some .error
  else if icon = literal "shield" then some .shield
  else if icon = literal "securityShieldBlue" then some .securityShieldBlue
  else if icon = literal "securityWarning" then some .securityWarning
  else if icon = literal "securityError" then some .securityError
  else if icon = literal "securitySuccess" then some .securitySuccess
  else if icon = literal "securityShieldGray" then some .securityShieldGray
  else none

def parseCommonButton (button : DukString) : Option CommonButton :=
  if button = literal "ok" then some .ok
  else if button = literal "yes" then some .yes
  else if button = literal "no" then some .no
  else if button = literal "cancel" then some .cancel
  else if button = literal "retry" then some .retry
  else if button = literal "close" then some .close
  else none

/-- The empty string for no common button. -/
def parseCommonButtonID (button : ℤ) : String :=
  if button = CommonButton.ok.id then "ok"
  else if button = CommonButton.yes.id then "yes"
  else if button = CommonButton.no.id then "no"
  else if button = CommonButton.cancel.id then "cancel"
  else if button = CommonButton.retry.id then "retry"
  else if button = CommonButton.close.id then "close"
  else ""

def parseCommonButtonIDString (button : DukString) : ℤ :=
  ((parseCommonButton button).map CommonButton.id).getD 0

structure TaskDialogButton where
  nButtonID : ℤ
  pszButtonText : List UInt16
  deriving DecidableEq

/-- The fields of `TASKDIALOGCONFIG` that `CreateConfig` sets from options. -/
structure TaskDialogConfig where
  texts : ConfigText → Option (List UInt16)
  dwFlags : List TaskDialogFlag
  pszMainIcon : Option TaskDialogIcon
  pszFooterIcon : Option TaskDialogIcon
  dwCommonButtons : List CommonButton
  pButtons : Option ℕ
  cButtons : ℕ
  pRadioButtons : Option ℕ
  cRadioButtons : ℕ

def TaskDialogConfig.zero : TaskDialogConfig where
  texts := fun _ => none
  dwFlags := []
  pszMainIcon := none
  pszFooterIcon := none
  dwCommonButtons := []
  pButtons := none
  cButtons := 0
  pRadioButtons := none
  cRadioButtons := 0

/-- `_tdc` and the members that own what it points to. -/
structure DialogConfig where
  tdc : TaskDialogConfig
  texts : ConfigText → List UInt16
  buttons : List (List UInt16)
  radios : List (List UInt16)

inductive RuntimeField where
  | buttons | radios
  deriving DecidableEq

structure Dialog where
  /-- The JS object that owns the native object. -/
  ptr : ℕ
  preventClose : Bool
  hwnd : Option ℕ
  runtime : RuntimeField → Option ℕ
  config : DialogConfig

def Dialog.new (ptr : ℕ) : Dialog where
  ptr := ptr
  preventClose := false
  hwnd := none
  runtime := fun _ => none
  config := ⟨.zero, fun _ => [], [], []⟩

def Dialog.setRuntime (dialog : Dialog) (field : RuntimeField)
    (array : Option ℕ) : Dialog :=
  { dialog with runtime := Function.update dialog.runtime field array }

inductive Notification where
  | created | navigated | buttonClicked | hyperlinkClicked | timer | destroyed
  | radioButtonClicked | dialogConstructed | verificationClicked | help
  | expandoButtonClicked
  /-- A code that the callback does not list. -/
  | unlisted (code : ℕ)
  deriving DecidableEq

inductive DialogMessage where
  | setIcon (big : Bool)
  | navigatePage
  | enableButton (id : ℤ) (enabled : Bool)
  | enableRadioButton (id : ℤ) (enabled : Bool)
  deriving DecidableEq

inductive DialogEffect where
  | self
  | modifyConfig (f : DialogConfig → DialogConfig)
  | setHwnd (hwnd : Option ℕ)
  | setPreventClose (value : Bool)
  /-- `new TASKDIALOG_BUTTON[length]` -/
  | newRuntime (field : RuntimeField) (length : ℕ)
  /-- `delete[]`, and null in its place. -/
  | deleteRuntime (field : RuntimeField)
  | storeButton (field : RuntimeField) (index : ℕ) (button : TaskDialogButton)
  /-- The two assertions that both pointers are null. -/
  | assertRuntimeNull
  /-- The part of `TaskDialogIndirect` that creates the window, or fails. -/
  | createDialogWindow
  /-- The part of `TaskDialogIndirect` that lasts until the window is gone. -/
  | modalLoop (window : ℕ)
  | sendMessage (hwnd : Option ℕ) (message : DialogMessage)
  | setForegroundWindow (hwnd : ℕ)
  /-- Any other native that dispatches messages. -/
  | pump

@[reducible] def DialogEffect.Answer : DialogEffect → Type
  | .self => Dialog
  | .createDialogWindow => Except ℤ ℕ
  | .modalLoop _ | .sendMessage _ _ => ℤ
  | _ => Unit

/-- Only `CreateConfig` has these. -/
def DialogEffect.preparesRuntime : DialogEffect → Bool
  | .newRuntime _ _ | .assertRuntimeNull => true
  | _ => false

abbrev DialogOp := NativeOp DialogEffect

abbrev DialogProgram (α : Type) := NativeProgram DialogEffect.Answer α

def sOk : ℤ := 0

def sFalse : ℤ := 1

namespace NKWinTaskDialog

def perform (e : DialogEffect) : DialogProgram e.Answer := effect e

variable (ctx : Context)

/-! ## CreateConfig -/

/-- `TextField`; a text is a string also where the field of `_tdc` stays null. -/
def textField (text : ConfigText) : DialogProgram Unit := do
  let (value, isNull) ← jsGetPropStringIsNull ctx (.name text.name)
  let value := utf8ToUtf16 value
  perform (.modifyConfig fun c =>
    { c with
      texts := Function.update c.texts text value
      tdc := if isNull then c.tdc
        else { c.tdc with texts := Function.update c.tdc.texts text (some value) } })

def flagField (flag : TaskDialogFlag) : DialogProgram Unit := do
  if ← jsGetPropBoolean ctx (.name flag.name) then
    perform (.modifyConfig fun c =>
      { c with tdc := { c.tdc with dwFlags := flag :: c.tdc.dwFlags } })

def iconFields : DialogProgram Unit := do
  let icon ← jsGetPropString ctx (.name "icon")
  perform (.modifyConfig fun c =>
    { c with tdc := { c.tdc with pszMainIcon := parseIcon icon } })
  let icon ← jsGetPropString ctx (.name "footerIcon")
  perform (.modifyConfig fun c =>
    { c with tdc := { c.tdc with pszFooterIcon := parseIcon icon } })

def commonButton (i : ℕ) : DialogProgram Unit := do
  let button ← jsGetPropString ctx (.index i)
  perform (.modifyConfig fun c =>
    { c with tdc := { c.tdc with
      dwCommonButtons :=
        (parseCommonButton button).toList ++ c.tdc.dwCommonButtons } })

/-- Read a property that is used only if it is an array. -/
def arrayField (name : String) (use : ℕ → DialogProgram Unit) :
    DialogProgram Unit := do
  let _ ← stackOp ctx (.getProp (.name name))
  let value : JSValue ← stackOp ctx .getTop
  if value.isArray then
    let length : ℕ ← stackOp ctx .getLength
    use length
  stackOp ctx .pop

def commonButtons : DialogProgram Unit :=
  arrayField ctx "commonButtons" fun length =>
    (List.range length).forM (commonButton ctx)

def button (i : ℕ) : DialogProgram Unit := do
  let text ← jsGetPropString ctx (.index i)
  let text := utf8ToUtf16 text
  perform (.modifyConfig fun c => { c with buttons := c.buttons.set i text })
  perform (.storeButton .buttons i ⟨1000 + i, text⟩)

def buttons : DialogProgram Unit :=
  arrayField ctx "buttons" fun length => do
    perform (.modifyConfig fun c => { c with buttons := List.replicate length [] })
    perform (.newRuntime .buttons length)
    (List.range length).forM (button ctx)
    let self : Dialog ← perform .self
    perform (.modifyConfig fun c =>
      { c with tdc := { c.tdc with
        pButtons := self.runtime .buttons
        cButtons := length } })

/-- The loop over `radioButtons`, which writes to the array of `buttons`. -/
def radioButton (i : ℕ) : DialogProgram Unit := do
  let text ← jsGetPropString ctx (.index i)
  let text := utf8ToUtf16 text
  perform (.modifyConfig fun c => { c with radios := c.radios.set i text })
  perform (.storeButton .buttons i ⟨2000 + i, text⟩)

def radioButtons : DialogProgram Unit :=
  arrayField ctx "radioButtons" fun length => do
    perform (.modifyConfig fun c => { c with radios := List.replicate length [] })
    perform (.newRuntime .radios length)
    (List.range length).forM (radioButton ctx)
    let self : Dialog ← perform .self
    perform (.modifyConfig fun c =>
      { c with tdc := { c.tdc with
        pRadioButtons := self.runtime .buttons
        cRadioButtons := length } })

def configTexts : List ConfigText :=
  [.title, .mainInstruction, .content, .expandedInformation,
    .expandedControlText, .collapsedControlText, .footer, .verificationText]

def configFlags : List TaskDialogFlag :=
  [.allowDialogCancellation, .useCommandLinks, .useCommandLinksNoIcon,
    .enableHyperlinks, .expandFooterArea, .expandedByDefault,
    .verificationFlagChecked, .showProgressBar, .showMarqueeProgressBar,
    .positionRelativeToWindow, .rtlLayout, .noDefaultRadioButton,
    .canBeMinimized, .sizeToContent]

def pushOptions : DialogProgram Unit := do
  let options : JSValue ← stackOp ctx (.get 0)
  if options.isObject then stackOp ctx (.dup 0)
  else stackOp ctx (.push .newObject)

def createConfigHead : DialogProgram Unit := do
  perform (.modifyConfig fun c => { c with tdc := .zero })
  pushOptions ctx
  configTexts.forM (textField ctx)
  configFlags.forM (flagField ctx)
  iconFields ctx
  commonButtons ctx

def createConfig : DialogProgram Unit := do
  perform .assertRuntimeNull
  createConfigHead ctx
  buttons ctx
  radioButtons ctx
  stackOp ctx .pop

def freeRuntime : DialogProgram Unit := do
  perform (.deleteRuntime .buttons)
  perform (.deleteRuntime .radios)

/-! ## callback -/

/-- The name, the arguments and the call of `emit`, whose result is dropped. -/
def emit (name : String) (args : List JSValue) : DialogProgram Unit := do
  stackOp ctx (.push (.text name))
  args.forM fun arg => stackOp ctx (.push arg)
  stackOp ctx (.callMethod (args.length + 1))
  let _ ← stackOp ctx .callResult
  stackOp ctx .pop

/-- `duk_push_int`: the unsigned difference as a signed number. -/
def JSValue.int (value : ℤ) : JSValue := .number (.finite (value.bmod (2 ^ 32)))

def clickedButton (wParam : ℕ) : JSValue :=
  let commonButtons := parseCommonButtonID wParam
  if commonButtons = "" then JSValue.int (wParam - 1000)
  else .text commonButtons

def callback (handle : ℕ) (notification : Notification) (wParam : ℕ)
    (lParam : List UInt16) : DialogProgram ℤ := do
  putEmitOnStack ctx
  stackOp ctx .pushThis
  match notification with
  | .created =>
      let _ ← perform (.sendMessage (some handle) (.setIcon true))
      let _ ← perform (.sendMessage (some handle) (.setIcon false))
      emit ctx "created" []
      pure sOk
  | .navigated =>
      emit ctx "navigated" []
      pure sOk
  | .buttonClicked =>
      perform (.setPreventClose false)
      emit ctx "buttonClicked" [clickedButton wParam]
      let self : Dialog ← perform .self
      if self.preventClose then
        perform (.setPreventClose false)
        pure sFalse
      else pure sOk
  | .hyperlinkClicked =>
      emit ctx "hyperlinkClicked" [.string (cString (utf16ToUtf8 lParam))]
      pure sOk
  | .timer =>
      emit ctx "timer" [.number (.finite (wParam % 2 ^ 32 : ℕ))]
      pure sOk
  | .destroyed =>
      perform (.setHwnd none)
      emit ctx "destroyed" []
      pure sOk
  | .radioButtonClicked =>
      emit ctx "radioButtonClicked" [JSValue.int (wParam - 2000)]
      pure sOk
  | .dialogConstructed =>
      perform (.setHwnd (some handle))
      freeRuntime
      emit ctx "dialogConstructed" []
      pure sOk
  | .verificationClicked =>
      emit ctx "verificationClicked" [.boolean (wParam ≠ 0)]
      pure sOk
  | .help =>
      emit ctx "help" []
      pure sOk
  | .expandoButtonClicked =>
      emit ctx "expandoButtonClicked" [.boolean (wParam ≠ 0)]
      pure sOk
  | .unlisted _ => pure sOk

/-! ## The methods -/

def checkResult (result : ℤ) (function : String) : DialogProgram ℤ :=
  if result ≠ sOk then jsThrowWin32Error ctx result function else pure 0

/-- The first notification of a window is `TDN_DIALOG_CONSTRUCTED`. -/
def taskDialogIndirect : DialogProgram ℤ := do
  let created : Except ℤ ℕ ← perform .createDialogWindow
  match created with
  | .error hr => pure hr
  | .ok window =>
      let _ ← callback ctx window .dialogConstructed 0 []
      perform (.modalLoop window)

def showDialog : DialogProgram ℤ := do
  let self : Dialog ← perform .self
  match self.hwnd with
  | some hwnd =>
      perform (.setForegroundWindow hwnd)
      pure 0
  | none =>
      createConfig ctx
      let hr ← taskDialogIndirect ctx
      freeRuntime
      checkResult ctx hr "TaskDialogIndirect"

def navigate : DialogProgram ℤ := do
  let self : Dialog ← perform .self
  match self.hwnd with
  | none => showDialog ctx
  | some _ =>
      createConfig ctx
      let self : Dialog ← perform .self
      let result : ℤ ← perform (.sendMessage self.hwnd .navigatePage)
      freeRuntime
      checkResult ctx result "SendMessage TDM_NAVIGATE_PAGE"

def preventClose : DialogProgram ℤ := do
  perform (.setPreventClose true)
  pure 0

def enableButton : DialogProgram ℤ := do
  let enabled ← dukRequireBoolean ctx 1
  let button : JSValue ← stackOp ctx (.get 0)
  match button with
  | .string button => send enabled (parseCommonButtonIDString (cString button))
  | _ => do
      let button ← dukRequireInt ctx 0
      send enabled (1000 + button)
where
  send (enabled : Bool) (button : ℤ) : DialogProgram ℤ := do
    let self : Dialog ← perform .self
    let result : ℤ ← perform (.sendMessage self.hwnd (.enableButton button enabled))
    checkResult ctx result "SendMessage TDM_ENABLE_BUTTON"

def enableRadioButton : DialogProgram ℤ := do
  let button ← dukRequireInt ctx 0
  let enabled ← dukRequireBoolean ctx 1
  let self : Dialog ← perform .self
  let result : ℤ ← perform
    (.sendMessage self.hwnd (.enableRadioButton (2000 + button) enabled))
  checkResult ctx result "SendMessage TDM_ENABLE_RADIO_BUTTON"

/-! ## The operations of these programs -/

section Operations

variable {ctx : Context} {P : DialogOp → Prop}
  (hstack : ∀ op : StackOp, op.calls = false → P (.stack ctx op))
  (hmodify : ∀ f, P (.effect (.modifyConfig f)))

theorem all_perform {e : DialogEffect} (he : P (.effect e)) :
    (perform e).All P :=
  ⟨he, fun _ => trivial⟩

include hstack in
theorem all_arrayField
    (name : String) {use : ℕ → DialogProgram Unit}
    (huse : ∀ length, (use length).All P) :
    (arrayField ctx name use).All P := by
  refine ⟨hstack _ rfl, fun _ => ⟨hstack _ rfl, ?_⟩⟩
  intro value
  simp only [Program.pure_bind]
  have hpop : (stackOp ctx .pop : DialogProgram Unit).All P :=
    all_stackOp hstack _ rfl
  split
  · refine ⟨hstack _ rfl, fun length => ?_⟩
    exact Program.All.bind (p := use length) (huse length) fun _ => hpop
  · exact hpop

include hstack in
theorem all_pushOptions : (pushOptions ctx).All P := by
  refine ⟨hstack _ rfl, ?_⟩
  intro options
  simp only [Program.pure_bind]
  split
  · exact all_stackOp hstack _ rfl
  · exact all_stackOp hstack _ rfl

include hstack hmodify

theorem all_textField (text : ConfigText) : (textField ctx text).All P := by
  apply Program.All.bind (all_jsGetPropStringIsNull hstack _)
  exact fun _ => all_perform (hmodify _)

theorem all_flagField (flag : TaskDialogFlag) : (flagField ctx flag).All P := by
  apply Program.All.bind (all_jsGetPropBoolean hstack _)
  intro value
  cases value with
  | true => exact all_perform (hmodify _)
  | false => exact trivial

theorem all_iconFields : (iconFields ctx).All P := by
  apply Program.All.bind (all_jsGetPropString hstack _)
  intro _
  apply Program.All.bind (all_perform (hmodify _))
  intro _
  apply Program.All.bind (all_jsGetPropString hstack _)
  exact fun _ => all_perform (hmodify _)

theorem all_commonButtons : (commonButtons ctx).All P := by
  apply all_arrayField hstack
  intro length
  apply Program.All.forM
  intro i _
  apply Program.All.bind (all_jsGetPropString hstack _)
  exact fun _ => all_perform (hmodify _)

theorem all_createConfigHead : (createConfigHead ctx).All P := by
  apply Program.All.bind (all_perform (hmodify _))
  intro _
  apply Program.All.bind (all_pushOptions hstack)
  intro _
  apply Program.All.bind (Program.All.forM _
    fun text _ => all_textField hstack hmodify text)
  intro _
  apply Program.All.bind (Program.All.forM _
    fun flag _ => all_flagField hstack hmodify flag)
  intro _
  apply Program.All.bind (all_iconFields hstack hmodify)
  exact fun _ => all_commonButtons hstack hmodify

variable
  (hstore : ∀ field index value, P (.effect (.storeButton field index value)))

include hstore

theorem all_button (i : ℕ) : (button ctx i).All P := by
  apply Program.All.bind (all_jsGetPropString hstack _)
  exact fun _ => ⟨hmodify _, fun _ => ⟨hstore _ _ _, fun _ => trivial⟩⟩

theorem all_radioButton (i : ℕ) : (radioButton ctx i).All P := by
  apply Program.All.bind (all_jsGetPropString hstack _)
  exact fun _ => ⟨hmodify _, fun _ => ⟨hstore _ _ _, fun _ => trivial⟩⟩

variable (hself : P (.effect .self))
  (hnew : ∀ field length, P (.effect (.newRuntime field length)))

include hself hnew

theorem all_buttons : (buttons ctx).All P := by
  apply all_arrayField hstack
  intro length
  refine ⟨hmodify _, fun _ => ⟨hnew _ _, fun _ => ?_⟩⟩
  apply Program.All.bind (Program.All.forM _
    fun i _ => all_button hstack hmodify hstore i)
  exact fun _ => ⟨hself, fun _ => ⟨hmodify _, fun _ => trivial⟩⟩

theorem all_radioButtons : (radioButtons ctx).All P := by
  apply all_arrayField hstack
  intro length
  refine ⟨hmodify _, fun _ => ⟨hnew _ _, fun _ => ?_⟩⟩
  apply Program.All.bind (Program.All.forM _
    fun i _ => all_radioButton hstack hmodify hstore i)
  exact fun _ => ⟨hself, fun _ => ⟨hmodify _, fun _ => trivial⟩⟩

theorem all_createConfig (hassert : P (.effect .assertRuntimeNull)) :
    (createConfig ctx).All P := by
  refine ⟨hassert, fun _ => ?_⟩
  apply Program.All.bind (all_createConfigHead hstack hmodify)
  intro _
  apply Program.All.bind (all_buttons hstack hmodify hstore hself hnew)
  intro _
  apply Program.All.bind (all_radioButtons hstack hmodify hstore hself hnew)
  exact fun _ => all_stackOp hstack _ rfl

omit hmodify hstore hself hnew

theorem all_checkResult (result : ℤ) (function : String) :
    (checkResult ctx result function).All P := by
  unfold checkResult
  split
  · exact all_dukThrow hstack _
  · exact trivial

theorem all_enableButton (hself : P (.effect .self))
    (hsend : ∀ hwnd message, P (.effect (.sendMessage hwnd message))) :
    (enableButton ctx).All P := by
  have hsent : ∀ enabled button, (enableButton.send ctx enabled button).All P :=
    fun enabled button => ⟨hself, fun _ => ⟨hsend _ _, fun result =>
      all_checkResult hstack result _⟩⟩
  apply Program.All.bind (all_dukRequireBoolean hstack 1)
  intro enabled
  refine ⟨hstack _ rfl, ?_⟩
  intro button
  simp only [Program.pure_bind]
  split
  · exact hsent _ _
  · apply Program.All.bind (all_dukRequireInt hstack 0)
    exact fun _ => hsent _ _

theorem all_enableRadioButton (hself : P (.effect .self))
    (hsend : ∀ hwnd message, P (.effect (.sendMessage hwnd message))) :
    (enableRadioButton ctx).All P := by
  apply Program.All.bind (all_dukRequireInt hstack 0)
  intro button
  apply Program.All.bind (all_dukRequireBoolean hstack 1)
  intro enabled
  exact ⟨hself, fun _ => ⟨hsend _ _, fun result => all_checkResult hstack result _⟩⟩

end Operations

section Events

variable {ctx : Context} {P : DialogOp → Prop}

theorem all_emit
    (hstack : ∀ op, P (.stack ctx op)) (name : String) (args : List JSValue) :
    (emit ctx name args).All P := by
  refine ⟨hstack _, fun _ => ?_⟩
  have hpush : ∀ arg ∈ args, Program.All P
      (stackOp ctx (.push arg) : DialogProgram Unit) :=
    fun _ _ => ⟨hstack _, fun _ => trivial⟩
  apply Program.All.bind (Program.All.forM args hpush)
  exact fun _ => ⟨hstack _, fun _ => ⟨hstack _, fun _ => ⟨hstack _,
    fun _ => trivial⟩⟩⟩

theorem all_freeRuntime
    (hdelete : ∀ field, P (.effect (.deleteRuntime field))) :
    freeRuntime.All P :=
  ⟨hdelete _, fun _ => ⟨hdelete _, fun _ => trivial⟩⟩

theorem all_freeRuntime_checkResult
    (hstack : ∀ op : StackOp, op.calls = false → P (.stack ctx op))
    (hdelete : ∀ field, P (.effect (.deleteRuntime field)))
    (result : ℤ) (function : String) :
    (freeRuntime >>= fun _ => checkResult ctx result function).All P := by
  apply Program.All.bind (all_freeRuntime hdelete)
  exact fun _ => all_checkResult hstack result function

theorem all_callback
    (hstack : ∀ op, P (.stack ctx op)) (hself : P (.effect .self))
    (hsend : ∀ hwnd message, P (.effect (.sendMessage hwnd message)))
    (handle : ℕ) (notification : Notification) (wParam : ℕ)
    (lParam : List UInt16)
    (hprevent : notification = .buttonClicked →
      ∀ value, P (.effect (.setPreventClose value)))
    (hdestroyed : notification = .destroyed → P (.effect (.setHwnd none)))
    (hconstructed : notification = .dialogConstructed →
      P (.effect (.setHwnd (some handle))) ∧
        ∀ field, P (.effect (.deleteRuntime field))) :
    (callback ctx handle notification wParam lParam).All P := by
  apply Program.All.bind (all_putEmitOnStack fun op _ => hstack op)
  intro _
  refine ⟨hstack _, fun _ => ?_⟩
  have hend : ∀ name args, Program.All P
      (emit ctx name args >>= fun _ => pure sOk) :=
    fun name args => (all_emit hstack name args).bind fun _ => trivial
  cases notification with
  | created => exact ⟨hsend _ _, fun _ => ⟨hsend _ _, fun _ => hend _ _⟩⟩
  | buttonClicked =>
      refine ⟨hprevent rfl _, fun _ => ?_⟩
      apply Program.All.bind (all_emit hstack _ _)
      intro _
      refine ⟨hself, fun self => ?_⟩
      simp only [Program.pure_bind]
      split
      · exact ⟨hprevent rfl _, fun _ => trivial⟩
      · exact trivial
  | destroyed => exact ⟨hdestroyed rfl, fun _ => hend _ _⟩
  | dialogConstructed =>
      refine ⟨(hconstructed rfl).1, fun _ => ?_⟩
      exact (all_freeRuntime (hconstructed rfl).2).bind fun _ => hend _ _
  | navigated => exact hend _ _
  | hyperlinkClicked => exact hend _ _
  | timer => exact hend _ _
  | radioButtonClicked => exact hend _ _
  | verificationClicked => exact hend _ _
  | help => exact hend _ _
  | expandoButtonClicked => exact hend _ _
  | unlisted code => exact trivial

theorem all_callback_of_effects
    (hstack : ∀ op, P (.stack ctx op))
    (heffect : ∀ e : DialogEffect, e.preparesRuntime = false → P (.effect e))
    (handle : ℕ) (notification : Notification) (wParam : ℕ)
    (lParam : List UInt16) :
    (callback ctx handle notification wParam lParam).All P :=
  all_callback hstack (heffect _ rfl) (fun _ _ => heffect _ rfl)
    handle notification wParam lParam (fun _ _ => heffect _ rfl)
    (fun _ => heffect _ rfl) fun _ => ⟨heffect _ rfl, fun _ => heffect _ rfl⟩

theorem all_taskDialogIndirect
    (hstack : ∀ op, P (.stack ctx op))
    (heffect : ∀ e : DialogEffect, e.preparesRuntime = false → P (.effect e)) :
    (taskDialogIndirect ctx).All P := by
  refine ⟨heffect _ rfl, ?_⟩
  intro created
  cases created with
  | error hr => exact trivial
  | ok window =>
      apply Program.All.bind (all_callback_of_effects hstack heffect window
        .dialogConstructed 0 [])
      exact fun _ => all_perform (heffect _ rfl)

end Events

end NKWinTaskDialog

end NekoScript
