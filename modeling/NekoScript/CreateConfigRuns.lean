import NekoScript.DialogOptions
import Mathlib.Tactic

/-!
# Undisturbed runs of `CreateConfig`

What it leaves behind, for options of every kind.
-/

namespace NekoScript

open Programs ReentrantCalls TaskDialogHost UnicodeCoding

def numbered (base : ℤ) (texts : List (List UInt16)) : List TaskDialogButton :=
  texts.mapIdx fun i text => ⟨base + i, text⟩

namespace CreateConfig

variable {ctx c : Context} {data : OptionData} {w w' : World} {l l' : DialogLocals}
  {dialog : Dialog} {value : JSValue} {rest : ValueFrame}

/-! ## The options before the buttons -/

/-- The world with another configuration of a dialog. -/
def configured (w : World) (self : ℕ) (dialog : Dialog) (config : DialogConfig) : World :=
  w.setDialog self { dialog with config := config }

structure Unfilled (config : DialogConfig) : Prop where
  pButtons : config.tdc.pButtons = none
  cButtons : config.tdc.cButtons = 0
  pRadioButtons : config.tdc.pRadioButtons = none
  cRadioButtons : config.tdc.cRadioButtons = 0

/-- Nothing has happened but that fields of the configuration were set, none of
them about buttons. -/
def Reading (w : World) (l : DialogLocals) (dialog : Dialog)
    (s : World × DialogLocals) : Prop :=
  ∃ config, Unfilled config ∧ s = (configured w l.self dialog config, l)

theorem dialogs_configured (w : World) (self : ℕ) (dialog : Dialog)
    (config : DialogConfig) :
    (configured w self dialog config).dialogs self =
      some { dialog with config := config } :=
  Function.update_self _ _ _

theorem setDialog_setDialog (w : World) (self : ℕ) (dialog new : Dialog) :
    (w.setDialog self dialog).setDialog self new = w.setDialog self new := by
  simp [World.setDialog]

theorem exec_modifyConfig
    (hdialog : w.dialogs l.self = some dialog) (f : DialogConfig → DialogConfig) :
    (NKWinTaskDialog.perform (.modifyConfig f)).exec (performDialogOp ctx data) (w, l) =
      (.ok (), (configured w l.self dialog (f dialog.config), l)) :=
  DialogOptions.exec_silentEffect hdialog rfl rfl

theorem Reading.ends_modifyConfig
    {s : World × DialogLocals} (hs : Reading w l dialog s)
    {f : DialogConfig → DialogConfig}
    (hf : ∀ config, Unfilled config → Unfilled (f config)) :
    (NKWinTaskDialog.perform (.modifyConfig f)).Ends (performDialogOp ctx data)
      (fun _ => Reading w l dialog) s := by
  obtain ⟨config, hunfilled, rfl⟩ := hs
  refine ⟨(), _, exec_modifyConfig (dialogs_configured _ _ _ _) _, f config,
    hf config hunfilled, ?_⟩
  unfold configured
  rw [setDialog_setDialog]

section Head

variable {s : World × DialogLocals} (hframe : l.frame = value :: rest)
  (hs : Reading w l dialog s)

include hframe hs

theorem Reading.exec_jsGetPropString (key : PropKey) :
    (jsGetPropString c key : DialogProgram DukString).exec (performDialogOp ctx data) s =
      (.ok (cString (data.toText (data.property value key))), s) := by
  obtain ⟨config, _, rfl⟩ := hs
  exact DialogOptions.exec_jsGetPropString (dialogs_configured _ _ _ _) hframe key

theorem ends_textField (text : ConfigText) :
    (NKWinTaskDialog.textField c text).Ends (performDialogOp ctx data)
      (fun _ => Reading w l dialog) s := by
  have hread : (jsGetPropStringIsNull c (.name text.name) :
      DialogProgram (DukString × Bool)).exec (performDialogOp ctx data) s =
        (.ok (cString (data.toText (data.property value (.name text.name))),
          (data.property value (.name text.name)).isNullOrUndefined), s) := by
    obtain ⟨config, _, rfl⟩ := hs
    exact DialogOptions.exec_jsGetPropStringIsNull (dialogs_configured _ _ _ _) hframe _
  apply (Program.ends_bind_of_exec hread).mpr
  apply hs.ends_modifyConfig
  rintro config ⟨hp, hc, hpRadio, hcRadio⟩
  constructor <;> dsimp only <;> split <;> assumption

theorem ends_flagField (flag : TaskDialogFlag) :
    (NKWinTaskDialog.flagField c flag).Ends (performDialogOp ctx data)
      (fun _ => Reading w l dialog) s := by
  have hread : (jsGetPropBoolean c (.name flag.name) : DialogProgram Bool).exec
      (performDialogOp ctx data) s =
        (.ok (data.property value (.name flag.name)).toBoolean, s) := by
    obtain ⟨config, _, rfl⟩ := hs
    exact DialogOptions.exec_jsGetPropBoolean (dialogs_configured _ _ _ _) hframe _
  apply (Program.ends_bind_of_exec hread).mpr
  cases (data.property value (.name flag.name)).toBoolean with
  | false => exact ⟨(), s, rfl, hs⟩
  | true =>
      apply hs.ends_modifyConfig
      rintro config ⟨hp, hc, hpRadio, hcRadio⟩
      exact ⟨hp, hc, hpRadio, hcRadio⟩

theorem ends_iconFields :
    (NKWinTaskDialog.iconFields c).Ends (performDialogOp ctx data)
      (fun _ => Reading w l dialog) s := by
  apply (Program.ends_bind_of_exec (hs.exec_jsGetPropString hframe _)).mpr
  apply Program.ends_bind.mpr
  refine Program.Ends.mono (hs.ends_modifyConfig ?_) ?_
  · exact fun _ h => ⟨h.1, h.2, h.3, h.4⟩
  · intro _ s hs
    apply (Program.ends_bind_of_exec (hs.exec_jsGetPropString hframe _)).mpr
    exact hs.ends_modifyConfig fun _ h => ⟨h.1, h.2, h.3, h.4⟩

theorem ends_commonButton (i : ℕ) :
    (NKWinTaskDialog.commonButton c i).Ends (performDialogOp ctx data)
      (fun _ => Reading w l dialog) s := by
  apply (Program.ends_bind_of_exec (hs.exec_jsGetPropString hframe _)).mpr
  exact hs.ends_modifyConfig fun _ h => ⟨h.1, h.2, h.3, h.4⟩

theorem ends_commonButtons :
    (NKWinTaskDialog.commonButtons c).Ends (performDialogOp ctx data)
      (fun _ => Reading w l dialog) s := by
  obtain ⟨config, hunfilled, rfl⟩ := hs
  have hdialog := dialogs_configured w l.self dialog config
  cases harray : (data.property value (.name "commonButtons")).isArray with
  | false =>
      refine ⟨(), _, DialogOptions.exec_arrayField_other hdialog hframe harray _, ?_⟩
      exact ⟨config, hunfilled, rfl⟩
  | true =>
      apply (Program.ends_congr
        (DialogOptions.exec_arrayField_array hdialog hframe harray _)).mpr
      set inner := l.setFrame (data.property value (.name "commonButtons") :: l.frame)
        with hinner
      have hread : Reading w inner dialog (configured w l.self dialog config, inner) :=
        ⟨config, hunfilled, rfl⟩
      apply Program.ends_bind.mpr
      apply (Program.Ends.forM (fun i _ s hs => ends_commonButton rfl hs i) hread).mono
      rintro _ s ⟨config, hunfilled, rfl⟩
      have hpop : (stackOp c .pop : DialogProgram Unit).exec (performDialogOp ctx data)
          (configured w inner.self dialog config, inner) =
            (.ok (), (configured w l.self dialog config, l)) :=
        DialogOptions.exec_pop (dialogs_configured _ _ _ _) rfl
      exact ⟨(), _, hpop, config, hunfilled, rfl⟩

end Head

/-- The object that the options are read from is pushed. -/
theorem exec_pushOptions (hdialog : w.dialogs l.self = some dialog) :
    (NKWinTaskDialog.pushOptions c).exec (performDialogOp ctx data) (w, l) =
      (.ok (), (w, l.setFrame (optionsObject (l.frame.get 0) :: l.frame))) := by
  have hget : (stackOp c (.get 0) : DialogProgram JSValue).exec (performDialogOp ctx data)
      (w, l) = (.ok (l.frame.get 0), (w, l)) :=
    DialogOptions.exec_silentStack hdialog rfl rfl rfl
  unfold NKWinTaskDialog.pushOptions optionsObject
  rw [Program.monad_bind, Program.exec_bind_ok hget]
  split
  · exact DialogOptions.exec_silentStack hdialog rfl rfl rfl
  · exact DialogOptions.exec_silentStack hdialog rfl rfl rfl

theorem ends_createConfigHead (hdialog : w.dialogs l.self = some dialog) :
    (NKWinTaskDialog.createConfigHead c).Ends (performDialogOp ctx data)
      (fun _ => Reading w (l.setFrame (optionsObject (l.frame.get 0) :: l.frame)) dialog)
      (w, l) := by
  set pushed := l.setFrame (optionsObject (l.frame.get 0) :: l.frame) with hpushed
  apply (Program.ends_bind_of_exec (exec_modifyConfig hdialog _)).mpr
  have hzero := dialogs_configured w l.self dialog { dialog.config with tdc := .zero }
  apply (Program.ends_bind_of_exec (exec_pushOptions hzero)).mpr
  have hread : Reading w pushed dialog
      (configured w l.self dialog { dialog.config with tdc := .zero }, pushed) :=
    ⟨_, ⟨rfl, rfl, rfl, rfl⟩, rfl⟩
  apply Program.ends_bind.mpr
  apply (Program.Ends.forM (fun text _ s hs => ends_textField rfl hs text) hread).mono
  intro _ s hread
  apply Program.ends_bind.mpr
  apply (Program.Ends.forM (fun flag _ s hs => ends_flagField rfl hs flag) hread).mono
  intro _ s hread
  apply Program.ends_bind.mpr
  apply (ends_iconFields rfl hread).mono
  intro _ s hread
  exact ends_commonButtons rfl hread

/-! ## The loop over the buttons -/

theorem getElem?_numbered (base : ℤ) (texts : List (List UInt16)) (i : ℕ) :
    (numbered base texts)[i]? =
      texts[i]?.map fun text => (⟨base + i, text⟩ : TaskDialogButton) := by
  simp [numbered, List.getElem?_mapIdx]

/-- The first `k` buttons have been stored into the new array. -/
structure Filling (before : World) (inner : DialogLocals) (array : ℕ)
    (natives : List (List UInt16)) (k : ℕ) (s : World × DialogLocals) : Prop where
  locals : s.2 = inner
  dialog : ∃ d, s.1.dialogs inner.self = some d ∧ d.runtime .buttons = some array ∧
    Unfilled d.config
  length : (s.1.contents array).length = natives.length
  stored : ∀ i < k, (s.1.contents array)[i]? = some (numbered 1000 natives)[i]?
  others : ∀ other, other ≠ array → s.1.contents other = before.contents other
  nextArray : s.1.nextArray = before.nextArray + 1

def storing (w : World) (array index : ℕ) (button : TaskDialogButton) : World :=
  let contents := (w.contents array).set index (some button)
  { w with contents := Function.update w.contents array contents }

theorem perform_storeButton
    {field : RuntimeField} {index array : ℕ} {button : TaskDialogButton}
    (hruntime : dialog.runtime field = some array)
    (hindex : index < (w.contents array).length) :
    DialogEffect.perform w l dialog (.storeButton field index button) =
      some ((), storing w array index button, l) := by
  simp [DialogEffect.perform, storing, hruntime, hindex]

theorem contents_storing (w : World) (array index : ℕ) (button : TaskDialogButton) :
    (storing w array index button).contents array =
      (w.contents array).set index (some button) :=
  Function.update_self _ _ _

theorem contents_storing_other
    {array other : ℕ} (hother : other ≠ array) (w : World) (index : ℕ)
    (button : TaskDialogButton) :
    (storing w array index button).contents other = w.contents other :=
  Function.update_of_ne hother _ _

theorem Filling.ends_button
    {before : World} {inner : DialogLocals} {array k : ℕ}
    {natives : List (List UInt16)} {text : List UInt16} {s : World × DialogLocals}
    (h : Filling before inner array natives k s) (hframe : inner.frame = value :: rest)
    (htext : data.property value (.index k) = .string (storedUnits text))
    (hnative : natives[k]? = some (nativeText text)) :
    (NKWinTaskDialog.button c k).Ends (performDialogOp ctx data)
      (fun _ => Filling before inner array natives (k + 1)) s := by
  rcases s with ⟨w, l⟩
  have hl : l = inner := h.locals
  subst hl
  obtain ⟨d, hd, hruntime, hunfilled⟩ := h.dialog
  have hk : k < (w.contents array).length := by
    rw [h.length]
    exact (List.getElem?_eq_some_iff.mp hnative).1
  have hread : (jsGetPropString c (.index k) : DialogProgram DukString).exec
      (performDialogOp ctx data) (w, l) =
        (.ok (cString (data.toText (data.property value (.index k)))), (w, l)) :=
    DialogOptions.exec_jsGetPropString hd hframe _
  rw [htext] at hread
  apply (Program.ends_bind_of_exec hread).mpr
  apply (Program.ends_bind_of_exec (exec_modifyConfig hd _)).mpr
  set config := { d.config with buttons := d.config.buttons.set k (nativeText text) }
    with hconfig
  set w₁ := configured w l.self d config with hw₁
  have hstore : (NKWinTaskDialog.perform
      (.storeButton .buttons k ⟨1000 + k, nativeText text⟩)).exec
        (performDialogOp ctx data) (w₁, l) =
          (.ok (), (storing w₁ array k ⟨1000 + k, nativeText text⟩, l)) :=
    DialogOptions.exec_silentEffect (dialogs_configured _ _ _ _) rfl
      (perform_storeButton hruntime hk)
  refine ⟨(), _, hstore, rfl, ⟨_, dialogs_configured _ _ _ _, hruntime, ?_⟩, ?_, ?_, ?_,
    h.nextArray⟩
  · exact ⟨hunfilled.1, hunfilled.2, hunfilled.3, hunfilled.4⟩
  · rw [contents_storing, List.length_set]
    exact h.length
  · intro i hi
    rw [contents_storing, List.getElem?_set]
    by_cases hik : k = i
    · subst hik
      have hk₁ : k < (w₁.contents array).length := hk
      rw [if_pos rfl, if_pos hk₁, getElem?_numbered, hnative]
      rfl
    · rw [if_neg hik]
      exact h.stored i (by omega)
  · intro other hother
    rw [contents_storing_other hother]
    exact h.others other hother

/-- The push buttons are in place, and there are no radio buttons. -/
structure Prepared (before : World) (id : ℕ) (natives : List (List UInt16))
    (d : Dialog) (w : World) : Prop where
  dialog : w.dialogs id = some d
  pButtons : d.config.tdc.pButtons = d.runtime .buttons
  cButtons : d.config.tdc.cButtons = natives.length
  cRadioButtons : d.config.tdc.cRadioButtons = 0
  absent : d.runtime .buttons = none → natives = []
  array : ∀ array, d.runtime .buttons = some array →
    array < w.nextArray ∧ (w.contents array).length = natives.length ∧
      ∀ i < natives.length, (w.contents array)[i]? = some (numbered 1000 natives)[i]?
  untouched : ∀ array < before.nextArray, w.contents array = before.contents array
  nextArray : before.nextArray ≤ w.nextArray

def PreparedAt (before : World) (l : DialogLocals) (natives : List (List UInt16))
    (s : World × DialogLocals) : Prop :=
  s.2.self = l.self ∧ s.2.frame = l.frame ∧ ∃ d, Prepared before l.self natives d s.1

theorem ends_buttons_absent
    {s : World × DialogLocals} (hframe : l.frame = value :: rest)
    (hruntime : dialog.runtime .buttons = none) (hs : Reading w l dialog s)
    (habsent : data.IsStrings (data.property value (.name "buttons")) none) :
    (NKWinTaskDialog.buttons c).Ends (performDialogOp ctx data)
      (fun _ => PreparedAt w l []) s := by
  obtain ⟨config, hunfilled, rfl⟩ := hs
  have hdialog := dialogs_configured w l.self dialog config
  have hother : (data.property value (.name "buttons")).isArray = false := by
    rw [habsent]
    rfl
  refine ⟨(), _, DialogOptions.exec_arrayField_other hdialog hframe hother _, rfl, rfl,
    { dialog with config := config }, hdialog, ?_, hunfilled.cButtons,
    hunfilled.cRadioButtons, fun _ => rfl, ?_, fun _ _ => rfl, le_rfl⟩
  · exact hunfilled.pButtons.trans hruntime.symm
  · intro array harray
    change dialog.runtime .buttons = some array at harray
    rw [hruntime] at harray
    contradiction

theorem exec_newRuntime
    {d : Dialog} (hd : w.dialogs l.self = some d) (field : RuntimeField) (length : ℕ) :
    (NKWinTaskDialog.perform (.newRuntime field length)).exec (performDialogOp ctx data)
      (w, l) = (.ok (), (w.allocateRuntime l.self field length d,
        { l with allocated := w.nextArray :: l.allocated })) :=
  DialogOptions.exec_silentEffect hd rfl rfl

theorem dialogs_allocateRuntime
    (w : World) (self : ℕ) (field : RuntimeField) (length : ℕ) (d : Dialog) :
    (w.allocateRuntime self field length d).dialogs self =
      some (d.setRuntime field (some w.nextArray)) :=
  Function.update_self _ _ _

theorem contents_allocateRuntime
    (w : World) (self : ℕ) (field : RuntimeField) (length : ℕ) (d : Dialog) :
    (w.allocateRuntime self field length d).contents w.nextArray =
      List.replicate length none :=
  Function.update_self _ _ _

theorem contents_allocateRuntime_other
    {array : ℕ} (hother : array ≠ w.nextArray) (self : ℕ) (field : RuntimeField)
    (length : ℕ) (d : Dialog) :
    (w.allocateRuntime self field length d).contents array = w.contents array :=
  Function.update_of_ne hother _ _

/-- The locals of the body of an array field, after the allocation. -/
def entered (w : World) (l : DialogLocals) (array : JSValue) : DialogLocals :=
  { l.setFrame (array :: l.frame) with allocated := w.nextArray :: l.allocated }

/-- The beginning of both array fields: the array of options is pushed, and a
runtime array of its length allocated. -/
theorem ends_runtimeField
    {name : String} {field : RuntimeField} {clear : ℕ → DialogConfig → DialogConfig}
    {fill : ℕ → DialogProgram Unit} {length : ℕ} {d : Dialog}
    {Q : Unit → World × DialogLocals → Prop}
    (hd : w.dialogs l.self = some d) (hframe : l.frame = value :: rest)
    (harray : (data.property value (.name name)).isArray = true)
    (hlength : data.length (data.property value (.name name)) = length) :
    (NKWinTaskDialog.arrayField c name fun length =>
      (NKWinTaskDialog.perform (.modifyConfig (clear length))).bind fun _ =>
        (NKWinTaskDialog.perform (.newRuntime field length)).bind fun _ =>
          fill length).Ends (performDialogOp ctx data) Q (w, l) ↔
      (fill length).Ends (performDialogOp ctx data)
        (fun _ => (stackOp c .pop : DialogProgram Unit).Ends (performDialogOp ctx data) Q)
        ((configured w l.self d (clear length d.config)).allocateRuntime l.self field
          length { d with config := clear length d.config },
            entered w l (data.property value (.name name))) := by
  set inner := l.setFrame (data.property value (.name name) :: l.frame) with hinner
  have hself : w.dialogs inner.self = some d := hd
  rw [Program.ends_congr (DialogOptions.exec_arrayField_array hd hframe harray _), hlength,
    Program.ends_bind, Program.ends_bind_of_exec (exec_modifyConfig hself _),
    Program.ends_bind_of_exec (exec_newRuntime (dialogs_configured _ _ _ _) _ _)]
  rfl

/-- The end of both array fields: `_tdc` is set, and the array of options is
popped. -/
theorem exec_setFields
    {d : Dialog} (hd : w.dialogs l.self = some d) (hframe : l.frame = value :: rest)
    (f : Dialog → DialogConfig → DialogConfig) :
    (((NKWinTaskDialog.perform .self).bind fun self : Dialog =>
      NKWinTaskDialog.perform (.modifyConfig (f self))).bind fun _ =>
        stackOp c .pop).exec (performDialogOp ctx data) (w, l) =
      (.ok (), (configured w l.self d (f d d.config), l.setFrame rest)) := by
  have hget : (NKWinTaskDialog.perform .self).exec (performDialogOp ctx data) (w, l) =
      (.ok d, (w, l)) :=
    DialogOptions.exec_silentEffect hd rfl rfl
  have hset : ((NKWinTaskDialog.perform .self).bind fun self : Dialog =>
      NKWinTaskDialog.perform (.modifyConfig (f self))).exec (performDialogOp ctx data)
        (w, l) = (.ok (), (configured w l.self d (f d d.config), l)) := by
    rw [Program.exec_bind_ok hget]
    exact exec_modifyConfig hd _
  rw [Program.exec_bind_ok hset]
  exact DialogOptions.exec_pop (dialogs_configured _ _ _ _) hframe

theorem filling_allocateRuntime
    {before : World} {d : Dialog} {natives : List (List UInt16)}
    (hnext : w.nextArray = before.nextArray) (hcontents : w.contents = before.contents)
    (hunfilled : Unfilled d.config) :
    Filling before l before.nextArray natives 0
      (w.allocateRuntime l.self .buttons natives.length d, l) := by
  have hruntime : (d.setRuntime .buttons (some w.nextArray)).runtime .buttons =
      some w.nextArray := by
    simp [Dialog.setRuntime]
  rw [← hnext]
  refine ⟨rfl, ⟨_, dialogs_allocateRuntime _ _ _ _ _, hruntime, hunfilled⟩, ?_, ?_, ?_, ?_⟩
  · rw [contents_allocateRuntime, List.length_replicate]
  · intro i hi
    omega
  · intro other hother
    rw [contents_allocateRuntime_other hother, hcontents]
  · change w.nextArray + 1 = before.nextArray + 1
    rw [hnext]

theorem Filling.prepared
    {before : World} {inner : DialogLocals} {natives : List (List UInt16)} {d : Dialog}
    {config : DialogConfig} (hself : inner.self = l.self)
    (h : Filling before inner before.nextArray natives natives.length (w, inner))
    (hruntime : d.runtime .buttons = some before.nextArray)
    (hpButtons : config.tdc.pButtons = d.runtime .buttons)
    (hcButtons : config.tdc.cButtons = natives.length)
    (hcRadioButtons : config.tdc.cRadioButtons = 0) :
    PreparedAt before l natives
      (configured w inner.self d config, inner.setFrame l.frame) := by
  refine ⟨hself, rfl, { d with config := config }, ?_, hpButtons, hcButtons,
    hcRadioButtons, ?_, ?_, ?_, ?_⟩
  · rw [← hself]
    exact dialogs_configured _ _ _ _
  · intro hnone
    rw [hruntime] at hnone
    contradiction
  · intro array harray
    have heq : before.nextArray = array := by
      rw [hruntime] at harray
      exact Option.some.inj harray
    subst heq
    have hnext : w.nextArray = before.nextArray + 1 := h.nextArray
    refine ⟨?_, h.length, h.stored⟩
    change before.nextArray < w.nextArray
    omega
  · intro array harray
    exact h.others array (by omega)
  · have hnext : w.nextArray = before.nextArray + 1 := h.nextArray
    change before.nextArray ≤ w.nextArray
    omega

theorem ends_buttons_strings
    {s : World × DialogLocals} {texts : List (List UInt16)}
    (hframe : l.frame = value :: rest) (hs : Reading w l dialog s)
    (hstrings : data.IsStrings (data.property value (.name "buttons")) (some texts)) :
    (NKWinTaskDialog.buttons c).Ends (performDialogOp ctx data)
      (fun _ => PreparedAt w l (texts.map nativeText)) s := by
  obtain ⟨harray, hlength, _, hread⟩ := hstrings
  obtain ⟨config, hunfilled, rfl⟩ := hs
  have hdialog := dialogs_configured w l.self dialog config
  set array := data.property value (.name "buttons") with hvalue
  set natives := texts.map nativeText with hnatives
  have hcount : texts.length = natives.length := by simp [hnatives]
  apply (ends_runtimeField hdialog hframe harray (hlength.trans hcount)).mpr
  apply Program.ends_bind.mpr
  refine Program.Ends.mono (Program.Ends.forM_range (I := Filling w (entered w l array)
    w.nextArray natives) ?_ ?_) ?_
  · intro k hk s h
    have hlt : k < texts.length := by omega
    obtain ⟨text, htext⟩ : ∃ text, texts[k]? = some text :=
      ⟨_, List.getElem?_eq_getElem hlt⟩
    apply h.ends_button rfl (hread k _ htext)
    simp [hnatives, htext]
  · apply filling_allocateRuntime (l := entered w l array)
    · rfl
    · rfl
    · exact ⟨hunfilled.1, hunfilled.2, hunfilled.3, hunfilled.4⟩
  · rintro _ ⟨w', l'⟩ h
    have hl : l' = entered w l array := h.locals
    subst hl
    obtain ⟨d, hd, hruntime, hunfilled⟩ := h.dialog
    apply Program.ends_bind.mp
    exact ⟨(), _, exec_setFields hd rfl _, h.prepared rfl hruntime rfl rfl
      hunfilled.cRadioButtons⟩

/-! ## Without radio buttons -/

theorem ends_radioButtons_absent
    {before : World} {natives : List (List UInt16)} {s : World × DialogLocals}
    (h : PreparedAt before l natives s) (hframe : l.frame = value :: rest)
    (habsent : data.IsStrings (data.property value (.name "radioButtons")) none) :
    (NKWinTaskDialog.radioButtons c).Ends (performDialogOp ctx data)
      (fun _ => PreparedAt before l natives) s := by
  rcases s with ⟨w, l'⟩
  obtain ⟨hself, hsame, d, hprepared⟩ := h
  have hdialog : w.dialogs l'.self = some d := by
    rw [hself]
    exact hprepared.dialog
  have hother : (data.property value (.name "radioButtons")).isArray = false := by
    rw [habsent]
    rfl
  exact ⟨(), _, DialogOptions.exec_arrayField_other hdialog (hsame.trans hframe) hother _,
    hself, hsame, d, hprepared⟩

theorem Prepared.radiosAllocated
    {before : World} {self : ℕ} {natives : List (List UInt16)} {d : Dialog}
    {config : DialogConfig} (h : Prepared before self natives d w)
    (hp : config.tdc.pButtons = d.config.tdc.pButtons)
    (hc : config.tdc.cButtons = d.config.tdc.cButtons)
    (hcRadio : config.tdc.cRadioButtons = 0) (length : ℕ) :
    Prepared before self natives
      ({ d with config := config }.setRuntime .radios (some w.nextArray))
      ((configured w self d config).allocateRuntime self .radios length
        { d with config := config }) := by
  have hruntime : ({ d with config := config }.setRuntime .radios
      (some w.nextArray)).runtime .buttons = d.runtime .buttons := by
    simp [Dialog.setRuntime]
  have hcontents : ∀ array < w.nextArray,
      ((configured w self d config).allocateRuntime self .radios length
        { d with config := config }).contents array = w.contents array := by
    intro array hlt
    have hother : array ≠ (configured w self d config).nextArray := hlt.ne
    exact contents_allocateRuntime_other hother _ _ _ _
  refine ⟨dialogs_allocateRuntime _ _ _ _ _, ?_, ?_, hcRadio, ?_, ?_, ?_, ?_⟩
  · rw [hruntime]
    exact hp.trans h.pButtons
  · exact hc.trans h.cButtons
  · rw [hruntime]
    exact h.absent
  · rw [hruntime]
    intro array harray
    obtain ⟨hlt, hlength, hstored⟩ := h.array array harray
    rw [hcontents array hlt]
    exact ⟨hlt.trans (Nat.lt_succ_self _), hlength, hstored⟩
  · intro array hlt
    rw [hcontents array (hlt.trans_le h.nextArray)]
    exact h.untouched array hlt
  · exact h.nextArray.trans (Nat.le_succ _)

theorem Prepared.configured
    {before : World} {self : ℕ} {natives : List (List UInt16)} {d : Dialog}
    {config : DialogConfig} (h : Prepared before self natives d w)
    (hp : config.tdc.pButtons = d.config.tdc.pButtons)
    (hc : config.tdc.cButtons = d.config.tdc.cButtons)
    (hcRadio : config.tdc.cRadioButtons = 0) :
    Prepared before self natives { d with config := config }
      (configured w self d config) where
  dialog := dialogs_configured _ _ _ _
  pButtons := hp.trans h.pButtons
  cButtons := hc.trans h.cButtons
  cRadioButtons := hcRadio
  absent := h.absent
  array := h.array
  untouched := h.untouched
  nextArray := h.nextArray

theorem ends_radioButtons_empty
    {before : World} {natives : List (List UInt16)} {s : World × DialogLocals}
    (h : PreparedAt before l natives s) (hframe : l.frame = value :: rest)
    (hempty : data.IsStrings (data.property value (.name "radioButtons")) (some [])) :
    (NKWinTaskDialog.radioButtons c).Ends (performDialogOp ctx data)
      (fun _ => PreparedAt before l natives) s := by
  obtain ⟨harray, hlength, _, _⟩ := hempty
  rcases s with ⟨w, l'⟩
  obtain ⟨hself, hsame, d, hprepared⟩ := h
  rw [← hself] at hprepared
  have hloop : ∀ s, ((List.range 0).forM (NKWinTaskDialog.radioButton c)).exec
      (performDialogOp ctx data) s = (.ok PUnit.unit, s) := fun _ => rfl
  apply (ends_runtimeField hprepared.dialog (hsame.trans hframe) harray hlength).mpr
  apply (Program.ends_bind_of_exec (hloop _)).mpr
  apply Program.ends_bind.mp
  refine ⟨(), _, exec_setFields (l := entered w l' _) (dialogs_allocateRuntime _ _ _ _ _)
    rfl _, ?_⟩
  refine ⟨hself, hsame, ?_⟩
  rw [← hself]
  refine ⟨_, (hprepared.radiosAllocated ?_ ?_ ?_ 0).configured ?_ ?_ ?_⟩
  · rfl
  · rfl
  · exact hprepared.cRadioButtons
  · rfl
  · rfl
  · rfl

/-! ## With radio buttons -/

/-- The configuration refers to the whole array of the push buttons. -/
structure Shared (id : ℕ) (d : Dialog) (w : World) : Prop where
  dialog : w.dialogs id = some d
  pButtons : d.config.tdc.pButtons = d.runtime .buttons
  length : ∀ array, d.runtime .buttons = some array →
    (w.contents array).length = d.config.tdc.cButtons

/-- The first push button has the id of the first radio button. -/
def Overwritten (id : ℕ) (s : World × DialogLocals) : Prop :=
  s.2.self = id ∧ ∃ d array text, Shared id d s.1 ∧ d.runtime .buttons = some array ∧
    (s.1.contents array)[0]? = some (some ⟨2000, text⟩)

/-- What the loop does after its first turn. -/
def laterOp : DialogOp → Prop
  | .stack _ op => op.calls = false
  | .effect (.modifyConfig f) => ∀ config,
      (f config).tdc.pButtons = config.tdc.pButtons ∧
        (f config).tdc.cButtons = config.tdc.cButtons
  | .effect (.storeButton _ index _) => index ≠ 0
  | .effect .self => True
  | _ => False

theorem Shared.configured
    {id : ℕ} {d : Dialog} {config : DialogConfig} (h : Shared id d w)
    (hp : config.tdc.pButtons = d.config.tdc.pButtons)
    (hc : config.tdc.cButtons = d.config.tdc.cButtons) :
    Shared id { d with config := config } (configured w id d config) where
  dialog := dialogs_configured _ _ _ _
  pButtons := hp.trans h.pButtons
  length := fun array harray => (h.length array harray).trans hc.symm

theorem Shared.storing
    {id : ℕ} {d : Dialog} (h : Shared id d w) (array index : ℕ)
    (button : TaskDialogButton) : Shared id d (storing w array index button) where
  dialog := h.dialog
  pButtons := h.pButtons
  length := by
    intro other hother
    by_cases heq : other = array
    · subst heq
      rw [contents_storing, List.length_set]
      exact h.length other hother
    · rw [contents_storing_other heq]
      exact h.length other hother

theorem Overwritten.stack
    {id : ℕ} {op : StackOp} {answer : op.Answer}
    (hop : op.calls = false) (h : Overwritten id (w, l))
    (hdone : (taskDialogHost ctx).alone data.answers (.stack c op) w l =
      some (answer, w', l')) : Overwritten id (w', l') := by
  obtain ⟨hself, hrest⟩ := h
  unfold Host.alone at hdone
  cases hawaits : (taskDialogHost ctx).awaits (.stack c op) with
  | true =>
      rw [if_pos hawaits] at hdone
      obtain ⟨given, _, hresume⟩ := Option.bind_eq_some_iff.mp hdone
      obtain ⟨after, hafter, heq⟩ := Option.map_eq_some_iff.mp hresume
      have hsome : (taskDialogHost ctx).resume (.stack c op) given w l =
          some (w', l') := by
        rw [hafter, ← (Prod.mk.inj heq).2]
      obtain ⟨hw, frame, hl⟩ := of_resume_stack hsome
      subst w' l'
      exact ⟨hself, hrest⟩
  | false =>
      rw [if_neg (by simp [hawaits])] at hdone
      obtain ⟨_, frame, _, _, hw, hl⟩ := of_effect_stack hdone
      rw [recordCall_eq hop] at hw
      subst w' l'
      exact ⟨hself, hrest⟩

theorem Overwritten.effect
    {id : ℕ} {e : DialogEffect} {answer : e.Answer} (he : laterOp (.effect e))
    (h : Overwritten id (w, l))
    (hdone : (taskDialogHost ctx).alone data.answers (.effect e) w l =
      some (answer, w', l')) : Overwritten id (w', l') := by
  obtain ⟨hself, d, array, text, hshared, hruntime, hfirst⟩ := h
  have hd : w.dialogs l.self = some d := by
    rw [hself]
    exact hshared.dialog
  have hperform : ∀ e : DialogEffect, e.awaits = false → ∀ answer : e.Answer,
      (taskDialogHost ctx).alone data.answers (.effect e) w l = some (answer, w', l') →
      e.perform w l d = some (answer, w', l') := by
    intro e hawaits answer hdone
    unfold Host.alone at hdone
    rw [if_neg (by change ¬ e.awaits = true; simp [hawaits])] at hdone
    obtain ⟨same, hsame, hperformed⟩ := of_effect_effect hdone
    rw [hd] at hsame
    rw [Option.some.inj hsame]
    exact hperformed
  cases e with
  | self =>
      have hdone := hperform _ rfl _ hdone
      simp only [DialogEffect.perform, Option.some.injEq, Prod.mk.injEq] at hdone
      obtain ⟨_, rfl, rfl⟩ := hdone
      exact ⟨hself, d, array, text, hshared, hruntime, hfirst⟩
  | modifyConfig f =>
      have hdone := hperform _ rfl _ hdone
      simp only [DialogEffect.perform, Option.some.injEq, Prod.mk.injEq] at hdone
      obtain ⟨_, rfl, rfl⟩ := hdone
      obtain ⟨hp, hc⟩ := he d.config
      refine ⟨hself, { d with config := f d.config }, array, text, ?_, hruntime, hfirst⟩
      change Shared id _ (CreateConfig.configured w l.self d (f d.config))
      rw [show l.self = id from hself]
      exact hshared.configured hp hc
  | storeButton field index button =>
      have hdone := hperform _ rfl _ hdone
      simp only [DialogEffect.perform] at hdone
      split at hdone
      next => contradiction
      next other _ =>
        split at hdone
        next =>
          simp only [Option.some.injEq, Prod.mk.injEq] at hdone
          obtain ⟨_, rfl, rfl⟩ := hdone
          refine ⟨hself, d, array, text, hshared.storing other index button, hruntime, ?_⟩
          change ((storing w other index button).contents array)[0]? = _
          by_cases heq : array = other
          · subst heq
            rw [contents_storing, List.getElem?_set_ne he]
            exact hfirst
          · rw [contents_storing_other heq]
            exact hfirst
        next => contradiction
  | _ => exact False.elim he

theorem overwritten_performDialogOp
    {id : ℕ} {op : DialogOp} (hop : laterOp op) {s : World × DialogLocals}
    (h : Overwritten id s) : Overwritten id (performDialogOp ctx data op s).2 := by
  rcases s with ⟨w, l⟩
  cases hdone : (taskDialogHost ctx).alone data.answers op w l with
  | none =>
      have hsame : (performDialogOp ctx data op (w, l)).2 = (w, l) := by
        simp [performDialogOp, Host.performAlone, hdone]
      rw [hsame]
      exact h
  | some done =>
      have hafter : (performDialogOp ctx data op (w, l)).2 = done.2 := by
        simp [performDialogOp, Host.performAlone, hdone]
      rw [hafter]
      cases op with
      | stack c op => exact h.stack hop hdone
      | effect e => exact h.effect hop hdone

/-- The rest of the loop, and what follows it. -/
theorem all_radioButtons_later (indices : List ℕ) (hlater : 0 ∉ indices) (length : ℕ) :
    ((indices.forM (NKWinTaskDialog.radioButton c)).bind fun _ =>
      (NKWinTaskDialog.perform .self).bind fun self : Dialog =>
        NKWinTaskDialog.perform (.modifyConfig fun c =>
          { c with tdc := { c.tdc with
            pRadioButtons := self.runtime .buttons
            cRadioButtons := length } })).All laterOp := by
  have hstack : ∀ op : StackOp, op.calls = false → laterOp (.stack c op) :=
    fun _ hop => hop
  apply Program.All.bind
  · apply Program.All.forM
    intro i hmem
    have hne : i ≠ 0 := by
      rintro rfl
      exact hlater hmem
    apply Program.All.bind (all_jsGetPropString hstack _)
    exact fun _ => ⟨fun _ => ⟨rfl, rfl⟩, fun _ => ⟨hne, fun _ => trivial⟩⟩
  · exact fun _ => ⟨trivial, fun _ => ⟨fun _ => ⟨rfl, rfl⟩, fun _ => trivial⟩⟩

theorem Overwritten.of_ends
    {α : Type} {id : ℕ} {Q : α → World × DialogLocals → Prop} {p : DialogProgram α}
    {s : World × DialogLocals} (h : Overwritten id s) (hp : p.All laterOp)
    (hends : p.Ends (performDialogOp ctx data) Q s) :
    ∃ v s', Q v s' ∧ Overwritten id s' := by
  obtain ⟨v, s', hexec, hQ⟩ := hends
  have hkept : Overwritten id (p.exec (performDialogOp ctx data) s).2 :=
    hp.exec (fun _ hop _ h => overwritten_performDialogOp hop h) h
  rw [hexec] at hkept
  exact ⟨v, s', hQ, hkept⟩

theorem not_ends_of_crash
    {e : DialogEffect} {Q : e.Answer → World × DialogLocals → Prop} {d : Dialog}
    (hd : w.dialogs l.self = some d) (hawaits : e.awaits = false)
    (hcrash : e.perform w l d = none) :
    ¬ (NKWinTaskDialog.perform e).Ends (performDialogOp ctx data) Q (w, l) := by
  have hsilent : ¬ (taskDialogHost ctx).awaits (.effect e) = true := by
    change ¬ e.awaits = true
    simp [hawaits]
  have heffect : (taskDialogHost ctx).effect (.effect e) w l = none := by
    simp only [taskDialogHost, hd, hcrash, Option.bind_some]
  have hperform : performDialogOp ctx data (.effect e) (w, l) =
      (.error (.effect e), (w, l)) := by
    unfold performDialogOp Host.performAlone Host.alone
    rw [if_neg hsilent, heffect]
  rintro ⟨v, s', hexec, _⟩
  unfold NKWinTaskDialog.perform effect at hexec
  rw [Program.exec_failed hperform] at hexec
  simp at hexec

/-- A store that is not led out of its array takes place. -/
theorem exists_of_ends_storeButton
    {Q : Unit → World × DialogLocals → Prop} {field : RuntimeField} {index : ℕ}
    {button : TaskDialogButton} {d : Dialog} (hd : w.dialogs l.self = some d)
    (hends : (NKWinTaskDialog.perform (.storeButton field index button)).Ends
      (performDialogOp ctx data) Q (w, l)) :
    ∃ array, d.runtime field = some array ∧ index < (w.contents array).length ∧
      Q () (storing w array index button, l) := by
  cases hruntime : d.runtime field with
  | none =>
      have hcrash : DialogEffect.perform w l d (.storeButton field index button) =
          none := by
        simp [DialogEffect.perform, hruntime]
      exact absurd hends (not_ends_of_crash hd rfl hcrash)
  | some array =>
      by_cases hindex : index < (w.contents array).length
      · have hstore : (NKWinTaskDialog.perform (.storeButton field index button)).exec
            (performDialogOp ctx data) (w, l) =
              (.ok (), (storing w array index button, l)) :=
          DialogOptions.exec_silentEffect hd rfl (perform_storeButton hruntime hindex)
        exact ⟨array, rfl, hindex, (Program.ends_of_exec hstore).mp hends⟩
      · have hcrash : DialogEffect.perform w l d (.storeButton field index button) =
            none := by
          simp [DialogEffect.perform, hruntime, hindex]
        exact absurd hends (not_ends_of_crash hd rfl hcrash)

/-- The first turn of the loop. -/
theorem overwritten_of_ends_radioButton
    {Q : Unit → World × DialogLocals → Prop} {text : List UInt16} {d : Dialog}
    (hshared : Shared l.self d w) (hframe : l.frame = value :: rest)
    (htext : data.property value (.index 0) = .string (storedUnits text))
    (hends : (NKWinTaskDialog.radioButton c 0).Ends (performDialogOp ctx data) Q (w, l)) :
    ∃ s', Q () s' ∧ Overwritten l.self s' := by
  have hread : (jsGetPropString c (.index 0) : DialogProgram DukString).exec
      (performDialogOp ctx data) (w, l) =
        (.ok (cString (data.toText (data.property value (.index 0)))), (w, l)) :=
    DialogOptions.exec_jsGetPropString hshared.dialog hframe _
  rw [htext] at hread
  have hmodified := (Program.ends_bind_of_exec hread).mp hends
  have hstored := (Program.ends_bind_of_exec
    (exec_modifyConfig hshared.dialog _)).mp hmodified
  obtain ⟨array, hruntime, hindex, hQ⟩ :=
    exists_of_ends_storeButton (dialogs_configured _ _ _ _) hstored
  refine ⟨_, hQ, rfl, _, array, nativeText text, ?_, hruntime, ?_⟩
  · apply Shared.storing
    apply hshared.configured
    · rfl
    · rfl
  · rw [contents_storing, List.getElem?_set_self hindex]
    rfl

theorem Shared.radiosAllocated
    {id : ℕ} {d : Dialog} (h : Shared id d w)
    (hlt : ∀ array, d.runtime .buttons = some array → array < w.nextArray)
    (length : ℕ) :
    Shared id (d.setRuntime .radios (some w.nextArray))
      (w.allocateRuntime id .radios length d) := by
  have hruntime : (d.setRuntime .radios (some w.nextArray)).runtime .buttons =
      d.runtime .buttons := by
    simp [Dialog.setRuntime]
  refine ⟨dialogs_allocateRuntime _ _ _ _ _, ?_, ?_⟩
  · rw [hruntime]
    exact h.pButtons
  · rw [hruntime]
    intro array harray
    rw [contents_allocateRuntime_other (hlt array harray).ne]
    exact h.length array harray

theorem PreparedAt.shared
    {before : World} {natives : List (List UInt16)} {s : World × DialogLocals}
    (h : PreparedAt before l natives s) :
    ∃ d, Shared s.2.self d s.1 ∧
      ∀ array, d.runtime .buttons = some array → array < s.1.nextArray := by
  obtain ⟨hself, _, d, hprepared⟩ := h
  rw [← hself] at hprepared
  refine ⟨d, ⟨hprepared.dialog, hprepared.pButtons, ?_⟩,
    fun array harray => (hprepared.array array harray).1⟩
  intro array harray
  obtain ⟨_, hlength, _⟩ := hprepared.array array harray
  exact hlength.trans hprepared.cButtons.symm

/-- With a radio button, the first push button is lost, unless a store is led
out of the array. -/
theorem overwritten_of_ends_radioButtons
    {before : World} {natives : List (List UInt16)} {s : World × DialogLocals}
    {Q : Unit → World × DialogLocals → Prop} {text : List UInt16}
    {texts : List (List UInt16)} (h : PreparedAt before l natives s)
    (hframe : l.frame = value :: rest)
    (hstrings : data.IsStrings (data.property value (.name "radioButtons"))
      (some (text :: texts)))
    (hends : (NKWinTaskDialog.radioButtons c).Ends (performDialogOp ctx data) Q s) :
    ∃ s', Q () s' ∧ Overwritten l.self s' := by
  obtain ⟨harray, hlength, _, hread⟩ := hstrings
  obtain ⟨d, hshared, hlt⟩ := h.shared
  obtain ⟨hself, hsame, _⟩ := h
  rcases s with ⟨w, l'⟩
  have hentered := (ends_runtimeField hshared.dialog (hsame.trans hframe) harray
    hlength).mp hends
  rw [List.length_cons, List.range_succ_eq_map] at hentered
  have hloop := Program.ends_bind.mp (Program.ends_bind.mp hentered)
  let config := { d.config with radios := List.replicate (texts.length + 1) [] }
  have hconfigured : Shared l'.self { d with config := config }
      (configured w l'.self d config) := hshared.configured rfl rfl
  obtain ⟨s₁, hlater, hfirst⟩ := overwritten_of_ends_radioButton (l := entered w l' _)
    (hconfigured.radiosAllocated hlt _) rfl (hread 0 text rfl) hloop
  have hrest := Program.ends_bind.mpr hlater
  have hlast : 0 ∉ (List.range texts.length).map Nat.succ := by simp
  obtain ⟨_, s₂, hpop, hkept⟩ :=
    hfirst.of_ends (all_radioButtons_later _ hlast _) hrest
  have hall : (stackOp c .pop : DialogProgram Unit).All laterOp := ⟨rfl, fun _ => trivial⟩
  obtain ⟨_, s₃, hQ, hkept⟩ := hkept.of_ends hall hpop
  refine ⟨s₃, hQ, ?_⟩
  rw [← hself]
  exact hkept

/-! ## The whole of `CreateConfig` -/

section Options

variable {options : DialogOptions} (hdialog : w.dialogs l.self = some dialog)
  (hruntime : ∀ field, dialog.runtime field = none)
  (hargument : l.frame.get 0 = options.argument)

/-- The locals after `pushOptions`. -/
def pushedOptions (options : DialogOptions) (l : DialogLocals) : DialogLocals :=
  l.setFrame (optionsObject options.argument :: l.frame)

theorem ends_buttons
    {s : World × DialogLocals} (hruntime : ∀ field, dialog.runtime field = none)
    (hs : Reading w (pushedOptions options l) dialog s) :
    (NKWinTaskDialog.buttons c).Ends (performDialogOp ctx options.data)
      (fun _ => PreparedAt w (pushedOptions options l)
        (options.buttonTexts.map nativeText)) s := by
  have hread := options.buttons_read
  unfold DialogOptions.buttonTexts
  cases hbuttons : options.buttons with
  | none =>
      rw [hbuttons] at hread
      exact ends_buttons_absent rfl (hruntime .buttons) hs hread
  | some texts =>
      rw [hbuttons] at hread
      exact ends_buttons_strings rfl hs hread

theorem ends_noRadioButtons
    {before : World} {natives : List (List UInt16)} {s : World × DialogLocals}
    (h : PreparedAt before (pushedOptions options l) natives s)
    (hradio : options.radioTexts = []) :
    (NKWinTaskDialog.radioButtons c).Ends (performDialogOp ctx options.data)
      (fun _ => PreparedAt before (pushedOptions options l) natives) s := by
  have hread := options.radioButtons_read
  unfold DialogOptions.radioTexts at hradio
  cases hbuttons : options.radioButtons with
  | none =>
      rw [hbuttons] at hread
      exact ends_radioButtons_absent h rfl hread
  | some texts =>
      rw [hbuttons] at hread hradio
      have hempty : texts = [] := hradio
      rw [hempty] at hread
      exact ends_radioButtons_empty h rfl hread

include hdialog hruntime hargument

/-- `CreateConfig` up to the radio buttons. -/
theorem ends_createConfig_iff
    (ctx c : Context) (Q : Unit → World × DialogLocals → Prop) :
    ∃ s, PreparedAt w (pushedOptions options l) (options.buttonTexts.map nativeText) s ∧
      ((NKWinTaskDialog.createConfig c).Ends (performDialogOp ctx options.data) Q (w, l) ↔
        (NKWinTaskDialog.radioButtons c).Ends (performDialogOp ctx options.data)
          (fun _ => (stackOp c .pop : DialogProgram Unit).Ends
            (performDialogOp ctx options.data) Q) s) := by
  have hassert : (NKWinTaskDialog.perform .assertRuntimeNull).exec
      (performDialogOp ctx options.data) (w, l) =
        (.ok (), (w.assertRuntime l.self, l)) :=
    DialogOptions.exec_silentEffect hdialog rfl rfl
  have hhead : (NKWinTaskDialog.createConfigHead c).Ends
      (performDialogOp ctx options.data) (fun _ => Reading (w.assertRuntime l.self)
        (l.setFrame (optionsObject (l.frame.get 0) :: l.frame)) dialog)
      (w.assertRuntime l.self, l) := ends_createConfigHead hdialog
  rw [hargument] at hhead
  obtain ⟨_, s₁, hread₁, hread⟩ := hhead
  have hbuttons : (NKWinTaskDialog.buttons c).Ends (performDialogOp ctx options.data)
      (fun _ => PreparedAt (w.assertRuntime l.self) (pushedOptions options l)
        (options.buttonTexts.map nativeText)) s₁ :=
    ends_buttons hruntime hread
  obtain ⟨_, s₂, hread₂, hself, hframe, d, hprepared⟩ := hbuttons
  have hsame : Prepared w l.self (options.buttonTexts.map nativeText) d s₂.1 :=
    ⟨hprepared.dialog, hprepared.pButtons, hprepared.cButtons, hprepared.cRadioButtons,
      hprepared.absent, hprepared.array, hprepared.untouched, hprepared.nextArray⟩
  refine ⟨s₂, ⟨hself, hframe, d, hsame⟩, ?_⟩
  unfold NKWinTaskDialog.createConfig
  rw [Program.monad_bind, Program.ends_bind_of_exec hassert, Program.monad_bind,
    Program.ends_bind_of_exec hread₁, Program.monad_bind,
    Program.ends_bind_of_exec hread₂, Program.monad_bind, Program.ends_bind]

theorem ends_createConfig (ctx c : Context) (hradio : options.radioTexts = []) :
    (NKWinTaskDialog.createConfig c).Ends (performDialogOp ctx options.data)
      (fun _ s => ∃ d, Prepared w l.self (options.buttonTexts.map nativeText) d s.1)
      (w, l) := by
  obtain ⟨s, hs, hends⟩ := ends_createConfig_iff hdialog hruntime hargument ctx c
    fun _ s => ∃ d, Prepared w l.self (options.buttonTexts.map nativeText) d s.1
  apply hends.mpr
  apply (ends_noRadioButtons hs hradio).mono
  rintro _ ⟨w', l'⟩ ⟨hself, hframe, d, hprepared⟩
  have hd : w'.dialogs l'.self = some d := by
    rw [hself]
    exact hprepared.dialog
  exact ⟨(), _, DialogOptions.exec_pop hd hframe, d, hprepared⟩

/-- No radio button is configured as described. -/
theorem overwritten_of_ends_createConfig
    {Q : Unit → World × DialogLocals → Prop} (hradio : options.radioTexts ≠ [])
    (hends : (NKWinTaskDialog.createConfig c).Ends (performDialogOp ctx options.data) Q
      (w, l)) : ∃ s, Q () s ∧ Overwritten l.self s := by
  obtain ⟨s, hs, hiff⟩ := ends_createConfig_iff hdialog hruntime hargument ctx c Q
  have hread := options.radioButtons_read
  unfold DialogOptions.radioTexts at hradio
  cases hbuttons : options.radioButtons with
  | none => simp [hbuttons] at hradio
  | some texts =>
      rw [hbuttons] at hread hradio
      cases texts with
      | nil => simp at hradio
      | cons text texts =>
          obtain ⟨s', hpop, hoverwritten⟩ :=
            overwritten_of_ends_radioButtons hs rfl hread (hiff.mp hends)
          have hall : (stackOp c .pop : DialogProgram Unit).All laterOp :=
            ⟨rfl, fun _ => trivial⟩
          obtain ⟨_, s'', hQ, hkept⟩ := hoverwritten.of_ends hall hpop
          exact ⟨s'', hQ, hkept⟩

end Options

end CreateConfig

end NekoScript
