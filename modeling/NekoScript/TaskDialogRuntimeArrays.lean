import NekoScript.TaskDialogHost
import Mathlib.Tactic

/-!
# The runtime arrays of a dialog

`CreateConfig` allocates the arrays, and `FreeRuntime` releases them when the
window is constructed or when `TaskDialogIndirect` or `SendMessage` returns.
In between the option values run script code.  The pointers of the dialogs are
the ledger of the arrays, and what an activation allocated is its own to
release, as long as no error jumps over it and no other call comes to
`CreateConfig` before that.
-/

namespace NekoScript

open Programs ReentrantCalls GuardedRuns ResourceOwnership TaskDialogHost

def RuntimeAssertion.Holds (found : RuntimeAssertion) : Prop :=
  found.buttons = none ∧ found.radios = none ∧ ∀ n ∈ found.releases, n = 1

instance (found : RuntimeAssertion) : Decidable found.Holds :=
  inferInstanceAs (Decidable (_ ∧ _ ∧ _))

def PointersShrink (w w' : World) : Prop :=
  ∀ dialog field array,
    w'.runtime dialog field = some array → w.runtime dialog field = some array

structure KeepsLedger (w : World) (ledger : Ledger (ℕ × RuntimeField) ℕ) :
    Prop where
  holds : ∀ dialog field, ledger.holds (dialog, field) = w.runtime dialog field
  history : ledger.history = w.arrays
  accounted : ledger.Accounted

structure RuntimeInvariant (stack : List DialogFrame) (w : World) : Prop where
  ledger : ∃ ledger, KeepsLedger w ledger
  arrayDialog : ∀ dialog field array, w.runtime dialog field = some array →
    w.arrayDialog array = dialog
  fresh : ∀ event ∈ w.arrays, event.resource < w.nextArray
  acquired : ∀ array < w.nextArray, .acquired array ∈ w.arrays
  asserted : ∀ found ∈ w.assertions, found.Holds
  unconstructed : ∀ dialog, w.nextDialog ≤ dialog → w.owner dialog = none
  holder : ∀ dialog field array, w.runtime dialog field = some array →
    ∃ frame ∈ stack, frame.locals.self = dialog ∧ array ∈ frame.locals.allocated

/-- The activation has no array of its own that is still to be released. -/
def arraysReleased (frame : DialogFrame) (w : World) : Bool :=
  frame.locals.allocated.all fun array => w.arrays.releases array ≠ 0

def dialogReleased (stack : List DialogFrame) (w : World) (dialog : ℕ) : Bool :=
  stack.all fun frame => frame.locals.self ≠ dialog || arraysReleased frame w

/-- The dialog whose `CreateConfig` the call comes to. -/
def DialogCall.configures (w : World) : DialogCall → Option ℕ
  | .method .showDialog _ self _ => if w.hwnd self = none then some self else none
  | .method .navigate _ self _ => some self
  | _ => none

def DialogAction.destroys : DialogAction → Option ℕ
  | .construct _ => none
  | .destroy dialog => some dialog

def runtimeArrays : Discipline DialogCall DialogOp
    (NativeOp.Answer DialogEffect.Answer) DialogAction World DialogLocals where
  Inv := RuntimeInvariant
  Rely := PointersShrink
  rely_refl := fun _ _ _ _ h => h
  rely_trans := fun h₁₂ h₂₃ _ _ _ h => h₁₂ _ _ _ (h₂₃ _ _ _ h)
  mayEnter := fun stack w call =>
    ∀ dialog ∈ call.configures w, dialogReleased stack w dialog = true
  mayAnswer := fun _ _ _ _ => True
  mayAbandon := fun frame w => arraysReleased frame w = true
  mayExternal := fun stack w action =>
    ∀ dialog ∈ action.destroys, dialogReleased stack w dialog = true

instance (stack : List DialogFrame) (w : World) (call : DialogCall) :
    Decidable (runtimeArrays.mayEnter stack w call) :=
  inferInstanceAs (Decidable (∀ dialog ∈ call.configures w,
    dialogReleased stack w dialog = true))

instance (frame : DialogFrame) (w : World) (op : DialogOp)
    (answer : NativeOp.Answer DialogEffect.Answer op) :
    Decidable (runtimeArrays.mayAnswer frame w op answer) :=
  inferInstanceAs (Decidable True)

instance (frame : DialogFrame) (w : World) :
    Decidable (runtimeArrays.mayAbandon frame w) :=
  inferInstanceAs (Decidable (arraysReleased frame w = true))

instance (stack : List DialogFrame) (w : World) (action : DialogAction) :
    Decidable (runtimeArrays.mayExternal stack w action) :=
  inferInstanceAs (Decidable (∀ dialog ∈ action.destroys,
    dialogReleased stack w dialog = true))

namespace RuntimeArrays

variable {ctx c : Context} {w w' entry : World} {l l' : DialogLocals}
  {below stack : List DialogFrame} {call : DialogCall}

/-! ## What the invariant says about pointers -/

theorem live_of_runtime
    (hinv : RuntimeInvariant stack w) {dialog : ℕ} {field : RuntimeField}
    {array : ℕ} (hruntime : w.runtime dialog field = some array) :
    w.arrays.releases array = 0 := by
  rcases hinv.ledger with ⟨ledger, hledger⟩
  have hlive := ledger.live_of_holds (dialog, field) array
    ((hledger.holds dialog field).trans hruntime)
  rwa [hledger.history] at hlive

theorem not_arraysReleased
    (hinv : RuntimeInvariant stack w) {dialog : ℕ} {field : RuntimeField}
    {array : ℕ} (hruntime : w.runtime dialog field = some array)
    {frame : DialogFrame} (hmem : array ∈ frame.locals.allocated) :
    arraysReleased frame w = false := by
  rw [arraysReleased, List.all_eq_false]
  refine ⟨array, hmem, ?_⟩
  simp [live_of_runtime hinv hruntime]

theorem runtime_eq_none
    (hinv : RuntimeInvariant stack w) {dialog : ℕ}
    (hreleased : dialogReleased stack w dialog = true) (field : RuntimeField) :
    w.runtime dialog field = none := by
  cases hruntime : w.runtime dialog field with
  | none => rfl
  | some array =>
      obtain ⟨frame, hmem, hself, hallocated⟩ :=
        hinv.holder dialog field array hruntime
      have hframe := List.all_eq_true.mp hreleased frame hmem
      rw [not_arraysReleased hinv hruntime hallocated] at hframe
      simp [hself] at hframe

theorem holds_assertRuntime
    (hinv : RuntimeInvariant stack w) {dialog : ℕ}
    (hnone : ∀ field, w.runtime dialog field = none) :
    ∀ found ∈ (w.assertRuntime dialog).assertions, found.Holds := by
  intro found hfound
  rcases List.mem_cons.mp hfound with rfl | hold
  · refine ⟨hnone .buttons, hnone .radios, ?_⟩
    intro n hn
    obtain ⟨array, hmem, rfl⟩ := List.mem_map.mp hn
    rw [List.mem_filter, List.mem_range, decide_eq_true_eq] at hmem
    rcases hinv.ledger with ⟨ledger, hledger⟩
    have hacquired : .acquired array ∈ ledger.history := by
      rw [hledger.history]
      exact hinv.acquired array hmem.1
    have hheld : ∀ holder, ledger.holds holder ≠ some array := by
      intro ⟨other, field⟩ hholds
      rw [hledger.holds] at hholds
      have hother : other = dialog :=
        (hinv.arrayDialog other field array hholds).symm.trans hmem.2
      rw [hother, hnone] at hholds
      contradiction
    have hone := hledger.accounted.releases_eq_one hacquired hheld
    rwa [hledger.history] at hone
  · exact hinv.asserted found hold

/-! ## Steps that concern no array -/

structure SameArrays (w w' : World) : Prop where
  runtime : w'.runtime = w.runtime
  arrays : w'.arrays = w.arrays
  arrayDialog : w'.arrayDialog = w.arrayDialog
  nextArray : w'.nextArray = w.nextArray

structure SameRuntime (w w' : World) : Prop extends SameArrays w w' where
  owner : w'.owner = w.owner
  nextDialog : w'.nextDialog = w.nextDialog
  assertions : w'.assertions = w.assertions

theorem SameArrays.invariant
    (h : SameArrays w w') (hinv : RuntimeInvariant stack w)
    (hasserted : ∀ found ∈ w'.assertions, found.Holds)
    (hunconstructed : ∀ dialog, w'.nextDialog ≤ dialog → w'.owner dialog = none) :
    RuntimeInvariant stack w' := by
  rcases hinv.ledger with ⟨ledger, hledger⟩
  refine ⟨⟨ledger, ?_, hledger.history.trans h.arrays.symm, hledger.accounted⟩,
    ?_, ?_, ?_, hasserted, hunconstructed, ?_⟩
  · rw [h.runtime]
    exact hledger.holds
  · rw [h.runtime, h.arrayDialog]
    exact hinv.arrayDialog
  · rw [h.arrays, h.nextArray]
    exact hinv.fresh
  · rw [h.arrays, h.nextArray]
    exact hinv.acquired
  · rw [h.runtime]
    exact hinv.holder

theorem SameArrays.shrink (h : SameArrays w w') : PointersShrink w w' := by
  intro dialog field array hruntime
  rwa [h.runtime] at hruntime

theorem SameRuntime.invariant
    (h : SameRuntime w w') (hinv : RuntimeInvariant stack w) :
    RuntimeInvariant stack w' := by
  apply h.toSameArrays.invariant hinv
  · rw [h.assertions]
    exact hinv.asserted
  · rw [h.nextDialog, h.owner]
    exact hinv.unconstructed

theorem SameRuntime.of_dialogs
    (hdialogs : w'.dialogs = w.dialogs) (hnext : w'.nextDialog = w.nextDialog)
    (harrays : w'.arrays = w.arrays) (hdialog : w'.arrayDialog = w.arrayDialog)
    (harray : w'.nextArray = w.nextArray)
    (hassertions : w'.assertions = w.assertions) : SameRuntime w w' := by
  refine ⟨⟨?_, harrays, hdialog, harray⟩, ?_, hnext, hassertions⟩
  · funext dialog field
    simp [World.runtime, hdialogs]
  · funext dialog
    simp [World.owner, hdialogs]

theorem runtime_setDialog {self : ℕ} {new : Dialog} (dialog : ℕ) :
    (w.setDialog self new).runtime dialog =
      if dialog = self then new.runtime else w.runtime dialog := by
  funext field
  unfold World.runtime World.setDialog
  split
  next heq => simp [heq]
  next hne => simp [hne]

theorem owner_setDialog {self : ℕ} {old new : Dialog}
    (hold : w.dialogs self = some old) (hptr : new.ptr = old.ptr) :
    (w.setDialog self new).owner = w.owner := by
  funext dialog
  unfold World.owner World.setDialog
  by_cases heq : dialog = self
  · simp [heq, hold, hptr]
  · simp [heq]

theorem SameRuntime.setDialog
    {self : ℕ} {old new : Dialog} (hold : w.dialogs self = some old)
    (hruntime : new.runtime = old.runtime) (hptr : new.ptr = old.ptr) :
    SameRuntime w (w.setDialog self new) := by
  refine ⟨⟨?_, rfl, rfl, rfl⟩, owner_setDialog hold hptr, rfl, rfl⟩
  funext dialog
  rw [runtime_setDialog]
  split
  next heq =>
    funext field
    simp [World.runtime, heq, hold, hruntime]
  next => rfl

theorem invariant_congr
    (hinv : RuntimeInvariant (⟨call, l⟩ :: below) w)
    (hself : l'.self = l.self) (hallocated : l.allocated ⊆ l'.allocated) :
    RuntimeInvariant (⟨call, l'⟩ :: below) w := by
  refine { hinv with holder := ?_ }
  intro dialog field array hruntime
  obtain ⟨frame, hmem, hframe⟩ := hinv.holder dialog field array hruntime
  rcases List.mem_cons.mp hmem with rfl | hbelow
  · exact ⟨⟨call, l'⟩, List.mem_cons_self, hself.trans hframe.1,
      hallocated hframe.2⟩
  · exact ⟨frame, List.mem_cons_of_mem _ hbelow, hframe⟩

theorem invariant_push (hinv : RuntimeInvariant below w) :
    RuntimeInvariant (⟨call, l⟩ :: below) w := by
  refine { hinv with holder := ?_ }
  intro dialog field array hruntime
  obtain ⟨frame, hmem, hframe⟩ := hinv.holder dialog field array hruntime
  exact ⟨frame, List.mem_cons_of_mem _ hmem, hframe⟩

theorem sameRuntime_recordExit : SameRuntime w (w.recordExit l) := by
  unfold World.recordExit
  split <;> exact .of_dialogs rfl rfl rfl rfl rfl rfl

theorem sameRuntime_recordCall (dialog : Dialog) (op : StackOp) :
    SameRuntime w (w.recordCall l dialog op) := by
  unfold World.recordCall
  split
  · split <;> exact .of_dialogs rfl rfl rfl rfl rfl rfl
  · exact .of_dialogs rfl rfl rfl rfl rfl rfl

theorem sameRuntime_deliver
    (window dialog : ℕ) (notification : Notification) :
    SameRuntime w (w.deliver window dialog notification) := by
  cases notification <;> exact .of_dialogs rfl rfl rfl rfl rfl rfl

/-! ## Allocation and release -/

theorem runtime_setRuntime
    {self : ℕ} {dialog : Dialog} (hdialog : w.dialogs self = some dialog)
    (field : RuntimeField) (value : Option ℕ) (other : ℕ) (f : RuntimeField) :
    (w.setDialog self (dialog.setRuntime field value)).runtime other f =
      if other = self ∧ f = field then value else w.runtime other f := by
  rw [runtime_setDialog]
  by_cases hother : other = self
  · subst other
    by_cases hfield : f = field
    · simp [Dialog.setRuntime, hfield]
    · simp [Dialog.setRuntime, hfield, World.runtime, hdialog]
  · simp [hother]

/-- The ledger follows the pointer that is written. -/
theorem update_holds
    {ledger : Ledger (ℕ × RuntimeField) ℕ} (hledger : KeepsLedger w ledger)
    (self : ℕ) (field : RuntimeField) (value : Option ℕ) (other : ℕ) (f : RuntimeField) :
    Function.update ledger.holds (self, field) value (other, f) =
      if other = self ∧ f = field then value else w.runtime other f := by
  split
  next heq =>
    rw [heq.1, heq.2]
    exact Function.update_self ..
  next hne =>
    rw [← hledger.holds]
    exact Function.update_of_ne (by simpa using hne) ..

theorem invariant_allocateRuntime
    {self length : ℕ} {field : RuntimeField} {dialog : Dialog}
    (hinv : RuntimeInvariant stack w) (hdialog : w.dialogs self = some dialog)
    (hnone : w.runtime self field = none)
    (hframe : ∃ frame ∈ stack, frame.locals.self = self ∧
      w.nextArray ∈ frame.locals.allocated) :
    RuntimeInvariant stack (w.allocateRuntime self field length dialog) := by
  rcases hinv.ledger with ⟨ledger, hledger⟩
  have hnew : ∀ event ∈ ledger.history, event.resource ≠ w.nextArray := by
    intro event hmem
    rw [hledger.history] at hmem
    exact (hinv.fresh event hmem).ne
  have hruntime : ∀ other f,
      (w.allocateRuntime self field length dialog).runtime other f =
        if other = self ∧ f = field then some w.nextArray else w.runtime other f :=
    runtime_setRuntime hdialog field _
  have hlt : ∀ other f array, w.runtime other f = some array →
      array < w.nextArray := by
    intro other f array hold
    have hmem := ledger.acquired_of_holds (other, f) array
      ((hledger.holds other f).trans hold)
    rw [hledger.history] at hmem
    exact hinv.fresh _ hmem
  constructor
  · refine ⟨ledger.grant (self, field) w.nextArray hnew, ?_, ?_, ?_⟩
    · intro other f
      rw [hruntime]
      exact update_holds hledger self field _ other f
    · exact congrArg _ hledger.history
    · exact hledger.accounted.grant hnew
        ((hledger.holds self field).trans hnone)
  · intro other f array hsome
    rw [hruntime] at hsome
    show Function.update w.arrayDialog w.nextArray self array = other
    split at hsome
    next heq =>
      rw [Option.some.injEq] at hsome
      rw [← hsome, Function.update_self]
      exact heq.1.symm
    next =>
      rw [Function.update_of_ne (hlt other f array hsome).ne]
      exact hinv.arrayDialog other f array hsome
  · intro event hmem
    show event.resource < w.nextArray + 1
    rcases List.mem_cons.mp hmem with rfl | hold
    · exact Nat.lt_succ_self _
    · exact (hinv.fresh event hold).trans (Nat.lt_succ_self _)
  · intro array harray
    rcases Nat.lt_succ_iff_lt_or_eq.mp harray with hold | rfl
    · exact List.mem_cons_of_mem _ (hinv.acquired array hold)
    · exact List.mem_cons_self
  · exact hinv.asserted
  · have hptr : (dialog.setRuntime field (some w.nextArray)).ptr = dialog.ptr := rfl
    have howner : (w.allocateRuntime self field length dialog).owner = w.owner :=
      owner_setDialog hdialog hptr
    rw [howner]
    exact hinv.unconstructed
  · intro other f array hsome
    rw [hruntime] at hsome
    split at hsome
    next heq =>
      rw [Option.some.injEq] at hsome
      rw [← hsome, heq.1]
      exact hframe
    next => exact hinv.holder other f array hsome

theorem invariant_releaseRuntime
    {self : ℕ} {dialog : Dialog} (hinv : RuntimeInvariant stack w)
    (hdialog : w.dialogs self = some dialog) (field : RuntimeField) :
    RuntimeInvariant stack (w.releaseRuntime self field dialog) ∧
      PointersShrink w (w.releaseRuntime self field dialog) := by
  unfold World.releaseRuntime
  split
  next => exact ⟨hinv, fun _ _ _ h => h⟩
  next array hsome =>
    rcases hinv.ledger with ⟨ledger, hledger⟩
    have hheld : ledger.holds (self, field) = some array := by
      rw [hledger.holds]
      simpa [World.runtime, hdialog] using hsome
    have hruntime : ∀ other f, World.runtime
        { w.setDialog self (dialog.setRuntime field none) with
          arrays := .released array :: w.arrays } other f =
        if other = self ∧ f = field then none else w.runtime other f :=
      runtime_setRuntime hdialog field none
    have hshrink : PointersShrink w
        { w.setDialog self (dialog.setRuntime field none) with
          arrays := .released array :: w.arrays } := by
      intro other f held hpointer
      rw [hruntime] at hpointer
      split at hpointer
      next => contradiction
      next => exact hpointer
    refine ⟨?_, hshrink⟩
    constructor
    · refine ⟨ledger.release (self, field) array hheld, ?_, ?_, ?_⟩
      · intro other f
        rw [hruntime]
        exact update_holds hledger self field _ other f
      · exact congrArg _ hledger.history
      · exact hledger.accounted.release hheld
    · exact fun other f held hpointer =>
        hinv.arrayDialog other f held (hshrink other f held hpointer)
    · intro event hmem
      rcases List.mem_cons.mp hmem with rfl | hold
      · have hacquired := ledger.acquired_of_holds (self, field) array hheld
        rw [hledger.history] at hacquired
        exact hinv.fresh (.acquired array) hacquired
      · exact hinv.fresh event hold
    · exact fun other hlt => List.mem_cons_of_mem _ (hinv.acquired other hlt)
    · exact hinv.asserted
    · have hptr : (dialog.setRuntime field none).ptr = dialog.ptr := rfl
      have howner : World.owner
          { w.setDialog self (dialog.setRuntime field none) with
            arrays := .released array :: w.arrays } = w.owner :=
        owner_setDialog hdialog hptr
      rw [howner]
      exact hinv.unconstructed
    · exact fun other f held hpointer =>
        hinv.holder other f held (hshrink other f held hpointer)

/-! ## What activations know -/

/-- The pointers that are this activation's to clear are among `fields`. -/
structure Owned (below : List DialogFrame) (call : DialogCall) (entry : World)
    (fields : Set RuntimeField) (w : World) (l : DialogLocals) : Prop where
  invariant : RuntimeInvariant (⟨call, l⟩ :: below) w
  held : ∀ dialog field array, w.runtime dialog field = some array →
    entry.runtime dialog field = some array ∨
      dialog = l.self ∧ field ∈ fields ∧ array ∈ l.allocated
  mine : ∀ field array, w.runtime l.self field = some array →
    array ∈ l.allocated → field ∈ fields

/-- Both pointers were null when the activation was entered. -/
structure Configuring (below : List DialogFrame) (call : DialogCall)
    (entry : World) (fields : Set RuntimeField) (w : World) (l : DialogLocals) :
    Prop extends Owned below call entry fields w l where
  entryNull : ∀ field, entry.runtime l.self field = none

theorem Owned.exit (h : Owned below call entry ∅ w l) :
    RuntimeInvariant below (w.recordExit l) ∧
      PointersShrink entry (w.recordExit l) := by
  have hpopped : RuntimeInvariant below w := by
    refine { h.invariant with holder := ?_ }
    intro dialog field array hruntime
    obtain ⟨frame, hmem, hself, hallocated⟩ :=
      h.invariant.holder dialog field array hruntime
    rcases List.mem_cons.mp hmem with rfl | hbelow
    · subst hself
      exact absurd (h.mine field array hruntime hallocated) id
    · exact ⟨frame, hbelow, hself, hallocated⟩
  refine ⟨sameRuntime_recordExit.invariant hpopped, ?_⟩
  intro dialog field array hruntime
  rcases h.held dialog field array
    (sameRuntime_recordExit.shrink _ _ _ hruntime) with hentry | hmine
  · exact hentry
  · exact absurd hmine.2.1 id

theorem Owned.released
    {fields : Set RuntimeField} (h : Owned below call entry fields w l)
    (hnone : ∀ field array, w.runtime l.self field = some array →
      array ∉ l.allocated) : Owned below call entry ∅ w l := by
  refine ⟨h.invariant, ?_, ?_⟩
  · intro dialog field array hruntime
    rcases h.held dialog field array hruntime with hentry | ⟨rfl, _, hallocated⟩
    · exact .inl hentry
    · exact absurd hallocated (hnone field array hruntime)
  · exact fun field array hruntime hallocated =>
      absurd hallocated (hnone field array hruntime)

theorem Owned.abandon
    {fields : Set RuntimeField} (h : Owned below call entry fields w l) :
    runtimeArrays.Abandonable (taskDialogHost ctx) below call entry w l := by
  intro hreleased
  apply Owned.exit
  apply h.released
  intro field array hruntime hallocated
  have hframe : arraysReleased ⟨call, l⟩ w = true := hreleased
  rw [not_arraysReleased h.invariant hruntime hallocated] at hframe
  contradiction

theorem Owned.shrink
    {fields : Set RuntimeField} (h : Owned below call entry fields w l)
    (hshrink : PointersShrink w w')
    (hinv : RuntimeInvariant (⟨call, l⟩ :: below) w') :
    Owned below call entry fields w' l :=
  ⟨hinv, fun dialog field array hruntime =>
    h.held dialog field array (hshrink _ _ _ hruntime),
    fun field array hruntime => h.mine field array (hshrink _ _ _ hruntime)⟩

theorem stable_owned (fields : Set RuntimeField) :
    runtimeArrays.Stable (taskDialogHost ctx) below call entry
      (Owned below call entry fields) where
  inv := fun _ _ h => h.invariant
  rely := fun _ _ _ h hshrink hinv => h.shrink hshrink hinv
  abandon := fun _ _ h => h.abandon

theorem stable_configuring (fields : Set RuntimeField) :
    runtimeArrays.Stable (taskDialogHost ctx) below call entry
      (Configuring below call entry fields) where
  inv := fun _ _ h => h.invariant
  rely := fun _ _ _ h hshrink hinv =>
    ⟨h.toOwned.shrink hshrink hinv, h.entryNull⟩
  abandon := fun _ _ h => h.toOwned.abandon

/-! ## Operations that allocate nothing -/

def quiet : DialogOp → Bool
  | .stack _ _ => true
  | .effect e => !e.preparesRuntime

theorem quiet_effect
    (e : DialogEffect) (he : e.preparesRuntime = false) :
    quiet (.effect e) = true := by
  simp [quiet, he]

theorem Owned.congr
    {fields : Set RuntimeField} (h : Owned below call entry fields w l)
    (hself : l'.self = l.self) (hallocated : l'.allocated = l.allocated) :
    Owned below call entry fields w l' := by
  refine ⟨invariant_congr h.invariant hself (by rw [hallocated]; exact fun _ => id),
    ?_, ?_⟩
  · rw [hself, hallocated]
    exact h.held
  · rw [hself, hallocated]
    exact h.mine

theorem of_perform
    {e : DialogEffect} {answer : e.Answer} {dialog : Dialog}
    (hdialog : w.dialogs l.self = some dialog) (hquiet : quiet (.effect e) = true)
    (hinv : RuntimeInvariant stack w)
    (h : e.perform w l dialog = some (answer, w', l')) :
    l' = l ∧ RuntimeInvariant stack w' ∧ PointersShrink w w' := by
  have hsame : SameRuntime w w' → RuntimeInvariant stack w' ∧ PointersShrink w w' :=
    fun hsame => ⟨hsame.invariant hinv, hsame.shrink⟩
  cases e with
  | self =>
      simp only [DialogEffect.perform, Option.some.injEq, Prod.mk.injEq] at h
      rcases h with ⟨_, rfl, rfl⟩
      exact ⟨rfl, hsame (.of_dialogs rfl rfl rfl rfl rfl rfl)⟩
  | modifyConfig f =>
      simp only [DialogEffect.perform, Option.some.injEq, Prod.mk.injEq] at h
      rcases h with ⟨_, rfl, rfl⟩
      exact ⟨rfl, hsame (.setDialog hdialog rfl rfl)⟩
  | setHwnd hwnd =>
      simp only [DialogEffect.perform, Option.some.injEq, Prod.mk.injEq] at h
      rcases h with ⟨_, rfl, rfl⟩
      exact ⟨rfl, hsame (.setDialog hdialog rfl rfl)⟩
  | setPreventClose value =>
      simp only [DialogEffect.perform, Option.some.injEq, Prod.mk.injEq] at h
      rcases h with ⟨_, rfl, rfl⟩
      exact ⟨rfl, hsame (.setDialog hdialog rfl rfl)⟩
  | newRuntime field length => contradiction
  | deleteRuntime field =>
      simp only [DialogEffect.perform, Option.some.injEq, Prod.mk.injEq] at h
      rcases h with ⟨_, rfl, rfl⟩
      exact ⟨rfl, invariant_releaseRuntime hinv hdialog field⟩
  | storeButton field index button =>
      simp only [DialogEffect.perform] at h
      split at h
      next => contradiction
      next =>
        split at h
        next =>
          simp only [Option.some.injEq, Prod.mk.injEq] at h
          rcases h with ⟨_, rfl, rfl⟩
          exact ⟨rfl, hsame (.of_dialogs rfl rfl rfl rfl rfl rfl)⟩
        next => contradiction
  | assertRuntimeNull => contradiction
  | createDialogWindow => simp [DialogEffect.perform] at h
  | modalLoop window => simp [DialogEffect.perform] at h
  | sendMessage hwnd message => simp [DialogEffect.perform] at h
  | setForegroundWindow hwnd => simp [DialogEffect.perform] at h
  | pump => simp [DialogEffect.perform] at h

theorem keeps_quiet
    {F : World → DialogLocals → Prop}
    (hinv : ∀ w l, F w l → RuntimeInvariant (⟨call, l⟩ :: below) w)
    (hshrink : ∀ w w' l, F w l → PointersShrink w w' →
      RuntimeInvariant (⟨call, l⟩ :: below) w' → F w' l)
    (hcongr : ∀ w l l', F w l → l'.self = l.self → l'.allocated = l.allocated →
      F w l') {op : DialogOp} (hop : quiet op = true) :
    runtimeArrays.Keeps (taskDialogHost ctx) call F op := by
  cases op with
  | stack c op =>
      constructor
      · intro _ answer w l w' l' h hdone _
        obtain ⟨rfl, frame, rfl⟩ := of_resume_stack hdone
        exact hcongr _ _ _ h rfl rfl
      · intro _ answer w l w' l' h hdone
        obtain ⟨dialog, frame, _, _, rfl, rfl⟩ := of_effect_stack hdone
        have hsame := sameRuntime_recordCall (w := w) (l := l) dialog op
        refine hcongr _ l _ ?_ rfl rfl
        exact hshrink _ _ _ h hsame.shrink (hsame.invariant (hinv _ _ h))
  | effect e =>
      constructor
      · intro _ answer w l w' l' h hdone _
        rcases of_resume_effect hdone with ⟨rfl, rfl⟩ | ⟨_, rfl, rfl⟩
        · exact h
        · have hsame : SameRuntime w (w.openWindow l.self) :=
            .of_dialogs rfl rfl rfl rfl rfl rfl
          refine hcongr _ l _ ?_ rfl rfl
          exact hshrink _ _ _ h hsame.shrink (hsame.invariant (hinv _ _ h))
      · intro _ answer w l w' l' h hdone
        obtain ⟨dialog, hdialog, hperform⟩ := of_effect_effect hdone
        obtain ⟨rfl, hnew, hsmaller⟩ :=
          of_perform hdialog hop (hinv _ _ h) hperform
        exact hshrink _ _ _ h hsmaller hnew

theorem meets_owned
    {α : Type} {p : DialogProgram α} (hp : p.All (quiet · = true))
    {fields : Set RuntimeField} (h : Owned below call entry fields w l) :
    runtimeArrays.Meets (taskDialogHost ctx) below call entry
      (fun _ => Owned below call entry fields) p w l := by
  apply Discipline.Meets.of_all (stable_owned fields) _ h
  apply hp.mono
  intro op hop
  exact keeps_quiet (fun _ _ h => h.invariant) (fun _ _ _ h => h.shrink)
    (fun _ _ _ h => h.congr) hop

theorem meets_configuring
    {α : Type} {p : DialogProgram α} (hp : p.All (quiet · = true))
    {fields : Set RuntimeField} (h : Configuring below call entry fields w l) :
    runtimeArrays.Meets (taskDialogHost ctx) below call entry
      (fun _ => Configuring below call entry fields) p w l := by
  apply Discipline.Meets.of_all (stable_configuring fields) _ h
  apply hp.mono
  intro op hop
  apply keeps_quiet (fun _ _ h => h.invariant) _ _ hop
  · exact fun _ _ _ h hshrink hinv =>
      ⟨h.toOwned.shrink hshrink hinv, h.entryNull⟩
  · exact fun _ _ _ h hself hallocated =>
      ⟨h.toOwned.congr hself hallocated, hself ▸ h.entryNull⟩

/-! ## CreateConfig -/

theorem Configuring.mono
    {fields more : Set RuntimeField} (h : Configuring below call entry fields w l)
    (hsubset : fields ⊆ more) : Configuring below call entry more w l := by
  refine ⟨⟨h.invariant, ?_, ?_⟩, h.entryNull⟩
  · intro dialog field array hruntime
    rcases h.held dialog field array hruntime with hentry | ⟨hself, hfield, hmem⟩
    · exact .inl hentry
    · exact .inr ⟨hself, hsubset hfield, hmem⟩
  · exact fun field array hruntime hmem => hsubset (h.mine field array hruntime hmem)

theorem Configuring.runtime_eq_none
    {fields : Set RuntimeField} (h : Configuring below call entry fields w l)
    {field : RuntimeField} (hfield : field ∉ fields) :
    w.runtime l.self field = none := by
  cases hruntime : w.runtime l.self field with
  | none => rfl
  | some array =>
      rcases h.held l.self field array hruntime with hentry | ⟨_, hmem, _⟩
      · rw [h.entryNull field] at hentry
        contradiction
      · exact absurd hmem hfield

theorem Configuring.newRuntime
    {fields : Set RuntimeField} (h : Configuring below call entry fields w l)
    {field : RuntimeField} (hfield : field ∉ fields) {length : ℕ} {dialog : Dialog}
    (hdialog : w.dialogs l.self = some dialog) :
    Configuring below call entry (insert field fields)
      (w.allocateRuntime l.self field length dialog)
      { l with allocated := w.nextArray :: l.allocated } := by
  have hruntime : ∀ other f,
      (w.allocateRuntime l.self field length dialog).runtime other f =
        if other = l.self ∧ f = field then some w.nextArray
        else w.runtime other f :=
    runtime_setRuntime hdialog field _
  have hpushed : RuntimeInvariant
      (⟨call, { l with allocated := w.nextArray :: l.allocated }⟩ :: below) w :=
    invariant_congr h.invariant rfl (List.subset_cons_self _ _)
  refine ⟨⟨?_, ?_, ?_⟩, h.entryNull⟩
  · apply invariant_allocateRuntime hpushed hdialog (h.runtime_eq_none hfield)
    exact ⟨_, List.mem_cons_self, rfl, List.mem_cons_self⟩
  · intro other f array hsome
    rw [hruntime] at hsome
    split at hsome
    next heq =>
      rw [Option.some.injEq] at hsome
      subst array
      exact .inr ⟨heq.1, heq.2 ▸ Set.mem_insert field fields, List.mem_cons_self⟩
    next =>
      rcases h.held other f array hsome with hentry | ⟨hself, hmem, hallocated⟩
      · exact .inl hentry
      · exact .inr ⟨hself, Set.mem_insert_of_mem field hmem,
          List.mem_cons_of_mem _ hallocated⟩
  · intro f array hsome _
    by_contra hnot
    rw [Set.mem_insert_iff, not_or] at hnot
    rw [hruntime, if_neg (fun heq => hnot.1 heq.2),
      h.runtime_eq_none hnot.2] at hsome
    contradiction

theorem meets_newRuntime
    {fields : Set RuntimeField} (h : Configuring below call entry fields w l)
    {field : RuntimeField} (hfield : field ∉ fields) (length : ℕ) :
    runtimeArrays.Meets (taskDialogHost ctx) below call entry
      (fun _ => Configuring below call entry (insert field fields))
      (NKWinTaskDialog.perform (.newRuntime field length)) w l := by
  apply meets_silentEffect rfl
  intro dialog _ w' l' hdialog hperform
  simp only [DialogEffect.perform, Option.some.injEq, Prod.mk.injEq] at hperform
  rcases hperform with ⟨_, rfl, rfl⟩
  exact h.newRuntime hfield hdialog

theorem meets_assertRuntimeNull (h : Configuring below call entry ∅ w l) :
    runtimeArrays.Meets (taskDialogHost ctx) below call entry
      (fun _ => Configuring below call entry ∅)
      (NKWinTaskDialog.perform .assertRuntimeNull) w l := by
  apply meets_silentEffect rfl
  intro dialog _ w' l' hdialog hperform
  simp only [DialogEffect.perform, Option.some.injEq, Prod.mk.injEq] at hperform
  rcases hperform with ⟨_, rfl, rfl⟩
  have hnone : ∀ field, w.runtime l.self field = none :=
    fun field => h.runtime_eq_none (Set.notMem_empty field)
  have hsame : SameArrays w (w.assertRuntime l.self) := ⟨rfl, rfl, rfl, rfl⟩
  have hinv := hsame.invariant h.invariant (holds_assertRuntime h.invariant hnone)
    h.invariant.unconstructed
  exact ⟨h.toOwned.shrink hsame.shrink hinv, h.entryNull⟩

theorem meets_stackOp
    {fields : Set RuntimeField} (h : Configuring below call entry fields w l)
    (op : StackOp) :
    runtimeArrays.Meets (taskDialogHost ctx) below call entry
      (fun _ => Configuring below call entry fields)
      (stackOp c op : DialogProgram op.Answer) w l := by
  apply meets_configuring _ h
  exact ⟨rfl, fun _ => trivial⟩

theorem meets_modifyConfig
    {fields : Set RuntimeField} (h : Configuring below call entry fields w l)
    (f : DialogConfig → DialogConfig) :
    runtimeArrays.Meets (taskDialogHost ctx) below call entry
      (fun _ => Configuring below call entry fields)
      (NKWinTaskDialog.perform (.modifyConfig f)) w l :=
  meets_configuring (NKWinTaskDialog.all_perform rfl) h

theorem meets_arrayField
    {fields more : Set RuntimeField} (hmore : fields ⊆ more)
    (h : Configuring below call entry fields w l)
    {name : String} {use : ℕ → DialogProgram Unit}
    (huse : ∀ length w l, Configuring below call entry fields w l →
      runtimeArrays.Meets (taskDialogHost ctx) below call entry
        (fun _ => Configuring below call entry more) (use length) w l) :
    runtimeArrays.Meets (taskDialogHost ctx) below call entry
      (fun _ => Configuring below call entry more)
      (NKWinTaskDialog.arrayField c name use) w l := by
  apply (meets_stackOp h _).bind
  intro _ w l h
  apply (meets_stackOp h _).bind
  intro value w l h
  split
  · apply (meets_stackOp h _).bind
    intro length w l h
    apply (huse length w l h).bind
    exact fun _ w l h => meets_stackOp h _
  · exact (meets_stackOp h _).mono fun _ _ _ h => h.mono hmore

theorem meets_buttons (h : Configuring below call entry ∅ w l) :
    runtimeArrays.Meets (taskDialogHost ctx) below call entry
      (fun _ => Configuring below call entry {.buttons})
      (NKWinTaskDialog.buttons c) w l := by
  apply meets_arrayField (Set.empty_subset _) h
  intro length w l h
  apply (meets_modifyConfig h _).bind
  intro _ w l h
  apply (meets_newRuntime h (Set.notMem_empty _) length).bind
  intro _ w l h
  rw [insert_empty_eq] at h
  apply meets_configuring _ h
  apply Program.All.bind (Program.All.forM _ fun i _ =>
    NKWinTaskDialog.all_button (fun _ _ => rfl) (fun _ => rfl) (fun _ _ _ => rfl) i)
  exact fun _ => ⟨rfl, fun _ => ⟨rfl, fun _ => trivial⟩⟩

theorem meets_radioButtons (h : Configuring below call entry {.buttons} w l) :
    runtimeArrays.Meets (taskDialogHost ctx) below call entry
      (fun _ => Configuring below call entry {.radios, .buttons})
      (NKWinTaskDialog.radioButtons c) w l := by
  apply meets_arrayField (Set.subset_insert _ _) h
  intro length w l h
  apply (meets_modifyConfig h _).bind
  intro _ w l h
  apply (meets_newRuntime h (by simp) length).bind
  intro _ w l h
  apply meets_configuring _ h
  apply Program.All.bind (Program.All.forM _ fun i _ =>
    NKWinTaskDialog.all_radioButton (fun _ _ => rfl) (fun _ => rfl)
      (fun _ _ _ => rfl) i)
  exact fun _ => ⟨rfl, fun _ => ⟨rfl, fun _ => trivial⟩⟩

theorem meets_createConfig (h : Configuring below call entry ∅ w l) :
    runtimeArrays.Meets (taskDialogHost ctx) below call entry
      (fun _ => Owned below call entry {.radios, .buttons})
      (NKWinTaskDialog.createConfig c) w l := by
  apply (meets_assertRuntimeNull h).bind
  intro _ w l h
  have hhead : (NKWinTaskDialog.createConfigHead c).All (quiet · = true) :=
    NKWinTaskDialog.all_createConfigHead (fun _ _ => rfl) fun _ => rfl
  apply (meets_configuring hhead h).bind
  intro _ w l h
  apply (meets_buttons h).bind
  intro _ w l h
  apply (meets_radioButtons h).bind
  intro _ w l h
  exact (meets_stackOp h _).mono fun _ _ _ h => h.toOwned

/-! ## FreeRuntime -/

theorem runtime_releaseRuntime
    {self : ℕ} {dialog : Dialog} (hdialog : w.dialogs self = some dialog)
    (field : RuntimeField) :
    (w.releaseRuntime self field dialog).runtime self field = none := by
  unfold World.releaseRuntime
  split
  next hnone => simpa [World.runtime, hdialog] using hnone
  next =>
    apply (runtime_setRuntime hdialog field none self field).trans
    simp

theorem meets_freeRuntime
    {fields : Set RuntimeField} (h : Owned below call entry fields w l) :
    runtimeArrays.Meets (taskDialogHost ctx) below call entry
      (fun _ => Owned below call entry ∅) NKWinTaskDialog.freeRuntime w l := by
  apply meets_silentEffect rfl
  intro dialog _ w₁ l₁ hdialog hperform
  simp only [DialogEffect.perform, Option.some.injEq, Prod.mk.injEq] at hperform
  rcases hperform with ⟨_, rfl, rfl⟩
  have hbuttons := runtime_releaseRuntime hdialog .buttons
  obtain ⟨hinv, hshrink⟩ := invariant_releaseRuntime h.invariant hdialog .buttons
  have h₁ := h.shrink hshrink hinv
  apply meets_silentEffect rfl
  intro dialog' _ w₂ l₂ hdialog' hperform
  simp only [DialogEffect.perform, Option.some.injEq, Prod.mk.injEq] at hperform
  rcases hperform with ⟨_, rfl, rfl⟩
  have hradios := runtime_releaseRuntime hdialog' .radios
  obtain ⟨hinv', hshrink'⟩ :=
    invariant_releaseRuntime h₁.invariant hdialog' .radios
  apply (h₁.shrink hshrink' hinv').released
  intro field array hruntime
  cases field with
  | buttons =>
      have hold := hshrink' _ _ _ hruntime
      rw [hbuttons] at hold
      contradiction
  | radios =>
      rw [hradios] at hruntime
      contradiction

theorem meets_freeRuntime_checkResult
    {fields : Set RuntimeField} (h : Owned below call entry fields w l)
    (result : ℤ) (function : String) :
    runtimeArrays.Meets (taskDialogHost ctx) below call entry
      (fun _ => Owned below call entry ∅)
      (NKWinTaskDialog.freeRuntime >>= fun _ =>
        NKWinTaskDialog.checkResult c result function) w l := by
  apply (meets_freeRuntime h).bind
  intro _ w l h
  exact meets_owned (NKWinTaskDialog.all_checkResult (fun _ _ => rfl) _ _) h

/-! ## The methods -/

theorem meets_showDialog
    (h : Owned below call entry ∅ w l)
    (hentry : w.hwnd l.self = none → ∀ field, entry.runtime l.self field = none) :
    runtimeArrays.Meets (taskDialogHost ctx) below call entry
      (fun _ => Owned below call entry ∅) (NKWinTaskDialog.showDialog c) w l := by
  apply meets_self
  intro dialog hdialog
  simp only [Program.pure_bind]
  split
  next =>
    apply meets_owned _ h
    exact ⟨rfl, fun _ => trivial⟩
  next hhwnd =>
    have hnull := hentry (by simp [World.hwnd, hdialog, hhwnd])
    apply (meets_createConfig ⟨h, hnull⟩).bind
    intro _ w l h
    have hindirect : (NKWinTaskDialog.taskDialogIndirect c).All (quiet · = true) :=
      NKWinTaskDialog.all_taskDialogIndirect (fun _ => rfl) quiet_effect
    apply (meets_owned hindirect h).bind
    intro hr w l h
    exact meets_freeRuntime_checkResult h hr _

theorem meets_navigate
    (h : Owned below call entry ∅ w l)
    (hentry : ∀ field, entry.runtime l.self field = none) :
    runtimeArrays.Meets (taskDialogHost ctx) below call entry
      (fun _ => Owned below call entry ∅) (NKWinTaskDialog.navigate c) w l := by
  apply meets_self
  intro dialog hdialog
  simp only [Program.pure_bind]
  split
  next => exact meets_showDialog h fun _ => hentry
  next =>
    apply (meets_createConfig ⟨h, hentry⟩).bind
    intro _ w l h
    have hself : Program.All (quiet · = true)
        (NKWinTaskDialog.perform .self) := NKWinTaskDialog.all_perform rfl
    apply (meets_owned hself h).bind
    intro self w l h
    have hsend : Program.All (quiet · = true)
        (NKWinTaskDialog.perform (.sendMessage self.hwnd .navigatePage)) :=
      NKWinTaskDialog.all_perform rfl
    apply (meets_owned hsend h).bind
    intro result w l h
    exact meets_freeRuntime_checkResult h result _

theorem owned_of_enter
    (hinv : RuntimeInvariant below w) (hallocated : l.allocated = []) :
    Owned below call w ∅ w l := by
  refine ⟨invariant_push hinv, fun _ _ _ hruntime => .inl hruntime, ?_⟩
  intro field array _ hmem
  simp [hallocated] at hmem

theorem meets_method
    (m : DialogMethod) {this : JSValue} {self : ℕ} {args : List JSValue}
    (hinv : RuntimeInvariant below w) (hself : l.self = self)
    (hallocated : l.allocated = [])
    (hmay : runtimeArrays.mayEnter below w (.method m this self args)) :
    runtimeArrays.Meets (taskDialogHost ctx) below call w
      (fun _ => Owned below call w ∅) (m.body c) w l := by
  subst self
  have h : Owned below call w ∅ w l := owned_of_enter hinv hallocated
  cases m with
  | showDialog =>
      apply meets_showDialog h
      intro hhwnd
      exact runtime_eq_none hinv (hmay l.self (by simp [DialogCall.configures, hhwnd]))
  | navigate => exact meets_navigate h (runtime_eq_none hinv (hmay l.self rfl))
  | preventClose =>
      apply meets_owned _ h
      exact ⟨rfl, fun _ => trivial⟩
  | enableButton =>
      exact meets_owned (NKWinTaskDialog.all_enableButton (fun _ _ => rfl) rfl
        fun _ _ => rfl) h
  | enableRadioButton =>
      exact meets_owned (NKWinTaskDialog.all_enableRadioButton (fun _ _ => rfl)
        rfl fun _ _ => rfl) h

/-! ## Soundness -/

theorem sound_enter
    {awaited : Option DialogOp} (hinv : RuntimeInvariant below w)
    (hmay : runtimeArrays.mayEnter below w call)
    (henter : call.enter w below awaited = some (w', l)) :
    PointersShrink w w' ∧
      runtimeArrays.Meets (taskDialogHost ctx) below call w'
        (runtimeArrays.Left (taskDialogHost ctx) below call w')
        (call.body ctx) w' l := by
  cases call with
  | method m this self args =>
      obtain ⟨rfl, rfl, _⟩ := of_enter_method henter
      refine ⟨fun _ _ _ h => h, ?_⟩
      exact (meets_method m hinv rfl rfl hmay).mono fun _ _ _ h => h.exit
  | notify window notification wParam lParam =>
      obtain ⟨dialog, top, rest, rfl, hwindow, hw, rfl, _⟩ :=
        of_enter_notify henter
      have hsame : SameRuntime w w' :=
        hw ▸ sameRuntime_deliver window dialog notification
      refine ⟨hsame.shrink, ?_⟩
      have hcallback : (NKWinTaskDialog.callback ctx window notification wParam
          lParam).All (quiet · = true) :=
        NKWinTaskDialog.all_callback_of_effects (fun _ => rfl) quiet_effect
          window notification wParam lParam
      exact (meets_owned hcallback (owned_of_enter (hsame.invariant hinv) rfl)).mono
        fun _ _ _ h => h.exit
  | other this =>
      obtain ⟨rfl, rfl⟩ := of_enter_other henter
      refine ⟨fun _ _ _ h => h, ?_⟩
      have hpump : Program.All (quiet · = true)
          (NKWinTaskDialog.perform .pump >>= fun _ => pure 0) :=
        ⟨rfl, fun _ => trivial⟩
      exact (meets_owned hpump (owned_of_enter hinv rfl)).mono
        fun _ _ _ h => h.exit

theorem sound_external
    {action : DialogAction} (hinv : RuntimeInvariant stack w)
    (hmay : runtimeArrays.mayExternal stack w action)
    (haction : action.perform w = some w') :
    RuntimeInvariant stack w' ∧ PointersShrink w w' := by
  cases action with
  | construct object =>
      simp only [DialogAction.perform, Option.some.injEq] at haction
      subst w'
      have hnone : w.dialogs w.nextDialog = none := by
        simpa [World.owner] using hinv.unconstructed w.nextDialog le_rfl
      have hruntime : World.runtime { w with
          dialogs := Function.update w.dialogs w.nextDialog (some (.new object))
          nextDialog := w.nextDialog + 1 } = w.runtime := by
        funext dialog field
        unfold World.runtime
        by_cases hdialog : dialog = w.nextDialog
        · simp [hdialog, hnone, Dialog.new]
        · simp [hdialog]
      have hsame : SameArrays w { w with
          dialogs := Function.update w.dialogs w.nextDialog (some (.new object))
          nextDialog := w.nextDialog + 1 } := ⟨hruntime, rfl, rfl, rfl⟩
      refine ⟨hsame.invariant hinv hinv.asserted ?_, hsame.shrink⟩
      intro dialog hle
      have hlt : w.nextDialog < dialog := hle
      have hold := hinv.unconstructed dialog hlt.le
      simpa [World.owner, hlt.ne'] using hold
  | destroy dialog =>
      simp only [DialogAction.perform, Option.map_eq_some_iff] at haction
      rcases haction with ⟨_, _, rfl⟩
      have hnone : ∀ field, w.runtime dialog field = none :=
        runtime_eq_none hinv (hmay dialog rfl)
      have hruntime : World.runtime { w.assertRuntime dialog with
          dialogs := Function.update w.dialogs dialog none } = w.runtime := by
        funext other field
        by_cases hother : other = dialog
        · rw [hother, hnone field]
          simp [World.runtime]
        · simp [World.runtime, hother]
      have hsame : SameArrays w { w.assertRuntime dialog with
          dialogs := Function.update w.dialogs dialog none } :=
        ⟨hruntime, rfl, rfl, rfl⟩
      refine ⟨hsame.invariant hinv (holds_assertRuntime hinv hnone) ?_,
        hsame.shrink⟩
      intro other hle
      have hold := hinv.unconstructed other hle
      by_cases hother : other = dialog
      · simp [World.owner, hother]
      · simpa [World.owner, hother] using hold

theorem sound : runtimeArrays.Sound (taskDialogHost ctx) where
  enter := fun _ _ _ _ _ _ hinv hmay => sound_enter hinv hmay
  external := fun _ _ _ _ hinv hmay => sound_external hinv hmay

end RuntimeArrays

/-- In a run in which, while an activation has arrays to release, no error jumps
over it, no other call for its dialog comes to `CreateConfig`, and its dialog is
not destroyed. -/
theorem runtimeAssertions_of_arraysReleased
    {ctx : Context} {s : DialogState} {choices : List DialogChoice}
    (hrun : GuardedRun (taskDialogHost ctx).step
      (runtimeArrays.Guard (taskDialogHost ctx)) ⟨World.initial, []⟩ choices s) :
    ∀ found ∈ s.world.assertions, found.Holds := by
  have hinit : RuntimeInvariant [] World.initial := by
    refine ⟨⟨.empty, ?_, rfl, Ledger.accounted_empty⟩, ?_, ?_, ?_, ?_, ?_, ?_⟩
    · intro dialog field
      rfl
    all_goals simp [World.initial, World.runtime, World.owner]
  exact (RuntimeArrays.sound.inv_of_guardedRun hinit hrun).asserted

/-- `buttons` is an array of one element, the other options are undefined. -/
def oneButton (text : JSValue) : PropKey → JSValue
  | .name name => if name = "buttons" then .array 30 else .undefined
  | _ => text

def showOneButton (window : ℕ) : List DialogChoice :=
  .enter (.method .showDialog (.object 10) 0 [.object 20]) ::
    (List.replicate 31 (.answer (calmAnswer (oneButton (.text "Go")) window)) ++
      [.enter (.notify window .destroyed 0 []),
        .answer (calmAnswer (fun _ => .undefined) window),
        .answer (calmAnswer (fun _ => .undefined) window)])

theorem runtimeAssertions_of_showOneButton :
    ∃ s, run (taskDialogHost 0).step ⟨World.initial, []⟩
        (.external (.construct 10) :: showOneButton 0 ++ showOneButton 1 ++
          [.external (.destroy 0)]) = some s ∧
      s.world.assertions.map (·.releases) = [[1, 1], [1], []] ∧
      ∀ found ∈ s.world.assertions, found.Holds := by
  have hchecked : ((checkedRun (taskDialogHost 0).step
      (runtimeArrays.Guard (taskDialogHost 0)) ⟨World.initial, []⟩
      (.external (.construct 10) :: showOneButton 0 ++ showOneButton 1 ++
        [.external (.destroy 0)])).map
      fun s => s.world.assertions.map (·.releases)) = some [[1, 1], [1], []] := by
    decide +kernel
  obtain ⟨s, hs, hreleases⟩ := Option.map_eq_some_iff.mp hchecked
  have hrun := GuardedRun.of_checkedRun hs
  exact ⟨s, hrun.run_eq, hreleases, runtimeAssertions_of_arraysReleased hrun⟩

/-- The `toString` of the only button throws, and `show` is called again. -/
def showThrowingButton : List DialogChoice :=
  .external (.construct 10) ::
    .enter (.method .showDialog (.object 10) 0 [.object 20]) ::
    (List.replicate 28 (.answer (calmAnswer (oneButton (.object 40)) 0)) ++
      [.raise 1, .enter (.method .showDialog (.object 10) 0 [])])

theorem not_runtimeAssertions_of_showThrowingButton :
    ∃ s, run (taskDialogHost 0).step ⟨World.initial, []⟩ showThrowingButton =
        some s ∧
      ¬ ∀ found ∈ s.world.assertions, found.Holds := by
  have hrun : ((run (taskDialogHost 0).step ⟨World.initial, []⟩
      showThrowingButton).map
      fun s => decide (∀ found ∈ s.world.assertions, found.Holds)) =
      some false := by
    decide +kernel
  obtain ⟨s, hs, hfalse⟩ := Option.map_eq_some_iff.mp hrun
  exact ⟨s, hs, of_decide_eq_false hfalse⟩

end NekoScript
