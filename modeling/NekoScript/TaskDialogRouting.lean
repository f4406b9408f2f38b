import NekoScript.TaskDialogHost
import NekoScript.EmitterEmissions
import Mathlib.Tactic

/-!
# On which object the callback of a dialog emits

The callback pushes the `this` binding of the innermost running native function
and emits on that.  It is the owner of the dialog exactly when that function
was called on the owner.  All of it happens on the one context of the host: a
coroutine would have activations, and a `this`, of its own.
-/

namespace NekoScript

open Programs ReentrantCalls GuardedRuns TaskDialogHost

/-- The handlers that a call of `emit` by a callback finds. -/
def Emission.handlers (emitters : EventEmitter.EmitterWorld) (emission : Emission) :
    List EventEmitter.ListenerObject :=
  match emission.this, emission.args with
  | .object this, .string name :: _ => emitters.listenersOf this name
  | _, _ => []

/-- The event was emitted on the object that owns the notified dialog, and the
handlers it finds are those that are registered on this object, whatever is
registered on other ones. -/
structure Emission.Routed (emission : Emission) : Prop where
  this : emission.this = .object emission.owner
  handlers : ∃ name args, emission.args = .string name :: args ∧
    ∀ apart emitters, EventEmitter.Separate apart emitters →
      emission.handlers emitters = (emitters.registryOf emission.owner).listeners name

def EventsRouted (w : World) : Prop := ∀ emission ∈ w.emissions, emission.Routed

/-- The event of a notification that the callback lists. -/
def Notification.event : Notification → Option String
  | .created => some "created"
  | .navigated => some "navigated"
  | .buttonClicked => some "buttonClicked"
  | .hyperlinkClicked => some "hyperlinkClicked"
  | .timer => some "timer"
  | .destroyed => some "destroyed"
  | .radioButtonClicked => some "radioButtonClicked"
  | .dialogConstructed => some "dialogConstructed"
  | .verificationClicked => some "verificationClicked"
  | .help => some "help"
  | .expandoButtonClicked => some "expandoButtonClicked"
  | .unlisted _ => none

def Notification.listed : Notification → Bool
  | .unlisted _ => false
  | _ => true

def NativeOp.calls : NativeOp DialogEffect → Bool
  | .stack _ op => op.calls
  | .effect _ => false

/-- Whatever its operations answer, a program that comes to its end has emitted
the event, and has called no other function of the script. -/
def EmitsOnce (ctx : Context) (name : String) (p : DialogProgram ℤ) : Prop :=
  ∃ (before : DialogProgram Unit) (args : List JSValue) (after : DialogProgram ℤ),
    p = before.bind (fun _ => (NKWinTaskDialog.emit ctx name args).bind fun _ => after) ∧
      before.All (fun op => op.calls = false) ∧ after.All fun op => op.calls = false

/-- `this` is the owner of a dialog that still exists. -/
def calledOnOwner (w : World) (this : JSValue) (dialog : ℕ) : Bool :=
  match w.owner dialog with
  | none => true
  | some owner => this = .object owner

structure OwnersKept (w w' : World) : Prop where
  nextDialog : w.nextDialog ≤ w'.nextDialog
  owner : ∀ dialog owner, w'.owner dialog = some owner → dialog < w.nextDialog →
    w.owner dialog = some owner

structure RoutingInvariant (w : World) : Prop where
  routed : EventsRouted w
  fresh : ∀ dialog, w.nextDialog ≤ dialog → w.dialogs dialog = none

/-- The native function from which a notification is dispatched was called on
the owner of the notified dialog. -/
def dispatchedOnOwner (stack : List DialogFrame) (w : World) : DialogCall → Bool
  | .notify window notification _ _ =>
      match stack, w.windows window with
      | top :: _, some window => !notification.listed ||
          calledOnOwner w top.locals.this window.dialog
      | _, _ => true
  | _ => true

/-- The same for the first notification of a window, from `show` itself. -/
def constructedOnOwner (frame : DialogFrame) (w : World) :
    (op : DialogOp) → NativeOp.Answer DialogEffect.Answer op → Bool
  | .effect .createDialogWindow, .ok _ =>
      calledOnOwner w frame.locals.this frame.locals.self
  | _, _ => true

def routing : Discipline DialogCall DialogOp (NativeOp.Answer DialogEffect.Answer)
    DialogAction World DialogLocals where
  Inv := fun _ w => RoutingInvariant w
  Rely := OwnersKept
  rely_refl := fun _ => ⟨le_rfl, fun _ _ h _ => h⟩
  rely_trans := by
    intro w₁ w₂ w₃ h₁₂ h₂₃
    refine ⟨h₁₂.nextDialog.trans h₂₃.nextDialog, ?_⟩
    intro dialog owner howner hlt
    have hlt' : dialog < w₂.nextDialog := hlt.trans_le h₁₂.nextDialog
    exact h₁₂.owner dialog owner (h₂₃.owner dialog owner howner hlt') hlt
  mayEnter := fun stack w call => dispatchedOnOwner stack w call
  mayAnswer := fun frame w op answer => constructedOnOwner frame w op answer
  mayAbandon := fun _ _ => True
  mayExternal := fun _ _ _ => True

instance (stack : List DialogFrame) (w : World) (call : DialogCall) :
    Decidable (routing.mayEnter stack w call) :=
  inferInstanceAs (Decidable (dispatchedOnOwner stack w call = true))

instance (frame : DialogFrame) (w : World) (op : DialogOp)
    (answer : NativeOp.Answer DialogEffect.Answer op) :
    Decidable (routing.mayAnswer frame w op answer) :=
  inferInstanceAs (Decidable (constructedOnOwner frame w op answer = true))

instance (frame : DialogFrame) (w : World) :
    Decidable (routing.mayAbandon frame w) :=
  inferInstanceAs (Decidable True)

instance (stack : List DialogFrame) (w : World) (action : DialogAction) :
    Decidable (routing.mayExternal stack w action) :=
  inferInstanceAs (Decidable True)

namespace Routing

variable {ctx c : Context} {w w' entry : World} {l l' : DialogLocals}
  {below : List DialogFrame} {call : DialogCall}

structure SameRouting (w w' : World) : Prop where
  emissions : w'.emissions = w.emissions
  owner : w'.owner = w.owner
  nextDialog : w'.nextDialog = w.nextDialog

theorem SameRouting.of_dialogs
    (hemissions : w'.emissions = w.emissions) (hdialogs : w'.dialogs = w.dialogs)
    (hnext : w'.nextDialog = w.nextDialog) : SameRouting w w' := by
  refine ⟨hemissions, ?_, hnext⟩
  funext dialog
  simp [World.owner, hdialogs]

theorem SameRouting.invariant (h : SameRouting w w') (hinv : RoutingInvariant w) :
    RoutingInvariant w' := by
  constructor
  · intro emission hmem
    rw [h.emissions] at hmem
    exact hinv.routed emission hmem
  · intro dialog hle
    rw [h.nextDialog] at hle
    have hnone : w'.owner dialog = none := by
      rw [h.owner]
      simp [World.owner, hinv.fresh dialog hle]
    simpa [World.owner] using hnone

theorem SameRouting.ownersKept (h : SameRouting w w') : OwnersKept w w' := by
  refine ⟨h.nextDialog.ge, ?_⟩
  intro dialog owner howner _
  rwa [h.owner] at howner

theorem sameRouting_of_perform
    {e : DialogEffect} {answer : e.Answer} {dialog : Dialog}
    (hdialog : w.dialogs l.self = some dialog)
    (h : e.perform w l dialog = some (answer, w', l')) :
    SameRouting w w' ∧ l'.self = l.self ∧ l'.this = l.this ∧ l'.frame = l.frame := by
  obtain ⟨new, hreplaced, _⟩ := exists_replaced hdialog h
  refine ⟨⟨hreplaced.emissions, ?_, hreplaced.nextDialog⟩, hreplaced.self,
    hreplaced.this, hreplaced.frame⟩
  funext other
  rw [World.owner, World.owner, hreplaced.dialogs]
  by_cases hself : other = l.self
  · subst other
    simp [hdialog, hreplaced.ptr]
  · simp [hself]

theorem sameRouting_of_resume
    {e : DialogEffect} {answer : e.Answer}
    (h : e.resume w l answer = some (w', l')) :
    SameRouting w w' ∧ l'.self = l.self ∧ l'.this = l.this ∧ l'.frame = l.frame := by
  rcases of_resume_effect h with ⟨rfl, rfl⟩ | ⟨_, rfl, rfl⟩
  · exact ⟨.of_dialogs rfl rfl rfl, rfl, rfl, rfl⟩
  · exact ⟨.of_dialogs rfl rfl rfl, rfl, rfl, rfl⟩

/-! ## What activations know -/

/-- What an activation that started in `entry` always knows. -/
structure Kept (entry w : World) : Prop where
  invariant : RoutingInvariant w
  kept : OwnersKept entry w

structure Known (entry w : World) (l : DialogLocals) : Prop
    extends Kept entry w where
  self_lt : l.self < w.nextDialog

structure Routed (entry w : World) (l : DialogLocals) : Prop
    extends Known entry w l where
  this_owner : ∀ owner, w.owner l.self = some owner → l.this = .object owner

structure Addressed (entry w : World) (l : DialogLocals) : Prop
    extends Routed entry w l where
  frame : ∃ rest, l.frame = l.this :: rest

theorem Kept.same (h : Kept entry w) (hsame : SameRouting w w') : Kept entry w' :=
  ⟨hsame.invariant h.invariant, routing.rely_trans h.kept hsame.ownersKept⟩

theorem Kept.rely
    (h : Kept entry w) (hkept : OwnersKept w w') (hinv : RoutingInvariant w') :
    Kept entry w' :=
  ⟨hinv, routing.rely_trans h.kept hkept⟩

theorem Known.same
    (h : Known entry w l) (hsame : SameRouting w w') (hself : l'.self = l.self) :
    Known entry w' l' := by
  refine ⟨h.toKept.same hsame, ?_⟩
  rw [hself, hsame.nextDialog]
  exact h.self_lt

theorem Routed.same
    (h : Routed entry w l) (hsame : SameRouting w w') (hself : l'.self = l.self)
    (hthis : l'.this = l.this) : Routed entry w' l' := by
  refine ⟨h.toKnown.same hsame hself, ?_⟩
  intro owner howner
  rw [hself, hsame.owner] at howner
  rw [hthis]
  exact h.this_owner owner howner

theorem Known.rely
    (h : Known entry w l) (hkept : OwnersKept w w') (hinv : RoutingInvariant w') :
    Known entry w' l :=
  ⟨h.toKept.rely hkept hinv, h.self_lt.trans_le hkept.nextDialog⟩

theorem Routed.rely
    (h : Routed entry w l) (hkept : OwnersKept w w') (hinv : RoutingInvariant w') :
    Routed entry w' l := by
  refine ⟨h.toKnown.rely hkept hinv, ?_⟩
  intro owner howner
  exact h.this_owner owner (hkept.owner l.self owner howner h.self_lt)

theorem sameRouting_recordExit (w : World) (l : DialogLocals) :
    SameRouting w (w.recordExit l) := by
  unfold World.recordExit
  split
  · exact .of_dialogs rfl rfl rfl
  · exact .of_dialogs rfl rfl rfl

theorem Kept.exit (h : Kept entry w) :
    RoutingInvariant (w.recordExit l) ∧ OwnersKept entry (w.recordExit l) := by
  have hexit := h.same (sameRouting_recordExit w l)
  exact ⟨hexit.invariant, hexit.kept⟩

theorem stable_kept :
    routing.Stable (taskDialogHost ctx) below call entry (fun w _ => Kept entry w) where
  inv := fun _ _ h => h.invariant
  rely := fun _ _ _ h => h.rely
  abandon := fun _ _ h _ => h.exit

theorem stable_known :
    routing.Stable (taskDialogHost ctx) below call entry (Known entry) where
  inv := fun _ _ h => h.invariant
  rely := fun _ _ _ h => h.rely
  abandon := fun _ _ h _ => h.exit

theorem stable_routed :
    routing.Stable (taskDialogHost ctx) below call entry (Routed entry) where
  inv := fun _ _ h => h.invariant
  rely := fun _ _ _ h => h.rely
  abandon := fun _ _ h _ => h.exit

theorem stable_addressed :
    routing.Stable (taskDialogHost ctx) below call entry (Addressed entry) where
  inv := fun _ _ h => h.invariant
  rely := fun _ _ _ h hkept hinv => ⟨h.toRouted.rely hkept hinv, h.frame⟩
  abandon := fun _ _ h _ => h.exit

theorem keeps_stack
    {F : World → DialogLocals → Prop}
    (hF : ∀ w l l', F w l → l'.self = l.self → l'.this = l.this → F w l')
    (op : StackOp) (hop : op.calls = false) :
    routing.Keeps (taskDialogHost ctx) call F (.stack c op) := by
  constructor
  · intro _ answer w l w' l' h hdone _
    obtain ⟨rfl, frame, rfl⟩ := of_resume_stack hdone
    exact hF _ _ _ h rfl rfl
  · intro _ answer w l w' l' h hdone
    obtain ⟨dialog, frame, _, _, rfl, rfl⟩ := of_effect_stack hdone
    rw [recordCall_eq hop]
    exact hF _ _ _ h rfl rfl

theorem keeps_known_stack (op : StackOp) (hop : op.calls = false) :
    routing.Keeps (taskDialogHost ctx) call (Known entry) (.stack c op) :=
  keeps_stack (fun _ _ _ h hself _ => h.same (.of_dialogs rfl rfl rfl) hself) op hop

theorem keeps_routed_stack (op : StackOp) (hop : op.calls = false) :
    routing.Keeps (taskDialogHost ctx) call (Routed entry) (.stack c op) :=
  keeps_stack
    (fun _ _ _ h hself hthis => h.same (.of_dialogs rfl rfl rfl) hself hthis) op hop

theorem keeps_effect
    {F : World → DialogLocals → Prop}
    (hF : ∀ w w' l l', F w l → SameRouting w w' → l'.self = l.self →
      l'.this = l.this → l'.frame = l.frame → F w' l') (e : DialogEffect) :
    routing.Keeps (taskDialogHost ctx) call F (.effect e) := by
  constructor
  · intro _ answer w l w' l' h hdone _
    obtain ⟨hsame, hself, hthis, hframe⟩ := sameRouting_of_resume hdone
    exact hF w w' l l' h hsame hself hthis hframe
  · intro _ answer w l w' l' h hdone
    obtain ⟨dialog, hdialog, hperform⟩ := of_effect_effect hdone
    obtain ⟨hsame, hself, hthis, hframe⟩ :=
      sameRouting_of_perform hdialog hperform
    exact hF w w' l l' h hsame hself hthis hframe

theorem keeps_known_effect (e : DialogEffect) :
    routing.Keeps (taskDialogHost ctx) call (Known entry) (.effect e) :=
  keeps_effect (fun _ _ _ _ h hsame hself _ _ => h.same hsame hself) e

theorem keeps_routed_effect (e : DialogEffect) :
    routing.Keeps (taskDialogHost ctx) call (Routed entry) (.effect e) :=
  keeps_effect (fun _ _ _ _ h hsame hself hthis _ => h.same hsame hself hthis) e

theorem keeps_addressed_effect (e : DialogEffect) :
    routing.Keeps (taskDialogHost ctx) call (Addressed entry) (.effect e) := by
  apply keeps_effect
  intro w w' l l' h hsame hself hthis hframe
  refine ⟨h.toRouted.same hsame hself hthis, ?_⟩
  rw [hthis, hframe]
  exact h.frame

/-! ## The callback -/

theorem meets_push
    {α : Type} {Q : α → World → DialogLocals → Prop} (value : JSValue)
    {next : Unit → DialogProgram α}
    (hnext : routing.Meets (taskDialogHost ctx) below call entry Q (next ())
      w { l with frame := value :: l.frame }) :
    routing.Meets (taskDialogHost ctx) below call entry Q
      (.perform (.stack c (.push value)) next) w l := by
  apply meets_silentStack rfl rfl
  rintro _ frame ⟨⟩
  exact hnext

theorem meets_pushAll
    {α : Type} {Q : α → World → DialogLocals → Prop} (args : List JSValue)
    {next : Unit → DialogProgram α}
    (hnext : routing.Meets (taskDialogHost ctx) below call entry Q (next ())
      w { l with frame := args.reverse ++ l.frame }) :
    routing.Meets (taskDialogHost ctx) below call entry Q
      ((args.forM fun arg => stackOp c (.push arg)).bind next) w l := by
  induction args generalizing l with
  | nil => exact hnext
  | cons arg args ih =>
      apply meets_push
      apply ih
      simpa using hnext

theorem Routed.recordCall
    {dialog : Dialog} {nargs : ℕ} {rest : ValueFrame} {name : DukString}
    {args : List JSValue}
    (h : Routed entry w l) (hdialog : w.dialogs l.self = some dialog)
    (htarget : l.frame.drop nargs = l.this :: rest)
    (hargs : (l.frame.take nargs).reverse = .string name :: args) :
    Routed entry (w.recordCall l dialog (.callMethod nargs)) l := by
  have howner : l.this = .object dialog.ptr :=
    h.this_owner dialog.ptr (by simp [World.owner, hdialog])
  have hrecord : w.recordCall l dialog (.callMethod nargs) =
      { w with emissions :=
          ⟨l.self, dialog.ptr, l.this, (l.frame.take nargs).reverse⟩ ::
            w.emissions } := by
    simp only [World.recordCall, htarget]
  rw [hrecord]
  refine ⟨⟨⟨⟨?_, h.invariant.fresh⟩, ⟨h.kept.nextDialog, h.kept.owner⟩⟩,
    h.self_lt⟩, h.this_owner⟩
  intro emission hmem
  rcases List.mem_cons.mp hmem with rfl | hold
  · refine ⟨howner, name, args, hargs, ?_⟩
    intro apart emitters hseparate
    rw [← hseparate.listenersOf_eq]
    simp only [Emission.handlers, howner, hargs]
  · exact h.invariant.routed emission hold

/-- `emit` is called on the `this` that lies below the arguments. -/
theorem meets_emit
    (name : String) (args : List JSValue) (h : Addressed entry w l) :
    routing.Meets (taskDialogHost ctx) below call entry (fun _ => Routed entry)
      (NKWinTaskDialog.emit c name args) w l := by
  rcases h.frame with ⟨rest, hrest⟩
  apply meets_push
  apply meets_pushAll
  apply Discipline.Meets.silent rfl
  intro _ w' l' hdone
  obtain ⟨dialog, frame, hdialog, _, rfl, rfl⟩ := of_effect_stack hdone
  have htarget : (args.reverse ++ .text name :: l.frame).drop (args.length + 1) =
      l.this :: rest := by
    rw [hrest, List.drop_append]
    simp
  have hargs : ((args.reverse ++ .text name :: l.frame).take (args.length + 1)).reverse =
      .string (literal name) :: args := by
    rw [List.take_append, List.take_of_length_le (by simp)]
    simp [JSValue.text]
  have hpushed : Routed entry w
      { l with frame := args.reverse ++ .text name :: l.frame } :=
    h.toRouted.same (.of_dialogs rfl rfl rfl) rfl rfl
  have hcalled := hpushed.recordCall hdialog htarget hargs
  have hrest : Program.All (routing.Keeps (taskDialogHost ctx) call (Routed entry))
      (stackOp c .callResult >>= fun _ => stackOp c .pop : DialogProgram Unit) :=
    ⟨keeps_routed_stack _ rfl, fun _ => all_stackOp keeps_routed_stack _ rfl⟩
  exact Discipline.Meets.of_all stable_routed hrest
    (hcalled.same (.of_dialogs rfl rfl rfl) rfl rfl)

theorem meets_emit_bind
    {α : Type} (name : String) (args : List JSValue) {rest : DialogProgram α}
    (hrest : rest.All (routing.Keeps (taskDialogHost ctx) call (Routed entry)))
    (h : Addressed entry w l) :
    routing.Meets (taskDialogHost ctx) below call entry (fun _ => Routed entry)
      ((NKWinTaskDialog.emit c name args).bind fun _ => rest) w l :=
  (meets_emit name args h).bind
    fun _ _ _ hrouted => .of_all stable_routed hrest hrouted

theorem meets_effect_bind
    {α : Type} {Q : α → World → DialogLocals → Prop} (e : DialogEffect)
    {next : e.Answer → DialogProgram α} (h : Addressed entry w l)
    (hnext : ∀ answer w l, Addressed entry w l →
      routing.Meets (taskDialogHost ctx) below call entry Q (next answer) w l) :
    routing.Meets (taskDialogHost ctx) below call entry Q
      ((NKWinTaskDialog.perform e).bind next) w l := by
  have hkeeps : (NKWinTaskDialog.perform e).All
      (routing.Keeps (taskDialogHost ctx) call (Addressed entry)) :=
    NKWinTaskDialog.all_perform (keeps_addressed_effect e)
  exact (Discipline.Meets.of_all stable_addressed hkeeps h).bind hnext

theorem meets_freeRuntime_bind
    {α : Type} {Q : α → World → DialogLocals → Prop}
    {next : Unit → DialogProgram α} (h : Addressed entry w l)
    (hnext : ∀ w l, Addressed entry w l →
      routing.Meets (taskDialogHost ctx) below call entry Q (next ()) w l) :
    routing.Meets (taskDialogHost ctx) below call entry Q
      (NKWinTaskDialog.freeRuntime.bind next) w l := by
  apply meets_effect_bind _ h
  intro _ w l h
  apply meets_effect_bind _ h
  exact fun _ => hnext

theorem meets_callback
    (handle : ℕ) (notification : Notification) (wParam : ℕ) (lParam : List UInt16)
    (h : Routed entry w l) :
    routing.Meets (taskDialogHost ctx) below call entry (fun _ => Routed entry)
      (NKWinTaskDialog.callback c handle notification wParam lParam) w l := by
  apply meets_putEmitOnStack_pushThis
  have haddressed : Addressed entry w
      { l with frame := l.this :: .eventEmitterEmit :: l.frame } :=
    ⟨h.same (.of_dialogs rfl rfl rfl) rfl rfl, _, rfl⟩
  have hpure : ∀ result : ℤ, (Program.pure result : DialogProgram ℤ).All
      (routing.Keeps (taskDialogHost ctx) call (Routed entry)) :=
    fun _ => trivial
  cases notification with
  | created =>
      apply meets_effect_bind _ haddressed
      intro _ w l haddressed
      apply meets_effect_bind _ haddressed
      intro _ w l haddressed
      exact meets_emit_bind _ _ (hpure sOk) haddressed
  | buttonClicked =>
      apply meets_effect_bind _ haddressed
      intro _ w l haddressed
      refine meets_emit_bind _ _ ⟨keeps_routed_effect _, ?_⟩ haddressed
      intro self
      simp only [Program.pure_bind]
      split
      · exact ⟨keeps_routed_effect _, fun _ => hpure sFalse⟩
      · exact hpure sOk
  | destroyed =>
      apply meets_effect_bind _ haddressed
      intro _ w l haddressed
      exact meets_emit_bind _ _ (hpure sOk) haddressed
  | dialogConstructed =>
      apply meets_effect_bind _ haddressed
      intro _ w l haddressed
      apply meets_freeRuntime_bind haddressed
      intro w l haddressed
      exact meets_emit_bind _ _ (hpure sOk) haddressed
  | navigated => exact meets_emit_bind _ _ (hpure sOk) haddressed
  | hyperlinkClicked => exact meets_emit_bind _ _ (hpure sOk) haddressed
  | timer => exact meets_emit_bind _ _ (hpure sOk) haddressed
  | radioButtonClicked => exact meets_emit_bind _ _ (hpure sOk) haddressed
  | verificationClicked => exact meets_emit_bind _ _ (hpure sOk) haddressed
  | help => exact meets_emit_bind _ _ (hpure sOk) haddressed
  | expandoButtonClicked => exact meets_emit_bind _ _ (hpure sOk) haddressed
  | unlisted code => exact haddressed.toRouted

/-! ## The methods -/

theorem meets_known
    {α : Type} {p : DialogProgram α}
    (hp : p.All (routing.Keeps (taskDialogHost ctx) call (Known entry)))
    (h : Known entry w l) :
    routing.Meets (taskDialogHost ctx) below call entry (fun _ => Known entry)
      p w l :=
  .of_all stable_known hp h

theorem meets_taskDialogIndirect (h : Known entry w l) :
    routing.Meets (taskDialogHost ctx) below call entry (fun _ => Known entry)
      (NKWinTaskDialog.taskDialogIndirect c) w l := by
  apply Discipline.Meets.await stable_known rfl h
  intro w' created w'' l'' hknown hresume hmay
  obtain ⟨hsame, hself, hthis, _⟩ := sameRouting_of_resume hresume
  have hknown' : Known entry w'' l'' := hknown.same hsame hself
  cases created with
  | error hr => exact hknown'
  | ok window =>
      have hrouted : Routed entry w'' l'' := by
        refine ⟨hknown', ?_⟩
        intro owner howner
        rw [hself, hsame.owner] at howner
        have hcalled : calledOnOwner w' l.this l.self = true := hmay
        rw [calledOnOwner, howner] at hcalled
        rw [hthis]
        exact of_decide_eq_true hcalled
      apply (meets_callback window .dialogConstructed 0 [] hrouted).bind
      intro _ w l h
      exact meets_known
        (NKWinTaskDialog.all_perform (keeps_known_effect (.modalLoop window)))
        h.toKnown

theorem all_freeRuntime :
    NKWinTaskDialog.freeRuntime.All
      (routing.Keeps (taskDialogHost ctx) call (Known entry)) :=
  ⟨keeps_known_effect _, fun _ => ⟨keeps_known_effect _, fun _ => trivial⟩⟩

theorem all_createConfig :
    (NKWinTaskDialog.createConfig c).All
      (routing.Keeps (taskDialogHost ctx) call (Known entry)) :=
  NKWinTaskDialog.all_createConfig keeps_known_stack
    (fun _ => keeps_known_effect _) (fun _ _ _ => keeps_known_effect _)
    (keeps_known_effect _) (fun _ _ => keeps_known_effect _)
    (keeps_known_effect _)

theorem meets_showDialog (h : Known entry w l) :
    routing.Meets (taskDialogHost ctx) below call entry (fun _ => Known entry)
      (NKWinTaskDialog.showDialog c) w l := by
  apply (meets_known (NKWinTaskDialog.all_perform (keeps_known_effect _)) h).bind
  intro self w l h
  split
  · exact meets_known ⟨keeps_known_effect _, fun _ => trivial⟩ h
  · apply (meets_known all_createConfig h).bind
    intro _ w l h
    apply (meets_taskDialogIndirect h).bind
    intro hr w l h
    apply (meets_known all_freeRuntime h).bind
    intro _ w l h
    exact meets_known (NKWinTaskDialog.all_checkResult keeps_known_stack hr _) h

theorem meets_navigate (h : Known entry w l) :
    routing.Meets (taskDialogHost ctx) below call entry (fun _ => Known entry)
      (NKWinTaskDialog.navigate c) w l := by
  apply (meets_known (NKWinTaskDialog.all_perform (keeps_known_effect _)) h).bind
  intro self w l h
  split
  · exact meets_showDialog h
  · apply (meets_known all_createConfig h).bind
    intro _ w l h
    refine meets_known ⟨keeps_known_effect _, fun self => ⟨keeps_known_effect _,
      fun result => ?_⟩⟩ h
    apply Program.All.bind all_freeRuntime
    exact fun _ => NKWinTaskDialog.all_checkResult keeps_known_stack result _

theorem meets_method (m : DialogMethod) (h : Known entry w l) :
    routing.Meets (taskDialogHost ctx) below call entry (fun _ => Known entry)
      (m.body c) w l := by
  cases m with
  | showDialog => exact meets_showDialog h
  | navigate => exact meets_navigate h
  | preventClose => exact meets_known ⟨keeps_known_effect _, fun _ => trivial⟩ h
  | enableButton =>
      exact meets_known (NKWinTaskDialog.all_enableButton keeps_known_stack
        (keeps_known_effect _) fun _ _ => keeps_known_effect _) h
  | enableRadioButton =>
      exact meets_known (NKWinTaskDialog.all_enableRadioButton keeps_known_stack
        (keeps_known_effect _) fun _ _ => keeps_known_effect _) h

/-! ## Soundness -/

theorem lt_nextDialog
    (h : RoutingInvariant w) {self : ℕ} (hself : (w.dialogs self).isSome) :
    self < w.nextDialog := by
  by_contra hge
  simp [h.fresh self (by omega)] at hself

theorem sameRouting_deliver (window dialog : ℕ) (notification : Notification) :
    SameRouting w (w.deliver window dialog notification) := by
  cases notification <;> exact .of_dialogs rfl rfl rfl

theorem meets_notify
    {window wParam : ℕ} {notification : Notification} {lParam : List UInt16}
    (h : Known entry w l) (hrouted : notification.listed → Routed entry w l) :
    routing.Meets (taskDialogHost ctx) below call entry (fun _ => Known entry)
      (NKWinTaskDialog.callback c window notification wParam lParam) w l := by
  cases notification with
  | unlisted code =>
      apply meets_known _ h
      apply Program.All.bind (all_putEmitOnStack keeps_known_stack)
      exact fun _ => ⟨keeps_known_stack _ rfl, fun _ => trivial⟩
  | _ =>
      exact (meets_callback window _ wParam lParam (hrouted rfl)).mono
        fun _ _ _ h => h.toKnown

theorem sound_enter
    {awaited : Option DialogOp} (hinv : RoutingInvariant w)
    (hmay : routing.mayEnter below w call)
    (henter : call.enter w below awaited = some (w', l)) :
    OwnersKept w w' ∧
      routing.Meets (taskDialogHost ctx) below call w'
        (routing.Left (taskDialogHost ctx) below call w') (call.body ctx) w' l := by
  cases call with
  | method m this self args =>
      obtain ⟨rfl, rfl, hself⟩ := of_enter_method henter
      have hknown : Known w' w' ⟨self, this, m.initialFrame args, none, []⟩ :=
        ⟨⟨hinv, routing.rely_refl w'⟩, lt_nextDialog hinv hself⟩
      exact ⟨routing.rely_refl w',
        (meets_method m hknown).mono fun _ _ _ h => h.exit⟩
  | notify window notification wParam lParam =>
      obtain ⟨dialog, top, rest, rfl, hwindow, hw, rfl, hself⟩ :=
        of_enter_notify henter
      have hsame : SameRouting w w' := hw ▸ sameRouting_deliver _ _ _
      have hknown : Known w' w' ⟨dialog, top.locals.this, [], none, []⟩ := by
        refine ⟨⟨hsame.invariant hinv, routing.rely_refl _⟩, ?_⟩
        rw [hsame.nextDialog]
        exact lt_nextDialog hinv hself
      have hrouted : notification.listed →
          Routed w' w' ⟨dialog, top.locals.this, [], none, []⟩ := by
        intro hlisted
        refine ⟨hknown, ?_⟩
        intro owner howner
        rw [hsame.owner] at howner
        have hcalled : dispatchedOnOwner (top :: rest) w
            (.notify window notification wParam lParam) = true := hmay
        simp only [dispatchedOnOwner, hwindow, hlisted, calledOnOwner, howner,
          Bool.not_true, Bool.false_or, decide_eq_true_eq] at hcalled
        exact hcalled
      exact ⟨hsame.ownersKept, (meets_notify hknown hrouted).mono
        fun _ _ _ h => h.exit⟩
  | other this =>
      obtain ⟨rfl, rfl⟩ := of_enter_other henter
      refine ⟨routing.rely_refl w', ?_⟩
      apply Discipline.Meets.await stable_kept rfl ⟨hinv, routing.rely_refl w'⟩
      intro w₁ (answer : Unit) w₂ l₂ hkept hresume _
      have hdone : DialogEffect.pump.resume w₁ _ answer = some (w₂, l₂) := hresume
      exact (hkept.same (sameRouting_of_resume hdone).1).exit

theorem sound_external
    {action : DialogAction} (hinv : RoutingInvariant w)
    (haction : action.perform w = some w') :
    RoutingInvariant w' ∧ OwnersKept w w' := by
  cases action with
  | construct object =>
      simp only [DialogAction.perform, Option.some.injEq] at haction
      subst w'
      refine ⟨⟨hinv.routed, ?_⟩, ⟨Nat.le_succ _, ?_⟩⟩
      · intro dialog hle
        have hlt : w.nextDialog + 1 ≤ dialog := hle
        have hne : dialog ≠ w.nextDialog := by omega
        simp [hne, hinv.fresh dialog (by omega)]
      · intro dialog owner howner hlt
        have hne : dialog ≠ w.nextDialog := hlt.ne
        simpa [World.owner, hne] using howner
  | destroy dialog =>
      simp only [DialogAction.perform, Option.map_eq_some_iff] at haction
      rcases haction with ⟨_, _, rfl⟩
      refine ⟨⟨hinv.routed, ?_⟩, ⟨le_rfl, ?_⟩⟩
      · intro other hle
        have hnone : w.dialogs other = none := hinv.fresh other hle
        simp [Function.update_apply, World.assertRuntime, hnone]
      · intro other owner howner _
        by_cases heq : other = dialog
        · simp [World.owner, heq] at howner
        · simpa [World.owner, World.assertRuntime, heq] using howner

theorem sound : routing.Sound (taskDialogHost ctx) where
  enter := fun _ _ _ _ _ _ => sound_enter
  external := fun _ _ _ _ hinv _ => sound_external hinv

/-! ## One event for each notification -/

theorem callback_emitsOnce
    (handle : ℕ) {notification : Notification} (wParam : ℕ) (lParam : List UInt16)
    {name : String} (hname : notification.event = some name) :
    EmitsOnce ctx name (NKWinTaskDialog.callback ctx handle notification wParam lParam) := by
  have hstack : ∀ op : StackOp, op.calls = false →
      NativeOp.calls (.stack ctx op) = false := fun _ hop => hop
  have hhead : ∀ p : DialogProgram Unit, p.All (fun op => NativeOp.calls op = false) →
      ((putEmitOnStack ctx).bind fun _ =>
        (stackOp ctx .pushThis : DialogProgram Unit).bind fun _ => p).All
          fun op => NativeOp.calls op = false :=
    fun p hp => Program.All.bind (all_putEmitOnStack hstack) fun _ => ⟨rfl, fun _ => hp⟩
  cases notification with
  | created =>
      cases hname
      exact ⟨_, [], .pure sOk, rfl, hhead
        ((NKWinTaskDialog.perform (.sendMessage (some handle) (.setIcon true))).bind fun _ =>
          (NKWinTaskDialog.perform (.sendMessage (some handle) (.setIcon false))).bind
            fun _ => .pure ()) ⟨rfl, fun _ => ⟨rfl, fun _ => trivial⟩⟩, trivial⟩
  | buttonClicked =>
      cases hname
      refine ⟨_, [NKWinTaskDialog.clickedButton wParam],
        .perform (.effect .self) fun self : Dialog =>
          if self.preventClose then
            .perform (.effect (.setPreventClose false)) fun _ => .pure sFalse
          else .pure sOk,
        ?_, hhead (NKWinTaskDialog.perform (.setPreventClose false))
          ⟨rfl, fun _ => trivial⟩, rfl, ?_⟩
      · rfl
      intro self
      dsimp only
      split
      · exact ⟨rfl, fun _ => trivial⟩
      · exact trivial
  | destroyed =>
      cases hname
      exact ⟨_, [], .pure sOk, rfl, hhead (NKWinTaskDialog.perform (.setHwnd none))
        ⟨rfl, fun _ => trivial⟩, trivial⟩
  | dialogConstructed =>
      cases hname
      exact ⟨_, [], .pure sOk, rfl, hhead
        ((NKWinTaskDialog.perform (.setHwnd (some handle))).bind fun _ =>
          NKWinTaskDialog.freeRuntime)
        ⟨rfl, fun _ => ⟨rfl, fun _ => ⟨rfl, fun _ => trivial⟩⟩⟩, trivial⟩
  | unlisted code => cases hname
  | _ =>
      cases hname
      exact ⟨_, _, .pure sOk, rfl, hhead (.pure ()) trivial, trivial⟩

end Routing

end NekoScript
