import NekoScript.TaskDialogHost
import Mathlib.Tactic

/-!
# How long a dialog counts as shown

`_hwnd` is set when the window is constructed and cleared by its last
notification.  As long as no error jumps over the call that opened a window
while that window is live, `_hwnd` and the live windows agree, and each live
window has the call that opened it on the stack.
-/

namespace NekoScript

open Programs ReentrantCalls GuardedRuns TaskDialogHost

def LiveWindow (w : World) (window dialog : ℕ) : Prop :=
  w.windows window = some ⟨dialog, true⟩

def World.hwndField (w : World) (dialog : ℕ) : Option (Option ℕ) :=
  (w.dialogs dialog).map (·.hwnd)

def WindowsClose (w w' : World) : Prop :=
  ∀ window dialog, LiveWindow w' window dialog → LiveWindow w window dialog

structure LivenessInvariant (stack : List DialogFrame) (w : World) : Prop where
  live_of_hwnd : ∀ dialog window,
    w.hwndField dialog = some (some window) → LiveWindow w window dialog
  hwnd_of_live : ∀ dialog window hwnd, LiveWindow w window dialog →
    w.hwndField dialog = some hwnd → hwnd = some window
  opener : ∀ window dialog, LiveWindow w window dialog →
    ∃ frame ∈ stack, frame.locals.self = dialog ∧ frame.locals.modal = some window
  exited : ∀ exit ∈ w.exits, exit.hwnd = none ∧ exit.window < w.nextWindow ∧
    ∀ dialog, ¬ LiveWindow w exit.window dialog
  freshWindow : ∀ window dialog, LiveWindow w window dialog → window < w.nextWindow
  freshDialog : ∀ window dialog, LiveWindow w window dialog → dialog < w.nextDialog
  unconstructed : ∀ dialog, w.nextDialog ≤ dialog → w.hwndField dialog = none
  openedWindow : ∀ frame ∈ stack, ∀ window ∈ frame.locals.modal, window < w.nextWindow

/-- The window that the activation opened, if any, is closed. -/
def windowClosed (frame : DialogFrame) (w : World) : Bool :=
  match frame.locals.modal with
  | none => true
  | some window =>
      match w.windows window with
      | some ⟨_, true⟩ => false
      | _ => true

def liveness : Discipline DialogCall DialogOp (NativeOp.Answer DialogEffect.Answer)
    DialogAction World DialogLocals where
  Inv := LivenessInvariant
  Rely := WindowsClose
  rely_refl := fun _ _ _ h => h
  rely_trans := fun h₁₂ h₂₃ _ _ h => h₁₂ _ _ (h₂₃ _ _ h)
  mayEnter := fun _ _ _ => True
  mayAnswer := fun _ _ _ _ => True
  mayAbandon := fun frame w => windowClosed frame w
  mayExternal := fun _ _ _ => True

/-- Once the call that opened a window has exited, `_hwnd` is null, the callback
gets no notification of that window, and `show` opens another one. -/
structure DialogLiveness (ctx : Context) (s : DialogState) : Prop where
  hwnd_null : ∀ exit ∈ s.world.exits, exit.hwnd = none
  not_notified : ∀ exit ∈ s.world.exits, ∀ notification wParam lParam,
    (taskDialogHost ctx).step s
      (.enter (.notify exit.window notification wParam lParam)) = none
  opener : ∀ dialog window, s.world.hwnd dialog = some window →
    ∃ frame ∈ frames s.stack,
      frame.locals.self = dialog ∧ frame.locals.modal = some window
  reopens : ∀ dialog this args, (s.world.dialogs dialog).isSome →
    (∀ frame ∈ frames s.stack, frame.locals.self = dialog →
      frame.locals.modal = none) →
    scriptRuns (s.stack.head?.map (·.op)) = true →
    ∃ next, (taskDialogHost ctx).step s
        (.enter (.method .showDialog this dialog args)) = some next ∧
      next.stack.head?.map (·.op) =
        some (.stack ctx (.getProp (.name ConfigText.title.name)))

instance (stack : List DialogFrame) (w : World) (call : DialogCall) :
    Decidable (liveness.mayEnter stack w call) :=
  inferInstanceAs (Decidable True)

instance (frame : DialogFrame) (w : World) (op : DialogOp)
    (answer : NativeOp.Answer DialogEffect.Answer op) :
    Decidable (liveness.mayAnswer frame w op answer) :=
  inferInstanceAs (Decidable True)

instance (frame : DialogFrame) (w : World) :
    Decidable (liveness.mayAbandon frame w) :=
  inferInstanceAs (Decidable (windowClosed frame w = true))

instance (stack : List DialogFrame) (w : World) (action : DialogAction) :
    Decidable (liveness.mayExternal stack w action) :=
  inferInstanceAs (Decidable True)

namespace Liveness

variable {ctx c : Context} {w w' entry : World} {l l' : DialogLocals}
  {below : List DialogFrame} {call : DialogCall}

theorem not_live_of_windowClosed
    {frame : DialogFrame} {window : ℕ} (h : windowClosed frame w = true)
    (hmodal : frame.locals.modal = some window) (dialog : ℕ) :
    ¬ LiveWindow w window dialog := by
  intro hlive
  simp only [windowClosed, hmodal] at h
  split at h
  next => contradiction
  next hnot => exact hnot dialog hlive

/-! ## Steps that concern no window -/

structure SameWindows (w w' : World) : Prop where
  windows : w'.windows = w.windows
  nextWindow : w'.nextWindow = w.nextWindow
  nextDialog : w'.nextDialog = w.nextDialog
  hwndField : w'.hwndField = w.hwndField
  exits : w'.exits = w.exits

theorem SameWindows.of_dialogs
    (hwindows : w'.windows = w.windows) (hnext : w'.nextWindow = w.nextWindow)
    (hdialog : w'.nextDialog = w.nextDialog) (hdialogs : w'.dialogs = w.dialogs)
    (hexits : w'.exits = w.exits) : SameWindows w w' := by
  refine ⟨hwindows, hnext, hdialog, ?_, hexits⟩
  funext dialog
  simp [World.hwndField, hdialogs]

theorem SameWindows.live (h : SameWindows w w') {window dialog : ℕ} :
    LiveWindow w' window dialog ↔ LiveWindow w window dialog := by
  unfold LiveWindow
  rw [h.windows]

theorem SameWindows.invariant
    {stack : List DialogFrame} (h : SameWindows w w')
    (hinv : LivenessInvariant stack w) : LivenessInvariant stack w' := by
  constructor
  · intro dialog window hhwnd
    rw [h.hwndField] at hhwnd
    exact h.live.mpr (hinv.live_of_hwnd dialog window hhwnd)
  · intro dialog window hwnd hlive hhwnd
    rw [h.hwndField] at hhwnd
    exact hinv.hwnd_of_live dialog window hwnd (h.live.mp hlive) hhwnd
  · exact fun window dialog hlive => hinv.opener window dialog (h.live.mp hlive)
  · intro exit hmem
    rw [h.exits] at hmem
    obtain ⟨hhwnd, hlt, hdead⟩ := hinv.exited exit hmem
    refine ⟨hhwnd, ?_, fun dialog hlive => hdead dialog (h.live.mp hlive)⟩
    rw [h.nextWindow]
    exact hlt
  · intro window dialog hlive
    rw [h.nextWindow]
    exact hinv.freshWindow window dialog (h.live.mp hlive)
  · intro window dialog hlive
    rw [h.nextDialog]
    exact hinv.freshDialog window dialog (h.live.mp hlive)
  · intro dialog hle
    rw [h.nextDialog] at hle
    rw [h.hwndField]
    exact hinv.unconstructed dialog hle
  · intro frame hmem window hmodal
    rw [h.nextWindow]
    exact hinv.openedWindow frame hmem window hmodal


theorem invariant_congr
    (hinv : LivenessInvariant (⟨call, l⟩ :: below) w)
    (hself : l'.self = l.self) (hmodal : l'.modal = l.modal) :
    LivenessInvariant (⟨call, l'⟩ :: below) w := by
  refine ⟨hinv.live_of_hwnd, hinv.hwnd_of_live, ?_, hinv.exited,
    hinv.freshWindow, hinv.freshDialog, hinv.unconstructed, ?_⟩
  · intro window dialog hlive
    obtain ⟨frame, hmem, hframe⟩ := hinv.opener window dialog hlive
    rcases List.mem_cons.mp hmem with rfl | hbelow
    · refine ⟨⟨call, l'⟩, List.mem_cons_self, ?_⟩
      rw [hself, hmodal]
      exact hframe
    · exact ⟨frame, List.mem_cons_of_mem _ hbelow, hframe⟩
  · intro frame hmem window hwindow
    rcases List.mem_cons.mp hmem with rfl | hbelow
    · rw [hmodal] at hwindow
      exact hinv.openedWindow ⟨call, l⟩ List.mem_cons_self window hwindow
    · exact hinv.openedWindow frame (List.mem_cons_of_mem _ hbelow) window hwindow

theorem invariant_push
    (hinv : LivenessInvariant below w) (hmodal : l.modal = none) :
    LivenessInvariant (⟨call, l⟩ :: below) w := by
  refine ⟨hinv.live_of_hwnd, hinv.hwnd_of_live, ?_, hinv.exited,
    hinv.freshWindow, hinv.freshDialog, hinv.unconstructed, ?_⟩
  · intro window dialog hlive
    obtain ⟨frame, hmem, hframe⟩ := hinv.opener window dialog hlive
    exact ⟨frame, List.mem_cons_of_mem _ hmem, hframe⟩
  · intro frame hmem window hwindow
    rcases List.mem_cons.mp hmem with rfl | hbelow
    · simp [hmodal] at hwindow
    · exact hinv.openedWindow frame hbelow window hwindow

/-- The window of the activation is closed, and its dialog has no other. -/
def Closed (w : World) (l : DialogLocals) : Prop :=
  ∀ window, l.modal = some window →
    (∀ dialog, ¬ LiveWindow w window dialog) ∧ ∀ other, ¬ LiveWindow w other l.self

theorem invariant_pop
    (hinv : LivenessInvariant (⟨call, l⟩ :: below) w) (hclosed : Closed w l) :
    LivenessInvariant below (w.recordExit l) := by
  have hopener : ∀ window dialog, LiveWindow w window dialog →
      ∃ frame ∈ below, frame.locals.self = dialog ∧
        frame.locals.modal = some window := by
    intro window dialog hlive
    obtain ⟨frame, hmem, hframe⟩ := hinv.opener window dialog hlive
    rcases List.mem_cons.mp hmem with rfl | hbelow
    · exact absurd hlive ((hclosed window hframe.2).1 dialog)
    · exact ⟨frame, hbelow, hframe⟩
  have hopened : ∀ frame ∈ below, ∀ window ∈ frame.locals.modal,
      window < w.nextWindow := fun frame hmem =>
    hinv.openedWindow frame (List.mem_cons_of_mem _ hmem)
  cases hmodal : l.modal with
  | none =>
      rw [World.recordExit, hmodal]
      exact ⟨hinv.live_of_hwnd, hinv.hwnd_of_live, hopener, hinv.exited,
        hinv.freshWindow, hinv.freshDialog, hinv.unconstructed, hopened⟩
  | some window =>
      rw [World.recordExit, hmodal]
      refine ⟨hinv.live_of_hwnd, hinv.hwnd_of_live, hopener, ?_,
        hinv.freshWindow, hinv.freshDialog, hinv.unconstructed, hopened⟩
      intro exit hmem
      rcases List.mem_cons.mp hmem with rfl | hold
      · obtain ⟨hdead, hnone⟩ := hclosed window hmodal
        refine ⟨?_, hinv.openedWindow ⟨call, l⟩ List.mem_cons_self window hmodal,
          hdead⟩
        cases hhwnd : w.hwnd l.self with
        | none => rfl
        | some other =>
            have hfield : w.hwndField l.self = some (some other) := by
              simp only [World.hwnd, Option.bind_eq_some_iff] at hhwnd
              rcases hhwnd with ⟨dialog, hdialog, hother⟩
              simp [World.hwndField, hdialog, hother]
            exact absurd (hinv.live_of_hwnd _ _ hfield) (hnone other)
      · exact hinv.exited exit hold

theorem windowsClose_recordExit (w : World) (l : DialogLocals) :
    WindowsClose w (w.recordExit l) := by
  intro window dialog hlive
  unfold World.recordExit at hlive
  split at hlive
  · exact hlive
  · exact hlive

/-! ## What activations know -/

/-- No window of this activation is open. -/
structure Settled (below : List DialogFrame) (call : DialogCall) (entry : World)
    (w : World) (l : DialogLocals) : Prop where
  invariant : LivenessInvariant (⟨call, l⟩ :: below) w
  close : WindowsClose entry w
  closed : Closed w l

/-- It has not opened one, and its dialog has none. -/
structure Unopened (below : List DialogFrame) (call : DialogCall) (entry : World)
    (w : World) (l : DialogLocals) : Prop extends Settled below call entry w l where
  modal : l.modal = none
  noWindow : ∀ window, ¬ LiveWindow w window l.self

/-- It has opened one, which is the only one of its dialog. -/
structure Opened (below : List DialogFrame) (call : DialogCall) (entry : World)
    (window : ℕ) (w : World) (l : DialogLocals) : Prop where
  invariant : LivenessInvariant (⟨call, l⟩ :: below) w
  modal : l.modal = some window
  close : ∀ other dialog, LiveWindow w other dialog →
    other = window ∨ LiveWindow entry other dialog
  only : ∀ other, LiveWindow w other l.self → other = window

theorem Settled.exit (h : Settled below call entry w l) :
    LivenessInvariant below (w.recordExit l) ∧
      WindowsClose entry (w.recordExit l) :=
  ⟨invariant_pop h.invariant h.closed,
    liveness.rely_trans h.close (windowsClose_recordExit w l)⟩

theorem Opened.settled
    {window : ℕ} (h : Opened below call entry window w l)
    (hdead : ∀ dialog, ¬ LiveWindow w window dialog) :
    Settled below call entry w l := by
  refine ⟨h.invariant, ?_, ?_⟩
  · intro other dialog hlive
    rcases h.close other dialog hlive with rfl | hentry
    · exact absurd hlive (hdead dialog)
    · exact hentry
  · intro other hmodal
    rw [h.modal, Option.some.injEq] at hmodal
    subst other
    refine ⟨hdead, ?_⟩
    intro other hlive
    rw [h.only other hlive] at hlive
    exact hdead l.self hlive

theorem Closed.rely
    (h : Closed w l) (hclose : WindowsClose w w') : Closed w' l := by
  intro window hmodal
  obtain ⟨hdead, hnone⟩ := h window hmodal
  exact ⟨fun dialog hlive => hdead dialog (hclose _ _ hlive),
    fun other hlive => hnone other (hclose _ _ hlive)⟩

theorem Settled.rely
    (h : Settled below call entry w l) (hclose : WindowsClose w w')
    (hinv : LivenessInvariant (⟨call, l⟩ :: below) w') :
    Settled below call entry w' l :=
  ⟨hinv, liveness.rely_trans h.close hclose, h.closed.rely hclose⟩

theorem stable_settled :
    liveness.Stable (taskDialogHost ctx) below call entry
      (Settled below call entry) where
  inv := fun _ _ h => h.invariant
  rely := fun _ _ _ h => h.rely
  abandon := fun _ _ h _ => h.exit

theorem stable_unopened :
    liveness.Stable (taskDialogHost ctx) below call entry
      (Unopened below call entry) where
  inv := fun _ _ h => h.invariant
  rely := fun _ _ _ h hclose hinv => ⟨h.toSettled.rely hclose hinv, h.modal,
    fun window hlive => h.noWindow window (hclose _ _ hlive)⟩
  abandon := fun _ _ h _ => h.exit

theorem stable_opened (window : ℕ) :
    liveness.Stable (taskDialogHost ctx) below call entry
      (Opened below call entry window) where
  inv := fun _ _ h => h.invariant
  rely := fun _ _ _ h hclose hinv => ⟨hinv, h.modal,
    fun other dialog hlive => h.close other dialog (hclose _ _ hlive),
    fun other hlive => h.only other (hclose _ _ hlive)⟩
  abandon := fun _ _ h hmay =>
    (h.settled (not_live_of_windowClosed hmay h.modal)).exit

/-! ## Operations that concern no window -/

def quiet : DialogOp → Bool
  | .effect .createDialogWindow | .effect (.setHwnd _) => false
  | _ => true

theorem sameWindows_recordCall (dialog : Dialog) (op : StackOp) :
    SameWindows w (w.recordCall l dialog op) := by
  unfold World.recordCall
  split
  · split
    · exact .of_dialogs rfl rfl rfl rfl rfl
    · exact .of_dialogs rfl rfl rfl rfl rfl
  · exact .of_dialogs rfl rfl rfl rfl rfl

theorem sameWindows_of_perform
    {e : DialogEffect} {answer : e.Answer} {dialog : Dialog}
    (hdialog : w.dialogs l.self = some dialog) (hquiet : ∀ hwnd, e ≠ .setHwnd hwnd)
    (h : e.perform w l dialog = some (answer, w', l')) :
    SameWindows w w' ∧ l'.self = l.self ∧ l'.modal = l.modal := by
  obtain ⟨new, hreplaced, hhwnd, _⟩ := exists_replaced hdialog h
  refine ⟨⟨hreplaced.windows, hreplaced.nextWindow, hreplaced.nextDialog, ?_,
    hreplaced.exits⟩, hreplaced.self, hreplaced.modal⟩
  funext other
  rw [World.hwndField, World.hwndField, hreplaced.dialogs]
  by_cases hother : other = l.self
  · subst other
    simp [hdialog, hhwnd hquiet]
  · simp [hother]

theorem keeps_quiet
    {F : World → DialogLocals → Prop}
    (hF : ∀ w w' l l', F w l → SameWindows w w' → l'.self = l.self →
      l'.modal = l.modal → F w' l') {op : DialogOp} (hop : quiet op = true) :
    liveness.Keeps (taskDialogHost ctx) call F op := by
  cases op with
  | stack c op =>
      constructor
      · intro _ answer w l w' l' h hdone _
        obtain ⟨rfl, frame, rfl⟩ := of_resume_stack hdone
        exact hF _ _ _ _ h (.of_dialogs rfl rfl rfl rfl rfl) rfl rfl
      · intro _ answer w l w' l' h hdone
        obtain ⟨dialog, frame, _, _, rfl, rfl⟩ := of_effect_stack hdone
        exact hF _ _ _ _ h (sameWindows_recordCall dialog op) rfl rfl
  | effect e =>
      constructor
      · intro _ answer w l w' l' h hdone _
        rcases of_resume_effect hdone with ⟨rfl, rfl⟩ | ⟨rfl, _⟩
        · exact h
        · contradiction
      · intro _ answer w l w' l' h hdone
        obtain ⟨dialog, hdialog, hperform⟩ := of_effect_effect hdone
        have hne : ∀ hwnd, e ≠ .setHwnd hwnd := by
          rintro hwnd rfl
          contradiction
        obtain ⟨hsame, hself, hmodal⟩ :=
          sameWindows_of_perform hdialog hne hperform
        exact hF _ _ _ _ h hsame hself hmodal

theorem Closed.same
    (h : Closed w l) (hsame : SameWindows w w') (hself : l'.self = l.self)
    (hmodal : l'.modal = l.modal) : Closed w' l' := by
  intro window hwindow
  rw [hmodal] at hwindow
  obtain ⟨hdead, hnone⟩ := h window hwindow
  rw [hself]
  exact ⟨fun dialog hlive => hdead dialog (hsame.live.mp hlive),
    fun other hlive => hnone other (hsame.live.mp hlive)⟩

theorem Settled.same
    (h : Settled below call entry w l) (hsame : SameWindows w w')
    (hself : l'.self = l.self) (hmodal : l'.modal = l.modal) :
    Settled below call entry w' l' :=
  ⟨hsame.invariant (invariant_congr h.invariant hself hmodal),
    fun _ _ hlive => h.close _ _ (hsame.live.mp hlive),
    h.closed.same hsame hself hmodal⟩

theorem keeps_settled {op : DialogOp} (hop : quiet op = true) :
    liveness.Keeps (taskDialogHost ctx) call (Settled below call entry) op :=
  keeps_quiet (fun _ _ _ _ h hsame hself hmodal => h.same hsame hself hmodal) hop

theorem keeps_unopened {op : DialogOp} (hop : quiet op = true) :
    liveness.Keeps (taskDialogHost ctx) call (Unopened below call entry) op := by
  apply keeps_quiet _ hop
  intro w w' l l' h hsame hself hmodal
  refine ⟨h.toSettled.same hsame hself hmodal, hmodal.trans h.modal, ?_⟩
  intro window hlive
  rw [hself] at hlive
  exact h.noWindow window (hsame.live.mp hlive)

theorem keeps_opened {window : ℕ} {op : DialogOp} (hop : quiet op = true) :
    liveness.Keeps (taskDialogHost ctx) call (Opened below call entry window) op := by
  apply keeps_quiet _ hop
  intro w w' l l' h hsame hself hmodal
  refine ⟨hsame.invariant (invariant_congr h.invariant hself hmodal),
    hmodal.trans h.modal,
    fun other dialog hlive => h.close other dialog (hsame.live.mp hlive), ?_⟩
  intro other hlive
  rw [hself] at hlive
  exact h.only other (hsame.live.mp hlive)

/-! ## Opening a window -/

theorem live_openWindow {self window dialog : ℕ} :
    LiveWindow (w.openWindow self) window dialog ↔
      (window = w.nextWindow ∧ dialog = self) ∨
        (window ≠ w.nextWindow ∧ LiveWindow w window dialog) := by
  unfold LiveWindow World.openWindow
  by_cases hwindow : window = w.nextWindow
  · subst window
    simp [eq_comm]
  · simp [hwindow]

theorem hwndField_setDialog {self dialog : ℕ} {new : Dialog} :
    (w.setDialog self new).hwndField dialog =
      if dialog = self then some new.hwnd else w.hwndField dialog := by
  unfold World.hwndField World.setDialog
  by_cases hdialog : dialog = self
  · subst dialog
    simp
  · simp [hdialog]

theorem opened_of_unopened
    {old new : Dialog} (h : Unopened below call entry w l)
    (hold : w.dialogs l.self = some old) (hnew : new.hwnd = some w.nextWindow)
    (hself : l'.self = l.self) (hmodal : l'.modal = some w.nextWindow) :
    Opened below call entry w.nextWindow
      ((w.openWindow l.self).setDialog l.self new) l' := by
  have hlive : ∀ window dialog,
      LiveWindow ((w.openWindow l.self).setDialog l.self new) window dialog →
        (window = w.nextWindow ∧ dialog = l.self) ∨
          (window ≠ w.nextWindow ∧ LiveWindow w window dialog) :=
    fun window dialog hlive => live_openWindow.mp hlive
  have hfield : ∀ dialog,
      ((w.openWindow l.self).setDialog l.self new).hwndField dialog =
        if dialog = l.self then some (some w.nextWindow)
        else w.hwndField dialog := by
    intro dialog
    rw [hwndField_setDialog, hnew]
    rfl
  have hlt : l.self < w.nextDialog := by
    by_contra hge
    have hnone := h.invariant.unconstructed l.self (by omega)
    simp [World.hwndField, hold] at hnone
  refine ⟨?_, hmodal, ?_, ?_⟩
  · constructor
    · intro dialog window hhwnd
      rw [hfield] at hhwnd
      apply live_openWindow.mpr
      split at hhwnd
      next heq =>
        simp only [Option.some.injEq] at hhwnd
        exact .inl ⟨hhwnd.symm, heq⟩
      next =>
        have hold := h.invariant.live_of_hwnd dialog window hhwnd
        have hfresh := h.invariant.freshWindow window dialog hold
        exact .inr ⟨hfresh.ne, hold⟩
    · intro dialog window hwnd hopen hhwnd
      rw [hfield] at hhwnd
      rcases hlive window dialog hopen with ⟨rfl, rfl⟩ | ⟨_, hold⟩
      · simpa using hhwnd.symm
      · have hne : dialog ≠ l.self := by
          rintro rfl
          exact h.noWindow window hold
        rw [if_neg hne] at hhwnd
        exact h.invariant.hwnd_of_live dialog window hwnd hold hhwnd
    · intro window dialog hopen
      rcases hlive window dialog hopen with ⟨rfl, rfl⟩ | ⟨_, hold⟩
      · exact ⟨⟨call, l'⟩, List.mem_cons_self, hself, hmodal⟩
      · obtain ⟨frame, hmem, hframe⟩ := h.invariant.opener window dialog hold
        rcases List.mem_cons.mp hmem with rfl | hbelow
        · rw [h.modal] at hframe
          simp at hframe
        · exact ⟨frame, List.mem_cons_of_mem _ hbelow, hframe⟩
    · intro exit hmem
      obtain ⟨hhwnd, hwindow, hdead⟩ := h.invariant.exited exit hmem
      refine ⟨hhwnd, hwindow.trans (Nat.lt_succ_self _), ?_⟩
      intro dialog hopen
      rcases hlive exit.window dialog hopen with ⟨heq, _⟩ | ⟨_, hold⟩
      · omega
      · exact hdead dialog hold
    · intro window dialog hopen
      show window < w.nextWindow + 1
      rcases hlive window dialog hopen with ⟨rfl, _⟩ | ⟨_, hold⟩
      · omega
      · exact (h.invariant.freshWindow window dialog hold).trans
          (Nat.lt_succ_self _)
    · intro window dialog hopen
      rcases hlive window dialog hopen with ⟨_, rfl⟩ | ⟨_, hold⟩
      · exact hlt
      · exact h.invariant.freshDialog window dialog hold
    · intro dialog hle
      have hge : w.nextDialog ≤ dialog := hle
      rw [hfield, if_neg (by omega)]
      exact h.invariant.unconstructed dialog hge
    · intro frame hmem window hwindow
      show window < w.nextWindow + 1
      rcases List.mem_cons.mp hmem with rfl | hbelow
      · rw [hmodal, Option.mem_some_iff] at hwindow
        omega
      · have hold := h.invariant.openedWindow frame
          (List.mem_cons_of_mem _ hbelow) window hwindow
        omega
  · intro other dialog hopen
    rcases hlive other dialog hopen with ⟨rfl, _⟩ | ⟨_, hold⟩
    · exact .inl rfl
    · exact .inr (h.close other dialog hold)
  · intro other hopen
    rw [hself] at hopen
    rcases hlive other l.self hopen with ⟨rfl, _⟩ | ⟨_, hold⟩
    · rfl
    · exact absurd hold (h.noWindow other)

theorem meets_constructed (h : Unopened below call entry w l) :
    liveness.Meets (taskDialogHost ctx) below call entry
      (fun _ => Opened below call entry w.nextWindow)
      (NKWinTaskDialog.callback c w.nextWindow .dialogConstructed 0 [])
      (w.openWindow l.self) { l with modal := some w.nextWindow } := by
  apply meets_putEmitOnStack_pushThis
  apply meets_silentEffect rfl
  intro dialog _ w' l' hdialog hperform
  simp only [DialogEffect.perform, Option.some.injEq, Prod.mk.injEq] at hperform
  rcases hperform with ⟨_, rfl, rfl⟩
  have hrest : Program.All (quiet · = true)
      (NKWinTaskDialog.freeRuntime >>= fun _ =>
        NKWinTaskDialog.emit c "dialogConstructed" [] >>= fun _ => pure sOk) := by
    apply Program.All.bind (NKWinTaskDialog.all_freeRuntime fun _ => rfl)
    intro _
    exact (NKWinTaskDialog.all_emit (fun _ => rfl) _ _).bind fun _ => trivial
  apply Discipline.Meets.of_all (stable_opened _)
    (hrest.mono fun _ hquiet => keeps_opened hquiet)
  exact opened_of_unopened h hdialog rfl rfl rfl

theorem meets_settled
    {α : Type} {p : DialogProgram α} (hp : p.All (quiet · = true))
    (h : Settled below call entry w l) :
    liveness.Meets (taskDialogHost ctx) below call entry
      (fun _ => Settled below call entry) p w l :=
  .of_all stable_settled (hp.mono fun _ hquiet => keeps_settled hquiet) h

theorem meets_unopened
    {α : Type} {p : DialogProgram α} (hp : p.All (quiet · = true))
    (h : Unopened below call entry w l) :
    liveness.Meets (taskDialogHost ctx) below call entry
      (fun _ => Unopened below call entry) p w l :=
  .of_all stable_unopened (hp.mono fun _ hquiet => keeps_unopened hquiet) h

theorem meets_taskDialogIndirect (h : Unopened below call entry w l) :
    liveness.Meets (taskDialogHost ctx) below call entry
      (fun _ => Settled below call entry)
      (NKWinTaskDialog.taskDialogIndirect c) w l := by
  apply Discipline.Meets.await stable_unopened rfl h
  intro w' created w₂ l₂ hunopened hresume _
  cases created with
  | error hr =>
      obtain ⟨rfl, rfl⟩ := of_resume_failed hresume
      exact hunopened.toSettled
  | ok window =>
      obtain ⟨rfl, rfl, rfl⟩ := of_resume_created hresume
      apply (meets_constructed hunopened).bind
      intro _ w l hopened
      apply Discipline.Meets.await (stable_opened _) rfl hopened
      intro w₁ hr w₂ l₂ hopened hresume _
      obtain ⟨rfl, rfl, hclosed⟩ := of_resume_modalLoop hresume
      exact hopened.settled hclosed

theorem all_createConfig :
    (NKWinTaskDialog.createConfig c).All (quiet · = true) :=
  NKWinTaskDialog.all_createConfig (fun _ _ => rfl) (fun _ => rfl)
    (fun _ _ _ => rfl) rfl (fun _ _ => rfl) rfl

/-! ## The methods -/

theorem unopened_of_hwnd
    {dialog : Dialog} (h : Settled below call entry w l) (hmodal : l.modal = none)
    (hdialog : w.dialogs l.self = some dialog) (hhwnd : dialog.hwnd = none) :
    Unopened below call entry w l := by
  refine ⟨h, hmodal, ?_⟩
  intro window hlive
  have hsome := h.invariant.hwnd_of_live l.self window dialog.hwnd hlive
    (by simp [World.hwndField, hdialog])
  rw [hhwnd] at hsome
  contradiction

theorem meets_showDialog
    (h : Settled below call entry w l) (hmodal : l.modal = none) :
    liveness.Meets (taskDialogHost ctx) below call entry
      (fun _ => Settled below call entry) (NKWinTaskDialog.showDialog c) w l := by
  apply meets_self
  intro dialog hdialog
  simp only [Program.pure_bind]
  split
  next => exact meets_settled ⟨rfl, fun _ => trivial⟩ h
  next hhwnd =>
    have hunopened := unopened_of_hwnd h hmodal hdialog hhwnd
    apply (meets_unopened all_createConfig hunopened).bind
    intro _ w l hunopened
    apply (meets_taskDialogIndirect hunopened).bind
    intro hr w l h
    apply meets_settled _ h
    exact NKWinTaskDialog.all_freeRuntime_checkResult (fun _ _ => rfl)
      (fun _ => rfl) hr _

theorem meets_navigate
    (h : Settled below call entry w l) (hmodal : l.modal = none) :
    liveness.Meets (taskDialogHost ctx) below call entry
      (fun _ => Settled below call entry) (NKWinTaskDialog.navigate c) w l := by
  apply meets_self
  intro dialog hdialog
  simp only [Program.pure_bind]
  split
  next => exact meets_showDialog h hmodal
  next =>
    apply meets_settled _ h
    apply Program.All.bind all_createConfig
    intro _
    refine ⟨rfl, fun self => ⟨rfl, fun result => ?_⟩⟩
    exact NKWinTaskDialog.all_freeRuntime_checkResult (fun _ _ => rfl)
      (fun _ => rfl) result _

theorem meets_method
    (m : DialogMethod) (h : Settled below call entry w l) (hmodal : l.modal = none) :
    liveness.Meets (taskDialogHost ctx) below call entry
      (fun _ => Settled below call entry) (m.body c) w l := by
  cases m with
  | showDialog => exact meets_showDialog h hmodal
  | navigate => exact meets_navigate h hmodal
  | preventClose => exact meets_settled ⟨rfl, fun _ => trivial⟩ h
  | enableButton =>
      exact meets_settled (NKWinTaskDialog.all_enableButton (fun _ _ => rfl) rfl
        fun _ _ => rfl) h
  | enableRadioButton =>
      exact meets_settled (NKWinTaskDialog.all_enableRadioButton (fun _ _ => rfl)
        rfl fun _ _ => rfl) h

/-! ## The callback -/

theorem settled_of_invariant
    (hinv : LivenessInvariant below w) (hclose : WindowsClose entry w)
    (hmodal : l.modal = none) : Settled below call entry w l := by
  refine ⟨invariant_push hinv hmodal, hclose, ?_⟩
  intro window hwindow
  rw [hmodal] at hwindow
  contradiction

theorem invariant_reconstruct
    {window self : ℕ} {dialog : Dialog} (hinv : LivenessInvariant below w)
    (hlive : LiveWindow w window self) (hdialog : w.dialogs self = some dialog) :
    LivenessInvariant below
      (w.setDialog self { dialog with hwnd := some window }) := by
  have hhwnd : dialog.hwnd = some window :=
    hinv.hwnd_of_live self window dialog.hwnd hlive
      (by simp [World.hwndField, hdialog])
  have hsame : SameWindows w
      (w.setDialog self { dialog with hwnd := some window }) := by
    refine ⟨rfl, rfl, rfl, ?_, rfl⟩
    funext other
    rw [hwndField_setDialog]
    split
    next heq => simp [World.hwndField, heq, hdialog, hhwnd]
    next => rfl
  exact hsame.invariant hinv

theorem invariant_destroyed
    {window self : ℕ} {dialog : Dialog} (hinv : LivenessInvariant below w)
    (hlive : LiveWindow w window self) (hdialog : w.dialogs self = some dialog) :
    LivenessInvariant below ((w.deliver window self .destroyed).setDialog self
      { dialog with hwnd := none }) := by
  have hopen : ∀ other owner,
      LiveWindow ((w.deliver window self .destroyed).setDialog self
        { dialog with hwnd := none }) other owner →
      other ≠ window ∧ LiveWindow w other owner := by
    intro other owner hother
    by_cases heq : other = window
    · subst other
      simp [LiveWindow, World.deliver, World.setDialog] at hother
    · refine ⟨heq, ?_⟩
      simpa [LiveWindow, World.deliver, World.setDialog, heq] using hother
  have hfield : ∀ owner,
      ((w.deliver window self .destroyed).setDialog self
        { dialog with hwnd := none }).hwndField owner =
      if owner = self then some none else w.hwndField owner :=
    fun owner => hwndField_setDialog
  have hhwnd : dialog.hwnd = some window :=
    hinv.hwnd_of_live self window dialog.hwnd hlive
      (by simp [World.hwndField, hdialog])
  constructor
  · intro owner other hother
    rw [hfield] at hother
    split at hother
    next => simp at hother
    next hne =>
      have hold := hinv.live_of_hwnd owner other hother
      have hwindow : other ≠ window := by
        rintro rfl
        rw [LiveWindow, hlive, Option.some.injEq, Window.mk.injEq] at hold
        exact hne hold.1.symm
      simpa [LiveWindow, World.deliver, World.setDialog, hwindow] using hold
  · intro owner other hwnd hother hown
    obtain ⟨hne, hold⟩ := hopen other owner hother
    rw [hfield] at hown
    split at hown
    next heq =>
      subst owner
      have hsame := hinv.hwnd_of_live self other dialog.hwnd hold
        (by simp [World.hwndField, hdialog])
      rw [hhwnd, Option.some.injEq] at hsame
      exact absurd hsame.symm hne
    next => exact hinv.hwnd_of_live owner other hwnd hold hown
  · exact fun other owner hother =>
      hinv.opener other owner (hopen other owner hother).2
  · intro exit hmem
    obtain ⟨hnone, hlt, hdead⟩ := hinv.exited exit hmem
    exact ⟨hnone, hlt, fun owner hother => hdead owner (hopen _ owner hother).2⟩
  · exact fun other owner hother =>
      hinv.freshWindow other owner (hopen other owner hother).2
  · exact fun other owner hother =>
      hinv.freshDialog other owner (hopen other owner hother).2
  · intro owner hle
    have hge : w.nextDialog ≤ owner := hle
    have hnone := hinv.unconstructed owner hge
    have hne : owner ≠ self := by
      rintro rfl
      simp [World.hwndField, hdialog] at hnone
    rw [hfield, if_neg hne]
    exact hnone
  · exact hinv.openedWindow

theorem windowsClose_deliver (window dialog : ℕ) (notification : Notification) :
    WindowsClose w (w.deliver window dialog notification) := by
  intro other owner hother
  cases notification with
  | destroyed =>
      by_cases heq : other = window
      · subst other
        simp [LiveWindow, World.deliver] at hother
      · simpa [LiveWindow, World.deliver, heq] using hother
  | _ => exact hother

theorem meets_notify
    {window self wParam : ℕ} {notification : Notification} {lParam : List UInt16}
    (hinv : LivenessInvariant below w) (hmodal : l.modal = none)
    (hself : l.self = self) (hlive : LiveWindow w window self)
    (hw : w' = w.deliver window self notification) :
    liveness.Meets (taskDialogHost ctx) below call w'
      (fun _ => Settled below call w')
      (NKWinTaskDialog.callback c window notification wParam lParam) w' l := by
  subst self
  have hend : ∀ name, Program.All (quiet · = true)
      (NKWinTaskDialog.emit c name [] >>= fun _ => pure sOk) := fun name =>
    (NKWinTaskDialog.all_emit (fun _ => rfl) name []).bind fun _ => trivial
  by_cases hdestroyed : notification = .destroyed
  · subst notification
    apply meets_putEmitOnStack_pushThis
    apply meets_silentEffect rfl
    intro dialog _ w₂ l₂ hdialog hperform
    simp only [DialogEffect.perform, Option.some.injEq, Prod.mk.injEq] at hperform
    rcases hperform with ⟨_, rfl, rfl⟩
    apply meets_settled (hend "destroyed")
    subst w'
    exact settled_of_invariant (invariant_destroyed hinv hlive hdialog)
      (fun _ _ hother => hother) hmodal
  have hsame : w' = w := by
    cases notification <;> first | exact hw | contradiction
  clear hw
  subst w'
  by_cases hconstructed : notification = .dialogConstructed
  · subst notification
    apply meets_putEmitOnStack_pushThis
    apply meets_silentEffect rfl
    intro dialog _ w₂ l₂ hdialog hperform
    simp only [DialogEffect.perform, Option.some.injEq, Prod.mk.injEq] at hperform
    rcases hperform with ⟨_, rfl, rfl⟩
    have hfree := NKWinTaskDialog.all_freeRuntime
      (P := (quiet · = true)) fun _ => rfl
    apply meets_settled (hfree.bind fun _ => hend "dialogConstructed")
    exact settled_of_invariant (invariant_reconstruct hinv hlive hdialog)
      (fun _ _ hother => hother) hmodal
  · apply meets_settled
    · exact NKWinTaskDialog.all_callback (P := (quiet · = true)) (fun _ => rfl)
        rfl (fun _ _ => rfl) window notification wParam lParam (fun _ _ => rfl)
        (fun h => absurd h hdestroyed) (fun h => absurd h hconstructed)
    · exact settled_of_invariant hinv (fun _ _ hother => hother) hmodal

/-! ## Soundness -/

theorem sound_enter
    {awaited : Option DialogOp} (hinv : LivenessInvariant below w)
    (henter : call.enter w below awaited = some (w', l)) :
    WindowsClose w w' ∧
      liveness.Meets (taskDialogHost ctx) below call w'
        (liveness.Left (taskDialogHost ctx) below call w') (call.body ctx) w' l := by
  cases call with
  | method m this self args =>
      obtain ⟨rfl, rfl, _⟩ := of_enter_method henter
      refine ⟨fun _ _ hlive => hlive, ?_⟩
      exact (meets_method m (settled_of_invariant hinv (fun _ _ hlive => hlive)
        rfl) rfl).mono fun _ _ _ h => h.exit
  | notify window notification wParam lParam =>
      obtain ⟨dialog, top, rest, rfl, hwindow, hw, rfl, _⟩ :=
        of_enter_notify henter
      refine ⟨hw ▸ windowsClose_deliver window dialog notification, ?_⟩
      apply Discipline.Meets.mono (meets_notify hinv _ _ hwindow hw)
      · exact fun _ _ _ h => h.exit
      · rfl
      · rfl
  | other this =>
      obtain ⟨rfl, rfl⟩ := of_enter_other henter
      refine ⟨fun _ _ hlive => hlive, ?_⟩
      have hpump : Program.All (quiet · = true)
          (NKWinTaskDialog.perform .pump >>= fun _ => pure 0) :=
        ⟨rfl, fun _ => trivial⟩
      exact (meets_settled hpump (settled_of_invariant hinv
        (fun _ _ hlive => hlive) rfl)).mono fun _ _ _ h => h.exit

theorem sound_external
    {stack : List DialogFrame} {action : DialogAction}
    (hinv : LivenessInvariant stack w) (haction : action.perform w = some w') :
    LivenessInvariant stack w' ∧ WindowsClose w w' := by
  cases action with
  | construct object =>
      simp only [DialogAction.perform, Option.some.injEq] at haction
      subst w'
      have hfield : ∀ dialog, World.hwndField { w with
          dialogs := Function.update w.dialogs w.nextDialog (some (.new object))
          nextDialog := w.nextDialog + 1 } dialog =
          if dialog = w.nextDialog then some none else w.hwndField dialog := by
        intro dialog
        unfold World.hwndField
        by_cases hdialog : dialog = w.nextDialog
        · subst dialog
          simp [Dialog.new]
        · simp [hdialog]
      refine ⟨?_, fun _ _ hlive => hlive⟩
      constructor
      · intro dialog window hhwnd
        rw [hfield] at hhwnd
        split at hhwnd
        next => simp at hhwnd
        next => exact hinv.live_of_hwnd dialog window hhwnd
      · intro dialog window hwnd hlive hhwnd
        have hlt := hinv.freshDialog window dialog hlive
        rw [hfield, if_neg hlt.ne] at hhwnd
        exact hinv.hwnd_of_live dialog window hwnd hlive hhwnd
      · exact hinv.opener
      · exact hinv.exited
      · exact hinv.freshWindow
      · intro window dialog hlive
        exact (hinv.freshDialog window dialog hlive).trans (Nat.lt_succ_self _)
      · intro dialog hle
        have hge : w.nextDialog + 1 ≤ dialog := hle
        rw [hfield, if_neg (by omega)]
        exact hinv.unconstructed dialog (by omega)
      · exact hinv.openedWindow
  | destroy dialog =>
      simp only [DialogAction.perform, Option.map_eq_some_iff] at haction
      rcases haction with ⟨_, _, rfl⟩
      refine ⟨?_, fun _ _ hlive => hlive⟩
      have hfield : ∀ other, World.hwndField { w.assertRuntime dialog with
          dialogs := Function.update w.dialogs dialog none } other =
          if other = dialog then none else w.hwndField other := by
        intro other
        unfold World.hwndField
        by_cases hother : other = dialog
        · simp [hother]
        · simp [hother]
      constructor
      · intro other window hhwnd
        have hold := (hfield other).symm.trans hhwnd
        split at hold
        next => contradiction
        next => exact hinv.live_of_hwnd other window hold
      · intro other window hwnd hlive hhwnd
        have hold := (hfield other).symm.trans hhwnd
        split at hold
        next => contradiction
        next => exact hinv.hwnd_of_live other window hwnd hlive hold
      · exact hinv.opener
      · exact hinv.exited
      · exact hinv.freshWindow
      · exact hinv.freshDialog
      · intro other hle
        apply (hfield other).trans
        split
        next => rfl
        next => exact hinv.unconstructed other hle
      · exact hinv.openedWindow

theorem sound : liveness.Sound (taskDialogHost ctx) where
  enter := fun _ _ _ _ _ _ hinv _ => sound_enter hinv
  external := fun _ _ _ _ hinv _ => sound_external hinv

/-! ## A later `show` -/

theorem suspendsAt_showDialog
    {dialog : Dialog} (hdialog : w.dialogs l.self = some dialog)
    (hhwnd : dialog.hwnd = none) :
    (taskDialogHost ctx).SuspendsAt (.stack c (.getProp (.name ConfigText.title.name)))
      (NKWinTaskDialog.showDialog c) w l := by
  have hassert : (w.assertRuntime l.self).dialogs l.self = some dialog := hdialog
  have hcleared : ((w.assertRuntime l.self).setDialog l.self { dialog with
      config := { dialog.config with tdc := .zero } }).dialogs l.self =
      some { dialog with config := { dialog.config with tdc := .zero } } := by
    simp [World.setDialog]
  refine Host.SuspendsAt.after ?_ rfl (effect_effect hdialog rfl)
  simp only [Program.pure_bind, hhwnd]
  refine Host.SuspendsAt.after ?_ rfl (effect_effect hdialog rfl)
  refine Host.SuspendsAt.after ?_ rfl (effect_effect hassert rfl)
  refine Host.SuspendsAt.after ?_ rfl (effect_stack hcleared rfl rfl)
  simp only [Program.pure_bind]
  cases (l.frame.get 0).isObject with
  | true =>
      refine Host.SuspendsAt.after ?_ rfl (effect_stack hcleared rfl rfl)
      exact Host.suspendsAt_perform rfl
  | false =>
      refine Host.SuspendsAt.after ?_ rfl (effect_stack hcleared rfl rfl)
      exact Host.suspendsAt_perform rfl

end Liveness
theorem LivenessInvariant.dialogLiveness
    {ctx : Context} {s : DialogState}
    (hinv : LivenessInvariant (frames s.stack) s.world) : DialogLiveness ctx s := by
  have hopener : ∀ dialog window, s.world.hwnd dialog = some window →
      ∃ frame ∈ frames s.stack,
        frame.locals.self = dialog ∧ frame.locals.modal = some window := by
    intro dialog window hhwnd
    apply hinv.opener window dialog
    apply hinv.live_of_hwnd
    simp only [World.hwnd, Option.bind_eq_some_iff] at hhwnd
    rcases hhwnd with ⟨native, hnative, hwindow⟩
    simp [World.hwndField, hnative, hwindow]
  constructor
  · exact fun exit hmem => (hinv.exited exit hmem).1
  · intro exit hmem notification wParam lParam
    have hdead := (hinv.exited exit hmem).2.2
    cases henter : (DialogCall.notify exit.window notification wParam lParam).enter
        s.world (frames s.stack) (s.stack.head?.map (·.op)) with
    | none => simp only [Host.step, taskDialogHost, henter, Option.bind_none]
    | some done =>
        obtain ⟨dialog, _, _, _, hwindow, _⟩ := of_enter_notify henter
        exact absurd hwindow (hdead dialog)
  · exact hopener
  · intro dialog this args hsome hunopened hscript
    obtain ⟨native, hnative⟩ := Option.isSome_iff_exists.mp hsome
    have hhwnd : native.hwnd = none := by
      cases hcase : native.hwnd with
      | none => rfl
      | some window =>
          obtain ⟨frame, hmem, hself, hmodal⟩ :=
            hopener dialog window (by simp [World.hwnd, hnative, hcase])
          rw [hunopened frame hmem hself] at hmodal
          contradiction
    have henter : (DialogCall.method .showDialog this dialog args).enter s.world
        (frames s.stack) (s.stack.head?.map (·.op)) = some (s.world,
          ⟨dialog, this, DialogMethod.showDialog.initialFrame args, none, []⟩) := by
      simp [DialogCall.enter, hscript, hsome]
    have hsuspends : (taskDialogHost ctx).SuspendsAt
        (.stack ctx (.getProp (.name ConfigText.title.name)))
        (NKWinTaskDialog.showDialog ctx) s.world
        ⟨dialog, this, DialogMethod.showDialog.initialFrame args, none, []⟩ :=
      Liveness.suspendsAt_showDialog hnative hhwnd
    obtain ⟨next, hsettle, htop⟩ :=
      hsuspends s.stack (.method .showDialog this dialog args)
    refine ⟨next, ?_, htop⟩
    simp only [Host.step, taskDialogHost, henter, Option.bind_some]
    exact hsettle

/-- In a run in which no error jumps over a call whose window is open. -/
theorem dialogLiveness_of_windowClosed
    {ctx : Context} {s : DialogState} {choices : List DialogChoice}
    (hrun : GuardedRun (taskDialogHost ctx).step
      (liveness.Guard (taskDialogHost ctx)) ⟨World.initial, []⟩ choices s) :
    DialogLiveness ctx s := by
  have hinit : LivenessInvariant [] World.initial := by
    constructor <;> simp [World.initial, LiveWindow, World.hwndField]
  exact (Liveness.sound.inv_of_guardedRun hinit hrun).dialogLiveness

def closedDialog : List DialogChoice :=
  .external (.construct 10) :: openDialog 10 0 0 ++
    [.enter (.notify 0 .help 0 []),
      .answer (calmAnswer (fun _ => .undefined) 0),
      .enter (.notify 0 .destroyed 0 []),
      .answer (calmAnswer (fun _ => .undefined) 0),
      .answer (calmAnswer (fun _ => .undefined) 0)]

theorem dialogLiveness_closedDialog :
    ∃ s, run (taskDialogHost 0).step ⟨World.initial, []⟩ closedDialog = some s ∧
      s.world.exits.length = 1 ∧ DialogLiveness 0 s := by
  have hchecked : ((checkedRun (taskDialogHost 0).step
      (liveness.Guard (taskDialogHost 0)) ⟨World.initial, []⟩ closedDialog).map
      fun s => s.world.exits.length) = some 1 := by
    decide +kernel
  obtain ⟨s, hs, hlength⟩ := Option.map_eq_some_iff.mp hchecked
  have hrun := GuardedRun.of_checkedRun hs
  exact ⟨s, hrun.run_eq, hlength, dialogLiveness_of_windowClosed hrun⟩

/-- A handler of `help` throws, and the main program catches the error. -/
theorem not_dialogLiveness_of_throwing_handler :
    ∃ s, run (taskDialogHost 0).step ⟨World.initial, []⟩
        (.external (.construct 10) :: openDialog 10 0 0 ++
          [.enter (.notify 0 .help 0 []), .raise 2]) = some s ∧
      ¬ DialogLiveness 0 s := by
  have hrun : ((run (taskDialogHost 0).step ⟨World.initial, []⟩
      (.external (.construct 10) :: openDialog 10 0 0 ++
        [.enter (.notify 0 .help 0 []), .raise 2])).map
      fun s => decide (∀ exit ∈ s.world.exits, exit.hwnd = none)) =
      some false := by
    decide +kernel
  obtain ⟨s, hs, hfalse⟩ := Option.map_eq_some_iff.mp hrun
  exact ⟨s, hs, fun hliveness => of_decide_eq_false hfalse hliveness.hwnd_null⟩

end NekoScript
