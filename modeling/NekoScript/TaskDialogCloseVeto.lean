import NekoScript.TaskDialogHost
import Mathlib.Tactic

/-!
# Which clicks keep a dialog open

`_preventClose` is one flag for all clicks of a dialog that are being handled.
It is cleared when the callback starts to handle a click, so a click that is
handled inside another one takes the answer of the outer one away.
-/

namespace NekoScript

open Programs ReentrantCalls GuardedRuns TaskDialogHost

/-- A click that is being handled, and whether `preventClose` was called on its
dialog for it. -/
structure PendingClick where
  dialog : ℕ
  vetoed : Bool
  deriving DecidableEq

structure ClickAnswer where
  dialog : ℕ
  vetoed : Bool
  result : ℤ
  deriving DecidableEq

/-- The clicks that are being handled, innermost first, and those that have
been answered. -/
structure ClickLog where
  pending : List PendingClick
  answers : List ClickAnswer

def ClickLog.empty : ClickLog := ⟨[], []⟩

/-- A call of `preventClose` is part of the innermost click on the dialog. -/
def vetoInnermost (dialog : ℕ) : List PendingClick → List PendingClick
  | [] => []
  | click :: rest =>
      if click.dialog = dialog then { click with vetoed := true } :: rest
      else click :: vetoInnermost dialog rest

def DialogCall.isClick : DialogCall → Bool
  | .notify _ .buttonClicked _ _ => true
  | _ => false

def clickObserver : Observer DialogCall DialogOp ℤ DialogLocals ClickLog where
  effect
    | .effect (.setPreventClose true), l, log =>
        { log with pending := vetoInnermost l.self log.pending }
    | _, _, log => log
  enter := fun call l log =>
    if call.isClick then { log with pending := ⟨l.self, false⟩ :: log.pending }
    else log
  leave := fun frame result log =>
    match frame.call.isClick, log.pending with
    | true, click :: rest =>
        ⟨rest, ⟨click.dialog, click.vetoed, result⟩ :: log.answers⟩
    | _, _ => log
  abandon := fun frame log =>
    if frame.call.isClick then { log with pending := log.pending.tail } else log

def clickHost (ctx : Context) :
    Host DialogCall DialogOp (NativeOp.Answer DialogEffect.Answer) ℤ
      DialogAction (World × ClickLog) DialogLocals :=
  (taskDialogHost ctx).observe clickObserver

/-- Closing was refused for those clicks during which it was to be prevented. -/
def VetoesAnswered (log : ClickLog) : Prop :=
  ∀ answer ∈ log.answers, answer.result = sFalse ↔ answer.vetoed = true

instance (log : ClickLog) : Decidable (VetoesAnswered log) :=
  inferInstanceAs (Decidable (∀ answer ∈ log.answers, _))

/-- The `_preventClose` of a dialog. -/
def World.vetoes (w : World) (dialog : ℕ) : Bool :=
  (w.dialogs dialog).any (·.preventClose)

/-- A click does not come while another click on the same dialog is being
handled and has been vetoed. -/
def clickInTurn (s : World × ClickLog) : DialogCall → Bool
  | .notify window .buttonClicked _ _ =>
      match s.1.windows window with
      | some window =>
          !(s.2.pending.any (·.dialog = window.dialog) && s.1.vetoes window.dialog)
      | none => true
  | _ => true

/-- No error jumps over the handling of a vetoed click out of that of another
click on the same dialog. -/
def abandonedInTurn (frame : DialogFrame) (s : World × ClickLog) : Bool :=
  !(frame.call.isClick && s.2.pending.tail.any (·.dialog = frame.locals.self) &&
    s.1.vetoes frame.locals.self)

/-! ## The flag and the pending clicks -/

/-- The flag is the veto of the innermost click on the dialog, and the clicks
around that one have none. -/
def FlagOf (dialog : ℕ) (flag : Bool) : List PendingClick → Prop
  | [] => True
  | click :: rest =>
      if click.dialog = dialog then
        flag = click.vetoed ∧
          ∀ other ∈ rest, other.dialog = dialog → other.vetoed = false
      else FlagOf dialog flag rest

section FlagOf

variable {dialog other : ℕ} {flag : Bool} {pending : List PendingClick}

theorem map_dialog_vetoInnermost (dialog : ℕ) (pending : List PendingClick) :
    (vetoInnermost dialog pending).map (·.dialog) = pending.map (·.dialog) := by
  induction pending with
  | nil => rfl
  | cons click rest ih =>
      unfold vetoInnermost
      split
      · rfl
      · simp [ih]

theorem FlagOf.vetoInnermost
    (h : FlagOf dialog flag pending) :
    FlagOf dialog true (vetoInnermost dialog pending) := by
  induction pending with
  | nil => trivial
  | cons click rest ih =>
      unfold FlagOf at h
      unfold NekoScript.vetoInnermost
      by_cases hclick : click.dialog = dialog
      · rw [if_pos hclick] at h ⊢
        unfold FlagOf
        rw [if_pos hclick]
        exact ⟨rfl, h.2⟩
      · rw [if_neg hclick] at h ⊢
        unfold FlagOf
        rw [if_neg hclick]
        exact ih h

theorem mem_vetoInnermost_other
    {click : PendingClick} (hother : click.dialog ≠ dialog) :
    click ∈ vetoInnermost dialog pending ↔ click ∈ pending := by
  induction pending with
  | nil => rfl
  | cons first rest ih =>
      unfold vetoInnermost
      by_cases hfirst : first.dialog = dialog
      · have hne : click ≠ first := by
          rintro rfl
          exact hother hfirst
        have hne' : click ≠ { first with vetoed := true } := by
          rintro rfl
          exact hother hfirst
        rw [if_pos hfirst, List.mem_cons, List.mem_cons]
        simp only [hne, hne', false_or]
      · simp [hfirst, ih]

theorem FlagOf.vetoInnermost_other
    (hother : other ≠ dialog) (h : FlagOf other flag pending) :
    FlagOf other flag (NekoScript.vetoInnermost dialog pending) := by
  induction pending with
  | nil => trivial
  | cons click rest ih =>
      unfold FlagOf at h
      unfold NekoScript.vetoInnermost
      by_cases hclick : click.dialog = dialog
      · have hne : click.dialog ≠ other := by
          rintro rfl
          exact hother hclick
        rw [if_neg hne] at h
        rw [if_pos hclick]
        unfold FlagOf
        rw [if_neg hne]
        exact h
      · rw [if_neg hclick]
        unfold FlagOf
        by_cases hsame : click.dialog = other
        · rw [if_pos hsame] at h ⊢
          refine ⟨h.1, ?_⟩
          intro later hmem hlater
          have hne : later.dialog ≠ dialog := by rwa [hlater]
          exact h.2 later ((mem_vetoInnermost_other hne).mp hmem) hlater
        · rw [if_neg hsame] at h ⊢
          exact ih h

/-- With the flag down, no click on the dialog has been vetoed. -/
theorem flagOf_false_iff :
    FlagOf dialog false pending ↔
      ∀ click ∈ pending, click.dialog = dialog → click.vetoed = false := by
  induction pending with
  | nil => simp [FlagOf]
  | cons first rest ih =>
      rw [List.forall_mem_cons]
      unfold FlagOf
      by_cases hfirst : first.dialog = dialog
      · rw [if_pos hfirst]
        constructor
        · rintro ⟨hflag, hrest⟩
          exact ⟨fun _ => hflag.symm, hrest⟩
        · rintro ⟨hflag, hrest⟩
          exact ⟨(hflag hfirst).symm, hrest⟩
      · rw [if_neg hfirst, ih]
        constructor
        · intro hrest
          exact ⟨fun hsame => absurd hsame hfirst, hrest⟩
        · exact fun h => h.2

theorem flagOf_of_unclicked
    (h : ∀ click ∈ pending, click.dialog ≠ dialog) : FlagOf dialog flag pending := by
  induction pending with
  | nil => trivial
  | cons first rest ih =>
      unfold FlagOf
      rw [if_neg (h first List.mem_cons_self)]
      exact ih fun click hmem => h click (List.mem_cons_of_mem _ hmem)

end FlagOf

/-! ## The discipline -/

/-- The dialogs of the clicks on the stack, innermost first. -/
def clicks (stack : List DialogFrame) : List ℕ :=
  (stack.filter (·.call.isClick)).map (·.locals.self)

structure VetoInvariant (stack : List DialogFrame) (s : World × ClickLog) : Prop where
  answered : VetoesAnswered s.2
  pending : s.2.pending.map (·.dialog) = clicks stack
  fresh : ∀ dialog, s.1.nextDialog ≤ dialog → s.1.dialogs dialog = none
  known : ∀ click ∈ s.2.pending, click.dialog < s.1.nextDialog
  flags : ∀ self dialog, s.1.dialogs self = some dialog →
    FlagOf self dialog.preventClose s.2.pending

def closing : Discipline DialogCall DialogOp (NativeOp.Answer DialogEffect.Answer)
    DialogAction (World × ClickLog) DialogLocals where
  Inv := VetoInvariant
  Rely := fun _ _ => True
  rely_refl := fun _ => trivial
  rely_trans := fun _ _ => trivial
  mayEnter := fun _ s call => clickInTurn s call
  mayAnswer := fun _ _ _ _ => True
  mayAbandon := fun frame s => abandonedInTurn frame s
  mayExternal := fun _ _ _ => True

instance (stack : List DialogFrame) (s : World × ClickLog) (call : DialogCall) :
    Decidable (closing.mayEnter stack s call) :=
  inferInstanceAs (Decidable (clickInTurn s call = true))

instance (frame : DialogFrame) (s : World × ClickLog) (op : DialogOp)
    (answer : NativeOp.Answer DialogEffect.Answer op) :
    Decidable (closing.mayAnswer frame s op answer) :=
  inferInstanceAs (Decidable True)

instance (frame : DialogFrame) (s : World × ClickLog) :
    Decidable (closing.mayAbandon frame s) :=
  inferInstanceAs (Decidable (abandonedInTurn frame s = true))

instance (stack : List DialogFrame) (s : World × ClickLog) (action : DialogAction) :
    Decidable (closing.mayExternal stack s action) :=
  inferInstanceAs (Decidable True)

namespace CloseVeto

variable {ctx c : Context} {s s' entry : World × ClickLog} {l l' : DialogLocals}
  {below stack : List DialogFrame} {call : DialogCall}

theorem clicks_cons_click (hclick : call.isClick = true) :
    clicks (⟨call, l⟩ :: below) = l.self :: clicks below := by
  simp [clicks, hclick]

theorem clicks_cons_other (hother : call.isClick = false) :
    clicks (⟨call, l⟩ :: below) = clicks below := by
  simp [clicks, hother]

theorem clicks_cons_congr (hself : l'.self = l.self) :
    clicks (⟨call, l'⟩ :: below) = clicks (⟨call, l⟩ :: below) := by
  cases hclick : call.isClick with
  | true => rw [clicks_cons_click hclick, clicks_cons_click hclick, hself]
  | false => rw [clicks_cons_other hclick, clicks_cons_other hclick]

/-- Nothing happened that the invariant is about. -/
structure SameFlags (s s' : World × ClickLog) : Prop where
  flags : ∀ dialog, (s'.1.dialogs dialog).map (·.preventClose) =
    (s.1.dialogs dialog).map (·.preventClose)
  nextDialog : s'.1.nextDialog = s.1.nextDialog
  log : s'.2 = s.2

theorem SameFlags.of_dialogs
    (hdialogs : s'.1.dialogs = s.1.dialogs)
    (hnext : s'.1.nextDialog = s.1.nextDialog) (hlog : s'.2 = s.2) :
    SameFlags s s' := by
  refine ⟨?_, hnext, hlog⟩
  intro dialog
  rw [hdialogs]

theorem SameFlags.invariant
    (h : SameFlags s s') (hinv : VetoInvariant stack s) : VetoInvariant stack s' := by
  constructor
  · rw [h.log]
    exact hinv.answered
  · rw [h.log]
    exact hinv.pending
  · intro dialog hle
    rw [h.nextDialog] at hle
    have hnone := h.flags dialog
    rw [hinv.fresh dialog hle] at hnone
    simpa using hnone
  · rw [h.log, h.nextDialog]
    exact hinv.known
  · intro self dialog hdialog
    have hflag := h.flags self
    rw [hdialog, Option.map_some] at hflag
    obtain ⟨old, hold, hsame⟩ := Option.map_eq_some_iff.mp hflag.symm
    rw [h.log, ← hsame]
    exact hinv.flags self old hold

theorem invariant_congr
    (hinv : VetoInvariant stack s) {other : List DialogFrame}
    (hclicks : clicks other = clicks stack) : VetoInvariant other s :=
  ⟨hinv.answered, hinv.pending.trans hclicks.symm, hinv.fresh, hinv.known, hinv.flags⟩

theorem sameFlags_of_perform
    {w w' : World} {log : ClickLog} {e : DialogEffect} {answer : e.Answer}
    {dialog : Dialog}
    (hother : ∀ value, e ≠ .setPreventClose value)
    (hdialog : w.dialogs l.self = some dialog)
    (h : e.perform w l dialog = some (answer, w', l')) :
    SameFlags (w, log) (w', log) ∧ l'.self = l.self := by
  obtain ⟨new, hreplaced, _, hkept⟩ := exists_replaced hdialog h
  have hflag : new.preventClose = dialog.preventClose := hkept hother
  refine ⟨⟨?_, hreplaced.nextDialog, rfl⟩, hreplaced.self⟩
  intro other
  change (w'.dialogs other).map _ = (w.dialogs other).map _
  rw [hreplaced.dialogs]
  by_cases hself : other = l.self
  · subst other
    simp [hdialog, hflag]
  · simp [hself]

theorem sameFlags_recordExit (s : World × ClickLog) (l : DialogLocals) :
    SameFlags s (s.1.recordExit l, s.2) := by
  unfold World.recordExit
  split
  · exact .of_dialogs rfl rfl rfl
  · exact .of_dialogs rfl rfl rfl

theorem sameFlags_recordCall
    (s : World × ClickLog) (l : DialogLocals) (dialog : Dialog) (op : StackOp) :
    SameFlags s (s.1.recordCall l dialog op, s.2) := by
  unfold World.recordCall
  split
  · split
    · exact .of_dialogs rfl rfl rfl
    · exact .of_dialogs rfl rfl rfl
  · exact .of_dialogs rfl rfl rfl

/-! ## Clicks that end -/

theorem exists_pending
    (hinv : VetoInvariant (⟨call, l⟩ :: below) s) (hclick : call.isClick = true) :
    ∃ vetoed rest, s.2.pending = ⟨l.self, vetoed⟩ :: rest ∧
      rest.map (·.dialog) = clicks below := by
  have hpending := hinv.pending
  rw [clicks_cons_click hclick] at hpending
  obtain ⟨click, rest, hlist, hdialog, hrest⟩ := List.map_eq_cons_iff.mp hpending
  exact ⟨click.vetoed, rest, by rw [hlist, ← hdialog], hrest⟩

/-- What remains when a click is taken off the pending ones. -/
theorem invariant_popped
    {w : World} {vetoed : Bool} {rest : List PendingClick}
    {answers : List ClickAnswer}
    (hinv : VetoInvariant (⟨call, l⟩ :: below) s)
    (hpending : s.2.pending = ⟨l.self, vetoed⟩ :: rest)
    (hrest : rest.map (·.dialog) = clicks below)
    (hothers : ∀ other, other ≠ l.self → w.dialogs other = s.1.dialogs other)
    (hnext : w.nextDialog = s.1.nextDialog)
    (hanswered : VetoesAnswered ⟨rest, answers⟩)
    (hflag : ∀ dialog, w.dialogs l.self = some dialog →
      FlagOf l.self dialog.preventClose rest) :
    VetoInvariant below (w, ⟨rest, answers⟩) := by
  have hknown := hinv.known
  rw [hpending] at hknown
  have hself : l.self < s.1.nextDialog := hknown _ List.mem_cons_self
  refine ⟨hanswered, hrest, ?_, ?_, ?_⟩
  · intro dialog (hle : w.nextDialog ≤ dialog)
    have hne : dialog ≠ l.self := by omega
    exact (hothers dialog hne).trans (hinv.fresh dialog (hnext ▸ hle))
  · intro click hmem
    change click.dialog < w.nextDialog
    rw [hnext]
    exact hknown click (List.mem_cons_of_mem _ hmem)
  · intro self dialog hdialog
    by_cases heq : self = l.self
    · subst heq
      exact hflag dialog hdialog
    · have hflags := hinv.flags self dialog ((hothers self heq).symm.trans hdialog)
      rw [hpending] at hflags
      unfold FlagOf at hflags
      rw [if_neg (Ne.symm heq)] at hflags
      exact hflags

/-- The flag of the dialog whose click is innermost. -/
theorem flag_of_pending
    (hinv : VetoInvariant stack s) {self : ℕ} {vetoed : Bool}
    {rest : List PendingClick} (hpending : s.2.pending = ⟨self, vetoed⟩ :: rest)
    {dialog : Dialog} (hdialog : s.1.dialogs self = some dialog) :
    dialog.preventClose = vetoed ∧
      ∀ click ∈ rest, click.dialog = self → click.vetoed = false := by
  have hflags := hinv.flags self dialog hdialog
  rw [hpending] at hflags
  unfold FlagOf at hflags
  rw [if_pos rfl] at hflags
  exact hflags

theorem invariant_abandon
    (hinv : VetoInvariant (⟨call, l⟩ :: below) s)
    (hmay : abandonedInTurn ⟨call, l⟩ s = true) :
    VetoInvariant below ((clickHost ctx).abandon ⟨call, l⟩ s) := by
  cases hclick : call.isClick with
  | false =>
      have hlog : (clickHost ctx).abandon ⟨call, l⟩ s = (s.1.recordExit l, s.2) := by
        simp [clickHost, Host.observe, clickObserver, taskDialogHost, hclick]
      rw [hlog]
      apply (sameFlags_recordExit s l).invariant
      exact invariant_congr hinv (clicks_cons_other hclick).symm
  | true =>
      obtain ⟨vetoed, rest, hpending, hrest⟩ := exists_pending hinv hclick
      have hlog : (clickHost ctx).abandon ⟨call, l⟩ s =
          (s.1.recordExit l, ⟨rest, s.2.answers⟩) := by
        simp [clickHost, Host.observe, clickObserver, taskDialogHost, hclick, hpending]
      rw [hlog]
      apply (sameFlags_recordExit (s.1, ⟨rest, s.2.answers⟩) l).invariant
      apply invariant_popped hinv hpending hrest (fun _ _ => rfl) rfl hinv.answered
      intro dialog hdialog
      obtain ⟨hflag, hothers⟩ := flag_of_pending hinv hpending hdialog
      cases hveto : dialog.preventClose with
      | false => exact flagOf_false_iff.mpr hothers
      | true =>
          apply flagOf_of_unclicked
          intro click hmem hsame
          have hvetoes : s.1.vetoes l.self = true := by
            simp [World.vetoes, hdialog, hveto]
          simp [abandonedInTurn, hclick, hpending, hvetoes] at hmay
          exact hmay click hmem hsame

/-! ## What activations keep -/

def Running (below : List DialogFrame) (call : DialogCall) (s : World × ClickLog)
    (l : DialogLocals) : Prop :=
  VetoInvariant (⟨call, l⟩ :: below) s

theorem Running.same
    (h : Running below call s l) (hsame : SameFlags s s') (hself : l'.self = l.self) :
    Running below call s' l' :=
  invariant_congr (hsame.invariant h) (clicks_cons_congr hself)

theorem stable_running :
    closing.Stable (clickHost ctx) below call entry (Running below call) where
  inv := fun _ _ h => h
  rely := fun _ _ _ _ _ hinv => hinv
  abandon := fun _ _ h hmay => ⟨invariant_abandon h hmay, trivial⟩

theorem keeps_stack (op : StackOp) :
    closing.Keeps (clickHost ctx) call (Running below call) (.stack c op) := by
  constructor
  · intro _ answer s l s' l' h hdone _
    obtain ⟨hresume, hlog⟩ := Host.of_observe_resume hdone
    obtain ⟨hw, frame, rfl⟩ := of_resume_stack hresume
    exact h.same (.of_dialogs (by rw [hw]) (by rw [hw]) hlog) rfl
  · intro _ answer s l s' l' h hdone
    obtain ⟨heffect, hlog⟩ := Host.of_observe_effect hdone
    obtain ⟨dialog, frame, _, _, hw, rfl⟩ := of_effect_stack heffect
    have hs' : s' = (s.1.recordCall l dialog op, s.2) := Prod.ext hw hlog
    rw [hs']
    exact h.same (sameFlags_recordCall s l dialog op) rfl

theorem of_effect_setPreventClose
    {value : Bool} {answer : Unit}
    (hdone : (clickHost ctx).effect (.effect (.setPreventClose value)) s l =
      some (answer, s', l')) :
    l' = l ∧ ∃ dialog, s.1.dialogs l.self = some dialog ∧
      s' = (s.1.setDialog l.self { dialog with preventClose := value },
        clickObserver.effect (.effect (.setPreventClose value)) l s.2) := by
  obtain ⟨heffect, hlog⟩ := Host.of_observe_effect hdone
  obtain ⟨dialog, hdialog, hperform⟩ := of_effect_effect heffect
  simp only [DialogEffect.perform, Option.some.injEq, Prod.mk.injEq] at hperform
  obtain ⟨_, hw, hl⟩ := hperform
  exact ⟨hl.symm, dialog, hdialog, Prod.ext hw.symm hlog⟩

/-- `preventClose` is called during the innermost click on its dialog. -/
theorem Running.vetoed
    {dialog : Dialog} (h : Running below call s l)
    (hdialog : s.1.dialogs l.self = some dialog) :
    Running below call
      (s.1.setDialog l.self { dialog with preventClose := true },
        { s.2 with pending := vetoInnermost l.self s.2.pending }) l := by
  have hmap := map_dialog_vetoInnermost l.self s.2.pending
  refine ⟨h.answered, hmap.trans h.pending, ?_, ?_, ?_⟩
  · intro other (hle : s.1.nextDialog ≤ other)
    have hnone := h.fresh other hle
    have hne : other ≠ l.self := by
      rintro rfl
      rw [hdialog] at hnone
      contradiction
    simpa [World.setDialog, hne] using hnone
  · intro click hmem
    have hdialogs : click.dialog ∈ s.2.pending.map (·.dialog) := by
      rw [← hmap]
      exact List.mem_map_of_mem hmem
    obtain ⟨old, hold, hsame⟩ := List.mem_map.mp hdialogs
    rw [← hsame]
    exact h.known old hold
  · intro self new hnew
    by_cases hself : self = l.self
    · subst hself
      simp only [World.setDialog, Function.update_self, Option.some.injEq] at hnew
      subst hnew
      exact (h.flags l.self dialog hdialog).vetoInnermost
    · simp only [World.setDialog, Function.update_of_ne hself] at hnew
      exact (h.flags self new hnew).vetoInnermost_other hself

/-- Only the click itself clears the flag. -/
theorem keeps_effect (e : DialogEffect) (hclears : e ≠ .setPreventClose false) :
    closing.Keeps (clickHost ctx) call (Running below call) (.effect e) := by
  constructor
  · intro _ answer s l s' l' h hdone _
    obtain ⟨hresume, hlog⟩ := Host.of_observe_resume hdone
    rcases of_resume_effect hresume with ⟨hw, rfl⟩ | ⟨_, hw, rfl⟩
    · exact h.same (.of_dialogs (by rw [hw]) (by rw [hw]) hlog) rfl
    · exact h.same (.of_dialogs (by rw [hw]; rfl) (by rw [hw]; rfl) hlog) rfl
  · intro _ answer s l s' l' h hdone
    by_cases hsets : e = .setPreventClose true
    · subst hsets
      obtain ⟨rfl, dialog, hdialog, hs'⟩ := of_effect_setPreventClose hdone
      rw [hs']
      exact h.vetoed hdialog
    · obtain ⟨heffect, hlog⟩ := Host.of_observe_effect hdone
      obtain ⟨dialog, hdialog, hperform⟩ := of_effect_effect heffect
      have hother : ∀ value, e ≠ .setPreventClose value := by
        intro value
        cases value with
        | true => exact hsets
        | false => exact hclears
      have hkept : s'.2 = s.2 := by
        rw [hlog]
        cases e with
        | setPreventClose value => exact absurd rfl (hother value)
        | _ => rfl
      obtain ⟨hsame, hself⟩ := sameFlags_of_perform hother hdialog hperform
      have hs' : s' = (s'.1, s.2) := Prod.ext rfl hkept
      rw [hs']
      exact h.same hsame hself

theorem meets_running
    {α : Type} {p : DialogProgram α}
    (hp : p.All (closing.Keeps (clickHost ctx) call (Running below call)))
    (h : Running below call s l) :
    closing.Meets (clickHost ctx) below call entry (fun _ => Running below call)
      p s l :=
  .of_all stable_running hp h

/-! ## The handling of a click -/

/-- A click that was just delivered, and has not cleared the flag yet. -/
structure Started (below : List DialogFrame) (rest : List PendingClick)
    (s : World × ClickLog) (l : DialogLocals) : Prop where
  pending : s.2.pending = ⟨l.self, false⟩ :: rest
  around : VetoInvariant below (s.1, ⟨rest, s.2.answers⟩)
  unvetoed : ∀ click ∈ rest, click.dialog = l.self → click.vetoed = false
  self_lt : l.self < s.1.nextDialog

/-- The flag is cleared for the click. -/
theorem Started.running
    {rest : List PendingClick} {dialog : Dialog}
    (h : Started below rest s l) (hclick : call.isClick = true) :
    Running below call
      (s.1.setDialog l.self { dialog with preventClose := false }, s.2) l := by
  refine ⟨h.around.answered, ?_, ?_, ?_, ?_⟩
  · rw [clicks_cons_click hclick, h.pending, List.map_cons]
    exact congrArg _ h.around.pending
  · intro other (hle : s.1.nextDialog ≤ other)
    have hself := h.self_lt
    have hne : other ≠ l.self := by omega
    have hnone : s.1.dialogs other = none := h.around.fresh other hle
    simpa [World.setDialog, hne] using hnone
  · intro click hmem
    rw [h.pending] at hmem
    rcases List.mem_cons.mp hmem with rfl | hrest
    · exact h.self_lt
    · exact h.around.known click hrest
  · intro self new hnew
    rw [h.pending]
    unfold FlagOf
    by_cases hself : self = l.self
    · subst hself
      simp only [World.setDialog, Function.update_self, Option.some.injEq] at hnew
      subst hnew
      rw [if_pos rfl]
      exact ⟨rfl, h.unvetoed⟩
    · simp only [World.setDialog, Function.update_of_ne hself] at hnew
      rw [if_neg (Ne.symm hself)]
      exact h.around.flags self new hnew

/-- The click is answered by what the flag is. -/
theorem Running.left
    {w : World} {dialog new : Dialog} {result : ℤ}
    (h : Running below call s l) (hclick : call.isClick = true)
    (hdialog : s.1.dialogs l.self = some dialog)
    (hothers : ∀ other, other ≠ l.self → w.dialogs other = s.1.dialogs other)
    (hnext : w.nextDialog = s.1.nextDialog)
    (hnew : w.dialogs l.self = some new) (hcleared : new.preventClose = false)
    (hresult : result = sFalse ↔ dialog.preventClose = true) :
    closing.Left (clickHost ctx) below call entry result (w, s.2) l := by
  obtain ⟨vetoed, rest, hpending, hrest⟩ := exists_pending h hclick
  obtain ⟨hflag, hothersFlag⟩ := flag_of_pending h hpending hdialog
  have hleave : (clickHost ctx).leave ⟨call, l⟩ result (w, s.2) =
      (w.recordExit l, ⟨rest, ⟨l.self, vetoed, result⟩ :: s.2.answers⟩) := by
    simp [clickHost, Host.observe, clickObserver, taskDialogHost, hclick, hpending]
  refine ⟨?_, trivial⟩
  rw [hleave]
  apply (sameFlags_recordExit
    (w, ⟨rest, ⟨l.self, vetoed, result⟩ :: s.2.answers⟩) l).invariant
  apply invariant_popped h hpending hrest hothers hnext
  · intro answer hmem
    rcases List.mem_cons.mp hmem with rfl | hold
    · exact hresult.trans (by rw [hflag])
    · exact h.answered answer hold
  · intro kept hkept
    have heq : kept = new := Option.some.inj (hkept.symm.trans hnew)
    rw [heq, hcleared]
    exact flagOf_false_iff.mpr hothersFlag

theorem keeps_started
    {rest : List PendingClick} {op : StackOp} (hawaits : op.awaits = false)
    (hcalls : op.calls = false) :
    (clickHost ctx).awaits (.stack c op) = false ∧
      closing.Keeps (clickHost ctx) call (Started below rest) (.stack c op) := by
  refine ⟨hawaits, ?_, ?_⟩
  · intro hwaits
    change op.awaits = true at hwaits
    rw [hawaits] at hwaits
    contradiction
  · intro _ answer s l s' l' h hdone
    obtain ⟨heffect, hlog⟩ := Host.of_observe_effect hdone
    obtain ⟨dialog, frame, _, _, hw, rfl⟩ := of_effect_stack heffect
    rw [recordCall_eq hcalls] at hw
    have hs' : s' = s := Prod.ext hw hlog
    rw [hs']
    exact ⟨h.pending, h.around, h.unvetoed, h.self_lt⟩

theorem meets_cleared
    {rest : List PendingClick} (h : Started below rest s l)
    (hclick : call.isClick = true) :
    closing.Meets (clickHost ctx) below call entry (fun _ => Running below call)
      (do putEmitOnStack c
          stackOp c .pushThis
          NKWinTaskDialog.perform (.setPreventClose false)) s l := by
  have hput : (putEmitOnStack c : DialogProgram Unit).All fun op =>
      (clickHost ctx).awaits op = false ∧
        closing.Keeps (clickHost ctx) call (Started below rest) op :=
    ⟨keeps_started rfl rfl, fun _ => ⟨keeps_started rfl rfl, fun _ =>
      ⟨keeps_started rfl rfl, fun _ => ⟨keeps_started rfl rfl, fun _ => trivial⟩⟩⟩⟩
  have hpush : (stackOp c .pushThis : DialogProgram Unit).All fun op =>
      (clickHost ctx).awaits op = false ∧
        closing.Keeps (clickHost ctx) call (Started below rest) op :=
    ⟨keeps_started rfl rfl, fun _ => trivial⟩
  apply (Discipline.Meets.of_silent hput h).bind
  intro _ s l h
  apply (Discipline.Meets.of_silent hpush h).bind
  intro _ s l h
  apply Discipline.Meets.silent rfl
  intro _ s' l' hdone
  obtain ⟨rfl, dialog, _, hs'⟩ := of_effect_setPreventClose hdone
  rw [hs']
  exact h.running hclick

/-- The end of the handling, at which the flag is read and cleared. -/
theorem meets_answer (h : Running below call s l) (hclick : call.isClick = true) :
    closing.Meets (clickHost ctx) below call entry
      (closing.Left (clickHost ctx) below call entry)
      (do let self : Dialog ← NKWinTaskDialog.perform .self
          if self.preventClose then
            NKWinTaskDialog.perform (.setPreventClose false)
            pure sFalse
          else pure sOk) s l := by
  apply Discipline.Meets.silent rfl
  intro self s₁ l₁ hdone
  obtain ⟨heffect, hlog⟩ := Host.of_observe_effect hdone
  obtain ⟨dialog, hdialog, hperform⟩ := of_effect_effect heffect
  simp only [DialogEffect.perform, Option.some.injEq, Prod.mk.injEq] at hperform
  obtain ⟨rfl, hw, rfl⟩ := hperform
  have hs₁ : s₁ = s := Prod.ext hw.symm hlog
  subst hs₁
  cases hveto : dialog.preventClose with
  | false =>
      simp only [hveto, Bool.false_eq_true, if_false, Program.pure_bind]
      have hresult : sOk = sFalse ↔ dialog.preventClose = true := by
        simp [hveto, sOk, sFalse]
      exact h.left hclick hdialog (fun _ _ => rfl) rfl hdialog hveto hresult
  | true =>
      simp only [hveto, if_true, Program.pure_bind]
      apply Discipline.Meets.silent rfl
      intro _ s₂ l₂ hdone
      obtain ⟨hl, same, _, hs₂⟩ := of_effect_setPreventClose hdone
      rw [hs₂, hl]
      have hresult : sFalse = sFalse ↔ dialog.preventClose = true := by
        simp [hveto]
      have hnew : (s₁.1.setDialog l.self { same with preventClose := false }).dialogs
          l.self = some { same with preventClose := false } :=
        Function.update_self _ _ _
      exact h.left hclick hdialog (fun _ hne => Function.update_of_ne hne _ _) rfl
        hnew rfl hresult

theorem meets_click
    {rest : List PendingClick} (handle wParam : ℕ) (lParam : List UInt16)
    (hclick : call.isClick = true) (h : Started below rest s l) :
    closing.Meets (clickHost ctx) below call entry
      (closing.Left (clickHost ctx) below call entry)
      (NKWinTaskDialog.callback c handle .buttonClicked wParam lParam) s l := by
  have hemit : (NKWinTaskDialog.emit c "buttonClicked"
      [NKWinTaskDialog.clickedButton wParam]).All
      (closing.Keeps (clickHost ctx) call (Running below call)) :=
    NKWinTaskDialog.all_emit keeps_stack _ _
  apply (meets_cleared h hclick).bind
  intro _ s l h
  apply (meets_running hemit h).bind
  exact fun _ _ _ h => meets_answer h hclick

/-! ## Everything else -/

theorem left_of_running (h : Running below call s l) (hother : call.isClick = false)
    (result : ℤ) :
    closing.Left (clickHost ctx) below call entry result s l := by
  have hleave : (clickHost ctx).leave ⟨call, l⟩ result s = (s.1.recordExit l, s.2) := by
    simp [clickHost, Host.observe, clickObserver, taskDialogHost, hother]
  refine ⟨?_, trivial⟩
  rw [hleave]
  apply (sameFlags_recordExit s l).invariant
  exact invariant_congr h (clicks_cons_other hother).symm

theorem all_callback
    (handle : ℕ) (notification : Notification) (wParam : ℕ) (lParam : List UInt16)
    (hother : notification ≠ .buttonClicked) :
    (NKWinTaskDialog.callback c handle notification wParam lParam).All
      (closing.Keeps (clickHost ctx) call (Running below call)) :=
  NKWinTaskDialog.all_callback keeps_stack (keeps_effect _ nofun)
    (fun _ _ => keeps_effect _ nofun) handle notification wParam lParam
    (fun h => absurd h hother) (fun _ => keeps_effect _ nofun)
    (fun _ => ⟨keeps_effect _ nofun, fun _ => keeps_effect _ nofun⟩)

theorem all_taskDialogIndirect :
    (NKWinTaskDialog.taskDialogIndirect c).All
      (closing.Keeps (clickHost ctx) call (Running below call)) := by
  refine ⟨keeps_effect _ nofun, ?_⟩
  intro created
  cases created with
  | error hr => exact trivial
  | ok window =>
      apply Program.All.bind (all_callback window .dialogConstructed 0 [] nofun)
      exact fun _ => NKWinTaskDialog.all_perform (keeps_effect _ nofun)

theorem all_createConfig :
    (NKWinTaskDialog.createConfig c).All
      (closing.Keeps (clickHost ctx) call (Running below call)) :=
  NKWinTaskDialog.all_createConfig (fun op _ => keeps_stack op)
    (fun _ => keeps_effect _ nofun) (fun _ _ _ => keeps_effect _ nofun)
    (keeps_effect _ nofun) (fun _ _ => keeps_effect _ nofun) (keeps_effect _ nofun)

theorem all_freeRuntime_checkResult (result : ℤ) (function : String) :
    (NKWinTaskDialog.freeRuntime >>= fun _ =>
        NKWinTaskDialog.checkResult c result function).All
      (closing.Keeps (clickHost ctx) call (Running below call)) :=
  NKWinTaskDialog.all_freeRuntime_checkResult (fun op _ => keeps_stack op)
    (fun _ => keeps_effect _ nofun) result function

theorem all_showDialog :
    (NKWinTaskDialog.showDialog c).All
      (closing.Keeps (clickHost ctx) call (Running below call)) := by
  refine ⟨keeps_effect _ nofun, ?_⟩
  intro self
  simp only [Program.pure_bind]
  split
  · exact ⟨keeps_effect _ nofun, fun _ => trivial⟩
  · apply Program.All.bind all_createConfig
    intro _
    apply Program.All.bind all_taskDialogIndirect
    exact fun _ => all_freeRuntime_checkResult _ _

theorem all_navigate :
    (NKWinTaskDialog.navigate c).All
      (closing.Keeps (clickHost ctx) call (Running below call)) := by
  refine ⟨keeps_effect _ nofun, ?_⟩
  intro self
  simp only [Program.pure_bind]
  split
  · exact all_showDialog
  · apply Program.All.bind all_createConfig
    intro _
    refine ⟨keeps_effect _ nofun, fun self => ⟨keeps_effect _ nofun, fun _ => ?_⟩⟩
    exact all_freeRuntime_checkResult _ _

theorem all_method (m : DialogMethod) :
    (m.body c).All (closing.Keeps (clickHost ctx) call (Running below call)) := by
  cases m with
  | showDialog => exact all_showDialog
  | navigate => exact all_navigate
  | preventClose => exact ⟨keeps_effect _ nofun, fun _ => trivial⟩
  | enableButton =>
      exact NKWinTaskDialog.all_enableButton (fun op _ => keeps_stack op)
        (keeps_effect _ nofun) fun _ _ => keeps_effect _ nofun
  | enableRadioButton =>
      exact NKWinTaskDialog.all_enableRadioButton (fun op _ => keeps_stack op)
        (keeps_effect _ nofun) fun _ _ => keeps_effect _ nofun

theorem meets_other
    (hp : (call.body ctx).All
      (closing.Keeps (clickHost ctx) call (Running below call)))
    (hinv : VetoInvariant below s) (hother : call.isClick = false) :
    closing.Meets (clickHost ctx) below call entry
      (closing.Left (clickHost ctx) below call entry) (call.body ctx) s l := by
  have hrunning : Running below call s l :=
    invariant_congr hinv (clicks_cons_other hother)
  apply (meets_running hp hrunning).mono
  exact fun result _ _ h => left_of_running h hother result

/-! ## Soundness -/

theorem of_enter
    {awaited : Option DialogOp}
    (h : (clickHost ctx).enter s below awaited call = some (s', l)) :
    call.enter s.1 below awaited = some (s'.1, l) ∧
      s'.2 = clickObserver.enter call l s.2 :=
  Host.of_observe_enter h

theorem started_of_inTurn
    {window dialog wParam : ℕ} {lParam : List UInt16} (hinv : VetoInvariant below s)
    (hwindow : s.1.windows window = some ⟨dialog, true⟩)
    (hself : (s.1.dialogs dialog).isSome) (hl : l.self = dialog)
    (hmay : clickInTurn s (.notify window .buttonClicked wParam lParam) = true) :
    Started below s.2.pending
      (s.1, { s.2 with pending := ⟨dialog, false⟩ :: s.2.pending }) l := by
  subst hl
  obtain ⟨old, hold⟩ := Option.isSome_iff_exists.mp hself
  refine ⟨rfl, hinv, ?_, ?_⟩
  · intro click hmem hclick
    have hflags := hinv.flags l.self old hold
    cases hveto : old.preventClose with
    | false =>
        rw [hveto] at hflags
        exact flagOf_false_iff.mp hflags click hmem hclick
    | true =>
        have hvetoes : s.1.vetoes l.self = true := by
          simp [World.vetoes, hold, hveto]
        simp [clickInTurn, hwindow, hvetoes] at hmay
        exact absurd hclick (hmay click hmem)
  · change l.self < s.1.nextDialog
    by_contra hge
    have hnone := hinv.fresh l.self (by omega)
    rw [hold] at hnone
    contradiction

theorem sound_notify
    {awaited : Option DialogOp} {window wParam : ℕ} {notification : Notification}
    {lParam : List UInt16} (hinv : VetoInvariant below s)
    (hmay : clickInTurn s (.notify window notification wParam lParam) = true)
    (henter : (clickHost ctx).enter s below awaited
      (.notify window notification wParam lParam) = some (s', l)) :
    closing.Meets (clickHost ctx) below
      (.notify window notification wParam lParam) s'
      (closing.Left (clickHost ctx) below
        (.notify window notification wParam lParam) s')
      (NKWinTaskDialog.callback ctx window notification wParam lParam) s' l := by
  obtain ⟨hentered, hlog⟩ := of_enter henter
  obtain ⟨dialog, top, rest, rfl, hwindow, hw, rfl, hself⟩ := of_enter_notify hentered
  by_cases hclick : notification = .buttonClicked
  · subst hclick
    have hs' : s' = (s.1, { s.2 with pending := ⟨dialog, false⟩ :: s.2.pending }) :=
      Prod.ext hw hlog
    have hstarted : Started (top :: rest) s.2.pending s'
        ⟨dialog, top.locals.this, [], none, []⟩ := by
      rw [hs']
      exact started_of_inTurn hinv hwindow hself rfl hmay
    exact meets_click window wParam lParam rfl hstarted
  · have hother : (DialogCall.notify window notification wParam lParam).isClick =
        false := by
      cases notification <;> first | rfl | contradiction
    have hsame : SameFlags s s' := by
      have hkept : s'.2 = s.2 := by simp [hlog, clickObserver, hother]
      cases notification <;> exact .of_dialogs (by rw [hw]; rfl) (by rw [hw]; rfl) hkept
    exact meets_other (all_callback window notification wParam lParam hclick)
      (hsame.invariant hinv) hother

theorem sound_enter
    {awaited : Option DialogOp} (hinv : VetoInvariant below s)
    (hmay : closing.mayEnter below s call)
    (henter : (clickHost ctx).enter s below awaited call = some (s', l)) :
    closing.Rely s s' ∧
      closing.Meets (clickHost ctx) below call s'
        (closing.Left (clickHost ctx) below call s') ((clickHost ctx).body call)
        s' l := by
  refine ⟨trivial, ?_⟩
  cases call with
  | method m this self args =>
      obtain ⟨hentered, hlog⟩ := of_enter henter
      obtain ⟨hw, rfl, _⟩ := of_enter_method hentered
      have hs' : s' = s := Prod.ext hw hlog
      subst hs'
      exact meets_other (all_method m) hinv rfl
  | notify window notification wParam lParam => exact sound_notify hinv hmay henter
  | other this =>
      obtain ⟨hentered, hlog⟩ := of_enter henter
      obtain ⟨hw, rfl⟩ := of_enter_other hentered
      have hs' : s' = s := Prod.ext hw hlog
      subst hs'
      exact meets_other ⟨keeps_effect .pump nofun, fun _ => trivial⟩ hinv rfl

theorem sound_external
    {action : DialogAction} (hinv : VetoInvariant stack s)
    (haction : (clickHost ctx).external s action = some s') :
    VetoInvariant stack s' ∧ closing.Rely s s' := by
  refine ⟨?_, trivial⟩
  simp only [clickHost, Host.observe, taskDialogHost, Option.map_eq_some_iff] at haction
  obtain ⟨w, haction, rfl⟩ := haction
  cases action with
  | construct object =>
      simp only [DialogAction.perform, Option.some.injEq] at haction
      subst w
      refine ⟨hinv.answered, hinv.pending, ?_, ?_, ?_⟩
      · intro dialog (hle : s.1.nextDialog + 1 ≤ dialog)
        have hne : dialog ≠ s.1.nextDialog := by omega
        simpa [hne] using hinv.fresh dialog (by omega)
      · intro click hmem
        have hlt := hinv.known click hmem
        change click.dialog < s.1.nextDialog + 1
        omega
      · intro self new hnew
        by_cases hself : self = s.1.nextDialog
        · subst hself
          apply flagOf_of_unclicked
          intro click hmem
          exact (hinv.known click hmem).ne
        · simp only [Function.update_of_ne hself] at hnew
          exact hinv.flags self new hnew
  | destroy dialog =>
      simp only [DialogAction.perform, Option.map_eq_some_iff] at haction
      obtain ⟨_, _, rfl⟩ := haction
      refine ⟨hinv.answered, hinv.pending, ?_, hinv.known, ?_⟩
      · intro other hle
        have hnone : s.1.dialogs other = none := hinv.fresh other hle
        simp [Function.update_apply, World.assertRuntime, hnone]
      · intro self new hnew
        by_cases hself : self = dialog
        · simp [hself] at hnew
        · simp only [Function.update_of_ne hself] at hnew
          exact hinv.flags self new hnew

theorem sound : closing.Sound (clickHost ctx) where
  enter := fun _ _ _ _ _ _ => sound_enter
  external := fun _ _ _ _ hinv _ => sound_external hinv

end CloseVeto

/-- Every run of the dialogs is one in which the clicks are written down. -/
theorem exists_clickLog
    {ctx : Context} {choices : List DialogChoice} {s : DialogState}
    (hrun : run (taskDialogHost ctx).step ⟨World.initial, []⟩ choices = some s) :
    ∃ log, run (clickHost ctx).step ⟨(World.initial, ClickLog.empty), []⟩ choices =
      some ⟨(s.world, log), s.stack⟩ :=
  Host.exists_run_observe hrun ClickLog.empty

/-- In a run in which no click takes the veto of another one away, and no
error leaves one behind, every click is answered by its own veto. -/
theorem vetoesAnswered_of_inTurn
    {ctx : Context} {choices : List DialogChoice}
    {s : State DialogCall DialogOp (NativeOp.Answer DialogEffect.Answer) ℤ
      (World × ClickLog) DialogLocals}
    (hrun : GuardedRun (clickHost ctx).step (closing.Guard (clickHost ctx))
      ⟨(World.initial, ClickLog.empty), []⟩ choices s) :
    VetoesAnswered s.world.2 := by
  have hinit : VetoInvariant [] (World.initial, ClickLog.empty) := by
    constructor
    · simp [VetoesAnswered, ClickLog.empty]
    · rfl
    · simp [World.initial]
    · simp [ClickLog.empty]
    · simp [World.initial]
  exact (CloseVeto.sound.inv_of_guardedRun hinit hrun).answered

/-- A click and another one nested in it, of which only the second is vetoed. -/
theorem vetoesAnswered_nestedVeto :
    ∃ s, run (clickHost 0).step ⟨(World.initial, ClickLog.empty), []⟩
        (.external (.construct 10) :: openDialog 10 0 0 ++
          [.enter (.notify 0 .buttonClicked 1000 []),
            .enter (.other (.object 10)),
            .enter (.notify 0 .buttonClicked 1001 []),
            .enter (.method .preventClose (.object 10) 0 []),
            .answer (calmAnswer (fun _ => .undefined) 0),
            .answer (calmAnswer (fun _ => .undefined) 0),
            .answer (calmAnswer (fun _ => .undefined) 0)]) = some s ∧
      s.world.2.answers = [⟨0, false, sOk⟩, ⟨0, true, sFalse⟩] ∧
      VetoesAnswered s.world.2 := by
  have hchecked : ((checkedRun (clickHost 0).step (closing.Guard (clickHost 0))
      ⟨(World.initial, ClickLog.empty), []⟩
      (.external (.construct 10) :: openDialog 10 0 0 ++
        [.enter (.notify 0 .buttonClicked 1000 []),
          .enter (.other (.object 10)),
          .enter (.notify 0 .buttonClicked 1001 []),
          .enter (.method .preventClose (.object 10) 0 []),
          .answer (calmAnswer (fun _ => .undefined) 0),
          .answer (calmAnswer (fun _ => .undefined) 0),
          .answer (calmAnswer (fun _ => .undefined) 0)])).map
      fun s => s.world.2.answers) = some [⟨0, false, sOk⟩, ⟨0, true, sFalse⟩] := by
    decide +kernel
  obtain ⟨s, hs, hanswers⟩ := Option.map_eq_some_iff.mp hchecked
  have hrun := GuardedRun.of_checkedRun hs
  exact ⟨s, hrun.run_eq, hanswers, vetoesAnswered_of_inTurn hrun⟩

/-- A click is vetoed, and then another one on the same dialog comes while a
modal loop runs in the handler. -/
theorem not_vetoesAnswered_of_nestedClick :
    ∃ s, run (clickHost 0).step ⟨(World.initial, ClickLog.empty), []⟩
        (.external (.construct 10) :: openDialog 10 0 0 ++
          [.enter (.notify 0 .buttonClicked 1000 []),
            .enter (.method .preventClose (.object 10) 0 []),
            .enter (.other (.object 10)),
            .enter (.notify 0 .buttonClicked 1001 []),
            .answer (calmAnswer (fun _ => .undefined) 0),
            .answer (calmAnswer (fun _ => .undefined) 0),
            .answer (calmAnswer (fun _ => .undefined) 0)]) = some s ∧
      ¬ VetoesAnswered s.world.2 := by
  have hrun : ((run (clickHost 0).step ⟨(World.initial, ClickLog.empty), []⟩
      (.external (.construct 10) :: openDialog 10 0 0 ++
        [.enter (.notify 0 .buttonClicked 1000 []),
          .enter (.method .preventClose (.object 10) 0 []),
          .enter (.other (.object 10)),
          .enter (.notify 0 .buttonClicked 1001 []),
          .answer (calmAnswer (fun _ => .undefined) 0),
          .answer (calmAnswer (fun _ => .undefined) 0),
          .answer (calmAnswer (fun _ => .undefined) 0)])).map
      fun s => decide (VetoesAnswered s.world.2)) = some false := by
    decide +kernel
  obtain ⟨s, hs, hfalse⟩ := Option.map_eq_some_iff.mp hrun
  exact ⟨s, hs, of_decide_eq_false hfalse⟩

end NekoScript
