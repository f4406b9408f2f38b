import NekoScript.ReentrantCalls
import Mathlib.Tactic

/-!
# What an activation does to its own state

The locals of an activation are its own: nothing that is entered above it, and
no action of the environment, changes them.  What holds of them when it is left
can therefore be said about its program alone, with the world arbitrary at each
operation, and then holds in every run.
-/

namespace ReentrantCalls

open Programs GuardedRuns

variable {Call Op : Type} {Answer : Op → Type}
  {Result External World Locals : Type}

namespace Host

variable (host : Host Call Op Answer Result External World Locals)

/-- An operation is performed, by the host or by the environment. -/
def Performs (op : Op) (w : World) (l : Locals) (answer : Answer op) (w' : World)
    (l' : Locals) : Prop :=
  if host.awaits op then host.resume op answer w l = some (w', l')
  else host.effect op w l = some (answer, w', l')

/-- If the program ends, its value and the locals satisfy `Q`, however its
operations are answered and whatever the world is at each of them. -/
def Leaves {α : Type} (Q : α → Locals → Prop) : Program Op Answer α → Locals → Prop
  | .pure value, l => Q value l
  | .perform op next, l =>
      ∀ w answer w' l', host.Performs op w l answer w' l' → Leaves Q (next answer) l'

variable {host} {α β : Type}

theorem Leaves.mono
    {Q Q' : α → Locals → Prop} {p : Program Op Answer α} {l : Locals}
    (hp : host.Leaves Q p l) (hQ : ∀ value l, Q value l → Q' value l) :
    host.Leaves Q' p l := by
  induction p generalizing l with
  | pure value => exact hQ value l hp
  | perform op next ih =>
      intro w answer w' l' hdone
      exact ih answer (hp w answer w' l' hdone)

theorem Leaves.bind
    {Q : α → Locals → Prop} {Q' : β → Locals → Prop} {p : Program Op Answer α}
    {f : α → Program Op Answer β} {l : Locals} (hp : host.Leaves Q p l)
    (hf : ∀ value l, Q value l → host.Leaves Q' (f value) l) :
    host.Leaves Q' (p.bind f) l := by
  induction p generalizing l with
  | pure value => exact hf value l hp
  | perform op next ih =>
      intro w answer w' l' hdone
      exact ih answer (hp w answer w' l' hdone)

theorem Leaves.forM
    {ι : Type} {I : Locals → Prop} {items : List ι} {f : ι → Program Op Answer PUnit}
    (hf : ∀ item l, I l → host.Leaves (fun _ => I) (f item) l) {l : Locals} (hl : I l) :
    host.Leaves (fun _ => I) (items.forM f) l := by
  induction items generalizing l with
  | nil => exact hl
  | cons item items ih =>
      apply Leaves.bind (hf item l hl)
      intro _ l' hl'
      exact ih hl'

end Host

/-! ## The frames that a run has left -/

/-- What is written down is each activation that returns, with its locals. -/
def departures : Observer Call Op Result Locals (List (Frame Call Locals)) where
  effect := fun _ _ log => log
  enter := fun _ _ log => log
  leave := fun frame _ log => frame :: log
  abandon := fun _ log => log

section Runs

variable {host : Host Call Op Answer Result External World Locals}
  {Q : Frame Call Locals → Prop}

/-- What has been left satisfies `Q`, and so will what is still suspended. -/
structure Promised (host : Host Call Op Answer Result External World Locals)
    (Q : Frame Call Locals → Prop)
    (s : State Call Op Answer Result (World × List (Frame Call Locals)) Locals) :
    Prop where
  left : ∀ frame ∈ s.world.2, Q frame
  suspended : ∀ activation ∈ s.stack, host.awaits activation.op = true ∧
    host.Leaves (fun _ l => Q ⟨activation.frame.call, l⟩)
      (.perform activation.op activation.next) activation.frame.locals

theorem promised_of_settle
    {rest : List (Activation Call Op Answer Result Locals)} {call : Call}
    {p : Program Op Answer Result} {w : World × List (Frame Call Locals)} {l : Locals}
    {s : State Call Op Answer Result (World × List (Frame Call Locals)) Locals}
    (hrest : Promised host Q ⟨w, rest⟩)
    (hp : host.Leaves (fun _ l => Q ⟨call, l⟩) p l)
    (hsettle : (host.observe departures).settle rest call p w l = some s) :
    Promised host Q s := by
  induction p generalizing w l with
  | pure result =>
      have hs := Option.some.inj hsettle
      subst s
      constructor
      · intro frame hmem
        rcases List.mem_cons.mp hmem with rfl | hmem
        · exact hp
        · exact hrest.left frame hmem
      · exact hrest.suspended
  | perform op next ih =>
      unfold Host.settle at hsettle
      cases hawaits : host.awaits op with
      | true =>
          have hobserved : (host.observe departures).awaits op = true := hawaits
          rw [if_pos hobserved] at hsettle
          have hs := Option.some.inj hsettle
          subst s
          exact ⟨hrest.left, List.forall_mem_cons.mpr ⟨⟨hawaits, hp⟩, hrest.suspended⟩⟩
      | false =>
          have hobserved : ¬ (host.observe departures).awaits op = true := by
            simp [Host.observe, hawaits]
          rw [if_neg hobserved, Option.bind_eq_some_iff] at hsettle
          rcases hsettle with ⟨⟨answer, w', l'⟩, hdone, hsettle⟩
          rcases Host.of_observe_effect hdone with ⟨heffect, hlog⟩
          have hperforms : host.Performs op w.1 l answer w'.1 l' := by
            unfold Host.Performs
            rwa [if_neg (by simp [hawaits])]
          have hnext : Promised host Q ⟨w', rest⟩ := by
            refine ⟨?_, hrest.suspended⟩
            rw [hlog]
            exact hrest.left
          exact ih answer hnext (hp w.1 answer w'.1 l' hperforms) hsettle

theorem promised_of_unwind
    {depth : ℕ} {stack : List (Activation Call Op Answer Result Locals)}
    {w : World × List (Frame Call Locals)}
    {s : State Call Op Answer Result (World × List (Frame Call Locals)) Locals}
    (h : Promised host Q ⟨w, stack⟩)
    (hunwind : (host.observe departures).unwind depth stack w = some s) :
    Promised host Q s := by
  induction depth generalizing stack w with
  | zero =>
      cases stack with
      | nil =>
          have hs := Option.some.inj hunwind
          exact hs ▸ h
      | cons top rest =>
          simp only [Host.unwind, Option.ite_none_right_eq_some, Option.some.injEq]
            at hunwind
          exact hunwind.2 ▸ h
  | succ depth ih =>
      cases stack with
      | nil => simp [Host.unwind] at hunwind
      | cons top rest =>
          have hrest : Promised host Q
              ⟨(host.abandon top.frame w.1, w.2), rest⟩ :=
            ⟨h.left, (List.forall_mem_cons.mp h.suspended).2⟩
          exact ih hrest hunwind

theorem Promised.step
    {s next : State Call Op Answer Result (World × List (Frame Call Locals)) Locals}
    {choice : Choice Call Op Answer External} (h : Promised host Q s)
    (hbody : ∀ call below awaited w w' l, choice = .enter call →
      host.enter w below awaited call = some (w', l) →
      host.Leaves (fun _ l => Q ⟨call, l⟩) (host.body call) l)
    (hstep : (host.observe departures).step s choice = some next) :
    Promised host Q next := by
  rcases s with ⟨w, stack⟩
  cases choice with
  | answer oracle =>
      cases stack with
      | nil => simp [Host.step] at hstep
      | cons top rest =>
          simp only [Host.step, Option.bind_eq_some_iff] at hstep
          rcases hstep with ⟨answer, _, ⟨w', l'⟩, hdone, hsettle⟩
          rcases Host.of_observe_resume hdone with ⟨hresume, hlog⟩
          rcases List.forall_mem_cons.mp h.suspended with ⟨⟨hawaits, htop⟩, hsuspended⟩
          have hrest : Promised host Q ⟨w', rest⟩ := by
            refine ⟨?_, hsuspended⟩
            rw [hlog]
            exact h.left
          have hperforms : host.Performs top.op w.1 top.frame.locals answer w'.1 l' := by
            unfold Host.Performs
            rwa [if_pos hawaits]
          exact promised_of_settle hrest (htop w.1 answer w'.1 l' hperforms) hsettle
  | enter call =>
      simp only [Host.step, Option.bind_eq_some_iff] at hstep
      rcases hstep with ⟨⟨w', l⟩, hdone, hsettle⟩
      rcases Host.of_observe_enter hdone with ⟨henter, hlog⟩
      have hrest : Promised host Q ⟨w', stack⟩ := by
        refine ⟨?_, h.suspended⟩
        rw [hlog]
        exact h.left
      exact promised_of_settle hrest (hbody call _ _ _ _ _ rfl henter) hsettle
  | raise depth =>
      cases stack with
      | nil => simp [Host.step, Host.raise] at hstep
      | cons top rest =>
          simp only [Host.step, Host.raise, Option.ite_none_right_eq_some] at hstep
          exact promised_of_unwind h hstep.2
  | external action =>
      simp only [Host.step, Option.map_eq_some_iff] at hstep
      rcases hstep with ⟨w', hdone, rfl⟩
      simp only [Host.observe, Option.map_eq_some_iff] at hdone
      rcases hdone with ⟨w'', _, rfl⟩
      exact ⟨h.left, h.suspended⟩

/-- What every program that may be entered leaves behind, every activation that
a run has left had. -/
theorem left_of_guardedRun
    {guard : State Call Op Answer Result (World × List (Frame Call Locals)) Locals →
      Choice Call Op Answer External → Prop}
    (hbody : ∀ s call below awaited w w' l, guard s (.enter call) →
      host.enter w below awaited call = some (w', l) →
      host.Leaves (fun _ l => Q ⟨call, l⟩) (host.body call) l)
    {w : World}
    {s : State Call Op Answer Result (World × List (Frame Call Locals)) Locals}
    {choices : List (Choice Call Op Answer External)}
    (hrun : GuardedRun (host.observe departures).step guard ⟨(w, []), []⟩ choices s) :
    ∀ frame ∈ s.world.2, Q frame := by
  have hpromised : Promised host Q s := by
    apply hrun.invariant (Promised host Q)
    · intro s choice next h hguard hstep
      apply h.step _ hstep
      rintro call below awaited w w' l rfl henter
      exact hbody s call below awaited w w' l hguard henter
    · exact ⟨by simp, by simp⟩
  exact hpromised.left

end Runs

end ReentrantCalls
