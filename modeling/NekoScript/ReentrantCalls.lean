import NekoScript.GuardedRuns
import NekoScript.Programs
import Mathlib.Tactic

/-!
# Re-entrant calls that errors may jump over

A single thread runs a stack of activations.  The program of an activation is
suspended at the operations at which the environment gets control: it may then
enter another activation above, throw an error that jumps over any number of
activations, or answer the operation.

Proofs are by rely and guarantee.  A discipline consists of an invariant of the
states in which the environment is in control, and a relation between worlds
that whole activations, entered and left, stay within.  What an activation
knows at an operation survives whatever happens above it if that relation
keeps it.
-/

namespace ReentrantCalls

open Programs GuardedRuns

structure Frame (Call Locals : Type) where
  call : Call
  locals : Locals

/-- What calls and operations do.  `none` stands for a crash in `effect`, and
for something the environment cannot do in `resume`, `enter` and `external`. -/
structure Host (Call Op : Type) (Answer : Op → Type)
    (Result External World Locals : Type) where
  body : Call → Program Op Answer Result
  /-- The environment is in control at these operations. -/
  awaits : Op → Bool
  effect : (op : Op) → World → Locals → Option (Answer op × World × Locals)
  resume : (op : Op) → Answer op → World → Locals → Option (World × Locals)
  throws : Op → Bool
  /-- The code these operations run may catch errors. -/
  catches : Op → Bool
  enter : World → List (Frame Call Locals) → Option Op → Call →
    Option (World × Locals)
  leave : Frame Call Locals → Result → World → World
  abandon : Frame Call Locals → World → World
  external : World → External → Option World

variable {Call Op : Type} {Answer : Op → Type}
  {Result External World Locals : Type}

structure Activation (Call Op : Type) (Answer : Op → Type)
    (Result Locals : Type) where
  frame : Frame Call Locals
  op : Op
  next : Answer op → Program Op Answer Result

structure State (Call Op : Type) (Answer : Op → Type)
    (Result World Locals : Type) where
  world : World
  stack : List (Activation Call Op Answer Result Locals)

inductive Choice (Call Op : Type) (Answer : Op → Type) (External : Type) where
  | answer (oracle : ∀ op, Option (Answer op))
  | enter (call : Call)
  | raise (depth : ℕ)
  | external (action : External)

def frames (stack : List (Activation Call Op Answer Result Locals)) :
    List (Frame Call Locals) :=
  stack.map (·.frame)

variable (host : Host Call Op Answer Result External World Locals)

namespace Host

/-- Run the program of the top activation up to the next operation at which
the environment is in control, or to its end. -/
def settle (rest : List (Activation Call Op Answer Result Locals)) (call : Call) :
    Program Op Answer Result → World → Locals →
      Option (State Call Op Answer Result World Locals)
  | .pure result, w, l => some ⟨host.leave ⟨call, l⟩ result w, rest⟩
  | .perform op next, w, l =>
      if host.awaits op then some ⟨w, ⟨⟨call, l⟩, op, next⟩ :: rest⟩
      else
        (host.effect op w l).bind fun done =>
          settle rest call (next done.1) done.2.1 done.2.2

/-- Run from here, the program is next suspended at `op`. -/
def SuspendsAt (op : Op) (p : Program Op Answer Result) (w : World) (l : Locals) :
    Prop :=
  ∀ rest call, ∃ s, host.settle rest call p w l = some s ∧
    s.stack.head?.map (·.op) = some op

variable {host}

theorem suspendsAt_perform
    {op : Op} {next : Answer op → Program Op Answer Result} {w : World}
    {l : Locals} (hawaits : host.awaits op = true) :
    host.SuspendsAt op (.perform op next) w l := by
  intro rest call
  refine ⟨⟨w, ⟨⟨call, l⟩, op, next⟩ :: rest⟩, ?_, rfl⟩
  rw [settle, if_pos hawaits]

theorem SuspendsAt.after
    {op done : Op} {next : Answer done → Program Op Answer Result} {w w' : World}
    {l l' : Locals} {answer : Answer done}
    (h : host.SuspendsAt op (next answer) w' l')
    (hawaits : host.awaits done = false)
    (heffect : host.effect done w l = some (answer, w', l')) :
    host.SuspendsAt op (.perform done next) w l := by
  intro rest call
  rw [settle, if_neg (by simp [hawaits]), heffect, Option.bind_some]
  exact h rest call

variable (host)

/-- Jump over the `depth` uppermost activations, to code that catches: code
that the next activation runs, or the caller of the lowest one. -/
def unwind : ℕ → List (Activation Call Op Answer Result Locals) → World →
    Option (State Call Op Answer Result World Locals)
  | 0, [], w => some ⟨w, []⟩
  | 0, top :: rest, w =>
      if host.catches top.op then some ⟨w, top :: rest⟩ else none
  | _ + 1, [], _ => none
  | depth + 1, top :: rest, w => unwind depth rest (host.abandon top.frame w)

/-- An error comes from the operation of the top activation, and jumps at
least over that one. -/
def raise (depth : ℕ) (s : State Call Op Answer Result World Locals) :
    Option (State Call Op Answer Result World Locals) :=
  match s.stack with
  | [] => none
  | top :: _ =>
      if host.throws top.op && decide (0 < depth) then
        host.unwind depth s.stack s.world
      else none

def step (s : State Call Op Answer Result World Locals) :
    Choice Call Op Answer External →
      Option (State Call Op Answer Result World Locals)
  | .answer oracle =>
      match s.stack with
      | [] => none
      | top :: rest =>
          (oracle top.op).bind fun answer =>
            (host.resume top.op answer s.world top.frame.locals).bind fun done =>
              host.settle rest top.frame.call (top.next answer) done.1 done.2
  | .enter call =>
      (host.enter s.world (frames s.stack) (s.stack.head?.map (·.op)) call).bind
        fun done => host.settle s.stack call (host.body call) done.1 done.2
  | .raise depth => host.raise depth s
  | .external action =>
      (host.external s.world action).map fun w => { s with world := w }

end Host

/-- What is to hold while the environment is in control, and what the
environment is assumed to keep to. -/
structure Discipline (Call Op : Type) (Answer : Op → Type)
    (External World Locals : Type) where
  Inv : List (Frame Call Locals) → World → Prop
  Rely : World → World → Prop
  rely_refl : ∀ w, Rely w w
  rely_trans : ∀ {w₁ w₂ w₃}, Rely w₁ w₂ → Rely w₂ w₃ → Rely w₁ w₃
  mayEnter : List (Frame Call Locals) → World → Call → Prop
  mayAnswer : Frame Call Locals → World → (op : Op) → Answer op → Prop
  mayAbandon : Frame Call Locals → World → Prop
  mayExternal : List (Frame Call Locals) → World → External → Prop

namespace Discipline

variable {host} (D : Discipline Call Op Answer External World Locals)

def MayUnwind (host : Host Call Op Answer Result External World Locals) :
    ℕ → List (Activation Call Op Answer Result Locals) → World → Prop
  | depth + 1, top :: rest, w =>
      D.mayAbandon top.frame w ∧
        MayUnwind host depth rest (host.abandon top.frame w)
  | _, _, _ => True

def Guard (host : Host Call Op Answer Result External World Locals)
    (s : State Call Op Answer Result World Locals) :
    Choice Call Op Answer External → Prop
  | .answer oracle =>
      ∀ top ∈ s.stack.head?, ∀ answer ∈ oracle top.op,
        D.mayAnswer top.frame s.world top.op answer
  | .enter call => D.mayEnter (frames s.stack) s.world call
  | .raise depth => D.MayUnwind host depth s.stack s.world
  | .external action => D.mayExternal (frames s.stack) s.world action

/-- The environment may do everything. -/
structure Permissive : Prop where
  enter : ∀ stack w call, D.mayEnter stack w call
  answer : ∀ frame w op answer, D.mayAnswer frame w op answer
  abandon : ∀ frame w, D.mayAbandon frame w
  external : ∀ stack w action, D.mayExternal stack w action

variable {D} in
theorem Permissive.guard (h : D.Permissive)
    (s : State Call Op Answer Result World Locals) (choice : Choice Call Op Answer External) :
    D.Guard host s choice := by
  cases choice with
  | answer oracle => exact fun top _ answer _ => h.answer top.frame s.world top.op answer
  | enter call => exact h.enter (frames s.stack) s.world call
  | external action => exact h.external (frames s.stack) s.world action
  | raise depth =>
      have hunwind : ∀ depth stack w, D.MayUnwind host depth stack w := by
        intro depth
        induction depth with
        | zero => exact fun _ _ => trivial
        | succ depth ih =>
            intro stack w
            cases stack with
            | nil => trivial
            | cons top rest => exact ⟨h.abandon top.frame w, ih rest _⟩
      exact hunwind depth s.stack s.world

instance decidableMayUnwind [∀ frame w, Decidable (D.mayAbandon frame w)] :
    ∀ (depth : ℕ) (stack : List (Activation Call Op Answer Result Locals))
      (w : World), Decidable (D.MayUnwind host depth stack w)
  | 0, _, _ => inferInstanceAs (Decidable True)
  | _ + 1, [], _ => inferInstanceAs (Decidable True)
  | depth + 1, top :: rest, w =>
      have := decidableMayUnwind depth rest (host.abandon top.frame w)
      inferInstanceAs (Decidable (_ ∧ _))

instance decidableGuard
    [∀ stack w call, Decidable (D.mayEnter stack w call)]
    [∀ frame w op answer, Decidable (D.mayAnswer frame w op answer)]
    [∀ frame w, Decidable (D.mayAbandon frame w)]
    [∀ stack w action, Decidable (D.mayExternal stack w action)]
    (s : State Call Op Answer Result World Locals) :
    ∀ choice : Choice Call Op Answer External,
      Decidable (D.Guard host s choice)
  | .answer oracle =>
      inferInstanceAs (Decidable (∀ top ∈ s.stack.head?,
        ∀ answer ∈ oracle top.op, D.mayAnswer top.frame s.world top.op answer))
  | .enter call =>
      inferInstanceAs (Decidable (D.mayEnter (frames s.stack) s.world call))
  | .raise depth =>
      inferInstanceAs (Decidable (D.MayUnwind host depth s.stack s.world))
  | .external action =>
      inferInstanceAs (Decidable (D.mayExternal (frames s.stack) s.world action))

section Activations

variable (host) (below : List (Frame Call Locals)) (call : Call) (entry : World)
  {α β : Type}

def Left (result : Result) (w : World) (l : Locals) : Prop :=
  D.Inv below (host.leave ⟨call, l⟩ result w) ∧
    D.Rely entry (host.leave ⟨call, l⟩ result w)

def Abandonable (w : World) (l : Locals) : Prop :=
  D.mayAbandon ⟨call, l⟩ w →
    D.Inv below (host.abandon ⟨call, l⟩ w) ∧
      D.Rely entry (host.abandon ⟨call, l⟩ w)

/-- From here on the program keeps to the discipline and ends with `Q`,
provided that what happens above it does. -/
def Meets (Q : α → World → Locals → Prop) :
    Program Op Answer α → World → Locals → Prop
  | .pure value, w, l => Q value w l
  | .perform op next, w, l =>
      if host.awaits op then
        D.Inv (⟨call, l⟩ :: below) w ∧
          ∀ w', D.Rely w w' → D.Inv (⟨call, l⟩ :: below) w' →
            D.Abandonable host below call entry w' l ∧
              ∀ answer w'' l'', host.resume op answer w' l = some (w'', l'') →
                D.mayAnswer ⟨call, l⟩ w' op answer → Meets Q (next answer) w'' l''
      else
        ∀ answer w' l', host.effect op w l = some (answer, w', l') →
          Meets Q (next answer) w' l'

variable {host below call entry} {D}

theorem Meets.mono
    {Q Q' : α → World → Locals → Prop} {p : Program Op Answer α}
    {w : World} {l : Locals}
    (h : D.Meets host below call entry Q p w l)
    (hQ : ∀ value w l, Q value w l → Q' value w l) :
    D.Meets host below call entry Q' p w l := by
  induction p generalizing w l with
  | pure value => exact hQ value w l h
  | perform op next ih =>
      unfold Meets at h ⊢
      split
      next hawaits =>
        rw [if_pos hawaits] at h
        refine ⟨h.1, ?_⟩
        intro w' hrely hinv
        obtain ⟨habandon, hresume⟩ := h.2 w' hrely hinv
        exact ⟨habandon, fun answer w'' l'' hdone hmay =>
          ih answer (hresume answer w'' l'' hdone hmay)⟩
      next hawaits =>
        rw [if_neg hawaits] at h
        exact fun answer w' l' hdone => ih answer (h answer w' l' hdone)

theorem Meets.bind
    {Q : α → World → Locals → Prop} {Q' : β → World → Locals → Prop}
    {p : Program Op Answer α} {f : α → Program Op Answer β}
    {w : World} {l : Locals}
    (hp : D.Meets host below call entry Q p w l)
    (hf : ∀ value w l, Q value w l → D.Meets host below call entry Q' (f value) w l) :
    D.Meets host below call entry Q' (p.bind f) w l := by
  induction p generalizing w l with
  | pure value => exact hf value w l hp
  | perform op next ih =>
      rw [Program.perform_bind]
      unfold Meets at hp ⊢
      split
      next hawaits =>
        rw [if_pos hawaits] at hp
        refine ⟨hp.1, ?_⟩
        intro w' hrely hinv
        obtain ⟨habandon, hresume⟩ := hp.2 w' hrely hinv
        exact ⟨habandon, fun answer w'' l'' hdone hmay =>
          ih answer (hresume answer w'' l'' hdone hmay)⟩
      next hawaits =>
        rw [if_neg hawaits] at hp
        exact fun answer w' l' hdone => ih answer (hp answer w' l' hdone)

theorem Meets.silent
    {Q : α → World → Locals → Prop} {op : Op}
    {next : Answer op → Program Op Answer α} {w : World} {l : Locals}
    (hsilent : host.awaits op = false)
    (hnext : ∀ answer w' l', host.effect op w l = some (answer, w', l') →
      D.Meets host below call entry Q (next answer) w' l') :
    D.Meets host below call entry Q (.perform op next) w l := by
  unfold Meets
  rw [if_neg (by simp [hsilent])]
  exact hnext

variable (D host below call entry) in
/-- A fact that lets the activation give up control, and survives that. -/
structure Stable (F : World → Locals → Prop) : Prop where
  inv : ∀ w l, F w l → D.Inv (⟨call, l⟩ :: below) w
  rely : ∀ w w' l, F w l → D.Rely w w' → D.Inv (⟨call, l⟩ :: below) w' → F w' l
  abandon : ∀ w l, F w l → D.Abandonable host below call entry w l

theorem Meets.await
    {F : World → Locals → Prop} (hstable : D.Stable host below call entry F)
    {Q : α → World → Locals → Prop} {op : Op}
    {next : Answer op → Program Op Answer α} {w : World} {l : Locals}
    (hawaits : host.awaits op = true) (hF : F w l)
    (hnext : ∀ w' answer w'' l'', F w' l →
      host.resume op answer w' l = some (w'', l'') →
      D.mayAnswer ⟨call, l⟩ w' op answer →
      D.Meets host below call entry Q (next answer) w'' l'') :
    D.Meets host below call entry Q (.perform op next) w l := by
  unfold Meets
  rw [if_pos hawaits]
  refine ⟨hstable.inv w l hF, ?_⟩
  intro w' hrely hinv
  have hF' : F w' l := hstable.rely w w' l hF hrely hinv
  exact ⟨hstable.abandon w' l hF',
    fun answer w'' l'' hdone hmay => hnext w' answer w'' l'' hF' hdone hmay⟩

variable (D host call) in
def Keeps (F : World → Locals → Prop) (op : Op) : Prop :=
  (host.awaits op = true → ∀ answer w l w' l', F w l →
    host.resume op answer w l = some (w', l') →
    D.mayAnswer ⟨call, l⟩ w op answer → F w' l') ∧
  (host.awaits op = false → ∀ answer w l w' l', F w l →
    host.effect op w l = some (answer, w', l') → F w' l')

/-- A program that never gives up control needs no stable fact. -/
theorem Meets.of_silent
    {F : World → Locals → Prop} {p : Program Op Answer α}
    (hp : p.All fun op => host.awaits op = false ∧ D.Keeps host call F op)
    {w : World} {l : Locals} (hF : F w l) :
    D.Meets host below call entry (fun _ => F) p w l := by
  induction p generalizing w l with
  | pure value => exact hF
  | perform op next ih =>
      rcases hp.1 with ⟨hsilent, hkeeps⟩
      apply Meets.silent hsilent
      intro answer w' l' hdone
      exact ih answer (hp.2 answer) (hkeeps.2 hsilent answer w l w' l' hF hdone)

theorem Meets.of_all
    {F : World → Locals → Prop} (hstable : D.Stable host below call entry F)
    {p : Program Op Answer α} (hp : p.All (D.Keeps host call F))
    {w : World} {l : Locals} (hF : F w l) :
    D.Meets host below call entry (fun _ => F) p w l := by
  induction p generalizing w l with
  | pure value => exact hF
  | perform op next ih =>
      cases hawaits : host.awaits op with
      | true =>
          apply Meets.await hstable hawaits hF
          intro w' answer w'' l'' hF' hdone hmay
          exact ih answer (hp.2 answer)
            (hp.1.1 hawaits answer w' l w'' l'' hF' hdone hmay)
      | false =>
          apply Meets.silent hawaits
          intro answer w' l' hdone
          exact ih answer (hp.2 answer)
            (hp.1.2 hawaits answer w l w' l' hF hdone)

/-- The rule of a loop; `I rest` holds before the turns of `rest`. -/
theorem Meets.forM
    {ι : Type} {I : List ι → World → Locals → Prop} {f : ι → Program Op Answer PUnit}
    (hf : ∀ item rest w l, I (item :: rest) w l →
      D.Meets host below call entry (fun _ => I rest) (f item) w l)
    {items : List ι} {w : World} {l : Locals} (hI : I items w l) :
    D.Meets host below call entry (fun _ => I []) (items.forM f) w l := by
  induction items generalizing w l with
  | nil => exact hI
  | cons item items ih =>
      apply Meets.bind (hf item items w l hI)
      intro _ w l hrest
      exact ih hrest

end Activations

/-! ## Soundness -/

/-- Each call, from entry to exit, and each other action of the environment
keeps to the discipline. -/
structure Sound (host : Host Call Op Answer Result External World Locals) :
    Prop where
  enter : ∀ below w awaited call w' l, D.Inv below w → D.mayEnter below w call →
    host.enter w below awaited call = some (w', l) →
    D.Rely w w' ∧
      D.Meets host below call w' (D.Left host below call w') (host.body call) w' l
  external : ∀ stack w action w', D.Inv stack w → D.mayExternal stack w action →
    host.external w action = some w' → D.Inv stack w' ∧ D.Rely w w'

/-- Each suspended activation knows what it needs of the world in which the
one above it was entered. -/
def Consistent (host : Host Call Op Answer Result External World Locals) :
    List (Activation Call Op Answer Result Locals) → World → Prop
  | [], _ => True
  | top :: rest, w =>
      ∃ entry known, D.Rely known w ∧ host.awaits top.op = true ∧
        D.Meets host (frames rest) top.frame.call entry
          (D.Left host (frames rest) top.frame.call entry)
          (.perform top.op top.next) known top.frame.locals ∧
        Consistent host rest entry

structure Holds (host : Host Call Op Answer Result External World Locals)
    (s : State Call Op Answer Result World Locals) : Prop where
  inv : D.Inv (frames s.stack) s.world
  consistent : D.Consistent host s.stack s.world

variable {D} {stack rest : List (Activation Call Op Answer Result Locals)}

theorem Consistent.rely
    {w w' : World} (h : D.Consistent host stack w) (hrely : D.Rely w w') :
    D.Consistent host stack w' := by
  cases stack with
  | nil => trivial
  | cons top rest =>
      rcases h with ⟨entry, known, hknown, hmeets⟩
      exact ⟨entry, known, D.rely_trans hknown hrely, hmeets⟩

theorem holds_of_settle
    {call : Call} {entry w : World} {l : Locals}
    {p : Program Op Answer Result}
    {s : State Call Op Answer Result World Locals}
    (hrest : D.Consistent host rest entry)
    (hmeets : D.Meets host (frames rest) call entry
      (D.Left host (frames rest) call entry) p w l)
    (hsettle : host.settle rest call p w l = some s) : D.Holds host s := by
  induction p generalizing w l with
  | pure result =>
      simp only [Host.settle, Option.some.injEq] at hsettle
      subst s
      exact ⟨hmeets.1, hrest.rely hmeets.2⟩
  | perform op next ih =>
      unfold Host.settle at hsettle
      cases hawaits : host.awaits op with
      | true =>
          simp only [hawaits, if_true, Option.some.injEq] at hsettle
          subst s
          have hinv : D.Inv (⟨call, l⟩ :: frames rest) w := by
            have hopened := hmeets
            unfold Meets at hopened
            rw [if_pos hawaits] at hopened
            exact hopened.1
          exact ⟨hinv, entry, w, D.rely_refl w, hawaits, hmeets, hrest⟩
      | false =>
          rw [if_neg (by simp [hawaits])] at hsettle
          unfold Meets at hmeets
          rw [if_neg (by simp [hawaits])] at hmeets
          cases hdone : host.effect op w l with
          | none => simp [hdone] at hsettle
          | some done =>
              rw [hdone, Option.bind_some] at hsettle
              exact ih done.1 (hmeets done.1 done.2.1 done.2.2 hdone) hsettle

/-- What a suspended activation can rely on when control comes back to it. -/
theorem Holds.top
    {top : Activation Call Op Answer Result Locals} {w : World}
    (h : D.Holds host ⟨w, top :: rest⟩) :
    ∃ entry, D.Consistent host rest entry ∧
      D.Abandonable host (frames rest) top.frame.call entry w top.frame.locals ∧
      ∀ answer w' l', host.resume top.op answer w top.frame.locals = some (w', l') →
        D.mayAnswer top.frame w top.op answer →
        D.Meets host (frames rest) top.frame.call entry
          (D.Left host (frames rest) top.frame.call entry)
          (top.next answer) w' l' := by
  rcases h.consistent with ⟨entry, known, hknown, hawaits, hmeets, hrest⟩
  unfold Meets at hmeets
  rw [if_pos hawaits] at hmeets
  obtain ⟨habandon, hresume⟩ := hmeets.2 w hknown h.inv
  exact ⟨entry, hrest, habandon, hresume⟩

theorem Holds.unwind
    {depth : ℕ} {w : World} {s : State Call Op Answer Result World Locals}
    (h : D.Holds host ⟨w, stack⟩) (hmay : D.MayUnwind host depth stack w)
    (hunwind : host.unwind depth stack w = some s) : D.Holds host s := by
  induction depth generalizing stack w with
  | zero =>
      cases stack with
      | nil =>
          simp only [Host.unwind, Option.some.injEq] at hunwind
          exact hunwind ▸ h
      | cons top rest =>
          simp only [Host.unwind] at hunwind
          split at hunwind
          next =>
            simp only [Option.some.injEq] at hunwind
            exact hunwind ▸ h
          next => contradiction
  | succ depth ih =>
      cases stack with
      | nil => simp [Host.unwind] at hunwind
      | cons top rest =>
          rcases h.top with ⟨entry, hrest, habandon, _⟩
          obtain ⟨hinv, hrely⟩ := habandon hmay.1
          exact ih ⟨hinv, hrest.rely hrely⟩ hmay.2 hunwind

theorem Holds.step
    (hsound : D.Sound host)
    {s next : State Call Op Answer Result World Locals}
    {choice : Choice Call Op Answer External}
    (h : D.Holds host s) (hguard : D.Guard host s choice)
    (hstep : host.step s choice = some next) : D.Holds host next := by
  rcases s with ⟨w, stack⟩
  cases choice with
  | answer oracle =>
      cases stack with
      | nil => simp [Host.step] at hstep
      | cons top rest =>
          rcases h.top with ⟨entry, hrest, _, hresume⟩
          simp only [Host.step, Option.bind_eq_some_iff] at hstep
          rcases hstep with ⟨answer, hanswer, done, hdone, hsettle⟩
          have hmay := hguard top rfl answer hanswer
          exact holds_of_settle hrest (hresume answer _ _ hdone hmay) hsettle
  | enter call =>
      simp only [Host.step, Option.bind_eq_some_iff] at hstep
      rcases hstep with ⟨done, hdone, hsettle⟩
      obtain ⟨hrely, hmeets⟩ := hsound.enter _ _ _ _ _ _ h.inv hguard hdone
      exact holds_of_settle (h.consistent.rely hrely) hmeets hsettle
  | raise depth =>
      cases stack with
      | nil => simp [Host.step, Host.raise] at hstep
      | cons top rest =>
          simp only [Host.step, Host.raise] at hstep
          split at hstep
          next => exact h.unwind hguard hstep
          next => contradiction
  | external action =>
      simp only [Host.step, Option.map_eq_some_iff] at hstep
      rcases hstep with ⟨w', hdone, rfl⟩
      obtain ⟨hinv, hrely⟩ := hsound.external _ _ _ _ h.inv hguard hdone
      exact ⟨hinv, h.consistent.rely hrely⟩

/-- The invariant of a sound discipline holds in every state that a guarded
run reaches. -/
theorem Sound.inv_of_guardedRun
    (hsound : D.Sound host) {w : World}
    {s : State Call Op Answer Result World Locals}
    {choices : List (Choice Call Op Answer External)}
    (hinit : D.Inv [] w)
    (hrun : GuardedRun host.step (D.Guard host) ⟨w, []⟩ choices s) :
    D.Inv (frames s.stack) s.world := by
  have hholds : D.Holds host s := by
    apply hrun.invariant (D.Holds host)
    · exact fun _ _ _ h hguard hstep => h.step hsound hguard hstep
    · exact ⟨hinit, trivial⟩
  exact hholds.inv

end Discipline

/-! ## Programs run undisturbed -/

section Alone

variable (oracle : (op : Op) → World → Locals → Option (Answer op))

/-- The environment does nothing but answer, as the oracle says. -/
def Host.alone (op : Op) (w : World) (l : Locals) :
    Option (Answer op × World × Locals) :=
  if host.awaits op then
    (oracle op w l).bind fun answer =>
      (host.resume op answer w l).map fun done => (answer, done)
  else host.effect op w l

/-- An operation that the host cannot perform is the error. -/
def Host.performAlone (op : Op) (s : World × Locals) :
    Except Op (Answer op) × (World × Locals) :=
  match host.alone oracle op s.1 s.2 with
  | none => (.error op, s)
  | some done => (.ok done.1, done.2)

variable {host oracle} {op : Op} {answer : Answer op} {w w' : World} {l l' : Locals}

theorem Host.performAlone_effect
    (hawaits : host.awaits op = false)
    (heffect : host.effect op w l = some (answer, w', l')) :
    host.performAlone oracle op (w, l) = (.ok answer, (w', l')) := by
  simp [Host.performAlone, Host.alone, hawaits, heffect]

theorem Host.performAlone_answer
    (hawaits : host.awaits op = true) (hanswer : oracle op w l = some answer)
    (hresume : host.resume op answer w l = some (w', l')) :
    host.performAlone oracle op (w, l) = (.ok answer, (w', l')) := by
  simp [Host.performAlone, Host.alone, hawaits, hanswer, hresume]

open Classical in
/-- An undisturbed run of a program is a run of the host in which it is the
program of the top activation. -/
theorem Host.exists_run_of_exec
    {α : Type} {rest : List (Activation Call Op Answer Result Locals)} {call : Call}
    {p : Program Op Answer α} {f : α → Program Op Answer Result} {value : α}
    (hp : p.exec (host.performAlone oracle) (w, l) = (.ok value, (w', l'))) :
    ∃ choices : List (Choice Call Op Answer External),
      (host.settle rest call (p.bind f) w l).bind
        (fun s => run host.step s choices) =
          host.settle rest call (f value) w' l' := by
  induction p generalizing w l with
  | pure first =>
      rw [Program.exec_pure, Prod.mk.injEq, Prod.mk.injEq, Except.ok.injEq] at hp
      obtain ⟨hvalue, hw, hl⟩ := hp
      refine ⟨[], ?_⟩
      rw [Program.pure_bind, hvalue, hw, hl]
      cases host.settle rest call (f value) w' l' <;> rfl
  | perform op next ih =>
      cases hdone : host.alone oracle op w l with
      | none =>
          have hfailed : host.performAlone oracle op (w, l) = (.error op, (w, l)) := by
            simp [Host.performAlone, hdone]
          rw [Program.exec_failed hfailed] at hp
          simp at hp
      | some done =>
          have hperform : host.performAlone oracle op (w, l) =
              (.ok done.1, (done.2.1, done.2.2)) := by
            simp [Host.performAlone, hdone]
          rw [Program.exec_perform hperform] at hp
          obtain ⟨choices, hrun⟩ := ih done.1 hp
          unfold Host.alone at hdone
          rw [Program.perform_bind]
          cases hawaits : host.awaits op with
          | false =>
              rw [hawaits, if_neg (by simp)] at hdone
              refine ⟨choices, ?_⟩
              rw [Host.settle, if_neg (by simp [hawaits]), hdone, Option.bind_some]
              exact hrun
          | true =>
              rw [hawaits, if_pos rfl] at hdone
              obtain ⟨answer, _, hresume⟩ := Option.bind_eq_some_iff.mp hdone
              obtain ⟨after, hafter, rfl⟩ := Option.map_eq_some_iff.mp hresume
              let given : (other : Op) → Option (Answer other) := fun other =>
                if h : op = other then some (h ▸ answer) else none
              have hgiven : given op = some answer := by simp [given]
              have hstep : host.step ⟨w, ⟨⟨call, l⟩, op, fun a => (next a).bind f⟩ :: rest⟩
                  (.answer given) =
                    host.settle rest call ((next answer).bind f) after.1 after.2 := by
                simp [Host.step, hgiven, hafter]
              refine ⟨.answer given :: choices, ?_⟩
              rw [Host.settle, if_pos hawaits, Option.bind_some, run, hstep]
              exact hrun

end Alone

/-! ## History variables -/

/-- What is written down about a run beside its state. -/
structure Observer (Call Op : Type) (Result Locals History : Type) where
  effect : Op → Locals → History → History
  enter : Call → Locals → History → History
  leave : Frame Call Locals → Result → History → History
  abandon : Frame Call Locals → History → History

section Observe

variable {History : Type} (observer : Observer Call Op Result Locals History)

/-- The same host with a history; nothing it does depends on the history. -/
def Host.observe :
    Host Call Op Answer Result External (World × History) Locals where
  body := host.body
  awaits := host.awaits
  effect := fun op w l => (host.effect op w.1 l).map fun done =>
    (done.1, (done.2.1, observer.effect op l w.2), done.2.2)
  resume := fun op answer w l => (host.resume op answer w.1 l).map fun done =>
    ((done.1, w.2), done.2)
  throws := host.throws
  catches := host.catches
  enter := fun w below awaited call =>
    (host.enter w.1 below awaited call).map fun done =>
      ((done.1, observer.enter call done.2 w.2), done.2)
  leave := fun frame result w =>
    (host.leave frame result w.1, observer.leave frame result w.2)
  abandon := fun frame w => (host.abandon frame w.1, observer.abandon frame w.2)
  external := fun w action => (host.external w.1 action).map fun w' => (w', w.2)

def State.forget (s : State Call Op Answer Result (World × History) Locals) :
    State Call Op Answer Result World Locals :=
  ⟨s.world.1, s.stack⟩

variable {host observer}

theorem Host.settle_observe
    (rest : List (Activation Call Op Answer Result Locals)) (call : Call)
    (p : Program Op Answer Result) (w : World × History) (l : Locals) :
    ((host.observe observer).settle rest call p w l).map State.forget =
      host.settle rest call p w.1 l := by
  induction p generalizing w l with
  | pure result => rfl
  | perform op next ih =>
      unfold Host.settle
      change (if host.awaits op then _ else _ : Option _).map _ = _
      cases hawaits : host.awaits op with
      | true => rfl
      | false =>
          simp only [Bool.false_eq_true, if_false]
          cases hdone : host.effect op w.1 l with
          | none => simp [Host.observe, hdone]
          | some done =>
              simp only [Host.observe, hdone, Option.map_some, Option.bind_some]
              exact ih done.1 (done.2.1, observer.effect op l w.2) done.2.2

theorem Host.unwind_observe
    (depth : ℕ) (stack : List (Activation Call Op Answer Result Locals))
    (w : World × History) :
    ((host.observe observer).unwind depth stack w).map State.forget =
      host.unwind depth stack w.1 := by
  induction depth generalizing stack w with
  | zero =>
      cases stack with
      | nil => rfl
      | cons top rest =>
          unfold Host.unwind
          change (if host.catches top.op then _ else _ : Option _).map _ = _
          cases host.catches top.op <;> rfl
  | succ depth ih =>
      cases stack with
      | nil => rfl
      | cons top rest => exact ih rest _

theorem Host.step_observe
    (s : State Call Op Answer Result (World × History) Locals)
    (choice : Choice Call Op Answer External) :
    ((host.observe observer).step s choice).map State.forget =
      host.step s.forget choice := by
  rcases s with ⟨w, stack⟩
  cases choice with
  | answer oracle =>
      cases stack with
      | nil => rfl
      | cons top rest =>
          simp only [Host.step, State.forget]
          cases hanswer : oracle top.op with
          | none => rfl
          | some answer =>
              simp only [Option.bind_some]
              cases hdone : host.resume top.op answer w.1 top.frame.locals with
              | none => simp [Host.observe, hdone]
              | some done =>
                  simp only [Host.observe, hdone, Option.map_some, Option.bind_some]
                  exact Host.settle_observe rest _ _ (done.1, w.2) done.2
  | enter call =>
      simp only [Host.step, State.forget]
      cases hdone : host.enter w.1 (frames stack) (stack.head?.map (·.op)) call with
      | none => simp [Host.observe, hdone]
      | some done =>
          simp only [Host.observe, hdone, Option.map_some, Option.bind_some]
          exact Host.settle_observe stack call _ (done.1, _) done.2
  | raise depth =>
      cases stack with
      | nil => rfl
      | cons top rest =>
          simp only [Host.step, Host.raise, State.forget]
          change (if host.throws top.op && decide (0 < depth) then _ else _ :
            Option _).map _ = _
          by_cases hthrows : (host.throws top.op && decide (0 < depth)) = true
          · rw [if_pos hthrows, if_pos hthrows]
            exact Host.unwind_observe depth (top :: rest) w
          · rw [if_neg hthrows, if_neg hthrows]
            rfl
  | external action =>
      simp only [Host.step, State.forget]
      cases hdone : host.external w.1 action <;> simp [Host.observe, hdone, State.forget]

/-- Every run of the host has a history. -/
theorem Host.run_observe
    (s : State Call Op Answer Result (World × History) Locals)
    (choices : List (Choice Call Op Answer External)) :
    (run (host.observe observer).step s choices).map State.forget =
      run host.step s.forget choices := by
  induction choices generalizing s with
  | nil => rfl
  | cons choice choices ih =>
      have hstep : ((host.observe observer).step s choice).map State.forget =
          host.step s.forget choice := Host.step_observe s choice
      unfold run
      rw [← hstep]
      cases (host.observe observer).step s choice with
      | none => rfl
      | some next => exact ih next

theorem Host.exists_run_observe
    {w : World} {stack : List (Activation Call Op Answer Result Locals)}
    {s : State Call Op Answer Result World Locals}
    {choices : List (Choice Call Op Answer External)}
    (hrun : run host.step ⟨w, stack⟩ choices = some s) (history : History) :
    ∃ later, run (host.observe observer).step ⟨(w, history), stack⟩ choices =
      some ⟨(s.world, later), s.stack⟩ := by
  have hobserve : (run (host.observe observer).step ⟨(w, history), stack⟩ choices).map
      State.forget = run host.step ⟨w, stack⟩ choices := Host.run_observe _ choices
  rw [hrun, Option.map_eq_some_iff] at hobserve
  rcases hobserve with ⟨t, ht, hsame⟩
  subst s
  exact ⟨t.world.2, ht⟩

variable {w w' : World × History} {l l' : Locals}

theorem Host.of_observe_effect
    {op : Op} {answer : Answer op}
    (h : (host.observe observer).effect op w l = some (answer, w', l')) :
    host.effect op w.1 l = some (answer, w'.1, l') ∧
      w'.2 = observer.effect op l w.2 := by
  simp only [Host.observe, Option.map_eq_some_iff, Prod.mk.injEq] at h
  rcases h with ⟨done, hdone, hanswer, hw, hl⟩
  rw [hdone, ← hanswer, ← hw, ← hl]
  exact ⟨rfl, rfl⟩

theorem Host.of_observe_resume
    {op : Op} {answer : Answer op}
    (h : (host.observe observer).resume op answer w l = some (w', l')) :
    host.resume op answer w.1 l = some (w'.1, l') ∧ w'.2 = w.2 := by
  simp only [Host.observe, Option.map_eq_some_iff, Prod.mk.injEq] at h
  rcases h with ⟨done, hdone, hw, hl⟩
  rw [hdone, ← hw, ← hl]
  exact ⟨rfl, rfl⟩

theorem Host.of_observe_enter
    {below : List (Frame Call Locals)} {awaited : Option Op} {call : Call}
    (h : (host.observe observer).enter w below awaited call = some (w', l)) :
    host.enter w.1 below awaited call = some (w'.1, l) ∧
      w'.2 = observer.enter call l w.2 := by
  simp only [Host.observe, Option.map_eq_some_iff, Prod.mk.injEq] at h
  rcases h with ⟨done, hdone, hw, hl⟩
  rw [hdone, ← hw, ← hl]
  exact ⟨rfl, rfl⟩

end Observe

end ReentrantCalls
