import Mathlib.Tactic

/-!
# Programs over operations

A program is a tree: it performs an operation and goes on with the answer, or
returns a value.  What the operations do is said elsewhere, so one program can
be run, traced, or reasoned about under several readings.
-/

namespace Programs

/-- A program that returns an `α`; the answer to `op` has type `Answer op`. -/
inductive Program (Op : Type) (Answer : Op → Type) (α : Type) where
  | pure (value : α)
  | perform (op : Op) (next : Answer op → Program Op Answer α)

namespace Program

variable {Op : Type} {Answer : Op → Type} {α β : Type}

def bind : Program Op Answer α → (α → Program Op Answer β) → Program Op Answer β
  | .pure value, f => f value
  | .perform op next, f => .perform op fun answer => (next answer).bind f

instance : Monad (Program Op Answer) where
  pure := .pure
  bind := .bind

@[simp] theorem pure_bind (value : α) (f : α → Program Op Answer β) :
    Program.bind (.pure value) f = f value := rfl

@[simp] theorem perform_bind
    (op : Op) (next : Answer op → Program Op Answer α)
    (f : α → Program Op Answer β) :
    Program.bind (.perform op next) f =
      .perform op fun answer => (next answer).bind f := rfl

@[simp] theorem monad_pure (value : α) :
    (Pure.pure value : Program Op Answer α) = .pure value := rfl

@[simp] theorem monad_bind
    (p : Program Op Answer α) (f : α → Program Op Answer β) :
    p >>= f = p.bind f := rfl

/-- Every operation the program may perform, whatever it is answered. -/
def All (P : Op → Prop) : Program Op Answer α → Prop
  | .pure _ => True
  | .perform op next => P op ∧ ∀ answer, (next answer).All P

theorem All.mono
    {P Q : Op → Prop} {p : Program Op Answer α} (hp : p.All P)
    (hPQ : ∀ op, P op → Q op) : p.All Q := by
  induction p with
  | pure value => exact trivial
  | perform op next ih =>
      exact ⟨hPQ op hp.1, fun answer => ih answer (hp.2 answer)⟩

theorem All.and
    {P Q : Op → Prop} {p : Program Op Answer α} (hP : p.All P) (hQ : p.All Q) :
    p.All fun op => P op ∧ Q op := by
  induction p with
  | pure value => exact trivial
  | perform op next ih =>
      exact ⟨⟨hP.1, hQ.1⟩, fun answer => ih answer (hP.2 answer) (hQ.2 answer)⟩

theorem All.bind
    {P : Op → Prop} {p : Program Op Answer α} {f : α → Program Op Answer β}
    (hp : p.All P) (hf : ∀ value, (f value).All P) :
    (p.bind f).All P := by
  induction p with
  | pure value => exact hf value
  | perform op next ih => exact ⟨hp.1, fun answer => ih answer (hp.2 answer)⟩

theorem All.forM
    {ι : Type} {P : Op → Prop} (items : List ι)
    {f : ι → Program Op Answer PUnit} (hf : ∀ item ∈ items, (f item).All P) :
    (items.forM f).All P := by
  induction items with
  | nil => exact trivial
  | cons item items ih =>
      apply All.bind (hf item List.mem_cons_self)
      intro _
      exact ih fun other hmem => hf other (List.mem_cons_of_mem item hmem)

variable {State : Type}

/-- The operations performed, in order, where `perform` says what each of them
does to a state; an operation that fails is the last one. -/
def trace (perform : (op : Op) → State → Option (Answer op × State)) :
    Program Op Answer α → State → List Op
  | .pure _, _ => []
  | .perform op next, s =>
      op :: match perform op s with
        | none => []
        | some (answer, s) => (next answer).trace perform s

variable {perform : (op : Op) → State → Option (Answer op × State)}

theorem trace_perform
    {op : Op} {next : Answer op → Program Op Answer α} {s s' : State}
    {answer : Answer op} (hperform : perform op s = some (answer, s')) :
    (Program.perform op next).trace perform s =
      op :: (next answer).trace perform s' := by
  rw [trace, hperform]

theorem All.trace
    {P : Op → Prop} {p : Program Op Answer α} (hp : p.All P) (s : State) :
    ∀ op ∈ p.trace perform s, P op := by
  induction p generalizing s with
  | pure value => simp [Program.trace]
  | perform op next ih =>
      intro performed hmem
      unfold Program.trace at hmem
      rcases List.mem_cons.mp hmem with rfl | hrest
      · exact hp.1
      · cases hdone : perform op s with
        | none => simp [hdone] at hrest
        | some done =>
            rw [hdone] at hrest
            exact ih done.1 (hp.2 done.1) done.2 performed hrest

/-! ## Runs in which operations fail -/

variable {Error : Type}

/-- The value that the program returns or the error of the operation that
failed, and the state at this point. -/
def exec (perform : (op : Op) → State → Except Error (Answer op) × State) :
    Program Op Answer α → State → Except Error α × State
  | .pure value, s => (.ok value, s)
  | .perform op next, s =>
      match perform op s with
      | (.ok answer, s) => (next answer).exec perform s
      | (.error e, s) => (.error e, s)

section Exec

variable {perform : (op : Op) → State → Except Error (Answer op) × State}

@[simp] theorem exec_pure (value : α) (s : State) :
    (Program.pure value : Program Op Answer α).exec perform s = (.ok value, s) := rfl

theorem exec_perform
    {op : Op} {next : Answer op → Program Op Answer α} {s s' : State}
    {answer : Answer op} (hperform : perform op s = (.ok answer, s')) :
    (Program.perform op next).exec perform s = (next answer).exec perform s' := by
  simp [exec, hperform]

theorem exec_failed
    {op : Op} {next : Answer op → Program Op Answer α} {s s' : State}
    {e : Error} (hperform : perform op s = (.error e, s')) :
    (Program.perform op next).exec perform s = (.error e, s') := by
  simp [exec, hperform]

theorem exec_bind_ok
    {p : Program Op Answer α} {f : α → Program Op Answer β} {s s' : State}
    {value : α} (hp : p.exec perform s = (.ok value, s')) :
    (p.bind f).exec perform s = (f value).exec perform s' := by
  induction p generalizing s with
  | pure first =>
      rw [exec_pure, Prod.mk.injEq, Except.ok.injEq] at hp
      rw [pure_bind, hp.1, hp.2]
  | perform op next ih =>
      cases hop : perform op s with
      | mk outcome s1 =>
          cases outcome with
          | error e =>
              rw [exec_failed hop] at hp
              simp at hp
          | ok answer =>
              rw [exec_perform hop] at hp
              rw [perform_bind, exec_perform hop]
              exact ih answer hp

theorem exec_bind_error
    {p : Program Op Answer α} {f : α → Program Op Answer β} {s s' : State}
    {e : Error} (hp : p.exec perform s = (.error e, s')) :
    (p.bind f).exec perform s = (.error e, s') := by
  induction p generalizing s with
  | pure first => simp at hp
  | perform op next ih =>
      cases hop : perform op s with
      | mk outcome s1 =>
          cases outcome with
          | error e' =>
              rw [exec_failed hop] at hp
              rw [perform_bind, exec_failed hop]
              simpa using hp
          | ok answer =>
              rw [exec_perform hop] at hp
              rw [perform_bind, exec_perform hop]
              exact ih answer hp

/-- What every operation of the program keeps, the run keeps. -/
theorem All.exec
    {P : Op → Prop} {I : State → Prop} {p : Program Op Answer α} (hp : p.All P)
    (hstep : ∀ op, P op → ∀ s, I s → I (perform op s).2) {s : State} (hs : I s) :
    I (p.exec perform s).2 := by
  induction p generalizing s with
  | pure value => exact hs
  | perform op next ih =>
      have hnext := hstep op hp.1 s hs
      cases hop : perform op s with
      | mk outcome s1 =>
          rw [hop] at hnext
          cases outcome with
          | error e =>
              rw [exec_failed hop]
              exact hnext
          | ok answer =>
              rw [exec_perform hop]
              exact ih answer (hp.2 answer) hnext

variable (perform) in
/-- The run ends with a value and in a state of which `Q` holds. -/
def Ends (Q : α → State → Prop) (p : Program Op Answer α) (s : State) : Prop :=
  ∃ value s', p.exec perform s = (.ok value, s') ∧ Q value s'

theorem ends_of_exec
    {Q : α → State → Prop} {p : Program Op Answer α} {s s' : State} {value : α}
    (hp : p.exec perform s = (.ok value, s')) : p.Ends perform Q s ↔ Q value s' := by
  constructor
  · rintro ⟨other, end', hother, hQ⟩
    rw [hp, Prod.mk.injEq, Except.ok.injEq] at hother
    rwa [hother.1, hother.2]
  · exact fun hQ => ⟨value, s', hp, hQ⟩

theorem ends_congr
    {Q : α → State → Prop} {p p' : Program Op Answer α} {s s' : State}
    (hexec : p.exec perform s = p'.exec perform s') :
    p.Ends perform Q s ↔ p'.Ends perform Q s' := by
  unfold Ends
  rw [hexec]

theorem ends_bind_of_exec
    {Q : β → State → Prop} {p : Program Op Answer α} {f : α → Program Op Answer β}
    {s s' : State} {value : α} (hp : p.exec perform s = (.ok value, s')) :
    (p.bind f).Ends perform Q s ↔ (f value).Ends perform Q s' := by
  unfold Ends
  rw [exec_bind_ok hp]

/-- A run of a sequence that ends is a run of both parts that ends. -/
theorem ends_bind
    {Q : β → State → Prop} {p : Program Op Answer α} {f : α → Program Op Answer β}
    {s : State} :
    (p.bind f).Ends perform Q s ↔
      p.Ends perform (fun value => (f value).Ends perform Q) s := by
  cases hp : p.exec perform s with
  | mk outcome s1 =>
      cases outcome with
      | ok value => rw [ends_bind_of_exec hp, ends_of_exec hp]
      | error e =>
          have hbind := exec_bind_error (f := f) hp
          simp [Ends, hp, hbind]

theorem Ends.mono
    {Q Q' : α → State → Prop} {p : Program Op Answer α} {s : State}
    (hp : p.Ends perform Q s) (hQ : ∀ value s, Q value s → Q' value s) :
    p.Ends perform Q' s := by
  rcases hp with ⟨value, s', hexec, h⟩
  exact ⟨value, s', hexec, hQ value s' h⟩

/-- A program has only one run. -/
theorem Ends.and
    {Q Q' : α → State → Prop} {p : Program Op Answer α} {s : State}
    (hp : p.Ends perform Q s) (hp' : p.Ends perform Q' s) :
    p.Ends perform (fun value s => Q value s ∧ Q' value s) s := by
  rcases hp with ⟨value, s', hexec, h⟩
  rw [ends_of_exec hexec] at hp'
  exact ⟨value, s', hexec, h, hp'⟩

theorem Ends.forM
    {ι : Type} {I : State → Prop} {items : List ι} {f : ι → Program Op Answer PUnit}
    (hf : ∀ item ∈ items, ∀ s, I s → (f item).Ends perform (fun _ => I) s)
    {s : State} (hs : I s) : (items.forM f).Ends perform (fun _ => I) s := by
  induction items generalizing s with
  | nil => exact ⟨_, s, rfl, hs⟩
  | cons item items ih =>
      apply ends_bind.mpr
      apply (hf item List.mem_cons_self s hs).mono
      intro _ s hs
      exact ih (fun other hmem => hf other (List.mem_cons_of_mem item hmem)) hs

/-- `I rest` holds before the turns of `rest`. -/
theorem Ends.forM_rest
    {ι : Type} {I : List ι → State → Prop} {f : ι → Program Op Answer PUnit}
    (hf : ∀ item rest s, I (item :: rest) s → (f item).Ends perform (fun _ => I rest) s)
    {items : List ι} {s : State} (hs : I items s) :
    (items.forM f).Ends perform (fun _ => I []) s := by
  induction items generalizing s with
  | nil => exact ⟨_, s, rfl, hs⟩
  | cons item items ih =>
      apply ends_bind.mpr
      apply (hf item items s hs).mono
      intro _ s hs
      exact ih hs

theorem ends_perform
    {Q : α → State → Prop} {op : Op} {next : Answer op → Program Op Answer α}
    {s s' : State} {answer : Answer op} (hperform : perform op s = (.ok answer, s')) :
    (Program.perform op next).Ends perform Q s ↔ (next answer).Ends perform Q s' :=
  ends_congr (exec_perform hperform)

variable (perform) in
/-- If the run ends with a value, `Q` holds of it. -/
structure IfEnds (Q : α → Prop) (p : Program Op Answer α) (s : State) : Prop where
  of_exec : ∀ value s', p.exec perform s = (.ok value, s') → Q value

theorem ifEnds_pure {Q : α → Prop} {value : α} (hQ : Q value) (s : State) :
    (Program.pure value : Program Op Answer α).IfEnds perform Q s := by
  constructor
  intro other s' hexec
  rw [exec_pure, Prod.mk.injEq, Except.ok.injEq] at hexec
  rwa [← hexec.1]

theorem ifEnds_perform
    {Q : α → Prop} {op : Op} {next : Answer op → Program Op Answer α} {s : State}
    (hnext : ∀ answer s', perform op s = (.ok answer, s') →
      (next answer).IfEnds perform Q s') :
    (Program.perform op next).IfEnds perform Q s := by
  constructor
  intro value s' hexec
  cases hop : perform op s with
  | mk outcome s1 =>
      cases outcome with
      | error e =>
          rw [exec_failed hop] at hexec
          simp at hexec
      | ok answer =>
          rw [exec_perform hop] at hexec
          exact (hnext answer s1 hop).of_exec value s' hexec

theorem IfEnds.bind
    {Q : β → Prop} {R : α → Prop} {p : Program Op Answer α} {f : α → Program Op Answer β}
    {s : State} (hp : p.IfEnds perform R s)
    (hf : ∀ value, R value → ∀ s', (f value).IfEnds perform Q s') :
    (p.bind f).IfEnds perform Q s := by
  constructor
  intro value s' hexec
  cases hfirst : p.exec perform s with
  | mk outcome s1 =>
      cases outcome with
      | error e =>
          rw [exec_bind_error hfirst] at hexec
          simp at hexec
      | ok first =>
          rw [exec_bind_ok hfirst] at hexec
          exact (hf first (hp.of_exec first s1 hfirst) s1).of_exec value s' hexec

/-- The rule of a counted loop; `I i` holds before the turn `i`. -/
theorem Ends.forM_range
    {I : ℕ → State → Prop} {n : ℕ} {f : ℕ → Program Op Answer PUnit}
    (hf : ∀ i < n, ∀ s, I i s → (f i).Ends perform (fun _ => I (i + 1)) s)
    {s : State} (hs : I 0 s) : ((List.range n).forM f).Ends perform (fun _ => I n) s := by
  have hloop : ∀ count start s, start + count = n → I start s →
      ((List.range' start count).forM f).Ends perform (fun _ => I n) s := by
    intro count
    induction count with
    | zero =>
        intro start s hn hstart
        have hend : start = n := hn
        subst hend
        exact ⟨_, s, rfl, hstart⟩
    | succ count ih =>
        intro start s hn hstart
        apply ends_bind.mpr
        apply (hf start (by omega) s hstart).mono
        intro _ s hs
        exact ih (start + 1) s (by omega) hs
  rw [List.range_eq_range']
  exact hloop n 0 s (Nat.zero_add n) hs

end Exec

end Program

end Programs
