import Mathlib.Logic.Function.Basic
import Mathlib.Logic.Relation
import Mathlib.Tactic

/-!
# Marking a graph with bounded recursion

Marking follows references depth first and sets a node aside where it would go
too deep.  Scans over a list of nodes start again from the nodes that have been
set aside, until no scan goes too deep.  A reached node is then closed, as in
tricolour marking, unless it has been set aside and is not scanned.
-/

namespace DepthLimitedMarking

variable {Node : Type}

structure Marking (Node : Type) where
  reached : Node → Bool
  deferred : Node → Bool
  limitHit : Bool

namespace Marking

variable [DecidableEq Node] (m : Marking Node) (x : Node)

def reach : Marking Node := { m with reached := Function.update m.reached x true }

def defer : Marking Node :=
  { m with deferred := Function.update m.deferred x true, limitHit := true }

/-- As before it was reached. -/
def forget : Marking Node :=
  { m with
    reached := Function.update m.reached x false
    deferred := Function.update m.deferred x false }

end Marking

section Functions

variable [DecidableEq Node] (refs : Node → List Node)

/-- With `room` for this many levels below `x`. -/
def mark : ℕ → Marking Node → Node → Marking Node
  | 0, m, x => if m.reached x then m else (m.reach x).defer x
  | room + 1, m, x => if m.reached x then m else (refs x).foldl (mark room) (m.reach x)

def handle (limit : ℕ) (m : Marking Node) (x : Node) : Marking Node :=
  if m.deferred x then mark refs limit (m.forget x) x else m

def scan (limit : ℕ) (scanned : List Node) (m : Marking Node) : Marking Node :=
  scanned.foldl (handle refs limit) { m with limitHit := false }

def rescan (limit : ℕ) (scanned : List Node) : ℕ → Marking Node → Option (Marking Node)
  | 0, m => if m.limitHit then none else some m
  | fuel + 1, m =>
      if m.limitHit then rescan limit scanned fuel (scan refs limit scanned m) else some m

end Functions

def Reaches (refs : Node → List Node) : Node → Node → Prop :=
  Relation.ReflTransGen fun x y => y ∈ refs x

/-! ## What marking does -/

/-- A node that has been reached and not set aside stays so. -/
structure Settles (m m' : Marking Node) : Prop where
  reached : ∀ x, m.reached x → m'.reached x
  limitHit : m.limitHit → m'.limitHit
  of_deferred : ∀ x, m'.deferred x →
    m.deferred x ∨ m.reached x = false ∧ m'.limitHit

/-- Besides, what is newly reached satisfies `P`, and is closed or set aside. -/
structure Grows (refs : Node → List Node) (P : Node → Prop) (m m' : Marking Node) : Prop
    extends Settles m m' where
  deferred : ∀ x, m.deferred x → m'.deferred x
  reached_of_deferred : ∀ x, m'.deferred x → m.deferred x ∨ m'.reached x
  of_reached : ∀ x, m'.reached x →
    m.reached x ∨ P x ∧ (m'.deferred x ∨ ∀ y ∈ refs x, m'.reached y)

variable {refs : Node → List Node} {P : Node → Prop} {m m' m'' : Marking Node}

namespace Settles

theorem refl (m : Marking Node) : Settles m m := by
  constructor
  · exact fun _ h => h
  · exact fun h => h
  · exact fun _ h => .inl h

theorem trans (h : Settles m m') (h' : Settles m' m'') : Settles m m'' := by
  constructor
  · intro x hx
    exact h'.reached x (h.reached x hx)
  · intro hlimit
    exact h'.limitHit (h.limitHit hlimit)
  · intro x hx
    rcases h'.of_deferred x hx with hbefore | ⟨hnew, hlimit⟩
    · rcases h.of_deferred x hbefore with hbefore | ⟨hnew, hlimit⟩
      · exact .inl hbefore
      · exact .inr ⟨hnew, h'.limitHit hlimit⟩
    · refine .inr ⟨?_, hlimit⟩
      cases hx : m.reached x with
      | false => rfl
      | true => simp [h.reached x hx] at hnew

theorem deferred_eq_false (h : Settles m m') {x : Node} (hreached : m.reached x)
    (hdeferred : m.deferred x = false) : m'.deferred x = false := by
  cases hx : m'.deferred x with
  | false => rfl
  | true =>
      rcases h.of_deferred x hx with hbefore | ⟨hnew, -⟩
      · simp [hdeferred] at hbefore
      · simp [hreached] at hnew

end Settles

namespace Grows

theorem refl (m : Marking Node) : Grows refs P m m where
  toSettles := Settles.refl m
  deferred := fun _ h => h
  reached_of_deferred := fun _ h => .inl h
  of_reached := fun _ h => .inl h

theorem trans (h : Grows refs P m m') (h' : Grows refs P m' m'') : Grows refs P m m'' where
  toSettles := h.toSettles.trans h'.toSettles
  deferred := fun x hx => h'.deferred x (h.deferred x hx)
  reached_of_deferred := by
    intro x hx
    rcases h'.reached_of_deferred x hx with hbefore | hreached
    · rcases h.reached_of_deferred x hbefore with hbefore | hreached
      · exact .inl hbefore
      · exact .inr (h'.reached x hreached)
    · exact .inr hreached
  of_reached := by
    intro x hx
    rcases h'.of_reached x hx with hbefore | hnew
    · rcases h.of_reached x hbefore with hbefore | ⟨hP, haside | hclosed⟩
      · exact .inl hbefore
      · exact .inr ⟨hP, .inl (h'.deferred x haside)⟩
      · exact .inr ⟨hP, .inr fun y hy => h'.reached y (hclosed y hy)⟩
    · exact .inr hnew

theorem foldl {f : Marking Node → Node → Marking Node} {xs : List Node}
    (hf : ∀ m, ∀ x ∈ xs, Grows refs P m (f m x) ∧ (f m x).reached x)
    (m : Marking Node) :
    Grows refs P m (xs.foldl f m) ∧ ∀ x ∈ xs, (xs.foldl f m).reached x := by
  induction xs generalizing m with
  | nil => exact ⟨refl m, by simp⟩
  | cons x xs ih =>
      have hhead := hf m x List.mem_cons_self
      have htail := ih (fun m y hy => hf m y (List.mem_cons_of_mem x hy)) (f m x)
      constructor
      · exact hhead.1.trans htail.1
      · intro y hy
        rcases List.mem_cons.mp hy with rfl | hy
        · exact htail.1.reached _ hhead.2
        · exact htail.2 y hy

end Grows

/-! ## Tricolour markings -/

/-- Every reached node satisfies `P`, and is closed or set aside. -/
structure Tricolour (refs : Node → List Node) (P : Node → Prop) (scanned : List Node)
    (m : Marking Node) : Prop where
  sound : ∀ x, m.reached x → P x
  closed : ∀ x, m.reached x → m.deferred x ∨ ∀ y ∈ refs x, m.reached y
  reached : ∀ x ∈ scanned, m.deferred x → m.reached x

variable {scanned : List Node}

namespace Tricolour

theorem grows (h : Tricolour refs P scanned m) (hgrows : Grows refs P m m') :
    Tricolour refs P scanned m' := by
  constructor
  · intro x hx
    rcases hgrows.of_reached x hx with hbefore | ⟨hP, -⟩
    · exact h.sound x hbefore
    · exact hP
  · intro x hx
    rcases hgrows.of_reached x hx with hbefore | ⟨-, hnew⟩
    · rcases h.closed x hbefore with haside | hrefs
      · exact .inl (hgrows.deferred x haside)
      · exact .inr fun y hy => hgrows.reached y (hrefs y hy)
    · exact hnew
  · intro x hscanned hx
    rcases hgrows.reached_of_deferred x hx with hbefore | hreached
    · exact hgrows.reached x (h.reached x hscanned hbefore)
    · exact hreached

theorem withLimit (h : Tricolour refs P scanned m) (hit : Bool) :
    Tricolour refs P scanned { m with limitHit := hit } :=
  ⟨h.sound, h.closed, h.reached⟩

theorem reached_of_reaches (h : Tricolour refs P scanned m)
    (haside : ∀ x, m.reached x → m.deferred x → ∀ y ∈ refs x, m.reached y) {x y : Node}
    (hx : m.reached x) (hxy : Reaches refs x y) : m.reached y := by
  induction hxy with
  | refl => exact hx
  | tail _ hstep ih =>
      rcases h.closed _ ih with hdeferred | hrefs
      · exact haside _ ih hdeferred _ hstep
      · exact hrefs _ hstep

end Tricolour

def settled (m : Marking Node) (x : Node) : Bool := m.reached x && !m.deferred x

/-- Each scan that goes too deep has settled one of these. -/
def unsettled (scanned : List Node) (m : Marking Node) : ℕ :=
  scanned.countP fun x => !settled m x

theorem Settles.settled {x : Node} (h : Settles m m') (hx : settled m x) : settled m' x := by
  simp only [DepthLimitedMarking.settled, Bool.and_eq_true, Bool.not_eq_true'] at hx ⊢
  exact ⟨h.reached x hx.1, h.deferred_eq_false hx.1 hx.2⟩

theorem unsettled_lt {x : Node} (h : Settles m m') (hx : x ∈ scanned)
    (hbefore : settled m x = false) (hafter : settled m' x) :
    unsettled scanned m' < unsettled scanned m := by
  induction scanned with
  | nil => simp at hx
  | cons y ys ih =>
      have hle : unsettled ys m' ≤ unsettled ys m := by
        apply List.countP_mono_left
        intro z _ hz
        cases hsettled : settled m z with
        | false => rfl
        | true => simp [h.settled hsettled] at hz
      simp only [unsettled, List.countP_cons] at hle ⊢
      rcases List.mem_cons.mp hx with rfl | hx
      · simp [hbefore, hafter]
        omega
      · have hlt := ih hx
        simp only [unsettled] at hlt
        cases hy : settled m y with
        | false => cases settled m' y <;> simp <;> omega
        | true =>
            have hy' := h.settled hy
            simp [hy']
            exact hlt

section Marking

variable [DecidableEq Node]

namespace Marking

@[simp] theorem reach_reached (m : Marking Node) (x y : Node) :
    (m.reach x).reached y = (decide (y = x) || m.reached y) := by
  by_cases h : y = x <;> simp [reach, Function.update, h]

@[simp] theorem reach_deferred (m : Marking Node) (x : Node) :
    (m.reach x).deferred = m.deferred := rfl

@[simp] theorem defer_reached (m : Marking Node) (x : Node) :
    (m.defer x).reached = m.reached := rfl

@[simp] theorem defer_deferred (m : Marking Node) (x y : Node) :
    (m.defer x).deferred y = (decide (y = x) || m.deferred y) := by
  by_cases h : y = x <;> simp [defer, Function.update, h]

@[simp] theorem defer_limitHit (m : Marking Node) (x : Node) :
    (m.defer x).limitHit = true := rfl

@[simp] theorem forget_reached (m : Marking Node) (x y : Node) :
    (m.forget x).reached y = (decide (y ≠ x) && m.reached y) := by
  by_cases h : y = x <;> simp [forget, Function.update, h]

@[simp] theorem forget_deferred (m : Marking Node) (x y : Node) :
    (m.forget x).deferred y = (decide (y ≠ x) && m.deferred y) := by
  by_cases h : y = x <;> simp [forget, Function.update, h]

end Marking

theorem mark_of_reached {x : Node} (hx : m.reached x) (room : ℕ) :
    mark refs room m x = m := by
  cases room <;> simp [mark, hx]

theorem grows_defer {x : Node} (hP : P x) (hx : m.reached x = false) :
    Grows refs P m ((m.reach x).defer x) := by
  constructor
  · constructor
    · intro y hy
      simp [hy]
    · simp
    · intro y hy
      rcases eq_or_ne y x with rfl | hne
      · exact .inr ⟨hx, rfl⟩
      · left
        simpa [hne] using hy
  · intro y hy
    simp [hy]
  · intro y hy
    rcases eq_or_ne y x with rfl | hne
    · simp
    · left
      simpa [hne] using hy
  · intro y hy
    rcases eq_or_ne y x with rfl | hne
    · exact .inr ⟨hP, by simp⟩
    · left
      simpa [hne] using hy

/-- Once all references of `x` have been reached, `x` is no exception. -/
theorem Grows.of_reach {x : Node} (hP : P x) (hx : m.reached x = false)
    (h : Grows refs P (m.reach x) m') (hrefs : ∀ y ∈ refs x, m'.reached y) :
    Grows refs P m m' := by
  constructor
  · constructor
    · intro y hy
      exact h.reached y (by simp [hy])
    · exact h.limitHit
    · intro y hy
      rcases h.of_deferred y hy with hbefore | ⟨hnew, hlimit⟩
      · exact .inl hbefore
      · refine .inr ⟨?_, hlimit⟩
        simp at hnew
        exact hnew.2
  · exact h.deferred
  · exact h.reached_of_deferred
  · intro y hy
    rcases h.of_reached y hy with hbefore | hnew
    · rcases eq_or_ne y x with rfl | hne
      · exact .inr ⟨hP, .inr hrefs⟩
      · left
        simpa [hne] using hbefore
    · exact .inr hnew

theorem grows_mark (hclosed : ∀ x y, P x → y ∈ refs x → P y) (room : ℕ)
    (m : Marking Node) {x : Node} (hP : P x) :
    Grows refs P m (mark refs room m x) ∧ (mark refs room m x).reached x := by
  induction room generalizing m x with
  | zero =>
      cases hx : m.reached x with
      | true =>
          rw [mark_of_reached hx]
          exact ⟨Grows.refl m, hx⟩
      | false =>
          simp only [mark, hx]
          exact ⟨grows_defer hP hx, by simp⟩
  | succ room ih =>
      cases hx : m.reached x with
      | true =>
          rw [mark_of_reached hx]
          exact ⟨Grows.refl m, hx⟩
      | false =>
          have hstep : ∀ m, ∀ y ∈ refs x,
              Grows refs P m (mark refs room m y) ∧ (mark refs room m y).reached y :=
            fun m y hy => ih m (hclosed x y hP hy)
          have hrefs := Grows.foldl hstep (m.reach x)
          simp only [mark, hx]
          constructor
          · exact Grows.of_reach hP hx hrefs.1 hrefs.2
          · exact hrefs.1.reached x (by simp)

/-- With room for one level, the node itself is not set aside. -/
theorem mark_deferred_self (room : ℕ) {x : Node} (hx : m.deferred x = false) :
    (mark refs (room + 1) m x).deferred x = false := by
  cases hreached : m.reached x with
  | true =>
      rw [mark_of_reached hreached]
      exact hx
  | false =>
      have hstep : ∀ m, ∀ y ∈ refs x, Grows refs (fun _ => True) m (mark refs room m y) ∧
          (mark refs room m y).reached y :=
        fun m y _ => grows_mark (fun _ _ _ _ => trivial) room m trivial
      have hrefs := Grows.foldl hstep (m.reach x)
      simp only [mark, hreached]
      exact hrefs.1.toSettles.deferred_eq_false (by simp) hx

variable {limit : ℕ}

/-- What handling a node does to the marking. -/
structure Handled (refs : Node → List Node) (P : Node → Prop) (scanned : List Node)
    (m m' : Marking Node) (x : Node) : Prop extends Settles m m' where
  tricolour : Tricolour refs P scanned m'
  kept : ∀ y, y ∉ scanned → m.deferred y → m'.deferred y
  deferred_self : m'.deferred x = false

theorem handled (hclosed : ∀ x y, P x → y ∈ refs x → P y)
    (h : Tricolour refs P scanned m) {x : Node} (hx : x ∈ scanned) :
    Handled refs P scanned m (handle refs (limit + 1) m x) x := by
  cases hdeferred : m.deferred x with
  | false =>
      have heq : handle refs (limit + 1) m x = m := by simp [handle, hdeferred]
      rw [heq]
      exact ⟨Settles.refl m, h, fun _ _ hy => hy, hdeferred⟩
  | true =>
      have heq : handle refs (limit + 1) m x = mark refs (limit + 1) (m.forget x) x := by
        simp [handle, hdeferred]
      have hreached := h.reached x hx hdeferred
      have hmark := grows_mark hclosed (limit + 1) (m.forget x) (h.sound x hreached)
      have hself : (mark refs (limit + 1) (m.forget x) x).deferred x = false :=
        mark_deferred_self limit (by simp)
      rw [heq]
      generalize mark refs (limit + 1) (m.forget x) x = m' at hmark hself ⊢
      rcases hmark with ⟨hgrows, hx'⟩
      have hmono : ∀ y, m.reached y → m'.reached y := by
        intro y hy
        rcases eq_or_ne y x with rfl | hne
        · exact hx'
        · exact hgrows.reached y (by simp [hne, hy])
      constructor
      · constructor
        · exact hmono
        · exact hgrows.limitHit
        · intro y hy
          have hne : y ≠ x := by
            intro heq
            subst heq
            simp [hself] at hy
          simpa [hne] using hgrows.of_deferred y hy
      · constructor
        · intro y hy
          rcases hgrows.of_reached y hy with hbefore | ⟨hP, -⟩
          · simp at hbefore
            exact h.sound y hbefore.2
          · exact hP
        · intro y hy
          rcases hgrows.of_reached y hy with hbefore | ⟨-, hnew⟩
          · simp at hbefore
            rcases h.closed y hbefore.2 with haside | hrefs
            · exact .inl (hgrows.deferred y (by simp [hbefore.1, haside]))
            · exact .inr fun z hz => hmono z (hrefs z hz)
          · exact hnew
        · intro y hscanned hy
          rcases hgrows.reached_of_deferred y hy with hbefore | hnew
          · simp at hbefore
            exact hmono y (h.reached y hscanned hbefore.2)
          · exact hnew
      · intro y hscanned hy
        have hne : y ≠ x := by
          intro heq
          subst heq
          exact hscanned hx
        exact hgrows.deferred y (by simp [hne, hy])
      · exact hself

/-! ## Scans -/

/-- What a scan of `xs`, some of the scanned nodes, does. -/
structure Scanned (refs : Node → List Node) (P : Node → Prop) (scanned : List Node)
    (m m' : Marking Node) (xs : List Node) : Prop extends Settles m m' where
  tricolour : Tricolour refs P scanned m'
  kept : ∀ x, x ∉ scanned → m.deferred x → m'.deferred x
  resumed : ∀ x ∈ xs, m.deferred x → m'.deferred x = false
  limitHit_of_deferred : ∀ x ∈ xs, m'.deferred x → m'.limitHit

theorem scanned_foldl (hclosed : ∀ x y, P x → y ∈ refs x → P y) {xs : List Node}
    (hxs : ∀ x ∈ xs, x ∈ scanned) (h : Tricolour refs P scanned m) :
    Scanned refs P scanned m (xs.foldl (handle refs (limit + 1)) m) xs := by
  induction xs generalizing m with
  | nil => exact ⟨Settles.refl m, h, fun _ _ hx => hx, by simp, by simp⟩
  | cons x xs ih =>
      have hhead : Handled refs P scanned m (handle refs (limit + 1) m x) x :=
        handled hclosed h (hxs x List.mem_cons_self)
      have htail := ih (fun y hy => hxs y (List.mem_cons_of_mem x hy)) hhead.tricolour
      have hfold : (x :: xs).foldl (handle refs (limit + 1)) m =
          xs.foldl (handle refs (limit + 1)) (handle refs (limit + 1) m x) := rfl
      rw [hfold]
      generalize handle refs (limit + 1) m x = m' at hhead htail ⊢
      constructor
      · exact hhead.toSettles.trans htail.toSettles
      · exact htail.tricolour
      · intro y hscanned hy
        exact htail.kept y hscanned (hhead.kept y hscanned hy)
      · intro y hy hdeferred
        have hreached := hhead.reached y (h.reached y (hxs y hy) hdeferred)
        cases hnow : m'.deferred y with
        | false => exact htail.toSettles.deferred_eq_false hreached hnow
        | true =>
            rcases List.mem_cons.mp hy with rfl | hy
            · simp [hhead.deferred_self] at hnow
            · exact htail.resumed y hy hnow
      · intro y hy hdeferred
        rcases List.mem_cons.mp hy with rfl | hy
        · rcases htail.of_deferred _ hdeferred with hbefore | ⟨-, hlimit⟩
          · simp [hhead.deferred_self] at hbefore
          · exact hlimit
        · exact htail.limitHit_of_deferred y hy hdeferred

theorem scanned_scan (hclosed : ∀ x y, P x → y ∈ refs x → P y)
    (h : Tricolour refs P scanned m) :
    Scanned refs P scanned { m with limitHit := false } (scan refs (limit + 1) scanned m)
      scanned :=
  scanned_foldl hclosed (fun _ hx => hx) (h.withLimit false)

theorem scan_of_forall (hdeferred : ∀ x ∈ scanned, m.deferred x = false) :
    scan refs limit scanned m = { m with limitHit := false } := by
  have hfold : ∀ xs : List Node, (∀ x ∈ xs, m.deferred x = false) →
      xs.foldl (handle refs limit) { m with limitHit := false } =
        { m with limitHit := false } := by
    intro xs hxs
    induction xs with
    | nil => rfl
    | cons x xs ih =>
        have hx := hxs x List.mem_cons_self
        simp only [List.foldl_cons, handle, hx]
        exact ih fun y hy => hxs y (List.mem_cons_of_mem x hy)
  exact hfold scanned hdeferred

/-- The marking when the scans have come to an end. -/
structure Rescanned (refs : Node → List Node) (P : Node → Prop) (scanned : List Node)
    (m m' : Marking Node) : Prop where
  reached : ∀ x, m.reached x → m'.reached x
  tricolour : Tricolour refs P scanned m'
  kept : ∀ x, x ∉ scanned → m.deferred x → m'.deferred x
  limitHit : m'.limitHit = false
  deferred : ∀ x ∈ scanned, m'.deferred x = false

theorem exists_rescan_of_lt (hclosed : ∀ x y, P x → y ∈ refs x → P y) {fuel : ℕ}
    (h : Tricolour refs P scanned m) (hdeferred : ∀ x ∈ scanned, m.deferred x → m.limitHit)
    (hfuel : unsettled scanned m < fuel) :
    ∃ m', rescan refs (limit + 1) scanned fuel m = some m' ∧
      Rescanned refs P scanned m m' := by
  induction fuel generalizing m with
  | zero => omega
  | succ fuel ih =>
      cases hlimit : m.limitHit with
      | false =>
          refine ⟨m, by simp [rescan, hlimit], fun _ hx => hx, h, fun _ _ hx => hx, hlimit, ?_⟩
          intro x hx
          cases hnow : m.deferred x with
          | false => rfl
          | true => simp [hdeferred x hx hnow] at hlimit
      | true =>
          have hscan : Scanned refs P scanned { m with limitHit := false }
              (scan refs (limit + 1) scanned m) scanned := scanned_scan hclosed h
          have heq : rescan refs (limit + 1) scanned (fuel + 1) m =
              rescan refs (limit + 1) scanned fuel (scan refs (limit + 1) scanned m) := by
            simp [rescan, hlimit]
          rw [heq]
          by_cases hany : ∃ x ∈ scanned, m.deferred x
          · rcases hany with ⟨x, hx, hdeferred⟩
            have hlt : unsettled scanned (scan refs (limit + 1) scanned m) <
                unsettled scanned m := by
              apply unsettled_lt hscan.toSettles hx
              · simp [settled, hdeferred]
              · have hreached := hscan.reached x (h.reached x hx hdeferred)
                simp [settled, hreached, hscan.resumed x hx hdeferred]
            rcases ih hscan.tricolour hscan.limitHit_of_deferred (by omega) with
              ⟨m', hm', hrescanned⟩
            refine ⟨m', hm', ?_, hrescanned.tricolour, ?_, hrescanned.limitHit,
              hrescanned.deferred⟩
            · intro y hy
              exact hrescanned.reached y (hscan.reached y hy)
            · intro y hscanned hy
              exact hrescanned.kept y hscanned (hscan.kept y hscanned hy)
          · have hnone : ∀ x ∈ scanned, m.deferred x = false := by
              intro x hx
              cases hnow : m.deferred x with
              | false => rfl
              | true => exact absurd ⟨x, hx, hnow⟩ hany
            rw [scan_of_forall hnone]
            refine ⟨{ m with limitHit := false }, ?_, fun _ hx => hx, h.withLimit false,
              fun _ _ hx => hx, rfl, hnone⟩
            cases fuel <;> simp [rescan]

theorem exists_rescan (hclosed : ∀ x y, P x → y ∈ refs x → P y)
    (h : Tricolour refs P scanned m) (hdeferred : ∀ x ∈ scanned, m.deferred x → m.limitHit) :
    ∃ m', rescan refs (limit + 1) scanned (scanned.length + 1) m = some m' ∧
      Rescanned refs P scanned m m' := by
  apply exists_rescan_of_lt hclosed h hdeferred
  have hle : unsettled scanned m ≤ scanned.length := List.countP_le_length
  omega

/-- Marking from these nodes, and scanning, until no node is set aside. -/
structure Completed (refs : Node → List Node) (P : Node → Prop) (scanned xs : List Node)
    (m m' : Marking Node) : Prop extends Rescanned refs P scanned m m' where
  sources : ∀ x ∈ xs, m'.reached x

theorem exists_completed (hclosed : ∀ x y, P x → y ∈ refs x → P y) {xs : List Node}
    (hxs : ∀ x ∈ xs, P x) (h : Tricolour refs P scanned m)
    (hdeferred : ∀ x ∈ scanned, m.deferred x = false) :
    ∃ m', rescan refs (limit + 1) scanned (scanned.length + 1)
        (xs.foldl (mark refs (limit + 1)) m) = some m' ∧
      Completed refs P scanned xs m m' := by
  have hstep : ∀ m, ∀ x ∈ xs, Grows refs P m (mark refs (limit + 1) m x) ∧
      (mark refs (limit + 1) m x).reached x :=
    fun m x hx => grows_mark hclosed (limit + 1) m (hxs x hx)
  have hmarked := Grows.foldl hstep m
  have hlimit : ∀ x ∈ scanned, (xs.foldl (mark refs (limit + 1)) m).deferred x →
      (xs.foldl (mark refs (limit + 1)) m).limitHit := by
    intro x hx hnow
    rcases hmarked.1.of_deferred x hnow with hbefore | ⟨-, hlimit⟩
    · simp [hdeferred x hx] at hbefore
    · exact hlimit
  rcases exists_rescan hclosed (h.grows hmarked.1) hlimit with ⟨m', hm', hrescanned⟩
  refine ⟨m', hm', ⟨?_, hrescanned.tricolour, ?_, hrescanned.limitHit, hrescanned.deferred⟩, ?_⟩
  · intro x hx
    exact hrescanned.reached x (hmarked.1.reached x hx)
  · intro x hscanned hx
    exact hrescanned.kept x hscanned (hmarked.1.deferred x hx)
  · intro x hx
    exact hrescanned.reached x (hmarked.2 x hx)

end Marking

end DepthLimitedMarking
