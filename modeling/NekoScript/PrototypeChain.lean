import Mathlib.Tactic

/-!
# Objects with prototypes

Objects carry a table of own properties and an optional prototype.  A read
walks the chain until some object has the key itself, and gives up after a
fixed number of links.  Writes and deletions act on the object itself only.
-/

namespace PrototypeChain

structure Object (Key Value : Type*) where
  prototype : Option ℕ
  own : Key → Option Value

abbrev Heap (Key Value : Type*) := ℕ → Option (Object Key Value)

/-- The outcome of a read: the object that has the property, or the reason
there is none. -/
inductive Lookup (Value : Type*) where
  | found (holder : ℕ) (value : Value)
  | absent
  | chainLimit
  deriving DecidableEq, Repr

variable {Key Value : Type*}

def Heap.own (heap : Heap Key Value) (object : ℕ) (key : Key) :
    Option Value :=
  (heap object).bind fun entry => entry.own key

/-- Read `key` from `object`, following at most `links` prototype links. -/
def Heap.lookup (heap : Heap Key Value) (key : Key) :
    ℕ → ℕ → Lookup Value
  | links, object =>
      match heap object with
      | none => .absent
      | some entry =>
          match entry.own key with
          | some value => .found object value
          | none =>
              match links with
              | 0 => .chainLimit
              | links + 1 =>
                  match entry.prototype with
                  | none => .absent
                  | some parent => Heap.lookup heap key links parent

/-- The first `length` objects of a prototype chain. -/
def Heap.chain (heap : Heap Key Value) : ℕ → ℕ → List ℕ
  | 0, _ => []
  | length + 1, object =>
      match heap object with
      | none => []
      | some entry =>
          object ::
            match entry.prototype with
            | none => []
            | some parent => Heap.chain heap length parent

theorem Heap.lookup_eq_of_own
    {heap : Heap Key Value} {key : Key} {object : ℕ} {value : Value}
    (hown : heap.own object key = some value) (links : ℕ) :
    heap.lookup key links object = .found object value := by
  unfold Heap.own at hown
  cases hentry : heap object with
  | none => simp [hentry] at hown
  | some entry =>
      rw [hentry, Option.bind_some] at hown
      unfold Heap.lookup
      simp [hentry, hown]

/-- A read that finds the key finds it at the object or through its parent. -/
theorem Heap.of_lookup_found
    {heap : Heap Key Value} {key : Key} {links : ℕ}
    {object holder : ℕ} {value : Value}
    (hlookup : heap.lookup key links object = .found holder value) :
    ∃ entry, heap object = some entry ∧
      (holder = object ∧ entry.own key = some value ∨
        ∃ rest parent, links = rest + 1 ∧ entry.prototype = some parent ∧
          heap.lookup key rest parent = .found holder value) := by
  unfold Heap.lookup at hlookup
  cases hentry : heap object with
  | none => simp [hentry] at hlookup
  | some entry =>
      refine ⟨entry, rfl, ?_⟩
      cases hown : entry.own key with
      | some stored =>
          simp only [hentry, hown, Lookup.found.injEq] at hlookup
          exact .inl ⟨hlookup.1.symm, congrArg some hlookup.2⟩
      | none =>
          cases links with
          | zero => simp [hentry, hown] at hlookup
          | succ rest =>
              cases hparent : entry.prototype with
              | none => simp [hentry, hown, hparent] at hlookup
              | some parent =>
                  simp only [hentry, hown, hparent] at hlookup
                  exact .inr ⟨rest, parent, rfl, rfl, hlookup⟩

theorem Heap.own_of_lookup
    {heap : Heap Key Value} {key : Key} {links : ℕ}
    {object holder : ℕ} {value : Value}
    (hlookup : heap.lookup key links object = .found holder value) :
    heap.own holder key = some value := by
  induction links generalizing object with
  | zero =>
      rcases Heap.of_lookup_found hlookup with
        ⟨entry, hentry, ⟨rfl, hown⟩ | ⟨rest, parent, hlinks, _⟩⟩
      · simp [Heap.own, hentry, hown]
      · contradiction
  | succ links ih =>
      rcases Heap.of_lookup_found hlookup with
        ⟨entry, hentry, ⟨rfl, hown⟩ | ⟨rest, parent, hlinks, _, hrest⟩⟩
      · simp [Heap.own, hentry, hown]
      · have hsame : links = rest := Nat.succ.inj hlinks
        subst rest
        exact ih hrest

/-- A property that the object does not have itself is found at the prototype
of some object. -/
theorem Heap.exists_child_of_lookup
    {heap : Heap Key Value} {key : Key} {links : ℕ}
    {object holder : ℕ} {value : Value}
    (hlookup : heap.lookup key links object = .found holder value)
    (hne : holder ≠ object) :
    ∃ child entry, heap child = some entry ∧ entry.prototype = some holder := by
  induction links generalizing object with
  | zero =>
      rcases Heap.of_lookup_found hlookup with
        ⟨entry, _, ⟨heq, _⟩ | ⟨rest, parent, hlinks, _⟩⟩
      · exact absurd heq hne
      · contradiction
  | succ links ih =>
      rcases Heap.of_lookup_found hlookup with
        ⟨entry, hentry, ⟨heq, _⟩ | ⟨rest, parent, hlinks, hparent, hrest⟩⟩
      · exact absurd heq hne
      · have hsame : links = rest := Nat.succ.inj hlinks
        subst rest
        by_cases hholder : holder = parent
        · exact ⟨object, entry, hentry, hholder ▸ hparent⟩
        · exact ih hrest hholder

/-! ## Reads along the chain -/

theorem Heap.chain_of_none
    {heap : Heap Key Value} {object : ℕ} (hentry : heap object = none) (length : ℕ) :
    heap.chain length object = [] := by
  cases length <;> simp [Heap.chain, hentry]

theorem Heap.chain_succ
    {heap : Heap Key Value} {object : ℕ} {entry : Object Key Value}
    (hentry : heap object = some entry) (length : ℕ) :
    heap.chain (length + 1) object =
      object :: (entry.prototype.map (heap.chain length)).getD [] := by
  rw [Heap.chain]
  cases hparent : entry.prototype <;> simp [hentry, hparent]

/-- A read that finds the key finds it within the objects it looks at. -/
theorem Heap.mem_chain_of_lookup
    {heap : Heap Key Value} {key : Key} {links : ℕ}
    {object holder : ℕ} {value : Value}
    (hlookup : heap.lookup key links object = .found holder value) :
    holder ∈ heap.chain (links + 1) object := by
  induction links generalizing object with
  | zero =>
      rcases Heap.of_lookup_found hlookup with
        ⟨entry, hentry, ⟨rfl, _⟩ | ⟨rest, parent, hlinks, _⟩⟩
      · rw [Heap.chain_succ hentry]
        exact List.mem_cons_self
      · contradiction
  | succ links ih =>
      rcases Heap.of_lookup_found hlookup with
        ⟨entry, hentry, ⟨rfl, _⟩ | ⟨rest, parent, hlinks, hparent, hrest⟩⟩
      · rw [Heap.chain_succ hentry]
        exact List.mem_cons_self
      · have hsame : links = rest := Nat.succ.inj hlinks
        subst rest
        rw [Heap.chain_succ hentry, hparent]
        exact List.mem_cons_of_mem _ (ih hrest)

/-- A read that looks at an object with the key finds it somewhere. -/
theorem Heap.exists_found_of_mem_chain
    {heap : Heap Key Value} {key : Key} {links : ℕ} {object holder : ℕ}
    (hmem : holder ∈ heap.chain (links + 1) object)
    (hown : heap.own holder key ≠ none) :
    ∃ nearest value, heap.lookup key links object = .found nearest value := by
  induction links generalizing object with
  | zero =>
      cases hentry : heap object with
      | none => simp [Heap.chain_of_none hentry] at hmem
      | some entry =>
          have hsame : holder = object := by
            rw [Heap.chain_succ hentry] at hmem
            cases hparent : entry.prototype with
            | none => simpa [hparent] using hmem
            | some parent => simpa [hparent, Heap.chain] using hmem
          subst holder
          obtain ⟨value, hvalue⟩ := Option.ne_none_iff_exists'.mp hown
          exact ⟨object, value, Heap.lookup_eq_of_own hvalue 0⟩
  | succ links ih =>
      cases hentry : heap object with
      | none => simp [Heap.chain_of_none hentry] at hmem
      | some entry =>
          unfold Heap.lookup
          simp only [hentry]
          cases hkey : entry.own key with
          | some value => exact ⟨object, value, rfl⟩
          | none =>
              have hne : holder ≠ object := by
                rintro rfl
                simp [Heap.own, hentry, hkey] at hown
              rw [Heap.chain_succ hentry] at hmem
              have hrest := (List.mem_cons.mp hmem).resolve_left hne
              cases hparent : entry.prototype with
              | none => simp [hparent] at hrest
              | some parent =>
                  rw [hparent] at hrest
                  exact ih hrest

/-- If no object of the chain has the key, the read fails at the limit or at
the end of the chain. -/
theorem Heap.lookup_of_forall_chain
    {heap : Heap Key Value} {key : Key} {links object : ℕ}
    (hnone : ∀ holder ∈ heap.chain (links + 1) object,
      heap.own holder key = none) :
    heap.lookup key links object =
      if (heap.chain (links + 1) object).length = links + 1 then .chainLimit
      else .absent := by
  induction links generalizing object with
  | zero =>
      unfold Heap.lookup
      cases hentry : heap object with
      | none => simp [Heap.chain_of_none hentry]
      | some entry =>
          have hkey : entry.own key = none := by
            have hfirst := hnone object (by simp [Heap.chain, hentry])
            simpa [Heap.own, hentry] using hfirst
          simp only [hkey]
          cases hparent : entry.prototype <;>
            simp [Heap.chain, hentry, hparent]
  | succ links ih =>
      unfold Heap.lookup
      cases hentry : heap object with
      | none => simp [Heap.chain_of_none hentry]
      | some entry =>
          have hkey : entry.own key = none := by
            have hfirst := hnone object (by simp [Heap.chain, hentry])
            simpa [Heap.own, hentry] using hfirst
          simp only [hkey]
          cases hparent : entry.prototype with
          | none => simp [Heap.chain, hentry, hparent]
          | some parent =>
              have hchain : heap.chain (links + 1 + 1) object =
                  object :: heap.chain (links + 1) parent := by
                rw [Heap.chain_succ hentry, hparent]
                rfl
              rw [hchain] at hnone ⊢
              have hrest : heap.lookup key links parent =
                  if (heap.chain (links + 1) parent).length = links + 1 then
                    .chainLimit
                  else .absent :=
                ih fun holder hmem => hnone holder (List.mem_cons_of_mem _ hmem)
              simp [hrest]

/-- A read ends without result exactly if the chain ends before the limit and
none of its objects has the key. -/
theorem Heap.lookup_eq_absent_iff
    {heap : Heap Key Value} {key : Key} {links object : ℕ} :
    heap.lookup key links object = .absent ↔
      (heap.chain (links + 1) object).length ≠ links + 1 ∧
        ∀ holder ∈ heap.chain (links + 1) object, heap.own holder key = none := by
  constructor
  · intro habsent
    have hnone : ∀ holder ∈ heap.chain (links + 1) object,
        heap.own holder key = none := by
      intro holder hmem
      by_contra hown
      obtain ⟨nearest, value, hfound⟩ :=
        Heap.exists_found_of_mem_chain hmem hown
      rw [habsent] at hfound
      contradiction
    refine ⟨?_, hnone⟩
    intro hlength
    rw [Heap.lookup_of_forall_chain hnone, if_pos hlength] at habsent
    contradiction
  · rintro ⟨hlength, hnone⟩
    rw [Heap.lookup_of_forall_chain hnone, if_neg hlength]

/-! ## Writes -/

variable [DecidableEq Key]

def Heap.allocate (heap : Heap Key Value) (object : ℕ)
    (prototype : Option ℕ) : Heap Key Value :=
  Function.update heap object (some ⟨prototype, fun _ => none⟩)

def Heap.setPrototype (heap : Heap Key Value) (object : ℕ)
    (prototype : Option ℕ) : Heap Key Value :=
  Function.update heap object
    ((heap object).map fun entry => { entry with prototype })

/-- Replace the own property `key`: write it, or delete it with `none`. -/
def Heap.setOwn (heap : Heap Key Value) (object : ℕ) (key : Key)
    (value : Option Value) : Heap Key Value :=
  Function.update heap object
    ((heap object).map fun entry =>
      { entry with own := Function.update entry.own key value })

def Heap.free (heap : Heap Key Value) (object : ℕ) : Heap Key Value :=
  Function.update heap object none

omit [DecidableEq Key] in
theorem Heap.own_allocate
    (heap : Heap Key Value) (object other : ℕ)
    (prototype : Option ℕ) (key : Key) :
    (heap.allocate object prototype).own other key =
      if other = object then none else heap.own other key := by
  by_cases heq : other = object
  · subst other
    simp [Heap.own, Heap.allocate]
  · simp [Heap.own, Heap.allocate, heq]

omit [DecidableEq Key] in
theorem Heap.own_setPrototype
    (heap : Heap Key Value) (object other : ℕ)
    (prototype : Option ℕ) (key : Key) :
    (heap.setPrototype object prototype).own other key =
      heap.own other key := by
  by_cases heq : other = object
  · subst other
    cases hentry : heap object <;>
      simp [Heap.own, Heap.setPrototype, hentry]
  · simp [Heap.own, Heap.setPrototype, heq]

theorem Heap.own_setOwn
    (heap : Heap Key Value) {object : ℕ} (other : ℕ)
    (key read : Key) (value : Option Value)
    (hobject : (heap object).isSome) :
    (heap.setOwn object key value).own other read =
      if other = object ∧ read = key then value else heap.own other read := by
  obtain ⟨entry, hentry⟩ := Option.isSome_iff_exists.mp hobject
  by_cases heq : other = object
  · subst other
    by_cases hkey : read = key
    · subst read
      simp [Heap.own, Heap.setOwn, hentry]
    · simp [Heap.own, Heap.setOwn, hentry, hkey]
  · simp [Heap.own, Heap.setOwn, heq]

/-- Removing a property adds none. -/
theorem Heap.own_of_setOwn_none
    {heap : Heap Key Value} {object other : ℕ} {key read : Key} {value : Value}
    (hown : (heap.setOwn object key none).own other read = some value) :
    heap.own other read = some value := by
  by_cases heq : other = object
  · subst other
    cases hentry : heap object with
    | none => simp [Heap.own, Heap.setOwn, hentry] at hown
    | some entry =>
        by_cases hkey : read = key
        · subst read
          simp [Heap.own, Heap.setOwn, hentry] at hown
        · simpa [Heap.own, Heap.setOwn, hentry, hkey] using hown
  · simpa [Heap.own, Heap.setOwn, heq] using hown

theorem Heap.isSome_setOwn
    (heap : Heap Key Value) (object other : ℕ) (key : Key)
    (value : Option Value) :
    ((heap.setOwn object key value) other).isSome = (heap other).isSome := by
  by_cases heq : other = object
  · subst other
    simp [Heap.setOwn]
  · simp [Heap.setOwn, heq]

omit [DecidableEq Key] in
theorem Heap.own_free
    (heap : Heap Key Value) (object other : ℕ) (key : Key) :
    (heap.free object).own other key =
      if other = object then none else heap.own other key := by
  by_cases heq : other = object
  · subst other
    simp [Heap.own, Heap.free]
  · simp [Heap.own, Heap.free, heq]

end PrototypeChain
