import Mathlib.Tactic

/-!
# Reads of a memory, with a log

Native code that walks over memory is given by what it computes from the cells
and by the offsets it reads on the way.  The log tells whether a walk has left
the object it was given, also where the result does not show it.
-/

namespace LoggedReads

/-- The value computed from a memory, and the offsets read, in order. -/
def Reader (Cell α : Type) := (ℕ → Cell) → α × List ℕ

variable {Cell α β : Type}

namespace Reader

def readAt (offset : ℕ) : Reader Cell Cell := fun memory => (memory offset, [offset])

instance : Monad (Reader Cell) where
  pure value := fun _ => (value, [])
  bind p f := fun memory => ((f (p memory).1 memory).1, (p memory).2 ++ (f (p memory).1 memory).2)

def value (p : Reader Cell α) (memory : ℕ → Cell) : α := (p memory).1

def offsets (p : Reader Cell α) (memory : ℕ → Cell) : List ℕ := (p memory).2

variable (memory : ℕ → Cell)

@[simp] theorem value_pure (result : α) :
    value (pure result : Reader Cell α) memory = result := rfl

@[simp] theorem offsets_pure (result : α) :
    offsets (pure result : Reader Cell α) memory = [] := rfl

@[simp] theorem value_bind (p : Reader Cell α) (f : α → Reader Cell β) :
    value (p >>= f) memory = value (f (p.value memory)) memory := rfl

@[simp] theorem offsets_bind (p : Reader Cell α) (f : α → Reader Cell β) :
    offsets (p >>= f) memory =
      p.offsets memory ++ offsets (f (p.value memory)) memory := rfl

/-- Only the first `limit` cells are read. -/
def Within (p : Reader Cell α) (limit : ℕ) : Prop :=
  ∀ offset ∈ p.offsets memory, offset < limit

end Reader

end LoggedReads
