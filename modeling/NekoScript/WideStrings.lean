import Mathlib.Data.List.TakeWhile
import Mathlib.Tactic

/-!
# Terminated wide strings in memory

A pointer into a block is given by the units of the block from there on.  The
functions of the C runtime walk over these units; a walk that runs off the
block has no result.
-/

namespace NekoScript

abbrev Pointer := List UInt16

def Pointer.read : Pointer → Option UInt16
  | [] => none
  | unit :: _ => some unit

/-- A pointer to the end of a block is not outside, but cannot be read. -/
def Pointer.advance (p : Pointer) (count : ℕ) : Option Pointer :=
  if count ≤ p.length then some (p.drop count) else none

def wcslen : Pointer → Option ℕ
  | [] => none
  | unit :: rest => if unit = 0 then some 0 else (wcslen rest).map (· + 1)

/-- The distance to the first unit `c`.  The inner `none` is the null pointer
that `wcschr` returns at the terminator. -/
def wcschr (c : UInt16) : Pointer → Option (Option ℕ)
  | [] => none
  | unit :: rest =>
      if unit = c then some (some 0)
      else if unit = 0 then some none
      else (wcschr c rest).map (Option.map (· + 1))

/-- `std::wstring(p, count)` -/
def wstringOf (p : Pointer) (count : ℕ) : Option (List UInt16) :=
  if count ≤ p.length then some (p.take count) else none

/-- `std::wstring(p)` -/
def terminatedWString (p : Pointer) : Option (List UInt16) :=
  (wcslen p).map p.take

/-- Conversion of an unsigned number to `int`. -/
def asInt (n : ℕ) : ℤ := Int.bmod n (2 ^ 32)

/-- Conversion of an `int` to an unsigned type. -/
def asUnsigned (n : ℤ) : ℕ := (n % 2 ^ 32).toNat

theorem asInt_of_lt {n : ℕ} (hlt : n < 2 ^ 31) : asInt n = n := by
  unfold asInt
  apply Int.bmod_eq_of_le <;> omega

theorem asUnsigned_of_lt {n : ℕ} (hlt : n < 2 ^ 32) : asUnsigned n = n := by
  unfold asUnsigned
  omega

theorem wcslen_append {units : List UInt16} (hzero : 0 ∉ units) (rest : Pointer) :
    wcslen (units ++ 0 :: rest) = some units.length := by
  induction units with
  | nil => rfl
  | cons unit units ih =>
      have hunit : unit ≠ 0 := (List.ne_of_not_mem_cons hzero).symm
      have hrest : 0 ∉ units := List.not_mem_of_not_mem_cons hzero
      simp [wcslen, hunit, ih hrest]

theorem wcschr_append
    {c : UInt16} {before : List UInt16} (hzero : 0 ∉ before) (hbefore : c ∉ before)
    (rest : Pointer) :
    wcschr c (before ++ c :: rest) = some (some before.length) := by
  induction before with
  | nil => simp [wcschr]
  | cons unit before ih =>
      have hunit : unit ≠ 0 := (List.ne_of_not_mem_cons hzero).symm
      have hne : unit ≠ c := (List.ne_of_not_mem_cons hbefore).symm
      have hrest := ih (List.not_mem_of_not_mem_cons hzero)
        (List.not_mem_of_not_mem_cons hbefore)
      simp [wcschr, hunit, hne, hrest]

@[simp]
theorem wstringOf_append (units : List UInt16) (rest : Pointer) :
    wstringOf (units ++ rest) units.length = some units := by
  simp [wstringOf]

@[simp]
theorem advance_append (units : List UInt16) (rest : Pointer) :
    Pointer.advance (units ++ rest) units.length = some rest := by
  simp [Pointer.advance]

theorem terminatedWString_append
    {units : List UInt16} (hzero : 0 ∉ units) (rest : Pointer) :
    terminatedWString (units ++ 0 :: rest) = some units := by
  unfold terminatedWString
  rw [wcslen_append hzero]
  simp

end NekoScript
