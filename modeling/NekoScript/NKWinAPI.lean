import NekoScript.DuktapeValues
import NekoScript.ResourceOwnership
import NekoScript.StackMachine
import Mathlib.Tactic

/-!
# Calls of native procedures

`NKWinAPI::Call` converts its arguments into a heap array, last argument first,
and `DynamicInvokeStdcall` copies that array to the stack, releases it and
pushes its words from the first to the last.
-/

namespace NekoScript

open ResourceOwnership StackMachine

inductive InvokeLocal where
  | argv | argc | proc | retv
  deriving DecidableEq, Repr

/-- The inline code of `DynamicInvokeStdcall`: `again` is 7 and `after` 10. -/
def invokeStdcallCode : List (Instruction InvokeLocal) :=
  [.push .eax,
    .push .ebx,
    .push .ecx,
    .load .ebx .argv,
    .load .ecx .argc,
    .compare .ecx 0,
    .jumpEqual 10,
    .pushIndirect .ebx,
    .add .ebx 4,
    .loop 7,
    .load .eax .proc,
    .call .eax,
    .store .retv .eax,
    .pop .ecx,
    .pop .ebx,
    .pop .eax]

/-- The machine, and the temporary arrays that were allocated and deleted. -/
structure NativeState where
  machine : Machine InvokeLocal
  arrays : History ℕ
  nextArray : ℕ

def copyWords (memory : ℤ → ℤ) (target : ℤ) (words : ℕ → ℕ) (count : ℕ) :
    ℤ → ℤ := fun address =>
  if target ≤ address ∧ address < target + 4 * count ∧
      (address - target) % 4 = 0 then
    words ((address - target) / 4).toNat
  else memory address

theorem copyWords_at
    (memory : ℤ → ℤ) (target : ℤ) (words : ℕ → ℕ) {count i : ℕ}
    (hi : i < count) :
    copyWords memory target words count (target + 4 * i) = words i := by
  have hinside : target ≤ target + 4 * i ∧ target + 4 * i < target + 4 * count ∧
      (target + 4 * i - target) % 4 = 0 := by omega
  have hindex : ((target + 4 * (i : ℤ) - target) / 4).toNat = i := by omega
  unfold copyWords
  rw [if_pos hinside, hindex]

def NativeState.deleteArray (s : NativeState) : Option ℕ → NativeState
  | none => s
  | some array => { s with arrays := .released array :: s.arrays }

/-- `DynamicInvokeStdcall` up to its inline code. -/
def prepareStdcall (proc : ℤ) (argc : ℕ) (argv : Option ℕ) (words : ℕ → ℕ)
    (s : NativeState) : NativeState :=
  let esp := s.machine.registers .esp - 4 * argc
  let s :=
    if 0 < argc then
      -- `alloca`, `memcpy` and `delete[] argv`
      NativeState.deleteArray { s with
        machine := { s.machine.setRegister .esp esp with
          memory := copyWords s.machine.memory esp words argc } } argv
    else s
  { s with machine := { s.machine with
      locals := fun
        | .argv => if 0 < argc then esp else 0
        | .argc => argc
        | .proc => proc
        | .retv => 0
      counter := 0 } }

/-- `DynamicInvokeStdcall`; the result is an `unsigned int`. -/
def dynamicInvokeStdcall (callee : Entry → Exit) (fuel : ℕ) (proc : ℤ)
    (argc : ℕ) (argv : Option ℕ) (words : ℕ → ℕ) (s : NativeState) :
    Option (ℕ × NativeState) :=
  let s := prepareStdcall proc argc argv words s
  (s.machine.execute invokeStdcallCode callee fuel).map fun m =>
    ((m.locals .retv % 2 ^ 32).toNat, { s with machine := m })

/-- The word `Call` passes for an argument; `none` for one it refuses. -/
def convertArgument (v : DukValue) : Option ℕ :=
  if v.isNumber then some v.getUint
  else if v.isNullOrUndefined then some 0
  else if v.isString then some v.getString
  else
    let value := v.getBufferData
    if value ≠ 0 then some value else none

/-- The loop of `Call`: each word is stored below the last one.  `none` when an
argument is refused. -/
def fillArguments : List DukValue → (p : ℕ) → (words : ℕ → ℕ) → Option (ℕ → ℕ)
  | [], _, words => some words
  | v :: rest, p, words =>
      match convertArgument v with
      | none => none
      | some value => fillArguments rest (p - 1) (Function.update words (p - 1) value)

inductive CallOutcome where
  | returned (value : ℕ)
  | thrown (error : JSError)
  deriving DecidableEq, Repr

def unsupportedArgument : JSError :=
  .typeError (lexerString
    "Only integers, null's, undefined's, buffers and strings are supported. ".toList)

/-- `NKWinAPI::Call` with `args` on the value stack; `none` when the fuel does
not suffice. -/
def nativeCall (callee : Entry → Exit) (fuel : ℕ) (proc : ℤ)
    (args : List DukValue) (s : NativeState) :
    Option (CallOutcome × NativeState) :=
  let count := args.length
  let array := if 0 < count then some s.nextArray else none
  let s :=
    if 0 < count then
      { s with
        arrays := .acquired s.nextArray :: s.arrays
        nextArray := s.nextArray + 1 }
    else s
  match fillArguments args count (fun _ => 0) with
  | none => some (.thrown unsupportedArgument, s.deleteArray array)
  | some words =>
      (dynamicInvokeStdcall callee fuel proc count array words s).map
        fun (value, s) => (.returned value, s)

end NekoScript
