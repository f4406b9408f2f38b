import NekoScript.NKWinAPI
import Mathlib.Data.List.GetD
import Mathlib.Tactic

/-!
# Errors that are thrown at the end of a scope

`JSThrowScope_t::set` records a function and its arguments, and `invoke` frees
the scope and then calls the function.  The arguments are gathered by the calls
of a pack expansion, which may be made in any order.
-/

namespace NekoScript

open ResourceOwnership StackMachine

inductive CdeclLocal where
  | argv | argc | proc | retv | off
  deriving DecidableEq, Repr

/-- The inline code of `DynamicInvokeCdecl`. -/
def invokeCdeclCode : List (Instruction CdeclLocal) :=
  [.push .eax,
    .push .ebx,
    .push .ecx,
    .load .ebx .argv,
    .load .ecx .argc,
    .compare .ecx 0,
    .jumpEqual 10,
    .pushIndirect .ebx,
    .add .ebx 4,
    .loop 7,
    .load .eax .proc,
    .call .eax,
    .addLocal .esp .off,
    .store .retv .eax,
    .pop .ecx,
    .pop .ebx,
    .pop .eax]

/-- The machine, and the heap blocks that were allocated and deleted. -/
structure ThrowState where
  machine : Machine CdeclLocal
  blocks : History ℕ
  nextBlock : ℕ

namespace ThrowState

def allocate (s : ThrowState) : ThrowState :=
  { s with
    blocks := .acquired s.nextBlock :: s.blocks
    nextBlock := s.nextBlock + 1 }

def delete (block : ℕ) (s : ThrowState) : ThrowState :=
  { s with blocks := .released block :: s.blocks }

end ThrowState

/-- `JSThrowScope_t::data_t`; `argv` is the block of the array and `words` what
is in it. -/
structure ThrowData where
  proc : ℤ
  argc : ℕ
  argv : Option ℕ
  words : ℕ → ℕ

/-- `DynamicInvokeCdecl` up to its inline code. -/
def prepareCdecl (data : ThrowData) (s : ThrowState) : ThrowState :=
  let esp := s.machine.registers .esp - 4 * data.argc
  let s :=
    if 0 < data.argc then
      -- `alloca`, `memcpy` and `delete[] argv`
      let copied := { s with
        machine := { s.machine.setRegister .esp esp with
          memory := copyWords s.machine.memory esp data.words data.argc } }
      match data.argv with
      | some array => copied.delete array
      | none => copied
    else s
  { s with machine := { s.machine with
      locals := fun
        | .argv => if 0 < data.argc then esp else 0
        | .argc => data.argc
        | .proc => data.proc
        | .retv => 0
        | .off => data.argc * 4
      counter := 0 } }

def dynamicInvokeCdecl (callee : Entry → Exit) (fuel : ℕ) (data : ThrowData)
    (s : ThrowState) : Option (ℕ × ThrowState) :=
  let s := prepareCdecl data s
  (s.machine.execute invokeCdeclCode callee fuel).map fun m =>
    ((m.locals .retv % 2 ^ 32).toNat, { s with machine := m })

/-- An order in which the calls of a pack expansion may be made: each of them
once. -/
structure EvaluationOrder (n : ℕ) where
  calls : List (Fin n)
  each_once : calls.Perm (List.finRange n)

def leftToRight (n : ℕ) : EvaluationOrder n :=
  ⟨List.finRange n, List.Perm.refl _⟩

def rightToLeft (n : ℕ) : EvaluationOrder n :=
  ⟨(List.finRange n).reverse, List.reverse_perm _⟩

structure JSThrowScope where
  block : ℕ
  data : ThrowData

namespace JSThrowScope

/-- `memory` is what the constructor leaves in the fields it does not set. -/
def create (memory : ThrowData) (s : ThrowState) : JSThrowScope × ThrowState :=
  (⟨s.nextBlock, { memory with proc := 0 }⟩, s.allocate)

def convert (list : List ℕ) (arg : ℕ) : List ℕ :=
  list ++ [arg]

def expand (args : List ℕ) (order : EvaluationOrder args.length) (list : List ℕ) :
    List ℕ :=
  order.calls.foldl (fun list i => convert list args[i]) list

def set (func : ℤ) (args : List ℕ) (order : EvaluationOrder args.length)
    (self : JSThrowScope) (s : ThrowState) :
    Except String (JSThrowScope × ThrowState) :=
  if self.data.proc ≠ 0 then .error "JSThrowScope_t::set called twice!"
  else
    let argvList := expand args order []
    let argc := argvList.length
    if 0 < argc then
      let argv := fun i => argvList.getD i 0
      .ok ({ self with data := ⟨func, argc, some s.nextBlock, argv⟩ }, s.allocate)
    else .ok ({ self with data := ⟨func, argc, none, fun _ => 0⟩ }, s)

/-- `none` when the fuel does not suffice. -/
def invoke (callee : Entry → Exit) (fuel : ℕ) (self : JSThrowScope)
    (s : ThrowState) : Option ThrowState :=
  let data := self.data
  let s := s.delete self.block
  if data.proc ≠ 0 then
    (dynamicInvokeCdecl callee fuel data s).map Prod.snd
  else some s

end JSThrowScope

/-! ## The call of the function -/

theorem dynamicInvokeCdecl_spec
    (callee : Entry → Exit) (data : ThrowData) (s : ThrowState) :
    ∃ steps entry final, (∀ fuel, steps ≤ fuel →
        (dynamicInvokeCdecl callee fuel data s).map Prod.snd = some final) ∧
      final.blocks = (prepareCdecl data s).blocks ∧
      final.machine.entered = entry :: s.machine.entered ∧
      entry.procedure = data.proc ∧
      ∀ i < data.argc, entry.memory (entry.registers .esp + 4 * (data.argc - i)) =
        data.words i := by
  set prepared := prepareCdecl data s with hprepared
  have hlocals : prepared.machine.counter = 0 ∧
      prepared.machine.locals .argc = data.argc ∧
      prepared.machine.locals .proc = data.proc :=
    ⟨rfl, rfl, rfl⟩
  have hstate : prepared.machine.entered = s.machine.entered ∧
      (0 < data.argc →
        prepared.machine.locals .argv = prepared.machine.registers .esp ∧
        prepared.machine.memory = copyWords s.machine.memory
          (prepared.machine.registers .esp) data.words data.argc) := by
    by_cases hargc : 0 < data.argc
    · cases hargv : data.argv <;>
        simp [hprepared, prepareCdecl, hargc, hargv, ThrowState.delete,
          Machine.setRegister]
    · simp [hprepared, prepareCdecl, hargc]
  rcases hstate with ⟨hentered, hargv⟩
  have hbegins : ∀ i < 12, invokeCdeclCode[i]? =
      (callWithArguments CdeclLocal.argv .argc .proc)[i]? := by decide
  obtain ⟨entry, m1, hreach, hcalled⟩ :=
    reaches_calledWith hbegins callee prepared.machine hlocals.1 hlocals.2.1
      (fun hargc => (hargv hargc).1.ge)
  set block : List (Instruction CdeclLocal) :=
    [.addLocal .esp .off, .store .retv .eax, .pop .ecx, .pop .ebx, .pop .eax]
    with hblock
  have hcode : ∀ i < block.length,
      invokeCdeclCode[m1.counter + i]? = block[i]? := by
    rw [hcalled.counter]
    decide
  obtain ⟨hreach', hend⟩ :
      Reaches invokeCdeclCode callee m1 (m1.performAll callee block) ∧
        (m1.performAll callee block).counter = m1.counter + block.length :=
    reaches_performAll m1 (by decide) hcode
  have hlast : (m1.performAll callee block).entered = m1.entered := rfl
  have hleft : invokeCdeclCode.length ≤ (m1.performAll callee block).counter := by
    rw [hend, hcalled.counter]
    decide
  obtain ⟨steps, hsteps⟩ := (hreach.trans hreach').execute hleft
  refine ⟨steps, entry, { prepared with machine := m1.performAll callee block },
    ?_, rfl, ?_, hcalled.procedure, ?_⟩
  · intro fuel hfuel
    unfold dynamicInvokeCdecl
    simp only [← hprepared]
    rw [hsteps fuel hfuel]
    rfl
  · change (m1.performAll callee block).entered = _
    rw [hlast, hcalled.entered, hentered]
  · intro i hi
    obtain ⟨hsource, hmemory⟩ := hargv (by omega)
    rw [hcalled.words i hi, hsource, hmemory]
    exact copyWords_at _ _ data.words hi

namespace JSThrowScope

theorem expand_eq
    (args : List ℕ) (order : EvaluationOrder args.length) :
    expand args order [] = order.calls.map fun i => args[i] := by
  have hfold : ∀ (calls : List (Fin args.length)) (list : List ℕ),
      calls.foldl (fun list i => convert list args[i]) list =
        list ++ calls.map fun i => args[i] := by
    intro calls
    induction calls with
    | nil => simp
    | cons i calls ih =>
        intro list
        rw [List.foldl_cons, ih]
        simp [convert]
  unfold expand
  rw [hfold, List.nil_append]

theorem length_expand
    (args : List ℕ) (order : EvaluationOrder args.length) :
    (expand args order []).length = args.length := by
  rw [expand_eq, List.length_map, order.each_once.length_eq, List.length_finRange]

variable (callee : Entry → Exit) (func : ℤ) (args : List ℕ)
  (order : EvaluationOrder args.length) (memory : ThrowData) (s : ThrowState)

/-- The procedure `func` was entered once, with the `i`-th of `args` as its
`i`-th parameter. -/
structure Entered (before after : Machine CdeclLocal) (entry : Entry) : Prop where
  once : after.entered = entry :: before.entered
  procedure : entry.procedure = func
  arguments : ∀ i (hi : i < args.length),
    entry.memory (entry.registers .esp + 4 * (i + 1)) = args[i]

/-- Where the inline code starts, `func` has not been entered and the scope and
its array have been freed. -/
structure Freed (self : JSThrowScope) (given : ThrowState) : Prop where
  notEntered : (prepareCdecl self.data (given.delete self.block)).machine.entered =
    s.machine.entered
  once : ∃ events, (prepareCdecl self.data (given.delete self.block)).blocks =
      events ++ s.blocks ∧ events.ReleasedOnce ∧
    .acquired self.block ∈ events ∧
    ∀ array, self.data.argv = some array → .acquired array ∈ events

/-- A scope that was given `func` and `args` frees what it owns and then calls
the function once, with the arguments in their order. -/
def CallsAsGiven : Prop :=
  ∃ self given,
    (create memory s).1.set func args order (create memory s).2 =
        .ok (self, given) ∧
      Freed s self given ∧
      ∃ steps, ∀ fuel, steps ≤ fuel → ∃ final entry,
        self.invoke callee fuel given = some final ∧
        final.blocks = (prepareCdecl self.data (given.delete self.block)).blocks ∧
        Entered func args s.machine final.machine entry

/-- A scope that was given nothing is freed and calls nothing. -/
def CallsNothing : Prop :=
  ∀ fuel, ∃ final,
    (create memory s).1.invoke callee fuel (create memory s).2 = some final ∧
      final.machine = s.machine ∧
      ∃ events, final.blocks = events ++ s.blocks ∧ events.ReleasedOnce ∧
        .acquired (create memory s).1.block ∈ events

theorem callsNothing : CallsNothing callee memory s := by
  intro fuel
  refine ⟨(s.allocate).delete s.nextBlock, ?_, rfl,
    [.released s.nextBlock, .acquired s.nextBlock], rfl, ?_, ?_⟩
  · simp [invoke, create]
  · intro block hmem
    have hsame : block = s.nextBlock := by simpa using hmem
    simp [hsame]
  · exact List.mem_cons_of_mem _ List.mem_cons_self

/-- The scope after `set`. -/
def given : JSThrowScope × ThrowState :=
  let argvList := expand args order []
  if args = [] then
    (⟨s.nextBlock, ⟨func, 0, none, fun _ => 0⟩⟩, s.allocate)
  else
    (⟨s.nextBlock, ⟨func, args.length, some (s.nextBlock + 1),
      fun i => argvList.getD i 0⟩⟩, s.allocate.allocate)

theorem set_create :
    (create memory s).1.set func args order (create memory s).2 =
      .ok (given func args order s) := by
  unfold set given
  have hlength := length_expand args order
  by_cases hargs : args = []
  · simp [create, hargs, hlength]
  · simp [create, hargs, hlength, ThrowState.allocate]

theorem freed_given :
    Freed s (given func args order s).1 (given func args order s).2 := by
  by_cases hargs : args = []
  · constructor
    · simp [given, hargs, prepareCdecl, ThrowState.delete, ThrowState.allocate]
    · refine ⟨[.released s.nextBlock, .acquired s.nextBlock], ?_, ?_, ?_, ?_⟩
      · simp [given, hargs, prepareCdecl, ThrowState.delete, ThrowState.allocate]
      · intro block hmem
        have hsame : block = s.nextBlock := by simpa using hmem
        simp [hsame]
      · simp [given, hargs]
      · simp [given, hargs]
  · have hlength : 0 < args.length := List.length_pos_of_ne_nil hargs
    constructor
    · simp [given, hargs, hlength, prepareCdecl, ThrowState.delete,
        ThrowState.allocate, Machine.setRegister]
    · refine ⟨[.released (s.nextBlock + 1), .released s.nextBlock,
        .acquired (s.nextBlock + 1), .acquired s.nextBlock], ?_, ?_, ?_, ?_⟩
      · simp [given, hargs, hlength, prepareCdecl, ThrowState.delete,
          ThrowState.allocate]
      · intro block hmem
        have hsome : block = s.nextBlock + 1 ∨ block = s.nextBlock := by
          simpa using hmem
        rcases hsome with hsame | hsame <;> simp [hsame]
      · simp [given, hargs]
      · simp [given, hargs]

variable {func}

/-- The words of the array reach the function from the last to the first. -/
theorem invoke_given (hfunc : func ≠ 0) :
    ∃ steps final entry, (∀ fuel, steps ≤ fuel →
        (given func args order s).1.invoke callee fuel
          (given func args order s).2 = some final) ∧
      final.blocks = (prepareCdecl (given func args order s).1.data
        ((given func args order s).2.delete
          (given func args order s).1.block)).blocks ∧
      final.machine.entered = entry :: s.machine.entered ∧
      entry.procedure = func ∧
      ∀ i < args.length, entry.memory (entry.registers .esp + 4 * (i + 1)) =
        (expand args order []).reverse.getD i 0 := by
  set self := (given func args order s).1 with hself
  set state := (given func args order s).2 with hstate
  have hdata : self.data.proc = func ∧ self.data.argc = args.length ∧
      state.machine = s.machine ∧
      ∀ i < args.length, self.data.words i = (expand args order []).getD i 0 := by
    by_cases hargs : args = [] <;>
      simp [hself, hstate, given, hargs, ThrowState.allocate]
  rcases hdata with ⟨hproc, hargc, hmachine, hwords⟩
  obtain ⟨steps, entry, final, hinvoke, hblocks, hentered, hprocedure, hframe⟩ :=
    dynamicInvokeCdecl_spec callee self.data (state.delete self.block)
  refine ⟨steps, final, entry, ?_, hblocks, ?_, ?_, ?_⟩
  · intro fuel hfuel
    unfold invoke
    simp only [hproc, if_pos hfunc]
    exact hinvoke fuel hfuel
  · rw [hentered, ← hmachine]
    rfl
  · rw [hprocedure, hproc]
  · intro i hi
    have hlength := length_expand args order
    have hword := hframe (args.length - 1 - i) (by omega)
    have hplace : ((self.data.argc : ℤ) - (args.length - 1 - i : ℕ)) = i + 1 := by
      omega
    rw [hplace, hwords _ (by omega)] at hword
    rw [hword, List.getD_eq_getElem?_getD, List.getD_eq_getElem?_getD,
      List.getElem?_reverse (by omega), hlength]

theorem callsAsGiven_iff_reversed (hfunc : func ≠ 0) :
    CallsAsGiven callee func args order memory s ↔
      (order.calls.map fun i => args[i]) = args.reverse := by
  obtain ⟨steps, final, entry, hinvoke, hblocks, hentered, hprocedure, hframe⟩ :=
    invoke_given callee args order s hfunc
  have hlength := length_expand args order
  rw [← expand_eq]
  constructor
  · rintro ⟨self, state, hset, hfreed, more, hcalls⟩
    rw [set_create, Except.ok.injEq] at hset
    obtain ⟨final', entry', hinvoke', -, hentered'⟩ :=
      hcalls (max steps more) (le_max_right ..)
    have hsame : final' = final := by
      have hrun := hinvoke (max steps more) (le_max_left ..)
      rw [hset] at hrun
      exact Option.some.inj (hinvoke'.symm.trans hrun)
    subst final'
    have hentry : entry' = entry := by
      have honce := hentered'.once
      rw [hentered] at honce
      exact (List.cons.inj honce).1.symm
    subst entry'
    apply List.reverse_injective
    rw [List.reverse_reverse]
    apply List.ext_getElem
    · rw [List.length_reverse, hlength]
    · intro i hi hi'
      have hword := hframe i hi'
      rw [hentered'.arguments i hi', List.getD_eq_getElem _ _ hi] at hword
      exact_mod_cast hword.symm
  · intro hreversed
    refine ⟨_, _, set_create func args order memory s, freed_given func args order s,
      steps, fun fuel hfuel => ?_⟩
    refine ⟨final, entry, hinvoke fuel hfuel, hblocks, hentered, hprocedure, ?_⟩
    intro i hi
    rw [hframe i hi, hreversed, List.reverse_reverse, List.getD_eq_getElem _ _ hi]

/-- The arguments arrive in their order if and only if the calls that gather
them were made from the last to the first. -/
theorem throwsAsGiven_iff
    (callee : Entry → Exit) (func : ℤ) (hfunc : func ≠ 0) (args : List ℕ)
    (order : EvaluationOrder args.length) (memory : ThrowData) (s : ThrowState) :
    (CallsAsGiven callee func args order memory s ∧ CallsNothing callee memory s) ↔
      (order.calls.map fun i => args[i]) = args.reverse := by
  rw [callsAsGiven_iff_reversed callee args order memory s hfunc]
  exact and_iff_left (callsNothing callee memory s)

def firstState : ThrowState where
  machine := ⟨fun _ => 4096, fun _ => 0, fun _ => 0, false, 0, []⟩
  blocks := []
  nextBlock := 0

/-- The record that `JSThrowWin32ErrorRaw` is thrown with: file, line, context,
code and function. -/
theorem throwsAsGiven_of_error :
    CallsAsGiven (fun entry => ⟨entry.registers, entry.memory⟩) 4198400
        [4206592, 16, 4259840, 2, 4206720] (rightToLeft 5)
        ⟨0, 0, none, fun _ => 0⟩ firstState ∧
      CallsNothing (fun entry => ⟨entry.registers, entry.memory⟩)
        ⟨0, 0, none, fun _ => 0⟩ firstState :=
  (throwsAsGiven_iff (fun entry => ⟨entry.registers, entry.memory⟩) 4198400
    (by decide) [4206592, 16, 4259840, 2, 4206720] (rightToLeft 5)
    ⟨0, 0, none, fun _ => 0⟩ firstState).mpr (by decide)

/-- Gathered from left to right, the arguments do not arrive in their order. -/
theorem not_callsAsGiven_leftToRight :
    ¬ CallsAsGiven (fun entry => ⟨entry.registers, entry.memory⟩) 4198400
        [4206592, 16, 4259840, 2, 4206720] (leftToRight 5)
        ⟨0, 0, none, fun _ => 0⟩ firstState := by
  intro hcalls
  have hreversed := (callsAsGiven_iff_reversed _ _ _ _ _ (by decide)).mp hcalls
  revert hreversed
  decide

end JSThrowScope

end NekoScript
