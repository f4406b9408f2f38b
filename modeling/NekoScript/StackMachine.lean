import Mathlib.Tactic

/-!
# A stack machine in the style of the 32-bit x86

Code that pushes arguments and calls procedures.  Registers and memory hold
integers, and a word occupies four addresses; nothing here depends on addresses
wrapping around.  A called procedure is given by what it leaves behind when it
returns, and the machine records every entry.
-/

namespace StackMachine

inductive Register where
  | eax | ebx | ecx | esp
  deriving DecidableEq, Repr

inductive Instruction (Local : Type) where
  | push (source : Register)
  | pushIndirect (address : Register)
  | pop (target : Register)
  | load (target : Register) (source : Local)
  | store (target : Local) (source : Register)
  | add (target : Register) (value : ℤ)
  | addLocal (target : Register) (source : Local)
  | compare (source : Register) (value : ℤ)
  | jumpEqual (target : ℕ)
  | loop (target : ℕ)
  | call (procedure : Register)
  deriving DecidableEq, Repr

/-- The machine as a procedure finds it: the return address is on top of the
stack. -/
structure Entry where
  procedure : ℤ
  registers : Register → ℤ
  memory : ℤ → ℤ

structure Exit where
  registers : Register → ℤ
  memory : ℤ → ℤ

structure Machine (Local : Type) where
  registers : Register → ℤ
  memory : ℤ → ℤ
  locals : Local → ℤ
  equal : Bool
  counter : ℕ
  entered : List Entry

variable {Local : Type} [DecidableEq Local]

namespace Machine

def next (m : Machine Local) : Machine Local :=
  { m with counter := m.counter + 1 }

def setRegister (m : Machine Local) (target : Register) (value : ℤ) :
    Machine Local :=
  { m with registers := Function.update m.registers target value }

def pushWord (m : Machine Local) (value : ℤ) : Machine Local :=
  { m with
    registers := Function.update m.registers .esp (m.registers .esp - 4)
    memory := Function.update m.memory (m.registers .esp - 4) value }

def perform (callee : Entry → Exit) (m : Machine Local) :
    Instruction Local → Machine Local
  | .push source => (m.pushWord (m.registers source)).next
  | .pushIndirect address => (m.pushWord (m.memory (m.registers address))).next
  | .pop target =>
      ((m.setRegister .esp (m.registers .esp + 4)).setRegister target
        (m.memory (m.registers .esp))).next
  | .load target source => (m.setRegister target (m.locals source)).next
  | .store target source =>
      { m.next with locals := Function.update m.locals target (m.registers source) }
  | .add target value =>
      { (m.setRegister target (m.registers target + value)).next with
        equal := m.registers target + value = 0 }
  | .addLocal target source =>
      { (m.setRegister target (m.registers target + m.locals source)).next with
        equal := m.registers target + m.locals source = 0 }
  | .compare source value => { m.next with equal := m.registers source = value }
  | .jumpEqual target => if m.equal then { m with counter := target } else m.next
  | .loop target =>
      let counted := m.setRegister .ecx (m.registers .ecx - 1)
      if m.registers .ecx - 1 ≠ 0 then { counted with counter := target }
      else counted.next
  | .call procedure =>
      let pushed := m.pushWord (m.counter + 1)
      let entry : Entry := ⟨m.registers procedure, pushed.registers, pushed.memory⟩
      { m.next with
        registers := (callee entry).registers
        memory := (callee entry).memory
        entered := entry :: m.entered }

/-- `none` when the counter has left the code. -/
def step (code : List (Instruction Local)) (callee : Entry → Exit)
    (m : Machine Local) : Option (Machine Local) :=
  code[m.counter]?.map (m.perform callee)

/-- The machine in which the code ends; `none` when the fuel does not suffice.
-/
def execute (code : List (Instruction Local)) (callee : Entry → Exit) :
    ℕ → Machine Local → Option (Machine Local)
  | 0, _ => none
  | fuel + 1, m =>
      match m.step code callee with
      | none => some m
      | some m' => execute code callee fuel m'

end Machine

variable {code : List (Instruction Local)} {callee : Entry → Exit}

/-- Execution from `m` passes through `m'`. -/
def Reaches (code : List (Instruction Local)) (callee : Entry → Exit)
    (m m' : Machine Local) : Prop :=
  ∃ steps, ∀ fuel, m.execute code callee (steps + fuel) = m'.execute code callee fuel

namespace Reaches

theorem refl (m : Machine Local) : Reaches code callee m m :=
  ⟨0, fun fuel => by rw [Nat.zero_add]⟩

theorem trans
    {m m' m'' : Machine Local} (hfirst : Reaches code callee m m')
    (hsecond : Reaches code callee m' m'') : Reaches code callee m m'' := by
  rcases hfirst with ⟨first, hfirst⟩
  rcases hsecond with ⟨second, hsecond⟩
  refine ⟨first + second, fun fuel => ?_⟩
  rw [Nat.add_assoc, hfirst, hsecond]

theorem of_step
    {m m' : Machine Local} (hstep : m.step code callee = some m') :
    Reaches code callee m m' := by
  refine ⟨1, fun fuel => ?_⟩
  rw [Nat.add_comm]
  simp [Machine.execute, hstep]

theorem of_instruction
    {m : Machine Local} {instruction : Instruction Local}
    (hcode : code[m.counter]? = some instruction) :
    Reaches code callee m (m.perform callee instruction) := by
  apply of_step
  simp [Machine.step, hcode]

/-- From where the code is left, any more fuel gives the same result. -/
theorem execute
    {m final : Machine Local} (hreach : Reaches code callee m final)
    (hleft : code.length ≤ final.counter) :
    ∃ steps, ∀ fuel, steps ≤ fuel → m.execute code callee fuel = some final := by
  rcases hreach with ⟨steps, hsteps⟩
  refine ⟨steps + 1, fun fuel hfuel => ?_⟩
  obtain ⟨rest, rfl⟩ := Nat.exists_eq_add_of_le hfuel
  have hnone : code[final.counter]? = none := List.getElem?_eq_none hleft
  have hend : final.execute code callee (1 + rest) = some final := by
    rw [Nat.add_comm]
    simp [Machine.execute, Machine.step, hnone]
  rw [Nat.add_assoc, hsteps, hend]

end Reaches

/-! ## Straight-line code -/

def Instruction.isStraight : Instruction Local → Bool
  | .jumpEqual _ | .loop _ => false
  | _ => true

theorem Machine.counter_perform
    (m : Machine Local) {instruction : Instruction Local}
    (hstraight : instruction.isStraight = true) :
    (m.perform callee instruction).counter = m.counter + 1 := by
  cases instruction with
  | jumpEqual target => contradiction
  | loop target => contradiction
  | _ => rfl

def Machine.performAll (callee : Entry → Exit) (m : Machine Local)
    (block : List (Instruction Local)) : Machine Local :=
  block.foldl (Machine.perform callee) m

theorem reaches_performAll
    (m : Machine Local) {block : List (Instruction Local)}
    (hstraight : ∀ instruction ∈ block, instruction.isStraight = true)
    (hcode : ∀ i < block.length, code[m.counter + i]? = block[i]?) :
    Reaches code callee m (m.performAll callee block) ∧
      (m.performAll callee block).counter = m.counter + block.length := by
  induction block generalizing m with
  | nil => exact ⟨Reaches.refl m, rfl⟩
  | cons instruction block ih =>
      have hfirst : code[m.counter]? = some instruction := by
        simpa using hcode 0 (by simp)
      have hcounter : (m.perform callee instruction).counter = m.counter + 1 :=
        m.counter_perform (hstraight instruction List.mem_cons_self)
      have hrest : ∀ i < block.length,
          code[(m.perform callee instruction).counter + i]? = block[i]? := by
        intro i hi
        have hnext := hcode (i + 1) (by simpa using hi)
        rw [hcounter, Nat.add_assoc, Nat.add_comm 1 i]
        simpa using hnext
      obtain ⟨hreach, hend⟩ := ih (m.perform callee instruction)
        (fun other hmem => hstraight other (List.mem_cons_of_mem _ hmem)) hrest
      constructor
      · exact (Reaches.of_instruction hfirst).trans hreach
      · change ((m.perform callee instruction).performAll callee block).counter = _
        rw [hend, hcounter, List.length_cons]
        omega

/-! ## Pushing the words of an array -/

/-- One pass of the push loop. -/
structure Iterated (again : ℕ) (m m' : Machine Local) : Prop where
  counter : m'.counter = if m.registers .ecx = 1 then again + 3 else again
  ecx : m'.registers .ecx = m.registers .ecx - 1
  ebx : m'.registers .ebx = m.registers .ebx + 4
  esp : m'.registers .esp = m.registers .esp - 4
  memory : m'.memory = Function.update m.memory (m.registers .esp - 4)
    (m.memory (m.registers .ebx))
  locals : m'.locals = m.locals
  entered : m'.entered = m.entered

section PushLoop

variable {again : ℕ}
  (hpush : code[again]? = some (.pushIndirect .ebx))
  (hadd : code[again + 1]? = some (.add .ebx 4))
  (hloop : code[again + 2]? = some (.loop again))

include hpush hadd hloop in
theorem reaches_iterated
    (m : Machine Local) (hcounter : m.counter = again) :
    ∃ m', Reaches code callee m m' ∧ Iterated again m m' := by
  set pushed := m.perform callee (.pushIndirect .ebx) with hpushed
  set added := pushed.perform callee (.add .ebx 4) with hadded
  have hpushedCounter : pushed.counter = again + 1 := by
    simp [hpushed, Machine.perform, Machine.next, Machine.pushWord, hcounter]
  have haddedCounter : added.counter = again + 2 := by
    simp [hadded, Machine.perform, Machine.next, Machine.setRegister,
      hpushedCounter]
  have h1 : Reaches code callee m pushed :=
    Reaches.of_instruction (by rw [hcounter, hpush])
  have h2 : Reaches code callee pushed added :=
    Reaches.of_instruction (by rw [hpushedCounter, hadd])
  have h3 : Reaches code callee added (added.perform callee (.loop again)) :=
    Reaches.of_instruction (by rw [haddedCounter, hloop])
  have hecx : added.registers .ecx = m.registers .ecx := by
    simp [hadded, hpushed, Machine.perform, Machine.next, Machine.pushWord,
      Machine.setRegister]
  have hrest : added.registers .ebx = m.registers .ebx + 4 ∧
      added.registers .esp = m.registers .esp - 4 ∧
      added.memory = Function.update m.memory (m.registers .esp - 4)
        (m.memory (m.registers .ebx)) ∧
      added.locals = m.locals ∧ added.entered = m.entered := by
    simp [hadded, hpushed, Machine.perform, Machine.next, Machine.pushWord,
      Machine.setRegister]
  rcases hrest with ⟨hebx, hesp, hmemory, hlocals, hentered⟩
  refine ⟨_, (h1.trans h2).trans h3, ?_⟩
  by_cases hlast : m.registers .ecx = 1
  · have hzero : ¬ (added.registers .ecx - 1 ≠ 0) := by omega
    simp only [Machine.perform, if_neg hzero]
    constructor <;>
      simp [Machine.next, Machine.setRegister, haddedCounter, hlast, hecx, hebx,
        hesp, hmemory, hlocals, hentered]
  · have hmore : added.registers .ecx - 1 ≠ 0 := by omega
    simp only [Machine.perform, if_pos hmore]
    constructor <;>
      simp [Machine.setRegister, hlast, hecx, hebx, hesp, hmemory, hlocals,
        hentered]

/-- After the loop: the words at `source`, the first of them highest, lie
below the old top of the stack, and nothing at or above it has changed. -/
structure Pushed (m : Machine Local) (source : ℤ) (count : ℕ)
    (m' : Machine Local) : Prop where
  esp : m'.registers .esp = m.registers .esp - 4 * count
  words : ∀ i < count,
    m'.memory (m.registers .esp - 4 * (i + 1)) = m.memory (source + 4 * i)
  above : ∀ address, m.registers .esp ≤ address →
    m'.memory address = m.memory address
  locals : m'.locals = m.locals
  entered : m'.entered = m.entered

omit [DecidableEq Local] in
theorem Iterated.pushed
    {m m' m'' : Machine Local} (hfirst : Iterated again m m')
    {count : ℕ} (hrest : Pushed m' (m'.registers .ebx) count m'')
    (habove : m.registers .esp ≤ m.registers .ebx) :
    Pushed m (m.registers .ebx) (count + 1) m'' := by
  have hsame : ∀ address, m.registers .esp ≤ address →
      m'.memory address = m.memory address := by
    intro address hge
    rw [hfirst.memory, Function.update_of_ne (by omega)]
  constructor
  · rw [hrest.esp, hfirst.esp]
    push_cast
    omega
  · intro i hi
    cases i with
    | zero =>
        have htop := hrest.above (m.registers .esp - 4) (by rw [hfirst.esp])
        rw [hfirst.memory, Function.update_self] at htop
        simpa using htop
    | succ i =>
        have hword := hrest.words i (by omega)
        rw [hfirst.esp, hfirst.ebx] at hword
        have hplace : m.registers .esp - 4 * ((i + 1 : ℕ) + 1) =
            m.registers .esp - 4 - 4 * (i + 1) := by
          push_cast
          ring
        have hsource : m.registers .ebx + 4 * ((i + 1 : ℕ) : ℤ) =
            m.registers .ebx + 4 + 4 * i := by
          push_cast
          ring
        rw [hplace, hsource, hword]
        exact hsame _ (by omega)
  · intro address hge
    rw [hrest.above address (by rw [hfirst.esp]; omega)]
    exact hsame address hge
  · rw [hrest.locals, hfirst.locals]
  · rw [hrest.entered, hfirst.entered]

include hpush hadd hloop in
/-- `again: push [ebx]; add ebx, 4; loop again` pushes `ecx` words from
`ebx` on, if these lie on the stack in use or above it. -/
theorem reaches_pushed
    (count : ℕ) (m : Machine Local)
    (hcounter : m.counter = again) (hecx : m.registers .ecx = count + 1)
    (habove : m.registers .esp ≤ m.registers .ebx) :
    ∃ m', Reaches code callee m m' ∧ m'.counter = again + 3 ∧
      Pushed m (m.registers .ebx) (count + 1) m' := by
  induction count generalizing m with
  | zero =>
      obtain ⟨m', hreach, hfirst⟩ :
          ∃ m', Reaches code callee m m' ∧ Iterated again m m' :=
        reaches_iterated hpush hadd hloop m hcounter
      have hnone : Pushed m' (m'.registers .ebx) 0 m' := by
        constructor <;> simp
      refine ⟨m', hreach, ?_, hfirst.pushed hnone habove⟩
      rw [hfirst.counter, if_pos (by simpa using hecx)]
  | succ count ih =>
      obtain ⟨m', hreach, hfirst⟩ :
          ∃ m', Reaches code callee m m' ∧ Iterated again m m' :=
        reaches_iterated hpush hadd hloop m hcounter
      have hagain : m'.counter = again := by
        rw [hfirst.counter, if_neg (by push_cast at hecx; omega)]
      have hcount : m'.registers .ecx = count + 1 := by
        rw [hfirst.ecx, hecx]
        push_cast
        ring
      have hkept : m'.registers .esp ≤ m'.registers .ebx := by
        rw [hfirst.esp, hfirst.ebx]
        omega
      obtain ⟨m'', hreach', hcounter', hpushed⟩ := ih m' hagain hcount hkept
      exact ⟨m'', hreach.trans hreach', hcounter', hfirst.pushed hpushed habove⟩

end PushLoop

/-! ## Calling a procedure with the words of an array -/

/-- Registers are saved, the words at `argv` pushed and `proc` is called;
the loop starts at 7 and is left for 10. -/
def callWithArguments (argv argc proc : Local) : List (Instruction Local) :=
  [.push .eax,
    .push .ebx,
    .push .ecx,
    .load .ebx argv,
    .load .ecx argc,
    .compare .ecx 0,
    .jumpEqual 10,
    .pushIndirect .ebx,
    .add .ebx 4,
    .loop 7,
    .load .eax proc,
    .call .eax]

def savedMemory (m : Machine Local) : ℤ → ℤ :=
  Function.update (Function.update (Function.update m.memory
    (m.registers .esp - 4) (m.registers .eax))
    (m.registers .esp - 8) (m.registers .ebx))
    (m.registers .esp - 12) (m.registers .ecx)

section CallWithArguments

variable {argv argc proc : Local}
  (hbegins : ∀ i < 12, code[i]? = (callWithArguments argv argc proc)[i]?)

include hbegins in
theorem reaches_prologue
    (callee : Entry → Exit) (m : Machine Local) {n : ℕ}
    (hcounter : m.counter = 0) (hargc : m.locals argc = n) :
    ∃ m', Reaches code callee m m' ∧
      m'.counter = (if n = 0 then 10 else 7) ∧
      m'.registers .esp = m.registers .esp - 12 ∧
      m'.registers .ebx = m.locals argv ∧ m'.registers .ecx = n ∧
      m'.memory = savedMemory m ∧ m'.locals = m.locals ∧
      m'.entered = m.entered := by
  set block : List (Instruction Local) :=
    [.push .eax, .push .ebx, .push .ecx, .load .ebx argv, .load .ecx argc,
      .compare .ecx 0] with hblock
  have hstraight : ∀ instruction ∈ block, instruction.isStraight = true := by
    simp [hblock, Instruction.isStraight]
  have hcode : ∀ i < block.length, code[m.counter + i]? = block[i]? := by
    intro i hi
    have hlength : i < 6 := hi
    rw [hcounter, Nat.zero_add, hbegins i (by omega)]
    interval_cases i <;> rfl
  set m1 := m.performAll callee block with hm1
  obtain ⟨hreach, hend⟩ :
      Reaches code callee m m1 ∧ m1.counter = m.counter + block.length :=
    reaches_performAll m hstraight hcode
  -- from here on `m1` is what the facts about it say
  clear_value m1
  have hcounter1 : m1.counter = 6 := by
    rw [hend, hcounter]
    rfl
  have hjump : Reaches code callee m1 (m1.perform callee (.jumpEqual 10)) :=
    Reaches.of_instruction (by rw [hcounter1, hbegins 6 (by omega)]; rfl)
  have hequal : m1.equal = decide (n = 0) := by
    simp [hm1, hblock, Machine.performAll, Machine.perform, Machine.next,
      Machine.setRegister, Machine.pushWord, hargc]
  refine ⟨_, hreach.trans hjump, ?_⟩
  have hfields : m1.registers .esp = m.registers .esp - 12 ∧
      m1.registers .ebx = m.locals argv ∧ m1.registers .ecx = n ∧
      m1.memory = savedMemory m ∧ m1.locals = m.locals ∧
      m1.entered = m.entered := by
    have h8 : m.registers .esp - 4 - 4 = m.registers .esp - 8 := by ring
    have h12 : m.registers .esp - 8 - 4 = m.registers .esp - 12 := by ring
    simp [hm1, hblock, Machine.performAll, Machine.perform, Machine.next,
      Machine.setRegister, Machine.pushWord, hargc, savedMemory, h8, h12]
  by_cases hnone : n = 0
  · have hjumps : m1.perform callee (.jumpEqual 10) = { m1 with counter := 10 } := by
      simp [Machine.perform, hequal, hnone]
    rw [hjumps, if_pos hnone]
    exact ⟨rfl, hfields⟩
  · have hfalls : m1.perform callee (.jumpEqual 10) = m1.next := by
      simp [Machine.perform, hequal, hnone]
    rw [hfalls, if_neg hnone]
    refine ⟨?_, hfields⟩
    simp [Machine.next, hcounter1]

include hbegins in
theorem reaches_arguments
    (callee : Entry → Exit) (m : Machine Local) {n : ℕ}
    (hcounter : m.counter = 0) (hargc : m.locals argc = n)
    (hargv : 0 < n → m.registers .esp ≤ m.locals argv) :
    ∃ m', Reaches code callee m m' ∧ m'.counter = 10 ∧
      m'.registers .esp = m.registers .esp - 12 - 4 * n ∧
      (∀ i < n, m'.memory (m.registers .esp - 12 - 4 * (i + 1)) =
        m.memory (m.locals argv + 4 * i)) ∧
      (∀ address, m.registers .esp - 12 ≤ address →
        m'.memory address = savedMemory m address) ∧
      m'.locals = m.locals ∧ m'.entered = m.entered := by
  obtain ⟨m1, hreach1, hcounter1, hesp1, hebx1, hecx1, hmemory1, hlocals1,
    hentered1⟩ := reaches_prologue hbegins callee m hcounter hargc
  by_cases hnone : n = 0
  · subst n
    refine ⟨m1, hreach1, by simpa using hcounter1, by simpa using hesp1, by simp,
      fun address _ => by rw [hmemory1], hlocals1, hentered1⟩
  · obtain ⟨count, rfl⟩ := Nat.exists_eq_succ_of_ne_zero hnone
    have hsource := hargv (Nat.succ_pos count)
    rw [if_neg hnone] at hcounter1
    have hcount : m1.registers .ecx = count + 1 := by
      rw [hecx1]
      push_cast
      ring
    have habove : m1.registers .esp ≤ m1.registers .ebx := by
      rw [hesp1, hebx1]
      omega
    obtain ⟨m2, hreach2, hcounter2, hpushed⟩ :
        ∃ m2, Reaches code callee m1 m2 ∧ m2.counter = 10 ∧
          Pushed m1 (m1.registers .ebx) (count + 1) m2 :=
      reaches_pushed (hbegins 7 (by omega)) (hbegins 8 (by omega))
        (hbegins 9 (by omega)) count m1 hcounter1 hcount habove
    refine ⟨m2, hreach1.trans hreach2, hcounter2, ?_, ?_, ?_, ?_, ?_⟩
    · rw [hpushed.esp, hesp1]
    · intro i hi
      have hword := hpushed.words i hi
      have hunsaved : savedMemory m (m.locals argv + 4 * i) =
          m.memory (m.locals argv + 4 * i) := by
        unfold savedMemory
        rw [Function.update_of_ne (by omega), Function.update_of_ne (by omega),
          Function.update_of_ne (by omega)]
      rw [hesp1, hebx1, hmemory1, hunsaved] at hword
      exact hword
    · intro address hge
      rw [hpushed.above address (by rw [hesp1]; exact hge), hmemory1]
    · rw [hpushed.locals, hlocals1]
    · rw [hpushed.entered, hentered1]

/-- `m` has called the procedure with the `n` words at `argv`, and it has
returned. -/
structure CalledWith (callee : Entry → Exit) (argv proc : Local) (n : ℕ)
    (m : Machine Local) (entry : Entry) (m' : Machine Local) : Prop where
  counter : m'.counter = 12
  entered : m'.entered = entry :: m.entered
  locals : m'.locals = m.locals
  registers : m'.registers = (callee entry).registers
  memory : m'.memory = (callee entry).memory
  procedure : entry.procedure = m.locals proc
  esp : entry.registers .esp = m.registers .esp - 16 - 4 * n
  words : ∀ i < n, entry.memory (entry.registers .esp + 4 * (n - i)) =
    m.memory (m.locals argv + 4 * i)
  saved : ∀ address, m.registers .esp - 12 ≤ address →
    entry.memory address = savedMemory m address

include hbegins in
theorem reaches_calledWith
    (callee : Entry → Exit) (m : Machine Local) {n : ℕ}
    (hcounter : m.counter = 0) (hargc : m.locals argc = n)
    (hargv : 0 < n → m.registers .esp ≤ m.locals argv) :
    ∃ entry m', Reaches code callee m m' ∧
      CalledWith callee argv proc n m entry m' := by
  obtain ⟨m1, hreach, hcounter1, hesp1, hwords1, hsaved1, hlocals1, hentered1⟩ :=
    reaches_arguments hbegins callee m hcounter hargc hargv
  set loaded := m1.perform callee (.load .eax proc) with hloaded
  have hcounter2 : loaded.counter = 11 := by
    simp [hloaded, Machine.perform, Machine.next, Machine.setRegister, hcounter1]
  have h1 : Reaches code callee m1 loaded :=
    Reaches.of_instruction (by rw [hcounter1, hbegins 10 (by omega)]; rfl)
  have h2 : Reaches code callee loaded (loaded.perform callee (.call .eax)) :=
    Reaches.of_instruction (by rw [hcounter2, hbegins 11 (by omega)]; rfl)
  set pushed := loaded.pushWord 12 with hpushed
  let entry : Entry := ⟨m1.locals proc, pushed.registers, pushed.memory⟩
  have hfields : (loaded.perform callee (.call .eax)).entered = entry :: m1.entered ∧
      (loaded.perform callee (.call .eax)).registers = (callee entry).registers ∧
      (loaded.perform callee (.call .eax)).memory = (callee entry).memory ∧
      (loaded.perform callee (.call .eax)).locals = m1.locals := by
    simp [entry, hpushed, hloaded, Machine.perform, Machine.next,
      Machine.setRegister, Machine.pushWord, hcounter1]
  rcases hfields with ⟨hentered, hregisters, hmemory, hlocals⟩
  have hesp : entry.registers .esp = m.registers .esp - 12 - 4 * n - 4 := by
    simp [entry, hpushed, hloaded, Machine.perform, Machine.next, Machine.pushWord,
      Machine.setRegister, hesp1]
  have hkept : ∀ address, m.registers .esp - 12 - 4 * n ≤ address →
      entry.memory address = m1.memory address := by
    intro address hge
    have hne : address ≠ m1.registers .esp - 4 := by omega
    simp [entry, hpushed, hloaded, Machine.perform, Machine.next, Machine.pushWord,
      Machine.setRegister, hne]
  refine ⟨entry, _, (hreach.trans h1).trans h2, ?_, ?_, ?_, hregisters, hmemory,
    ?_, ?_, ?_, ?_⟩
  · change loaded.counter + 1 = 12
    rw [hcounter2]
  · rw [hentered, hentered1]
  · rw [hlocals, hlocals1]
  · change m1.locals proc = _
    rw [hlocals1]
  · rw [hesp]
    ring
  · intro i hi
    have hplace : entry.registers .esp + 4 * (n - i) =
        m.registers .esp - 12 - 4 * (i + 1) := by
      rw [hesp]
      ring
    rw [hplace, hkept _ (by omega)]
    exact hwords1 i hi
  · intro address hge
    rw [hkept address (by omega), hsaved1 address hge]

end CallWithArguments

end StackMachine
