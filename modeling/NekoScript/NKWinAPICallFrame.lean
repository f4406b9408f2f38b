import NekoScript.NKWinAPI
import Mathlib.Tactic

/-!
# The frame of a native call

The array is filled from its end and pushed from its start, so the arguments
reach the procedure in their order.  A procedure that pops them and leaves its
caller's saved registers alone returns to the registers the inline code
started from.
-/

namespace NekoScript

open ResourceOwnership StackMachine

/-- The procedure returns as `stdcall` prescribes for `n` words of arguments:
it pops them with its return address, and leaves alone the three words above
them, where its caller has saved registers. -/
structure ReturnsStdcall (callee : Entry → Exit) (entry : Entry) (n : ℕ) :
    Prop where
  pops : (callee entry).registers .esp = entry.registers .esp + 4 + 4 * n
  saved : ∀ address, entry.registers .esp + 4 + 4 * n ≤ address →
    address < entry.registers .esp + 4 + 4 * n + 12 →
    (callee entry).memory address = entry.memory address

variable (callee : Entry → Exit)

/-- The inline code as a whole.  `entry` is what the procedure is given. -/
theorem reaches_return
    (m : Machine InvokeLocal) {n : ℕ}
    (hcounter : m.counter = 0) (hargc : m.locals .argc = n)
    (hargv : 0 < n → m.registers .esp ≤ m.locals .argv) :
    ∃ entry final, Reaches invokeStdcallCode callee m final ∧
      final.counter = 16 ∧ final.entered = entry :: m.entered ∧
      entry.procedure = m.locals .proc ∧
      (∀ i < n, entry.memory (entry.registers .esp + 4 * (n - i)) =
        m.memory (m.locals .argv + 4 * i)) ∧
      final.locals .retv = (callee entry).registers .eax ∧
      (ReturnsStdcall callee entry n →
        ∀ register, final.registers register = m.registers register) := by
  have hbegins : ∀ i < 12, invokeStdcallCode[i]? =
      (callWithArguments InvokeLocal.argv .argc .proc)[i]? := by decide
  obtain ⟨entry, m1, hreach, hcalled⟩ :=
    reaches_calledWith hbegins callee m hcounter hargc hargv
  set block : List (Instruction InvokeLocal) :=
    [.store .retv .eax, .pop .ecx, .pop .ebx, .pop .eax] with hblock
  have hcode : ∀ i < block.length,
      invokeStdcallCode[m1.counter + i]? = block[i]? := by
    rw [hcalled.counter]
    decide
  set final := m1.performAll callee block with hfinal
  obtain ⟨hreach', hend⟩ :
      Reaches invokeStdcallCode callee m1 final ∧
        final.counter = m1.counter + block.length :=
    reaches_performAll m1 (by decide) hcode
  have hfields : final.entered = m1.entered ∧
      final.locals .retv = (callee entry).registers .eax ∧
      final.registers .ecx =
        (callee entry).memory ((callee entry).registers .esp) ∧
      final.registers .ebx =
        (callee entry).memory ((callee entry).registers .esp + 4) ∧
      final.registers .eax =
        (callee entry).memory ((callee entry).registers .esp + 4 + 4) ∧
      final.registers .esp = (callee entry).registers .esp + 4 + 4 + 4 := by
    simp [hfinal, hblock, Machine.performAll, Machine.perform, Machine.next,
      Machine.setRegister, hcalled.registers, hcalled.memory]
  rcases hfields with ⟨hentered, hretv, hecx, hebx, heax, hespFinal⟩
  refine ⟨entry, final, hreach.trans hreach', ?_, ?_, hcalled.procedure,
    hcalled.words, hretv, ?_⟩
  · rw [hend, hcalled.counter]
    rfl
  · rw [hentered, hcalled.entered]
  · intro hreturns
    have htop : (callee entry).registers .esp = m.registers .esp - 12 := by
      rw [hreturns.pops, hcalled.esp]
      ring
    have hsaved : ∀ address, m.registers .esp - 12 ≤ address →
        address < m.registers .esp →
        (callee entry).memory address = savedMemory m address := by
      intro address hge hlt
      have hesp := hcalled.esp
      rw [hreturns.saved address (by omega) (by omega), hcalled.saved address hge]
    rw [htop] at hecx hebx heax hespFinal
    rw [hsaved _ (by omega) (by omega)] at hecx hebx heax
    intro register
    cases register with
    | eax =>
        have hplace : m.registers .esp - 12 + 4 + 4 = m.registers .esp - 4 := by ring
        rw [heax, hplace]
        unfold savedMemory
        rw [Function.update_of_ne (by omega), Function.update_of_ne (by omega),
          Function.update_self]
    | ebx =>
        have hplace : m.registers .esp - 12 + 4 = m.registers .esp - 8 := by ring
        rw [hebx, hplace]
        unfold savedMemory
        rw [Function.update_of_ne (by omega), Function.update_self]
    | ecx =>
        rw [hecx]
        unfold savedMemory
        rw [Function.update_self]
    | esp =>
        rw [hespFinal]
        ring

/-! ## The arguments -/

/-- Numbers, `null`, `undefined`, strings, and buffers whose data has an
address. -/
def SupportedArgument : DukValue → Prop
  | .number _ | .null | .undefined | .string _ => True
  | v => v.getBufferData ≠ 0

def argumentWord (v : DukValue) : ℕ :=
  (convertArgument v).getD 0

theorem convertArgument_of_supported
    {v : DukValue} (hsupported : SupportedArgument v) :
    convertArgument v = some (argumentWord v) := by
  have hsome : ∃ value, convertArgument v = some value := by
    cases v with
    | buffer h => exact ⟨_, if_pos hsupported⟩
    | bufferObject h => exact ⟨_, if_pos hsupported⟩
    | boolean value => exact absurd rfl hsupported
    | object => exact absurd rfl hsupported
    | pointer value => exact absurd rfl hsupported
    | lightfunc => exact absurd rfl hsupported
    | _ => exact ⟨_, rfl⟩
  rcases hsome with ⟨value, hvalue⟩
  simp [argumentWord, hvalue]

theorem convertArgument_of_not_supported
    {v : DukValue} (hrefused : ¬ SupportedArgument v) :
    convertArgument v = none := by
  cases v with
  | buffer h => exact if_neg hrefused
  | bufferObject h => exact if_neg hrefused
  | boolean value => rfl
  | object => rfl
  | pointer value => rfl
  | lightfunc => rfl
  | _ => exact absurd trivial hrefused

theorem fillArguments_of_supported
    {args : List DukValue} (hsupported : ∀ v ∈ args, SupportedArgument v)
    {p : ℕ} (hroom : args.length ≤ p) (words : ℕ → ℕ) :
    ∃ filled, fillArguments args p words = some filled ∧
      (∀ i (hi : i < args.length), filled (p - 1 - i) = argumentWord args[i]) ∧
      ∀ i, p ≤ i → filled i = words i := by
  induction args generalizing p words with
  | nil => exact ⟨words, rfl, by simp, fun _ _ => rfl⟩
  | cons v args ih =>
      have hlength : args.length + 1 ≤ p := hroom
      have hconvert := convertArgument_of_supported
        (hsupported v List.mem_cons_self)
      obtain ⟨filled, hfill, hstored, hkept⟩ :=
        ih (fun other hmem => hsupported other (List.mem_cons_of_mem _ hmem))
          (p := p - 1) (by omega) (Function.update words (p - 1) (argumentWord v))
      refine ⟨filled, by simp [fillArguments, hconvert, hfill], ?_, ?_⟩
      · intro i hi
        cases i with
        | zero =>
            have hfirst := hkept (p - 1) le_rfl
            simpa using hfirst
        | succ i =>
            have hnext := hstored i (by simpa using hi)
            have hplace : p - 1 - (i + 1) = p - 1 - 1 - i := by omega
            simpa [hplace] using hnext
      · intro i hi
        rw [hkept i (by omega), Function.update_of_ne (by omega)]

theorem fillArguments_of_refused
    {args : List DukValue} (hrefused : ∃ v ∈ args, ¬ SupportedArgument v)
    (p : ℕ) (words : ℕ → ℕ) : fillArguments args p words = none := by
  induction args generalizing p words with
  | nil => simp at hrefused
  | cons v args ih =>
      by_cases hfirst : SupportedArgument v
      · have hrest : ∃ other ∈ args, ¬ SupportedArgument other := by
          rcases hrefused with ⟨other, hmem, hother⟩
          rw [List.mem_cons] at hmem
          rcases hmem with rfl | hmem
          · exact absurd hfirst hother
          · exact ⟨other, hmem, hother⟩
        simp [fillArguments, convertArgument_of_supported hfirst, ih hrest]
      · simp [fillArguments, convertArgument_of_not_supported hfirst]

/-! ## The call -/

/-- The temporary array, which is allocated for one argument or more, has been
released once. -/
def ArrayReleasedOnce (args : List DukValue) (s final : NativeState) : Prop :=
  final.arrays =
    (if args = [] then [] else [.released s.nextArray, .acquired s.nextArray]) ++
      s.arrays

/-- The registers after `alloca`, where the inline code starts. -/
def startRegisters (s : NativeState) (argc : ℕ) : Register → ℤ :=
  Function.update s.machine.registers .esp (s.machine.registers .esp - 4 * argc)

/-- The procedure was entered once, with the arguments in its frame, and its
result was returned. -/
structure EnteredOnce (callee : Entry → Exit) (proc : ℤ) (args : List DukValue)
    (s : NativeState) (outcome : CallOutcome) (final : NativeState)
    (entry : Entry) : Prop where
  once : final.machine.entered = entry :: s.machine.entered
  procedure : entry.procedure = proc
  arguments : ∀ i (hi : i < args.length),
    entry.memory (entry.registers .esp + 4 * (i + 1)) = argumentWord args[i]
  registers : ReturnsStdcall callee entry args.length →
    final.machine.registers = startRegisters s args.length
  result : outcome =
    .returned ((callee entry).registers .eax % 2 ^ 32).toNat

theorem arrays_prepareStdcall
    (proc : ℤ) (argc : ℕ) (argv : Option ℕ) (words : ℕ → ℕ) (s : NativeState) :
    (prepareStdcall proc argc argv words s).arrays =
      if 0 < argc then (s.deleteArray argv).arrays else s.arrays := by
  unfold prepareStdcall
  by_cases hargc : 0 < argc
  · cases argv <;> simp [hargc, NativeState.deleteArray]
  · simp [hargc]

theorem dynamicInvokeStdcall_spec
    (proc : ℤ) (argc : ℕ) (argv : Option ℕ) (words : ℕ → ℕ) (s : NativeState) :
    ∃ steps entry m, (∀ fuel, steps ≤ fuel →
        dynamicInvokeStdcall callee fuel proc argc argv words s =
          some (((callee entry).registers .eax % 2 ^ 32).toNat,
            { prepareStdcall proc argc argv words s with machine := m })) ∧
      m.entered = entry :: s.machine.entered ∧ entry.procedure = proc ∧
      (∀ i < argc, entry.memory (entry.registers .esp + 4 * (argc - i)) =
        words i) ∧
      (ReturnsStdcall callee entry argc → m.registers = startRegisters s argc) := by
  set prepared := prepareStdcall proc argc argv words s with hprepared
  have hlocals : prepared.machine.counter = 0 ∧
      prepared.machine.locals .argc = argc ∧
      prepared.machine.locals .proc = proc :=
    ⟨rfl, rfl, rfl⟩
  have hstate : prepared.machine.registers = startRegisters s argc ∧
      prepared.machine.entered = s.machine.entered ∧
      (0 < argc → prepared.machine.locals .argv = prepared.machine.registers .esp ∧
        prepared.machine.memory = copyWords s.machine.memory
          (prepared.machine.registers .esp) words argc) := by
    by_cases hargc : 0 < argc
    · cases argv <;>
        simp [hprepared, prepareStdcall, hargc, NativeState.deleteArray,
          startRegisters, Machine.setRegister]
    · have hzero : argc = 0 := by omega
      simp [hprepared, prepareStdcall, hzero, startRegisters]
  rcases hstate with ⟨hregisters, hentered, hargv⟩
  obtain ⟨entry, m, hreach, hcounter, honce, hprocedure, hwords, hretv, hkept⟩ :=
    reaches_return callee prepared.machine hlocals.1 hlocals.2.1
      (fun hargc => (hargv hargc).1.ge)
  obtain ⟨steps, hsteps⟩ := hreach.execute (by rw [hcounter]; decide)
  refine ⟨steps, entry, m, ?_, ?_, ?_, ?_, ?_⟩
  · intro fuel hfuel
    unfold dynamicInvokeStdcall
    simp only [← hprepared]
    rw [hsteps fuel hfuel]
    simp [hretv]
  · rw [honce, hentered]
  · rw [hprocedure, hlocals.2.2]
  · intro i hi
    obtain ⟨hsource, hmemory⟩ := hargv (by omega)
    rw [hwords i hi, hsource, hmemory]
    exact copyWords_at _ _ words hi
  · intro hreturns
    funext register
    rw [hkept hreturns register, hregisters]

theorem nativeCall_of_supported
    (callee : Entry → Exit) (proc : ℤ) {args : List DukValue}
    (hsupported : ∀ v ∈ args, SupportedArgument v) (s : NativeState) :
    ∃ steps, ∀ fuel, steps ≤ fuel → ∃ outcome final entry,
      nativeCall callee fuel proc args s = some (outcome, final) ∧
      ArrayReleasedOnce args s final ∧
      EnteredOnce callee proc args s outcome final entry := by
  set allocated : NativeState :=
    if 0 < args.length then
      { s with
        arrays := .acquired s.nextArray :: s.arrays
        nextArray := s.nextArray + 1 }
    else s with hallocated
  set array := if 0 < args.length then some s.nextArray else none with harray
  have hmachine : allocated.machine = s.machine := by
    rw [hallocated]
    split <;> rfl
  obtain ⟨words, hfill, hstored, _⟩ :=
    fillArguments_of_supported hsupported le_rfl (fun _ => 0)
  obtain ⟨steps, entry, m, hinvoke, honce, hprocedure, hwords, hkept⟩ :=
    dynamicInvokeStdcall_spec callee proc args.length array words allocated
  set value := ((callee entry).registers .eax % 2 ^ 32).toNat with hvalue
  let final : NativeState :=
    { prepareStdcall proc args.length array words allocated with machine := m }
  refine ⟨steps, fun fuel hfuel => ⟨.returned value, final, entry, ?_, ?_, ?_⟩⟩
  · unfold nativeCall
    simp only [← hallocated, ← harray, hfill, hinvoke fuel hfuel]
    rfl
  · have harrays : (prepareStdcall proc args.length array words allocated).arrays =
        (allocated.deleteArray array).arrays := by
      rw [arrays_prepareStdcall]
      by_cases hsome : 0 < args.length
      · rw [if_pos hsome]
      · rw [if_neg hsome, harray, if_neg hsome]
        rfl
    change (prepareStdcall proc args.length array words allocated).arrays = _
    rw [harrays]
    cases args <;> simp [hallocated, harray, NativeState.deleteArray]
  · refine ⟨?_, hprocedure, ?_, ?_, rfl⟩
    · rw [← hmachine]
      exact honce
    · intro i hi
      have hword := hwords (args.length - 1 - i) (by omega)
      have hplace : ((args.length : ℤ) - (args.length - 1 - i : ℕ)) = i + 1 := by
        omega
      have hindex : args.length - 1 - (args.length - 1 - i) = i := by omega
      rw [hplace] at hword
      rw [hword, hstored i hi]
    · intro hreturns
      have hregisters := hkept hreturns
      unfold startRegisters at hregisters ⊢
      rw [← hmachine]
      exact hregisters

theorem nativeCall_of_refused
    (callee : Entry → Exit) (fuel : ℕ) (proc : ℤ) {args : List DukValue}
    (hrefused : ∃ v ∈ args, ¬ SupportedArgument v) (s : NativeState) :
    ∃ final, nativeCall callee fuel proc args s =
        some (.thrown unsupportedArgument, final) ∧
      ArrayReleasedOnce args s final ∧
      final.machine.entered = s.machine.entered := by
  have hfill := fillArguments_of_refused hrefused args.length (fun _ => 0)
  unfold nativeCall
  simp only [hfill]
  refine ⟨_, rfl, ?_, ?_⟩
  · unfold ArrayReleasedOnce
    cases args <;> simp [NativeState.deleteArray]
  · cases args <;> simp [NativeState.deleteArray]

/-- A native call enters its procedure once with the arguments in order, or
raises a `TypeError` without entering it; the array is released either way. -/
theorem nativeCall_frame
    (callee : Entry → Exit) (proc : ℤ) (args : List DukValue) (s : NativeState) :
    ∃ steps, ∀ fuel, steps ≤ fuel → ∃ outcome final,
      nativeCall callee fuel proc args s = some (outcome, final) ∧
      ArrayReleasedOnce args s final ∧
      ((∀ v ∈ args, SupportedArgument v) →
        ∃ entry, EnteredOnce callee proc args s outcome final entry) ∧
      ((∃ v ∈ args, ¬ SupportedArgument v) →
        outcome = .thrown unsupportedArgument ∧
          final.machine.entered = s.machine.entered) := by
  by_cases hsupported : ∀ v ∈ args, SupportedArgument v
  · obtain ⟨steps, hsteps⟩ := nativeCall_of_supported callee proc hsupported s
    refine ⟨steps, fun fuel hfuel => ?_⟩
    obtain ⟨outcome, final, entry, hcall, hreleased, hentered⟩ := hsteps fuel hfuel
    refine ⟨outcome, final, hcall, hreleased, fun _ => ⟨entry, hentered⟩, ?_⟩
    rintro ⟨v, hmem, hrefused⟩
    exact absurd (hsupported v hmem) hrefused
  · have hrefused : ∃ v ∈ args, ¬ SupportedArgument v := by
      simpa using hsupported
    refine ⟨0, fun fuel _ => ?_⟩
    obtain ⟨final, hcall, hreleased, hentered⟩ :=
      nativeCall_of_refused callee fuel proc hrefused s
    refine ⟨_, final, hcall, hreleased, ?_, fun _ => ⟨rfl, hentered⟩⟩
    intro hall
    exact absurd hall hsupported

end NekoScript
