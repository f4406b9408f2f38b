import NekoScript.NKWinAPICallFrame
import Mathlib.Tactic

/-!
# The words that arguments are converted to

`duk_get_uint` clamps: a negative number is passed as zero, a large one as
2^32 - 1, a fraction without its fractional part.  A null data pointer is taken
for a value that is no buffer, so a buffer without data is refused.
-/

namespace NekoScript

open StackMachine

/-- The word that an argument stands for, and nothing for a value that is to
be refused. -/
def describedWord : DukValue → Option ℕ
  | .number (.finite value) =>
      if value.den = 1 ∧ -2 ^ 31 ≤ value ∧ value < 2 ^ 32 then
        some (value.num % 2 ^ 32).toNat
      else none
  | .null | .undefined => some 0
  | .string h => some h.data
  | .buffer h => some h.data
  | .bufferObject h => h.buf.map fun buf => buf.data + h.offset
  | _ => none

/-- In a call with other arguments that are accepted, the procedure finds the
word of `v` in its place, or is not called and the `TypeError` is raised. -/
def PassesDescribedWord (v : DukValue) : Prop :=
  ∀ (callee : Entry → Exit) (proc : ℤ) (before after : List DukValue)
    (s : NativeState), (∀ other ∈ before ++ after, SupportedArgument other) →
    ∃ steps, ∀ fuel, steps ≤ fuel → ∃ outcome final,
      nativeCall callee fuel proc (before ++ v :: after) s = some (outcome, final) ∧
      match describedWord v with
      | some word => ∃ entry, final.machine.entered = entry :: s.machine.entered ∧
          entry.procedure = proc ∧
          entry.memory (entry.registers .esp + 4 * (before.length + 1)) = word
      | none => outcome = .thrown unsupportedArgument ∧
          final.machine.entered = s.machine.entered

/-- A number is an integer from 0 to 2^32 - 1, and a buffer has data: its slice
lies within it, at an address that is not null. -/
def ConvertedFaithfully : DukValue → Prop
  | .number value => ∃ n : ℕ, n < 2 ^ 32 ∧ value = .finite n
  | .buffer h => h.data ≠ 0
  | .bufferObject h => ∀ buf, h.buf = some buf →
      h.offset + h.length ≤ buf.bytes.length ∧ buf.data + h.offset ≠ 0
  | _ => True

theorem convertArgument_number (value : DukNumber) :
    convertArgument (.number value) = some value.coerceUint := rfl

theorem coerceUint_natCast {n : ℕ} (hn : n < 2 ^ 32) :
    (DukNumber.finite n).coerceUint = n := by
  have hmax : ¬ (n : ℚ) > 0xffffffff := by
    have hle : n ≤ 0xffffffff := by omega
    have hcast : (n : ℚ) ≤ 0xffffffff := by exact_mod_cast hle
    exact not_lt.mpr hcast
  have hneg : ¬ (n : ℚ) < 0 := by simp
  unfold DukNumber.coerceUint
  dsimp only
  rw [if_neg hneg, if_neg hmax]
  simp

theorem describedWord_natCast {n : ℕ} (hn : n < 2 ^ 32) :
    describedWord (.number (.finite n)) = some n := by
  have hrange : ((n : ℚ)).den = 1 ∧ -2 ^ 31 ≤ (n : ℚ) ∧ (n : ℚ) < 2 ^ 32 := by
    refine ⟨by simp, ?_, by exact_mod_cast hn⟩
    have hpos : (0 : ℚ) ≤ n := by simp
    linarith
  have hword : ((n : ℚ).num % 2 ^ 32).toNat = n := by
    rw [Rat.num_natCast]
    omega
  rw [describedWord, if_pos hrange, hword]

/-- A number is converted as described only if it is a small natural number. -/
theorem exists_natCast_of_describedWord
    {value : DukNumber} (hword : describedWord (.number value) =
      some value.coerceUint) :
    ∃ n : ℕ, n < 2 ^ 32 ∧ value = .finite n := by
  cases value with
  | nan => simp [describedWord] at hword
  | infinite negative => simp [describedWord] at hword
  | finite value =>
      by_cases hrange : value.den = 1 ∧ -2 ^ 31 ≤ value ∧ value < 2 ^ 32
      · rw [describedWord, if_pos hrange] at hword
        obtain ⟨hden, hlow, hhigh⟩ := hrange
        have hvalue : value = (value.num : ℚ) := ((Rat.den_eq_one_iff value).mp hden).symm
        rw [hvalue] at hlow hhigh
        have hlow' : -2 ^ 31 ≤ value.num := by exact_mod_cast hlow
        have hhigh' : value.num < 2 ^ 32 := by exact_mod_cast hhigh
        have hnonneg : 0 ≤ value.num := by
          by_contra hneg
          have hclamped : (DukNumber.finite value).coerceUint = 0 := by
            have hlt : value < 0 := Rat.num_neg.mp (by omega)
            simp [DukNumber.coerceUint, hlt]
          rw [hclamped] at hword
          have hzero := Option.some.inj hword
          omega
        refine ⟨value.num.toNat, by omega, ?_⟩
        congr 1
        have hcast : ((value.num.toNat : ℕ) : ℤ) = value.num := by omega
        calc
          value = (value.num : ℚ) := hvalue
          _ = ((value.num.toNat : ℤ) : ℚ) := by rw [hcast]
          _ = (value.num.toNat : ℚ) := Int.cast_natCast _
      · rw [describedWord, if_neg hrange] at hword
        contradiction

theorem describedWord_eq_iff (v : DukValue) :
    describedWord v = convertArgument v ↔ ConvertedFaithfully v := by
  cases v with
  | number value =>
      rw [convertArgument_number]
      constructor
      · exact exists_natCast_of_describedWord
      · rintro ⟨n, hn, rfl⟩
        rw [describedWord_natCast hn, coerceUint_natCast hn]
  | buffer h =>
      have hconvert : convertArgument (.buffer h) =
          if h.data ≠ 0 then some h.data else none := rfl
      rw [hconvert, describedWord, ConvertedFaithfully]
      by_cases hdata : h.data ≠ 0
      · simp [hdata]
      · rw [if_neg hdata]
        simp [hdata]
  | bufferObject h =>
      set v := DukValue.bufferObject h with hv
      have hconvert : convertArgument v =
          if v.getBufferData ≠ 0 then some v.getBufferData else none := rfl
      rw [hconvert]
      cases hbuf : h.buf with
      | none => simp [hv, describedWord, ConvertedFaithfully, DukValue.getBufferData,
          DukValue.bufferData, hbuf]
      | some buf =>
          by_cases hslice : h.offset + h.length ≤ buf.bytes.length
          · have haddress : v.getBufferData = buf.data + h.offset := by
              simp [hv, DukValue.getBufferData, DukValue.bufferData, hbuf, hslice]
            rw [haddress]
            by_cases hnull : buf.data + h.offset = 0
            · rw [if_neg (by simp [hnull])]
              apply iff_of_false
              · simp [hv, describedWord, hbuf]
              · intro hfaithful
                exact (hfaithful buf hbuf).2 hnull
            · rw [if_pos hnull]
              apply iff_of_true
              · simp [hv, describedWord, hbuf]
              · intro other hother
                obtain rfl : buf = other := Option.some.inj (hbuf ▸ hother)
                exact ⟨hslice, hnull⟩
          · have haddress : v.getBufferData = 0 := by
              simp [hv, DukValue.getBufferData, DukValue.bufferData, hbuf, hslice]
            rw [haddress]
            simp [hv, describedWord, ConvertedFaithfully, hbuf, hslice]
  | string h =>
      have hconvert : convertArgument (.string h) = some h.data := rfl
      simp [hconvert, describedWord, ConvertedFaithfully]
  | undefined => exact iff_of_true rfl trivial
  | null => exact iff_of_true rfl trivial
  | boolean value => exact iff_of_true rfl trivial
  | object => exact iff_of_true rfl trivial
  | pointer value => exact iff_of_true rfl trivial
  | lightfunc => exact iff_of_true rfl trivial

theorem passesDescribedWord_of_eq
    {v : DukValue} (hword : describedWord v = convertArgument v) :
    PassesDescribedWord v := by
  intro callee proc before after s hothers
  by_cases hsupported : SupportedArgument v
  · have hall : ∀ other ∈ before ++ v :: after, SupportedArgument other := by
      intro other hmem
      rw [List.mem_append, List.mem_cons] at hmem
      rcases hmem with hmem | rfl | hmem
      · exact hothers other (List.mem_append_left _ hmem)
      · exact hsupported
      · exact hothers other (List.mem_append_right _ hmem)
    obtain ⟨steps, hsteps⟩ := nativeCall_of_supported callee proc hall s
    refine ⟨steps, fun fuel hfuel => ?_⟩
    obtain ⟨outcome, final, entry, hcall, _, hentered⟩ := hsteps fuel hfuel
    refine ⟨outcome, final, hcall, ?_⟩
    rw [hword, convertArgument_of_supported hsupported]
    refine ⟨entry, hentered.once, hentered.procedure, ?_⟩
    have hargument := hentered.arguments before.length (by simp)
    simpa using hargument
  · refine ⟨0, fun fuel _ => ?_⟩
    have hrefused : ∃ other ∈ before ++ v :: after, ¬ SupportedArgument other :=
      ⟨v, by simp, hsupported⟩
    obtain ⟨final, hcall, _, hentered⟩ :=
      nativeCall_of_refused callee fuel proc hrefused s
    refine ⟨_, final, hcall, ?_⟩
    rw [hword, convertArgument_of_not_supported hsupported]
    exact ⟨rfl, hentered⟩

/-- A call with `v` alone shows how `v` is converted. -/
theorem describedWord_eq_of_passes
    {v : DukValue} (hpasses : PassesDescribedWord v) :
    describedWord v = convertArgument v := by
  let callee : Entry → Exit := fun entry => ⟨entry.registers, entry.memory⟩
  let s : NativeState := ⟨⟨fun _ => 0, fun _ => 0, fun _ => 0, false, 0, []⟩, [], 0⟩
  obtain ⟨steps, hsteps⟩ := hpasses callee 0 [] [] s (by simp)
  by_cases hsupported : SupportedArgument v
  · have hall : ∀ other ∈ [v], SupportedArgument other := by
      simpa using hsupported
    obtain ⟨steps', hsteps'⟩ := nativeCall_of_supported callee 0 hall s
    obtain ⟨outcome, final, hcall, hdescribed⟩ := hsteps (steps + steps') (by omega)
    obtain ⟨outcome', final', entry', hcall', _, hentered⟩ :=
      hsteps' (steps + steps') (by omega)
    rw [List.nil_append, hcall'] at hcall
    obtain ⟨rfl, rfl⟩ := Prod.mk.inj (Option.some.inj hcall)
    rw [convertArgument_of_supported hsupported]
    cases hword : describedWord v with
    | none =>
        rw [hword] at hdescribed
        have hthrown := hdescribed.1
        rw [hentered.result] at hthrown
        contradiction
    | some word =>
        rw [hword] at hdescribed
        obtain ⟨entry, honce, _, hplace⟩ := hdescribed
        rw [hentered.once] at honce
        have hsame : entry' = entry := (List.cons.inj honce).1
        have hargument := hentered.arguments 0 (by simp)
        subst hsame
        have heq : ((argumentWord v : ℕ) : ℤ) = word := by
          rw [← hplace, ← List.getElem_singleton (a := v) (by simp : 0 < 1)]
          exact hargument.symm
        have hnat : argumentWord v = word := by exact_mod_cast heq
        rw [hnat]
  · obtain ⟨outcome, final, hcall, hdescribed⟩ := hsteps steps le_rfl
    have hrefused : ∃ other ∈ [v], ¬ SupportedArgument other :=
      ⟨v, List.mem_singleton_self v, hsupported⟩
    obtain ⟨final', hcall', _, hentered⟩ :=
      nativeCall_of_refused callee steps 0 hrefused s
    rw [List.nil_append, hcall'] at hcall
    obtain ⟨rfl, rfl⟩ := Prod.mk.inj (Option.some.inj hcall)
    rw [convertArgument_of_not_supported hsupported]
    cases hword : describedWord v with
    | none => rfl
    | some word =>
        rw [hword] at hdescribed
        obtain ⟨entry, honce, _⟩ := hdescribed
        rw [hentered] at honce
        simp at honce

/-- Exactly the small natural numbers, the buffers with data and the values
that are no numbers and no buffers are converted as described. -/
theorem passesDescribedWord_iff (v : DukValue) :
    PassesDescribedWord v ↔ ConvertedFaithfully v := by
  rw [← describedWord_eq_iff]
  exact ⟨describedWord_eq_of_passes, passesDescribedWord_of_eq⟩

/-- `INVALID_HANDLE_VALUE` is passed as a null handle. -/
theorem not_passesDescribedWord_negative :
    describedWord (.number (.finite (-1))) = some 0xffffffff ∧
      convertArgument (.number (.finite (-1))) = some 0 ∧
      ¬ PassesDescribedWord (.number (.finite (-1))) := by
  have hdescribed : describedWord (.number (.finite (-1))) = some 0xffffffff := by
    decide +kernel
  have hconverted : convertArgument (.number (.finite (-1))) = some 0 := by
    decide +kernel
  refine ⟨hdescribed, hconverted, ?_⟩
  intro hpasses
  have heq := describedWord_eq_of_passes hpasses
  rw [hdescribed, hconverted] at heq
  contradiction

end NekoScript
