import Mathlib.Tactic

/-!
# Bit streams

Numbers of a fixed width as sequences of bits, the highest bit first, and byte
sequences as the bits of their bytes.  A writer that shifts a number into an
accumulator appends its bits; a reader that takes the top of an accumulator
takes the first bits.
-/

namespace BitStreams

/-- The lowest `width` bits, the highest of them first. -/
def bitsOf (width value : ℕ) : List Bool :=
  (List.range width).map fun i => value.testBit (width - 1 - i)

@[simp] theorem length_bitsOf (width value : ℕ) : (bitsOf width value).length = width := by
  simp [bitsOf]

@[simp] theorem bitsOf_zero (value : ℕ) : bitsOf 0 value = [] := rfl

theorem bitsOf_congr
    {width value other : ℕ} (h : ∀ i < width, value.testBit i = other.testBit i) :
    bitsOf width value = bitsOf width other := by
  unfold bitsOf
  apply List.map_congr_left
  intro i hi
  have hlt := List.mem_range.mp hi
  exact h _ (by omega)

theorem bitsOf_mod {width bound : ℕ} (h : width ≤ bound) (value : ℕ) :
    bitsOf width (value % 2 ^ bound) = bitsOf width value := by
  apply bitsOf_congr
  intro i hi
  have hlt : i < bound := by omega
  simp [Nat.testBit_mod_two_pow, hlt]

theorem bitsOf_add (high low value : ℕ) :
    bitsOf (high + low) value = bitsOf high (value >>> low) ++ bitsOf low value := by
  unfold bitsOf
  rw [List.range_add, List.map_append, List.map_map]
  congr 1
  · apply List.map_congr_left
    intro i hi
    have hlt := List.mem_range.mp hi
    rw [Nat.testBit_shiftRight]
    congr 1
    omega
  · apply List.map_congr_left
    intro i _
    simp only [Function.comp_apply]
    congr 1
    omega

theorem bitsOf_inj
    {width value other : ℕ} (hvalue : value < 2 ^ width) (hother : other < 2 ^ width)
    (h : bitsOf width value = bitsOf width other) : value = other := by
  apply Nat.eq_of_testBit_eq
  intro i
  by_cases hi : i < width
  · have hget := congrArg (fun bits => bits[width - 1 - i]?) h
    have hindex : width - 1 - (width - 1 - i) = i := by omega
    have hlt : width - 1 - i < width := by omega
    simpa [bitsOf, List.getElem?_range hlt, hindex] using hget
  · have hpow : 2 ^ width ≤ 2 ^ i := Nat.pow_le_pow_right (by omega) (by omega)
    rw [Nat.testBit_lt_two_pow (by omega), Nat.testBit_lt_two_pow (by omega)]

/-- Shifting a number into an accumulator. -/
theorem bitsOf_shiftLeft_or
    {high low acc value bound : ℕ} (hbound : high + low ≤ bound) (hvalue : value < 2 ^ low) :
    bitsOf (high + low) ((acc <<< low) % 2 ^ bound ||| value) =
      bitsOf high acc ++ bitsOf low value := by
  rw [bitsOf_add]
  congr 1
  · apply bitsOf_congr
    intro i hi
    have hlt : low + i < bound := by omega
    have hpow : 2 ^ low ≤ 2 ^ (low + i) := Nat.pow_le_pow_right (by omega) (by omega)
    have hnone : value.testBit (low + i) = false := Nat.testBit_lt_two_pow (by omega)
    simp [Nat.testBit_shiftRight, Nat.testBit_or, Nat.testBit_mod_two_pow,
      Nat.testBit_shiftLeft, hlt, hnone]
  · apply bitsOf_congr
    intro i hi
    have hnot : ¬ low ≤ i := by omega
    simp [Nat.testBit_or, Nat.testBit_mod_two_pow, Nat.testBit_shiftLeft, hnot]

/-- A number made of two fields. -/
theorem bitsOf_shiftLeft_add
    {high low field value : ℕ} (hvalue : value < 2 ^ low) :
    bitsOf (high + low) (field <<< low + value) = bitsOf high field ++ bitsOf low value := by
  have hpos : 0 < 2 ^ low := by positivity
  have hhigh : (field <<< low + value) >>> low = field := by
    rw [Nat.shiftRight_eq_div_pow, Nat.shiftLeft_eq, Nat.mul_comm, Nat.mul_add_div hpos,
      Nat.div_eq_of_lt hvalue, Nat.add_zero]
  have hlow : (field <<< low + value) % 2 ^ low = value := by
    rw [Nat.shiftLeft_eq, Nat.mul_comm, Nat.mul_add_mod, Nat.mod_eq_of_lt hvalue]
  rw [bitsOf_add, hhigh, ← bitsOf_mod le_rfl (field <<< low + value), hlow]

/-- Taking the top of an accumulator. -/
theorem bitsOf_top (high low acc : ℕ) :
    bitsOf (high + low) acc = bitsOf high ((acc >>> low) % 2 ^ high) ++ bitsOf low acc := by
  rw [bitsOf_add, bitsOf_mod le_rfl]

def bitsOfBytes (bytes : List UInt8) : List Bool :=
  bytes.flatMap fun byte => bitsOf 8 byte.toNat

@[simp] theorem bitsOfBytes_nil : bitsOfBytes [] = [] := rfl

theorem bitsOfBytes_cons (byte : UInt8) (bytes : List UInt8) :
    bitsOfBytes (byte :: bytes) = bitsOf 8 byte.toNat ++ bitsOfBytes bytes :=
  List.flatMap_cons

theorem bitsOfBytes_append (bytes others : List UInt8) :
    bitsOfBytes (bytes ++ others) = bitsOfBytes bytes ++ bitsOfBytes others :=
  List.flatMap_append

@[simp] theorem length_bitsOfBytes (bytes : List UInt8) :
    (bitsOfBytes bytes).length = 8 * bytes.length := by
  induction bytes with
  | nil => rfl
  | cons byte bytes ih =>
      rw [bitsOfBytes_cons, List.length_append, length_bitsOf, ih, List.length_cons]
      omega

end BitStreams
