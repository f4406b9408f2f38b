import NekoScript.Transducers
import Mathlib.Tactic

/-!
# UTF-8, UTF-16 and CESU-8

Decoders are transducers: they read one code unit at a time, emit code points
and keep what is pending of a sequence.  An ill-formed sequence is replaced by
U+FFFD, one for each maximal part of it that could have begun a well-formed
one.  Decoding inverts encoding on Unicode scalar values.
-/

namespace UnicodeCoding

open Transducers

/-! ## Encoding -/

def IsScalar (codePoint : ℕ) : Prop :=
  codePoint < 0xD800 ∨ 0xE000 ≤ codePoint ∧ codePoint < 0x110000

theorem IsScalar.lt {codePoint : ℕ} (h : IsScalar codePoint) : codePoint < 0x110000 := by
  rcases h with h | ⟨_, h⟩ <;> omega

def replacement : ℕ := 0xFFFD

def isHighSurrogate (unit : ℕ) : Bool := 0xD800 ≤ unit && unit ≤ 0xDBFF

def isLowSurrogate (unit : ℕ) : Bool := 0xDC00 ≤ unit && unit ≤ 0xDFFF

theorem isHighSurrogate_iff {unit : ℕ} :
    isHighSurrogate unit = true ↔ 0xD800 ≤ unit ∧ unit ≤ 0xDBFF := by
  simp [isHighSurrogate]

theorem isLowSurrogate_iff {unit : ℕ} :
    isLowSurrogate unit = true ↔ 0xDC00 ≤ unit ∧ unit ≤ 0xDFFF := by
  simp [isLowSurrogate]

def highSurrogate (codePoint : ℕ) : ℕ := 0xD800 + (codePoint - 0x10000) / 0x400 % 0x400

def lowSurrogate (codePoint : ℕ) : ℕ := 0xDC00 + (codePoint - 0x10000) % 0x400

def encodeUtf16 (codePoint : ℕ) : List UInt16 :=
  if codePoint < 0x10000 then [.ofNat codePoint]
  else [.ofNat (highSurrogate codePoint), .ofNat (lowSurrogate codePoint)]

def encodeUtf8 (codePoint : ℕ) : List UInt8 :=
  if codePoint < 0x80 then [.ofNat codePoint]
  else if codePoint < 0x800 then
    [.ofNat (0xC0 + codePoint / 64), .ofNat (0x80 + codePoint % 64)]
  else if codePoint < 0x10000 then
    [.ofNat (0xE0 + codePoint / 4096), .ofNat (0x80 + codePoint / 64 % 64),
      .ofNat (0x80 + codePoint % 64)]
  else
    [.ofNat (0xF0 + codePoint / 262144), .ofNat (0x80 + codePoint / 4096 % 64),
      .ofNat (0x80 + codePoint / 64 % 64), .ofNat (0x80 + codePoint % 64)]

/-- CESU-8: a supplementary code point is written as its two surrogates, each
in three bytes. -/
def encodeCesu8 (codePoint : ℕ) : List UInt8 :=
  if codePoint < 0x10000 then encodeUtf8 codePoint
  else encodeUtf8 (highSurrogate codePoint) ++ encodeUtf8 (lowSurrogate codePoint)

/-! ## Decoding UTF-8 -/

/-- Between sequences, or inside one: the continuation bytes still `needed`
after the next, the range the next must lie in, and the bits read so far. -/
inductive Utf8State where
  | start
  | inside (needed lower upper bits : ℕ)
  deriving DecidableEq, Repr

def utf8Lead (byte : ℕ) : List ℕ × Utf8State :=
  if byte < 0x80 then ([byte], .start)
  else if byte < 0xC2 then ([replacement], .start)
  else if byte < 0xE0 then ([], .inside 0 0x80 0xBF (byte - 0xC0))
  else if byte < 0xF0 then
    ([], .inside 1 (if byte = 0xE0 then 0xA0 else 0x80)
      (if byte = 0xED then 0x9F else 0xBF) (byte - 0xE0))
  else if byte < 0xF5 then
    ([], .inside 2 (if byte = 0xF0 then 0x90 else 0x80)
      (if byte = 0xF4 then 0x8F else 0xBF) (byte - 0xF0))
  else ([replacement], .start)

def utf8Step : Utf8State → ℕ → List ℕ × Utf8State
  | .start, byte => utf8Lead byte
  | .inside needed lower upper bits, byte =>
      if lower ≤ byte ∧ byte ≤ upper then
        match needed with
        | 0 => ([bits * 64 + (byte - 0x80)], .start)
        | needed + 1 => ([], .inside needed 0x80 0xBF (bits * 64 + (byte - 0x80)))
      else (replacement :: (utf8Lead byte).1, (utf8Lead byte).2)

def utf8Decoder : Transducer Utf8State UInt8 ℕ where
  step := fun state byte => utf8Step state byte.toNat
  flush
    | .start => []
    | .inside _ _ _ _ => [replacement]

def decodeUtf8 (bytes : List UInt8) : List ℕ := utf8Decoder.run .start bytes

theorem utf8Step_inside_of_mem
    (needed lower upper bits byte : ℕ)
    (hlower : lower ≤ byte) (hupper : byte ≤ upper) :
    utf8Step (.inside (needed + 1) lower upper bits) byte =
      ([], .inside needed 0x80 0xBF (bits * 64 + (byte - 0x80))) := by
  simp [utf8Step, hlower, hupper]

theorem utf8Step_last_of_mem
    (lower upper bits byte : ℕ)
    (hlower : lower ≤ byte) (hupper : byte ≤ upper) :
    utf8Step (.inside 0 lower upper bits) byte =
      ([bits * 64 + (byte - 0x80)], .start) := by
  simp [utf8Step, hlower, hupper]

theorem toNat_byte {value : ℕ} (h : value < 256) :
    (UInt8.ofNat value).toNat = value := by
  simp [Nat.mod_eq_of_lt h]

theorem toNat_unit {value : ℕ} (h : value < 65536) :
    (UInt16.ofNat value).toNat = value := by
  simp [Nat.mod_eq_of_lt h]

theorem feed_utf8Decoder_cons (state : Utf8State) (byte : UInt8)
    (rest : List UInt8) :
    utf8Decoder.feed state (byte :: rest) =
      ((utf8Step state byte.toNat).1 ++
          (utf8Decoder.feed (utf8Step state byte.toNat).2 rest).1,
        (utf8Decoder.feed (utf8Step state byte.toNat).2 rest).2) := rfl

theorem feed_encodeUtf8 {codePoint : ℕ} (hscalar : IsScalar codePoint) :
    utf8Decoder.feed .start (encodeUtf8 codePoint) = ([codePoint], .start) := by
  have hmax : codePoint < 0x110000 := by
    rcases hscalar with hlow | ⟨_, hhigh⟩ <;> omega
  have hnil : ∀ state, utf8Decoder.feed state [] = ([], state) := fun _ => rfl
  unfold encodeUtf8
  by_cases h1 : codePoint < 0x80
  · rw [if_pos h1, feed_utf8Decoder_cons, toNat_byte (by omega)]
    simp [utf8Step, utf8Lead, h1, hnil]
  rw [if_neg h1]
  by_cases h2 : codePoint < 0x800
  · have hlead : utf8Step .start (0xC0 + codePoint / 64) =
        ([], .inside 0 0x80 0xBF (codePoint / 64)) := by
      have hlow : ¬ 0xC0 + codePoint / 64 < 0xC2 := by omega
      have hhigh : 0xC0 + codePoint / 64 < 0xE0 := by omega
      simp only [utf8Step, utf8Lead]
      rw [if_neg (by omega), if_neg hlow, if_pos hhigh, Nat.add_sub_cancel_left]
    have hlast := utf8Step_last_of_mem 0x80 0xBF (codePoint / 64)
      (0x80 + codePoint % 64) (by omega) (by omega)
    have hvalue : codePoint / 64 * 64 + (0x80 + codePoint % 64 - 0x80) =
        codePoint := by omega
    rw [if_pos h2, feed_utf8Decoder_cons, toNat_byte (by omega), hlead,
      feed_utf8Decoder_cons, toNat_byte (by omega), hlast, hvalue]
    simp [hnil]
  rw [if_neg h2]
  by_cases h3 : codePoint < 0x10000
  · have hlead : utf8Step .start (0xE0 + codePoint / 4096) =
        ([], .inside 1 (if 0xE0 + codePoint / 4096 = 0xE0 then 0xA0 else 0x80)
          (if 0xE0 + codePoint / 4096 = 0xED then 0x9F else 0xBF)
          (codePoint / 4096)) := by
      have hhigh : 0xE0 + codePoint / 4096 < 0xF0 := by omega
      simp only [utf8Step, utf8Lead]
      rw [if_neg (by omega), if_neg (by omega), if_neg (by omega), if_pos hhigh,
        Nat.add_sub_cancel_left]
    have hsecond := utf8Step_inside_of_mem 0
      (if 0xE0 + codePoint / 4096 = 0xE0 then 0xA0 else 0x80)
      (if 0xE0 + codePoint / 4096 = 0xED then 0x9F else 0xBF)
      (codePoint / 4096) (0x80 + codePoint / 64 % 64)
      (by split <;> omega)
      (by rcases hscalar with hlow | ⟨hlow, _⟩ <;> split <;> omega)
    have hlast := utf8Step_last_of_mem 0x80 0xBF
      (codePoint / 4096 * 64 + (0x80 + codePoint / 64 % 64 - 0x80))
      (0x80 + codePoint % 64) (by omega) (by omega)
    have hvalue :
        (codePoint / 4096 * 64 + (0x80 + codePoint / 64 % 64 - 0x80)) * 64 +
          (0x80 + codePoint % 64 - 0x80) = codePoint := by omega
    rw [if_pos h3, feed_utf8Decoder_cons, toNat_byte (by omega), hlead,
      feed_utf8Decoder_cons, toNat_byte (by omega), hsecond,
      feed_utf8Decoder_cons, toNat_byte (by omega), hlast, hvalue]
    simp [hnil]
  · have hlead : utf8Step .start (0xF0 + codePoint / 262144) =
        ([], .inside 2
          (if 0xF0 + codePoint / 262144 = 0xF0 then 0x90 else 0x80)
          (if 0xF0 + codePoint / 262144 = 0xF4 then 0x8F else 0xBF)
          (codePoint / 262144)) := by
      have hhigh : 0xF0 + codePoint / 262144 < 0xF5 := by omega
      simp only [utf8Step, utf8Lead]
      rw [if_neg (by omega), if_neg (by omega), if_neg (by omega),
        if_neg (by omega), if_pos hhigh, Nat.add_sub_cancel_left]
    have hsecond := utf8Step_inside_of_mem 1
      (if 0xF0 + codePoint / 262144 = 0xF0 then 0x90 else 0x80)
      (if 0xF0 + codePoint / 262144 = 0xF4 then 0x8F else 0xBF)
      (codePoint / 262144) (0x80 + codePoint / 4096 % 64)
      (by split <;> omega) (by split <;> omega)
    have hthird := utf8Step_inside_of_mem 0 0x80 0xBF
      (codePoint / 262144 * 64 + (0x80 + codePoint / 4096 % 64 - 0x80))
      (0x80 + codePoint / 64 % 64) (by omega) (by omega)
    have hlast := utf8Step_last_of_mem 0x80 0xBF
      ((codePoint / 262144 * 64 + (0x80 + codePoint / 4096 % 64 - 0x80)) *
        64 + (0x80 + codePoint / 64 % 64 - 0x80))
      (0x80 + codePoint % 64) (by omega) (by omega)
    have hvalue :
        ((codePoint / 262144 * 64 + (0x80 + codePoint / 4096 % 64 - 0x80)) * 64 +
            (0x80 + codePoint / 64 % 64 - 0x80)) * 64 +
          (0x80 + codePoint % 64 - 0x80) = codePoint := by omega
    rw [if_neg h3, feed_utf8Decoder_cons, toNat_byte (by omega), hlead,
      feed_utf8Decoder_cons, toNat_byte (by omega), hsecond,
      feed_utf8Decoder_cons, toNat_byte (by omega), hthird,
      feed_utf8Decoder_cons, toNat_byte (by omega), hlast, hvalue]
    simp [hnil]

theorem decodeUtf8_encodeUtf8_append
    {text : List ℕ} (hscalar : ∀ codePoint ∈ text, IsScalar codePoint)
    (rest : List UInt8) :
    decodeUtf8 (text.flatMap encodeUtf8 ++ rest) = text ++ decodeUtf8 rest := by
  have hfeed := utf8Decoder.feed_flatMap encodeUtf8 (fun codePoint => [codePoint])
    fun codePoint hmem => feed_encodeUtf8 (hscalar codePoint hmem)
  unfold decodeUtf8
  rw [utf8Decoder.run_append_of_feed hfeed, List.flatMap_singleton']

/-- The bytes of a surrogate are no UTF-8: decoding them starts with a
replacement. -/
theorem decodeUtf8_surrogate_append
    {unit : ℕ} (hlow : 0xD800 ≤ unit) (hhigh : unit ≤ 0xDFFF)
    (rest : List UInt8) :
    ∃ others, decodeUtf8 (encodeUtf8 unit ++ rest) = replacement :: others := by
  have h1 : ¬ unit < 0x80 := by omega
  have h2 : ¬ unit < 0x800 := by omega
  have h3 : unit < 0x10000 := by omega
  have hbyte : 0xE0 + unit / 4096 = 0xED := by omega
  have hlead : utf8Step .start 0xED = ([], .inside 1 0x80 0x9F 13) := by decide
  have hsecond : utf8Step (.inside 1 0x80 0x9F 13) (0x80 + unit / 64 % 64) =
      (replacement :: (utf8Lead (0x80 + unit / 64 % 64)).1,
        (utf8Lead (0x80 + unit / 64 % 64)).2) := by
    have hout : ¬ (0x80 ≤ 0x80 + unit / 64 % 64 ∧
        0x80 + unit / 64 % 64 ≤ 0x9F) := by omega
    simp only [utf8Step]
    rw [if_neg hout]
  unfold decodeUtf8 Transducer.run encodeUtf8
  rw [if_neg h1, if_neg h2, if_pos h3, hbyte, List.cons_append,
    feed_utf8Decoder_cons, toNat_byte (by omega), hlead, List.cons_append,
    feed_utf8Decoder_cons, toNat_byte (by omega), hsecond]
  exact ⟨_, rfl⟩

/-- Every value that a state inside a sequence can still complete is a positive
scalar value. -/
def Utf8State.Completes : Utf8State → Prop
  | .start => True
  | .inside needed lower upper bits =>
      0x80 ≤ lower ∧ needed ≤ 2 ∧
        (0 < (bits * 64 + (lower - 0x80)) * 64 ^ needed ∧
            (bits * 64 + (upper - 0x80) + 1) * 64 ^ needed ≤ 0xD800 ∨
          0xE000 ≤ (bits * 64 + (lower - 0x80)) * 64 ^ needed ∧
            (bits * 64 + (upper - 0x80) + 1) * 64 ^ needed ≤ 0x110000)

theorem completes_utf8Lead {byte : ℕ} : (utf8Lead byte).2.Completes := by
  unfold utf8Lead
  split_ifs <;> simp only [Utf8State.Completes] <;> omega

theorem isScalar_of_mem_utf8Lead {byte codePoint : ℕ}
    (hmem : codePoint ∈ (utf8Lead byte).1) :
    IsScalar codePoint ∧ (byte ≠ 0 → 0 < codePoint) := by
  unfold utf8Lead at hmem
  split_ifs at hmem with h1 h2 h3 h4 h5 <;>
    simp only [List.mem_singleton, List.not_mem_nil] at hmem
  · subst hmem
    exact ⟨.inl (by omega), fun h => Nat.pos_of_ne_zero h⟩
  · subst hmem
    exact ⟨.inr (by decide), fun _ => by decide⟩
  · subst hmem
    exact ⟨.inr (by decide), fun _ => by decide⟩

theorem completes_utf8Step {state : Utf8State} (hstate : state.Completes) (byte : ℕ) :
    (utf8Step state byte).2.Completes := by
  cases state with
  | start => exact completes_utf8Lead
  | inside needed lower upper bits =>
      by_cases hbyte : lower ≤ byte ∧ byte ≤ upper
      · match needed with
        | 0 =>
            rw [utf8Step_last_of_mem _ _ _ _ hbyte.1 hbyte.2]
            trivial
        | needed + 1 =>
            rw [utf8Step_inside_of_mem _ _ _ _ _ hbyte.1 hbyte.2]
            simp only [Utf8State.Completes] at hstate ⊢
            have hcases : needed = 0 ∨ needed = 1 := by omega
            rcases hcases with rfl | rfl
            · simp only [Nat.zero_add, pow_one, pow_zero, mul_one] at hstate ⊢
              omega
            · simp only [Nat.reduceAdd, pow_one, Nat.reducePow] at hstate ⊢
              omega
      · simp only [utf8Step]
        rw [if_neg hbyte]
        exact completes_utf8Lead

theorem isScalar_of_mem_utf8Step {state : Utf8State} (hstate : state.Completes)
    {byte codePoint : ℕ} (hmem : codePoint ∈ (utf8Step state byte).1) :
    IsScalar codePoint ∧ (byte ≠ 0 → 0 < codePoint) := by
  cases state with
  | start => exact isScalar_of_mem_utf8Lead hmem
  | inside needed lower upper bits =>
      by_cases hbyte : lower ≤ byte ∧ byte ≤ upper
      · match needed with
        | 0 =>
            rw [utf8Step_last_of_mem _ _ _ _ hbyte.1 hbyte.2] at hmem
            have hvalue : codePoint = bits * 64 + (byte - 0x80) := by simpa using hmem
            simp only [Utf8State.Completes, pow_zero, mul_one] at hstate
            unfold IsScalar
            omega
        | needed + 1 =>
            rw [utf8Step_inside_of_mem _ _ _ _ _ hbyte.1 hbyte.2] at hmem
            simp at hmem
      · simp only [utf8Step] at hmem
        rw [if_neg hbyte] at hmem
        rcases List.mem_cons.mp hmem with rfl | hlead
        · exact ⟨.inr (by decide), fun _ => by decide⟩
        · exact isScalar_of_mem_utf8Lead hlead

/-- Decoding yields scalar values, and a zero for a zero byte only. -/
theorem isScalar_of_mem_decodeUtf8
    {bytes : List UInt8} {codePoint : ℕ} (hmem : codePoint ∈ decodeUtf8 bytes) :
    IsScalar codePoint ∧ (0 ∉ bytes → 0 < codePoint) := by
  have hrun : ∀ bytes : List UInt8, ∀ state : Utf8State, state.Completes →
      ∀ codePoint ∈ utf8Decoder.run state bytes,
        IsScalar codePoint ∧ (0 ∉ bytes → 0 < codePoint) := by
    intro bytes
    induction bytes with
    | nil =>
        intro state _ codePoint hmem
        cases state with
        | start => simp [Transducer.run, Transducer.feed, utf8Decoder] at hmem
        | inside needed lower upper bits =>
            have hreplaced : codePoint = replacement := by
              simpa [Transducer.run, Transducer.feed, utf8Decoder] using hmem
            rw [hreplaced]
            exact ⟨.inr (by decide), fun _ => by decide⟩
    | cons byte bytes ih =>
        intro state hstate codePoint hmem
        unfold Transducer.run at hmem
        rw [feed_utf8Decoder_cons, List.append_assoc, List.mem_append] at hmem
        rcases hmem with hfirst | hrest
        · obtain ⟨hscalar, hpos⟩ := isScalar_of_mem_utf8Step hstate hfirst
          refine ⟨hscalar, fun hzero => hpos ?_⟩
          intro hnat
          exact hzero (List.mem_cons.mpr (.inl (UInt8.toNat_inj.mp hnat.symm)))
        · obtain ⟨hscalar, hpos⟩ := ih _ (completes_utf8Step hstate _) codePoint hrest
          exact ⟨hscalar, fun hzero => hpos fun h => hzero (List.mem_cons_of_mem _ h)⟩
  exact hrun bytes .start trivial codePoint hmem

theorem zero_notMem_encodeUtf8
    {codePoint : ℕ} (hpos : 0 < codePoint) (hmax : codePoint < 0x110000) :
    (0 : UInt8) ∉ encodeUtf8 codePoint := by
  have hbyte : ∀ value, 0 < value → value < 256 → (0 : UInt8) ≠ .ofNat value := by
    intro value hvalue hlt heq
    have hzero := congrArg UInt8.toNat heq
    rw [toNat_byte hlt] at hzero
    simp at hzero
    omega
  unfold encodeUtf8
  split_ifs with h1 h2 h3
  · simpa using hbyte codePoint hpos (by omega)
  · simp only [List.mem_cons, List.not_mem_nil, or_false, not_or]
    exact ⟨hbyte _ (by omega) (by omega), hbyte _ (by omega) (by omega)⟩
  · simp only [List.mem_cons, List.not_mem_nil, or_false, not_or]
    exact ⟨hbyte _ (by omega) (by omega), hbyte _ (by omega) (by omega),
      hbyte _ (by omega) (by omega)⟩
  · simp only [List.mem_cons, List.not_mem_nil, or_false, not_or]
    exact ⟨hbyte _ (by omega) (by omega), hbyte _ (by omega) (by omega),
      hbyte _ (by omega) (by omega), hbyte _ (by omega) (by omega)⟩

theorem length_encodeUtf8_le (codePoint : ℕ) : (encodeUtf8 codePoint).length ≤ 4 := by
  unfold encodeUtf8
  split_ifs <;> simp

/-- A byte below `0x80` stands for itself only. -/
theorem eq_of_mem_encodeUtf8
    {codePoint : ℕ} (hmax : codePoint < 0x110000) {byte : UInt8}
    (hbyte : byte.toNat < 0x80) (hmem : byte ∈ encodeUtf8 codePoint) :
    codePoint = byte.toNat := by
  have hvalue : ∀ value, value < 256 → byte = .ofNat value → byte.toNat = value := by
    rintro value hlt rfl
    exact toNat_byte hlt
  unfold encodeUtf8 at hmem
  split_ifs at hmem with h1 h2 h3
  · exact (hvalue _ (by omega) (List.mem_singleton.mp hmem)).symm
  all_goals
    simp only [List.mem_cons, List.not_mem_nil, or_false] at hmem
    exfalso
  · rcases hmem with h | h <;> have := hvalue _ (by omega) h <;> omega
  · rcases hmem with h | h | h <;> have := hvalue _ (by omega) h <;> omega
  · rcases hmem with h | h | h | h <;> have := hvalue _ (by omega) h <;> omega

theorem zero_notMem_flatMap_encodeUtf8
    {text : List ℕ} (hbounds : ∀ codePoint ∈ text, 0 < codePoint ∧ codePoint < 0x110000) :
    (0 : UInt8) ∉ text.flatMap encodeUtf8 := by
  rw [List.mem_flatMap]
  rintro ⟨codePoint, hmem, hbyte⟩
  obtain ⟨hpos, hmax⟩ := hbounds codePoint hmem
  exact zero_notMem_encodeUtf8 hpos hmax hbyte

/-! ## Decoding UTF-16 -/

/-- A pending high surrogate, if there is one. -/
def utf16Step : Option ℕ → ℕ → List ℕ × Option ℕ
  | none, unit =>
      if isHighSurrogate unit then ([], some unit)
      else if isLowSurrogate unit then ([replacement], none)
      else ([unit], none)
  | some high, unit =>
      if isLowSurrogate unit then
        ([0x10000 + (high - 0xD800) * 0x400 + (unit - 0xDC00)], none)
      else if isHighSurrogate unit then ([replacement], some unit)
      else ([replacement, unit], none)

def utf16Decoder : Transducer (Option ℕ) UInt16 ℕ where
  step := fun state unit => utf16Step state unit.toNat
  flush
    | none => []
    | some _ => [replacement]

def decodeUtf16 (units : List UInt16) : List ℕ := utf16Decoder.run none units

theorem feed_encodeUtf16 {codePoint : ℕ} (hscalar : IsScalar codePoint) :
    utf16Decoder.feed none (encodeUtf16 codePoint) = ([codePoint], none) := by
  unfold encodeUtf16
  by_cases hbasic : codePoint < 0x10000
  · have hunit : utf16Step none codePoint = ([codePoint], none) := by
      have hhigh : isHighSurrogate codePoint = false := by
        rw [← Bool.not_eq_true, isHighSurrogate_iff]
        rcases hscalar with h | ⟨h, _⟩ <;> omega
      have hlow : isLowSurrogate codePoint = false := by
        rw [← Bool.not_eq_true, isLowSurrogate_iff]
        rcases hscalar with h | ⟨h, _⟩ <;> omega
      simp [utf16Step, hhigh, hlow]
    rw [if_pos hbasic]
    simp only [Transducer.feed, utf16Decoder, toNat_unit hbasic, hunit]
    rfl
  · have hmax := hscalar.lt
    have hfirst : utf16Step none (highSurrogate codePoint) =
        ([], some (highSurrogate codePoint)) := by
      have hhigh : isHighSurrogate (highSurrogate codePoint) = true := by
        rw [isHighSurrogate_iff]
        unfold highSurrogate
        omega
      simp [utf16Step, hhigh]
    have hsecond : utf16Step (some (highSurrogate codePoint))
        (lowSurrogate codePoint) = ([codePoint], none) := by
      have hlow : isLowSurrogate (lowSurrogate codePoint) = true := by
        rw [isLowSurrogate_iff]
        unfold lowSurrogate
        omega
      have hvalue : 0x10000 + (highSurrogate codePoint - 0xD800) * 0x400 +
          (lowSurrogate codePoint - 0xDC00) = codePoint := by
        unfold highSurrogate lowSurrogate
        omega
      simp [utf16Step, hlow, hvalue]
    have hhigh : highSurrogate codePoint < 65536 := by
      unfold highSurrogate
      omega
    have hlow : lowSurrogate codePoint < 65536 := by
      unfold lowSurrogate
      omega
    rw [if_neg hbasic]
    simp only [Transducer.feed, utf16Decoder, toNat_unit hhigh, toNat_unit hlow,
      hfirst, hsecond]
    rfl

theorem decodeUtf16_encodeUtf16_append
    {text : List ℕ} (hscalar : ∀ codePoint ∈ text, IsScalar codePoint)
    (rest : List UInt16) :
    decodeUtf16 (text.flatMap encodeUtf16 ++ rest) = text ++ decodeUtf16 rest := by
  have hfeed := utf16Decoder.feed_flatMap encodeUtf16 (fun codePoint => [codePoint])
    fun codePoint hmem => feed_encodeUtf16 (hscalar codePoint hmem)
  unfold decodeUtf16
  rw [utf16Decoder.run_append_of_feed hfeed, List.flatMap_singleton']

theorem feed_utf16Decoder_cons (state : Option ℕ) (unit : UInt16)
    (rest : List UInt16) :
    utf16Decoder.feed state (unit :: rest) =
      ((utf16Step state unit.toNat).1 ++
          (utf16Decoder.feed (utf16Step state unit.toNat).2 rest).1,
        (utf16Decoder.feed (utf16Step state unit.toNat).2 rest).2) := rfl

/-- A zero unit ends whatever is pending. -/
theorem decodeUtf16_append_zero (units rest : List UInt16) :
    decodeUtf16 (units ++ 0 :: rest) =
      decodeUtf16 units ++ 0 :: decodeUtf16 rest := by
  have hzero : ∀ state, utf16Step state 0 =
      (utf16Decoder.flush state ++ [0], none) := by
    intro state
    cases state <;> rfl
  have hunit : (0 : UInt16).toNat = 0 := rfl
  unfold decodeUtf16 Transducer.run
  rw [utf16Decoder.feed_append, feed_utf16Decoder_cons, hunit, hzero]
  simp

/-- Decoded code points are scalar values, and are zero for zero units only. -/
theorem isScalar_of_mem_decodeUtf16
    {units : List UInt16} {codePoint : ℕ} (hmem : codePoint ∈ decodeUtf16 units) :
    IsScalar codePoint ∧ (0 ∉ units → 0 < codePoint) := by
  have hfeed : ∀ units : List UInt16, ∀ state,
      (∀ high ∈ state, isHighSurrogate high = true) →
      ∀ codePoint ∈ utf16Decoder.run state units,
        IsScalar codePoint ∧ (0 ∉ units → 0 < codePoint) := by
    intro units
    induction units with
    | nil =>
        intro state _ codePoint hmem
        cases state with
        | none => simp [Transducer.run, Transducer.feed, utf16Decoder] at hmem
        | some high =>
            have hreplaced : codePoint = replacement := by
              simpa [Transducer.run, Transducer.feed, utf16Decoder] using hmem
            rw [hreplaced]
            exact ⟨.inr (by decide), fun _ => by decide⟩
    | cons unit units ih =>
        intro state hstate codePoint hmem
        have hmax := unit.toNat_lt
        unfold Transducer.run at hmem
        rw [feed_utf16Decoder_cons, List.append_assoc, List.mem_append] at hmem
        have hstep : (∀ c ∈ (utf16Step state unit.toNat).1,
              IsScalar c ∧ (0 < unit.toNat → 0 < c)) ∧
            ∀ high ∈ (utf16Step state unit.toNat).2,
              isHighSurrogate high = true := by
          cases state with
          | none =>
              simp only [utf16Step]
              split_ifs with hhigh hlow
              · simpa using hhigh
              · simp [IsScalar, replacement]
              · rw [isHighSurrogate_iff] at hhigh
                rw [isLowSurrogate_iff] at hlow
                simp [IsScalar]
                omega
          | some pending =>
              have hpending := isHighSurrogate_iff.mp (hstate pending rfl)
              simp only [utf16Step]
              split_ifs with hlow hhigh
              · rw [isLowSurrogate_iff] at hlow
                simp [IsScalar]
                omega
              · simpa [IsScalar, replacement] using hhigh
              · rw [isHighSurrogate_iff] at hhigh
                rw [isLowSurrogate_iff] at hlow
                simp [IsScalar, replacement]
                omega
        have hpos : 0 ∉ unit :: units → 0 < unit.toNat := by
          intro hzero
          rw [Nat.pos_iff_ne_zero]
          intro hnat
          exact hzero (List.mem_cons.mpr (.inl (UInt16.toNat_inj.mp hnat.symm)))
        rcases hmem with hfirst | hrest
        · obtain ⟨hscalar, hnonzero⟩ := hstep.1 codePoint hfirst
          exact ⟨hscalar, fun hzero => hnonzero (hpos hzero)⟩
        · obtain ⟨hscalar, hnonzero⟩ := ih _ hstep.2 codePoint hrest
          exact ⟨hscalar, fun hzero => hnonzero fun h => hzero (List.mem_cons_of_mem _ h)⟩
  exact hfeed units none (by simp) codePoint hmem

theorem bounds_of_mem_decodeUtf16
    {units : List UInt16} (hzero : 0 ∉ units) {codePoint : ℕ}
    (hmem : codePoint ∈ decodeUtf16 units) :
    0 < codePoint ∧ codePoint < 0x110000 := by
  obtain ⟨hscalar, hpos⟩ := isScalar_of_mem_decodeUtf16 hmem
  exact ⟨hpos hzero, hscalar.lt⟩

/-- Each code point takes one unit or two. -/
theorem length_decodeUtf16 (units : List UInt16) :
    (decodeUtf16 units).length ≤ units.length ∧
      units.length ≤ 2 * (decodeUtf16 units).length := by
  have hrun : ∀ units : List UInt16, ∀ state : Option ℕ,
      (utf16Decoder.run state units).length ≤ units.length + state.toList.length ∧
        units.length + state.toList.length ≤
          2 * (utf16Decoder.run state units).length := by
    intro units
    induction units with
    | nil =>
        intro state
        cases state <;> simp [Transducer.run, Transducer.feed, utf16Decoder]
    | cons unit units ih =>
        intro state
        have hrest := ih (utf16Step state unit.toNat).2
        unfold Transducer.run at hrest ⊢
        rw [feed_utf16Decoder_cons]
        simp only [List.length_append, List.length_cons] at hrest ⊢
        revert hrest
        generalize utf16Decoder.feed (utf16Step state unit.toNat).2 units = fed
        -- a pending high surrogate counts as a unit that is still to be read
        cases state with
        | none =>
            simp only [utf16Step]
            split_ifs <;> simp <;> omega
        | some high =>
            simp only [utf16Step]
            split_ifs <;> simp <;> omega
  exact hrun units none

/-- A code point below the surrogates is a unit of its own. -/
theorem exists_unit_of_mem_decodeUtf16
    {units : List UInt16} {codePoint : ℕ} (hlt : codePoint < 0xD800)
    (hmem : codePoint ∈ decodeUtf16 units) : ∃ unit ∈ units, unit.toNat = codePoint := by
  have hrun : ∀ units : List UInt16, ∀ state : Option ℕ,
      codePoint ∈ utf16Decoder.run state units →
      ∃ unit ∈ units, unit.toNat = codePoint := by
    intro units
    induction units with
    | nil =>
        intro state hmem
        cases state with
        | none => simp [Transducer.run, Transducer.feed, utf16Decoder] at hmem
        | some high =>
            simp [Transducer.run, Transducer.feed, utf16Decoder, replacement] at hmem
            omega
    | cons unit units ih =>
        intro state hmem
        unfold Transducer.run at hmem
        rw [feed_utf16Decoder_cons, List.append_assoc, List.mem_append] at hmem
        rcases hmem with hfirst | hrest
        · refine ⟨unit, by simp, ?_⟩
          cases state with
          | none =>
              simp only [utf16Step] at hfirst
              split_ifs at hfirst <;> simp [replacement] at hfirst <;> omega
          | some high =>
              simp only [utf16Step] at hfirst
              split_ifs at hfirst <;> simp [replacement] at hfirst <;> omega
        · obtain ⟨other, hother, heq⟩ := ih _ hrest
          exact ⟨other, List.mem_cons_of_mem _ hother, heq⟩
  exact hrun units none hmem

end UnicodeCoding
