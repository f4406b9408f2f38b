import NekoScript.DuktapeStrings
import Mathlib.Tactic

/-!
# The string conversions of `Helper.cpp`

Each helper asks Windows for the length of the result, and converts only if
that length is positive.  Conversion with `CP_UTF8` and no flags is standard
and replaces what is ill-formed.
-/

namespace NekoScript

open UnicodeCoding Transducers

def multiByteToWideCharUtf8 (bytes : List UInt8) : List UInt16 :=
  (decodeUtf8 bytes).flatMap encodeUtf16

def wideCharToMultiByteUtf8 (units : List UInt16) : List UInt8 :=
  (decodeUtf16 units).flatMap encodeUtf8

/-- One call for the length of the result and, if that is positive, a second
one to fill a string of this length. -/
def convertBySize {Source Target : Type} (api : List Source → List Target)
    (s : List Source) : List Target :=
  let len := (api s).length
  if 0 < len then (api s).take len else []

def utf8ToUtf16 : List UInt8 → List UInt16 :=
  convertBySize multiByteToWideCharUtf8

def utf16ToUtf8 : List UInt16 → List UInt8 :=
  convertBySize wideCharToMultiByteUtf8

theorem convertBySize_eq
    {Source Target : Type} (api : List Source → List Target) (s : List Source) :
    convertBySize api s = api s := by
  unfold convertBySize
  by_cases hlen : 0 < (api s).length
  · simp [hlen]
  · have hnil : api s = [] := by
      apply List.eq_nil_of_length_eq_zero
      omega
    simp [hnil]

theorem utf8ToUtf16_encodeUtf8_append
    {text : List ℕ} (hscalar : ∀ codePoint ∈ text, IsScalar codePoint)
    (rest : List UInt8) :
    utf8ToUtf16 (text.flatMap encodeUtf8 ++ rest) =
      text.flatMap encodeUtf16 ++ utf8ToUtf16 rest := by
  unfold utf8ToUtf16
  rw [convertBySize_eq, convertBySize_eq]
  unfold multiByteToWideCharUtf8
  rw [decodeUtf8_encodeUtf8_append hscalar, List.flatMap_append]

theorem utf16ToUtf8_encodeUtf16_append
    {text : List ℕ} (hscalar : ∀ codePoint ∈ text, IsScalar codePoint)
    (rest : List UInt16) :
    utf16ToUtf8 (text.flatMap encodeUtf16 ++ rest) =
      text.flatMap encodeUtf8 ++ utf16ToUtf8 rest := by
  unfold utf16ToUtf8
  rw [convertBySize_eq, convertBySize_eq]
  unfold wideCharToMultiByteUtf8
  rw [decodeUtf16_encodeUtf16_append hscalar, List.flatMap_append]

/-- The bytes of a lone surrogate are converted to U+FFFD. -/
theorem utf8ToUtf16_surrogate_append
    {unit : ℕ} (hlow : 0xD800 ≤ unit) (hhigh : unit ≤ 0xDFFF)
    (rest : List UInt8) :
    ∃ others, utf8ToUtf16 (encodeUtf8 unit ++ rest) = 0xFFFD :: others := by
  obtain ⟨others, hdecode⟩ := decodeUtf8_surrogate_append hlow hhigh rest
  unfold utf8ToUtf16
  rw [convertBySize_eq]
  unfold multiByteToWideCharUtf8
  rw [hdecode, List.flatMap_cons]
  exact ⟨_, rfl⟩

/-! ## JS strings -/

/-- A JS string as the engine stores it, each unit on its own: a supplementary
character is two encoded surrogates. -/
def storedUnits (units : List UInt16) : DukString :=
  units.flatMap fun unit => encodeUtf8 unit.toNat

/-- What the helpers make of a JS string. -/
def nativeText (units : List UInt16) : List UInt16 :=
  utf8ToUtf16 (cString (storedUnits units))

theorem storedUnits_cons (unit : UInt16) (units : List UInt16) :
    storedUnits (unit :: units) = encodeUtf8 unit.toNat ++ storedUnits units :=
  List.flatMap_cons

theorem cString_stored_cons
    {unit : UInt16} (hunit : unit ≠ 0) (units : List UInt16) :
    cString (storedUnits (unit :: units)) =
      encodeUtf8 unit.toNat ++ cString (storedUnits units) := by
  have hpos : 0 < unit.toNat := by
    rw [Nat.pos_iff_ne_zero]
    intro hzero
    exact hunit (UInt16.toNat_inj.mp hzero)
  have hlt := unit.toNat_lt
  rw [storedUnits_cons]
  unfold cString
  rw [List.takeWhile_append_of_pos]
  intro byte hmem
  have hne : byte ≠ 0 := by
    rintro rfl
    exact zero_notMem_encodeUtf8 hpos (by omega) hmem
  simpa using hne

theorem encodeUtf16_toNat (unit : UInt16) : encodeUtf16 unit.toNat = [unit] := by
  have hlt := unit.toNat_lt
  unfold encodeUtf16
  rw [if_pos (by omega), UInt16.ofNat_toNat]

theorem nativeText_cons
    {unit : UInt16} (hunit : unit ≠ 0) (hscalar : IsScalar unit.toNat)
    (units : List UInt16) :
    nativeText (unit :: units) = unit :: nativeText units := by
  have hscalars : ∀ codePoint ∈ [unit.toNat], IsScalar codePoint := by
    intro codePoint hmem
    rw [List.mem_singleton.mp hmem]
    exact hscalar
  have happend := utf8ToUtf16_encodeUtf8_append hscalars (cString (storedUnits units))
  unfold nativeText
  rw [cString_stored_cons hunit]
  simpa [encodeUtf16_toNat] using happend

/-- A JS string becomes a native text exactly when it has neither a zero nor a
surrogate among its units. -/
theorem nativeText_eq_iff (units : List UInt16) :
    nativeText units = units ↔
      ∀ unit ∈ units, unit ≠ 0 ∧ IsScalar unit.toNat := by
  induction units with
  | nil =>
      have hempty : nativeText [] = [] := by decide
      simp [hempty]
  | cons unit units ih =>
      rw [List.forall_mem_cons]
      by_cases hunit : unit = 0
      · have hempty : nativeText (unit :: units) = [] := by
          have hcut : cString (storedUnits (unit :: units)) = [] := by
            rw [hunit, storedUnits_cons]
            rfl
          unfold nativeText
          rw [hcut]
          decide
        rw [hempty]
        simp [hunit]
      · by_cases hscalar : IsScalar unit.toNat
        · rw [nativeText_cons hunit hscalar, List.cons.injEq, ih]
          simp [hunit, hscalar]
        · have hsurrogate : 0xD800 ≤ unit.toNat ∧ unit.toNat ≤ 0xDFFF := by
            have hlt := unit.toNat_lt
            unfold IsScalar at hscalar
            omega
          obtain ⟨others, hreplaced⟩ := utf8ToUtf16_surrogate_append hsurrogate.1
            hsurrogate.2 (cString (storedUnits units))
          have hne : nativeText (unit :: units) ≠ unit :: units := by
            intro heq
            unfold nativeText at heq
            rw [cString_stored_cons hunit, hreplaced] at heq
            have hhead : (0xFFFD : UInt16) = unit := (List.cons.inj heq).1
            rw [← hhead] at hsurrogate
            exact absurd hsurrogate.2 (by decide)
          simp [hne, hscalar]

/-! ## The other direction -/

/-- Well-formed UTF-8 holds the units of a JS string only if none of them is a
surrogate. -/
theorem isScalar_of_encodeUtf8_eq_storedUnits
    {text : List ℕ} (hscalar : ∀ codePoint ∈ text, IsScalar codePoint)
    {units : List UInt16} (hstored : text.flatMap encodeUtf8 = storedUnits units) :
    ∀ unit ∈ units, IsScalar unit.toNat := by
  induction units generalizing text with
  | nil => simp
  | cons unit units ih =>
      rw [storedUnits_cons] at hstored
      have hdecoded : text = decodeUtf8 (encodeUtf8 unit.toNat ++ storedUnits units) := by
        have happend := decodeUtf8_encodeUtf8_append hscalar []
        rw [List.append_nil, hstored] at happend
        rw [happend]
        simp [decodeUtf8, Transducer.run, Transducer.feed, utf8Decoder]
      by_cases hunit : IsScalar unit.toNat
      · have hsingle : ∀ codePoint ∈ [unit.toNat], IsScalar codePoint := by simpa
        have hfirst := decodeUtf8_encodeUtf8_append hsingle (storedUnits units)
        rw [List.flatMap_singleton, ← hdecoded] at hfirst
        subst hfirst
        rw [List.singleton_append, List.flatMap_cons, List.append_cancel_left_eq] at hstored
        rw [List.forall_mem_cons]
        refine ⟨hunit, ih ?_ hstored⟩
        exact fun codePoint hmem => hscalar codePoint (List.mem_cons_of_mem _ hmem)
      · have hlt := unit.toNat_lt
        have hsurrogate : 0xD800 ≤ unit.toNat ∧ unit.toNat ≤ 0xDFFF := by
          unfold IsScalar at hunit
          omega
        obtain ⟨others, hreplaced⟩ := decodeUtf8_surrogate_append hsurrogate.1
          hsurrogate.2 (storedUnits units)
        rw [hdecoded, hreplaced, List.flatMap_cons] at hstored
        have hlead : 0xE0 + unit.toNat / 4096 = 0xED := by omega
        have hright : (encodeUtf8 unit.toNat).head? = some 0xED := by
          unfold encodeUtf8
          rw [if_neg (by omega), if_neg (by omega), if_pos (by omega), hlead]
          rfl
        have hleft : (encodeUtf8 replacement).head? = some 0xEF := by decide
        have hhead := congrArg List.head? hstored
        rw [List.head?_append, List.head?_append, hleft, hright] at hhead
        simp at hhead

theorem utf8ToUtf16_storedUnits
    {units : List UInt16} (hscalar : ∀ unit ∈ units, IsScalar unit.toNat) :
    utf8ToUtf16 (storedUnits units) = units := by
  have hscalars : ∀ codePoint ∈ units.map UInt16.toNat, IsScalar codePoint := by
    simpa using hscalar
  have happend := utf8ToUtf16_encodeUtf8_append hscalars []
  have hempty : utf8ToUtf16 [] = [] := by decide
  rw [List.append_nil, List.flatMap_map, List.flatMap_map, hempty, List.append_nil]
    at happend
  unfold storedUnits
  rw [happend]
  simp [encodeUtf16_toNat]

theorem storedUnits_inj
    {units others : List UInt16} (hunits : ∀ unit ∈ units, IsScalar unit.toNat)
    (hothers : ∀ unit ∈ others, IsScalar unit.toNat) :
    storedUnits units = storedUnits others ↔ units = others := by
  constructor
  · intro hsame
    rw [← utf8ToUtf16_storedUnits hunits, hsame, utf8ToUtf16_storedUnits hothers]
  · exact congrArg storedUnits

theorem isScalar_of_utf16ToUtf8_eq
    {units stored : List UInt16} (hstored : utf16ToUtf8 units = storedUnits stored) :
    ∀ unit ∈ stored, IsScalar unit.toNat := by
  unfold utf16ToUtf8 at hstored
  rw [convertBySize_eq] at hstored
  exact isScalar_of_encodeUtf8_eq_storedUnits
    (fun _ hmem => (isScalar_of_mem_decodeUtf16 hmem).1) hstored

/-- A native text becomes the JS string of its units exactly when it has no
surrogate among them. -/
theorem utf16ToUtf8_eq_storedUnits_iff (units : List UInt16) :
    utf16ToUtf8 units = storedUnits units ↔ ∀ unit ∈ units, IsScalar unit.toNat := by
  refine ⟨isScalar_of_utf16ToUtf8_eq, ?_⟩
  intro hscalar
  have hscalars : ∀ codePoint ∈ units.map UInt16.toNat, IsScalar codePoint := by
    simpa using hscalar
  have hunits : (units.map UInt16.toNat).flatMap encodeUtf16 = units := by
    rw [List.flatMap_map]
    simp [encodeUtf16_toNat]
  have happend := utf16ToUtf8_encodeUtf16_append hscalars []
  rw [hunits, List.append_nil, List.flatMap_map] at happend
  have hempty : utf16ToUtf8 [] = [] := by decide
  rw [happend, hempty, List.append_nil]
  rfl

theorem zero_notMem_utf16ToUtf8
    {units : List UInt16} (hzero : 0 ∉ units) : 0 ∉ utf16ToUtf8 units := by
  unfold utf16ToUtf8
  rw [convertBySize_eq]
  exact zero_notMem_flatMap_encodeUtf8 fun _ => bounds_of_mem_decodeUtf16 hzero

theorem length_utf16ToUtf8_le (units : List UInt16) :
    (utf16ToUtf8 units).length ≤ 4 * units.length := by
  have hpoints := (length_decodeUtf16 units).1
  have hbytes : ∀ text : List ℕ, (text.flatMap encodeUtf8).length ≤ 4 * text.length := by
    intro text
    induction text with
    | nil => simp
    | cons codePoint text ih =>
        have hfirst := length_encodeUtf8_le codePoint
        simp only [List.flatMap_cons, List.length_append, List.length_cons]
        omega
  unfold utf16ToUtf8
  rw [convertBySize_eq]
  exact (hbytes _).trans (by omega)

theorem utf16ToUtf8_eq_nil_iff {units : List UInt16} : utf16ToUtf8 units = [] ↔ units = [] := by
  have hpoints := (length_decodeUtf16 units).2
  constructor
  · intro hnil
    unfold utf16ToUtf8 at hnil
    rw [convertBySize_eq, wideCharToMultiByteUtf8, List.flatMap_eq_nil_iff] at hnil
    have hempty : decodeUtf16 units = [] := by
      rw [List.eq_nil_iff_forall_not_mem]
      intro codePoint hmem
      have hbytes := hnil codePoint hmem
      unfold encodeUtf8 at hbytes
      split_ifs at hbytes
    rw [hempty] at hpoints
    exact List.eq_nil_of_length_eq_zero (by simpa using hpoints)
  · rintro rfl
    decide

/-- What is delivered of a basic character stood in the native text. -/
theorem mem_of_utf16ToUtf8_eq
    {units stored : List UInt16} (hstored : utf16ToUtf8 units = storedUnits stored)
    {unit : UInt16} (hlt : unit.toNat < 0x80) (hmem : unit ∈ stored) : unit ∈ units := by
  have hvalue : (UInt8.ofNat unit.toNat).toNat = unit.toNat := toNat_byte (by omega)
  have hbyte : UInt8.ofNat unit.toNat ∈ storedUnits stored := by
    refine List.mem_flatMap.mpr ⟨unit, hmem, ?_⟩
    unfold encodeUtf8
    rw [if_pos hlt]
    exact List.mem_singleton_self _
  rw [← hstored] at hbyte
  unfold utf16ToUtf8 at hbyte
  rw [convertBySize_eq] at hbyte
  obtain ⟨codePoint, hdecoded, hencoded⟩ := List.mem_flatMap.mp hbyte
  have hmax := (isScalar_of_mem_decodeUtf16 hdecoded).1.lt
  have hpoint := eq_of_mem_encodeUtf8 hmax (by omega) hencoded
  obtain ⟨other, hother, heq⟩ := exists_unit_of_mem_decodeUtf16 (by omega) hdecoded
  have hsame : other = unit := by
    apply UInt16.toNat_inj.mp
    omega
  rwa [← hsame]

/-- The units encode scalar values. -/
def WellFormedUtf16 (units : List UInt16) : Prop :=
  ∃ text : List ℕ, (∀ codePoint ∈ text, IsScalar codePoint) ∧
    units = text.flatMap encodeUtf16

theorem wellFormed_utf8ToUtf16 (bytes : List UInt8) : WellFormedUtf16 (utf8ToUtf16 bytes) :=
  ⟨decodeUtf8 bytes, fun _ hmem => (isScalar_of_mem_decodeUtf8 hmem).1,
    convertBySize_eq multiByteToWideCharUtf8 bytes⟩

/-- A native text comes back from UTF-8 exactly when it is well-formed. -/
theorem utf8ToUtf16_utf16ToUtf8_iff {units : List UInt16} (hzero : 0 ∉ units) :
    utf8ToUtf16 (cString (utf16ToUtf8 units)) = units ↔ WellFormedUtf16 units := by
  constructor
  · intro hback
    rw [← hback]
    exact wellFormed_utf8ToUtf16 _
  · rintro ⟨text, hscalar, rfl⟩
    have hencode := utf16ToUtf8_encodeUtf16_append hscalar []
    have hdecode := utf8ToUtf16_encodeUtf8_append hscalar []
    have hempty : utf16ToUtf8 [] = [] ∧ utf8ToUtf16 [] = [] := by decide
    rw [List.append_nil, hempty.1, List.append_nil] at hencode
    rw [List.append_nil, hempty.2, List.append_nil] at hdecode
    have hbytes := zero_notMem_utf16ToUtf8 hzero
    rw [cString_eq_self hbytes, hencode, hdecode]

end NekoScript
