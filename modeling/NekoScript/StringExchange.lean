import NekoScript.DuktapeValues
import NekoScript.HelperConversions
import Mathlib.Tactic

/-!
# Strings exchanged with Win32

`NKWinAPI.toWString` stores a JS string as UTF-16LE in a fixed buffer, and
`NKWinAPI.fromWString` reads such a buffer back.  The engine stores a
supplementary character as two encoded surrogates, which the conversion to
UTF-16 takes for ill-formed UTF-8.
-/

namespace NekoScript

open UnicodeCoding Transducers

def wcharBytes (units : List UInt16) : List UInt8 :=
  units.flatMap fun unit => [.ofNat (unit.toNat % 256), .ofNat (unit.toNat / 256)]

def wchars : List UInt8 → List UInt16
  | low :: high :: rest => .ofNat (low.toNat + 256 * high.toNat) :: wchars rest
  | _ => []

/-- `NKWinAPI::toWString`: the contents of the buffer it pushes. -/
def toWString (arg : DukValue) : Except JSError (List UInt8) := do
  let str ← arg.requireString 0
  let s := utf8ToUtf16 (cString str)
  -- `unsigned int size`
  let size := (s.length + 1) * 2 % 2 ^ 32
  let _ ← pushFixedBuffer size
  return (wcharBytes (s ++ [0])).take size

/-- `NKWinAPI::fromWString`: the string it pushes.  `std::wstring` is given
`size` as a number of `wchar_t`s, so it reads as many bytes again of what is
`beyond` the buffer; these are taken to be readable, and the length of the
converted text to fit an `int`. -/
def fromWString (beyond : ℕ → UInt8) (arg : DukValue) :
    Except JSError DukString := do
  let str ← arg.requireBufferData (-1)
  let size := str.length
  let memory := str ++ (List.range size).map beyond
  return cString (utf16ToUtf8 ((wchars memory).take size))

/-- Neither direction changes the text of `s`. -/
structure ExchangeLossless (text : List Char) (s : HString) : Prop where
  to_wide : utf8ToUtf16 (cString s.bytes) =
    (text.map Char.toNat).flatMap encodeUtf16
  from_wide : ∃ wide, toWString (.string s) = .ok wide ∧
    ∀ (b : HBuffer), b.bytes = wide →
      ∀ beyond, fromWString beyond (.buffer b) = .ok s.bytes

theorem wchars_wcharBytes_append (units : List UInt16) (rest : List UInt8) :
    wchars (wcharBytes units ++ rest) = units ++ wchars rest := by
  induction units with
  | nil => rfl
  | cons unit units ih =>
      have hlt := unit.toNat_lt
      have hunit : UInt16.ofNat ((UInt8.ofNat (unit.toNat % 256)).toNat +
          256 * (UInt8.ofNat (unit.toNat / 256)).toNat) = unit := by
        have hvalue : unit.toNat % 256 + 256 * (unit.toNat / 256) =
            unit.toNat := by omega
        rw [toNat_byte (by omega), toNat_byte (by omega), hvalue]
        exact UInt16.ofNat_toNat
      unfold wcharBytes at ih ⊢
      rw [List.flatMap_cons, List.append_assoc]
      simp only [List.cons_append, List.nil_append, wchars]
      rw [ih, hunit]

theorem length_wcharBytes (units : List UInt16) :
    (wcharBytes units).length = units.length * 2 := by
  induction units with
  | nil => rfl
  | cons unit units ih =>
      unfold wcharBytes at ih ⊢
      simp only [List.flatMap_cons, List.length_append, ih, List.length_cons,
        List.length_nil]
      omega

/-- A text whose terminated units fit a buffer is stored as a whole. -/
theorem toWString_eq
    {s : HString} {units : List UInt16} (hunits : utf8ToUtf16 (cString s.bytes) = units) :
    toWString (.string s) =
      (pushFixedBuffer ((units.length + 1) * 2 % 2 ^ 32)).bind fun _ =>
        .ok ((wcharBytes (units ++ [0])).take ((units.length + 1) * 2 % 2 ^ 32)) := by
  subst hunits
  simp only [toWString, DukValue.requireString, bind, pure, Except.bind, Except.pure]

theorem toWString_string
    {s : HString} {units : List UInt16} (hunits : utf8ToUtf16 (cString s.bytes) = units)
    (hfits : (units.length + 1) * 2 ≤ hbufferMaxBytelen) :
    toWString (.string s) = .ok (wcharBytes (units ++ [0])) := by
  have hsize : (units.length + 1) * 2 % 2 ^ 32 = (units.length + 1) * 2 := by
    unfold hbufferMaxBytelen at hfits
    omega
  have hbuffer : pushFixedBuffer ((units.length + 1) * 2) =
      .ok (List.replicate ((units.length + 1) * 2) 0) :=
    if_neg (by omega)
  have htake : (wcharBytes (units ++ [0])).take ((units.length + 1) * 2) =
      wcharBytes (units ++ [0]) := by
    apply List.take_of_length_le
    rw [length_wcharBytes, List.length_append]
    simp
  rw [toWString_eq hunits, hsize, hbuffer, htake]
  rfl

/-- The size is computed modulo 2^32, so that 2^31 - 1 units are stored as no
bytes at all. -/
theorem toWString_ok
    {s : HString} {units : List UInt16} (hunits : utf8ToUtf16 (cString s.bytes) = units)
    {wide : List UInt8} (hwide : toWString (.string s) = .ok wide) :
    (units.length + 1) * 2 % 2 ^ 32 ≤ hbufferMaxBytelen ∧
      ((units.length + 1) * 2 % 2 ^ 32 = 0 → wide = []) := by
  rw [toWString_eq hunits] at hwide
  unfold pushFixedBuffer at hwide
  by_cases hlong : (units.length + 1) * 2 % 2 ^ 32 > hbufferMaxBytelen
  · rw [if_pos hlong] at hwide
    contradiction
  · rw [if_neg hlong] at hwide
    have htake := (Except.ok.inj hwide).symm
    refine ⟨by omega, ?_⟩
    intro hzero
    rw [htake, hzero, List.take_zero]

/-- A terminated UTF-16 text without U+0000 is read back as its UTF-8, whatever
lies beyond the buffer. -/
theorem fromWString_terminated
    {text : List ℕ} (hscalar : ∀ codePoint ∈ text, IsScalar codePoint)
    (hzero : 0 ∉ text) {b : HBuffer}
    (hbytes : b.bytes = wcharBytes (text.flatMap encodeUtf16 ++ [0]))
    (beyond : ℕ → UInt8) :
    fromWString beyond (.buffer b) = .ok (text.flatMap encodeUtf8) := by
  set units := text.flatMap encodeUtf16 with hunits
  have hsize : b.bytes.length = (units.length + 1) * 2 := by
    rw [hbytes, length_wcharBytes]
    simp
  have hmemory :
      (wchars (b.bytes ++ (List.range b.bytes.length).map beyond)).take
          b.bytes.length =
        (text ++ [0]).flatMap encodeUtf16 ++
          (wchars ((List.range b.bytes.length).map beyond)).take
            (units.length + 1) := by
    have htext : (text ++ [0]).flatMap encodeUtf16 = units ++ [0] := by
      rw [List.flatMap_append, ← hunits]
      rfl
    have hcount : b.bytes.length = (units ++ [0]).length + (units.length + 1) := by
      rw [hsize, List.length_append]
      simp
      omega
    rw [htext]
    conv_lhs => rw [hbytes]
    rw [wchars_wcharBytes_append, ← hbytes, hcount, List.take_length_add_append]
  have hterminated : ∀ codePoint ∈ text ++ [0], IsScalar codePoint := by
    intro codePoint hmem
    rw [List.mem_append, List.mem_singleton] at hmem
    rcases hmem with hmem | rfl
    · exact hscalar codePoint hmem
    · exact .inl (by decide)
  have hnotMem : (0 : UInt8) ∉ text.flatMap encodeUtf8 := by
    apply zero_notMem_flatMap_encodeUtf8
    intro codePoint hmem
    have hpos : 0 < codePoint := by
      rw [Nat.pos_iff_ne_zero]
      intro heq
      exact hzero (heq ▸ hmem)
    exact ⟨hpos, (hscalar codePoint hmem).lt⟩
  have hread : fromWString beyond (.buffer b) =
      .ok (cString (utf16ToUtf8
        ((wchars (b.bytes ++ (List.range b.bytes.length).map beyond)).take
          b.bytes.length))) := rfl
  rw [hread, hmemory, utf16ToUtf8_encodeUtf16_append hterminated,
    List.flatMap_append, List.append_assoc]
  have hcut := cString_append_zero hnotMem
    (utf16ToUtf8 ((wchars ((List.range b.bytes.length).map beyond)).take
      (units.length + 1)))
  have hzeroByte : [0].flatMap encodeUtf8 = [0] := by decide
  rw [hzeroByte]
  exact congrArg Except.ok hcut

theorem scalar_of_mem_codePoints
    {text : List Char} {codePoint : ℕ} (hmem : codePoint ∈ text.map Char.toNat) :
    IsScalar codePoint := by
  rw [List.mem_map] at hmem
  rcases hmem with ⟨c, _, rfl⟩
  exact isScalar_toNat c

theorem zero_notMem_codePoints
    {text : List Char} (hzero : '\x00' ∉ text) : 0 ∉ text.map Char.toNat := by
  rw [List.mem_map]
  rintro ⟨c, hmem, hnat⟩
  have hc : c = '\x00' := Char.ext (UInt32.toNat_inj.mp hnat)
  exact hzero (hc ▸ hmem)

theorem utf8ToUtf16_of_basic
    {text : List Char} (hbasic : ∀ c ∈ text, c.toNat < 0x10000) :
    utf8ToUtf16 (lexerString text) =
      (text.map Char.toNat).flatMap encodeUtf16 := by
  have hscalar : ∀ codePoint ∈ text.map Char.toNat, IsScalar codePoint :=
    fun _ => scalar_of_mem_codePoints
  have happend := utf8ToUtf16_encodeUtf8_append hscalar []
  rw [List.append_nil] at happend
  rw [lexerString_of_basic hbasic, happend]
  simp [utf8ToUtf16, convertBySize_eq, multiByteToWideCharUtf8, decodeUtf8,
    Transducer.run, Transducer.feed, utf8Decoder]

/-- The first supplementary character spoils the conversion. -/
theorem basic_of_utf8ToUtf16
    {text : List Char}
    (hwide : utf8ToUtf16 (lexerString text) =
      (text.map Char.toNat).flatMap encodeUtf16) :
    ∀ c ∈ text, c.toNat < 0x10000 := by
  induction text with
  | nil => simp
  | cons first text ih =>
      have hstring : lexerString (first :: text) =
          encodeCesu8 first.toNat ++ lexerString text := by
        rw [lexerString_eq, lexerString_eq, List.flatMap_cons]
      rw [hstring, List.map_cons, List.flatMap_cons] at hwide
      by_cases hbasic : first.toNat < 0x10000
      · have hutf8 : encodeCesu8 first.toNat = [first.toNat].flatMap encodeUtf8 := by
          simp [encodeCesu8, hbasic]
        have hscalar : ∀ codePoint ∈ [first.toNat], IsScalar codePoint := by
          intro codePoint hmem
          rw [List.mem_singleton.mp hmem]
          exact isScalar_toNat first
        rw [hutf8, utf8ToUtf16_encodeUtf8_append hscalar] at hwide
        have hrest : utf8ToUtf16 (lexerString text) =
            (text.map Char.toNat).flatMap encodeUtf16 := by
          simpa using hwide
        intro c hmem
        rw [List.mem_cons] at hmem
        rcases hmem with rfl | hmem
        · exact hbasic
        · exact ih hrest c hmem
      · have hmax := toNat_lt first
        have hcesu8 : encodeCesu8 first.toNat =
            encodeUtf8 (highSurrogate first.toNat) ++
              encodeUtf8 (lowSurrogate first.toNat) := if_neg hbasic
        have hutf16 : encodeUtf16 first.toNat =
            [.ofNat (highSurrogate first.toNat),
              .ofNat (lowSurrogate first.toNat)] := if_neg hbasic
        have hrange : 0xD800 ≤ highSurrogate first.toNat ∧
            highSurrogate first.toNat ≤ 0xDBFF := by
          unfold highSurrogate
          omega
        obtain ⟨others, hreplaced⟩ := utf8ToUtf16_surrogate_append hrange.1
          (by omega) (encodeUtf8 (lowSurrogate first.toNat) ++ lexerString text)
        rw [hcesu8, List.append_assoc, hreplaced, hutf16] at hwide
        have hhead : (0xFFFD : UInt16) = .ofNat (highSurrogate first.toNat) :=
          (List.cons.inj hwide).1
        have hnat := congrArg UInt16.toNat hhead
        rw [toNat_unit (by omega)] at hnat
        have hvalue : (0xFFFD : UInt16).toNat = 0xFFFD := rfl
        omega

theorem length_flatMap_encodeUtf16
    {text : List Char} (hbasic : ∀ c ∈ text, c.toNat < 0x10000) :
    ((text.map Char.toNat).flatMap encodeUtf16).length = text.length := by
  induction text with
  | nil => rfl
  | cons c text ih =>
      have hunit : (encodeUtf16 c.toNat).length = 1 := by
        simp [encodeUtf16, hbasic c List.mem_cons_self]
      have hrest := ih fun other hmem => hbasic other (List.mem_cons_of_mem _ hmem)
      rw [List.map_cons, List.flatMap_cons, List.length_append, hunit, hrest,
        List.length_cons]
      omega

/-- A text whose length leaves no room for the terminator is lost, or refused. -/
theorem fits_of_exchangeLossless
    {text : List Char} {s : HString} (hstored : s.bytes = lexerString text)
    (hlossless : ExchangeLossless text s) (hbasic : ∀ c ∈ text, c.toNat < 0x10000) :
    (text.length + 1) * 2 ≤ hbufferMaxBytelen := by
  obtain ⟨wide, hto, hfrom⟩ := hlossless.from_wide
  have hlength := length_flatMap_encodeUtf16 hbasic
  have hbytes : text.length ≤ s.bytes.length := by
    rw [hstored]
    exact length_le_length_lexerString text
  have hmax := s.length_le
  unfold hstringMaxBytelen at hmax
  obtain ⟨hsize, hempty⟩ := toWString_ok hlossless.to_wide hto
  rw [hlength] at hsize hempty
  by_cases hwraps : (text.length + 1) * 2 < 2 ^ 32
  · rwa [Nat.mod_eq_of_lt hwraps] at hsize
  · have hzero : (text.length + 1) * 2 % 2 ^ 32 = 0 := by omega
    let b : HBuffer := ⟨[], 16, by simp, by simp⟩
    have hread : fromWString (fun _ => 0) (.buffer b) = .ok [] := by decide
    have hsame := hfrom b (hempty hzero).symm fun _ => 0
    rw [hread] at hsame
    have hnil : s.bytes.length = 0 := by rw [← Except.ok.inj hsame, List.length_nil]
    omega

/-- The exchange loses nothing exactly when the text has no supplementary
character and fits a buffer as terminated UTF-16. -/
theorem exchangeLossless_iff
    {text : List Char} (hzero : '\x00' ∉ text)
    {s : HString} (hstored : s.bytes = lexerString text) :
    ExchangeLossless text s ↔
      (∀ c ∈ text, c.toNat < 0x10000) ∧
        (text.length + 1) * 2 ≤ hbufferMaxBytelen := by
  have hcString : cString s.bytes = lexerString text := by
    rw [hstored]
    exact cString_eq_self (zero_notMem_lexerString hzero)
  constructor
  · intro hlossless
    have hbasic : ∀ c ∈ text, c.toNat < 0x10000 := by
      apply basic_of_utf8ToUtf16
      rw [← hcString]
      exact hlossless.to_wide
    exact ⟨hbasic, fits_of_exchangeLossless hstored hlossless hbasic⟩
  · rintro ⟨hbasic, hfits⟩
    have hwide : utf8ToUtf16 (cString s.bytes) =
        (text.map Char.toNat).flatMap encodeUtf16 := by
      rw [hcString]
      exact utf8ToUtf16_of_basic hbasic
    rw [← length_flatMap_encodeUtf16 hbasic] at hfits
    refine ⟨hwide, _, toWString_string hwide hfits, ?_⟩
    intro b hcontents beyond
    rw [fromWString_terminated (fun _ => scalar_of_mem_codePoints)
      (zero_notMem_codePoints hzero) hcontents, hstored,
      lexerString_of_basic hbasic]

theorem exchangeLossless_euro :
    ExchangeLossless ['€'] ⟨lexerString ['€'], 16, by decide, by decide⟩ ↔
      (∀ c ∈ ['€'], c.toNat < 0x10000) ∧ (['€'].length + 1) * 2 ≤ hbufferMaxBytelen :=
  exchangeLossless_iff (by decide) rfl

theorem not_exchangeLossless_of_supplementary :
    let text := [Char.ofNat 0x1F600]
    let s : HString := ⟨lexerString text, 16, by decide, by decide⟩
    '\x00' ∉ text ∧ utf8ToUtf16 (cString s.bytes) = List.replicate 6 0xFFFD ∧
      ¬ ExchangeLossless text s := by
  intro text s
  have hwide : utf8ToUtf16 (cString s.bytes) = List.replicate 6 0xFFFD := by
    decide
  refine ⟨by decide, hwide, ?_⟩
  · intro hlossless
    have hto := hlossless.to_wide
    rw [hwide] at hto
    revert hto
    decide

end NekoScript
