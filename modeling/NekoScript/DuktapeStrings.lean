import NekoScript.UnicodeCoding
import Mathlib.Data.List.TakeWhile
import Mathlib.Tactic

/-!
# Strings as the engine stores them

A Duktape string is a sequence of bytes.  Text written by the lexer is CESU-8;
strings pushed by native code hold whatever bytes they were pushed with.
-/

namespace NekoScript

open UnicodeCoding

/-- The internal bytes of a JS string. -/
abbrev DukString := List UInt8

def cString (bytes : List UInt8) : List UInt8 :=
  bytes.takeWhile (· ≠ 0)

def dukUnicodeEncodeCesu8 (cp : ℕ) : List UInt8 :=
  if cp < 0x80 then [.ofNat cp]
  else if cp < 0x800 then
    [.ofNat (0xc0 + ((cp >>> 6) &&& 0x1f)), .ofNat (0x80 + (cp &&& 0x3f))]
  else if cp < 0x10000 then
    [.ofNat (0xe0 + ((cp >>> 12) &&& 0x0f)),
      .ofNat (0x80 + ((cp >>> 6) &&& 0x3f)), .ofNat (0x80 + (cp &&& 0x3f))]
  else
    let x := cp - 0x10000
    [.ofNat 0xed, .ofNat (0xa0 + ((x >>> 16) &&& 0x0f)),
      .ofNat (0x80 + ((x >>> 10) &&& 0x3f)),
      .ofNat 0xed, .ofNat (0xb0 + ((x >>> 6) &&& 0x0f)),
      .ofNat (0x80 + (x &&& 0x3f))]

/-- The string that `duk__appendbuffer` builds from source text. -/
def lexerString (text : List Char) : DukString :=
  text.flatMap fun c => dukUnicodeEncodeCesu8 c.toNat

/-- `duk_unicode_unvalidated_utf8_length`: all bytes but the continuation
bytes are counted. -/
def unvalidatedUtf8Length (bytes : List UInt8) : ℕ :=
  bytes.length - bytes.countP fun x => 0x80 ≤ x && x ≤ 0xbf

theorem isScalar_toNat (c : Char) : IsScalar c.toNat := by
  have hvalid := c.valid
  rcases hvalid with hlow | ⟨hlow, hhigh⟩
  · exact .inl hlow
  · exact .inr ⟨by
      have : 0xDFFF < c.toNat := hlow
      omega, hhigh⟩

theorem toNat_lt (c : Char) : c.toNat < 0x110000 := by
  rcases isScalar_toNat c with h | ⟨_, h⟩ <;> omega

theorem dukUnicodeEncodeCesu8_eq {cp : ℕ} (hcp : cp < 0x110000) :
    dukUnicodeEncodeCesu8 cp = encodeCesu8 cp := by
  have hand4 : ∀ x, x &&& 0x0f = x % 16 := fun x => Nat.and_two_pow_sub_one_eq_mod x 4
  have hand5 : ∀ x, x &&& 0x1f = x % 32 := fun x => Nat.and_two_pow_sub_one_eq_mod x 5
  have hand6 : ∀ x, x &&& 0x3f = x % 64 := fun x => Nat.and_two_pow_sub_one_eq_mod x 6
  simp only [dukUnicodeEncodeCesu8, Nat.shiftRight_eq_div_pow, hand4, hand5, hand6]
  by_cases hbasic : cp < 0x10000
  · have hright : encodeCesu8 cp = encodeUtf8 cp := if_pos hbasic
    rw [hright]
    unfold encodeUtf8
    by_cases h1 : cp < 0x80
    · rw [if_pos h1, if_pos h1]
    · by_cases h2 : cp < 0x800
      · have hlead : cp / 2 ^ 6 % 32 = cp / 64 := by omega
        rw [if_neg h1, if_pos h2, if_neg h1, if_pos h2, hlead]
      · have hlead : cp / 2 ^ 12 % 16 = cp / 4096 := by omega
        rw [if_neg h1, if_neg h2, if_pos hbasic, if_neg h1, if_neg h2,
          if_pos hbasic, hlead]
  · have h1 : ¬ cp < 0x80 := by omega
    have h2 : ¬ cp < 0x800 := by omega
    have hhigh : 0xD800 ≤ highSurrogate cp ∧ highSurrogate cp ≤ 0xDBFF := by
      unfold highSurrogate
      omega
    have hlow : 0xDC00 ≤ lowSurrogate cp ∧ lowSurrogate cp ≤ 0xDFFF := by
      unfold lowSurrogate
      omega
    have hthree : ∀ unit, 0xD800 ≤ unit → unit ≤ 0xDFFF →
        encodeUtf8 unit = [.ofNat 0xED, .ofNat (0x80 + unit / 64 % 64),
          .ofNat (0x80 + unit % 64)] := by
      intro unit hge hle
      have hlead : 0xE0 + unit / 4096 = 0xED := by omega
      unfold encodeUtf8
      rw [if_neg (by omega), if_neg (by omega), if_pos (by omega), hlead]
    have hright : encodeCesu8 cp =
        encodeUtf8 (highSurrogate cp) ++ encodeUtf8 (lowSurrogate cp) :=
      if_neg hbasic
    rw [if_neg h1, if_neg h2, if_neg hbasic, hright,
      hthree _ hhigh.1 (by omega), hthree _ (by omega) hlow.2]
    have hb1 : 0xa0 + (cp - 0x10000) / 2 ^ 16 % 16 =
        0x80 + highSurrogate cp / 64 % 64 := by
      unfold highSurrogate
      omega
    have hb2 : 0x80 + (cp - 0x10000) / 2 ^ 10 % 64 =
        0x80 + highSurrogate cp % 64 := by
      unfold highSurrogate
      omega
    have hb3 : 0xb0 + (cp - 0x10000) / 2 ^ 6 % 16 =
        0x80 + lowSurrogate cp / 64 % 64 := by
      unfold lowSurrogate
      omega
    have hb4 : 0x80 + (cp - 0x10000) % 64 = 0x80 + lowSurrogate cp % 64 := by
      unfold lowSurrogate
      omega
    rw [hb1, hb2, hb3, hb4]
    rfl

theorem lexerString_eq (text : List Char) :
    lexerString text = text.flatMap fun c => encodeCesu8 c.toNat := by
  unfold lexerString
  congr 1
  funext c
  exact dukUnicodeEncodeCesu8_eq (toNat_lt c)

theorem lexerString_of_basic
    {text : List Char} (hbasic : ∀ c ∈ text, c.toNat < 0x10000) :
    lexerString text = (text.map Char.toNat).flatMap encodeUtf8 := by
  rw [lexerString_eq, List.flatMap_map]
  apply List.flatMap_congr
  intro c hmem
  simp [encodeCesu8, hbasic c hmem]

theorem length_le_length_lexerString (text : List Char) :
    text.length ≤ (lexerString text).length := by
  induction text with
  | nil => exact le_rfl
  | cons c text ih =>
      have hcons : lexerString (c :: text) =
          dukUnicodeEncodeCesu8 c.toNat ++ lexerString text := List.flatMap_cons
      have hsome : 0 < (dukUnicodeEncodeCesu8 c.toNat).length := by
        unfold dukUnicodeEncodeCesu8
        split_ifs <;> exact Nat.succ_pos _
      rw [hcons, List.length_append, List.length_cons]
      omega

theorem cString_append_zero
    {bytes : List UInt8} (hzero : 0 ∉ bytes) (rest : List UInt8) :
    cString (bytes ++ 0 :: rest) = bytes := by
  unfold cString
  rw [List.takeWhile_append_of_pos]
  · simp
  · intro x hmem
    have hne : x ≠ 0 := fun heq => hzero (heq ▸ hmem)
    simpa using hne

theorem zero_notMem_cString (bytes : List UInt8) : 0 ∉ cString bytes := by
  intro hmem
  have hne := List.mem_takeWhile_imp hmem
  simp at hne

theorem cString_eq_self {bytes : List UInt8} (hzero : 0 ∉ bytes) :
    cString bytes = bytes := by
  unfold cString
  rw [List.takeWhile_eq_self_iff]
  intro x hmem
  have hne : x ≠ 0 := fun heq => hzero (heq ▸ hmem)
  simpa using hne

/-- The character length is the byte length exactly when every character is
one byte long. -/
theorem unvalidatedUtf8Length_eq_length_iff (bytes : List UInt8) :
    unvalidatedUtf8Length bytes = bytes.length ↔
      ∀ x ∈ bytes, ¬ (0x80 ≤ x ∧ x ≤ 0xbf) := by
  have hle : (bytes.countP fun x => 0x80 ≤ x && x ≤ 0xbf) ≤ bytes.length :=
    List.countP_le_length
  have hcount : unvalidatedUtf8Length bytes = bytes.length ↔
      (bytes.countP fun x => 0x80 ≤ x && x ≤ 0xbf) = 0 := by
    unfold unvalidatedUtf8Length
    omega
  rw [hcount, List.countP_eq_zero]
  simp

theorem unvalidatedUtf8Length_le (bytes : List UInt8) :
    unvalidatedUtf8Length bytes ≤ bytes.length :=
  Nat.sub_le _ _

theorem zero_notMem_lexerString
    {text : List Char} (hzero : '\x00' ∉ text) : 0 ∉ lexerString text := by
  rw [lexerString_eq, List.mem_flatMap]
  rintro ⟨c, hmem, hbyte⟩
  have hpos : 0 < c.toNat := by
    rw [Nat.pos_iff_ne_zero]
    intro hnat
    have hc : c = '\x00' := by
      apply Char.ext
      exact UInt32.toNat_inj.mp hnat
    exact hzero (hc ▸ hmem)
  have hmax := toNat_lt c
  unfold encodeCesu8 at hbyte
  split at hbyte
  · exact zero_notMem_encodeUtf8 hpos hmax hbyte
  · rw [List.mem_append] at hbyte
    rcases hbyte with hhigh | hlow
    · exact zero_notMem_encodeUtf8
        (by unfold highSurrogate; omega) (by unfold highSurrogate; omega) hhigh
    · exact zero_notMem_encodeUtf8
        (by unfold lowSurrogate; omega) (by unfold lowSurrogate; omega) hlow

end NekoScript
