import NekoScript.LoggedReads
import NekoScript.StringExchange
import Mathlib.Tactic

/-!
# What `fromWString` reads

The engine gives the size of a buffer in bytes, and the constructor of
`std::wstring` takes it as a number of `wchar_t`s.  The copy therefore reads as
many bytes after the buffer as there are in it.  A terminator inside the buffer
hides this from the result, but not from the log of reads.
-/

namespace NekoScript

open UnicodeCoding LoggedReads

/-- The bytes from the data pointer of a buffer on. -/
def bufferMemory (bytes : List UInt8) (beyond : ℕ → UInt8) (offset : ℕ) : UInt8 :=
  if h : offset < bytes.length then bytes[offset] else beyond (offset - bytes.length)

def readUnit (index : ℕ) : Reader UInt8 UInt16 := do
  let low ← Reader.readAt (2 * index)
  let high ← Reader.readAt (2 * index + 1)
  pure (.ofNat (low.toNat + 256 * high.toNat))

/-- `std::wstring(ptr, count)`, from the unit `start` on. -/
def readUnits : (start count : ℕ) → Reader UInt8 (List UInt16)
  | _, 0 => pure []
  | start, count + 1 => do
      let unit ← readUnit start
      let rest ← readUnits (start + 1) count
      pure (unit :: rest)

/-- `NKWinAPI::fromWString` with the reads it makes; `size` is in bytes. -/
def fromWStringReads (arg : DukValue) : Except JSError (Reader UInt8 DukString) := do
  let str ← arg.requireBufferData (-1)
  let size := str.length
  return do
    let s ← readUnits 0 size
    pure (cString (utf16ToUtf8 s))

/-- The code units in a buffer up to the first zero, decoded. -/
def decodeTerminated (bytes : List UInt8) : DukString :=
  utf16ToUtf8 ((wchars bytes).takeWhile (· ≠ 0))

/-- Whatever lies beyond the buffer, it is not read, and the result is the text
in the buffer. -/
def ReadsOnlyArgument (arg : DukValue) (bytes : List UInt8) : Prop :=
  ∀ beyond, ∃ reads, fromWStringReads arg = .ok reads ∧
    reads.Within (bufferMemory bytes beyond) bytes.length ∧
    reads.value (bufferMemory bytes beyond) = decodeTerminated bytes

theorem offsets_readUnits (memory : ℕ → UInt8) (start count : ℕ) :
    (readUnits start count).offsets memory = List.range' (2 * start) (2 * count) := by
  induction count generalizing start with
  | zero => rfl
  | succ count ih =>
      have hunit : (readUnit start).offsets memory = [2 * start, 2 * start + 1] := rfl
      have hcount : 2 * (count + 1) = 2 * count + 1 + 1 := by ring
      have hstart : 2 * (start + 1) = 2 * start + 1 + 1 := by ring
      rw [readUnits, Reader.offsets_bind, Reader.offsets_bind, hunit, ih, hcount,
        hstart, List.range'_succ, List.range'_succ]
      simp

theorem requireBufferData_of_bufferData
    {arg : DukValue} {pointer : ℕ} {bytes : List UInt8}
    (hbuffer : arg.bufferData = some (pointer, bytes)) (index : ℤ) :
    arg.requireBufferData index = .ok bytes := by
  simp [DukValue.requireBufferData, hbuffer]

theorem fromWString_eq
    {arg : DukValue} {pointer : ℕ} {bytes : List UInt8}
    (hbuffer : arg.bufferData = some (pointer, bytes)) (beyond : ℕ → UInt8) :
    fromWString beyond arg =
      .ok (cString (utf16ToUtf8
        ((wchars (bytes ++ (List.range bytes.length).map beyond)).take
          bytes.length))) := by
  unfold fromWString
  rw [requireBufferData_of_bufferData hbuffer]
  rfl

theorem fromWStringReads_eq
    {arg : DukValue} {pointer : ℕ} {bytes : List UInt8}
    (hbuffer : arg.bufferData = some (pointer, bytes)) :
    fromWStringReads arg = .ok (do
      let s ← readUnits 0 bytes.length
      pure (cString (utf16ToUtf8 s))) := by
  unfold fromWStringReads
  rw [requireBufferData_of_bufferData hbuffer]
  rfl

/-- Twice the size of the buffer is read. -/
theorem offsets_fromWStringReads
    {arg : DukValue} {pointer : ℕ} {bytes : List UInt8}
    (hbuffer : arg.bufferData = some (pointer, bytes))
    {reads : Reader UInt8 DukString} (hreads : fromWStringReads arg = .ok reads)
    (memory : ℕ → UInt8) :
    reads.offsets memory = List.range (2 * bytes.length) := by
  rw [fromWStringReads_eq hbuffer] at hreads
  rw [← Except.ok.inj hreads, Reader.offsets_bind, offsets_readUnits,
    Reader.offsets_pure, List.append_nil, List.range_eq_range']

/-! ## The value -/

theorem value_readUnits (memory : ℕ → UInt8) (start count : ℕ) :
    (readUnits start count).value memory =
      (wchars ((List.range' (2 * start) (2 * count)).map memory)).take count := by
  induction count generalizing start with
  | zero => rfl
  | succ count ih =>
      have hcount : 2 * (count + 1) = 2 * count + 1 + 1 := by ring
      have hstart : 2 * (start + 1) = 2 * start + 1 + 1 := by ring
      rw [readUnits, Reader.value_bind, Reader.value_bind, Reader.value_pure, ih, hcount,
        hstart, List.range'_succ, List.range'_succ, List.map_cons, List.map_cons,
        wchars, List.take_succ_cons]
      rfl

theorem map_bufferMemory (bytes : List UInt8) (beyond : ℕ → UInt8) :
    (List.range' (2 * 0) (2 * bytes.length)).map (bufferMemory bytes beyond) =
      bytes ++ (List.range bytes.length).map beyond := by
  apply List.ext_getElem
  · simp
    omega
  · intro i h₁ h₂
    by_cases hlt : i < bytes.length
    · simp [bufferMemory, hlt]
    · rw [List.getElem_append_right (by omega)]
      simp [bufferMemory, hlt]

/-- The logged reads compute what `fromWString` returns. -/
theorem value_fromWStringReads
    {arg : DukValue} {pointer : ℕ} {bytes : List UInt8}
    (hbuffer : arg.bufferData = some (pointer, bytes))
    {reads : Reader UInt8 DukString} (hreads : fromWStringReads arg = .ok reads)
    (beyond : ℕ → UInt8) :
    fromWString beyond arg = .ok (reads.value (bufferMemory bytes beyond)) := by
  rw [fromWStringReads_eq hbuffer] at hreads
  rw [fromWString_eq hbuffer, ← Except.ok.inj hreads, Reader.value_bind, Reader.value_pure,
    value_readUnits, map_bufferMemory]

theorem wchars_append (bytes after : List UInt8) :
    ∃ rest, wchars (bytes ++ after) = wchars bytes ++ rest := by
  induction bytes using wchars.induct with
  | case1 low high bytes ih =>
      obtain ⟨rest, hrest⟩ := ih
      exact ⟨rest, by simp [wchars, hrest]⟩
  | case2 bytes hshort =>
      refine ⟨wchars (bytes ++ after), ?_⟩
      cases bytes with
      | nil => rfl
      | cons low bytes =>
          cases bytes with
          | nil => rfl
          | cons high bytes => exact absurd rfl (hshort low high bytes)

theorem length_wchars_le (bytes : List UInt8) : (wchars bytes).length ≤ bytes.length := by
  induction bytes using wchars.induct with
  | case1 low high bytes ih =>
      simp only [wchars, List.length_cons]
      omega
  | case2 bytes hshort => simp [wchars]

theorem cString_flatMap_encodeUtf8
    {codePoints : List ℕ} (hbounds : ∀ codePoint ∈ codePoints,
      0 < codePoint ∧ codePoint < 0x110000) (rest : List ℕ) :
    cString ((codePoints ++ 0 :: rest).flatMap encodeUtf8) =
      codePoints.flatMap encodeUtf8 := by
  rw [List.flatMap_append, List.flatMap_cons]
  exact cString_append_zero (zero_notMem_flatMap_encodeUtf8 hbounds) _

/-- A terminator in the buffer hides the reads beyond it: the result is the
text in the buffer all the same. -/
theorem fromWString_of_terminator
    {arg : DukValue} {pointer : ℕ} {bytes : List UInt8}
    (hbuffer : arg.bufferData = some (pointer, bytes))
    (hterminator : 0 ∈ wchars bytes) (beyond : ℕ → UInt8) :
    fromWString beyond arg = .ok (decodeTerminated bytes) := by
  obtain ⟨text, after, hsplit, htext⟩ := List.eq_append_cons_of_mem hterminator
  have htake : (wchars bytes).takeWhile (· ≠ 0) = text := by
    rw [hsplit, List.takeWhile_append_of_pos]
    · simp
    · intro unit hmem
      have hne : unit ≠ 0 := fun heq => htext (heq ▸ hmem)
      simpa using hne
  obtain ⟨rest, hrest⟩ := wchars_append bytes ((List.range bytes.length).map beyond)
  have hread : (wchars (bytes ++ (List.range bytes.length).map beyond)).take
      bytes.length =
        text ++ 0 :: (after ++ rest.take (bytes.length - (wchars bytes).length)) := by
    rw [hrest, List.take_append, List.take_of_length_le (length_wchars_le bytes), hsplit]
    simp
  have hconvert : ∀ units, utf16ToUtf8 units = (decodeUtf16 units).flatMap encodeUtf8 :=
    convertBySize_eq wideCharToMultiByteUtf8
  rw [fromWString_eq hbuffer, hread, decodeTerminated, htake, hconvert, hconvert,
    decodeUtf16_append_zero]
  exact congrArg Except.ok (cString_flatMap_encodeUtf8
    (fun _ => bounds_of_mem_decodeUtf16 htext) _)

/-- Every buffer that is not empty is read beyond its end. -/
theorem readsOnlyArgument_iff
    {arg : DukValue} {pointer : ℕ} {bytes : List UInt8}
    (hbuffer : arg.bufferData = some (pointer, bytes)) :
    ReadsOnlyArgument arg bytes ↔ bytes = [] := by
  constructor
  · intro honly
    obtain ⟨reads, hreads, hwithin, _⟩ := honly fun _ => 0
    by_contra hne
    have hpos : 0 < bytes.length := List.length_pos_iff.mpr hne
    have hread : bytes.length ∈
        reads.offsets (bufferMemory bytes fun _ => 0) := by
      rw [offsets_fromWStringReads hbuffer hreads, List.mem_range]
      omega
    exact lt_irrefl _ (hwithin _ hread)
  · rintro rfl beyond
    refine ⟨_, fromWStringReads_eq hbuffer, ?_, ?_⟩
    · intro offset hmem
      simp [readUnits] at hmem
    · change cString (utf16ToUtf8 []) = decodeTerminated []
      decide

/-- Of two buffers, an empty one and one that holds a single `wchar_t`, the first
is not read beyond its end. -/
theorem readsOnlyArgument_iff_oneUnit :
    ReadsOnlyArgument (.buffer ⟨[], 0, fun _ => rfl, by decide⟩) [] ∧
      ¬ ReadsOnlyArgument (.buffer ⟨[0x41, 0], 16, by decide, by decide⟩) [0x41, 0] := by
  constructor
  · exact (@readsOnlyArgument_iff _ 0 _ rfl).mpr rfl
  · rw [@readsOnlyArgument_iff _ 16 _ rfl]
    decide

/-- One `wchar_t` without a terminator: the two bytes after it are read, and
become part of the text. -/
theorem not_readsOnlyArgument_of_unterminated :
    let b : DukValue := .buffer ⟨[0x41, 0], 16, by decide, by decide⟩
    fromWString (fun i => if i = 0 then 0x42 else 0) b = .ok [0x41, 0x42] ∧
      decodeTerminated [0x41, 0] = [0x41] ∧ ¬ ReadsOnlyArgument b [0x41, 0] := by
  intro b
  refine ⟨by decide, by decide, ?_⟩
  intro honly
  obtain ⟨reads, hreads, hwithin, _⟩ := honly fun _ => 0
  have hbuffer : b.bufferData = some (16, [0x41, 0]) := rfl
  have hread : 2 ∈ reads.offsets (bufferMemory [0x41, 0] fun _ => 0) := by
    rw [offsets_fromWStringReads hbuffer hreads]
    decide
  have hlt : 2 < 2 := hwithin 2 hread
  omega

end NekoScript
