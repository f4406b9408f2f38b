import NekoScript.BitStreams
import NekoScript.BytecodeRoundTrip
import Mathlib.Tactic

/-!
# Line tables of compiled functions

The compiler packs the source lines of a function's instructions into a bit
stream of differences, with an index into it for every 64th instruction.  The
stack of an error looks the line of a program counter up in this table.
-/

namespace NekoScript

open BitStreams SequentialReaders

/-! ## Bit streams of the engine -/

/-- `duk_bitencoder_ctx`: `data` is what has been written, up to `offset`. -/
structure BitEncoder where
  data : List UInt8
  length : ℕ
  currval : ℕ
  currbits : ℕ
  truncated : Bool
  deriving DecidableEq

namespace BitEncoder

def start (length : ℕ) : BitEncoder := ⟨[], length, 0, 0, false⟩

def writeByte (be : BitEncoder) : BitEncoder :=
  let be :=
    if be.data.length < be.length then
      { be with data := be.data ++ [.ofNat ((be.currval >>> (be.currbits - 8)) &&& 0xff)] }
    else { be with truncated := true }
  { be with currbits := be.currbits - 8 }

def writeBytes : ℕ → BitEncoder → BitEncoder
  | 0, be => be
  | fuel + 1, be => if 8 ≤ be.currbits then writeBytes fuel be.writeByte else be

/-- `duk_be_encode` -/
def encode (be : BitEncoder) (data bits : ℕ) : BitEncoder :=
  let currbits := be.currbits + bits
  writeBytes currbits
    { be with currval := (be.currval <<< bits) % 2 ^ 32 ||| data, currbits := currbits }

/-- `duk_be_finish` -/
def finish (be : BitEncoder) : BitEncoder :=
  let npad := 8 - be.currbits
  if npad > 0 then be.encode 0 npad else be

/-- The encoder has taken these bits, all of which have a place in its buffer. -/
structure Holds (be : BitEncoder) (bits : List Bool) : Prop where
  currbits : be.currbits < 8
  untruncated : be.truncated = false
  written : bitsOfBytes be.data ++ bitsOf be.currbits be.currval = bits

theorem holds_start (length : ℕ) : (start length).Holds [] :=
  ⟨by simp [start], rfl, by simp [start]⟩

theorem Holds.length_eq {be : BitEncoder} {bits : List Bool} (h : be.Holds bits) :
    8 * be.data.length + be.currbits = bits.length := by
  rw [← h.written]
  simp

theorem bitsOfBytes_writeByte
    {be : BitEncoder} (hbits : 8 ≤ be.currbits) (hroom : be.data.length < be.length) :
    bitsOfBytes be.writeByte.data ++ bitsOf be.writeByte.currbits be.writeByte.currval =
      bitsOfBytes be.data ++ bitsOf be.currbits be.currval := by
  have htop := bitsOf_top 8 (be.currbits - 8) be.currval
  rw [Nat.add_sub_cancel' hbits] at htop
  have hmask : (be.currval >>> (be.currbits - 8)) &&& 0xff =
      (be.currval >>> (be.currbits - 8)) % 2 ^ 8 :=
    Nat.and_two_pow_sub_one_eq_mod _ 8
  have hbyte : ((be.currval >>> (be.currbits - 8)) % 2 ^ 8) % 2 ^ 8 =
      (be.currval >>> (be.currbits - 8)) % 2 ^ 8 := Nat.mod_mod _ _
  simp only [writeByte, hroom, if_true]
  rw [bitsOfBytes_append, bitsOfBytes_cons, bitsOfBytes_nil, List.append_nil, hmask,
    UInt8.toNat_ofNat', hbyte, List.append_assoc, ← htop]

/-- The bytes of the accumulator go where there is room for them. -/
theorem holds_writeBytes
    {fuel : ℕ} {be : BitEncoder} {bits : List Bool} (hfuel : be.currbits < 8 + fuel)
    (htruncated : be.truncated = false)
    (hroom : 8 * be.data.length + be.currbits ≤ 8 * be.length)
    (hwritten : bitsOfBytes be.data ++ bitsOf be.currbits be.currval = bits) :
    (writeBytes fuel be).Holds bits ∧ (writeBytes fuel be).length = be.length := by
  induction fuel generalizing be with
  | zero => exact ⟨⟨by simpa [writeBytes] using hfuel, htruncated, hwritten⟩, rfl⟩
  | succ fuel ih =>
      unfold writeBytes
      by_cases hbits : 8 ≤ be.currbits
      · have hlt : be.data.length < be.length := by omega
        have hbytes := bitsOfBytes_writeByte hbits hlt
        rw [if_pos hbits]
        have hstep := @ih be.writeByte (by simp [writeByte, hlt]; omega)
          (by simpa [writeByte, hlt] using htruncated)
          (by simp [writeByte, hlt]; omega) (hbytes.trans hwritten)
        have hlength : be.writeByte.length = be.length := by simp [writeByte, hlt]
        exact ⟨hstep.1, hstep.2.trans hlength⟩
      · rw [if_neg hbits]
        exact ⟨⟨by omega, htruncated, hwritten⟩, rfl⟩

theorem Holds.encode
    {be : BitEncoder} {bits : List Bool} (h : be.Holds bits) {data width : ℕ}
    (hwidth : width ≤ 24) (hdata : data < 2 ^ width)
    (hroom : bits.length + width ≤ 8 * be.length) :
    (be.encode data width).Holds (bits ++ bitsOf width data) ∧
      (be.encode data width).length = be.length := by
  have hlength := h.length_eq
  have hcurrbits := h.currbits
  have hpush := @bitsOf_shiftLeft_or be.currbits width be.currval data 32 (by omega) hdata
  apply holds_writeBytes
  · dsimp only
    omega
  · exact h.untruncated
  · dsimp only
    omega
  · dsimp only
    rw [hpush, ← List.append_assoc, h.written]

/-- Finishing pads the last byte, or adds a byte. -/
theorem Holds.exists_finish
    {be : BitEncoder} {bits : List Bool} (h : be.Holds bits)
    (hroom : bits.length + 8 ≤ 8 * be.length + bits.length % 8) :
    be.finish.data.length ≤ be.length ∧ be.finish.truncated = false ∧
      ∃ pad, bitsOfBytes be.finish.data = bits ++ pad := by
  have hlength := h.length_eq
  have hcurrbits := h.currbits
  have hpad : 8 - be.currbits > 0 := by omega
  have hencode := (@Holds.encode be bits h 0 (8 - be.currbits) (by omega) (by positivity)
    (by omega)).1
  have hwhole := hencode.length_eq
  rw [List.length_append, length_bitsOf] at hwhole
  have hnone : (be.encode 0 (8 - be.currbits)).currbits = 0 := by
    have := hencode.currbits
    omega
  have hwritten := hencode.written
  rw [hnone, bitsOf_zero, List.append_nil] at hwritten
  unfold finish
  dsimp only
  rw [if_pos hpad]
  exact ⟨by omega, hencode.untruncated, _, hwritten⟩

end BitEncoder

/-- `duk_bitdecoder_ctx`: `rest` is the data from `offset` on. -/
structure BitDecoder where
  rest : List UInt8
  currval : ℕ
  currbits : ℕ

namespace BitDecoder

def start (data : List UInt8) : BitDecoder := ⟨data, 0, 0⟩

/-- Past the end of the data, zeroes are shifted in. -/
def readByte (bd : BitDecoder) : BitDecoder :=
  match bd.rest with
  | [] => { bd with currval := (bd.currval <<< 8) % 2 ^ 32, currbits := bd.currbits + 8 }
  | byte :: rest =>
      ⟨rest, (bd.currval <<< 8) % 2 ^ 32 ||| byte.toNat, bd.currbits + 8⟩

def readBytes (bits : ℕ) : ℕ → BitDecoder → BitDecoder
  | 0, bd => bd
  | fuel + 1, bd => if bd.currbits < bits then readBytes bits fuel bd.readByte else bd

/-- `duk_bd_decode` -/
def decode (bd : BitDecoder) (bits : ℕ) : ℕ × BitDecoder :=
  let bd := readBytes bits bits bd
  let shift := bd.currbits - bits
  ((bd.currval >>> shift) &&& (1 <<< bits - 1), { bd with currbits := shift })

/-- `duk_bd_decode_flag` -/
def decodeFlag (bd : BitDecoder) : Bool × BitDecoder :=
  let (value, bd) := bd.decode 1
  (value != 0, bd)

/-- The decoder has these bits still to give. -/
structure Holds (bd : BitDecoder) (bits : List Bool) : Prop where
  currbits : bd.currbits < 8
  remaining : bitsOf bd.currbits bd.currval ++ bitsOfBytes bd.rest = bits

theorem holds_start (data : List UInt8) : (start data).Holds (bitsOfBytes data) :=
  ⟨by simp [start], by simp [start]⟩

theorem bitsOf_readByte
    {bd : BitDecoder} {byte : UInt8} {rest : List UInt8} (hrest : bd.rest = byte :: rest)
    (hbits : bd.currbits < 24) :
    bitsOf bd.readByte.currbits bd.readByte.currval ++ bitsOfBytes bd.readByte.rest =
      bitsOf bd.currbits bd.currval ++ bitsOfBytes bd.rest := by
  have hpush := @bitsOf_shiftLeft_or bd.currbits 8 bd.currval byte.toNat 32 (by omega)
    byte.toNat_lt
  unfold readByte
  rw [hrest]
  dsimp only
  rw [hpush, bitsOfBytes_cons, List.append_assoc]

/-- While bits are wanted that the data has, nothing is shifted in or out. -/
theorem readBytes_spec
    {bits fuel : ℕ} {bd : BitDecoder} {remaining : List Bool} (hbits : bits ≤ 24)
    (hfuel : bits ≤ bd.currbits + fuel) (hcurrbits : bd.currbits < bits + 8)
    (hremaining : bitsOf bd.currbits bd.currval ++ bitsOfBytes bd.rest = remaining)
    (hlong : bits ≤ remaining.length) :
    bits ≤ (readBytes bits fuel bd).currbits ∧
      (readBytes bits fuel bd).currbits < bits + 8 ∧
      bitsOf (readBytes bits fuel bd).currbits (readBytes bits fuel bd).currval ++
        bitsOfBytes (readBytes bits fuel bd).rest = remaining := by
  induction fuel generalizing bd with
  | zero => exact ⟨by simpa [readBytes] using hfuel, hcurrbits, hremaining⟩
  | succ fuel ih =>
      unfold readBytes
      by_cases hlt : bd.currbits < bits
      · rw [if_pos hlt]
        cases hrest : bd.rest with
        | nil =>
            rw [hrest, bitsOfBytes_nil, List.append_nil] at hremaining
            rw [← hremaining, length_bitsOf] at hlong
            omega
        | cons byte rest =>
            have hsame := bitsOf_readByte hrest (by omega)
            have hmore : bd.readByte.currbits = bd.currbits + 8 := by simp [readByte, hrest]
            exact ih (by omega) (by omega) (hsame.trans hremaining)
      · rw [if_neg hlt]
        exact ⟨by omega, hcurrbits, hremaining⟩

theorem Holds.exists_decode
    {bd : BitDecoder} {width value : ℕ} {after : List Bool} (hwidth : width ≤ 24)
    (hvalue : value < 2 ^ width) (h : bd.Holds (bitsOf width value ++ after)) :
    ∃ next, bd.decode width = (value, next) ∧ next.Holds after := by
  have hcurrbits := h.currbits
  have hread := @readBytes_spec width width bd _ hwidth (by omega) (by omega) h.remaining
    (by simp)
  unfold decode
  dsimp only
  generalize readBytes width width bd = read at hread
  rcases hread with ⟨hle, hlt, hremaining⟩
  have htop := bitsOf_top width (read.currbits - width) read.currval
  rw [Nat.add_sub_cancel' hle] at htop
  rw [htop, List.append_assoc] at hremaining
  have hsplit := List.append_inj hremaining (by simp)
  have hmask : (read.currval >>> (read.currbits - width)) &&& (1 <<< width - 1) =
      (read.currval >>> (read.currbits - width)) % 2 ^ width := by
    rw [Nat.one_shiftLeft, Nat.and_two_pow_sub_one_eq_mod]
  have hmod : (read.currval >>> (read.currbits - width)) % 2 ^ width < 2 ^ width :=
    Nat.mod_lt _ (by positivity)
  have hfirst := bitsOf_inj hmod hvalue hsplit.1
  refine ⟨{ read with currbits := read.currbits - width }, ?_, ?_⟩
  · rw [hmask, hfirst]
  · exact ⟨by dsimp only; omega, hsplit.2⟩

theorem Holds.exists_decodeFlag
    {bd : BitDecoder} {flag : Bool} {after : List Bool} (h : bd.Holds (flag :: after)) :
    ∃ next, bd.decodeFlag = (flag, next) ∧ next.Holds after := by
  cases flag with
  | false =>
      rcases @exists_decode bd 1 0 after (by omega) (by omega) h with ⟨next, hnext, hafter⟩
      exact ⟨next, by simp [decodeFlag, hnext], hafter⟩
  | true =>
      rcases @exists_decode bd 1 1 after (by omega) (by omega) h with ⟨next, hnext, hafter⟩
      exact ⟨next, by simp [decodeFlag, hnext], hafter⟩

end BitDecoder

/-! ## Packing -/

/-- `DUK_USE_ESBC_MAX_LINENUMBER` -/
def esbcMaxLinenumber : ℕ := 2147418112

/-- `DUK_USE_ESBC_MAX_BYTES` -/
def esbcMaxBytes : ℕ := 2147418112

/-- `duk_compiler_instr`, as `duk__emit` accepts it. -/
structure CompilerInstr where
  ins : UInt32
  line : ℕ
  line_le : line ≤ esbcMaxLinenumber

/-- The instructions of a function, each of eight bytes. -/
abbrev EmittedCode := { instrs : List CompilerInstr // instrs.length * 8 ≤ esbcMaxBytes }

/-- `DUK_PC2LINE_SKIP` -/
def pc2lineSkip : ℕ := 64

/-- `DUK_PC2LINE_MAX_DIFF_LENGTH` -/
def pc2lineMaxDiffLength : ℕ := ((pc2lineSkip - 1) * 35 + 7) / 8

/-- A buffer that starts with a header of 32-bit words. -/
structure LineTable where
  hdr : List ℕ
  stream : List UInt8

/-- A word in memory, the lowest byte first. -/
def wordBytes (word : ℕ) : List UInt8 := (bigEndian 4 word).reverse

def LineTable.bytes (table : LineTable) : List UInt8 :=
  table.hdr.flatMap wordBytes ++ table.stream

def LineTable.size (table : LineTable) : ℕ := 4 * table.hdr.length + table.stream.length

/-- The size check of `duk_push_dynamic_buffer` and `duk_hbuffer_resize`. -/
def checkBufferSize (size : ℕ) : Except JSError Unit :=
  if size > hbufferMaxBytelen then .error bufferTooLongError else .ok ()

def BitEncoder.encodeDiff (be : BitEncoder) (currLine nextLine : ℕ) : BitEncoder :=
  let diffLine : ℤ := nextLine - currLine
  if diffLine = 0 then be.encode 0 1
  else if diffLine ≥ 1 ∧ diffLine ≤ 4 then
    be.encode (0x02 <<< 2 + (diffLine - 1).toNat) 4
  else if diffLine ≥ -0x80 ∧ diffLine ≤ 0x7f then
    be.encode (0x06 <<< 8 + (diffLine + 0x80).toNat) 11
  else
    (be.encode (0x07 <<< 16 + ((nextLine >>> 16) &&& 0xffff)) 19).encode
      (nextLine &&& 0xffff) 16

/-- The differences after the instruction at `currPc`, to the end of the run or
of the instructions, and what is left. -/
def encodeRun (be : BitEncoder) (currLine currPc : ℕ) :
    List CompilerInstr → BitEncoder × ℕ × List CompilerInstr
  | [] => (be, currPc + 1, [])
  | next :: rest =>
      if (currPc + 1) % pc2lineSkip = 0 then (be, currPc + 1, next :: rest)
      else encodeRun (be.encodeDiff currLine next.line) next.line (currPc + 1) rest

/-- The loop over the runs; every run takes an instruction at least. -/
def packRuns : ℕ → ℕ → List CompilerInstr → LineTable → Except JSError LineTable
  | fuel + 1, currPc, first :: rest, table => do
      let currOffset := table.size
      checkBufferSize (currOffset + pc2lineMaxDiffLength)
      let hdrIndex := 1 + currPc / pc2lineSkip * 2
      let (be, currPc, rest) :=
        encodeRun (.start pc2lineMaxDiffLength) first.line currPc rest
      packRuns fuel currPc rest
        { hdr := (table.hdr.set (hdrIndex + 0) first.line).set (hdrIndex + 1) currOffset
          stream := table.stream ++ be.finish.data }
  | _, _, _, table => .ok table

/-- `duk_hobject_pc2line_pack` -/
def pc2linePack (code : EmittedCode) : Except JSError EngineBuffer := do
  let length := code.1.length
  let numHeaderEntries := (length + pc2lineSkip - 1) / pc2lineSkip
  checkBufferSize (4 + numHeaderEntries * 4 * 2)
  let table ← packRuns length 0 code.1
    { hdr := length :: List.replicate (numHeaderEntries * 2) 0, stream := [] }
  if h : table.bytes.length ≤ hbufferMaxBytelen then return ⟨table.bytes, h⟩
  else throw bufferTooLongError

/-! ## Looking a line up -/

/-- `hdr[index]`, `none` where the word lies beyond the buffer. -/
def headerWord (buf : List UInt8) (index : ℕ) : Option ℕ :=
  if 4 * index + 4 ≤ buf.length then
    some (ofBigEndian ((buf.drop (4 * index)).take 4).reverse)
  else none

def BitDecoder.decodeDiff (bd : BitDecoder) (currLine : ℕ) : ℕ × BitDecoder :=
  let (flag, bd) := bd.decodeFlag
  if flag then
    let (flag, bd) := bd.decodeFlag
    if flag then
      let (flag, bd) := bd.decodeFlag
      if flag then
        let (t, bd) := bd.decode 16
        let (low, bd) := bd.decode 16
        (((t <<< 16) % 2 ^ 32 + low) % 2 ^ 32, bd)
      else
        let (t, bd) := bd.decode 8
        ((currLine + t + (2 ^ 32 - 0x80)) % 2 ^ 32, bd)
    else
      let (t, bd) := bd.decode 2
      ((currLine + t + 1) % 2 ^ 32, bd)
  else (currLine, bd)

def decodeDiffs : ℕ → BitDecoder → ℕ → ℕ
  | 0, _, currLine => currLine
  | n + 1, bd, currLine =>
      let (currLine, bd) := bd.decodeDiff currLine
      decodeDiffs n bd currLine

/-- `duk__hobject_pc2line_query_raw`; `none` where it reads beyond the buffer. -/
def pc2lineQueryRaw (buf : List UInt8) (pc : ℕ) : Option ℕ :=
  let hdrIndex := pc / pc2lineSkip
  let pcBase := hdrIndex * pc2lineSkip
  let n := pc - pcBase
  if buf.length ≤ 4 then some 0
  else do
    let pcLimit ← headerWord buf 0
    if pc ≥ pcLimit then return 0
    let currLine ← headerWord buf (1 + hdrIndex * 2)
    let startOffset ← headerWord buf (1 + hdrIndex * 2 + 1)
    if startOffset > buf.length then return 0
    return decodeDiffs n (.start (buf.drop startOffset)) currLine

/-- `duk_hobject_pc2line_query` -/
def pc2lineQuery (properties : FunctionProperties) (pc : ℕ) : Option ℕ :=
  match properties.pc2line with
  | some pc2line => pc2lineQueryRaw pc2line.1 pc
  | none => some 0

/-! ## Differences -/

/-- The code of the line that follows another one. -/
def diffBits (currLine nextLine : ℕ) : List Bool :=
  let diffLine : ℤ := nextLine - currLine
  if diffLine = 0 then [false]
  else if diffLine ≥ 1 ∧ diffLine ≤ 4 then
    [true, false] ++ bitsOf 2 (diffLine - 1).toNat
  else if diffLine ≥ -0x80 ∧ diffLine ≤ 0x7f then
    [true, true, false] ++ bitsOf 8 (diffLine + 0x80).toNat
  else
    [true, true, true] ++ (bitsOf 16 (nextLine >>> 16) ++ bitsOf 16 (nextLine &&& 0xffff))

theorem length_diffBits_le (currLine nextLine : ℕ) :
    (diffBits currLine nextLine).length ≤ 35 := by
  unfold diffBits
  dsimp only
  split_ifs <;> simp

theorem high_half_lt {line : ℕ} (hline : line ≤ esbcMaxLinenumber) : line >>> 16 < 2 ^ 16 := by
  unfold esbcMaxLinenumber at hline
  rw [Nat.shiftRight_eq_div_pow]
  omega

theorem BitEncoder.Holds.encodeDiff
    {be : BitEncoder} {bits : List Bool} (h : be.Holds bits) {currLine nextLine : ℕ}
    (hnext : nextLine ≤ esbcMaxLinenumber) (hroom : bits.length + 35 ≤ 8 * be.length) :
    (be.encodeDiff currLine nextLine).Holds (bits ++ diffBits currLine nextLine) ∧
      (be.encodeDiff currLine nextLine).length = be.length := by
  unfold BitEncoder.encodeDiff diffBits
  dsimp only
  split_ifs with hzero hsmall hbyte
  · exact h.encode (by omega) (by omega) (by omega)
  · have hvalue : ((nextLine : ℤ) - currLine - 1).toNat < 2 ^ 2 := by omega
    have hbits := @bitsOf_shiftLeft_add 2 2 0x02 _ hvalue
    have hlead : bitsOf 2 0x02 = [true, false] := rfl
    rw [hlead] at hbits
    rw [← hbits]
    exact h.encode (by omega) (by rw [Nat.shiftLeft_eq]; omega) (by omega)
  · have hvalue : ((nextLine : ℤ) - currLine + 0x80).toNat < 2 ^ 8 := by omega
    have hbits := @bitsOf_shiftLeft_add 3 8 0x06 _ hvalue
    have hlead : bitsOf 3 0x06 = [true, true, false] := rfl
    rw [hlead] at hbits
    rw [← hbits]
    exact h.encode (by omega) (by rw [Nat.shiftLeft_eq]; omega) (by omega)
  · have hhigh := high_half_lt hnext
    have hmask : (nextLine >>> 16) &&& 0xffff = nextLine >>> 16 := by
      rw [Nat.and_two_pow_sub_one_eq_mod _ 16, Nat.mod_eq_of_lt hhigh]
    have hlow : nextLine &&& 0xffff < 2 ^ 16 := by
      rw [Nat.and_two_pow_sub_one_eq_mod _ 16]
      exact Nat.mod_lt _ (by positivity)
    have hbits := @bitsOf_shiftLeft_add 3 16 0x07 _ hhigh
    have hlead : bitsOf 3 0x07 = [true, true, true] := rfl
    rw [hlead] at hbits
    rw [hmask, ← List.append_assoc [true, true, true], ← hbits, ← List.append_assoc]
    have hfirst := @BitEncoder.Holds.encode be bits h (0x07 <<< 16 + nextLine >>> 16) 19
      (by omega) (by rw [Nat.shiftLeft_eq]; omega) (by omega)
    have hsecond := @BitEncoder.Holds.encode _ _ hfirst.1 (nextLine &&& 0xffff) 16
      (by omega) hlow (by rw [hfirst.2, List.length_append, length_bitsOf]; omega)
    exact ⟨hsecond.1, hsecond.2.trans hfirst.2⟩

theorem BitDecoder.Holds.exists_decodeDiff
    {bd : BitDecoder} {currLine nextLine : ℕ} {after : List Bool}
    (hnext : nextLine ≤ esbcMaxLinenumber)
    (h : bd.Holds (diffBits currLine nextLine ++ after)) :
    ∃ next, bd.decodeDiff currLine = (nextLine, next) ∧ next.Holds after := by
  have hbound : nextLine < 2 ^ 32 := by
    unfold esbcMaxLinenumber at hnext
    omega
  unfold BitDecoder.decodeDiff
  unfold diffBits at h
  dsimp only at h
  split_ifs at h with hzero hsmall hbyte
  · rcases h.exists_decodeFlag with ⟨bd₁, h₁, hbd₁⟩
    have hline : currLine = nextLine := by omega
    exact ⟨bd₁, by simp [h₁, hline], hbd₁⟩
  · rcases h.exists_decodeFlag with ⟨bd₁, h₁, hbd₁⟩
    rcases hbd₁.exists_decodeFlag with ⟨bd₂, h₂, hbd₂⟩
    rcases @exists_decode bd₂ 2 _ after (by omega) (by omega) hbd₂ with ⟨bd₃, h₃, hbd₃⟩
    have hline : (currLine + ((nextLine : ℤ) - currLine - 1).toNat + 1) % 2 ^ 32 =
        nextLine := by omega
    exact ⟨bd₃, by simpa [h₁, h₂, h₃] using hline, hbd₃⟩
  · rcases h.exists_decodeFlag with ⟨bd₁, h₁, hbd₁⟩
    rcases hbd₁.exists_decodeFlag with ⟨bd₂, h₂, hbd₂⟩
    rcases hbd₂.exists_decodeFlag with ⟨bd₃, h₃, hbd₃⟩
    rcases @exists_decode bd₃ 8 _ after (by omega) (by omega) hbd₃ with ⟨bd₄, h₄, hbd₄⟩
    have hline : (currLine + ((nextLine : ℤ) - currLine + 0x80).toNat + (2 ^ 32 - 0x80)) %
        2 ^ 32 = nextLine := by omega
    exact ⟨bd₄, by simpa [h₁, h₂, h₃, h₄] using hline, hbd₄⟩
  · have hhigh := high_half_lt hnext
    have hmask : nextLine &&& 0xffff = nextLine % 2 ^ 16 :=
      Nat.and_two_pow_sub_one_eq_mod _ 16
    rw [List.append_assoc, List.append_assoc, hmask] at h
    rcases h.exists_decodeFlag with ⟨bd₁, h₁, hbd₁⟩
    rcases hbd₁.exists_decodeFlag with ⟨bd₂, h₂, hbd₂⟩
    rcases hbd₂.exists_decodeFlag with ⟨bd₃, h₃, hbd₃⟩
    rcases @exists_decode bd₃ 16 _ _ (by omega) hhigh hbd₃ with ⟨bd₄, h₄, hbd₄⟩
    rcases @exists_decode bd₄ 16 _ after (by omega) (Nat.mod_lt _ (by positivity)) hbd₄ with
      ⟨bd₅, h₅, hbd₅⟩
    have hline : (((nextLine >>> 16) <<< 16) % 2 ^ 32 + nextLine % 2 ^ 16) % 2 ^ 32 =
        nextLine := by
      rw [Nat.shiftLeft_eq, Nat.shiftRight_eq_div_pow]
      omega
    exact ⟨bd₅, by simpa [h₁, h₂, h₃, h₄, h₅] using hline, hbd₅⟩

/-! ## Runs -/

/-- The differences of the instructions that follow one of this line. -/
def runBits (currLine : ℕ) : List CompilerInstr → List Bool
  | [] => []
  | next :: rest => diffBits currLine next.line ++ runBits next.line rest

theorem length_runBits_le (currLine : ℕ) (instrs : List CompilerInstr) :
    (runBits currLine instrs).length ≤ 35 * instrs.length := by
  induction instrs generalizing currLine with
  | nil => simp [runBits]
  | cons next rest ih =>
      have hdiff := length_diffBits_le currLine next.line
      have hrest := ih next.line
      simp only [runBits, List.length_append, List.length_cons]
      omega

/-- A run takes the instructions up to the next multiple of the skip. -/
theorem encodeRun_spec
    {be : BitEncoder} {bits : List Bool} (h : be.Holds bits) (currLine currPc : ℕ)
    (instrs : List CompilerInstr)
    (hroom : bits.length + 35 * (pc2lineSkip - 1 - currPc % pc2lineSkip) ≤ 8 * be.length) :
    ∃ next, encodeRun be currLine currPc instrs =
        (next, currPc + 1 + min (pc2lineSkip - 1 - currPc % pc2lineSkip) instrs.length,
          instrs.drop (pc2lineSkip - 1 - currPc % pc2lineSkip)) ∧
      next.Holds (bits ++
        runBits currLine (instrs.take (pc2lineSkip - 1 - currPc % pc2lineSkip))) ∧
      next.length = be.length := by
  unfold pc2lineSkip at *
  induction instrs generalizing be bits currLine currPc with
  | nil => exact ⟨be, by simp [encodeRun], by simpa [runBits] using h, rfl⟩
  | cons instr rest ih =>
      by_cases hend : (currPc + 1) % 64 = 0
      · have hnone : 64 - 1 - currPc % 64 = 0 := by omega
        refine ⟨be, ?_, by simpa [hnone, runBits] using h, rfl⟩
        simp [encodeRun, pc2lineSkip, hend, hnone]
      · have hsome : 64 - 1 - currPc % 64 = 64 - 1 - (currPc + 1) % 64 + 1 := by omega
        rcases @BitEncoder.Holds.encodeDiff _ _ h currLine _ instr.line_le (by omega) with
          ⟨hdiff, hlength⟩
        have hbits := length_diffBits_le currLine instr.line
        rcases ih hdiff instr.line (currPc + 1)
          (by rw [hlength, List.length_append]; omega) with ⟨next, hrun, hholds, hsame⟩
        refine ⟨next, ?_, ?_, hsame.trans hlength⟩
        · rw [hsome, List.drop_succ_cons, List.length_cons]
          unfold encodeRun pc2lineSkip
          rw [if_neg hend, hrun]
          congr 2
          omega
        · rw [hsome, List.take_succ_cons]
          rw [List.append_assoc] at hholds
          exact hholds

theorem decodeDiffs_spec
    {bd : BitDecoder} {currLine : ℕ} {instrs : List CompilerInstr} {after : List Bool}
    (h : bd.Holds (runBits currLine instrs ++ after)) {n : ℕ} (hn : n ≤ instrs.length) :
    some (decodeDiffs n bd currLine) = (currLine :: instrs.map CompilerInstr.line)[n]? := by
  induction n generalizing bd currLine instrs with
  | zero => rfl
  | succ n ih =>
      cases instrs with
      | nil => simp at hn
      | cons next rest =>
          rw [runBits, List.append_assoc] at h
          rcases h.exists_decodeDiff next.line_le with ⟨bd', hdecode, hafter⟩
          have hrest := ih hafter (by simpa using hn)
          unfold decodeDiffs
          rw [hdecode]
          simpa using hrest

/-! ## Tables -/

/-- The table has an entry for every run that begins before `pc`, and the
differences of the run where the entry points to. -/
structure LineTable.Packed (instrs : List CompilerInstr) (pc : ℕ) (table : LineTable) :
    Prop where
  header : table.hdr.length = 1 + (instrs.length + 63) / 64 * 2
  limit : table.hdr[0]? = some instrs.length
  run : ∀ index first, 64 * index < pc → instrs[64 * index]? = some first →
    ∃ offset pad, table.hdr[1 + index * 2]? = some first.line ∧
      table.hdr[1 + index * 2 + 1]? = some (4 * table.hdr.length + offset) ∧
      offset ≤ table.stream.length ∧
      bitsOfBytes (table.stream.drop offset) =
        runBits first.line ((instrs.drop (64 * index + 1)).take 63) ++ pad

/-- The bytes of a run, which the encoder's buffer has room for. -/
theorem exists_encodeRun
    (instrs : List CompilerInstr) {run : ℕ} {first : CompilerInstr}
    {rest : List CompilerInstr} (hdrop : instrs.drop (64 * run) = first :: rest) :
    ∃ be pad, encodeRun (.start pc2lineMaxDiffLength) first.line (64 * run) rest =
        (be, 64 * run + min 64 (instrs.length - 64 * run), instrs.drop (64 * run + 64)) ∧
      be.finish.data.length ≤ pc2lineMaxDiffLength ∧ be.finish.truncated = false ∧
      bitsOfBytes be.finish.data = runBits first.line (rest.take 63) ++ pad := by
  have hrest : rest = instrs.drop (64 * run + 1) := by
    rw [← List.drop_drop, hdrop, List.drop_one, List.tail_cons]
  have hlength : rest.length + 1 = instrs.length - 64 * run := by
    rw [← List.length_drop, hdrop, List.length_cons]
  have hslots : pc2lineSkip - 1 - 64 * run % pc2lineSkip = 63 := by
    unfold pc2lineSkip
    omega
  have hspec := encodeRun_spec (BitEncoder.holds_start pc2lineMaxDiffLength) first.line
    (64 * run) rest (by rw [hslots]; simp [BitEncoder.start, pc2lineMaxDiffLength, pc2lineSkip])
  rw [hslots] at hspec
  rcases hspec with ⟨be, hrun, hholds, hsame⟩
  have hbits := length_runBits_le first.line (rest.take 63)
  have htake : (rest.take 63).length ≤ 63 := List.length_take_le _ _
  have hmax : be.length = 276 := hsame
  rw [List.nil_append] at hholds
  rcases hholds.exists_finish (by omega) with ⟨hfits, huntruncated, pad, hpad⟩
  refine ⟨be, pad, ?_, hfits.trans hmax.le, huntruncated, hpad⟩
  rw [hrun, hrest, List.drop_drop]
  congr 2
  · rw [← hrest]
    omega

/-- One more run. -/
theorem LineTable.Packed.step
    {instrs : List CompilerInstr} {run : ℕ} {table : LineTable}
    (h : table.Packed instrs (64 * run)) {first : CompilerInstr} {rest : List CompilerInstr}
    (hdrop : instrs.drop (64 * run) = first :: rest) {data : List UInt8} {pad : List Bool}
    (hdata : bitsOfBytes data = runBits first.line (rest.take 63) ++ pad) :
    LineTable.Packed instrs (64 * run + min 64 (instrs.length - 64 * run))
      { hdr := (table.hdr.set (1 + run * 2 + 0) first.line).set (1 + run * 2 + 1) table.size
        stream := table.stream ++ data } := by
  have hlength : rest.length + 1 = instrs.length - 64 * run := by
    rw [← List.length_drop, hdrop, List.length_cons]
  have hheader := h.header
  constructor
  · simpa using hheader
  · rw [List.getElem?_set_ne (by omega), List.getElem?_set_ne (by omega)]
    exact h.limit
  · intro index other hindex hother
    dsimp only
    rw [List.length_set, List.length_set]
    rcases Nat.lt_trichotomy index run with hlt | rfl | hgt
    · rcases h.run index other (by omega) hother with
        ⟨offset, before, hline, hoffset, hle, hbits⟩
      refine ⟨offset, before ++ bitsOfBytes data, ?_, ?_, ?_, ?_⟩
      · rw [List.getElem?_set_ne (by omega), List.getElem?_set_ne (by omega), hline]
      · rw [List.getElem?_set_ne (by omega), List.getElem?_set_ne (by omega), hoffset]
      · rw [List.length_append]
        omega
      · rw [List.drop_append_of_le_length hle, bitsOfBytes_append, hbits, List.append_assoc]
    · have hfirst : other = first := by
        have hget : (instrs.drop (64 * index))[0]? = some first := by
          rw [hdrop]
          rfl
        rw [List.getElem?_drop, Nat.add_zero, hother] at hget
        exact Option.some.inj hget
      have hrest : rest = instrs.drop (64 * index + 1) := by
        rw [← List.drop_drop, hdrop, List.drop_one, List.tail_cons]
      subst hfirst
      refine ⟨table.stream.length, pad, ?_, ?_, ?_, ?_⟩
      · rw [List.getElem?_set_ne (by omega), Nat.add_zero,
          List.getElem?_set_self (by omega)]
      · rw [List.getElem?_set_self (by rw [List.length_set]; omega)]
        rfl
      · rw [List.length_append]
        omega
      · rw [List.drop_left, hdata, hrest]
    · omega

theorem packRuns_nil (fuel pc : ℕ) (table : LineTable) :
    packRuns fuel pc [] table = .ok table := by
  cases fuel <;> rfl

theorem LineTable.Packed.of_le
    {instrs : List CompilerInstr} {pc : ℕ} {table : LineTable} (h : table.Packed instrs pc)
    (hle : instrs.length ≤ pc) : table.Packed instrs instrs.length :=
  ⟨h.header, h.limit, fun index first hindex => h.run index first (by omega)⟩

theorem exists_packRuns
    {instrs : List CompilerInstr} (hinstrs : instrs.length * 8 ≤ esbcMaxBytes)
    {fuel run : ℕ} {table : LineTable} (htable : table.Packed instrs (64 * run))
    (hsize : table.stream.length ≤ pc2lineMaxDiffLength * run)
    (hrun : run ≤ (instrs.length + 63) / 64) (hfuel : instrs.length ≤ 64 * run + fuel) :
    ∃ result, packRuns fuel (64 * run) (instrs.drop (64 * run)) table = .ok result ∧
      result.Packed instrs instrs.length ∧
      result.stream.length ≤ pc2lineMaxDiffLength * ((instrs.length + 63) / 64) := by
  have hmax : pc2lineMaxDiffLength = 276 := rfl
  induction fuel generalizing run table with
  | zero =>
      rw [List.drop_eq_nil_of_le (by omega), packRuns_nil]
      exact ⟨table, rfl, htable.of_le (by omega), by rw [hmax] at hsize ⊢; omega⟩
  | succ fuel ih =>
      cases hdrop : instrs.drop (64 * run) with
      | nil =>
          rw [packRuns_nil]
          exact ⟨table, rfl, htable.of_le (List.drop_eq_nil_iff.mp hdrop),
            by rw [hmax] at hsize ⊢; omega⟩
      | cons first rest =>
          rcases exists_encodeRun instrs hdrop with ⟨be, pad, hencode, hfits, -, hdata⟩
          have hlength : rest.length + 1 = instrs.length - 64 * run := by
            rw [← List.length_drop, hdrop, List.length_cons]
          have hheader := htable.header
          have hstep := htable.step hdrop hdata
          have hindex : 64 * run / pc2lineSkip = run := by
            unfold pc2lineSkip
            omega
          have hcheck : checkBufferSize (table.size + pc2lineMaxDiffLength) = .ok () := by
            unfold checkBufferSize LineTable.size hbufferMaxBytelen
            unfold esbcMaxBytes at hinstrs
            rw [if_neg (by rw [hmax] at hsize ⊢; omega)]
          unfold packRuns
          dsimp only
          rw [hencode, hindex, hcheck]
          have hstream : (table.stream ++ be.finish.data).length ≤
              pc2lineMaxDiffLength * (run + 1) := by
            rw [List.length_append, hmax] at *
            omega
          change ∃ result, packRuns fuel _ (instrs.drop (64 * run + 64)) _ = .ok result ∧ _
          by_cases hmore : 64 * run + 64 ≤ instrs.length
          · have hnext : 64 * run + min 64 (instrs.length - 64 * run) = 64 * (run + 1) := by
              omega
            have hpc : 64 * run + 64 = 64 * (run + 1) := by omega
            rw [hnext] at hstep
            rw [hnext, hpc]
            exact ih hstep hstream (by omega) (by omega)
          · rw [List.drop_eq_nil_of_le (by omega), packRuns_nil]
            exact ⟨_, rfl, hstep.of_le (by omega), by
              dsimp only
              rw [hmax] at hstream ⊢
              omega⟩

/-! ## The words of the header -/

theorem length_flatMap_wordBytes (words : List ℕ) :
    (words.flatMap wordBytes).length = 4 * words.length := by
  induction words with
  | nil => rfl
  | cons word words ih =>
      have hword : (wordBytes word).length = 4 := by simp [wordBytes]
      rw [List.flatMap_cons, List.length_append, ih, hword, List.length_cons]
      omega

theorem LineTable.length_bytes (table : LineTable) : table.bytes.length = table.size := by
  unfold LineTable.bytes LineTable.size
  rw [List.length_append, length_flatMap_wordBytes]

theorem headerWord_bytes
    {table : LineTable} {index word : ℕ} (h : table.hdr[index]? = some word)
    (hword : word < 2 ^ 32) : headerWord table.bytes index = some word := by
  rcases List.getElem?_eq_some_iff.mp h with ⟨hlt, hget⟩
  have hsplit : table.hdr = table.hdr.take index ++ word :: table.hdr.drop (index + 1) := by
    rw [← hget, ← List.drop_eq_getElem_cons hlt, List.take_append_drop]
  have hbefore : ((table.hdr.take index).flatMap wordBytes).length = 4 * index := by
    rw [length_flatMap_wordBytes, List.length_take]
    omega
  have hbytes : table.bytes = (table.hdr.take index).flatMap wordBytes ++
      (wordBytes word ++
        ((table.hdr.drop (index + 1)).flatMap wordBytes ++ table.stream)) := by
    unfold LineTable.bytes
    conv_lhs => rw [hsplit]
    rw [List.flatMap_append, List.flatMap_cons, List.append_assoc, List.append_assoc]
  have hfour : (wordBytes word).length = 4 := by simp [wordBytes]
  have hlong : 4 * index + 4 ≤ table.bytes.length := by
    rw [hbytes, List.length_append, List.length_append, hbefore, hfour]
    omega
  unfold headerWord
  rw [if_pos hlong, hbytes, ← hbefore, List.drop_left, List.take_left' hfour]
  unfold wordBytes
  rw [List.reverse_reverse, ofBigEndian_bigEndian, Nat.mod_eq_of_lt (by omega)]

/-! ## The line of a program counter -/

/-- The line of the instruction, `0` where there is none. -/
def lineAt (instrs : List CompilerInstr) (pc : ℕ) : ℕ :=
  (instrs[pc]?.map CompilerInstr.line).getD 0

theorem exists_packed (code : EmittedCode) :
    ∃ buf, pc2linePack code = .ok buf ∧ ∃ table : LineTable,
      table.Packed code.1 code.1.length ∧ buf.1 = table.bytes := by
  have hcode := code.2
  have hskip : pc2lineSkip = 64 := rfl
  have hmax : pc2lineMaxDiffLength = 276 := rfl
  have hstart : LineTable.Packed code.1 (64 * 0)
      { hdr := code.1.length ::
          List.replicate ((code.1.length + pc2lineSkip - 1) / pc2lineSkip * 2) 0
        stream := [] } := by
    refine ⟨?_, rfl, ?_⟩
    · simp only [List.length_cons, List.length_replicate, hskip]
      omega
    · intro index first hindex
      omega
  rcases @exists_packRuns _ hcode code.1.length 0 _ hstart (by simp) (by omega) (by omega)
    with ⟨table, hruns, hpacked, hsize⟩
  have hcheck : checkBufferSize
      (4 + (code.1.length + pc2lineSkip - 1) / pc2lineSkip * 4 * 2) = .ok () := by
    unfold checkBufferSize hbufferMaxBytelen
    unfold esbcMaxBytes at hcode
    rw [hskip, if_neg (by omega)]
  have hfits : table.bytes.length ≤ hbufferMaxBytelen := by
    rw [table.length_bytes]
    unfold LineTable.size hbufferMaxBytelen
    unfold esbcMaxBytes at hcode
    rw [hpacked.header]
    rw [hmax] at hsize
    omega
  refine ⟨⟨table.bytes, hfits⟩, ?_, table, hpacked, rfl⟩
  unfold pc2linePack
  dsimp only
  rw [hcheck]
  change (Except.bind (packRuns code.1.length 0 code.1 _) _) = _
  rw [Nat.mul_zero, List.drop_zero] at hruns
  rw [hruns]
  exact dif_pos hfits

theorem pc2lineQueryRaw_of_packed
    {instrs : List CompilerInstr} {table : LineTable}
    (h : table.Packed instrs instrs.length) (hinstrs : instrs.length * 8 ≤ esbcMaxBytes)
    (hbytes : table.bytes.length ≤ hbufferMaxBytelen) (pc : ℕ) :
    pc2lineQueryRaw table.bytes pc = some (lineAt instrs pc) := by
  have hheader := h.header
  have hsize := table.length_bytes
  unfold LineTable.size at hsize
  unfold esbcMaxBytes at hinstrs
  unfold hbufferMaxBytelen at hbytes
  have hlimit := headerWord_bytes h.limit (by omega)
  unfold pc2lineQueryRaw pc2lineSkip
  dsimp only
  cases hinstr : instrs[pc]? with
  | none =>
      have hend : pc ≥ instrs.length := by simpa using hinstr
      have hzero : lineAt instrs pc = 0 := by simp [lineAt, hinstr]
      rw [hlimit, Option.bind_eq_bind, Option.bind_some, if_pos hend, hzero]
      split_ifs <;> rfl
  | some instr =>
      rcases List.getElem?_eq_some_iff.mp hinstr with ⟨hlt, hget⟩
      have hfirst : instrs[64 * (pc / 64)]? = some instrs[64 * (pc / 64)] :=
        List.getElem?_eq_getElem (by omega)
      rcases h.run (pc / 64) _ (by omega) hfirst with ⟨offset, pad, hline, hoffset, hle, hbits⟩
      have hmax := (instrs[64 * (pc / 64)]).line_le
      unfold esbcMaxLinenumber at hmax
      have hlineWord := headerWord_bytes hline (by omega)
      have hoffsetWord := headerWord_bytes hoffset (by omega)
      have hdata : table.bytes.drop (4 * table.hdr.length + offset) =
          table.stream.drop offset := by
        rw [← List.drop_drop]
        unfold LineTable.bytes
        rw [← length_flatMap_wordBytes, List.drop_left]
      have hholds := BitDecoder.holds_start (table.stream.drop offset)
      rw [hbits] at hholds
      have hdecode := @decodeDiffs_spec _ _ _ pad hholds (pc - pc / 64 * 64)
        (by rw [List.length_take, List.length_drop]; omega)
      have hrun : instrs[64 * (pc / 64)] :: (instrs.drop (64 * (pc / 64) + 1)).take 63 =
          (instrs.drop (64 * (pc / 64))).take 64 := by
        rw [List.drop_eq_getElem_cons (by omega : 64 * (pc / 64) < instrs.length),
          List.take_succ_cons]
      have hpc : 64 * (pc / 64) + (pc - pc / 64 * 64) = pc := by omega
      rw [← List.map_cons, hrun, List.getElem?_map, List.getElem?_take_of_lt (by omega),
        List.getElem?_drop, hpc, hinstr, Option.map_some] at hdecode
      rw [if_neg (by omega), hlimit, Option.bind_eq_bind, Option.bind_some,
        if_neg (by omega), hlineWord, Option.bind_some, hoffsetWord, Option.bind_some,
        if_neg (by omega), hdata]
      simp only [lineAt, hinstr, Option.map_some, Option.getD_some]
      exact hdecode

/-- Every function that can be emitted has a line table, which gives each of its
instructions the line that the compiler noted, and no run of it is too long for
the buffer of the bit encoder. -/
theorem pc2lineQueryRaw_pc2linePack (code : EmittedCode) :
    (∃ buf, pc2linePack code = .ok buf ∧
      ∀ pc, pc2lineQueryRaw buf.1 pc = some (lineAt code.1 pc)) ∧
    ∀ run first rest, code.1.drop (64 * run) = first :: rest →
      (encodeRun (.start pc2lineMaxDiffLength) first.line (64 * run) rest).1.finish.truncated =
        false := by
  rcases exists_packed code with ⟨buf, hpack, table, hpacked, hbytes⟩
  refine ⟨⟨buf, hpack, ?_⟩, ?_⟩
  · intro pc
    rw [hbytes]
    exact pc2lineQueryRaw_of_packed hpacked code.2 (hbytes ▸ buf.2) pc
  · intro run first rest hdrop
    rcases exists_encodeRun code.1 hdrop with ⟨be, _, hencode, _, huntruncated, _⟩
    rw [hencode]
    exact huntruncated

end NekoScript
