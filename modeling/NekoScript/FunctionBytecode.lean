import NekoScript.EnvironmentBlock
import NekoScript.SequentialReaders
import Mathlib.Tactic

/-!
# Compiled functions and their bytecode

`duk_dump_function` writes a compiled function, with the functions nested in
it, as a sequence of bytes; `duk_load_function` builds a function from such a
sequence.  The loader does not check where its input ends, so reading past the
end is an outcome of its own here; what the process does then is undefined.
-/

namespace NekoScript

open SequentialReaders

/-- A string that the engine can hold. -/
abbrev EngineString := { s : DukString // s.length ≤ hstringMaxBytelen }

abbrev EngineBuffer := { b : List UInt8 // b.length ≤ hbufferMaxBytelen }

def EngineString.empty : EngineString := ⟨[], Nat.zero_le _⟩

def EngineBuffer.empty : EngineBuffer := ⟨[], Nat.zero_le _⟩

/-- A name of a variable or a formal argument: `duk_get_length` is not zero. -/
abbrev VariableName := { s : EngineString // unvalidatedUtf8Length s.1 ≠ 0 }

/-- `_Varmap`: the names, in order, and their registers. -/
structure Varmap where
  entries : List (VariableName × UInt32)
  distinct : (entries.map Prod.fst).Nodup
  deriving DecidableEq

def Varmap.empty : Varmap := ⟨[], List.nodup_nil⟩

inductive BytecodeConstant where
  | string (value : EngineString)
  | number (bits : UInt64)
  deriving DecidableEq

/-- The properties of a function object that its bytecode carries, where they
exist and have the type that the dump expects. -/
structure FunctionProperties where
  length : Option UInt32
  name : Option EngineString
  fileName : Option EngineString
  pc2line : Option EngineBuffer
  varmap : Option Varmap
  formals : Option (List VariableName)
  /-- The name that an environment of the function's own binds to it. -/
  lexenv : Option EngineString
  deriving DecidableEq

structure FunctionParts where
  nregs : UInt16
  nargs : UInt16
  flags : UInt32
  instructions : List UInt32
  consts : List BytecodeConstant
  properties : FunctionProperties
  deriving DecidableEq

inductive CompiledFunction where
  | mk (parts : FunctionParts) (funcs : List CompiledFunction)

namespace CompiledFunction

def parts : CompiledFunction → FunctionParts
  | mk parts _ => parts

def funcs : CompiledFunction → List CompiledFunction
  | mk _ funcs => funcs

mutual

/-- The function and all that are nested in it. -/
def nested : CompiledFunction → List CompiledFunction
  | mk parts funcs => mk parts funcs :: nestedIn funcs

def nestedIn : List CompiledFunction → List CompiledFunction
  | [] => []
  | func :: funcs => nested func ++ nestedIn funcs

end

mutual

theorem induction {P : CompiledFunction → Prop}
    (mk : ∀ parts (funcs : List CompiledFunction),
      (∀ func ∈ funcs, P func) → P (.mk parts funcs)) :
    ∀ func, P func
  | .mk parts funcs => mk parts funcs (induction_list mk funcs)

theorem induction_list {P : CompiledFunction → Prop}
    (mk : ∀ parts (funcs : List CompiledFunction),
      (∀ func ∈ funcs, P func) → P (.mk parts funcs)) :
    ∀ (funcs : List CompiledFunction), ∀ func ∈ funcs, P func
  | [], _, hmem => absurd hmem List.not_mem_nil
  | first :: funcs, func, hmem => by
      rcases List.mem_cons.mp hmem with heq | hrest
      · rw [heq]
        exact induction mk first
      · exact induction_list mk funcs func hrest

end

theorem nestedIn_eq (funcs : List CompiledFunction) :
    nestedIn funcs = funcs.flatMap nested := by
  induction funcs with
  | nil => rfl
  | cons func funcs ih => rw [nestedIn, ih, List.flatMap_cons]

theorem mem_nested_iff {g func : CompiledFunction} :
    g ∈ func.nested ↔ g = func ∨ ∃ inner ∈ func.funcs, g ∈ inner.nested := by
  cases func with
  | mk parts funcs => simp [nested, nestedIn_eq, CompiledFunction.funcs]

theorem self_mem_nested (func : CompiledFunction) : func ∈ func.nested :=
  mem_nested_iff.mpr (.inl rfl)

end CompiledFunction

namespace CompiledFunction

mutual

/-- The slots of the value stack that loading the function takes: one each for
the function, its data buffer and every constant, and those of the inner
functions, each of which is loaded above the ones before it. -/
def slots : CompiledFunction → ℕ
  | mk parts funcs => 2 + parts.consts.length + slotsIn funcs

def slotsIn : List CompiledFunction → ℕ
  | [] => 0
  | func :: funcs => max (slots func) (1 + slotsIn funcs)

end

theorem slotsIn_le_iff {room : ℕ} (funcs : List CompiledFunction) :
    slotsIn funcs ≤ room ↔
      funcs.length ≤ room ∧ ∀ i (hi : i < funcs.length), slots funcs[i] + i ≤ room := by
  induction funcs generalizing room with
  | nil => simp [slotsIn]
  | cons func funcs ih =>
      rw [slotsIn, max_le_iff]
      constructor
      · rintro ⟨hfirst, hrest⟩
        have hrest := (@ih (room - 1)).mp (by omega)
        refine ⟨by rw [List.length_cons]; omega, ?_⟩
        intro i hi
        cases i with
        | zero => exact hfirst
        | succ i =>
            have hslots := hrest.2 i (Nat.lt_of_succ_lt_succ hi)
            rw [List.getElem_cons_succ]
            omega
      · rintro ⟨hlength, hslots⟩
        rw [List.length_cons] at hlength
        refine ⟨hslots 0 (Nat.zero_lt_succ _), ?_⟩
        have hrest := (@ih (room - 1)).mpr ⟨by omega, ?_⟩
        · omega
        · intro i hi
          have hslots := hslots (i + 1) (Nat.succ_lt_succ hi)
          rw [List.getElem_cons_succ] at hslots
          omega

/-- What is asked for when the function is loaded, and what is left when its
inner functions are. -/
theorem slots_le_iff {room : ℕ} (func : CompiledFunction) :
    func.slots ≤ room ↔
      2 + func.parts.consts.length + func.funcs.length ≤ room ∧
        ∀ i (hi : i < func.funcs.length),
          func.funcs[i].slots ≤ room - (2 + func.parts.consts.length + i) := by
  cases func with
  | mk parts funcs =>
      simp only [slots, CompiledFunction.parts, CompiledFunction.funcs]
      constructor
      · intro h
        have hinner := (@slotsIn_le_iff (room - (2 + parts.consts.length)) funcs).mp
          (by omega)
        refine ⟨by omega, ?_⟩
        intro i hi
        have hslots := hinner.2 i hi
        omega
      · rintro ⟨hown, hinner⟩
        have hslots := (@slotsIn_le_iff (room - (2 + parts.consts.length)) funcs).mpr
          ⟨by omega, ?_⟩
        · omega
        · intro i hi
          have hi' := hinner i hi
          omega

end CompiledFunction

/-! ## Writing -/

def u16Bytes (value : UInt16) : List UInt8 := bigEndian 2 value.toNat

def u32Bytes (value : UInt32) : List UInt8 := bigEndian 4 value.toNat

/-- `DUK_RAW_WRITE_DOUBLE_BE` -/
def doubleBytes (bits : UInt64) : List UInt8 := bigEndian 8 bits.toNat

/-- `(duk_uint32_t)` of a length. -/
def countU32 (length : ℕ) : UInt32 := .ofNat length

def serMarker : UInt8 := 0xff

def serVersion : UInt8 := 0x00

def serString : UInt8 := 0x00

def serNumber : UInt8 := 0x01

/-- `duk__dump_hstring_raw` -/
def dumpHstringRaw (h : EngineString) : List UInt8 := u32Bytes (countU32 h.1.length) ++ h.1

/-- `duk__dump_hbuffer_raw` -/
def dumpHbufferRaw (h : EngineBuffer) : List UInt8 := u32Bytes (countU32 h.1.length) ++ h.1

/-- `duk__dump_string_prop` -/
def dumpStringProp (property : Option EngineString) : List UInt8 :=
  dumpHstringRaw (property.getD EngineString.empty)

/-- `duk__dump_buffer_prop` -/
def dumpBufferProp : Option EngineBuffer → List UInt8
  | some h => dumpHbufferRaw h
  | none => u32Bytes 0

/-- `duk__dump_uint32_prop` -/
def dumpUint32Prop (property : Option UInt32) (defValue : UInt32) : List UInt8 :=
  u32Bytes (property.getD defValue)

def dumpVarmapEntry (entry : VariableName × UInt32) : List UInt8 :=
  dumpHstringRaw entry.1.1 ++ u32Bytes entry.2

/-- `duk__dump_varmap` -/
def dumpVarmap (varmap : Option Varmap) : List UInt8 :=
  (varmap.getD Varmap.empty).entries.flatMap dumpVarmapEntry ++ u32Bytes 0

/-- `duk__dump_formals` -/
def dumpFormals (formals : Option (List VariableName)) : List UInt8 :=
  (formals.getD []).flatMap (fun name => dumpHstringRaw name.1) ++ u32Bytes 0

def dumpConstant : BytecodeConstant → List UInt8
  | .string h => serString :: dumpHstringRaw h
  | .number bits => serNumber :: doubleBytes bits

/-- `DUK_HEAPHDR_FLAGS_FLAG_MASK` -/
def flagMask : UInt32 := 0xfffffffc

/-- The fixed header info.  There is no debugger, so no line is known. -/
def dumpHeader (parts : FunctionParts) (countFuncs : ℕ) : List UInt8 :=
  u32Bytes (countU32 parts.instructions.length) ++
    (u32Bytes (countU32 parts.consts.length) ++
      (u32Bytes (countU32 countFuncs) ++
        (u16Bytes parts.nregs ++
          (u16Bytes parts.nargs ++
            ((u32Bytes 0 ++ u32Bytes 0) ++ u32Bytes (parts.flags &&& flagMask))))))

def dumpProperties (nargs : UInt16) (properties : FunctionProperties) : List UInt8 :=
  dumpUint32Prop properties.length nargs.toUInt32 ++
    (dumpStringProp properties.name ++
      (dumpStringProp properties.fileName ++
        (dumpBufferProp properties.pc2line ++
          (dumpVarmap properties.varmap ++ dumpFormals properties.formals))))

mutual

/-- `duk__dump_func` -/
def dumpFunc : CompiledFunction → List UInt8
  | .mk parts funcs =>
      dumpHeader parts funcs.length ++
        (parts.instructions.flatMap u32Bytes ++
          (parts.consts.flatMap dumpConstant ++
            (dumpFuncs funcs ++ dumpProperties parts.nargs parts.properties)))

/-- The inner functions, one after another. -/
def dumpFuncs : List CompiledFunction → List UInt8
  | [] => []
  | func :: funcs => dumpFunc func ++ dumpFuncs funcs

end

/-- What `duk_dump_function` writes. -/
def bytecodeOf (func : CompiledFunction) : List UInt8 :=
  serMarker :: serVersion :: dumpFunc func

/-- `DUK_HOBJECT_IS_COMPILEDFUNCTION` -/
def isCompiledFunction (flags : UInt32) : Bool := flags &&& 0x400 ≠ 0

/-- `duk_err_require_type_index` -/
def compiledFunctionRequired : JSError := .requireType "compiledfunction" (-1)

def bufferTooLongError : JSError := .rangeError (lexerString "buffer too long".toList)

/-- `duk_dump_function` of the function on top of the value stack. -/
def dukDumpFunction (func : CompiledFunction) : Except JSError (List UInt8) :=
  if !isCompiledFunction func.parts.flags then .error compiledFunctionRequired
  else if (bytecodeOf func).length > hbufferMaxBytelen then .error bufferTooLongError
  else .ok (bytecodeOf func)

theorem dumpFuncs_eq (funcs : List CompiledFunction) :
    dumpFuncs funcs = funcs.flatMap dumpFunc := by
  induction funcs with
  | nil => rfl
  | cons func funcs ih => rw [dumpFuncs, ih, List.flatMap_cons]

/-! ## Reading -/

abbrev BytecodeReader := Reader UInt8 JSError

def readU16 : BytecodeReader UInt16 := do
  let bytes ← Reader.symbols 2
  return .ofNat (ofBigEndian bytes.1)

def readU32 : BytecodeReader UInt32 := do
  let bytes ← Reader.symbols 4
  return .ofNat (ofBigEndian bytes.1)

/-- `DUK_RAW_READ_DOUBLE_BE` -/
def readDouble : BytecodeReader UInt64 := do
  let bytes ← Reader.symbols 8
  return .ofNat (ofBigEndian bytes.1)

def decodeFailed : JSError := .typeError (lexerString "decode failed".toList)

def stringTooLongError : JSError := .rangeError (lexerString "string too long".toList)

/-- `duk__load_string_raw`: `duk_push_lstring` looks at the length before it
looks at the bytes. -/
def loadStringRaw : BytecodeReader EngineString := do
  let len ← readU32
  if h : len.toNat ≤ hstringMaxBytelen then do
    let bytes ← Reader.symbols len.toNat
    return ⟨bytes.1, bytes.2.trans_le h⟩
  else Reader.fail stringTooLongError

/-- `duk__load_buffer_raw` -/
def loadBufferRaw : BytecodeReader EngineBuffer := do
  let len ← readU32
  if h : len.toNat ≤ hbufferMaxBytelen then do
    let bytes ← Reader.symbols len.toNat
    return ⟨bytes.1, bytes.2.trans_le h⟩
  else Reader.fail bufferTooLongError

/-- The next name of a table, `none` at its end. -/
def loadName : BytecodeReader (Option VariableName) := do
  let s ← loadStringRaw
  if h : unvalidatedUtf8Length s.1 = 0 then return none
  else return some ⟨s, h⟩

def loadVarmapEntry : BytecodeReader (Option (VariableName × UInt32)) := do
  match ← loadName with
  | none => return none
  | some name =>
      let register ← readU32
      return some (name, register)

/-- `duk_put_prop` of a number on an object that inherits from `Object.prototype`
as the engine makes it: the setter of `__proto__` ignores a number, and nothing
else in it has a setter or is read-only. -/
def Varmap.put (varmap : Varmap) (entry : VariableName × UInt32) : Varmap :=
  if entry.1.1.1 = protoKey then varmap
  else if hmem : entry.1 ∈ varmap.entries.map Prod.fst then
    { entries := varmap.entries.map fun old => if old.1 = entry.1 then entry else old
      distinct := by
        have hnames : (varmap.entries.map fun old =>
            if old.1 = entry.1 then entry else old).map Prod.fst =
              varmap.entries.map Prod.fst := by
          rw [List.map_map]
          apply List.map_congr_left
          intro old hold
          by_cases heq : old.1 = entry.1
          · simp [heq]
          · simp [heq]
        rw [hnames]
        exact varmap.distinct }
  else
    { entries := varmap.entries ++ [entry]
      distinct := by
        rw [List.map_append, List.nodup_append]
        refine ⟨varmap.distinct, List.nodup_singleton _, ?_⟩
        intro name hname other hother heq
        have hother' : other = entry.1 := by simpa using hother
        exact hmem (hother' ▸ heq ▸ hname) }

def loadVarmap (fuel : ℕ) : BytecodeReader Varmap := do
  let entries ← loadVarmapEntry.terminated fuel
  return entries.foldl Varmap.put Varmap.empty

/-- The names are put under indices, for which `Array.prototype` as the engine makes
it has no setters. -/
def loadFormals (fuel : ℕ) : BytecodeReader (List VariableName) :=
  loadName.terminated fuel

def loadConstant : BytecodeReader BytecodeConstant := do
  let constType ← Reader.symbol
  if constType = serString then do
    let h ← loadStringRaw
    return .string h
  else if constType = serNumber then do
    let bits ← readDouble
    return .number bits
  else Reader.fail decodeFailed

structure FunctionHeader where
  countInstr : UInt32
  countConst : UInt32
  countFuncs : UInt32
  nregs : UInt16
  nargs : UInt16
  flags : UInt32
  deriving DecidableEq

/-- `DUK_HTYPE_OBJECT` -/
def htypeObject : UInt32 := 2

/-- `sizeof(duk_tval) * count_const + sizeof(duk_hobject *) * count_funcs +
sizeof(duk_instr_t) * count_instr`, as a `duk_size_t`. -/
def dataSize (countInstr countConst countFuncs : ℕ) : ℕ :=
  (8 * countConst + 4 * countFuncs + 4 * countInstr) % 2 ^ 32

def valstackLimitError : JSError := .rangeError (lexerString "valstack limit".toList)

/-- `duk_require_stack`, where the engine grants `room` more slots.  Counts whose
sum is no `duk_idx_t` are refused here; the engine does so at a push. -/
def requireStack (room extra : ℕ) : BytecodeReader Unit :=
  if extra ≤ room then return () else Reader.fail valstackLimitError

/-- Up to the data buffer.  The new object has its type already, and
`DUK_HEAPHDR_SET_FLAGS` adds the flags to it. -/
def loadHeader (room : ℕ) : BytecodeReader FunctionHeader := do
  let countInstr ← readU32
  let countConst ← readU32
  let countFuncs ← readU32
  requireStack room (2 + countConst.toNat + countFuncs.toNat)
  let nregs ← readU16
  let nargs ← readU16
  let _ ← Reader.symbols 8
  let flags ← readU32
  if dataSize countInstr.toNat countConst.toNat countFuncs.toNat > hbufferMaxBytelen then
    Reader.fail bufferTooLongError
  else
    return ⟨countInstr, countConst, countFuncs, nregs, nargs, htypeObject ||| flags⟩

/-- `DUK_HOBJECT_HAS_NAMEBINDING` -/
def hasNamebinding (flags : UInt32) : Bool := flags &&& 0x40000 ≠ 0

def loadProperties (fuel : ℕ) (flags : UInt32) : BytecodeReader FunctionProperties := do
  let length ← readU32
  let name ← loadStringRaw
  let fileName ← loadStringRaw
  let pc2line ← loadBufferRaw
  let varmap ← loadVarmap fuel
  let formals ← loadFormals fuel
  return {
    length := some length
    name := some name
    fileName := some fileName
    pc2line := some pc2line
    varmap := some varmap
    formals := some formals
    lexenv := if hasNamebinding flags then some name else none }

/-- `duk__load_func`, with `room` slots of the value stack to be had above what is
on it.  The fuel bounds the depth of the nesting and the length of the tables. -/
def loadFunc : (fuel room : ℕ) → BytecodeReader CompiledFunction
  | 0, _ => Reader.outOfFuel
  | fuel + 1, room => do
      let header ← loadHeader room
      let instructions ← readU32.counted header.countInstr.toNat
      let consts ← loadConstant.counted header.countConst.toNat
      -- below an inner function are the function, its data buffer, the constants
      -- and the inner functions before it
      let funcs ← Reader.each
        (fun i => loadFunc fuel (room - (2 + header.countConst.toNat + i)))
        0 header.countFuncs.toNat
      let properties ← loadProperties fuel header.flags
      return .mk ⟨header.nregs, header.nargs, header.flags, instructions, consts,
        properties⟩ funcs

/-- `duk_load_function` of a buffer with these bytes.  What is left of the
buffer is not looked at. -/
def dukLoadFunction (room : ℕ) : List UInt8 → Reading UInt8 JSError CompiledFunction
  | marker :: version :: bytes =>
      if marker = serMarker ∧ version = serVersion then
        (loadFunc (bytes.length + 1) room).read bytes
      else .failed decodeFailed
  | _ => .failed decodeFailed

end NekoScript
