import NekoScript.DuktapeStrings
import Mathlib.Tactic

/-!
# JS values as native code receives them

The accessors of the Duktape API that the natives use, on values that carry
the addresses `duk_get_string` and `duk_get_buffer_data` return.
-/

namespace NekoScript

/-- An IEEE double, as far as its coercions depend on it. -/
inductive DukNumber where
  | nan
  | infinite (negative : Bool)
  | finite (value : ℚ)
  deriving DecidableEq

def hstringMaxBytelen : ℕ := 0x7fffffff

def hbufferMaxBytelen : ℕ := 0x7ffffffe

structure HString where
  bytes : DukString
  data : ℕ
  data_pos : 0 < data
  length_le : bytes.length ≤ hstringMaxBytelen

/-- A plain buffer.  Its data pointer may be null, but only if it is empty. -/
structure HBuffer where
  bytes : List UInt8
  data : ℕ
  bytes_of_null : data = 0 → bytes = []
  length_le : bytes.length ≤ hbufferMaxBytelen

/-- A view of a slice of a plain buffer. -/
structure HBufferObject where
  buf : Option HBuffer
  offset : ℕ
  length : ℕ

inductive DukValue where
  | undefined
  | null
  | boolean (value : Bool)
  | number (value : DukNumber)
  | string (h : HString)
  | buffer (h : HBuffer)
  | bufferObject (h : HBufferObject)
  | object
  | pointer (value : ℕ)
  | lightfunc

inductive JSError where
  | requireType (expectName : String) (index : ℤ)
  | typeError (message : DukString)
  | rangeError (message : DukString)
  | apiError (message : DukString)
  deriving DecidableEq, Repr

/-- `duk_push_fixed_buffer`, filled with zeros. -/
def pushFixedBuffer (size : ℕ) : Except JSError (List UInt8) :=
  if size > hbufferMaxBytelen then
    .error (.rangeError (lexerString "buffer too long".toList))
  else .ok (List.replicate size 0)

/-- `duk_push_string`: the string it pushes. -/
def pushString (bytes : List UInt8) : Except JSError DukString :=
  let str := cString bytes
  if str.length > hstringMaxBytelen then
    .error (.rangeError (lexerString "string too long".toList))
  else .ok str

theorem pushString_of_zero_notMem
    {bytes : List UInt8} (hzero : 0 ∉ bytes) :
    pushString bytes =
      if bytes.length > hstringMaxBytelen then
        .error (.rangeError (lexerString "string too long".toList))
      else .ok bytes := by
  unfold pushString
  rw [cString_eq_self hzero]

def DukNumber.coerceUint : DukNumber → ℕ
  | .nan => 0
  | .infinite negative => if negative then 0 else 0xffffffff
  | .finite value =>
      if value < 0 then 0
      else if value > 0xffffffff then 0xffffffff
      else ⌊value⌋.toNat

namespace DukValue

def isNumber : DukValue → Bool
  | .number _ => true
  | _ => false

def isNullOrUndefined : DukValue → Bool
  | .null | .undefined => true
  | _ => false

def isString : DukValue → Bool
  | .string _ => true
  | _ => false

def getUint : DukValue → ℕ
  | .number value => value.coerceUint
  | _ => 0

def getString : DukValue → ℕ
  | .string h => h.data
  | _ => 0

def requireString (index : ℤ) : DukValue → Except JSError DukString
  | .string h => .ok h.bytes
  | _ => .error (.requireType "string" index)

/-- `duk__get_buffer_data_helper`: the pointer, and the bytes it points to. -/
def bufferData : DukValue → Option (ℕ × List UInt8)
  | .buffer h => some (h.data, h.bytes)
  | .bufferObject h =>
      match h.buf with
      | some buf =>
          if h.offset + h.length ≤ buf.bytes.length then
            some (buf.data + h.offset, (buf.bytes.drop h.offset).take h.length)
          else none
      | none => none
  | _ => none

/-- `duk_get_buffer_data`: the pointer, null if there is no buffer data. -/
def getBufferData (v : DukValue) : ℕ :=
  (v.bufferData.map Prod.fst).getD 0

/-- `duk_require_buffer_data`: the bytes from the pointer on, as many as
`out_size` says. -/
def requireBufferData (index : ℤ) (v : DukValue) :
    Except JSError (List UInt8) :=
  match v.bufferData with
  | some (_, bytes) => .ok bytes
  | none => .error (.requireType "buffer" index)

end DukValue

end NekoScript
