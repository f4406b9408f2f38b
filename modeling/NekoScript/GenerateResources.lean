import NekoScript.CSourceText
import Mathlib.Tactic

/-!
# The resource generator

`GenerateResources.neko.js` writes a header with a macro for each resource and
two tables: rows of index, offset and length, and the contents one after the
other, each followed by a zero byte.  It throws when a text becomes too long for
the engine.  `Resource.cpp` looks a resource up by the index its macro expands to.
-/

namespace NekoScript

open CSourceText

/-- The bytes of the longest string that `+` and `join` can make: the limit of
strings is 0x7fffffff, but the result is put into a buffer first. -/
def textLimit : ℕ := min 0x7fffffff 0x7ffffffe

/-- `none` is the RangeError.  All texts here are ASCII. -/
def limited (text : List Char) : Option (List Char) :=
  if text.length ≤ textLimit then some text else none

def concat (text other : List Char) : Option (List Char) := limited (text ++ other)

/-- `a + b + c` -/
def concatAll : List (List Char) → Option (List Char)
  | [] => some []
  | text :: texts => texts.foldlM concat text

/-- `texts.join("")` -/
def join (texts : List (List Char)) : Option (List Char) := limited texts.flatten

def toInt32 (i : ℕ) : ℤ := Int.bmod i 4294967296

def hexPad (i : ℕ) : List Char :=
  let padded := "0000000".toList ++ Nat.toDigits 16 (toInt32 i + 4294967296).toNat
  "0x".toList ++ padded.drop (padded.length - 8)

structure ResourceTexts where
  header : List Char
  index : ℕ
  offset : ℕ
  blocks : List (List UInt8)
  blockTag : List (List Char)
  metas : List Char

def ResourceTexts.initial : ResourceTexts where
  header := []
  index := 0
  offset := 0
  blocks := []
  blockTag := []
  metas := []

def addResource (g : ResourceTexts) (name : List Char) (content : List UInt8) :
    Option ResourceTexts := do
  let definition ← concatAll
    ["#define NEKORES_".toList, name, "\t".toList, hexPad g.index]
  let header ← concat g.header definition
  let row ← concatAll ["    \x7b".toList, hexPad g.index, ", ".toList, hexPad g.offset,
    ", ".toList, hexPad content.length, "\x7d, //".toList, name, "\n".toList]
  let metas ← concat g.metas row
  return { g with
    header := header
    metas := metas
    blocks := g.blocks ++ [content]
    blockTag := g.blockTag ++ [name]
    offset := g.offset + (content.length + 1) }

/-- `"   " + String(byte)` cut to its last three characters, and a comma. -/
def hexDumpCell (byte : UInt8) : List Char :=
  let c := "   ".toList ++ Nat.toDigits 10 byte.toNat
  c.drop (c.length - 3) ++ ", ".toList

def hexDumpResult (data : List UInt8) : List (List Char) :=
  data.zipIdx.flatMap fun (byte, i) =>
    (if i % 16 = 0 then ["\n".toList] else []) ++ [hexDumpCell byte]

def generateHexDump (data : List UInt8) : Option (List Char) := join (hexDumpResult data)

def metaTable (g : ResourceTexts) : Option (List Char) :=
  ["const _NekoRes_Meta_t _NekoRes_Meta[] = \x7b\n".toList, g.metas, "\x7d;\n".toList,
    "\n".toList].foldlM concat []

/-- One turn of the loop over `blocks`. -/
def appendBlock (code : List Char) (block : List UInt8 × List Char) :
    Option (List Char) := do
  let comment ← concat "\n// ".toList block.2
  let code ← concat code comment
  let dump ← generateHexDump block.1
  let code ← concat code dump
  concat code "\n  0,".toList

def generateCode (g : ResourceTexts) : Option (List Char) := do
  let code ← metaTable g
  let code ← concat code "const unsigned char _NekoRes_Payload[] = \x7b".toList
  let code ← (g.blocks.zip g.blockTag).foldlM appendBlock code
  concat code "\n\x7d;".toList

structure Resource where
  name : List Char
  content : List UInt8
  deriving DecidableEq, Repr

/-- What the script writes in the end. -/
structure GeneratedFiles where
  code : List Char
  header : List Char
  deriving DecidableEq, Repr

/-- The calls of `addResource`, and what follows them. -/
def generate (resources : List Resource) : Option GeneratedFiles := do
  let g ← resources.foldlM (fun g r => addResource g r.name r.content) .initial
  let code ← generateCode g
  return ⟨code, g.header⟩

/-! ## `Resource.cpp` -/

structure NekoResMeta where
  index : ℕ
  offset : ℕ
  length : ℕ
  deriving DecidableEq, Repr

structure NekoResTables where
  metas : List NekoResMeta
  payload : List ℕ
  deriving DecidableEq, Repr

def parseMeta (input : List Token) : Option (NekoResMeta × List Token) :=
  match parseBraced parseNumber input with
  | some ([index, offset, length], rest) => some (⟨index, offset, length⟩, rest)
  | _ => none

/-- Compiling the two tables of `Resource.generated.cpp`; the payload must fit
`unsigned char`. -/
def compileTables (code : List Char) : Option NekoResTables :=
  let input := tokens code
  match arrayElements parseMeta "_NekoRes_Meta".toList input,
      arrayElements parseNumber "_NekoRes_Payload".toList input with
  | some metas, some payload =>
      if payload.all (· < 256) then some ⟨metas, payload⟩ else none
  | _, _ => none

/-- `NekoResGet`: what the pointer it returns points to. -/
def nekoResGet (tables : NekoResTables) (index : ℕ) : Option (List ℕ) :=
  tables.metas[index]?.map fun row => tables.payload.drop row.offset

def nekoResLength (tables : NekoResTables) (index : ℕ) : Option ℕ :=
  tables.metas[index]?.map NekoResMeta.length

/-- The index that the macro of a resource expands to. -/
def resourceIndex (header : List Char) (name : List Char) : Option ℕ :=
  expandInteger (macros header) ("NEKORES_".toList ++ name)

end NekoScript
