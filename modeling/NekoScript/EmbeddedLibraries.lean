import NekoScript.BytecodeRoundTrip
import NekoScript.ResourceLayout
import Mathlib.Tactic

/-!
# The libraries inside the engine

The build compiles a library, dumps its function and writes the bytes into a C
source file.  The engine that is built from it configures an external buffer on
the bytes and loads the function again.
-/

namespace NekoScript

open CSourceText SequentialReaders

/-- A library, the function that its text compiles to, and the dump of it. -/
structure EmbeddedLibrary where
  name : List Char
  func : CompiledFunction
  dumped : List UInt8
  dump_eq : dukDumpFunction func = .ok dumped

/-- What `addResource` is given for it. -/
def EmbeddedLibrary.resource (library : EmbeddedLibrary) : Resource where
  name := library.name
  content := library.dumped

/-- The external buffer on a resource, if it lies within the payload. -/
def externalBuffer (tables : NekoResTables) (index : ℕ) : Option (List UInt8) := do
  let data ← nekoResGet tables index
  let length ← nekoResLength tables index
  if length ≤ data.length then some ((data.take length).map UInt8.ofNat) else none

/-- The function that `JSEventEmitter::setup` calls, loaded with `room` slots of the
value stack to be had. -/
def loadEmbedded (room : ℕ) (tables : NekoResTables) (index : ℕ) :
    Option (Reading UInt8 JSError CompiledFunction) :=
  (externalBuffer tables index).map (dukLoadFunction room)

/-- Libraries that the build accepts. -/
structure Embeddable (libraries : List EmbeddedLibrary) : Prop where
  nonempty : libraries ≠ []
  names : ∀ library ∈ libraries, IsIdentifier library.name
  storable : ∀ library ∈ libraries, library.func.Storable
  /-- The generated code is no longer than a string of the engine can be. -/
  fits : codeSize (libraries.map EmbeddedLibrary.resource) ≤ textLimit

namespace Embeddable

variable {libraries : List EmbeddedLibrary} (h : Embeddable libraries)

include h

theorem isWord_names :
    ∀ r ∈ libraries.map EmbeddedLibrary.resource, IsWord r.name := by
  intro r hmem
  rcases List.mem_map.mp hmem with ⟨library, hlibrary, rfl⟩
  exact (h.names library hlibrary).word

theorem exists_tables :
    ∃ tables, compileTables (codeText (libraries.map EmbeddedLibrary.resource)) =
      some tables :=
  ⟨_, compileTables_codeText h.isWord_names (by simp [h.nonempty])⟩

theorem blockOffset_add_lt {k : ℕ} (hk : k < libraries.length) :
    blockOffset (libraries.map EmbeddedLibrary.resource) k +
      libraries[k].dumped.length < 2 ^ 32 := by
  have hlength : k < (libraries.map EmbeddedLibrary.resource).length := by simpa using hk
  have hnext := blockOffset_succ (libraries.map EmbeddedLibrary.resource) hlength
  have hend : blockOffset (libraries.map EmbeddedLibrary.resource) (k + 1) ≤
      blockOffset (libraries.map EmbeddedLibrary.resource)
        (libraries.map EmbeddedLibrary.resource).length :=
    blockOffset_le _ hlength
  have htotal : blockOffset (libraries.map EmbeddedLibrary.resource)
      (libraries.map EmbeddedLibrary.resource).length =
        ((libraries.map EmbeddedLibrary.resource).map fun r => r.content.length + 1).sum := by
    unfold blockOffset
    rw [List.take_length]
  have hpayload := length_payload_le_codeSize (libraries.map EmbeddedLibrary.resource)
  have hfits := h.fits
  have hlimit : textLimit < 2 ^ 32 := by decide
  rw [List.getElem_map] at hnext
  simp only [EmbeddedLibrary.resource] at hnext
  omega

theorem externalBuffer_eq {tables : NekoResTables}
    (htables : compileTables (codeText (libraries.map EmbeddedLibrary.resource)) =
      some tables)
    {k : ℕ} (hk : k < libraries.length) :
    externalBuffer tables k = some libraries[k].dumped := by
  have hbound := h.blockOffset_add_lt hk
  have hrow : (rowsFrom 0 (libraries.map EmbeddedLibrary.resource))[k]? =
      some (blockOffset (libraries.map EmbeddedLibrary.resource) k,
        libraries[k].resource) := by
    rw [getElem?_rowsFrom, List.getElem?_map, List.getElem?_eq_getElem hk]
    simp
  rcases nekoResGet_of_row h.isWord_names htables hrow (by simp only; omega)
    (by simp only [EmbeddedLibrary.resource]; omega) with ⟨hlength, data, hdata, hbytes⟩
  have hinside : libraries[k].dumped.length ≤ data.length := by
    have hcount := congrArg List.length hbytes
    rw [List.length_take, List.length_map] at hcount
    exact min_eq_left_iff.mp hcount
  have hback : (libraries[k].dumped.map UInt8.toNat).map UInt8.ofNat =
      libraries[k].dumped := by
    rw [List.map_map]
    exact (List.map_congr_left fun byte _ => UInt8.ofNat_toNat).trans (List.map_id _)
  unfold externalBuffer
  rw [hdata, hlength]
  change (if libraries[k].dumped.length ≤ data.length then
    some ((data.take libraries[k].dumped.length).map UInt8.ofNat)
      else none) = _
  rw [if_pos hinside]
  exact congrArg some ((congrArg (List.map UInt8.ofNat) hbytes).trans hback)

theorem loadEmbedded_eq {tables : NekoResTables}
    (htables : compileTables (codeText (libraries.map EmbeddedLibrary.resource)) =
      some tables)
    (room : ℕ) {k : ℕ} (hk : k < libraries.length) :
    loadEmbedded room tables k = some (dukLoadFunction room (libraries[k].dumped ++ [])) := by
  unfold loadEmbedded
  rw [h.externalBuffer_eq htables hk, Option.map_some, List.append_nil]

end Embeddable

/-- The code that is generated for any libraries compiles, and at its index each
library is loaded as the function it was compiled to, without a byte left over,
if and only if the value stack has the slots that this takes and no function in it
has a variable named `__proto__`. -/
theorem loadEmbedded_iff
    {libraries : List EmbeddedLibrary} (h : Embeddable libraries)
    (hobject : ∀ library ∈ libraries, ∀ g ∈ library.func.nested, g.parts.IsObject) :
    ∃ files tables,
      generate (libraries.map EmbeddedLibrary.resource) = some files ∧
      compileTables files.code = some tables ∧
      ∀ room k (hk : k < libraries.length),
        loadEmbedded room tables k =
            some (.done (libraries[k].func.mapParts FunctionParts.withDefaults) []) ↔
          libraries[k].func.slots ≤ room ∧
            ∀ g ∈ libraries[k].func.nested, ¬ g.Declares protoKey := by
  rcases h.exists_tables with ⟨tables, htables⟩
  refine ⟨_, tables, generate_of_fits h.fits, htables, fun room k hk => ?_⟩
  have hmem : libraries[k] ∈ libraries := List.getElem_mem hk
  rw [h.loadEmbedded_eq htables room hk, Option.some.injEq]
  exact loads_as_dumped_iff libraries[k].dump_eq (h.storable _ hmem) (hobject _ hmem) room []

def emitterLibrary : EmbeddedLibrary where
  name := "INIT_EVENT_EMITTER".toList
  func := protoFunction
  dumped := bytecodeOf protoFunction
  dump_eq := dukDumpFunction_protoFunction

theorem loadEmbedded_iff_emitterLibrary :
    ∃ files tables,
      generate ([emitterLibrary].map EmbeddedLibrary.resource) = some files ∧
      compileTables files.code = some tables ∧
      ∀ room k (hk : k < [emitterLibrary].length),
        loadEmbedded room tables k = some (.done
            ([emitterLibrary][k].func.mapParts FunctionParts.withDefaults) []) ↔
          [emitterLibrary][k].func.slots ≤ room ∧ ∀ g ∈ [emitterLibrary][k].func.nested, ¬ g.Declares protoKey := by
  have hembeddable : Embeddable [emitterLibrary] := by
    constructor
    · simp
    · intro library hmem
      rw [List.mem_singleton.mp hmem]
      exact isIdentifier_of_all (by decide) (by decide) (by decide)
    · intro library hmem
      rw [List.mem_singleton.mp hmem]
      exact storable_protoFunction
    · decide
  apply loadEmbedded_iff hembeddable
  intro library hmem
  rw [List.mem_singleton.mp hmem]
  exact isObject_protoFunction

end NekoScript
