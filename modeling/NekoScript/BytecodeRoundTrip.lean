import NekoScript.FunctionBytecode
import Mathlib.Order.Filter.AtTopBot.Basic
import Mathlib.Tactic

/-!
# What becomes of a function that is dumped and loaded

Loading undoes dumping, except that absent properties get their defaults, the
environment of the function is replaced, and a variable named `__proto__` is
forgotten.
-/

namespace NekoScript

open SequentialReaders

/-! ## The loaded function -/

namespace CompiledFunction

mutual

/-- Change the parts of a function and of all that are nested in it. -/
def mapParts (change : FunctionParts → FunctionParts) : CompiledFunction → CompiledFunction
  | mk parts funcs => mk (change parts) (mapPartsIn change funcs)

def mapPartsIn (change : FunctionParts → FunctionParts) :
    List CompiledFunction → List CompiledFunction
  | [] => []
  | func :: funcs => mapParts change func :: mapPartsIn change funcs

end

theorem mapPartsIn_eq (change : FunctionParts → FunctionParts)
    (funcs : List CompiledFunction) :
    mapPartsIn change funcs = funcs.map (mapParts change) := by
  induction funcs with
  | nil => rfl
  | cons func funcs ih => rw [mapPartsIn, ih, List.map_cons]

theorem mapParts_congr_iff {change change' : FunctionParts → FunctionParts}
    (func : CompiledFunction) :
    func.mapParts change = func.mapParts change' ↔
      ∀ g ∈ func.nested, change g.parts = change' g.parts := by
  induction func using induction with
  | mk parts funcs ih =>
      rw [mapParts, mapParts, mapPartsIn_eq, mapPartsIn_eq, mk.injEq, List.map_inj_left]
      constructor
      · rintro ⟨hparts, hfuncs⟩ g hg
        rcases mem_nested_iff.mp hg with rfl | ⟨inner, hinner, hg⟩
        · exact hparts
        · exact (ih inner hinner).mp (hfuncs inner hinner) g hg
      · intro h
        refine ⟨h _ (self_mem_nested _), ?_⟩
        intro inner hinner
        apply (ih inner hinner).mpr
        intro g hg
        exact h g (mem_nested_iff.mpr (.inr ⟨inner, hinner, hg⟩))

theorem nested_mapParts (change : FunctionParts → FunctionParts) (func : CompiledFunction) :
    (func.mapParts change).nested = func.nested.map (mapParts change) := by
  induction func using induction with
  | mk parts funcs ih =>
      rw [mapParts, mapPartsIn_eq, nested, nested, nestedIn_eq, nestedIn_eq, List.flatMap_map,
        List.map_cons, List.map_flatMap, mapParts, mapPartsIn_eq]
      congr 1
      apply List.flatMap_congr
      exact ih

theorem slots_mapParts {change : FunctionParts → FunctionParts}
    (hconsts : ∀ parts, (change parts).consts = parts.consts) (func : CompiledFunction) :
    (func.mapParts change).slots = func.slots := by
  induction func using induction with
  | mk parts funcs ih =>
      have hinner : slotsIn (funcs.map (mapParts change)) = slotsIn funcs := by
        clear hconsts
        induction funcs with
        | nil => rfl
        | cons inner funcs ihfuncs =>
            rw [List.map_cons, slotsIn, slotsIn, ih inner List.mem_cons_self,
              ihfuncs fun other hother => ih other (List.mem_cons_of_mem inner hother)]
      rw [mapParts, mapPartsIn_eq, slots, slots, hconsts, hinner]

theorem mapParts_id (func : CompiledFunction) : func.mapParts id = func := by
  induction func using induction with
  | mk parts funcs ih =>
      rw [mapParts, mapPartsIn_eq, List.map_congr_left ih, List.map_id'']
      · rfl
      · exact fun _ => rfl

end CompiledFunction

def Varmap.declares (varmap : Varmap) (name : DukString) : Prop :=
  ∃ entry ∈ varmap.entries, entry.1.1.1 = name

def Varmap.withoutProto (varmap : Varmap) : Varmap where
  entries := varmap.entries.filter fun entry => entry.1.1.1 ≠ protoKey
  distinct := varmap.distinct.sublist (List.filter_sublist.map Prod.fst)

/-- The properties and the environment that a loaded function has. -/
def FunctionParts.withDefaults (parts : FunctionParts) : FunctionParts :=
  { parts with
    properties := {
      length := some (parts.properties.length.getD parts.nargs.toUInt32)
      name := some (parts.properties.name.getD EngineString.empty)
      fileName := some (parts.properties.fileName.getD EngineString.empty)
      pc2line := some (parts.properties.pc2line.getD EngineBuffer.empty)
      varmap := some (parts.properties.varmap.getD Varmap.empty)
      formals := some (parts.properties.formals.getD [])
      lexenv := if hasNamebinding parts.flags
        then some (parts.properties.name.getD EngineString.empty) else none } }

def FunctionParts.withoutProto (parts : FunctionParts) : FunctionParts :=
  { parts with
    properties := { parts.properties with
      varmap := parts.properties.varmap.map Varmap.withoutProto } }

/-- The flags are those of an object. -/
def FunctionParts.asObject (parts : FunctionParts) : FunctionParts :=
  { parts with flags := htypeObject ||| (parts.flags &&& flagMask) }

def FunctionParts.loaded (parts : FunctionParts) : FunctionParts :=
  parts.asObject.withDefaults.withoutProto

/-- The heap type of the function is that of an object. -/
def FunctionParts.IsObject (parts : FunctionParts) : Prop :=
  parts.flags &&& 3 = htypeObject

/-- The counts fit their types, and the data buffer can be allocated. -/
structure CompiledFunction.Fits (func : CompiledFunction) : Prop where
  instructions : func.parts.instructions.length < 2 ^ 32
  consts : func.parts.consts.length < 2 ^ 32
  funcs : func.funcs.length < 2 ^ 32
  data : dataSize func.parts.instructions.length func.parts.consts.length
    func.funcs.length ≤ hbufferMaxBytelen

def CompiledFunction.Storable (func : CompiledFunction) : Prop :=
  ∀ g ∈ func.nested, g.Fits

theorem CompiledFunction.Storable.of_mem
    {func inner : CompiledFunction} (h : func.Storable) (hinner : inner ∈ func.funcs) :
    inner.Storable :=
  fun g hg => h g (mem_nested_iff.mpr (.inr ⟨inner, hinner, hg⟩))

/-! ## Flags -/

theorem and_or_distrib_u32 (x y z : UInt32) : x &&& (y ||| z) = x &&& y ||| x &&& z := by
  apply UInt32.toBitVec_inj.mp
  simp [BitVec.and_or_distrib_left]

theorem asObject_flags_eq_iff (flags : UInt32) :
    htypeObject ||| (flags &&& flagMask) = flags ↔ flags &&& 3 = htypeObject := by
  constructor
  · intro h
    have hmask : flagMask &&& 3 = 0 := by decide
    have htwo : 3 &&& htypeObject = htypeObject := by decide
    have hrest : 3 &&& (flags &&& flagMask) = 0 := by
      rw [UInt32.and_comm 3, UInt32.and_assoc, hmask, UInt32.and_zero]
    rw [← h, UInt32.and_comm, and_or_distrib_u32, htwo, hrest, UInt32.or_zero]
  · intro h
    have hall : 3 ||| flagMask = -1 := by decide
    rw [← h, ← and_or_distrib_u32, hall, UInt32.and_neg_one]

theorem asObject_eq_self_iff (parts : FunctionParts) :
    parts.asObject = parts ↔ parts.IsObject := by
  unfold FunctionParts.IsObject
  rw [← asObject_flags_eq_iff]
  constructor
  · intro h
    exact congrArg FunctionParts.flags h
  · intro h
    unfold FunctionParts.asObject
    rw [h]

/-! ## One item at a time -/

theorem reads_bigEndian {α : Type} {decode : ℕ → α} {width number : ℕ} {value : α}
    (hdecode : decode (number % 256 ^ width) = value) :
    (do let bytes ← Reader.symbols width
        return decode (ofBigEndian bytes.1) : BytecodeReader α).Reads
      (bigEndian width number) value := by
  rw [← ofBigEndian_bigEndian] at hdecode
  have hlength := length_bigEndian width number
  have hsymbols : (Reader.symbols width : BytecodeReader _).Reads
      (bigEndian width number) ⟨_, hlength⟩ := Reader.reads_symbols hlength
  exact hsymbols.bind_nil (hdecode ▸ Reader.reads_pure _)

theorem reads_u16 (value : UInt16) : readU16.Reads (u16Bytes value) value :=
  reads_bigEndian (by
    rw [Nat.mod_eq_of_lt (by simpa using value.toNat_lt)]
    exact UInt16.ofNat_toNat)

theorem reads_u32 (value : UInt32) : readU32.Reads (u32Bytes value) value :=
  reads_bigEndian (by
    rw [Nat.mod_eq_of_lt (by simpa using value.toNat_lt)]
    exact UInt32.ofNat_toNat)

theorem reads_double (bits : UInt64) : readDouble.Reads (doubleBytes bits) bits :=
  reads_bigEndian (by
    rw [Nat.mod_eq_of_lt (by simpa using bits.toNat_lt)]
    exact UInt64.ofNat_toNat)

theorem toNat_countU32 {length : ℕ} (hlength : length < 2 ^ 32) :
    (countU32 length).toNat = length := by
  unfold countU32
  rw [UInt32.toNat_ofNat']
  exact Nat.mod_eq_of_lt hlength

theorem reads_counted
    {Item α : Type} {reader : BytecodeReader α} {dump : Item → List UInt8}
    {decoded : Item → α} {items : List Item} (hlength : items.length < 2 ^ 32)
    (h : ∀ item ∈ items, reader.Reads (dump item) (decoded item)) :
    (reader.counted (countU32 items.length).toNat).Reads
      (items.flatMap dump) (items.map decoded) := by
  rw [toNat_countU32 hlength]
  exact Reader.Reads.counted h

theorem reads_hstring (h : EngineString) :
    loadStringRaw.Reads (dumpHstringRaw h) h := by
  have hmax := h.2
  have hcount : (countU32 h.1.length).toNat = h.1.length :=
    toNat_countU32 (by unfold hstringMaxBytelen at hmax; omega)
  refine (reads_u32 (countU32 h.1.length)).bind ?_
  rw [dif_pos (hcount.le.trans hmax)]
  exact (Reader.reads_symbols hcount.symm).bind_nil (Reader.reads_pure _)

theorem reads_hbuffer (h : EngineBuffer) :
    loadBufferRaw.Reads (dumpHbufferRaw h) h := by
  have hmax := h.2
  have hcount : (countU32 h.1.length).toNat = h.1.length :=
    toNat_countU32 (by unfold hbufferMaxBytelen at hmax; omega)
  refine (reads_u32 (countU32 h.1.length)).bind ?_
  rw [dif_pos (hcount.le.trans hmax)]
  exact (Reader.reads_symbols hcount.symm).bind_nil (Reader.reads_pure _)

theorem reads_bufferProp (property : Option EngineBuffer) :
    loadBufferRaw.Reads (dumpBufferProp property) (property.getD EngineBuffer.empty) := by
  cases property with
  | none => exact reads_hbuffer EngineBuffer.empty
  | some h => exact reads_hbuffer h

theorem reads_name (name : VariableName) :
    loadName.Reads (dumpHstringRaw name.1) (some name) := by
  refine (reads_hstring name.1).bind_nil ?_
  rw [dif_neg name.2]
  exact Reader.reads_pure _

theorem reads_noName : loadName.Reads (u32Bytes 0) none :=
  (reads_hstring EngineString.empty).bind_nil (Reader.reads_pure _)

theorem reads_varmapEntry (entry : VariableName × UInt32) :
    loadVarmapEntry.Reads (dumpVarmapEntry entry) (some entry) :=
  (reads_name entry.1).bind ((reads_u32 entry.2).bind_nil (Reader.reads_pure _))

theorem reads_noVarmapEntry : loadVarmapEntry.Reads (u32Bytes 0) none :=
  reads_noName.bind_nil (Reader.reads_pure _)

theorem reads_constant (constant : BytecodeConstant) :
    loadConstant.Reads (dumpConstant constant) constant := by
  cases constant with
  | string h =>
      have htype : (Reader.symbol : BytecodeReader UInt8).Reads [serString] serString :=
        Reader.reads_symbol serString
      exact htype.bind ((reads_hstring h).bind_nil (Reader.reads_pure _))
  | number bits =>
      have htype : (Reader.symbol : BytecodeReader UInt8).Reads [serNumber] serNumber :=
        Reader.reads_symbol serNumber
      exact htype.bind ((reads_double bits).bind_nil (Reader.reads_pure _))

/-! ## Tables -/

theorem entries_put_of_new
    {varmap : Varmap} {entry : VariableName × UInt32}
    (hnew : entry.1 ∉ varmap.entries.map Prod.fst) :
    (varmap.put entry).entries =
      varmap.entries ++ [entry].filter fun e => e.1.1.1 ≠ protoKey := by
  unfold Varmap.put
  by_cases hproto : entry.1.1.1 = protoKey
  · simp [hproto]
  · rw [if_neg hproto, dif_neg hnew]
    simp [hproto]

theorem entries_foldl_put :
    ∀ {entries : List (VariableName × UInt32)} {varmap : Varmap},
      ((varmap.entries ++ entries).map Prod.fst).Nodup →
      (entries.foldl Varmap.put varmap).entries =
        varmap.entries ++ entries.filter fun e => e.1.1.1 ≠ protoKey
  | [], varmap, _ => by simp
  | entry :: entries, varmap, hnodup => by
      have hsplit : ((varmap.entries ++ [entry]) ++ entries).map Prod.fst =
          (varmap.entries ++ entry :: entries).map Prod.fst := by simp
      rw [← hsplit] at hnodup
      have hnew : entry.1 ∉ varmap.entries.map Prod.fst := by
        intro hmem
        rw [List.map_append, List.map_append, List.append_assoc, List.nodup_append] at hnodup
        exact hnodup.2.2 _ hmem _ (by simp) rfl
      have hput := entries_put_of_new hnew
      have hrest : (((varmap.put entry).entries ++ entries).map Prod.fst).Nodup := by
        refine List.Nodup.sublist ?_ hnodup
        rw [hput]
        apply List.Sublist.map
        exact List.Sublist.append_right
          (List.Sublist.append_left List.filter_sublist _) _
      rw [List.foldl_cons, entries_foldl_put hrest, hput, List.append_assoc,
        ← List.filter_append]
      rfl

theorem foldl_put (varmap : Varmap) :
    varmap.entries.foldl Varmap.put Varmap.empty = varmap.withoutProto := by
  have hdistinct : ((Varmap.empty.entries ++ varmap.entries).map Prod.fst).Nodup :=
    varmap.distinct
  have hentries := entries_foldl_put hdistinct
  cases hfold : varmap.entries.foldl Varmap.put Varmap.empty with
  | mk entries distinct =>
      rw [hfold] at hentries
      have heq : entries = varmap.withoutProto.entries := hentries
      subst heq
      rfl

theorem reads_varmap {varmap : Varmap} {fuel : ℕ} (hfuel : varmap.entries.length < fuel) :
    (loadVarmap fuel).Reads (varmap.entries.flatMap dumpVarmapEntry ++ u32Bytes 0)
      varmap.withoutProto := by
  have hentries : (loadVarmapEntry.terminated fuel).Reads
      (varmap.entries.flatMap dumpVarmapEntry ++ u32Bytes 0) (varmap.entries.map id) :=
    reads_noVarmapEntry.terminated hfuel fun entry _ => reads_varmapEntry entry
  rw [List.map_id] at hentries
  refine hentries.bind_nil ?_
  rw [foldl_put]
  exact Reader.reads_pure _

theorem reads_formals {formals : List VariableName} {fuel : ℕ}
    (hfuel : formals.length < fuel) :
    (loadFormals fuel).Reads
      (formals.flatMap (fun name => dumpHstringRaw name.1) ++ u32Bytes 0) formals := by
  have hnames : (loadName.terminated fuel).Reads
      (formals.flatMap (fun name => dumpHstringRaw name.1) ++ u32Bytes 0) (formals.map id) :=
    reads_noName.terminated hfuel fun name _ => reads_name name
  rwa [List.map_id] at hnames

/-! ## One function -/

theorem reads_requireStack {room extra : ℕ} (hroom : extra ≤ room) :
    (requireStack room extra).Reads [] () := by
  unfold requireStack
  rw [if_pos hroom]
  exact Reader.reads_pure ()

theorem reads_header {parts : FunctionParts} {funcs : List CompiledFunction}
    (hfits : (CompiledFunction.mk parts funcs).Fits) {room : ℕ}
    (hroom : 2 + parts.consts.length + funcs.length ≤ room) :
    (loadHeader room).Reads (dumpHeader parts funcs.length)
      ⟨countU32 parts.instructions.length, countU32 parts.consts.length,
        countU32 funcs.length, parts.nregs, parts.nargs, parts.asObject.flags⟩ := by
  have hinstructions := toNat_countU32 hfits.instructions
  have hconsts := toNat_countU32 hfits.consts
  have hfuncs := toNat_countU32 hfits.funcs
  simp only [CompiledFunction.parts, CompiledFunction.funcs] at hinstructions hconsts hfuncs
  have hdata : ¬ dataSize (countU32 parts.instructions.length).toNat
      (countU32 parts.consts.length).toNat (countU32 funcs.length).toNat >
        hbufferMaxBytelen := by
    rw [hinstructions, hconsts, hfuncs]
    exact not_lt.mpr hfits.data
  have hstack : (requireStack room (2 + (countU32 parts.consts.length).toNat +
      (countU32 funcs.length).toNat)).Reads [] () := by
    rw [hconsts, hfuncs]
    exact reads_requireStack hroom
  refine (reads_u32 _).bind ?_
  refine (reads_u32 _).bind ?_
  refine (reads_u32 _).bind ?_
  refine hstack.bind ?_
  refine (reads_u16 _).bind ?_
  refine (reads_u16 _).bind ?_
  have hlines : (u32Bytes 0 ++ u32Bytes 0).length = 8 := rfl
  refine (Reader.reads_symbols hlines).bind ?_
  refine (reads_u32 _).bind_nil ?_
  rw [if_neg hdata]
  exact Reader.reads_pure _

theorem reads_properties {parts : FunctionParts} {fuel : ℕ}
    (hvarmap : (parts.properties.varmap.getD Varmap.empty).entries.length < fuel)
    (hformals : (parts.properties.formals.getD []).length < fuel) :
    (loadProperties fuel parts.flags).Reads
      (dumpProperties parts.nargs parts.properties)
      parts.withDefaults.withoutProto.properties := by
  refine (reads_u32 _).bind ?_
  refine (reads_hstring _).bind ?_
  refine (reads_hstring _).bind ?_
  refine (reads_bufferProp _).bind ?_
  refine (reads_varmap hvarmap).bind ?_
  exact (reads_formals hformals).bind_nil (Reader.reads_pure _)

theorem refines_loadFunc :
    ∀ {fuel fuel' : ℕ}, fuel ≤ fuel' →
      ∀ room, Reader.Refines (loadFunc fuel room) (loadFunc fuel' room)
  | 0, _, _, _ => fun _ => .inl rfl
  | fuel + 1, fuel' + 1, hle, room => by
      have hle' : fuel ≤ fuel' := Nat.le_of_succ_le_succ hle
      have hvarmap : Reader.Refines (loadVarmap fuel) (loadVarmap fuel') :=
        (Reader.refines_terminated _ hle').bind fun _ => Reader.Refines.refl _
      have hformals : Reader.Refines (loadFormals fuel) (loadFormals fuel') :=
        Reader.refines_terminated _ hle'
      refine (Reader.Refines.refl _).bind fun header => ?_
      refine (Reader.Refines.refl _).bind fun instructions => ?_
      refine (Reader.Refines.refl _).bind fun consts => ?_
      have hfuncs := fun i =>
        refines_loadFunc hle' (room - (2 + header.countConst.toNat + i))
      refine (Reader.Refines.each hfuncs _ _).bind fun funcs => ?_
      refine Reader.Refines.bind ?_ fun properties => Reader.Refines.refl _
      refine (Reader.Refines.refl _).bind fun length => ?_
      refine (Reader.Refines.refl _).bind fun name => ?_
      refine (Reader.Refines.refl _).bind fun fileName => ?_
      refine (Reader.Refines.refl _).bind fun pc2line => ?_
      refine hvarmap.bind fun varmap => ?_
      exact hformals.bind fun formals => Reader.Refines.refl _

theorem eventually_of_reads
    {taken : List UInt8} {func : CompiledFunction} {fuel room : ℕ}
    (h : (loadFunc fuel room).Reads taken func) :
    ∀ᶠ fuel' in Filter.atTop, (loadFunc fuel' room).Reads taken func := by
  filter_upwards [Filter.eventually_ge_atTop fuel] with fuel' hle
  exact h.of_refines (refines_loadFunc hle room)

/-- With enough fuel and enough slots, the loader reads what the dump wrote. -/
theorem eventually_reads_dumpFunc {func : CompiledFunction} (hstorable : func.Storable)
    {room : ℕ} (hslots : func.slots ≤ room) :
    ∀ᶠ fuel in Filter.atTop,
      (loadFunc fuel room).Reads (dumpFunc func) (func.mapParts FunctionParts.loaded) := by
  induction func using CompiledFunction.induction generalizing room with
  | mk parts funcs ih =>
      obtain ⟨hroom, hinnerSlots⟩ := (CompiledFunction.slots_le_iff _).mp hslots
      simp only [CompiledFunction.parts, CompiledFunction.funcs] at hroom hinnerSlots
      have hfits := hstorable _ (CompiledFunction.self_mem_nested _)
      have hinner : ∀ᶠ fuel in Filter.atTop, ∀ i : Fin funcs.length,
          (loadFunc fuel (room - (2 + parts.consts.length + i))).Reads
            (dumpFunc funcs[i]) (funcs[i].mapParts FunctionParts.loaded) := by
        apply Filter.eventually_all.mpr
        intro i
        have hmem : funcs[i] ∈ funcs := List.getElem_mem i.isLt
        exact ih _ hmem (hstorable.of_mem hmem) (hinnerSlots i i.isLt)
      have hvarmap := Filter.eventually_gt_atTop
        (parts.properties.varmap.getD Varmap.empty).entries.length
      have hformals := Filter.eventually_gt_atTop (parts.properties.formals.getD []).length
      obtain ⟨fuel, hfuncs, hvarmap, hformals⟩ := (hinner.and (hvarmap.and hformals)).exists
      have hread : (loadFunc (fuel + 1) room).Reads (dumpFunc (.mk parts funcs))
          ((CompiledFunction.mk parts funcs).mapParts FunctionParts.loaded) := by
        have hinstructions : (readU32.counted (countU32 parts.instructions.length).toNat).Reads
            (parts.instructions.flatMap u32Bytes) (parts.instructions.map id) :=
          reads_counted hfits.instructions fun value _ => reads_u32 value
        have hconsts : (loadConstant.counted (countU32 parts.consts.length).toNat).Reads
            (parts.consts.flatMap dumpConstant) (parts.consts.map id) :=
          reads_counted hfits.consts fun constant _ => reads_constant constant
        have hfuncs : (Reader.each (fun i => loadFunc fuel
            (room - (2 + (countU32 parts.consts.length).toNat + i))) 0
              (countU32 funcs.length).toNat).Reads
            (funcs.flatMap dumpFunc)
            (funcs.map (CompiledFunction.mapParts FunctionParts.loaded)) := by
          have hcounts : (countU32 parts.consts.length).toNat = parts.consts.length ∧
              (countU32 funcs.length).toNat = funcs.length :=
            ⟨toNat_countU32 hfits.consts, toNat_countU32 hfits.funcs⟩
          rw [hcounts.1, hcounts.2]
          apply Reader.Reads.each
          intro i hi
          rw [Nat.zero_add]
          exact hfuncs ⟨i, hi⟩
        rw [List.map_id] at hinstructions hconsts
        refine (reads_header hfits hroom).bind ?_
        refine hinstructions.bind ?_
        refine hconsts.bind ?_
        rw [dumpFuncs_eq, CompiledFunction.mapParts, CompiledFunction.mapPartsIn_eq]
        refine hfuncs.bind ?_
        have hproperties := @reads_properties parts.asObject _ hvarmap hformals
        exact hproperties.bind_nil (Reader.reads_pure _)
      exact eventually_of_reads hread

/-! ## The fuel -/

theorem finishesWithin_readU32 (length : ℕ) : readU32.FinishesWithin length :=
  (Reader.finishesWithin_symbols 4 length).bind_same fun _ =>
    Reader.finishesWithin_pure _ length

theorem finishesWithin_readU16 (length : ℕ) : readU16.FinishesWithin length :=
  (Reader.finishesWithin_symbols 2 length).bind_same fun _ =>
    Reader.finishesWithin_pure _ length

theorem finishesWithin_loadStringRaw (length : ℕ) : loadStringRaw.FinishesWithin length := by
  refine (finishesWithin_readU32 length).bind_same fun len => ?_
  by_cases hmax : len.toNat ≤ hstringMaxBytelen
  · rw [dif_pos hmax]
    exact (Reader.finishesWithin_symbols _ length).bind_same fun _ =>
      Reader.finishesWithin_pure _ length
  · rw [dif_neg hmax]
    exact Reader.finishesWithin_fail _ length

theorem finishesWithin_loadBufferRaw (length : ℕ) : loadBufferRaw.FinishesWithin length := by
  refine (finishesWithin_readU32 length).bind_same fun len => ?_
  by_cases hmax : len.toNat ≤ hbufferMaxBytelen
  · rw [dif_pos hmax]
    exact (Reader.finishesWithin_symbols _ length).bind_same fun _ =>
      Reader.finishesWithin_pure _ length
  · rw [dif_neg hmax]
    exact Reader.finishesWithin_fail _ length

theorem finishesWithin_loadName (length : ℕ) : loadName.FinishesWithin length := by
  refine (finishesWithin_loadStringRaw length).bind_same fun s => ?_
  split
  · exact Reader.finishesWithin_pure _ length
  · exact Reader.finishesWithin_pure _ length

theorem finishesWithin_loadVarmapEntry (length : ℕ) :
    loadVarmapEntry.FinishesWithin length := by
  refine (finishesWithin_loadName length).bind_same fun name => ?_
  cases name with
  | none => exact Reader.finishesWithin_pure _ length
  | some name =>
      exact (finishesWithin_readU32 length).bind_same fun _ =>
        Reader.finishesWithin_pure _ length

theorem finishesWithin_loadConstant (length : ℕ) : loadConstant.FinishesWithin length := by
  refine (Reader.finishesWithin_symbol length).bind_same fun constType => ?_
  split
  · exact (finishesWithin_loadStringRaw length).bind_same fun _ =>
      Reader.finishesWithin_pure _ length
  · split
    · refine Reader.FinishesWithin.bind_same ?_ fun _ =>
        Reader.finishesWithin_pure _ length
      exact (Reader.finishesWithin_symbols 8 length).bind_same fun _ =>
        Reader.finishesWithin_pure _ length
    · exact Reader.finishesWithin_fail _ length

theorem finishesWithin_requireStack (room extra length : ℕ) :
    (requireStack room extra).FinishesWithin length := by
  unfold requireStack
  split
  · exact Reader.finishesWithin_pure () length
  · exact Reader.finishesWithin_fail _ length

theorem finishesWithin_loadHeader (room length : ℕ) :
    (loadHeader room).FinishesWithin length := by
  have hu32 := finishesWithin_readU32 length
  have hu16 := finishesWithin_readU16 length
  refine hu32.bind_same fun countInstr => ?_
  refine hu32.bind_same fun countConst => ?_
  refine hu32.bind_same fun countFuncs => ?_
  refine (finishesWithin_requireStack _ _ length).bind_same fun _ => ?_
  refine hu16.bind_same fun nregs => ?_
  refine hu16.bind_same fun nargs => ?_
  refine (Reader.finishesWithin_symbols 8 length).bind_same fun lines => ?_
  refine hu32.bind_same fun flags => ?_
  split
  · exact Reader.finishesWithin_fail _ length
  · exact Reader.finishesWithin_pure _ length

theorem takes_readU32 : readU32.Takes 4 := (Reader.takes_symbols 4).bind_left

theorem takes_loadName : loadName.Takes 4 := takes_readU32.bind_left.bind_left

theorem finishesWithin_loadProperties {fuel length : ℕ} (hfuel : length < fuel)
    (flags : UInt32) : (loadProperties fuel flags).FinishesWithin length := by
  have hname : loadName.Takes 1 := takes_loadName.mono (by omega)
  have hentry : loadVarmapEntry.Takes 1 := hname.bind_left
  have hvarmap : (loadVarmap fuel).FinishesWithin length :=
    (Reader.FinishesWithin.terminated hentry
      (finishesWithin_loadVarmapEntry length) hfuel).bind_same fun _ =>
        Reader.finishesWithin_pure _ length
  have hformals : (loadFormals fuel).FinishesWithin length :=
    Reader.FinishesWithin.terminated hname (finishesWithin_loadName length) hfuel
  have hstring := finishesWithin_loadStringRaw length
  refine (finishesWithin_readU32 length).bind_same fun _ => ?_
  refine hstring.bind_same fun _ => ?_
  refine hstring.bind_same fun _ => ?_
  refine (finishesWithin_loadBufferRaw length).bind_same fun _ => ?_
  refine hvarmap.bind_same fun _ => ?_
  exact hformals.bind_same fun _ => Reader.finishesWithin_pure _ length

/-- An inner function starts after a header, so its input is shorter. -/
theorem finishesWithin_loadFunc :
    ∀ {fuel length : ℕ}, length < fuel →
      ∀ room, (loadFunc fuel room).FinishesWithin length
  | fuel + 1, length, hfuel, room => by
      have hcost : (loadHeader room).Takes 1 := (takes_readU32.mono (by omega)).bind_left
      refine (finishesWithin_loadHeader room length).bind hcost fun hpos header => ?_
      have hrest : length - 1 < fuel := by omega
      refine ((finishesWithin_readU32 _).counted _).bind_same fun _ => ?_
      refine ((finishesWithin_loadConstant _).counted _).bind_same fun _ => ?_
      refine (Reader.FinishesWithin.each
        (fun i => finishesWithin_loadFunc hrest _) _ _).bind_same fun _ => ?_
      exact (finishesWithin_loadProperties hrest _).bind_same fun _ =>
        Reader.finishesWithin_pure _ _

theorem read_loadFunc_eq {fuel room : ℕ} {bytes : List UInt8} (hfuel : bytes.length < fuel) :
    (loadFunc fuel room).read bytes = (loadFunc (bytes.length + 1) room).read bytes :=
  (refines_loadFunc hfuel room).read_eq
    (finishesWithin_loadFunc (Nat.lt_succ_self _) room) le_rfl

/-! ## Dump and load -/

theorem dukDumpFunction_eq_ok_iff {func : CompiledFunction} {bytes : List UInt8} :
    dukDumpFunction func = .ok bytes ↔
      isCompiledFunction func.parts.flags = true ∧ bytes.length ≤ hbufferMaxBytelen ∧
        bytecodeOf func = bytes := by
  unfold dukDumpFunction
  split_ifs with hcompiled hlength
  · simp_all
  · simp only [false_iff]
    rintro ⟨-, hshort, rfl⟩
    exact absurd hlength (not_lt.mpr hshort)
  · rw [Except.ok.injEq]
    constructor
    · rintro rfl
      exact ⟨by simpa using hcompiled, not_lt.mp hlength, rfl⟩
    · exact fun h => h.2.2

theorem dukLoadFunction_marked (room : ℕ) (bytes : List UInt8) :
    dukLoadFunction room (serMarker :: serVersion :: bytes) =
      (loadFunc (bytes.length + 1) room).read bytes := by
  simp [dukLoadFunction]

section Room

variable {room : ℕ}

theorem dukLoadFunction_bytecodeOf {func : CompiledFunction} (hstorable : func.Storable)
    (hslots : func.slots ≤ room) (after : List UInt8) :
    dukLoadFunction room (bytecodeOf func ++ after) =
      .done (func.mapParts FunctionParts.loaded) after := by
  have henough := Filter.eventually_gt_atTop (dumpFunc func ++ after).length
  obtain ⟨fuel, hreads, hfuel⟩ :=
    ((eventually_reads_dumpFunc hstorable hslots).and henough).exists
  have hread := hreads.read_append after
  rw [read_loadFunc_eq hfuel] at hread
  exact (dukLoadFunction_marked room _).trans hread

theorem dukLoadFunction_overrun {func : CompiledFunction} (hstorable : func.Storable)
    (hslots : func.slots ≤ room) {bytes after : List UInt8}
    (hbytes : dumpFunc func = bytes ++ after) (hafter : after ≠ []) :
    dukLoadFunction room (serMarker :: serVersion :: bytes) = .overrun := by
  have henough := Filter.eventually_gt_atTop bytes.length
  obtain ⟨fuel, hreads, hfuel⟩ :=
    ((eventually_reads_dumpFunc hstorable hslots).and henough).exists
  rw [hbytes] at hreads
  rw [dukLoadFunction_marked, ← read_loadFunc_eq hfuel]
  exact hreads.overrun_of_prefix hafter

end Room

def CompiledFunction.Declares (func : CompiledFunction) (name : DukString) : Prop :=
  ∃ varmap, func.parts.properties.varmap = some varmap ∧ varmap.declares name

theorem withoutProto_eq_self_iff (varmap : Varmap) :
    varmap.withoutProto = varmap ↔ ¬ varmap.declares protoKey := by
  have hfilter : varmap.withoutProto = varmap ↔
      varmap.withoutProto.entries = varmap.entries := by
    cases varmap
    simp [Varmap.withoutProto]
  rw [hfilter]
  unfold Varmap.withoutProto Varmap.declares
  rw [List.filter_eq_self]
  constructor
  · rintro h ⟨entry, hentry, hname⟩
    exact of_decide_eq_true (h entry hentry) hname
  · intro h entry hentry
    exact decide_eq_true fun hname => h ⟨entry, hentry, hname⟩

theorem loaded_eq_withDefaults_iff {parts : FunctionParts} (hobject : parts.IsObject) :
    parts.loaded = parts.withDefaults ↔
      ¬ ∃ varmap, parts.properties.varmap = some varmap ∧ varmap.declares protoKey := by
  have hloaded : parts.loaded = parts.withDefaults.withoutProto := by
    unfold FunctionParts.loaded
    rw [(asObject_eq_self_iff parts).mpr hobject]
  have hvarmap : parts.withDefaults.withoutProto = parts.withDefaults ↔
      (parts.properties.varmap.getD Varmap.empty).withoutProto =
        parts.properties.varmap.getD Varmap.empty := by
    simp [FunctionParts.withoutProto, FunctionParts.withDefaults]
  rw [hloaded, hvarmap, withoutProto_eq_self_iff]
  cases hmap : parts.properties.varmap with
  | none => simp [Varmap.empty, Varmap.declares]
  | some varmap => simp

theorem loaded_eq_withDefaults_nested_iff
    {func : CompiledFunction} (hobject : ∀ g ∈ func.nested, g.parts.IsObject) :
    func.mapParts FunctionParts.loaded = func.mapParts FunctionParts.withDefaults ↔
      ∀ g ∈ func.nested, ¬ g.Declares protoKey := by
  rw [CompiledFunction.mapParts_congr_iff]
  constructor
  · intro hparts g hg
    exact (loaded_eq_withDefaults_iff (hobject g hg)).mp (hparts g hg)
  · intro hnone g hg
    exact (loaded_eq_withDefaults_iff (hobject g hg)).mpr (hnone g hg)

def protoVariable : VariableName := ⟨⟨protoKey, by decide⟩, by decide⟩

/-- The flags of a function that the compiler has made: those of an extensible
object of the class of functions that has code, can be constructed and gets an
environment of its own. -/
def closureFlags : UInt32 := 0x300204c2

/-- `function () { var __proto__; }` -/
def protoFunction : CompiledFunction :=
  .mk {
    nregs := 1
    nargs := 0
    flags := closureFlags
    instructions := [0]
    consts := []
    properties := {
      length := none
      name := none
      fileName := none
      pc2line := none
      varmap := some ⟨[(protoVariable, 0)], by simp⟩
      formals := none
      lexenv := none } } []

theorem nested_protoFunction : protoFunction.nested = [protoFunction] := rfl

theorem storable_protoFunction : protoFunction.Storable := by
  intro g hg
  rw [nested_protoFunction, List.mem_singleton] at hg
  subst hg
  constructor <;> decide

theorem isObject_protoFunction : ∀ g ∈ protoFunction.nested, g.parts.IsObject := by
  intro g hg
  rw [nested_protoFunction, List.mem_singleton] at hg
  subst hg
  rfl

theorem declares_protoFunction : protoFunction.Declares protoKey :=
  ⟨_, rfl, (protoVariable, 0), List.mem_singleton_self _, rfl⟩

/-! ## What is accepted -/

theorem not_declares_put
    {varmap : Varmap} {entry : VariableName × UInt32}
    (h : ¬ varmap.declares protoKey) : ¬ (varmap.put entry).declares protoKey := by
  unfold Varmap.put
  by_cases hproto : entry.1.1.1 = protoKey
  · rwa [if_pos hproto]
  · rw [if_neg hproto]
    by_cases hmem : entry.1 ∈ varmap.entries.map Prod.fst
    · rw [dif_pos hmem]
      rintro ⟨other, hother, hname⟩
      obtain ⟨old, hold, rfl⟩ := List.mem_map.mp hother
      by_cases heq : old.1 = entry.1
      · rw [if_pos heq] at hname
        exact hproto hname
      · rw [if_neg heq] at hname
        exact h ⟨old, hold, hname⟩
    · rw [dif_neg hmem]
      rintro ⟨other, hother, hname⟩
      rcases List.mem_append.mp hother with hold | hnew
      · exact h ⟨other, hold, hname⟩
      · rw [List.mem_singleton.mp hnew] at hname
        exact hproto hname

theorem not_declares_foldl_put
    (entries : List (VariableName × UInt32)) {varmap : Varmap}
    (h : ¬ varmap.declares protoKey) :
    ¬ (entries.foldl Varmap.put varmap).declares protoKey := by
  induction entries generalizing varmap with
  | nil => exact h
  | cons entry entries ih => exact ih (not_declares_put h)

/-- What the loader makes of the properties of a function with these flags. -/
structure FunctionProperties.IsLoaded (properties : FunctionProperties) (flags : UInt32) :
    Prop where
  length : properties.length.isSome
  name : properties.name.isSome
  fileName : properties.fileName.isSome
  pc2line : properties.pc2line.isSome
  varmap : ∃ varmap, properties.varmap = some varmap ∧ ¬ varmap.declares protoKey
  formals : properties.formals.isSome
  lexenv : properties.lexenv = if hasNamebinding flags then properties.name else none

theorem yields_loadVarmap (fuel : ℕ) :
    (loadVarmap fuel).Yields fun varmap => ¬ varmap.declares protoKey :=
  Reader.yields_true.bind fun _ _ =>
    Reader.yields_pure (not_declares_foldl_put _ (by simp [Varmap.empty, Varmap.declares]))

theorem yields_loadProperties (fuel : ℕ) (flags : UInt32) :
    (loadProperties fuel flags).Yields fun properties => properties.IsLoaded flags := by
  refine Reader.yields_true.bind fun length _ => ?_
  refine Reader.yields_true.bind fun name _ => ?_
  refine Reader.yields_true.bind fun fileName _ => ?_
  refine Reader.yields_true.bind fun pc2line _ => ?_
  refine (yields_loadVarmap fuel).bind fun varmap hvarmap => ?_
  refine Reader.yields_true.bind fun formals _ => ?_
  exact Reader.yields_pure ⟨rfl, rfl, rfl, rfl, ⟨varmap, rfl, hvarmap⟩, rfl, rfl⟩

theorem yields_requireStack (room extra : ℕ) :
    (requireStack room extra).Yields fun _ => extra ≤ room := by
  unfold requireStack
  split
  · rename_i hroom
    exact Reader.yields_pure hroom
  · exact Reader.yields_fail

theorem yields_loadHeader (room : ℕ) :
    (loadHeader room).Yields fun header =>
      2 + header.countConst.toNat + header.countFuncs.toNat ≤ room ∧
        dataSize header.countInstr.toNat header.countConst.toNat header.countFuncs.toNat ≤
          hbufferMaxBytelen := by
  refine Reader.yields_true.bind fun countInstr _ => ?_
  refine Reader.yields_true.bind fun countConst _ => ?_
  refine Reader.yields_true.bind fun countFuncs _ => ?_
  refine (yields_requireStack _ _).bind fun _ hroom => ?_
  refine Reader.yields_true.bind fun nregs _ => ?_
  refine Reader.yields_true.bind fun nargs _ => ?_
  refine Reader.yields_true.bind fun lines _ => ?_
  refine Reader.yields_true.bind fun flags _ => ?_
  split
  · exact Reader.yields_fail
  · rename_i hdata
    exact Reader.yields_pure ⟨hroom, not_lt.mp hdata⟩

theorem yields_loadFunc :
    ∀ fuel room, (loadFunc fuel room).Yields fun func =>
      func.slots ≤ room ∧
        ∀ g ∈ func.nested, g.Fits ∧ g.parts.properties.IsLoaded g.parts.flags
  | 0, _ => Reader.yields_outOfFuel
  | fuel + 1, room => by
      refine (yields_loadHeader room).bind fun header hheader => ?_
      obtain ⟨hroom, hdata⟩ := hheader
      refine (Reader.yields_true.counted _).bind fun instructions hinstructions => ?_
      refine (Reader.yields_true.counted _).bind fun consts hconsts => ?_
      have hyields := fun i =>
        yields_loadFunc fuel (room - (2 + header.countConst.toNat + i))
      refine (Reader.Yields.each hyields _ _).bind fun funcs hfuncs => ?_
      refine (yields_loadProperties fuel header.flags).bind fun properties hloaded => ?_
      apply Reader.yields_pure
      constructor
      · rw [CompiledFunction.slots_le_iff]
        simp only [CompiledFunction.parts, CompiledFunction.funcs]
        refine ⟨by rwa [hconsts.1, hfuncs.1], ?_⟩
        intro i hi
        have hinner := (hfuncs.2 i hi).1
        rwa [Nat.zero_add, ← hconsts.1] at hinner
      · intro g hg
        rcases CompiledFunction.mem_nested_iff.mp hg with rfl | ⟨inner, hinner, hg⟩
        · refine ⟨⟨?_, ?_, ?_, ?_⟩, hloaded⟩
          · exact hinstructions.1.trans_lt header.countInstr.toNat_lt
          · exact hconsts.1.trans_lt header.countConst.toNat_lt
          · exact hfuncs.1.trans_lt header.countFuncs.toNat_lt
          · change dataSize instructions.length consts.length funcs.length ≤ _
            rw [hinstructions.1, hconsts.1, hfuncs.1]
            exact hdata
        · obtain ⟨i, hi, rfl⟩ := List.mem_iff_getElem.mp hinner
          exact (hfuncs.2 i hi).2 g hg

/-- What the loader has built took no more slots than there were, fits the format
and has the properties of a loaded function. -/
theorem yields_dukLoadFunction {room : ℕ} {bytes rest : List UInt8} {func : CompiledFunction}
    (hload : dukLoadFunction room bytes = .done func rest) :
    func.slots ≤ room ∧
      ∀ g ∈ func.nested, g.Fits ∧ g.parts.properties.IsLoaded g.parts.flags := by
  unfold dukLoadFunction at hload
  split at hload
  · split at hload
    · exact yields_loadFunc _ _ hload
    · cases hload
  · cases hload

theorem withDefaults_of_isLoaded {parts : FunctionParts}
    (hloaded : parts.properties.IsLoaded parts.flags) : parts.withDefaults = parts := by
  obtain ⟨length, hlength⟩ := Option.isSome_iff_exists.mp hloaded.length
  obtain ⟨name, hname⟩ := Option.isSome_iff_exists.mp hloaded.name
  obtain ⟨fileName, hfileName⟩ := Option.isSome_iff_exists.mp hloaded.fileName
  obtain ⟨pc2line, hpc2line⟩ := Option.isSome_iff_exists.mp hloaded.pc2line
  obtain ⟨varmap, hvarmap, _⟩ := hloaded.varmap
  obtain ⟨formals, hformals⟩ := Option.isSome_iff_exists.mp hloaded.formals
  have hlexenv := hloaded.lexenv
  obtain ⟨nregs, nargs, flags, instructions, consts, properties⟩ := parts
  obtain ⟨_, _, _, _, _, _, lexenv⟩ := properties
  simp only at hlength hname hfileName hpc2line hvarmap hformals hlexenv
  subst hlength hname hfileName hpc2line hvarmap hformals hlexenv
  rfl

theorem loaded_eq_self_iff {parts : FunctionParts}
    (hloaded : parts.properties.IsLoaded parts.flags) :
    parts.loaded = parts ↔ parts.IsObject := by
  constructor
  · intro h
    exact (asObject_flags_eq_iff parts.flags).mp (congrArg FunctionParts.flags h)
  · intro hobject
    obtain ⟨varmap, hvarmap, hproto⟩ := hloaded.varmap
    rw [(loaded_eq_withDefaults_iff hobject).mpr, withDefaults_of_isLoaded hloaded]
    rintro ⟨other, hother, hdeclares⟩
    rw [hvarmap] at hother
    cases hother
    exact hproto hdeclares

/-! ## Dumps and loads of functions -/

/-- A compiled function is loaded as it was dumped, whatever follows its
bytecode, if and only if the value stack has the slots that this takes and no
variable in the function is named `__proto__`. -/
theorem loads_as_dumped_iff {func : CompiledFunction} {bytes : List UInt8}
    (hdump : dukDumpFunction func = .ok bytes) (hstorable : func.Storable)
    (hobject : ∀ g ∈ func.nested, g.parts.IsObject) (room : ℕ) (after : List UInt8) :
    dukLoadFunction room (bytes ++ after) =
        .done (func.mapParts FunctionParts.withDefaults) after ↔
      func.slots ≤ room ∧ ∀ g ∈ func.nested, ¬ g.Declares protoKey := by
  obtain ⟨-, -, rfl⟩ := dukDumpFunction_eq_ok_iff.mp hdump
  constructor
  · intro hload
    have hsame : (func.mapParts FunctionParts.withDefaults).slots = func.slots :=
      @CompiledFunction.slots_mapParts FunctionParts.withDefaults (fun _ => rfl) func
    have hslots := hsame ▸ (yields_dukLoadFunction hload).1
    rw [dukLoadFunction_bytecodeOf hstorable hslots, Reading.done.injEq,
      loaded_eq_withDefaults_nested_iff hobject] at hload
    exact ⟨hslots, hload.1⟩
  · rintro ⟨hslots, hnone⟩
    rw [dukLoadFunction_bytecodeOf hstorable hslots,
      (loaded_eq_withDefaults_nested_iff hobject).mpr hnone]

theorem dukDumpFunction_protoFunction :
    dukDumpFunction protoFunction = .ok (bytecodeOf protoFunction) :=
  dukDumpFunction_eq_ok_iff.mpr ⟨rfl, by decide, rfl⟩

theorem not_loads_as_dumped_protoFunction :
    dukLoadFunction 64 (bytecodeOf protoFunction ++ []) ≠
      .done (protoFunction.mapParts FunctionParts.withDefaults) [] := by
  intro hload
  have hloads := (loads_as_dumped_iff dukDumpFunction_protoFunction storable_protoFunction
    isObject_protoFunction 64 []).mp hload
  exact hloads.2 protoFunction (CompiledFunction.self_mem_nested _) declares_protoFunction

/-- The loader runs past the end of every dump that has been cut off after its
marker, if the value stack has the slots for the whole. -/
theorem dukLoadFunction_truncated
    {func : CompiledFunction} {bytes : List UInt8} (hdump : dukDumpFunction func = .ok bytes)
    (hstorable : func.Storable) {room : ℕ} (hslots : func.slots ≤ room)
    {before after : List UInt8} (hsplit : bytes = before ++ after) (hafter : after ≠ []) :
    dukLoadFunction room before =
      if before.length < 2 then .failed decodeFailed else .overrun := by
  obtain ⟨-, -, hbytes⟩ := dukDumpFunction_eq_ok_iff.mp hdump
  rw [← hbytes] at hsplit
  match before, hsplit with
  | [], _ => rfl
  | [_], _ => rfl
  | marker :: version :: bytes, hsplit =>
      have hlong : ¬ (marker :: version :: bytes).length < 2 := by simp
      simp only [bytecodeOf, List.cons_append, List.cons.injEq] at hsplit
      obtain ⟨rfl, rfl, hbytes⟩ := hsplit
      rw [if_neg hlong]
      exact dukLoadFunction_overrun hstorable hslots hbytes hafter

theorem dukLoadFunction_truncated_marker :
    dukLoadFunction 64 [serMarker, serVersion] = .overrun :=
  dukLoadFunction_truncated dukDumpFunction_protoFunction storable_protoFunction (by decide)
    (show bytecodeOf protoFunction = [serMarker, serVersion] ++ dumpFunc protoFunction
      from rfl) (by simp [dumpFunc, dumpHeader, u32Bytes, bigEndian, protoFunction])

theorem dukDumpFunction_ne_compiledFunctionRequired_iff (func : CompiledFunction) :
    dukDumpFunction func ≠ .error compiledFunctionRequired ↔
      isCompiledFunction func.parts.flags = true := by
  unfold dukDumpFunction
  split_ifs with hcompiled hlength
  · simpa using hcompiled
  · simpa [bufferTooLongError, compiledFunctionRequired] using hcompiled
  · simpa using hcompiled

/-- What the loader accepts fits the format.  The function is refused as code that
is not compiled if and only if the flags that were read do not say so, and a dump
of it is loaded as that function if and only if the flags of all functions in it
say that they are objects. -/
theorem of_dukLoadFunction_done
    {room : ℕ} {bytes rest : List UInt8} {func : CompiledFunction}
    (hload : dukLoadFunction room bytes = .done func rest) :
    func.Storable ∧
      (dukDumpFunction func ≠ .error compiledFunctionRequired ↔
        isCompiledFunction func.parts.flags = true) ∧
      ∀ dumped, dukDumpFunction func = .ok dumped → ∀ after,
        (dukLoadFunction room (dumped ++ after) = .done func after ↔
          ∀ g ∈ func.nested, g.parts.IsObject) := by
  obtain ⟨hslots, hyields⟩ := yields_dukLoadFunction hload
  have hstorable : func.Storable := fun g hg => (hyields g hg).1
  refine ⟨hstorable, dukDumpFunction_ne_compiledFunctionRequired_iff func, ?_⟩
  intro dumped hdump after
  obtain ⟨-, -, rfl⟩ := dukDumpFunction_eq_ok_iff.mp hdump
  rw [dukLoadFunction_bytecodeOf hstorable hslots, Reading.done.injEq]
  have hself : func.mapParts FunctionParts.loaded = func ↔
      ∀ g ∈ func.nested, g.parts.loaded = g.parts := by
    conv_lhs => rhs; rw [← func.mapParts_id]
    exact CompiledFunction.mapParts_congr_iff func
  rw [hself]
  constructor
  · rintro ⟨h, _⟩ g hg
    exact (loaded_eq_self_iff (hyields g hg).2).mp (h g hg)
  · intro h
    exact ⟨fun g hg => (loaded_eq_self_iff (hyields g hg).2).mpr (h g hg), rfl⟩

theorem of_dukLoadFunction_protoFunction :
    (protoFunction.mapParts FunctionParts.loaded).Storable ∧
      (dukDumpFunction (protoFunction.mapParts FunctionParts.loaded) ≠
          .error compiledFunctionRequired ↔
        isCompiledFunction (protoFunction.mapParts FunctionParts.loaded).parts.flags =
          true) ∧
      ∀ dumped, dukDumpFunction (protoFunction.mapParts FunctionParts.loaded) = .ok dumped →
        ∀ after,
          (dukLoadFunction 64 (dumped ++ after) =
              .done (protoFunction.mapParts FunctionParts.loaded) after ↔
            ∀ g ∈ (protoFunction.mapParts FunctionParts.loaded).nested, g.parts.IsObject) :=
  of_dukLoadFunction_done
    (dukLoadFunction_bytecodeOf storable_protoFunction (show protoFunction.slots ≤ 64 by decide)
      [])

end NekoScript
