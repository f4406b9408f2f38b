import NekoScript.DuktapeValues
import NekoScript.HelperConversions
import NekoScript.JSClass
import NekoScript.WideStrings
import Mathlib.Tactic

/-!
# The environment in `process.env`

`JSProcess::setupProperties` walks over the block of the environment and writes
one property for each entry that has a name.  It writes with `duk_put_prop`,
so that a setter that the new object inherits is called instead.
-/

namespace NekoScript

open PrototypeChain UnicodeCoding

def equalsSign : UInt16 := 0x3D

structure EnvironmentEntry where
  units : List UInt16
  zero_notMem : 0 ∉ units
  equals_mem : equalsSign ∈ units

namespace EnvironmentEntry

def name (entry : EnvironmentEntry) : List UInt16 :=
  entry.units.takeWhile (· ≠ equalsSign)

def value (entry : EnvironmentEntry) : List UInt16 :=
  (entry.units.dropWhile (· ≠ equalsSign)).tail

end EnvironmentEntry

def blockUnits (entries : List EnvironmentEntry) : List UInt16 :=
  entries.flatMap (fun entry => entry.units ++ [0]) ++ [0]

/-- What `GetEnvironmentStrings` points to, in a 32-bit address space. -/
structure EnvironmentBlock where
  entries : List EnvironmentEntry
  fits : (blockUnits entries).length < 2 ^ 31

/-! ## The engine -/

inductive EnvProperty where
  | string (value : DukString)
  /-- A function that may be overwritten. -/
  | method
  /-- `__proto__`, whose setter ignores what is neither an object nor null. -/
  | protoAccessor
  deriving DecidableEq, Repr

inductive EnvFault where
  | outOfBounds
  | raised (error : JSError)
  /-- An `InternalError` of the engine. -/
  | prototypeChainLimit
  deriving DecidableEq, Repr

abbrev EnvHeap := Heap DukString EnvProperty

def protoKey : DukString := lexerString "__proto__".toList

def objectPrototypeMethods : List DukString :=
  ["constructor", "toString", "toLocaleString", "valueOf", "hasOwnProperty",
    "isPrototypeOf", "propertyIsEnumerable"].map fun name => lexerString name.toList

def objectPrototype : Object DukString EnvProperty where
  prototype := none
  own := fun key =>
    if key = protoKey then some .protoAccessor
    else if key ∈ objectPrototypeMethods then some .method
    else none

def objectPrototypeId : ℕ := 0

def envId : ℕ := 1

/-- After `duk_push_object`. -/
def emptyEnv : EnvHeap :=
  Heap.allocate (Function.update (fun _ => none) objectPrototypeId (some objectPrototype))
    envId (some objectPrototypeId)

/-- `duk_put_prop` of a string: a setter is called, also an inherited one, and
otherwise the object itself gets the property. -/
def putProp (heap : EnvHeap) (object : ℕ) (key value : DukString) :
    Except EnvFault EnvHeap :=
  match heap.lookup key prototypeChainSanity object with
  | .found _ .protoAccessor => .ok heap
  | .chainLimit => .error .prototypeChainLimit
  | _ => .ok (heap.setOwn object key (some (.string value)))

/-! ## The loop -/

namespace JSProcess

def within {α : Type} : Option α → Except EnvFault α
  | some value => .ok value
  | none => .error .outOfBounds

def raise {α : Type} : Except JSError α → Except EnvFault α
  | .ok value => .ok value
  | .error e => .error (.raised e)

/-- The name and the value of the entry at `p`, and the pointer to the next.
The length is an `int`, and a null `pv` cannot be used. -/
def readEntry (p : Pointer) : Option (List UInt16 × List UInt16 × Pointer) := do
  let count ← wcslen p
  let length := asInt count
  let found ← wcschr equalsSign p
  let pv ← found
  let key ← wstringOf p pv
  let rest ← Pointer.advance p (pv + 1)
  let value ← wstringOf rest (asUnsigned (length - pv - 1))
  let next ← Pointer.advance p (length + 1).toNat
  return (key, value, next)

def storeEntry (heap : EnvHeap) (key value : List UInt16) : Except EnvFault EnvHeap :=
  if key ≠ [] then do
    let key ← raise (pushString (utf16ToUtf8 key))
    let value ← raise (pushString (utf16ToUtf8 value))
    putProp heap envId key value
  else return heap

/-- The body of the loop. -/
def scanEntry (p : Pointer) (heap : EnvHeap) : Except EnvFault (Pointer × EnvHeap) := do
  let (key, value, next) ← within (readEntry p)
  let heap ← storeEntry heap key value
  return (next, heap)

def scanEntries : (fuel : ℕ) → Pointer → EnvHeap → Option (Except EnvFault EnvHeap)
  | 0, _, _ => none
  | fuel + 1, p, heap =>
      match Pointer.read p with
      | none => some (.error .outOfBounds)
      | some unit =>
          if unit = 0 then some (.ok heap)
          else
            match scanEntry p heap with
            | .error fault => some (.error fault)
            | .ok (next, heap) => scanEntries fuel next heap

/-- `process.env`, as the objects on which it depends. -/
def setupEnv (block : Pointer) (fuel : ℕ) : Option (Except EnvFault EnvHeap) :=
  scanEntries fuel block emptyEnv

end JSProcess

/-! ## What is asked of it -/

/-- No later entry has the same name. -/
def LastOfName (entries : List EnvironmentEntry) (entry : EnvironmentEntry) : Prop :=
  ∃ before after, entries = before ++ entry :: after ∧
    ∀ later ∈ after, later.name ≠ entry.name

/-- The own properties are the names that are not empty, each with what
`encode` makes of the value of its last entry. -/
structure HoldsEntries (encode : List UInt16 → DukString)
    (entries : List EnvironmentEntry) (own : DukString → Option EnvProperty) : Prop where
  complete : ∀ entry, LastOfName entries entry → entry.name ≠ [] →
    own (storedUnits entry.name) = some (.string (encode entry.value))
  sound : ∀ key property, own key = some property →
    ∃ entry ∈ entries, entry.name ≠ [] ∧ key = storedUnits entry.name

/-- The loop ends inside the block, and `process.env` is what the block says. -/
def DecodesEnvironment (block : EnvironmentBlock) : Prop :=
  ∃ fuel heap, JSProcess.setupEnv (blockUnits block.entries) fuel = some (.ok heap) ∧
    HoldsEntries storedUnits block.entries (heap.own envId)

/-! ## Entries -/

theorem takeWhile_append_separator
    {separator : UInt16} {units : List UInt16} (hmem : separator ∈ units) :
    units.takeWhile (· ≠ separator) ++
      separator :: (units.dropWhile (· ≠ separator)).tail = units := by
  induction units with
  | nil => simp at hmem
  | cons unit units ih =>
      by_cases hunit : unit = separator
      · simp [hunit]
      · have hrest : separator ∈ units := by
          simpa [Ne.symm hunit] using hmem
        simpa [hunit] using ih hrest

namespace EnvironmentEntry

variable (entry : EnvironmentEntry)

theorem units_eq : entry.units = entry.name ++ equalsSign :: entry.value :=
  (takeWhile_append_separator entry.equals_mem).symm

theorem equals_notMem_name : equalsSign ∉ entry.name := by
  intro hmem
  simpa using List.mem_takeWhile_imp hmem

theorem zero_notMem_name : 0 ∉ entry.name := by
  intro hmem
  apply entry.zero_notMem
  rw [entry.units_eq]
  exact List.mem_append_left _ hmem

theorem zero_notMem_value : 0 ∉ entry.value := by
  intro hmem
  apply entry.zero_notMem
  rw [entry.units_eq]
  exact List.mem_append_right _ (List.mem_cons_of_mem _ hmem)

theorem length_units : entry.units.length = entry.name.length + entry.value.length + 1 := by
  rw [entry.units_eq, List.length_append, List.length_cons]
  omega

end EnvironmentEntry

theorem blockUnits_cons (entry : EnvironmentEntry) (entries : List EnvironmentEntry) :
    blockUnits (entry :: entries) = entry.units ++ 0 :: blockUnits entries := by
  simp [blockUnits]

theorem length_blockUnits_cons (entry : EnvironmentEntry) (entries : List EnvironmentEntry) :
    (blockUnits (entry :: entries)).length =
      entry.units.length + (blockUnits entries).length + 1 := by
  rw [blockUnits_cons, List.length_append, List.length_cons]
  omega

/-! ## The loop over the entries -/

namespace JSProcess

theorem readEntry_append
    (entry : EnvironmentEntry) (hfits : entry.units.length < 2 ^ 31) (rest : Pointer) :
    readEntry (entry.units ++ 0 :: rest) = some (entry.name, entry.value, rest) := by
  have hunits : entry.units ++ 0 :: rest =
      entry.name ++ equalsSign :: (entry.value ++ 0 :: rest) := by
    rw [entry.units_eq]
    simp
  have hcount : wcslen (entry.units ++ 0 :: rest) = some entry.units.length :=
    wcslen_append entry.zero_notMem rest
  have hlength : asInt entry.units.length = entry.units.length := asInt_of_lt hfits
  have hfound : wcschr equalsSign (entry.units ++ 0 :: rest) =
      some (some entry.name.length) := by
    rw [hunits]
    exact wcschr_append entry.zero_notMem_name entry.equals_notMem_name _
  have hkey : wstringOf (entry.units ++ 0 :: rest) entry.name.length = some entry.name := by
    rw [hunits]
    exact wstringOf_append _ _
  have hrest : Pointer.advance (entry.units ++ 0 :: rest) (entry.name.length + 1) =
      some (entry.value ++ 0 :: rest) := by
    have happend := advance_append (entry.name ++ [equalsSign]) (entry.value ++ 0 :: rest)
    rw [hunits]
    simpa using happend
  have hvalueLength :
      asUnsigned ((entry.units.length : ℤ) - entry.name.length - 1) =
        entry.value.length := by
    have hsum := entry.length_units
    have hdifference : (entry.units.length : ℤ) - entry.name.length - 1 =
        (entry.value.length : ℕ) := by omega
    rw [hdifference]
    exact asUnsigned_of_lt (by omega)
  have hnext : Pointer.advance (entry.units ++ 0 :: rest)
      ((entry.units.length : ℤ) + 1).toNat = some rest := by
    have happend := advance_append (entry.units ++ [0]) rest
    simpa using happend
  have hvalue : wstringOf (entry.value ++ 0 :: rest)
      (asUnsigned ((entry.units.length : ℤ) - entry.name.length - 1)) =
        some entry.value := by
    rw [hvalueLength]
    exact wstringOf_append _ _
  unfold readEntry
  rw [hcount, hfound, Option.bind_eq_bind, Option.bind_some, hlength]
  simp only [Option.bind_eq_bind, Option.bind_some]
  rw [hkey, hrest, Option.bind_some, Option.bind_some, hvalue, Option.bind_some, hnext]
  rfl

theorem scanEntry_append
    (entry : EnvironmentEntry) (hfits : entry.units.length < 2 ^ 31) (rest : Pointer)
    (heap : EnvHeap) :
    scanEntry (entry.units ++ 0 :: rest) heap =
      (storeEntry heap entry.name entry.value).map fun next => (rest, next) := by
  unfold scanEntry
  rw [readEntry_append entry hfits]
  cases hstore : storeEntry heap entry.name entry.value with
  | ok next => simp [within, hstore, bind, Except.bind, pure, Except.pure, Except.map]
  | error fault => simp [within, hstore, bind, Except.bind, Except.map]

theorem scanEntries_nil (fuel : ℕ) (heap : EnvHeap) :
    scanEntries (fuel + 1) (blockUnits []) heap = some (.ok heap) := by
  rfl

theorem scanEntries_cons
    (fuel : ℕ) (heap : EnvHeap) (entry : EnvironmentEntry) (entries : List EnvironmentEntry)
    (hfits : (blockUnits (entry :: entries)).length < 2 ^ 31) :
    scanEntries (fuel + 1) (blockUnits (entry :: entries)) heap =
      match storeEntry heap entry.name entry.value with
      | .error fault => some (.error fault)
      | .ok next => scanEntries fuel (blockUnits entries) next := by
  rw [length_blockUnits_cons] at hfits
  have hstep := scanEntry_append entry (by omega) (blockUnits entries) heap
  cases hunits : entry.units with
  | nil =>
      have hempty := entry.length_units
      rw [hunits, List.length_nil] at hempty
      omega
  | cons unit units =>
      have hunit : unit ≠ 0 := by
        rintro rfl
        exact entry.zero_notMem (hunits ▸ List.mem_cons_self)
      have hread : Pointer.read (blockUnits (entry :: entries)) = some unit := by
        rw [blockUnits_cons, hunits]
        rfl
      rw [scanEntries, hread]
      simp only [hunit, if_false]
      rw [blockUnits_cons, hstep]
      cases storeEntry heap entry.name entry.value <;> rfl

end JSProcess

/-! ## The object -/

/-- The object with these own properties, and `Object.prototype`. -/
def envHeap (own : DukString → Option EnvProperty) : EnvHeap :=
  Function.update
    (Function.update (fun _ => none) objectPrototypeId (some objectPrototype))
    envId (some ⟨some objectPrototypeId, own⟩)

/-- Every own property is one that the loop has written. -/
def WrittenByLoop (own : DukString → Option EnvProperty) : Prop :=
  ∀ key property, own key = some property → key ≠ protoKey ∧
    ∃ name value, key = utf16ToUtf8 name ∧ property = .string (utf16ToUtf8 value)

/-- The own properties after an entry has been stored. -/
def assign (own : DukString → Option EnvProperty) (name value : List UInt16) :
    DukString → Option EnvProperty :=
  if utf16ToUtf8 name = protoKey then own
  else Function.update own (utf16ToUtf8 name) (some (.string (utf16ToUtf8 value)))

variable {own : DukString → Option EnvProperty}

theorem own_envHeap (own : DukString → Option EnvProperty) :
    (envHeap own).own envId = own := rfl

theorem writtenByLoop_empty : WrittenByLoop fun _ => none := by
  intro key property hown
  simp at hown

theorem WrittenByLoop.assign
    (hwritten : WrittenByLoop own) (name value : List UInt16) :
    WrittenByLoop (assign own name value) := by
  intro key property hown
  unfold NekoScript.assign at hown
  by_cases hproto : utf16ToUtf8 name = protoKey
  · rw [if_pos hproto] at hown
    exact hwritten key property hown
  · rw [if_neg hproto] at hown
    by_cases hkey : key = utf16ToUtf8 name
    · rw [hkey, Function.update_self] at hown
      exact ⟨hkey ▸ hproto, name, value, hkey, (Option.some.inj hown).symm⟩
    · rw [Function.update_of_ne hkey] at hown
      exact hwritten key property hown

theorem lookup_envHeap
    (own : DukString → Option EnvProperty) (key : DukString) (links : ℕ) :
    (envHeap own).lookup key (links + 2) envId =
      match own key with
      | some property => .found envId property
      | none =>
          match objectPrototype.own key with
          | some property => .found objectPrototypeId property
          | none => .absent := by
  have henv : envHeap own envId = some ⟨some objectPrototypeId, own⟩ := rfl
  have hproto : envHeap own objectPrototypeId = some objectPrototype := rfl
  have hroot : objectPrototype.prototype = none := rfl
  rw [Heap.lookup, henv]
  cases hown : own key with
  | some property => simp only [hown]
  | none =>
      simp only [hown]
      rw [Heap.lookup, hproto]
      cases hbuiltin : objectPrototype.own key with
      | some property => simp only [hbuiltin]
      | none => simp only [hbuiltin, hroot]

theorem setOwn_envHeap (own : DukString → Option EnvProperty) (key value : DukString) :
    (envHeap own).setOwn envId key (some (.string value)) =
      envHeap (Function.update own key (some (.string value))) := by
  unfold Heap.setOwn envHeap
  simp

theorem putProp_envHeap
    (hwritten : WrittenByLoop own) (key value : DukString) :
    putProp (envHeap own) envId key value =
      .ok (envHeap (if key = protoKey then own
        else Function.update own key (some (.string value)))) := by
  have hlookup := lookup_envHeap own key 9998
  have hsetOwn := setOwn_envHeap own key value
  unfold putProp
  rw [show prototypeChainSanity = 9998 + 2 from rfl, hlookup]
  cases hown : own key with
  | some property =>
      rcases hwritten key property hown with ⟨hkey, _, stored, _, rfl⟩
      simp [hkey, hsetOwn]
  | none =>
      by_cases hkey : key = protoKey
      · simp [objectPrototype, hkey]
      · by_cases hmethod : key ∈ objectPrototypeMethods
        · simp [objectPrototype, hkey, hmethod, hsetOwn]
        · simp [objectPrototype, hkey, hmethod, hsetOwn]

namespace JSProcess

def stringTooLong : EnvFault :=
  .raised (.rangeError (lexerString "string too long".toList))

theorem storeEntry_of_nil (heap : EnvHeap) (value : List UInt16) :
    storeEntry heap [] value = .ok heap := rfl

theorem storeEntry_envHeap
    (hwritten : WrittenByLoop own) (entry : EnvironmentEntry) (hname : entry.name ≠ []) :
    storeEntry (envHeap own) entry.name entry.value =
      if (utf16ToUtf8 entry.name).length > hstringMaxBytelen then .error stringTooLong
      else if (utf16ToUtf8 entry.value).length > hstringMaxBytelen then
        .error stringTooLong
      else .ok (envHeap (assign own entry.name entry.value)) := by
  have hkey := pushString_of_zero_notMem (zero_notMem_utf16ToUtf8 entry.zero_notMem_name)
  have hvalue := pushString_of_zero_notMem (zero_notMem_utf16ToUtf8 entry.zero_notMem_value)
  unfold storeEntry
  rw [if_pos hname, hkey, hvalue]
  by_cases hlongName : (utf16ToUtf8 entry.name).length > hstringMaxBytelen
  · rw [if_pos hlongName, if_pos hlongName]
    rfl
  · rw [if_neg hlongName, if_neg hlongName]
    by_cases hlongValue : (utf16ToUtf8 entry.value).length > hstringMaxBytelen
    · rw [if_pos hlongValue, if_pos hlongValue]
      rfl
    · rw [if_neg hlongValue, if_neg hlongValue]
      exact putProp_envHeap hwritten _ _

/-- The name and the value of the entry can be strings of the engine. -/
def EntryFits (entry : EnvironmentEntry) : Prop :=
  (utf16ToUtf8 entry.name).length ≤ hstringMaxBytelen ∧
    (utf16ToUtf8 entry.value).length ≤ hstringMaxBytelen

theorem storeEntry_of_fits
    (hwritten : WrittenByLoop own) {entry : EnvironmentEntry} (hname : entry.name ≠ [])
    (hfits : EntryFits entry) :
    storeEntry (envHeap own) entry.name entry.value =
      .ok (envHeap (assign own entry.name entry.value)) := by
  rw [storeEntry_envHeap hwritten entry hname, if_neg hfits.1.not_gt,
    if_neg hfits.2.not_gt]

/-- What storing an entry does if it succeeds. -/
theorem of_storeEntry_ok
    (hwritten : WrittenByLoop own) {entry : EnvironmentEntry} {heap : EnvHeap}
    (hstore : storeEntry (envHeap own) entry.name entry.value = .ok heap) :
    (entry.name ≠ [] → EntryFits entry) ∧
      ∃ next, heap = envHeap next ∧ WrittenByLoop next := by
  by_cases hname : entry.name = []
  · rw [hname, storeEntry_of_nil] at hstore
    have hheap : heap = envHeap own := (Except.ok.inj hstore).symm
    exact ⟨fun hne => absurd hname hne, own, hheap, hwritten⟩
  · rw [storeEntry_envHeap hwritten entry hname] at hstore
    by_cases hlongName : (utf16ToUtf8 entry.name).length > hstringMaxBytelen
    · rw [if_pos hlongName] at hstore
      contradiction
    · rw [if_neg hlongName] at hstore
      by_cases hlongValue : (utf16ToUtf8 entry.value).length > hstringMaxBytelen
      · rw [if_pos hlongValue] at hstore
        contradiction
      · rw [if_neg hlongValue] at hstore
        have hheap := (Except.ok.inj hstore).symm
        exact ⟨fun _ => ⟨by omega, by omega⟩, _, hheap, hwritten.assign _ _⟩

theorem storeEntry_ne_outOfBounds
    (hwritten : WrittenByLoop own) (entry : EnvironmentEntry) :
    storeEntry (envHeap own) entry.name entry.value ≠ .error .outOfBounds := by
  by_cases hname : entry.name = []
  · rw [hname, storeEntry_of_nil]
    simp
  · rw [storeEntry_envHeap hwritten entry hname]
    unfold stringTooLong
    split_ifs <;> simp

theorem length_tail_lt
    {entry : EnvironmentEntry} {entries : List EnvironmentEntry}
    (hfits : (blockUnits (entry :: entries)).length < 2 ^ 31) :
    (blockUnits entries).length < 2 ^ 31 := by
  rw [length_blockUnits_cons] at hfits
  omega

/-- The loop ends for every block, and has read nothing outside it. -/
theorem exists_scanEntries
    (entries : List EnvironmentEntry) (hfits : (blockUnits entries).length < 2 ^ 31)
    (hwritten : WrittenByLoop own) :
    ∃ result, scanEntries (entries.length + 1) (blockUnits entries) (envHeap own) =
        some result ∧
      result ≠ .error .outOfBounds := by
  induction entries generalizing own with
  | nil => exact ⟨_, scanEntries_nil _ _, by simp⟩
  | cons entry entries ih =>
      rw [List.length_cons, scanEntries_cons _ _ entry entries hfits]
      cases hstore : storeEntry (envHeap own) entry.name entry.value with
      | error fault =>
          refine ⟨_, rfl, ?_⟩
          rw [← hstore]
          exact storeEntry_ne_outOfBounds hwritten entry
      | ok heap =>
          rcases (of_storeEntry_ok hwritten hstore).2 with ⟨next, rfl, hnext⟩
          exact ih (length_tail_lt hfits) hnext

/-- What a loop that succeeds has done. -/
theorem of_scanEntries
    (fuel : ℕ) (entries : List EnvironmentEntry)
    (hfits : (blockUnits entries).length < 2 ^ 31) (hwritten : WrittenByLoop own)
    {heap : EnvHeap}
    (hscan : scanEntries fuel (blockUnits entries) (envHeap own) = some (.ok heap)) :
    (∀ entry ∈ entries, entry.name ≠ [] → EntryFits entry) ∧
      WrittenByLoop (heap.own envId) := by
  induction entries generalizing fuel own with
  | nil =>
      cases fuel with
      | zero => simp [scanEntries] at hscan
      | succ fuel =>
          rw [scanEntries_nil] at hscan
          have hheap : envHeap own = heap := Except.ok.inj (Option.some.inj hscan)
          rw [← hheap]
          exact ⟨by simp, hwritten⟩
  | cons entry entries ih =>
      cases fuel with
      | zero => simp [scanEntries] at hscan
      | succ fuel =>
          rw [scanEntries_cons _ _ entry entries hfits] at hscan
          cases hstore : storeEntry (envHeap own) entry.name entry.value with
          | error fault => simp [hstore] at hscan
          | ok stored =>
              rcases of_storeEntry_ok hwritten hstore with ⟨hentry, next, rfl, hnext⟩
              rw [hstore] at hscan
              rcases ih fuel (length_tail_lt hfits) hnext hscan with ⟨hentries, hlast⟩
              exact ⟨List.forall_mem_cons.mpr ⟨hentry, hentries⟩, hlast⟩

end JSProcess

/-! ## The entries that the object holds -/

theorem lastOfName_append_singleton
    {entries : List EnvironmentEntry} {entry last : EnvironmentEntry} :
    LastOfName (entries ++ [entry]) last ↔
      last = entry ∨ LastOfName entries last ∧ entry.name ≠ last.name := by
  constructor
  · rintro ⟨before, after, hsplit, hlater⟩
    rcases List.eq_nil_or_concat after with rfl | ⟨others, final, rfl⟩
    · exact .inl (List.append_inj_right' hsplit rfl |> List.cons.inj).1.symm
    · have hshift : entries ++ [entry] = (before ++ last :: others) ++ [final] := by
        simpa using hsplit
      rcases List.append_inj' hshift rfl with ⟨hentries, hfinal⟩
      have hname := hlater final (by simp)
      rw [(List.cons.inj hfinal).1]
      exact .inr ⟨⟨before, others, hentries,
        fun later hmem => hlater later (by simp [hmem])⟩, hname⟩
  · rintro (rfl | ⟨⟨before, after, rfl, hlater⟩, hname⟩)
    · exact ⟨entries, [], rfl, by simp⟩
    · refine ⟨before, after ++ [entry], by simp, ?_⟩
      intro later hmem
      rcases List.mem_append.mp hmem with hmem | hmem
      · exact hlater later hmem
      · rwa [List.mem_singleton.mp hmem]

theorem exists_lastOfName
    {entries : List EnvironmentEntry} {entry : EnvironmentEntry} (hmem : entry ∈ entries) :
    ∃ last, LastOfName entries last ∧ last.name = entry.name := by
  induction entries generalizing entry with
  | nil => simp at hmem
  | cons first entries ih =>
      have hextend : ∀ other ∈ entries,
          ∃ last, LastOfName (first :: entries) last ∧ last.name = other.name := by
        intro other hother
        rcases ih hother with ⟨last, ⟨before, after, rfl, hlater⟩, hname⟩
        exact ⟨last, ⟨first :: before, after, rfl, hlater⟩, hname⟩
      rcases List.mem_cons.mp hmem with rfl | hmem
      · by_cases hagain : ∃ other ∈ entries, other.name = entry.name
        · rcases hagain with ⟨other, hother, hname⟩
          rw [← hname]
          exact hextend other hother
        · have hlater : ∀ later ∈ entries, later.name ≠ entry.name :=
            fun later hother hname => hagain ⟨later, hother, hname⟩
          exact ⟨entry, ⟨[], entries, rfl, hlater⟩, rfl⟩
      · exact hextend entry hmem

theorem HoldsEntries.empty (encode : List UInt16 → DukString) :
    HoldsEntries encode [] fun _ => none := by
  constructor
  · rintro entry ⟨before, after, hsplit, _⟩
    simp at hsplit
  · intro key property hown
    simp at hown

theorem HoldsEntries.skip
    {encode : List UInt16 → DukString} {entries : List EnvironmentEntry}
    (hholds : HoldsEntries encode entries own) {entry : EnvironmentEntry}
    (hname : entry.name = []) :
    HoldsEntries encode (entries ++ [entry]) own := by
  constructor
  · intro last hlast hne
    rcases lastOfName_append_singleton.mp hlast with rfl | ⟨hlast, _⟩
    · exact absurd hname hne
    · exact hholds.complete last hlast hne
  · intro key property hown
    rcases hholds.sound key property hown with ⟨other, hmem, hother⟩
    exact ⟨other, List.mem_append_left _ hmem, hother⟩

theorem HoldsEntries.store
    {encode : List UInt16 → DukString} {entries : List EnvironmentEntry}
    (hholds : HoldsEntries encode entries own) {entry : EnvironmentEntry}
    (hname : entry.name ≠ [])
    (hdistinct : ∀ other ∈ entries, other.name ≠ [] →
      storedUnits other.name = storedUnits entry.name → other.name = entry.name) :
    HoldsEntries encode (entries ++ [entry])
      (Function.update own (storedUnits entry.name) (some (.string (encode entry.value)))) := by
  constructor
  · intro last hlast hne
    rcases lastOfName_append_singleton.mp hlast with rfl | ⟨hlast, hother⟩
    · exact Function.update_self _ _ _
    · have hmem : last ∈ entries := by
        rcases hlast with ⟨before, after, rfl, _⟩
        simp
      have hkey : storedUnits last.name ≠ storedUnits entry.name :=
        fun hsame => hother (hdistinct last hmem hne hsame).symm
      rw [Function.update_of_ne hkey]
      exact hholds.complete last hlast hne
  · intro key property hown
    by_cases hkey : key = storedUnits entry.name
    · exact ⟨entry, by simp, hname, hkey⟩
    · rw [Function.update_of_ne hkey] at hown
      rcases hholds.sound key property hown with ⟨other, hmem, hother⟩
      exact ⟨other, List.mem_append_left _ hmem, hother⟩

/-- `__proto__` -/
def protoName : List UInt16 := [0x5F, 0x5F, 0x70, 0x72, 0x6F, 0x74, 0x6F, 0x5F, 0x5F]

theorem storedUnits_protoName : storedUnits protoName = protoKey := by
  decide

theorem isScalar_protoName : ∀ unit ∈ protoName, IsScalar unit.toNat := by
  simp [protoName, IsScalar]

structure NamesProperty (entry : EnvironmentEntry) : Prop where
  scalar : ∀ unit ∈ entry.name, IsScalar unit.toNat
  ne_proto : entry.name ≠ protoName
  fits : JSProcess.EntryFits entry

/-- The names can be names of own properties, and the values that are kept are
JS strings as they stand. -/
structure Representable (entries : List EnvironmentEntry) : Prop where
  names : ∀ entry ∈ entries, entry.name ≠ [] → NamesProperty entry
  values : ∀ entry, LastOfName entries entry → entry.name ≠ [] →
    ∀ unit ∈ entry.value, IsScalar unit.toNat

theorem NamesProperty.assign_eq
    {entry : EnvironmentEntry} (hentry : NamesProperty entry) :
    assign own entry.name entry.value =
      Function.update own (storedUnits entry.name)
        (some (.string (utf16ToUtf8 entry.value))) := by
  have hkey := (utf16ToUtf8_eq_storedUnits_iff entry.name).mpr hentry.scalar
  have hproto : storedUnits entry.name ≠ protoKey := by
    rw [← storedUnits_protoName, ne_eq, storedUnits_inj hentry.scalar isScalar_protoName]
    exact hentry.ne_proto
  unfold assign
  rw [hkey, if_neg hproto]

namespace JSProcess

theorem scanEntries_of_names
    {stored entries : List EnvironmentEntry}
    (hfits : (blockUnits entries).length < 2 ^ 31) (hwritten : WrittenByLoop own)
    (hholds : HoldsEntries utf16ToUtf8 stored own)
    (hnames : ∀ entry ∈ stored ++ entries, entry.name ≠ [] → NamesProperty entry) :
    ∃ heap, scanEntries (entries.length + 1) (blockUnits entries) (envHeap own) =
        some (.ok heap) ∧
      HoldsEntries utf16ToUtf8 (stored ++ entries) (heap.own envId) := by
  induction entries generalizing stored own with
  | nil =>
      refine ⟨_, scanEntries_nil _ _, ?_⟩
      rwa [List.append_nil, own_envHeap]
  | cons entry entries ih =>
      have hshift : stored ++ entry :: entries = (stored ++ [entry]) ++ entries := by simp
      rw [hshift] at hnames ⊢
      rw [List.length_cons, scanEntries_cons _ _ entry entries hfits]
      by_cases hname : entry.name = []
      · rw [hname, storeEntry_of_nil]
        exact ih (length_tail_lt hfits) hwritten (hholds.skip hname) hnames
      · have hentry := hnames entry (by simp) hname
        have hdistinct : ∀ other ∈ stored, other.name ≠ [] →
            storedUnits other.name = storedUnits entry.name → other.name = entry.name := by
          intro other hmem hother hsame
          have hscalar := (hnames other (by simp [hmem]) hother).scalar
          exact (storedUnits_inj hscalar hentry.scalar).mp hsame
        have hnext := hholds.store hname hdistinct
        rw [← hentry.assign_eq] at hnext
        rw [storeEntry_of_fits hwritten hname hentry.fits]
        exact ih (length_tail_lt hfits) (hwritten.assign _ _) hnext hnames

end JSProcess

theorem representable_of_decodesEnvironment
    {block : EnvironmentBlock} (hdecodes : DecodesEnvironment block) :
    Representable block.entries := by
  rcases hdecodes with ⟨fuel, heap, hscan, hholds⟩
  rcases JSProcess.of_scanEntries fuel block.entries block.fits writtenByLoop_empty hscan
    with ⟨hfits, hwritten⟩
  constructor
  · intro entry hmem hname
    rcases exists_lastOfName hmem with ⟨last, hlast, hsame⟩
    have hown := hholds.complete last hlast (hsame ▸ hname)
    rw [hsame] at hown
    rcases hwritten _ _ hown with ⟨hproto, name, _, hkey, _⟩
    refine ⟨isScalar_of_utf16ToUtf8_eq hkey.symm, ?_, hfits entry hmem hname⟩
    intro hentry
    exact hproto (hentry ▸ storedUnits_protoName)
  · intro entry hlast hname
    have hown := hholds.complete entry hlast hname
    rcases hwritten _ _ hown with ⟨_, _, value, _, hvalue⟩
    exact isScalar_of_utf16ToUtf8_eq (EnvProperty.string.inj hvalue).symm

theorem decodesEnvironment_of_representable
    {block : EnvironmentBlock} (hentries : Representable block.entries) :
    DecodesEnvironment block := by
  rcases JSProcess.scanEntries_of_names block.fits writtenByLoop_empty
    (HoldsEntries.empty utf16ToUtf8) hentries.names with ⟨heap, hscan, hholds⟩
  refine ⟨_, heap, hscan, ?_, hholds.sound⟩
  intro entry hlast hname
  have hvalue := (utf16ToUtf8_eq_storedUnits_iff entry.value).mpr
    (hentries.values entry hlast hname)
  rw [← hvalue]
  exact hholds.complete entry hlast hname

/-- Whatever the entries are, the loop ends and has read nothing outside the
block. -/
theorem exists_setupEnv (block : EnvironmentBlock) :
    ∃ result, JSProcess.setupEnv (blockUnits block.entries) (block.entries.length + 1) =
        some result ∧
      result ≠ .error .outOfBounds :=
  JSProcess.exists_scanEntries block.entries block.fits writtenByLoop_empty

/-- The object is what the block says exactly when the setter of `__proto__` is
not called and the texts survive their conversion. -/
theorem decodesEnvironment_iff (block : EnvironmentBlock) :
    DecodesEnvironment block ↔ Representable block.entries :=
  ⟨representable_of_decodesEnvironment, decodesEnvironment_of_representable⟩

/-- `__proto__=x` -/
def protoEntry : EnvironmentEntry where
  units := protoName ++ [equalsSign, 0x78]
  zero_notMem := by decide
  equals_mem := by decide

def protoBlock : EnvironmentBlock where
  entries := [protoEntry]
  fits := by decide

theorem not_decodesEnvironment_of_proto : ¬ DecodesEnvironment protoBlock := by
  intro hdecodes
  have hnames := (representable_of_decodesEnvironment hdecodes).names protoEntry
    List.mem_cons_self (by decide)
  exact hnames.ne_proto (by decide)

end NekoScript
