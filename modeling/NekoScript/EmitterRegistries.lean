import NekoScript.EventEmitter
import Mathlib.Tactic

/-!
# An emitter is a registry

What the methods do to the heap, seen from the registry of one emitter.  This
holds as long as no object that is the prototype of another one is used as an
emitter: its `_events` would be those of all objects that inherit from it.
-/

namespace NekoScript

open Programs ReentrantCalls GuardedRuns PrototypeChain Registries

namespace EventEmitter

abbrev EventRegistry := Registry DukString ℕ

/-! ## What the methods are for -/

def Selector.matches : Selector → DukString → Bool
  | .string evt, name => name = evt
  | .regExp test, name => test name

/-- Change the listeners of the selected events.  A name becomes known, unless
every object inherits it. -/
def Selector.change (evt : Selector)
    (change : List ListenerObject → List ListenerObject) (registry : EventRegistry) :
    EventRegistry :=
  match evt with
  | .string evt => if inheritedKeys.contains evt then registry else registry.changeAt evt change
  | .regExp test => registry.changeWhere test change

def ListenerArgument.attach : ListenerArgument → List ListenerObject → List ListenerObject
  | .function id => register id
  | .wrapped object => (· ++ [object])

def ListenerArgument.detach : ListenerArgument → List ListenerObject → List ListenerObject
  | .function id => unregister id
  | .wrapped _ => id

def singleSpec (remove : Bool) (evt : Selector) (listener : ListenerArgument) :
    EventRegistry → EventRegistry :=
  evt.change (if remove then listener.detach else listener.attach)

def arraySpec (remove : Bool) (evt : Selector) (listeners : List ListenerArgument)
    (registry : EventRegistry) : EventRegistry :=
  listeners.foldr (singleSpec remove evt) registry

def propertySpec (remove : Bool) (registry : EventRegistry)
    (property : DukString × BulkValue) : EventRegistry :=
  match property.2 with
  | .function id => singleSpec remove (.string property.1) (.function id) registry
  | .array listeners => arraySpec remove (.string property.1) listeners registry

def EmitterMethod.spec : EmitterMethod → EventRegistry → EventRegistry
  | .addListener evt listener => evt.change listener.attach
  | .addOnceListener evt listener => evt.change (· ++ [⟨listener, true⟩])
  | .removeListener evt listener => evt.change listener.detach
  | .getListeners evt => evt.change id
  | .defineEvents evts => fun registry =>
      evts.foldl (fun registry evt => (Selector.string evt).change id registry) registry
  | .manipulateArray remove evt listeners => arraySpec remove evt listeners
  | .manipulateObject remove properties => fun registry =>
      properties.foldl (propertySpec remove) registry
  | .removeEvent (some evt) => Registry.removeWhere evt.matches
  | .removeEvent none => fun _ => []
  | .setOnceReturnValue _ => id

theorem change_of_inherited
    {change : List ListenerObject → List ListenerObject} {evt : DukString}
    (h : evt ∈ inheritedKeys) (registry : EventRegistry) :
    (Selector.string evt).change change registry = registry :=
  if_pos (List.contains_iff_mem.mpr h)

theorem change_of_not_inherited
    {change : List ListenerObject → List ListenerObject} {evt : DukString}
    (h : evt ∉ inheritedKeys) (registry : EventRegistry) :
    (Selector.string evt).change change registry = registry.changeAt evt change :=
  if_neg (mt List.contains_iff_mem.mp h)

/-! ## Arrays of listeners -/

theorem indexBelow_append
    (listeners others : List ListenerObject) (argument : ListenerArgument) :
    ∀ {i : ℕ}, i ≤ listeners.length →
      indexBelow (listeners ++ others) argument i = indexBelow listeners argument i
  | 0, _ => rfl
  | i + 1, hi => by
      have hget : (listeners ++ others)[i]? = listeners[i]? :=
        List.getElem?_append_left (by omega)
      rw [indexBelow, indexBelow, hget, indexBelow_append listeners others argument (by omega)]

theorem indexOfListener_append_singleton
    (listeners : List ListenerObject) (last : ListenerObject) (argument : ListenerArgument) :
    indexOfListener (listeners ++ [last]) argument =
      if argument.is last.listener then some listeners.length
      else indexOfListener listeners argument := by
  unfold indexOfListener
  rw [List.length_append, List.length_singleton, indexBelow, List.getElem?_concat_length,
    indexBelow_append listeners [last] argument le_rfl]
  cases his : argument.is last.listener <;> simp [his]

theorem lt_length_of_indexOfListener
    {listeners : List ListenerObject} {argument : ListenerArgument} {index : ℕ}
    (h : indexOfListener listeners argument = some index) : index < listeners.length := by
  induction listeners using List.reverseRecOn with
  | nil => simp [indexOfListener, indexBelow] at h
  | append_singleton before last ih =>
      rw [indexOfListener_append_singleton] at h
      rw [List.length_append, List.length_singleton]
      split at h
      · have heq := Option.some.inj h
        omega
      · have := ih h
        omega

theorem indexOfListener_wrapped (listeners : List ListenerObject) (object : ListenerObject) :
    indexOfListener listeners (.wrapped object) = none := by
  induction listeners using List.reverseRecOn with
  | nil => rfl
  | append_singleton before last ih =>
      rw [indexOfListener_append_singleton, ih]
      simp [ListenerArgument.is]

theorem pushUnlessPresent_eq (argument : ListenerArgument) :
    pushUnlessPresent argument = argument.attach := by
  funext listeners
  cases argument with
  | wrapped object =>
      unfold pushUnlessPresent
      rw [indexOfListener_wrapped]
      rfl
  | function id =>
      have hindex : (indexOfListener listeners (.function id)).isSome =
          holds id listeners := by
        induction listeners using List.reverseRecOn with
        | nil => rfl
        | append_singleton before last ih =>
            rw [indexOfListener_append_singleton]
            by_cases heq : last.listener = id
            · simp [ListenerArgument.is, heq, holds]
            · simpa [ListenerArgument.is, heq, holds] using ih
      change pushUnlessPresent (.function id) listeners = register id listeners
      unfold pushUnlessPresent register
      rw [← hindex]
      cases indexOfListener listeners (.function id) <;> rfl

theorem spliceListener_eq (argument : ListenerArgument) :
    spliceListener argument = argument.detach := by
  funext listeners
  cases argument with
  | wrapped object =>
      unfold spliceListener
      rw [indexOfListener_wrapped]
      rfl
  | function id =>
      change spliceListener (.function id) listeners = unregister id listeners
      induction listeners using List.reverseRecOn with
      | nil => rfl
      | append_singleton before last ih =>
          rw [unregister_append_singleton, ← ih]
          unfold spliceListener
          rw [indexOfListener_append_singleton]
          by_cases heq : last.listener = id
          · simp [ListenerArgument.is, heq, List.eraseIdx_append_of_length_le]
          · rw [if_neg (by simpa [ListenerArgument.is] using heq), if_neg heq]
            cases hindex : indexOfListener before (.function id) with
            | none => rfl
            | some index =>
                have hlt := lt_length_of_indexOfListener hindex
                simp [List.eraseIdx_append_of_lt_length hlt]

/-! ## Emitters apart -/

variable {emitters : ℕ → Bool} {w w' : EmitterWorld} {this : ℕ}

/-- The registry that the heap keeps for an object. -/
def EmitterWorld.registryOf (w : EmitterWorld) (object : ℕ) : EventRegistry :=
  match w.objects.own object .events with
  | some (.events table) => (w.tables table).map fun event => (event.1, w.arrays event.2)
  | _ => []

/-- Emitters are prototypes of no object, and share neither objects of events
nor arrays. -/
structure Separate (emitters : ℕ → Bool) (w : EmitterWorld) : Prop where
  owned : ∀ {object value}, w.objects.own object .events = some value →
    emitters object = true ∧ ∃ table < w.nextTable, value = .events table
  owner : ∀ {object object' table}, w.objects.own object .events = some (.events table) →
    w.objects.own object' .events = some (.events table) → object = object'
  names : ∀ table, ((w.tables table).map Prod.fst).Nodup
  notInherited : ∀ {table event}, event ∈ w.tables table → event.1 ∉ inheritedKeys
  bounded : ∀ {table event}, event ∈ w.tables table → event.2 < w.nextArray
  arrays : ∀ {table table' event event'}, event ∈ w.tables table →
    event' ∈ w.tables table' → event.2 = event'.2 → table = table' ∧ event = event'
  prototypes : ∀ {object entry parent}, w.objects object = some entry →
    entry.prototype = some parent → emitters parent = false
  allocated : ∀ object, (w.objects object).isSome = true ↔ object < w.nextObject

/-- A step that acts on the registry of one emitter only. -/
structure ActsOn (emitters : ℕ → Bool) (this : ℕ) (spec : EventRegistry → EventRegistry)
    (w w' : EmitterWorld) : Prop where
  separate : Separate emitters w'
  self : w'.registryOf this = spec (w.registryOf this)
  others : ∀ other, other ≠ this → w'.registryOf other = w.registryOf other
  nextObject : w'.nextObject = w.nextObject

theorem ActsOn.refl (h : Separate emitters w) : ActsOn emitters this id w w :=
  ⟨h, rfl, fun _ _ => rfl, rfl⟩

theorem ActsOn.trans
    {spec spec' : EventRegistry → EventRegistry} {w'' : EmitterWorld}
    (h : ActsOn emitters this spec w w') (h' : ActsOn emitters this spec' w' w'') :
    ActsOn emitters this (fun registry => spec' (spec registry)) w w'' where
  separate := h'.separate
  self := by rw [h'.self, h.self]
  others := fun other hne => (h'.others other hne).trans (h.others other hne)
  nextObject := h'.nextObject.trans h.nextObject

theorem registryOf_of_own {table : ℕ}
    (hown : w.objects.own this .events = some (.events table)) :
    w.registryOf this = (w.tables table).map fun event => (event.1, w.arrays event.2) := by
  unfold EmitterWorld.registryOf
  rw [hown]

theorem registryOf_of_none (hown : w.objects.own this .events = none) :
    w.registryOf this = [] := by
  unfold EmitterWorld.registryOf
  rw [hown]

theorem registryOf_congr
    (hobjects : w'.objects.own this .events = w.objects.own this .events)
    (htables : ∀ table, w.objects.own this .events = some (.events table) →
      w'.tables table = w.tables table ∧
        ∀ event ∈ w.tables table, w'.arrays event.2 = w.arrays event.2) :
    w'.registryOf this = w.registryOf this := by
  unfold EmitterWorld.registryOf
  rw [hobjects]
  cases hown : w.objects.own this .events with
  | none => rfl
  | some value =>
      cases value with
      | value => rfl
      | events table =>
          obtain ⟨htable, harrays⟩ := htables table hown
          simp only [htable]
          apply List.map_congr_left
          intro event hevent
          rw [harrays event hevent]

theorem Separate.lookup_eq
    (h : Separate emitters w) {links holder : ℕ} {value : EmitterValue}
    (hlookup : w.objects.lookup .events links this = .found holder value) :
    holder = this := by
  by_contra hne
  obtain ⟨child, entry, hentry, hprototype⟩ := Heap.exists_child_of_lookup hlookup hne
  have hfalse := h.prototypes hentry hprototype
  rw [(h.owned (Heap.own_of_lookup hlookup)).1] at hfalse
  contradiction

/-! ## `_getEvents` and `getListeners` -/

theorem Separate.own_setEvents
    (h : Separate emitters w) (hthis : this < w.nextObject) (table object : ℕ) :
    (w.setEvents this table).objects.own object .events =
      if object = this then some (.events table) else w.objects.own object .events := by
  have hsome := (h.allocated this).mpr hthis
  have hown := Heap.own_setOwn w.objects object .events .events (some (.events table)) hsome
  simpa [EmitterWorld.setEvents] using hown

theorem Separate.prototypes_setOwn
    (h : Separate emitters w) {object parent : ℕ} {key : EmitterKey}
    {value : Option EmitterValue} {entry : Object EmitterKey EmitterValue}
    (hentry : w.objects.setOwn this key value object = some entry)
    (hparent : entry.prototype = some parent) : emitters parent = false := by
  unfold Heap.setOwn at hentry
  by_cases heq : object = this
  · subst heq
    rw [Function.update_self, Option.map_eq_some_iff] at hentry
    obtain ⟨old, hold, rfl⟩ := hentry
    exact h.prototypes hold hparent
  · rw [Function.update_of_ne heq] at hentry
    exact h.prototypes hentry hparent

/-- A new object of events for an emitter that has none. -/
theorem Separate.newEvents
    (h : Separate emitters w) (hthis : emitters this = true) (hexists : this < w.nextObject) :
    Separate emitters { w.setEvents this w.nextTable with
      tables := Function.update w.tables w.nextTable []
      nextTable := w.nextTable + 1 } := by
  have hown := h.own_setEvents hexists w.nextTable
  have hmem : ∀ {table event}, event ∈ Function.update w.tables w.nextTable [] table →
      event ∈ w.tables table := by
    intro table event hevent
    by_cases heq : table = w.nextTable
    · rw [heq, Function.update_self] at hevent
      simp at hevent
    · rwa [Function.update_of_ne heq] at hevent
  refine ⟨?_, ?_, ?_, ?_, ?_, ?_, h.prototypes_setOwn, ?_⟩
  · intro object value hvalue
    rw [hown] at hvalue
    split at hvalue
    · rename_i heq
      exact ⟨heq ▸ hthis, w.nextTable, Nat.lt_succ_self _, (Option.some.inj hvalue).symm⟩
    · obtain ⟨hemitter, table, hlt, heq⟩ := h.owned hvalue
      exact ⟨hemitter, table, Nat.lt_succ_of_lt hlt, heq⟩
  · intro object object' table hobject hobject'
    rw [hown] at hobject hobject'
    have hfresh : ∀ {other}, w.objects.own other .events = some (.events w.nextTable) →
        False := by
      intro other hother
      obtain ⟨_, bound, hlt, heq⟩ := h.owned hother
      cases heq
      exact lt_irrefl _ hlt
    split at hobject <;> split at hobject'
    · simp_all
    · cases hobject
      exact (hfresh hobject').elim
    · cases hobject'
      exact (hfresh hobject).elim
    · exact h.owner hobject hobject'
  · intro table
    by_cases heq : table = w.nextTable
    · simp [heq]
    · simpa [Function.update_of_ne heq] using h.names table
  · exact fun hevent => h.notInherited (hmem hevent)
  · exact fun hevent => h.bounded (hmem hevent)
  · exact fun hevent hevent' => h.arrays (hmem hevent) (hmem hevent')
  · intro object
    have hsome := Heap.isSome_setOwn w.objects this object .events
      (some (.events w.nextTable))
    exact (congrArg (· = true) hsome).to_iff.trans (h.allocated object)

theorem Separate.getEvents
    (h : Separate emitters w) (hthis : emitters this = true) (hexists : this < w.nextObject)
    {table : ℕ} (hget : w.getEvents this = some (table, w')) :
    ActsOn emitters this id w w' ∧
      w'.objects.own this .events = some (.events table) := by
  unfold EmitterWorld.getEvents at hget
  cases hlookup : w.objects.lookup .events prototypeChainSanity this with
  | chainLimit => simp [hlookup] at hget
  | found holder value =>
      have hholder := h.lookup_eq hlookup
      subst hholder
      have hown := Heap.own_of_lookup hlookup
      cases value with
      | value => simp [hlookup] at hget
      | events found =>
          simp only [hlookup, Option.some.injEq, Prod.mk.injEq] at hget
          obtain ⟨rfl, rfl⟩ := hget
          exact ⟨ActsOn.refl h, hown⟩
  | absent =>
      simp only [hlookup, Option.some.injEq, Prod.mk.injEq] at hget
      obtain ⟨rfl, rfl⟩ := hget
      have hsetOwn := h.own_setEvents hexists w.nextTable
      have hnone : w.objects.own this .events = none := by
        by_contra hsome
        obtain ⟨value, hvalue⟩ := Option.ne_none_iff_exists'.mp hsome
        rw [Heap.lookup_eq_of_own hvalue] at hlookup
        contradiction
      have hself : (w.setEvents this w.nextTable).objects.own this .events =
          some (.events w.nextTable) := by
        rw [hsetOwn, if_pos rfl]
      refine ⟨⟨h.newEvents hthis hexists, ?_, ?_, rfl⟩, hself⟩
      · refine Eq.trans (registryOf_of_own hself) ?_
        rw [registryOf_of_none hnone]
        simp
      · intro other hne
        apply registryOf_congr
        · exact (hsetOwn other).trans (if_neg hne)
        · intro table hown
          obtain ⟨_, bound, hlt, heq⟩ := h.owned hown
          cases heq
          refine ⟨?_, fun _ _ => rfl⟩
          exact Function.update_of_ne hlt.ne _ _

theorem names_registryOf {table : ℕ}
    (hown : w.objects.own this .events = some (.events table)) :
    (w.registryOf this).names = (w.tables table).map Prod.fst := by
  rw [registryOf_of_own hown]
  unfold Registry.names
  rw [List.map_map]
  rfl

theorem lookup_eq_none_iff {table : List (DukString × ℕ)} {evt : DukString} :
    table.lookup evt = none ↔ evt ∉ table.map Prod.fst := by
  rw [List.lookup_eq_none_iff]
  simp only [List.mem_map, not_exists, not_and]
  constructor
  · rintro h event hevent rfl
    simpa using h event hevent
  · intro h event hevent
    have hne := h event hevent
    simpa using fun heq => hne heq.symm

theorem tables_addEvent (table : ℕ) (evt : DukString) (other : ℕ) :
    (w.addEvent table evt).tables other =
      if other = table then w.tables table ++ [(evt, w.nextArray)] else w.tables other := by
  unfold EmitterWorld.addEvent
  by_cases heq : other = table
  · rw [if_pos heq, heq]
    exact Function.update_self _ _ _
  · rw [if_neg heq]
    exact Function.update_of_ne heq _ _

theorem Separate.addEvent
    (h : Separate emitters w) {table : ℕ} {evt : DukString}
    (hown : w.objects.own this .events = some (.events table))
    (hnew : evt ∉ (w.tables table).map Prod.fst) (hinherited : evt ∉ inheritedKeys) :
    ActsOn emitters this (fun registry => registry ++ [(evt, [])]) w (w.addEvent table evt) := by
  have hmem : ∀ {other event}, event ∈ (w.addEvent table evt).tables other →
      event ∈ w.tables other ∨ other = table ∧ event = (evt, w.nextArray) := by
    intro other event hevent
    rw [tables_addEvent] at hevent
    split at hevent
    · rename_i heq
      subst heq
      simpa using hevent
    · exact .inl hevent
  have hkept : ∀ {other event}, event ∈ w.tables other →
      (w.addEvent table evt).arrays event.2 = w.arrays event.2 := by
    intro other event hevent
    exact Function.update_of_ne (h.bounded hevent).ne _ _
  refine ⟨⟨h.owned, h.owner, ?_, ?_, ?_, ?_, h.prototypes, h.allocated⟩, ?_, ?_, rfl⟩
  · intro other
    rw [tables_addEvent]
    split
    · rw [List.map_append, List.map_singleton, List.nodup_append]
      refine ⟨h.names table, List.nodup_singleton _, ?_⟩
      intro name hname name' hname' heq
      have hevt : name = evt := heq.trans (List.mem_singleton.mp hname')
      exact hnew (hevt ▸ hname)
    · exact h.names other
  · intro other event hevent
    rcases hmem hevent with hold | ⟨_, rfl⟩
    · exact h.notInherited hold
    · exact hinherited
  · intro other event hevent
    change event.2 < w.nextArray + 1
    rcases hmem hevent with hold | ⟨_, rfl⟩
    · exact Nat.lt_succ_of_lt (h.bounded hold)
    · exact Nat.lt_succ_self _
  · intro other other' event event' hevent hevent' heq
    rcases hmem hevent with hold | ⟨rfl, rfl⟩
    · rcases hmem hevent' with hold' | ⟨_, rfl⟩
      · exact h.arrays hold hold' heq
      · exact absurd heq (h.bounded hold).ne
    · rcases hmem hevent' with hold' | ⟨rfl, rfl⟩
      · exact absurd heq.symm (h.bounded hold').ne
      · exact ⟨rfl, rfl⟩
  · have hself : (w.addEvent table evt).objects.own this .events = some (.events table) := hown
    rw [registryOf_of_own hself, registryOf_of_own hown]
    have htable : (w.addEvent table evt).tables table =
        w.tables table ++ [(evt, w.nextArray)] := by rw [tables_addEvent, if_pos rfl]
    have hempty : (w.addEvent table evt).arrays w.nextArray = [] := by
      simp [EmitterWorld.addEvent]
    rw [htable, List.map_append, List.map_singleton, hempty]
    congr 1
    apply List.map_congr_left
    intro event hevent
    rw [hkept hevent]
  · intro other hne
    apply registryOf_congr
    · rfl
    · intro otherTable hother
      have hdiffers : otherTable ≠ table := by
        rintro rfl
        exact hne (h.owner hother hown)
      refine ⟨?_, fun _ => hkept⟩
      rw [tables_addEvent, if_neg hdiffers]

theorem filter_of_lookup
    {table : List (DukString × ℕ)} {evt : DukString} {array : ℕ}
    (hnames : (table.map Prod.fst).Nodup) (hlookup : table.lookup evt = some array) :
    (table.filter fun event => event.1 = evt) = [(evt, array)] := by
  induction table with
  | nil => simp at hlookup
  | cons event table ih =>
      rw [List.map_cons, List.nodup_cons] at hnames
      rw [List.lookup_cons] at hlookup
      by_cases heq : event.1 = evt
      · have hfirst : (evt == event.1) = true := by simp [heq]
        rw [hfirst] at hlookup
        have hrest : (table.filter fun event => event.1 = evt) = [] := by
          apply List.filter_eq_nil_iff.mpr
          intro other hother hname
          have hsame : other.1 = event.1 := (of_decide_eq_true hname).trans heq.symm
          exact hnames.1 (List.mem_map.mpr ⟨other, hother, hsame⟩)
        rw [List.filter_cons_of_pos (by simp [heq]), hrest, ← Option.some.inj hlookup, ← heq]
      · have hfirst : (evt == event.1) = false := by simpa using fun h => heq h.symm
        rw [hfirst] at hlookup
        rw [List.filter_cons_of_neg (by simp [heq])]
        exact ih hnames.2 hlookup

/-- What `getListeners` finds under a selector, and what it makes of the
registry. -/
theorem Separate.getListenersAsObject
    (h : Separate emitters w) (hthis : emitters this = true) (hexists : this < w.nextObject)
    {evt : Selector} {found : List (DukString × ℕ)}
    (hget : w.getListenersAsObject this evt = some (found, w')) :
    ActsOn emitters this (evt.change id) w w' ∧
      ∃ table, w'.objects.own this .events = some (.events table) ∧
        found = (w'.tables table).filter fun event => evt.matches event.1 := by
  unfold EmitterWorld.getListenersAsObject EmitterWorld.getListeners at hget
  simp only [Option.map_eq_some_iff, Prod.exists] at hget
  obtain ⟨listeners, w'', ⟨table, w₁, hevents, hlisteners⟩, hfound⟩ := hget
  obtain ⟨hstep, hown⟩ := h.getEvents hthis hexists hevents
  cases evt with
  | regExp test =>
      simp only [Prod.mk.injEq] at hlisteners hfound
      obtain ⟨rfl, rfl⟩ := hlisteners
      obtain ⟨rfl, rfl⟩ := hfound
      refine ⟨?_, table, hown, rfl⟩
      have hid : (Selector.regExp test).change id = id := by
        funext registry
        exact Registry.changeWhere_id test
      rw [hid]
      exact hstep
  | string evt =>
      simp only at hlisteners
      have hnames := names_registryOf hown
      have hsame : w₁.registryOf this = w.registryOf this := hstep.self
      cases hlookup : (w₁.tables table).lookup evt with
      | some array =>
          simp only [hlookup, Prod.mk.injEq] at hlisteners
          obtain ⟨rfl, rfl⟩ := hlisteners
          simp only [Prod.mk.injEq] at hfound
          obtain ⟨rfl, rfl⟩ := hfound
          have hmem : evt ∈ (w₁.tables table).map Prod.fst := by
            by_contra hmem
            rw [lookup_eq_none_iff.mpr hmem] at hlookup
            contradiction
          obtain ⟨event, hevent, hname⟩ := List.mem_map.mp hmem
          have hinherited := hstep.separate.notInherited hevent
          rw [hname] at hinherited
          refine ⟨⟨hstep.separate, ?_, hstep.others, hstep.nextObject⟩, table, hown, ?_⟩
          · rw [← hnames] at hmem
            rw [change_of_not_inherited hinherited, ← hsame, Registry.changeAt_of_mem hmem,
              Registry.changeWhere_id]
          · exact (filter_of_lookup (hstep.separate.names table) hlookup).symm
      | none =>
          have hnew := lookup_eq_none_iff.mp hlookup
          simp only [hlookup] at hlisteners
          by_cases hinherited : evt ∈ inheritedKeys
          · rw [if_pos (List.contains_iff_mem.mpr hinherited), Prod.mk.injEq] at hlisteners
            obtain ⟨rfl, rfl⟩ := hlisteners
            simp only [Prod.mk.injEq] at hfound
            obtain ⟨rfl, rfl⟩ := hfound
            refine ⟨⟨hstep.separate, ?_, hstep.others, hstep.nextObject⟩, table, hown, ?_⟩
            · rw [change_of_inherited hinherited, hsame]
            · apply Eq.symm
              apply List.filter_eq_nil_iff.mpr
              intro event hevent hname
              have heq : event.1 = evt := of_decide_eq_true hname
              exact hstep.separate.notInherited hevent (heq ▸ hinherited)
          · rw [if_neg (mt List.contains_iff_mem.mp hinherited), Prod.mk.injEq] at hlisteners
            obtain ⟨rfl, rfl⟩ := hlisteners
            simp only [Prod.mk.injEq] at hfound
            obtain ⟨rfl, rfl⟩ := hfound
            have hadd := hstep.separate.addEvent hown hnew hinherited
            have hboth := hstep.trans hadd
            refine ⟨⟨hboth.separate, ?_, hboth.others, hboth.nextObject⟩, table, hown, ?_⟩
            · rw [← hnames] at hnew
              rw [change_of_not_inherited hinherited, hboth.self, ← hsame,
                Registry.changeAt_of_notMem hnew]
              rfl
            · rw [tables_addEvent, if_pos rfl, List.filter_append]
              have hnone : (w₁.tables table).filter
                  (fun event => (Selector.string evt).matches event.1) = [] := by
                apply List.filter_eq_nil_iff.mpr
                intro event hevent hname
                have heq : event.1 = evt := of_decide_eq_true hname
                exact hnew (List.mem_map.mpr ⟨event, hevent, heq⟩)
              rw [hnone]
              simp [Selector.matches, EmitterWorld.Listeners.properties]

/-! ## Methods -/

theorem foldl_setArray (change : List ListenerObject → List ListenerObject) :
    ∀ {found : List (DukString × ℕ)} {w : EmitterWorld}, (found.map Prod.snd).Nodup →
      found.foldl (fun w event => w.setArray event.2 (change (w.arrays event.2))) w =
        { w with arrays := fun array =>
            if array ∈ found.map Prod.snd then change (w.arrays array) else w.arrays array }
  | [], w, _ => by simp
  | event :: found, w, hnodup => by
      rw [List.map_cons, List.nodup_cons] at hnodup
      rw [List.foldl_cons, foldl_setArray change hnodup.2]
      unfold EmitterWorld.setArray
      congr 1
      funext array
      by_cases heq : array = event.2
      · subst heq
        simp [hnodup.1]
      · simp only [List.map_cons, List.mem_cons, heq, false_or, Function.update_of_ne heq]

theorem Separate.nodup_arrays (h : Separate emitters w) (table : ℕ) :
    ((w.tables table).map Prod.snd).Nodup := by
  have hnodup : (w.tables table).Nodup := List.Nodup.of_map Prod.fst (h.names table)
  apply List.Nodup.map_on _ hnodup
  intro event hevent event' hevent' heq
  exact (h.arrays hevent hevent' heq).2

theorem Selector.change_eq (evt : Selector)
    (change : List ListenerObject → List ListenerObject) {registry : EventRegistry}
    (hnames : ∀ name ∈ registry.names, name ∉ inheritedKeys) :
    evt.change change registry = (evt.change id registry).changeWhere evt.matches change := by
  cases evt with
  | regExp test =>
      change registry.changeWhere test change =
        (registry.changeWhere test id).changeWhere test change
      rw [Registry.changeWhere_id]
  | string evt =>
      by_cases hinherited : evt ∈ inheritedKeys
      · rw [change_of_inherited hinherited, change_of_inherited hinherited]
        apply Eq.symm
        apply Registry.changeWhere_of_forall_not
        intro name hname
        apply decide_eq_false
        rintro rfl
        exact hnames name hname hinherited
      · rw [change_of_not_inherited hinherited, change_of_not_inherited hinherited]
        exact (Registry.changeWhere_changeAt_id evt).symm

theorem Separate.names_notInherited (h : Separate emitters w) :
    ∀ name ∈ (w.registryOf this).names, name ∉ inheritedKeys := by
  intro name hname
  cases hown : w.objects.own this .events with
  | none =>
      rw [registryOf_of_none hown] at hname
      simp [Registry.names] at hname
  | some value =>
      obtain ⟨_, table, _, rfl⟩ := h.owned hown
      rw [names_registryOf hown] at hname
      obtain ⟨event, hevent, rfl⟩ := List.mem_map.mp hname
      exact h.notInherited hevent

theorem Separate.changeListeners
    (h : Separate emitters w) (hthis : emitters this = true) (hexists : this < w.nextObject)
    {evt : Selector} {change : List ListenerObject → List ListenerObject}
    (hchange : w.changeListeners this evt change = some w') :
    ActsOn emitters this (evt.change change) w w' := by
  unfold EmitterWorld.changeListeners at hchange
  simp only [Option.map_eq_some_iff, Prod.exists] at hchange
  obtain ⟨found, w₁, hget, rfl⟩ := hchange
  obtain ⟨hstep, table, hown, hfound⟩ := h.getListenersAsObject hthis hexists hget
  have hsub : ∀ event ∈ found, event ∈ w₁.tables table := by
    intro event hevent
    rw [hfound] at hevent
    exact (List.mem_filter.mp hevent).1
  have hnodup : (found.map Prod.snd).Nodup := by
    rw [hfound]
    exact List.Nodup.sublist (List.filter_sublist.map Prod.snd)
      (hstep.separate.nodup_arrays table)
  rw [foldl_setArray change hnodup]
  have hsep := hstep.separate
  refine ⟨⟨hsep.owned, hsep.owner, hsep.names, hsep.notInherited, hsep.bounded, hsep.arrays,
    hsep.prototypes, hsep.allocated⟩, ?_, ?_, hstep.nextObject⟩
  · rw [evt.change_eq change h.names_notInherited, ← hstep.self]
    refine Eq.trans (registryOf_of_own hown) ?_
    rw [registryOf_of_own hown]
    unfold Registry.changeWhere
    rw [List.map_map]
    apply List.map_congr_left
    intro event hevent
    have hmem : event.2 ∈ found.map Prod.snd ↔ evt.matches event.1 = true := by
      constructor
      · intro hmem
        obtain ⟨event', hevent', heq⟩ := List.mem_map.mp hmem
        have hsame := (hsep.arrays (hsub event' hevent') hevent heq).2
        rw [hfound] at hevent'
        exact hsame ▸ (List.mem_filter.mp hevent').2
      · intro hmatch
        rw [hfound]
        exact List.mem_map_of_mem (List.mem_filter.mpr ⟨hevent, hmatch⟩)
    simp only [Function.comp_apply]
    by_cases hmatch : evt.matches event.1 = true
    · rw [if_pos (hmem.mpr hmatch), if_pos hmatch]
    · rw [if_neg (fun hin => hmatch (hmem.mp hin)), if_neg hmatch]
  · intro other hne
    rw [← hstep.others other hne]
    apply registryOf_congr
    · rfl
    · intro otherTable hother
      refine ⟨rfl, ?_⟩
      intro event hevent
      apply if_neg
      intro hmem
      obtain ⟨event', hevent', heq⟩ := List.mem_map.mp hmem
      have hsame := (hsep.arrays (hsub event' hevent') hevent heq).1
      subst hsame
      exact hne (hsep.owner hother hown)

theorem Separate.single
    (h : Separate emitters w) (hthis : emitters this = true) (hexists : this < w.nextObject)
    {remove : Bool} {evt : Selector} {listener : ListenerArgument}
    (hsingle : w.single remove this evt listener = some w') :
    ActsOn emitters this (singleSpec remove evt listener) w w' := by
  cases remove with
  | true =>
      have hstep := h.changeListeners hthis hexists hsingle
      rwa [spliceListener_eq] at hstep
  | false =>
      have hstep := h.changeListeners hthis hexists hsingle
      rwa [pushUnlessPresent_eq] at hstep

/-- A loop whose steps act on one emitter acts on that emitter. -/
theorem actsOn_foldlM
    {α : Type} {f : EmitterWorld → α → Option EmitterWorld}
    {spec : EventRegistry → α → EventRegistry}
    (hf : ∀ w w' item, Separate emitters w → this < w.nextObject → f w item = some w' →
      ActsOn emitters this (fun registry => spec registry item) w w') :
    ∀ {items : List α} {w w' : EmitterWorld}, Separate emitters w → this < w.nextObject →
      items.foldlM f w = some w' →
      ActsOn emitters this (fun registry => items.foldl spec registry) w w'
  | [], w, w', h, _, hrun => by
      cases hrun
      exact ActsOn.refl h
  | item :: items, w, w', h, hexists, hrun => by
      rw [List.foldlM_cons] at hrun
      obtain ⟨w₁, hfirst, hrest⟩ := Option.bind_eq_some_iff.mp hrun
      have hstep := hf w w₁ item h hexists hfirst
      exact hstep.trans
        (actsOn_foldlM hf hstep.separate (hstep.nextObject ▸ hexists) hrest)

theorem Separate.manipulateArray
    (h : Separate emitters w) (hthis : emitters this = true) (hexists : this < w.nextObject)
    {remove : Bool} {evt : Selector} {listeners : List ListenerArgument}
    (hrun : w.manipulateArray remove this evt listeners = some w') :
    ActsOn emitters this (arraySpec remove evt listeners) w w' := by
  have hstep : ActsOn emitters this (fun registry =>
      listeners.reverse.foldl (fun registry listener => singleSpec remove evt listener registry)
        registry) w w' :=
    actsOn_foldlM (fun _ _ _ hsep hlt hsingle => hsep.single hthis hlt hsingle) h hexists hrun
  have heq : (fun registry => listeners.reverse.foldl
      (fun registry listener => singleSpec remove evt listener registry) registry) =
        arraySpec remove evt listeners := by
    funext registry
    exact List.foldl_reverse
  rwa [heq] at hstep

theorem Separate.filterEvents
    (h : Separate emitters w) {table : ℕ} {matching : DukString → Bool}
    (hown : w.objects.own this .events = some (.events table)) :
    ActsOn emitters this (Registry.removeWhere matching) w
      (w.filterEvents table fun evt => !matching evt) := by
  have htables : ∀ other, (w.filterEvents table fun evt => !matching evt).tables other =
      if other = table then (w.tables table).filter fun event => !matching event.1
      else w.tables other := by
    intro other
    unfold EmitterWorld.filterEvents
    by_cases heq : other = table
    · rw [if_pos heq, heq]
      exact Function.update_self _ _ _
    · rw [if_neg heq]
      exact Function.update_of_ne heq _ _
  have hsublist : ∀ other, ((w.filterEvents table fun evt => !matching evt).tables
      other).Sublist (w.tables other) := by
    intro other
    rw [htables]
    split
    · rename_i heq
      rw [heq]
      exact List.filter_sublist
    · exact List.Sublist.refl _
  have hmem := fun {other event} (hevent : event ∈ _) => (hsublist other).subset hevent
  refine ⟨⟨h.owned, h.owner, ?_, fun hevent => h.notInherited (hmem hevent),
    fun hevent => h.bounded (hmem hevent),
    fun hevent hevent' => h.arrays (hmem hevent) (hmem hevent'), h.prototypes,
    h.allocated⟩, ?_, ?_, rfl⟩
  · exact fun other => List.Nodup.sublist ((hsublist other).map Prod.fst) (h.names other)
  · refine Eq.trans (registryOf_of_own hown) ?_
    rw [registryOf_of_own hown, htables, if_pos rfl]
    unfold Registry.removeWhere
    rw [List.filter_map]
    rfl
  · intro other hne
    apply registryOf_congr
    · rfl
    · intro otherTable hother
      have hdiffers : otherTable ≠ table := by
        rintro rfl
        exact hne (h.owner hother hown)
      refine ⟨?_, fun _ _ => rfl⟩
      rw [htables, if_neg hdiffers]

theorem Separate.own_setOwn
    (h : Separate emitters w) (hexists : this < w.nextObject) (key : EmitterKey)
    (value : Option EmitterValue) (object : ℕ) :
    (w.objects.setOwn this key value).own object .events =
      if object = this ∧ EmitterKey.events = key then value
      else w.objects.own object .events :=
  Heap.own_setOwn w.objects object key .events value ((h.allocated this).mpr hexists)

/-- A write to a property that leaves the emitter what it had, or nothing. -/
theorem Separate.setOwn
    (h : Separate emitters w) (hexists : this < w.nextObject) {key : EmitterKey}
    {value : Option EmitterValue} (hvalue : key = .events → value = none) :
    Separate emitters { w with objects := w.objects.setOwn this key value } := by
  have hown : ∀ {object stored},
      (w.objects.setOwn this key value).own object .events = some stored →
        w.objects.own object .events = some stored := by
    intro object stored hstored
    rw [h.own_setOwn hexists] at hstored
    split at hstored
    · rename_i hboth
      rw [hvalue hboth.2.symm] at hstored
      contradiction
    · exact hstored
  refine ⟨fun hstored => h.owned (hown hstored),
    fun hstored hstored' => h.owner (hown hstored) (hown hstored'), h.names,
    h.notInherited, h.bounded, h.arrays, h.prototypes_setOwn, ?_⟩
  intro object
  have hsome := Heap.isSome_setOwn w.objects this object key value
  exact (congrArg (· = true) hsome).to_iff.trans (h.allocated object)

theorem Separate.deleteEvents
    (h : Separate emitters w) (hexists : this < w.nextObject) :
    ActsOn emitters this (fun _ => []) w
      { w with objects := w.objects.setOwn this .events none } := by
  refine ⟨h.setOwn hexists fun _ => rfl, ?_, ?_, rfl⟩
  · apply registryOf_of_none
    change (w.objects.setOwn this .events none).own this .events = none
    rw [h.own_setOwn hexists, if_pos ⟨rfl, rfl⟩]
  · intro other hne
    apply registryOf_congr
    · change (w.objects.setOwn this .events none).own other .events = _
      rw [h.own_setOwn hexists, if_neg (fun hboth => hne hboth.1)]
    · exact fun _ _ => ⟨rfl, fun _ _ => rfl⟩

theorem Separate.setOnceReturnValue
    (h : Separate emitters w) (hexists : this < w.nextObject) (value : JSValue) :
    ActsOn emitters this id w (w.setOnceReturnValue this value) := by
  have hsame : ∀ object,
      (w.setOnceReturnValue this value).registryOf object = w.registryOf object := by
    intro object
    apply registryOf_congr
    · change (w.objects.setOwn this .onceReturnValue _).own object .events = _
      rw [h.own_setOwn hexists, if_neg (by simp)]
    · exact fun _ _ => ⟨rfl, fun _ _ => rfl⟩
  refine ⟨h.setOwn hexists fun hkey => ?_, hsame this, fun other _ => hsame other, rfl⟩
  contradiction

theorem Separate.removeEvent
    (h : Separate emitters w) (hthis : emitters this = true) (hexists : this < w.nextObject)
    {evt : Option Selector} (hremove : w.removeEvent this evt = some w') :
    ActsOn emitters this (EmitterMethod.removeEvent evt).spec w w' := by
  unfold EmitterWorld.removeEvent at hremove
  simp only [Option.map_eq_some_iff, Prod.exists] at hremove
  obtain ⟨table, w₁, hget, rfl⟩ := hremove
  obtain ⟨hstep, hown⟩ := h.getEvents hthis hexists hget
  have hexists' : this < w₁.nextObject := hstep.nextObject ▸ hexists
  cases evt with
  | none => exact hstep.trans (hstep.separate.deleteEvents hexists')
  | some evt =>
      cases evt with
      | regExp test => exact hstep.trans (hstep.separate.filterEvents hown)
      | string evt =>
          have hkeep : (fun name : DukString => decide (name ≠ evt)) =
              fun name => !(Selector.string evt).matches name := by
            funext name
            simp [Selector.matches]
          have hfilter : ActsOn emitters this
              (Registry.removeWhere (Selector.string evt).matches) w₁ _ :=
            hstep.separate.filterEvents hown
          rw [← hkeep] at hfilter
          exact hstep.trans hfilter

theorem Separate.getListeners
    (h : Separate emitters w) (hthis : emitters this = true) (hexists : this < w.nextObject)
    {evt : Selector} {listeners : Listeners}
    (hget : w.getListeners this evt = some (listeners, w')) :
    ActsOn emitters this (evt.change id) w w' := by
  have hobject : w.getListenersAsObject this evt =
      some (EmitterWorld.Listeners.properties evt listeners, w') := by
    unfold EmitterWorld.getListenersAsObject
    rw [hget]
    rfl
  exact (h.getListenersAsObject hthis hexists hobject).1

/-- Each method acts on its emitter as it is meant to, and on no other. -/
theorem Separate.method
    (h : Separate emitters w) (hthis : emitters this = true) (hexists : this < w.nextObject)
    {method : EmitterMethod} (hrun : method.run w this = some w') :
    ActsOn emitters this method.spec w w' := by
  cases method with
  | addListener evt listener =>
      have hstep := h.changeListeners hthis hexists hrun
      rwa [pushUnlessPresent_eq] at hstep
  | addOnceListener evt listener =>
      have hstep := h.changeListeners hthis hexists hrun
      rwa [pushUnlessPresent_eq] at hstep
  | removeListener evt listener =>
      have hstep := h.changeListeners hthis hexists hrun
      rwa [spliceListener_eq] at hstep
  | getListeners evt =>
      obtain ⟨⟨listeners, w₁⟩, hget, heq⟩ := Option.map_eq_some_iff.mp hrun
      subst heq
      exact h.getListeners hthis hexists hget
  | defineEvents evts =>
      apply actsOn_foldlM _ h hexists hrun
      intro w w' evt hsep hlt hdefine
      obtain ⟨⟨listeners, w₁⟩, hget, heq⟩ := Option.map_eq_some_iff.mp hdefine
      subst heq
      exact hsep.getListeners hthis hlt hget
  | manipulateArray remove evt listeners => exact h.manipulateArray hthis hexists hrun
  | manipulateObject remove properties =>
      apply actsOn_foldlM _ h hexists hrun
      intro w w' property hsep hlt hproperty
      cases property with
      | mk evt value =>
          cases value with
          | function id => exact hsep.single hthis hlt hproperty
          | array listeners => exact hsep.manipulateArray hthis hlt hproperty
  | removeEvent evt => exact h.removeEvent hthis hexists hrun
  | setOnceReturnValue value =>
      cases hrun
      exact h.setOnceReturnValue hexists value

/-! ## Runs -/

/-- The emitter that an operation acts on, and how. -/
def EmitterOp.spec : EmitterOp → EventRegistry → EventRegistry
  | .method _ called => called.spec
  | .getListenersAsObject _ evt => evt.change id
  | .removeListener _ evt listener => evt.change (unregister listener)
  | _ => id

def EmitterOp.actor : EmitterOp → Option ℕ
  | .method this _ => some this
  | .getListenersAsObject this _ => some this
  | .removeListener this _ _ => some this
  | _ => none

/-- What the operations in this log, the latest first, make of a registry that
is empty at first. -/
def replay (object : ℕ) (log : List EmitterOp) : EventRegistry :=
  log.foldr (fun op registry => if op.actor = some object then op.spec registry else registry) []

def operations : Observer EmitterCall EmitterOp Unit EmissionLocals (List EmitterOp) where
  effect := fun op _ log => op :: log
  enter := fun _ _ log => log
  leave := fun _ _ log => log
  abandon := fun _ log => log

theorem Separate.create
    (h : Separate emitters w) {action : CreateObject}
    (hprototype : emitters action.prototype = false) (hcreate : w.create action = some w') :
    Separate emitters w' ∧ (∀ object, w'.registryOf object = w.registryOf object) ∧
      w.nextObject ≤ w'.nextObject := by
  unfold EmitterWorld.create at hcreate
  split at hcreate
  · have hw := Option.some.inj hcreate
    subst w'
    have hnone : w.objects w.nextObject = none := by
      have hsome := h.allocated w.nextObject
      simpa using hsome
    have hown : ∀ object,
        (w.objects.allocate w.nextObject (some action.prototype)).own object .events =
          w.objects.own object .events := by
      intro object
      rw [Heap.own_allocate]
      split
      · rename_i heq
        rw [heq]
        simp [Heap.own, hnone]
      · rfl
    refine ⟨⟨?_, ?_, h.names, h.notInherited, h.bounded, h.arrays, ?_, ?_⟩, ?_,
      Nat.le_succ _⟩
    · intro object value hvalue
      exact h.owned ((hown object).symm.trans hvalue)
    · intro object object' table hobject hobject'
      exact h.owner ((hown object).symm.trans hobject) ((hown object').symm.trans hobject')
    · intro object entry parent hentry hparent
      change w.objects.allocate w.nextObject _ object = some entry at hentry
      unfold Heap.allocate at hentry
      by_cases heq : object = w.nextObject
      · subst heq
        rw [Function.update_self] at hentry
        cases hentry
        cases hparent
        exact hprototype
      · rw [Function.update_of_ne heq] at hentry
        exact h.prototypes hentry hparent
    · intro object
      change ((w.objects.allocate w.nextObject _) object).isSome = true ↔ _ < w.nextObject + 1
      unfold Heap.allocate
      by_cases heq : object = w.nextObject
      · simp [heq]
      · rw [Function.update_of_ne heq]
        exact (h.allocated object).trans (by omega)
    · intro object
      exact registryOf_congr (hown object) fun _ _ => ⟨rfl, fun _ _ => rfl⟩
  · contradiction

theorem own_initial (object : ℕ) (key : EmitterKey) :
    EmitterWorld.initial.objects.own object key = none := by
  change ((Heap.allocate (fun _ => none) prototypeId none).own object key : Option _) = none
  rw [Heap.own_allocate]
  split <;> rfl

theorem separate_initial : Separate emitters EmitterWorld.initial := by
  refine ⟨?_, ?_, fun _ => List.nodup_nil, ?_, ?_, ?_, ?_, ?_⟩
  · intro object value hvalue
    rw [own_initial] at hvalue
    contradiction
  · intro object object' table hobject
    rw [own_initial] at hobject
    contradiction
  · intro table event hevent
    cases hevent
  · intro table event hevent
    cases hevent
  · intro table table' event event' hevent
    cases hevent
  · intro object entry parent hentry hparent
    change Heap.allocate (fun _ => none) prototypeId none object = some entry at hentry
    unfold Heap.allocate at hentry
    by_cases heq : object = prototypeId
    · subst heq
      rw [Function.update_self] at hentry
      cases hentry
      contradiction
    · rw [Function.update_of_ne heq] at hentry
      contradiction
  · intro object
    change (Heap.allocate (fun _ => none) prototypeId none object).isSome = true ↔ object < 1
    unfold Heap.allocate
    by_cases heq : object = prototypeId
    · subst heq
      simp [prototypeId]
    · rw [Function.update_of_ne heq]
      unfold prototypeId at heq
      simp only [Option.isSome_none, Bool.false_eq_true, false_iff]
      omega

/-! ## The operations of a body -/

/-- An operation of an activation on this emitter. -/
def EmitterOp.On (this : ℕ) (op : EmitterOp) : Prop :=
  op.actor = none ∨ op.actor = some this

theorem all_removeIf (condition : Bool) (this : ℕ) (evt : Selector) (listener : ℕ) :
    (removeIf condition this evt listener).All (EmitterOp.On this) := by
  unfold removeIf
  split
  · exact ⟨.inr rfl, fun _ => trivial⟩
  · exact trivial

theorem all_callListener (this : ℕ) (evt : Selector) (args : List JSValue)
    (listener : ListenerObject) :
    (callListener this evt args listener).All (EmitterOp.On this) := by
  apply Program.All.bind (all_removeIf _ this evt _)
  intro _
  refine ⟨.inl rfl, fun _ => ⟨.inl rfl, fun response => ⟨.inl rfl, fun value => ?_⟩⟩⟩
  exact all_removeIf _ this evt _

theorem all_body (call : EmitterCall) : call.body.All (EmitterOp.On call.this) := by
  cases call with
  | method this method => exact ⟨.inr rfl, fun _ => trivial⟩
  | emitEvent this evt args =>
      refine ⟨.inr rfl, fun listenersMap => ?_⟩
      apply Program.All.forM
      intro event _
      refine ⟨.inl rfl, fun listeners => ?_⟩
      apply Program.All.forM
      intro listener _
      exact all_callListener this evt args listener

theorem spec_of_actor_eq_none {op : EmitterOp} (h : op.actor = none) : op.spec = id := by
  cases op with
  | method | getListenersAsObject | removeListener => contradiction
  | slice | apply | returns | getOnceReturnValue => rfl

theorem EmitterOp.On.eq {op : EmitterOp} (hon : op.On this) {actor : ℕ}
    (hactor : op.actor = some actor) : actor = this := by
  rcases hon with hnone | hsome
  · rw [hnone] at hactor
    contradiction
  · rw [hsome] at hactor
    exact (Option.some.inj hactor).symm

theorem Separate.effect
    (h : Separate emitters w) (hthis : emitters this = true) (hexists : this < w.nextObject)
    {op : EmitterOp} (hon : op.On this) {answer : op.Answer} {l l' : EmissionLocals}
    (heffect : emitterEffect op w l = some (answer, w', l')) :
    ActsOn emitters this op.spec w w' := by
  cases op with
  | method actor method =>
      have heq := hon.eq rfl
      subst heq
      obtain ⟨w₁, hrun, hdone⟩ := Option.map_eq_some_iff.mp heffect
      cases hdone
      exact h.method hthis hexists hrun
  | getListenersAsObject actor evt =>
      have heq := hon.eq rfl
      subst heq
      obtain ⟨⟨listeners, w₁⟩, hget, hdone⟩ := Option.map_eq_some_iff.mp heffect
      cases hdone
      exact (h.getListenersAsObject hthis hexists hget).1
  | removeListener actor evt listener =>
      have heq := hon.eq rfl
      subst heq
      obtain ⟨w₁, hremove, hdone⟩ := Option.map_eq_some_iff.mp heffect
      cases hdone
      have hstep := h.changeListeners hthis hexists hremove
      rw [spliceListener_eq] at hstep
      exact hstep
  | slice array =>
      cases heffect
      exact ActsOn.refl h
  | apply this evt listener args =>
      cases heffect
      exact ActsOn.refl h
  | returns => cases heffect
  | getOnceReturnValue this =>
      cases heffect
      exact ActsOn.refl h

/-- Every registry is what the operations on its emitter have made of it. -/
structure Replayed (emitters : ℕ → Bool) (w : EmitterWorld × List EmitterOp) : Prop where
  separate : Separate emitters w.1
  registries : ∀ object, w.1.registryOf object = replay object w.2

theorem Replayed.step
    {log : List EmitterOp} (h : Replayed emitters (w, log)) {op : EmitterOp}
    (hon : op.On this) (hstep : ActsOn emitters this op.spec w w') :
    Replayed emitters (w', op :: log) := by
  refine ⟨hstep.separate, ?_⟩
  intro object
  have hold : w.registryOf object = replay object log := h.registries object
  change w'.registryOf object =
    if op.actor = some object then op.spec (replay object log) else replay object log
  rw [← hold]
  by_cases heq : object = this
  · subst heq
    rw [hstep.self]
    rcases hon with hnone | hsome
    · rw [spec_of_actor_eq_none hnone]
      split <;> rfl
    · rw [if_pos hsome]
  · rw [hstep.others object heq, if_neg]
    intro hactor
    exact heq (hon.eq hactor)

/-- The script uses as emitters only objects from which nothing inherits. -/
def apart (emitters : ℕ → Bool) : Discipline EmitterCall EmitterOp EmitterOp.Answer
    CreateObject (EmitterWorld × List EmitterOp) EmissionLocals where
  Inv := fun _ w => Replayed emitters w
  Rely := fun w w' => w.1.nextObject ≤ w'.1.nextObject
  rely_refl := fun _ => le_rfl
  rely_trans := le_trans
  mayEnter := fun _ _ call => emitters call.this = true
  mayAnswer := fun _ _ _ _ => True
  mayAbandon := fun _ _ => True
  mayExternal := fun _ _ action => emitters action.prototype = false

/-- What an activation on an emitter knows; `least` objects existed when it was
entered. -/
structure OnEmitter (emitters : ℕ → Bool) (this least : ℕ)
    (w : EmitterWorld × List EmitterOp) : Prop where
  replayed : Replayed emitters w
  emitter : emitters this = true
  existed : this < least
  least : least ≤ w.1.nextObject

theorem OnEmitter.step
    {least : ℕ} {log : List EmitterOp} (h : OnEmitter emitters this least (w, log))
    {op : EmitterOp} (hon : op.On this) {answer : op.Answer} {l l' : EmissionLocals}
    (heffect : emitterEffect op w l = some (answer, w', l')) :
    OnEmitter emitters this least (w', op :: log) := by
  have hexists := h.existed.trans_le h.least
  have hstep := h.replayed.separate.effect h.emitter hexists hon heffect
  exact ⟨h.replayed.step hon hstep, h.emitter, h.existed, hstep.nextObject ▸ h.least⟩

theorem keeps_onEmitter {call : EmitterCall} {least : ℕ} {op : EmitterOp}
    (hon : op.On call.this) :
    (apart emitters).Keeps (emitterHost.observe operations) call
      (fun w _ => OnEmitter emitters call.this least w) op := by
  constructor
  · intro _ answer w l w' l' h hresume _
    cases hresume
    exact h
  · intro _ answer w l w' l' h heffect
    obtain ⟨hdone, hlog⟩ := Host.of_observe_effect heffect
    have hw : w' = (w'.1, op :: w.2) := Prod.ext rfl hlog
    rw [hw]
    exact h.step hon hdone

theorem stable_onEmitter
    {call : EmitterCall} {below : List (Frame EmitterCall EmissionLocals)}
    {entry : EmitterWorld × List EmitterOp} :
    (apart emitters).Stable (emitterHost.observe operations) below call entry
      (fun w _ => OnEmitter emitters call.this entry.1.nextObject w) := by
  constructor
  · exact fun _ _ h => h.replayed
  · intro w₁ w₂ _ h hrely hinv
    exact ⟨hinv, h.emitter, h.existed, h.least.trans hrely⟩
  · exact fun _ _ h _ => ⟨h.replayed, h.least⟩

theorem of_emitter_enter
    {History : Type} {observer : Observer EmitterCall EmitterOp Unit EmissionLocals History}
    {below : List (Frame EmitterCall EmissionLocals)} {awaited : Option EmitterOp}
    {call : EmitterCall} {w w' : EmitterWorld × History} {l : EmissionLocals}
    (henter : (emitterHost.observe observer).enter w below awaited call = some (w', l)) :
    call.this < w.1.nextObject ∧ w' = (w.1, observer.enter call l w.2) ∧
      l = ⟨call.start w.1, [], []⟩ := by
  obtain ⟨hdone, hlog⟩ := Host.of_observe_enter henter
  change (if call.this < w.1.nextObject then some (w.1, _) else none) = _ at hdone
  split at hdone
  · rename_i hexists
    obtain ⟨hworld, hl⟩ := Prod.mk.inj (Option.some.inj hdone)
    exact ⟨hexists, Prod.ext hworld.symm hlog, hl.symm⟩
  · contradiction

theorem Replayed.create
    {w w' : EmitterWorld × List EmitterOp} (h : Replayed emitters w) {action : CreateObject}
    (hprototype : emitters action.prototype = false)
    (hcreate : (emitterHost.observe operations).external w action = some w') :
    Replayed emitters w' ∧ w.1.nextObject ≤ w'.1.nextObject ∧ w'.2 = w.2 := by
  simp only [Host.observe, Option.map_eq_some_iff] at hcreate
  obtain ⟨w₁, hcreate, rfl⟩ := hcreate
  obtain ⟨hseparate, hsame, hle⟩ := h.separate.create hprototype hcreate
  exact ⟨⟨hseparate, fun object => (hsame object).trans (h.registries object)⟩, hle, rfl⟩

theorem apart_sound : (apart emitters).Sound (emitterHost.observe operations) := by
  constructor
  · intro below w awaited call w' l hinv hmay henter
    obtain ⟨hexists, rfl, _⟩ := of_emitter_enter henter
    have hentered : OnEmitter emitters call.this w.1.nextObject w :=
      ⟨hinv, hmay, hexists, le_rfl⟩
    have hmeets : (apart emitters).Meets (emitterHost.observe operations) below call w
        (fun _ w' _ => OnEmitter emitters call.this w.1.nextObject w') call.body w l :=
      Discipline.Meets.of_all stable_onEmitter
        ((all_body call).mono fun op hon => keeps_onEmitter hon) hentered
    refine ⟨le_rfl, hmeets.mono ?_⟩
    exact fun _ _ _ h => ⟨h.replayed, h.least⟩
  · intro stack w action w' hinv hmay hexternal
    obtain ⟨hreplayed, hle, _⟩ := hinv.create hmay hexternal
    exact ⟨hreplayed, hle⟩

theorem replayed_initial : Replayed emitters (EmitterWorld.initial, []) :=
  ⟨separate_initial, fun object => registryOf_of_none (own_initial object .events)⟩

/-- In every run in which no prototype of another object is used as an emitter,
the listeners of an object are what the operations on this object alone have
made of them. -/
theorem registryOf_eq_replay
    {choices : List (Choice EmitterCall EmitterOp EmitterOp.Answer CreateObject)}
    {s : State EmitterCall EmitterOp EmitterOp.Answer Unit
      (EmitterWorld × List EmitterOp) EmissionLocals}
    (hrun : GuardedRun (emitterHost.observe operations).step
      ((apart emitters).Guard (emitterHost.observe operations))
      ⟨(EmitterWorld.initial, []), []⟩ choices s) (object : ℕ) :
    s.world.1.registryOf object = replay object s.world.2 := by
  exact (apart_sound.inv_of_guardedRun replayed_initial hrun).registries object

instance (stack : List (Frame EmitterCall EmissionLocals))
    (w : EmitterWorld × List EmitterOp) (call : EmitterCall) :
    Decidable ((apart emitters).mayEnter stack w call) :=
  inferInstanceAs (Decidable (emitters call.this = true))

instance (frame : Frame EmitterCall EmissionLocals) (w : EmitterWorld × List EmitterOp)
    (op : EmitterOp) (answer : op.Answer) :
    Decidable ((apart emitters).mayAnswer frame w op answer) :=
  inferInstanceAs (Decidable True)

instance (frame : Frame EmitterCall EmissionLocals) (w : EmitterWorld × List EmitterOp) :
    Decidable ((apart emitters).mayAbandon frame w) :=
  inferInstanceAs (Decidable True)

instance (stack : List (Frame EmitterCall EmissionLocals))
    (w : EmitterWorld × List EmitterOp) (action : CreateObject) :
    Decidable ((apart emitters).mayExternal stack w action) :=
  inferInstanceAs (Decidable (emitters action.prototype = false))

/-- The listener returns. -/
def returning (value : JSValue) :
    Choice EmitterCall EmitterOp EmitterOp.Answer CreateObject :=
  .answer fun
    | .returns => some value
    | _ => none

def clicked : DukString := lexerString "clicked".toList

/-- A listener for one call adds another one, and one to another emitter. -/
def addWhileEmitting : List (Choice EmitterCall EmitterOp EmitterOp.Answer CreateObject) :=
  [.external ⟨prototypeId⟩, .external ⟨prototypeId⟩,
    .enter (.method 1 (.addOnceListener (.string clicked) 7)),
    .enter (.emitEvent 1 (.string clicked) []),
    .enter (.method 1 (.addListener (.string clicked) (.function 8))),
    .enter (.method 2 (.addListener (.string clicked) (.function 9))),
    returning .undefined]

theorem registryOf_addWhileEmitting :
    ∃ s, run (emitterHost.observe operations).step ⟨(EmitterWorld.initial, []), []⟩
        addWhileEmitting = some s ∧
      s.world.1.registryOf 1 = [(clicked, [⟨8, false⟩])] ∧
      s.world.1.registryOf 1 = replay 1 s.world.2 := by
  have hchecked : ((checkedRun (emitterHost.observe operations).step
      ((apart (· ≠ prototypeId)).Guard (emitterHost.observe operations))
      ⟨(EmitterWorld.initial, []), []⟩ addWhileEmitting).map
      fun s => s.world.1.registryOf 1) = some [(clicked, [⟨8, false⟩])] := by
    decide +kernel
  obtain ⟨s, hs, hregistry⟩ := Option.map_eq_some_iff.mp hchecked
  have hrun := GuardedRun.of_checkedRun hs
  exact ⟨s, hrun.run_eq, hregistry, registryOf_eq_replay hrun 1⟩

end EventEmitter

end NekoScript
