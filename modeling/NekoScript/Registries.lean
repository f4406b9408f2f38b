import Mathlib.Tactic

/-!
# Registries of listeners

A registry keeps a list of registrations for each of its names, the oldest
first.  A registration is permanent or for one call.  Taking a listener out
takes out its latest registration.
-/

namespace Registries

structure Registration (Listener : Type) where
  listener : Listener
  once : Bool
  deriving DecidableEq

variable {Name Listener : Type} [DecidableEq Listener]

abbrev Registrations (Listener : Type) := List (Registration Listener)

def holds (listener : Listener) (registrations : Registrations Listener) : Bool :=
  registrations.any fun r => r.listener = listener

/-- Register permanently, unless the listener is there already. -/
def register (listener : Listener) (registrations : Registrations Listener) :
    Registrations Listener :=
  if holds listener registrations then registrations
  else registrations ++ [⟨listener, false⟩]

def unregister (listener : Listener) (registrations : Registrations Listener) :
    Registrations Listener :=
  (registrations.reverse.eraseP fun r => r.listener = listener).reverse

/-! ## Taking out -/

theorem unregister_of_forall_ne
    {listener : Listener} {registrations : Registrations Listener}
    (h : ∀ r ∈ registrations, r.listener ≠ listener) :
    unregister listener registrations = registrations := by
  unfold unregister
  rw [List.eraseP_of_forall_not, List.reverse_reverse]
  intro r hr
  simpa using h r (List.mem_reverse.mp hr)

theorem unregister_last
    {before after : Registrations Listener} {r : Registration Listener}
    (h : ∀ later ∈ after, later.listener ≠ r.listener) :
    unregister r.listener (before ++ r :: after) = before ++ after := by
  unfold unregister
  have hafter : ∀ later ∈ after.reverse, ¬ decide (later.listener = r.listener) = true := by
    intro later hlater
    simpa using h later (List.mem_reverse.mp hlater)
  rw [List.reverse_append, List.reverse_cons, List.append_assoc,
    List.eraseP_append_right _ hafter, List.singleton_append, List.eraseP_cons_of_pos (by simp)]
  simp

theorem unregister_append_singleton
    (listener : Listener) (before : Registrations Listener) (r : Registration Listener) :
    unregister listener (before ++ [r]) =
      if r.listener = listener then before else unregister listener before ++ [r] := by
  unfold unregister
  rw [List.reverse_append, List.reverse_singleton, List.singleton_append]
  by_cases heq : r.listener = listener
  · rw [if_pos heq, List.eraseP_cons_of_pos (by simp [heq]), List.reverse_reverse]
  · rw [if_neg heq, List.eraseP_cons_of_neg (by simp [heq]), List.reverse_cons]

/-- Either there is nothing to take out, or the latest registration goes. -/
theorem unregister_cases
    (listener : Listener) (registrations : Registrations Listener) :
    (∀ r ∈ registrations, r.listener ≠ listener) ∧
        unregister listener registrations = registrations ∨
      ∃ before r after, registrations = before ++ r :: after ∧ r.listener = listener ∧
        (∀ later ∈ after, later.listener ≠ listener) ∧
        unregister listener registrations = before ++ after := by
  induction registrations using List.reverseRecOn with
  | nil => exact .inl ⟨by simp, rfl⟩
  | append_singleton before last ih =>
      by_cases hlast : last.listener = listener
      · refine .inr ⟨before, last, [], rfl, hlast, by simp, ?_⟩
        subst hlast
        exact unregister_last (by simp)
      · rcases ih with ⟨hnone, _⟩ | ⟨first, r, after, hsplit, hr, hafter, _⟩
        · have hall : ∀ r ∈ before ++ [last], r.listener ≠ listener := by
            intro r hr
            rcases List.mem_append.mp hr with hr | hr
            · exact hnone r hr
            · rw [List.mem_singleton.mp hr]
              exact hlast
          exact .inl ⟨hall, unregister_of_forall_ne hall⟩
        · have hall : ∀ later ∈ after ++ [last], later.listener ≠ listener := by
            intro later hlater
            rcases List.mem_append.mp hlater with hlater | hlater
            · exact hafter later hlater
            · rw [List.mem_singleton.mp hlater]
              exact hlast
          have heq : before ++ [last] = first ++ r :: (after ++ [last]) := by
            simp [hsplit]
          refine .inr ⟨first, r, after ++ [last], heq, hr, hall, ?_⟩
          rw [heq]
          subst hr
          exact unregister_last hall

theorem unregister_sublist (listener : Listener) (registrations : Registrations Listener) :
    (unregister listener registrations).Sublist registrations := by
  rcases unregister_cases listener registrations with
    ⟨_, heq⟩ | ⟨before, r, after, hsplit, _, _, heq⟩
  · rw [heq]
  · rw [heq, hsplit]
    exact List.Sublist.append_left (List.sublist_cons_self r after) before

/-! ## Permanent registrations come first -/

/-- A later registration of the same listener is for one call. -/
def PermanentFirst (registrations : Registrations Listener) : Prop :=
  registrations.Pairwise fun r later => r.listener = later.listener → later.once = true

omit [DecidableEq Listener] in
theorem permanentFirst_nil : PermanentFirst ([] : Registrations Listener) :=
  List.Pairwise.nil

omit [DecidableEq Listener] in
theorem PermanentFirst.sublist
    {registrations fewer : Registrations Listener} (h : PermanentFirst registrations)
    (hsublist : fewer.Sublist registrations) : PermanentFirst fewer :=
  List.Pairwise.sublist hsublist h

omit [DecidableEq Listener] in
theorem PermanentFirst.append
    {registrations : Registrations Listener} {r : Registration Listener}
    (h : PermanentFirst registrations)
    (hr : ∀ earlier ∈ registrations, earlier.listener = r.listener → r.once = true) :
    PermanentFirst (registrations ++ [r]) := by
  unfold PermanentFirst
  rw [List.pairwise_append]
  refine ⟨h, List.pairwise_singleton _ _, ?_⟩
  intro earlier hearlier later hlater heq
  rw [List.mem_singleton.mp hlater] at heq ⊢
  exact hr earlier hearlier heq

theorem permanentFirst_register
    {registrations : Registrations Listener} (h : PermanentFirst registrations)
    (listener : Listener) : PermanentFirst (register listener registrations) := by
  unfold register
  split
  · exact h
  · rename_i hholds
    apply h.append
    intro earlier hearlier heq
    exfalso
    apply hholds
    exact List.any_eq_true.mpr ⟨earlier, hearlier, decide_eq_true heq⟩

theorem permanentFirst_unregister
    {registrations : Registrations Listener} (h : PermanentFirst registrations)
    (listener : Listener) : PermanentFirst (unregister listener registrations) :=
  h.sublist (unregister_sublist listener registrations)

/-! ## Registrations for one call -/

def onceCount (listener : Listener) (registrations : Registrations Listener) : ℕ :=
  registrations.countP fun r => r.listener = listener ∧ r.once = true

theorem onceCount_append
    (listener : Listener) (registrations others : Registrations Listener) :
    onceCount listener (registrations ++ others) =
      onceCount listener registrations + onceCount listener others :=
  List.countP_append

theorem onceCount_cons
    (listener : Listener) (r : Registration Listener) (registrations : Registrations Listener) :
    onceCount listener (r :: registrations) =
      onceCount listener registrations +
        if r.listener = listener ∧ r.once = true then 1 else 0 := by
  unfold onceCount
  rw [List.countP_cons]
  simp

/-- With a permanent registration in front, one for one call is taken out. -/
theorem PermanentFirst.onceCount_unregister
    {registrations : Registrations Listener} (h : PermanentFirst registrations)
    (listener : Listener) :
    onceCount listener (unregister listener registrations) =
      onceCount listener registrations - 1 := by
  rcases unregister_cases listener registrations with
    ⟨hnone, heq⟩ | ⟨before, r, after, hsplit, hr, hafter, heq⟩
  · have hzero : onceCount listener registrations = 0 := by
      apply List.countP_eq_zero.mpr
      intro other hother
      simp [hnone other hother]
    rw [heq, hzero]
  · have hlater : onceCount listener after = 0 := by
      apply List.countP_eq_zero.mpr
      intro later hlater
      simp [hafter later hlater]
    rw [heq, hsplit, onceCount_append, onceCount_append, onceCount_cons, hlater]
    cases honce : r.once with
    | true => simp [hr]
    | false =>
        have hbefore : onceCount listener before = 0 := by
          apply List.countP_eq_zero.mpr
          intro earlier hearlier
          rw [hsplit] at h
          have hpair := (List.pairwise_append.mp h).2.2 earlier hearlier r
            List.mem_cons_self
          intro hmatch
          simp only [decide_eq_true_eq] at hmatch
          have hpermanent := hpair (hmatch.1.trans hr.symm)
          rw [honce] at hpermanent
          contradiction
        simp [hbefore]

/-! ## A round of calls -/

/-- What a call leaves: the registration called for is taken out before it if
it is for one call, and a listener that wishes to leave is taken out after
it. -/
def afterCall (leaves : Listener → Bool) (r : Registration Listener)
    (registrations : Registrations Listener) : Registrations Listener :=
  let before := if r.once then unregister r.listener registrations else registrations
  if leaves r.listener then unregister r.listener before else before

/-- The latest registration is called for first. -/
def afterRound (leaves : Listener → Bool) (start registrations : Registrations Listener) :
    Registrations Listener :=
  start.foldr (afterCall leaves) registrations

theorem filter_unregister
    (stays : Listener → Bool) (listener : Listener) (registrations : Registrations Listener) :
    (unregister listener registrations).filter (fun r => stays r.listener) =
      if stays listener then unregister listener (registrations.filter fun r => stays r.listener)
      else registrations.filter fun r => stays r.listener := by
  induction registrations using List.reverseRecOn with
  | nil => simp [unregister]
  | append_singleton before last ih =>
      rw [unregister_append_singleton, List.filter_append]
      by_cases heq : last.listener = listener
      · subst heq
        cases hstays : stays last.listener with
        | false => simp [hstays]
        | true => simp [hstays, unregister_append_singleton]
      · rw [if_neg heq, List.filter_append, ih]
        cases hlast : stays last.listener with
        | false => simp [hlast]
        | true =>
            have hsingle : [last].filter (fun r => stays r.listener) = [last] := by
              simp [hlast]
            rw [hsingle, unregister_append_singleton, if_neg heq]
            split <;> rfl

def countOf (listener : Listener) (registrations : Registrations Listener) : ℕ :=
  registrations.countP fun r => r.listener = listener

theorem countOf_unregister (listener : Listener) (registrations : Registrations Listener) :
    countOf listener (unregister listener registrations) =
      countOf listener registrations - 1 := by
  rcases unregister_cases listener registrations with
    ⟨hnone, heq⟩ | ⟨before, r, after, hsplit, hr, _, heq⟩
  · have hzero : countOf listener registrations = 0 := by
      apply List.countP_eq_zero.mpr
      intro other hother
      simp [hnone other hother]
    rw [heq, hzero]
  · rw [heq, hsplit]
    simp [countOf, List.countP_append, hr]

theorem countOf_unregister_le (listener other : Listener)
    (registrations : Registrations Listener) :
    countOf listener (unregister other registrations) ≤ countOf listener registrations :=
  (unregister_sublist other registrations).countP_le

theorem countOf_afterCall_le (leaves : Listener → Bool) (r : Registration Listener)
    (listener : Listener) (registrations : Registrations Listener) :
    countOf listener (afterCall leaves r registrations) ≤ countOf listener registrations := by
  have hfirst := countOf_unregister_le listener r.listener registrations
  have hsecond := countOf_unregister_le listener r.listener
    (unregister r.listener registrations)
  unfold afterCall
  dsimp only
  split <;> split <;> omega

theorem countOf_afterCall_self
    {leaves : Listener → Bool} {r : Registration Listener} (hleaves : leaves r.listener = true)
    (registrations : Registrations Listener) :
    countOf r.listener (afterCall leaves r registrations) ≤
      countOf r.listener registrations - 1 := by
  have hle : ∀ before : Registrations Listener,
      countOf r.listener before ≤ countOf r.listener registrations →
      countOf r.listener (unregister r.listener before) ≤
        countOf r.listener registrations - 1 := by
    intro before hbefore
    rw [countOf_unregister]
    omega
  unfold afterCall
  dsimp only
  rw [if_pos hleaves]
  split
  · exact hle _ (countOf_unregister_le _ _ _)
  · exact hle _ le_rfl

/-- Once these have been called for, `kept` stay. -/
def kept (leaves : Listener → Bool) (registrations : Registrations Listener) :
    Registrations Listener :=
  registrations.filter fun r => !leaves r.listener && !r.once

theorem filter_afterCall
    {leaves : Listener → Bool} {left done registrations : Registrations Listener}
    {r : Registration Listener} (hfirst : PermanentFirst (left ++ r :: done))
    (hfilter : registrations.filter (fun r => !leaves r.listener) =
      (left ++ [r]).filter (fun r => !leaves r.listener) ++ kept leaves done) :
    (afterCall leaves r registrations).filter (fun r => !leaves r.listener) =
      left.filter (fun r => !leaves r.listener) ++ kept leaves (r :: done) := by
  have hunregister := filter_unregister (fun listener => !leaves listener) r.listener
  cases hleaves : leaves r.listener with
  | true =>
      have hsame : (left ++ [r]).filter (fun r => !leaves r.listener) =
          left.filter fun r => !leaves r.listener := by simp [hleaves]
      have hkept : kept leaves (r :: done) = kept leaves done := by simp [kept, hleaves]
      simp only [hleaves, Bool.not_true, Bool.false_eq_true, if_false] at hunregister
      rw [hkept, ← hsame, ← hfilter]
      unfold afterCall
      dsimp only
      rw [if_pos hleaves, hunregister]
      split
      · exact hunregister registrations
      · rfl
  | false =>
      have hleft : (left ++ [r]).filter (fun r => !leaves r.listener) =
          left.filter (fun r => !leaves r.listener) ++ [r] := by simp [hleaves]
      rw [hleft, List.append_assoc, List.singleton_append] at hfilter
      unfold afterCall
      dsimp only
      rw [if_neg (by simp [hleaves])]
      cases honce : r.once with
      | false =>
          have hkept : kept leaves (r :: done) = r :: kept leaves done := by
            simp [kept, hleaves, honce]
          rw [if_neg (by simp), hfilter, hkept]
      | true =>
          have hkept : kept leaves (r :: done) = kept leaves done := by simp [kept, honce]
          simp only [hleaves, Bool.not_false, if_true] at hunregister
          rw [if_pos rfl, hunregister, hfilter, hkept]
          apply unregister_last
          intro later hlater heq
          have hmem := List.mem_filter.mp hlater
          have hpairs := (List.pairwise_append.mp hfirst).2.1
          have hlast := (List.pairwise_cons.mp hpairs).1 later hmem.1 heq.symm
          rw [hlast] at hmem
          simp at hmem

/-- A round leaves the permanent registrations of the listeners that stay. -/
theorem PermanentFirst.afterRound
    {start : Registrations Listener} (h : PermanentFirst start) (leaves : Listener → Bool) :
    afterRound leaves start start = kept leaves start := by
  have hround : ∀ {done left : Registrations Listener}, start = left ++ done →
      (Registries.afterRound leaves done start).filter (fun r => !leaves r.listener) =
          left.filter (fun r => !leaves r.listener) ++ kept leaves done ∧
        ∀ listener, leaves listener = true →
          countOf listener (Registries.afterRound leaves done start) ≤ countOf listener left := by
    intro done
    induction done with
    | nil =>
        intro left hstart
        rw [List.append_nil] at hstart
        subst hstart
        exact ⟨by simp [Registries.afterRound, kept], fun _ _ => le_rfl⟩
    | cons r done ih =>
        intro left hstart
        have hsplit : start = (left ++ [r]) ++ done := by simp [hstart]
        obtain ⟨hfilter, hcount⟩ := ih hsplit
        have hfirst := h
        rw [hstart] at hfirst
        refine ⟨filter_afterCall hfirst hfilter, ?_⟩
        intro listener hleaves
        have hbefore := hcount listener hleaves
        have hleft : countOf listener (left ++ [r]) =
            countOf listener left + if r.listener = listener then 1 else 0 := by
          simp [countOf, List.countP_append, List.countP_singleton]
        change countOf listener (afterCall leaves r (Registries.afterRound leaves done start)) ≤ _
        by_cases heq : r.listener = listener
        · subst heq
          have hself := countOf_afterCall_self hleaves (Registries.afterRound leaves done start)
          rw [if_pos rfl] at hleft
          omega
        · have hle := countOf_afterCall_le leaves r listener
            (Registries.afterRound leaves done start)
          rw [if_neg heq] at hleft
          omega
  obtain ⟨hfilter, hcount⟩ := hround (List.nil_append start).symm
  have hall : (Registries.afterRound leaves start start).filter (fun r => !leaves r.listener) =
      Registries.afterRound leaves start start := by
    apply List.filter_eq_self.mpr
    intro r hr
    by_contra hleaves
    have hzero := Nat.le_zero.mp (hcount r.listener (by simpa using hleaves))
    have hnone := List.countP_eq_zero.mp hzero r hr
    simp at hnone
  rw [hall] at hfilter
  exact hfilter

/-! ## Names -/

/-- The names that are known, in the order in which they became known. -/
abbrev Registry (Name Listener : Type) := List (Name × Registrations Listener)

namespace Registry

variable [DecidableEq Name] {registry : Registry Name Listener}
  {change : Registrations Listener → Registrations Listener}

def names (registry : Registry Name Listener) : List Name := registry.map Prod.fst

def listeners (registry : Registry Name Listener) (name : Name) : Registrations Listener :=
  (registry.lookup name).getD []

/-- Change the registrations under all known names that match. -/
def changeWhere (matching : Name → Bool)
    (change : Registrations Listener → Registrations Listener)
    (registry : Registry Name Listener) : Registry Name Listener :=
  registry.map fun entry => if matching entry.1 then (entry.1, change entry.2) else entry

/-- Change the registrations under a name, which becomes known. -/
def changeAt (name : Name) (change : Registrations Listener → Registrations Listener)
    (registry : Registry Name Listener) : Registry Name Listener :=
  if name ∈ registry.names then registry.changeWhere (· = name) change
  else registry ++ [(name, change [])]

def removeWhere (matching : Name → Bool) (registry : Registry Name Listener) :
    Registry Name Listener :=
  registry.filter fun entry => !matching entry.1

omit [DecidableEq Listener] in
theorem listeners_cons (entry : Name × Registrations Listener) (name : Name) :
    listeners (entry :: registry) name =
      if name = entry.1 then entry.2 else listeners registry name := by
  unfold listeners
  rw [List.lookup_cons]
  by_cases heq : name = entry.1
  · simp [heq]
  · rw [if_neg heq, show (name == entry.1) = false by simpa using heq]

omit [DecidableEq Listener] [DecidableEq Name] in
theorem mem_names_cons (entry : Name × Registrations Listener) (name : Name) :
    name ∈ names (entry :: registry) ↔ name = entry.1 ∨ name ∈ names registry := by
  simp only [names, List.map_cons, List.mem_cons]

omit [DecidableEq Listener] in
theorem listeners_of_notMem {name : Name} (h : name ∉ registry.names) :
    registry.listeners name = [] := by
  induction registry with
  | nil => rfl
  | cons entry registry ih =>
      rw [mem_names_cons, not_or] at h
      rw [listeners_cons, if_neg h.1]
      exact ih h.2

omit [DecidableEq Listener] in
theorem listeners_changeWhere (matching : Name → Bool) (name : Name) :
    (registry.changeWhere matching change).listeners name =
      if name ∈ registry.names ∧ matching name = true then
        change (registry.listeners name)
      else registry.listeners name := by
  induction registry with
  | nil => simp [changeWhere, names, listeners]
  | cons entry registry ih =>
      have hchange : changeWhere matching change (entry :: registry) =
          (if matching entry.1 then (entry.1, change entry.2) else entry) ::
            changeWhere matching change registry := rfl
      have hfirst : (if matching entry.1 then (entry.1, change entry.2) else entry).1 =
          entry.1 := by split <;> rfl
      rw [hchange, listeners_cons, hfirst, listeners_cons, ih]
      simp only [mem_names_cons]
      by_cases heq : name = entry.1
      · subst heq
        by_cases hmatch : matching entry.1 = true
        · simp [hmatch]
        · simp [hmatch]
      · simp [heq]

omit [DecidableEq Listener] [DecidableEq Name] in
theorem changeWhere_id (matching : Name → Bool) : registry.changeWhere matching id = registry := by
  unfold changeWhere
  apply List.map_id''
  intro entry
  split <;> rfl

omit [DecidableEq Listener] [DecidableEq Name] in
theorem changeWhere_of_forall_not {matching : Name → Bool}
    (h : ∀ name ∈ registry.names, matching name = false) :
    registry.changeWhere matching change = registry := by
  have hsame : ∀ entry ∈ registry,
      (if matching entry.1 then (entry.1, change entry.2) else entry) = entry := by
    intro entry hentry
    have hname := h entry.1 (List.mem_map_of_mem hentry)
    rw [if_neg (by simp [hname])]
  unfold changeWhere
  rw [List.map_congr_left hsame, List.map_id']

omit [DecidableEq Listener] in
theorem changeAt_of_mem {name : Name} (h : name ∈ registry.names) :
    registry.changeAt name change = registry.changeWhere (· = name) change := if_pos h

omit [DecidableEq Listener] in
theorem changeAt_of_notMem {name : Name} (h : name ∉ registry.names) :
    registry.changeAt name change = registry ++ [(name, change [])] := if_neg h

omit [DecidableEq Listener] in
/-- A name that has become known is changed as every known name is. -/
theorem changeWhere_changeAt_id (name : Name) :
    (registry.changeAt name id).changeWhere (· = name) change =
      registry.changeAt name change := by
  by_cases hmem : name ∈ registry.names
  · rw [changeAt_of_mem hmem, changeAt_of_mem hmem, changeWhere_id]
  · have hnone : registry.changeWhere (· = name) change = registry := by
      apply changeWhere_of_forall_not
      intro other hother
      apply decide_eq_false
      rintro rfl
      exact hmem hother
    rw [changeAt_of_notMem hmem, changeAt_of_notMem hmem]
    unfold changeWhere at hnone ⊢
    rw [List.map_append, hnone]
    simp

omit [DecidableEq Listener] in
theorem listeners_changeAt (name read : Name) :
    (registry.changeAt name change).listeners read =
      if read = name then change (registry.listeners read)
      else registry.listeners read := by
  by_cases hmem : name ∈ registry.names
  · rw [changeAt_of_mem hmem, listeners_changeWhere]
    by_cases heq : read = name
    · subst heq
      simp [hmem]
    · simp [heq]
  · rw [changeAt_of_notMem hmem]
    have happend : ∀ others : Registry Name Listener,
        listeners (others ++ [(name, change [])]) read =
          if read ∈ others.names then others.listeners read
          else if read = name then change [] else [] := by
      intro others
      induction others with
      | nil =>
          rw [List.nil_append, listeners_cons]
          rfl
      | cons entry others ih =>
          rw [List.cons_append, listeners_cons, ih, listeners_cons]
          simp only [mem_names_cons]
          by_cases heq : read = entry.1
          · simp [heq]
          · simp [heq]
    rw [happend]
    by_cases heq : read = name
    · subst heq
      simp [hmem, listeners_of_notMem hmem]
    · by_cases hread : read ∈ registry.names
      · simp [hread, heq]
      · simp [hread, heq, listeners_of_notMem hread]

omit [DecidableEq Listener] in
theorem listeners_removeWhere (matching : Name → Bool) (name : Name) :
    (registry.removeWhere matching).listeners name =
      if matching name then [] else registry.listeners name := by
  induction registry with
  | nil => simp [removeWhere, listeners]
  | cons entry registry ih =>
      unfold removeWhere at ih ⊢
      by_cases hentry : matching entry.1 = true
      · rw [List.filter_cons_of_neg (by simp [hentry]), ih, listeners_cons]
        by_cases heq : name = entry.1
        · simp [heq, hentry]
        · simp [heq]
      · rw [List.filter_cons_of_pos (by simp [hentry]), listeners_cons, ih, listeners_cons]
        by_cases heq : name = entry.1
        · simp [heq, hentry]
        · simp [heq]

end Registry

end Registries
