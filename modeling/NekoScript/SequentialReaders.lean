import Mathlib.Tactic

/-!
# Sequential readers

A reader takes symbols from the front of its input, one after another.  It
never looks at what follows the symbols it has taken, so a reading that has
come to an end is the same however the input goes on.  Reading past the end of
the input is an outcome of its own, different from a failure the reader
reports.
-/

namespace SequentialReaders

inductive Reading (Sym Error α : Type) where
  | done (value : α) (rest : List Sym)
  | failed (error : Error)
  | overrun
  | unfinished
  deriving DecidableEq

variable {Sym Error α β : Type}

/-- The same reading of an input that goes on with `after`. -/
def Reading.extend (after : List Sym) : Reading Sym Error α → Reading Sym Error α
  | .done value rest => .done value (rest ++ after)
  | .failed error => .failed error
  | .overrun => .overrun
  | .unfinished => .unfinished

structure Reader (Sym Error α : Type) where
  read : List Sym → Reading Sym Error α
  consumes : ∀ {input value rest}, read input = .done value rest →
    ∃ taken, input = taken ++ rest ∧ read taken = .done value []
  sequential : ∀ input after,
    read input = .overrun ∨ read (input ++ after) = (read input).extend after

namespace Reader

/-- The reader takes exactly these symbols for this value. -/
def Reads (r : Reader Sym Error α) (taken : List Sym) (value : α) : Prop :=
  r.read taken = .done value []

variable {r : Reader Sym Error α}

theorem Reads.read_append
    {taken : List Sym} {value : α} (h : r.Reads taken value) (after : List Sym) :
    r.read (taken ++ after) = .done value after := by
  have hread : r.read taken = .done value [] := h
  rcases r.sequential taken after with hoverrun | hextend
  · rw [hoverrun] at hread
    cases hread
  · rw [hextend, hread]
    rfl

theorem Reads.overrun_of_prefix
    {before after : List Sym} {value : α} (h : r.Reads (before ++ after) value)
    (hafter : after ≠ []) :
    r.read before = .overrun := by
  have hread : r.read (before ++ after) = .done value [] := h
  rcases r.sequential before after with hoverrun | hextend
  · exact hoverrun
  · rw [hread] at hextend
    cases hbefore : r.read before with
    | done value' rest =>
        rw [hbefore] at hextend
        have hrest : [] = rest ++ after := by
          simp only [Reading.extend, Reading.done.injEq] at hextend
          exact hextend.2
        have hnil := (List.append_eq_nil_iff.mp hrest.symm).2
        exact absurd hnil hafter
    | failed error => simp [hbefore, Reading.extend] at hextend
    | overrun => rfl
    | unfinished => simp [hbefore, Reading.extend] at hextend

def pure (value : α) : Reader Sym Error α where
  read input := .done value input
  consumes := by
    intro input value' rest h
    cases h
    exact ⟨[], rfl, rfl⟩
  sequential _ _ := .inr rfl

def bindRead (first : Reading Sym Error α)
    (next : α → Reader Sym Error β) : Reading Sym Error β :=
  match first with
  | .done value rest => (next value).read rest
  | .failed error => .failed error
  | .overrun => .overrun
  | .unfinished => .unfinished

theorem bindRead_eq_done
    {first : Reading Sym Error α} {next : α → Reader Sym Error β}
    {value : β} {rest : List Sym} (h : bindRead first next = .done value rest) :
    ∃ middle between, first = .done middle between ∧
      (next middle).read between = .done value rest := by
  cases first with
  | done middle between => exact ⟨middle, between, rfl, h⟩
  | failed error => cases h
  | overrun => cases h
  | unfinished => cases h

def bind (r : Reader Sym Error α) (next : α → Reader Sym Error β) :
    Reader Sym Error β where
  read input := bindRead (r.read input) next
  consumes := by
    intro input value rest h
    obtain ⟨middle, between, hfirst, hnext⟩ := bindRead_eq_done h
    obtain ⟨taken, hinput, htaken⟩ := r.consumes hfirst
    obtain ⟨taken', hbetween, htaken'⟩ := (next middle).consumes hnext
    refine ⟨taken ++ taken', by rw [hinput, hbetween, List.append_assoc], ?_⟩
    have hread := Reads.read_append (r := r) htaken taken'
    rw [hread]
    exact htaken'
  sequential := by
    intro input after
    rcases r.sequential input after with hoverrun | hextend
    · exact .inl (by rw [hoverrun]; rfl)
    · rw [hextend]
      cases r.read input with
      | done middle between => exact (next middle).sequential between after
      | failed error => exact .inr rfl
      | overrun => exact .inr rfl
      | unfinished => exact .inr rfl

instance : Monad (Reader Sym Error) where
  pure := pure
  bind := bind

theorem read_bind (r : Reader Sym Error α) (next : α → Reader Sym Error β)
    (input : List Sym) :
    (r >>= next).read input = bindRead (r.read input) next := rfl

def symbol : Reader Sym Error Sym where
  read
    | [] => .overrun
    | s :: rest => .done s rest
  consumes := by
    intro input value rest h
    cases input with
    | nil => cases h
    | cons s input =>
        cases h
        exact ⟨[value], rfl, rfl⟩
  sequential := by
    intro input after
    cases input with
    | nil => exact .inl rfl
    | cons s input => exact .inr rfl

/-- So many symbols. -/
def symbols (count : ℕ) :
    Reader Sym Error { taken : List Sym // taken.length = count } where
  read input :=
    if h : count ≤ input.length then
      .done ⟨input.take count, List.length_take_of_le h⟩ (input.drop count)
    else .overrun
  consumes := by
    intro input value rest hread
    by_cases h : count ≤ input.length
    · rw [dif_pos h] at hread
      cases hread
      refine ⟨input.take count, (List.take_append_drop count input).symm, ?_⟩
      have hlength : (input.take count).length = count := List.length_take_of_le h
      rw [dif_pos hlength.ge]
      simp [List.take_take]
    · rw [dif_neg h] at hread
      cases hread
  sequential := by
    intro input after
    by_cases h : count ≤ input.length
    · right
      have hlong : count ≤ (input ++ after).length := by
        rw [List.length_append]
        omega
      rw [dif_pos h, dif_pos hlong]
      simp [Reading.extend, List.take_append_of_le_length h,
        List.drop_append_of_le_length h]
    · exact .inl (dif_neg h)

def fail (error : Error) : Reader Sym Error α where
  read _ := .failed error
  consumes := by
    intro _ _ _ h
    cases h
  sequential _ _ := .inr rfl

/-- The reader that has run out of fuel. -/
def outOfFuel : Reader Sym Error α where
  read _ := .unfinished
  consumes := by
    intro _ _ _ h
    cases h
  sequential _ _ := .inr rfl

/-- So many readers one after another, from the one at `first` on. -/
def each (readers : ℕ → Reader Sym Error α) : (first count : ℕ) → Reader Sym Error (List α)
  | _, 0 => Pure.pure []
  | first, count + 1 => do
      let item ← readers first
      let items ← each readers (first + 1) count
      return item :: items

def counted (r : Reader Sym Error α) (count : ℕ) : Reader Sym Error (List α) :=
  each (fun _ => r) 0 count

/-- Items up to the first `none`. -/
def terminated (r : Reader Sym Error (Option α)) : ℕ → Reader Sym Error (List α)
  | 0 => outOfFuel
  | fuel + 1 => do
      match ← r with
      | none => Pure.pure []
      | some item =>
          let items ← terminated r fuel
          return item :: items

/-! ## What a reader takes -/

theorem reads_pure (value : α) :
    (Pure.pure value : Reader Sym Error α).Reads [] value := rfl

theorem reads_symbol (s : Sym) : (symbol : Reader Sym Error Sym).Reads [s] s := rfl

theorem Reads.bind
    {next : α → Reader Sym Error β} {taken taken' : List Sym} {value : α} {value' : β}
    (h : r.Reads taken value) (hnext : (next value).Reads taken' value') :
    (r >>= next).Reads (taken ++ taken') value' := by
  unfold Reads
  rw [read_bind, h.read_append taken']
  exact hnext

theorem Reads.bind_nil
    {next : α → Reader Sym Error β} {taken : List Sym} {value : α} {value' : β}
    (h : r.Reads taken value) (hnext : (next value).Reads [] value') :
    (r >>= next).Reads taken value' := by
  have hbind := h.bind hnext
  rwa [List.append_nil] at hbind

theorem Reads.each
    {readers : ℕ → Reader Sym Error α} {Item : Type} {encode : Item → List Sym}
    {decoded : Item → α} :
    ∀ {items : List Item} {first : ℕ},
      (∀ i (hi : i < items.length),
        (readers (first + i)).Reads (encode items[i]) (decoded items[i])) →
      (each readers first items.length).Reads (items.flatMap encode) (items.map decoded)
  | [], _, _ => reads_pure []
  | item :: items, first, h => by
      have hrest : (Reader.each readers (first + 1) items.length).Reads
          (items.flatMap encode) (items.map decoded) := by
        apply Reads.each
        intro i hi
        rw [Nat.add_right_comm]
        exact h (i + 1) (Nat.succ_lt_succ hi)
      exact (h 0 (Nat.zero_lt_succ _)).bind (hrest.bind_nil (reads_pure _))

theorem Reads.counted
    {Item : Type} {encode : Item → List Sym} {decoded : Item → α} {items : List Item}
    (h : ∀ item ∈ items, r.Reads (encode item) (decoded item)) :
    (r.counted items.length).Reads (items.flatMap encode) (items.map decoded) :=
  Reads.each fun _ hi => h _ (List.getElem_mem hi)

theorem Reads.terminated
    {r : Reader Sym Error (Option α)} {Item : Type} {encode : Item → List Sym}
    {decoded : Item → α} {stop : List Sym} (hstop : r.Reads stop none) :
    ∀ {items : List Item} {fuel : ℕ}, items.length < fuel →
      (∀ item ∈ items, r.Reads (encode item) (some (decoded item))) →
      (r.terminated fuel).Reads (items.flatMap encode ++ stop) (items.map decoded)
  | [], fuel + 1, _, _ => hstop.bind_nil (reads_pure [])
  | item :: items, fuel + 1, hfuel, h => by
      have hlength : items.length < fuel := by
        simp only [List.length_cons] at hfuel
        omega
      have hrest := Reads.terminated hstop hlength fun other hother =>
        h other (List.mem_cons_of_mem item hother)
      rw [List.flatMap_cons, List.append_assoc]
      exact (h item List.mem_cons_self).bind (hrest.bind_nil (reads_pure _))

theorem reads_symbols {taken : List Sym} {count : ℕ} (hlength : taken.length = count) :
    (symbols count : Reader Sym Error _).Reads taken ⟨taken, hlength⟩ := by
  subst hlength
  simp [Reads, symbols]

/-! ## The values a reader yields -/

def Yields (r : Reader Sym Error α) (P : α → Prop) : Prop :=
  ∀ ⦃input value rest⦄, r.read input = .done value rest → P value

theorem yields_pure {P : α → Prop} {value : α} (h : P value) :
    (Pure.pure value : Reader Sym Error α).Yields P := by
  intro input value' rest hread
  cases hread
  exact h

theorem yields_fail {P : α → Prop} {error : Error} :
    (fail error : Reader Sym Error α).Yields P := by
  intro input value rest hread
  cases hread

theorem yields_outOfFuel {P : α → Prop} :
    (outOfFuel : Reader Sym Error α).Yields P := by
  intro input value rest hread
  cases hread

theorem yields_true : r.Yields fun _ => True := fun _ _ _ _ => trivial

theorem Yields.bind
    {P : α → Prop} {Q : β → Prop} {next : α → Reader Sym Error β}
    (h : r.Yields P) (hnext : ∀ value, P value → (next value).Yields Q) :
    (r >>= next).Yields Q := by
  intro input value rest hread
  obtain ⟨middle, between, hfirst, hsecond⟩ := bindRead_eq_done hread
  exact hnext middle (h hfirst) hsecond

theorem Yields.each {readers : ℕ → Reader Sym Error α} {P : ℕ → α → Prop}
    (h : ∀ i, (readers i).Yields (P i)) :
    ∀ first count, (each readers first count).Yields fun items =>
      items.length = count ∧ ∀ i (hi : i < items.length), P (first + i) items[i]
  | _, 0 => yields_pure ⟨rfl, by simp⟩
  | first, count + 1 =>
      (h first).bind fun item hitem =>
        (Yields.each h (first + 1) count).bind fun items hitems =>
          yields_pure ⟨by simp [hitems.1], by
            intro i hi
            cases i with
            | zero => exact hitem
            | succ i =>
                have hrest := hitems.2 i (Nat.lt_of_succ_lt_succ hi)
                rwa [Nat.add_right_comm] at hrest⟩

theorem Yields.counted {P : α → Prop} (h : r.Yields P) (count : ℕ) :
    (r.counted count).Yields fun items =>
      items.length = count ∧ ∀ item ∈ items, P item := by
  intro input items rest hread
  have hitems := Yields.each (fun _ => h) 0 count hread
  refine ⟨hitems.1, ?_⟩
  intro item hitem
  obtain ⟨i, hi, rfl⟩ := List.mem_iff_getElem.mp hitem
  exact hitems.2 i hi

/-! ## How far a reader gets -/

/-- A value costs at least this many symbols. -/
def Takes (r : Reader Sym Error α) (count : ℕ) : Prop :=
  ∀ ⦃input value rest⦄, r.read input = .done value rest →
    rest.length + count ≤ input.length

theorem takes_zero (r : Reader Sym Error α) : r.Takes 0 := by
  intro input value rest hread
  obtain ⟨taken, hinput, -⟩ := r.consumes hread
  rw [hinput]
  simp

theorem Takes.mono {count count' : ℕ} (h : r.Takes count) (hle : count' ≤ count) :
    r.Takes count' := by
  intro input value rest hread
  have := h hread
  omega

theorem Takes.bind
    {next : α → Reader Sym Error β} {first second : ℕ} (h : r.Takes first)
    (hnext : ∀ value, (next value).Takes second) :
    (r >>= next).Takes (first + second) := by
  intro input value rest hread
  obtain ⟨middle, between, hfirst, hsecond⟩ := bindRead_eq_done hread
  have := h hfirst
  have := hnext middle hsecond
  omega

theorem Takes.bind_left
    {next : α → Reader Sym Error β} {count : ℕ} (h : r.Takes count) :
    (r >>= next).Takes count :=
  h.bind fun value => takes_zero (next value)

theorem takes_symbols (count : ℕ) : (symbols count : Reader Sym Error _).Takes count := by
  intro input value rest hread
  by_cases h : count ≤ input.length
  · simp only [symbols, dif_pos h] at hread
    cases hread
    rw [List.length_drop]
    omega
  · simp only [symbols, dif_neg h] at hread
    cases hread

/-- The fuel is enough for every input of at most this length. -/
def FinishesWithin (r : Reader Sym Error α) (length : ℕ) : Prop :=
  ∀ ⦃input⦄, input.length ≤ length → r.read input ≠ .unfinished

theorem finishesWithin_pure (value : α) (length : ℕ) :
    (Pure.pure value : Reader Sym Error α).FinishesWithin length := by
  intro input hlength hread
  cases hread

theorem finishesWithin_symbol (length : ℕ) :
    (symbol : Reader Sym Error Sym).FinishesWithin length := by
  intro input hlength hread
  cases input with
  | nil => cases hread
  | cons s input => cases hread

theorem finishesWithin_symbols (count length : ℕ) :
    (symbols count : Reader Sym Error _).FinishesWithin length := by
  intro input hlength hread
  by_cases h : count ≤ input.length
  · simp [symbols, h] at hread
  · simp [symbols, h] at hread

theorem finishesWithin_fail (error : Error) (length : ℕ) :
    (fail error : Reader Sym Error α).FinishesWithin length := by
  intro input hlength hread
  cases hread

theorem FinishesWithin.bind
    {next : α → Reader Sym Error β} {length count : ℕ} (h : r.FinishesWithin length)
    (hcost : r.Takes count)
    (hnext : count ≤ length → ∀ value, (next value).FinishesWithin (length - count)) :
    (r >>= next).FinishesWithin length := by
  intro input hlength hread
  rw [read_bind] at hread
  cases hfirst : r.read input with
  | done value rest =>
      have hrest := hcost hfirst
      rw [hfirst] at hread
      exact hnext (by omega) value (by omega) hread
  | failed error =>
      rw [hfirst] at hread
      cases hread
  | overrun =>
      rw [hfirst] at hread
      cases hread
  | unfinished => exact h hlength hfirst

theorem FinishesWithin.bind_same
    {next : α → Reader Sym Error β} {length : ℕ} (h : r.FinishesWithin length)
    (hnext : ∀ value, (next value).FinishesWithin length) :
    (r >>= next).FinishesWithin length :=
  h.bind (takes_zero r) fun _ => hnext

theorem FinishesWithin.mono {length length' : ℕ} (h : r.FinishesWithin length)
    (hle : length' ≤ length) : r.FinishesWithin length' :=
  fun _ hlength => h (hlength.trans hle)

theorem FinishesWithin.each
    {readers : ℕ → Reader Sym Error α} {length : ℕ}
    (h : ∀ i, (readers i).FinishesWithin length) :
    ∀ first count, (each readers first count).FinishesWithin length
  | _, 0 => finishesWithin_pure [] length
  | first, count + 1 => (h first).bind_same fun item =>
      (FinishesWithin.each h (first + 1) count).bind_same fun items =>
        finishesWithin_pure (item :: items) length

theorem FinishesWithin.counted {length : ℕ} (h : r.FinishesWithin length) (count : ℕ) :
    (r.counted count).FinishesWithin length :=
  FinishesWithin.each (fun _ => h) 0 count

theorem FinishesWithin.terminated
    {r : Reader Sym Error (Option α)} (hcost : r.Takes 1) :
    ∀ {length fuel : ℕ}, r.FinishesWithin length → length < fuel →
      (r.terminated fuel).FinishesWithin length
  | length, fuel + 1, h, hfuel => h.bind hcost fun hpos => fun
      | none => finishesWithin_pure [] _
      | some item =>
          have hrest : (r.terminated fuel).FinishesWithin (length - 1) :=
            FinishesWithin.terminated hcost (h.mono (by omega)) (by omega)
          hrest.bind_same fun items => finishesWithin_pure (item :: items) _

/-! ## More fuel -/

/-- The second reader reads what the first does, where the first has the fuel. -/
def Refines (r r' : Reader Sym Error α) : Prop :=
  ∀ input, r.read input = .unfinished ∨ r'.read input = r.read input

theorem Refines.refl (r : Reader Sym Error α) : Refines r r := fun _ => .inr rfl

theorem Refines.bind
    {r' : Reader Sym Error α} {next next' : α → Reader Sym Error β}
    (h : Refines r r') (hnext : ∀ value, Refines (next value) (next' value)) :
    Refines (r >>= next) (r' >>= next') := by
  intro input
  rw [read_bind, read_bind]
  rcases h input with hunfinished | heq
  · exact .inl (by rw [hunfinished]; rfl)
  · rw [heq]
    cases r.read input with
    | done value rest => exact hnext value rest
    | failed error => exact .inr rfl
    | overrun => exact .inr rfl
    | unfinished => exact .inr rfl

theorem Refines.each
    {readers readers' : ℕ → Reader Sym Error α} (h : ∀ i, Refines (readers i) (readers' i)) :
    ∀ first count, Refines (each readers first count) (each readers' first count)
  | _, 0 => Refines.refl _
  | first, count + 1 => (h first).bind fun _ =>
      (Refines.each h (first + 1) count).bind fun _ => Refines.refl _

theorem refines_terminated (r : Reader Sym Error (Option α)) :
    ∀ {fuel fuel' : ℕ}, fuel ≤ fuel' → Refines (r.terminated fuel) (r.terminated fuel')
  | 0, _, _ => fun _ => .inl rfl
  | _ + 1, _ + 1, hle => (Refines.refl r).bind fun
      | none => Refines.refl _
      | some _ =>
          (refines_terminated r (Nat.le_of_succ_le_succ hle)).bind fun _ =>
            Refines.refl _

theorem Refines.read_eq
    {r' : Reader Sym Error α} (h : Refines r r') {length : ℕ}
    (hfinishes : r.FinishesWithin length) {input : List Sym}
    (hlength : input.length ≤ length) : r'.read input = r.read input := by
  rcases h input with hunfinished | heq
  · exact absurd hunfinished (hfinishes hlength)
  · exact heq

theorem Reads.of_refines
    {r' : Reader Sym Error α} {taken : List Sym} {value : α} (h : r.Reads taken value)
    (hrefines : Refines r r') : r'.Reads taken value := by
  have hread : r.read taken = .done value [] := h
  rcases hrefines taken with hunfinished | heq
  · rw [hunfinished] at hread
    cases hread
  · exact heq.trans hread

end Reader

/-! ## Numbers, most significant byte first -/

def bigEndian : ℕ → ℕ → List UInt8
  | 0, _ => []
  | width + 1, value => .ofNat (value / 256 ^ width) :: bigEndian width value

def ofBigEndian : List UInt8 → ℕ
  | [] => 0
  | byte :: bytes => byte.toNat * 256 ^ bytes.length + ofBigEndian bytes

@[simp] theorem length_bigEndian (width value : ℕ) :
    (bigEndian width value).length = width := by
  induction width with
  | zero => rfl
  | succ width ih => simp [bigEndian, ih]

theorem ofBigEndian_bigEndian (width value : ℕ) :
    ofBigEndian (bigEndian width value) = value % 256 ^ width := by
  induction width with
  | zero => simp [bigEndian, ofBigEndian, Nat.mod_one]
  | succ width ih =>
      have hbyte : (UInt8.ofNat (value / 256 ^ width)).toNat = value / 256 ^ width % 256 := by
        simp
      rw [bigEndian, ofBigEndian, ih, length_bigEndian, hbyte, pow_succ, Nat.mod_mul]
      ring

end SequentialReaders
