import NekoScript.HelperConversions
import NekoScript.ScopedNatives
import NekoScript.WideStrings
import Mathlib.Tactic

/-!
# Paths of unknown length

`GetModulePath` and `JSProcess::pwd` ask Windows for a path with a buffer of
`MAX_PATH` units, and ask again with a larger one.  A full buffer is too small
for the module path; for the current directory Windows returns the size that it
needs.
-/

namespace NekoScript

open UnicodeCoding

/-- A path that does not change, and the attempts to ask for it that fail. -/
structure WindowsPath where
  path : List UInt16
  zero_notMem : 0 ∉ path
  fails : ℕ → Bool

/-- What ends a query before it has a result. -/
inductive QueryFault where
  | outOfBounds
  /-- `std::length_error`, which `std::vector::resize` throws. -/
  | lengthError
  /-- `std::bad_array_new_length` -/
  | badArrayNewLength
  | raised (error : ScopeError)

abbrev Query := Except QueryFault

def inBounds {α : Type} : Option α → Query α
  | some value => .ok value
  | none => .error .outOfBounds

/-- Windows writes from the start of a buffer on. -/
def store (buffer units : List UInt16) : Query (List UInt16) :=
  if units.length ≤ buffer.length then .ok (units ++ buffer.drop units.length)
  else .error .outOfBounds

/-! ## The module path -/

/-- `GetModuleFileNameW`: what it returns, and the buffer. -/
def getModuleFileName (w : WindowsPath) (attempt : ℕ) (buffer : List UInt16)
    (nSize : ℕ) : Query (ℕ × List UInt16) := do
  if w.fails attempt then return (0, buffer)
  else if w.path.length < nSize then return (w.path.length, ← store buffer (w.path ++ [0]))
  else return (nSize, ← store buffer (w.path.take nSize))

/-- `std::vector<wchar_t>::max_size` -/
def maxSize : ℕ := 0x7fffffff

def resize (executablePath : List UInt16) (size : ℕ) : Query (List UInt16) :=
  if size > maxSize then .error .lengthError
  else .ok (executablePath ++ List.replicate (size - executablePath.length) 0)

/-- The body of the loop. -/
def enlarge (w : WindowsPath) (attempt : ℕ) (executablePath : List UInt16) :
    Query (ℕ × List UInt16) := do
  let executablePath ← resize executablePath (executablePath.length * 2 % 2 ^ 32)
  getModuleFileName w attempt executablePath executablePath.length

def whileFull (w : WindowsPath) :
    (fuel attempt : ℕ) → (result : ℕ) → (executablePath : List UInt16) →
      Option (Query (ℕ × List UInt16))
  | 0, _, _, _ => none
  | fuel + 1, attempt, result, executablePath =>
      if result = executablePath.length then
        match enlarge w attempt executablePath with
        | .error fault => some (.error fault)
        | .ok (result, executablePath) =>
            whileFull w fuel (attempt + 1) result executablePath
      else some (.ok (result, executablePath))

def modulePathResult (result : ℕ) (executablePath : List UInt16) :
    Query (List UInt16) :=
  if result = 0 then .ok [] else inBounds (wstringOf executablePath result)

def getModulePath (w : WindowsPath) (fuel : ℕ) : Option (Query (List UInt16)) :=
  match getModuleFileName w 0 (List.replicate maxPath 0) maxPath with
  | .error fault => some (.error fault)
  | .ok (result, executablePath) =>
      (whileFull w fuel 1 result executablePath).map fun ended => do
        let (result, executablePath) ← ended
        modulePathResult result executablePath

/-! ## The current directory -/

/-- `GetCurrentDirectory`: what it returns, and the buffer. -/
def getCurrentDirectory (w : WindowsPath) (attempt size : ℕ)
    (buffer : List UInt16) : Query (ℕ × List UInt16) := do
  if w.fails attempt then return (0, buffer)
  else if w.path.length < size then return (w.path.length, ← store buffer (w.path ++ [0]))
  else return (w.path.length + 1, buffer)

namespace JSProcess

/-- `new wchar_t[size]`, filled with what was there. -/
def newWchars (garbage : ℕ → UInt16) (size : ℤ) : Query (List UInt16) :=
  if size < 0 then .error .badArrayNewLength
  else .ok ((List.range size.toNat).map garbage)

/-- The calls of `GetCurrentDirectory`.  The size is an `int`, which is
converted for the comparison and for the calls. -/
def askDirectory (w : WindowsPath) (garbage : ℕ → UInt16) :
    Query (ℕ × List UInt16) := do
  let size : ℤ := maxPath
  let buffer ← newWchars garbage size
  let (result, buffer) ← getCurrentDirectory w 0 (asUnsigned size) buffer
  if result > asUnsigned size then do
    let size := asInt result
    let buffer ← newWchars garbage size
    getCurrentDirectory w 1 (asUnsigned size) buffer
  else return (result, buffer)

def pushDirectory (lastError result : ℕ) (buffer : List UInt16) :
    Query DukString := do
  if result ≠ 0 then
    let directory ← inBounds (terminatedWString buffer)
    match pushString (utf16ToUtf8 directory) with
    | .ok str => return str
    | .error e => .error (.raised (.engine e))
  else .error (.raised (.win32 lastError (some "GetCurrentDirectory")))

def pwd (w : WindowsPath) (lastError : ℕ) (garbage : ℕ → UInt16) :
    Query DukString := do
  let (result, buffer) ← askDirectory w garbage
  pushDirectory lastError result buffer

end JSProcess

/-! ## What is asked of them -/

/-- An attempt is made if the path fits none of the buffers before it. -/
def WindowsPath.FailsAt (w : WindowsPath) (size : ℕ → ℕ) : Prop :=
  ∃ attempt, w.fails attempt = true ∧ ∀ before < attempt, size before ≤ w.path.length

def modulePathSize (attempt : ℕ) : ℕ := maxPath * 2 ^ attempt

def WindowsPath.directorySize (w : WindowsPath) : ℕ → ℕ
  | 0 => maxPath
  | _ + 1 => w.path.length + 1

structure ReturnsModulePath (w : WindowsPath) : Prop where
  failed : w.FailsAt modulePathSize → ∃ fuel, getModulePath w fuel = some (.ok [])
  found : ¬ w.FailsAt modulePathSize →
    ∃ fuel, getModulePath w fuel = some (.ok w.path)

/-- An empty directory is reported like a failure. -/
structure PushesDirectory (w : WindowsPath) : Prop where
  failed : w.FailsAt w.directorySize ∨ w.path = [] → ∀ lastError garbage,
    JSProcess.pwd w lastError garbage =
      .error (.raised (.win32 lastError (some "GetCurrentDirectory")))
  found : ¬ (w.FailsAt w.directorySize ∨ w.path = []) → ∀ lastError garbage,
    JSProcess.pwd w lastError garbage = .ok (storedUnits w.path)

/-! ## The attempts of `GetModulePath` -/

def WindowsPath.Decided (w : WindowsPath) (attempt : ℕ) : Prop :=
  w.fails attempt = true ∨ w.path.length < modulePathSize attempt

/-- What an attempt leaves behind. -/
structure AttemptLeft (w : WindowsPath) (attempt result : ℕ)
    (executablePath : List UInt16) : Prop where
  length_eq : executablePath.length = modulePathSize attempt
  result_of_fails : w.fails attempt = true → result = 0
  result_of_full : ¬ w.Decided attempt → result = modulePathSize attempt
  found : w.fails attempt = false → w.path.length < modulePathSize attempt →
    result = w.path.length ∧ ∃ rest, executablePath = w.path ++ rest

theorem modulePathSize_pos (attempt : ℕ) : 0 < modulePathSize attempt := by
  unfold modulePathSize maxPath
  positivity

theorem modulePathSize_succ (attempt : ℕ) :
    modulePathSize (attempt + 1) = modulePathSize attempt * 2 := by
  unfold modulePathSize
  ring

theorem modulePathSize_le {attempt other : ℕ} (hle : attempt ≤ other) :
    modulePathSize attempt ≤ modulePathSize other := by
  unfold modulePathSize
  gcongr
  norm_num

theorem store_eq
    {buffer units : List UInt16} (hfits : units.length ≤ buffer.length) :
    store buffer units = .ok (units ++ buffer.drop units.length) :=
  if_pos hfits

variable {w : WindowsPath}

theorem getModuleFileName_of_fits
    {attempt : ℕ} (hfails : w.fails attempt = false) {buffer : List UInt16}
    (hfits : w.path.length < buffer.length) :
    getModuleFileName w attempt buffer buffer.length =
      .ok (w.path.length, w.path ++ [0] ++ buffer.drop (w.path.length + 1)) := by
  have hstore : store buffer (w.path ++ [0]) =
      .ok (w.path ++ [0] ++ buffer.drop (w.path.length + 1)) := by
    rw [store_eq (by simpa using hfits), List.length_append, List.length_singleton]
  simp [getModuleFileName, hfails, hfits, hstore, bind, Except.bind, pure, Except.pure]

theorem getModuleFileName_of_full
    {attempt : ℕ} (hfails : w.fails attempt = false) {buffer : List UInt16}
    (hfull : buffer.length ≤ w.path.length) :
    getModuleFileName w attempt buffer buffer.length =
      .ok (buffer.length, w.path.take buffer.length) := by
  have hlength : (w.path.take buffer.length).length = buffer.length := by
    rw [List.length_take]
    omega
  have hstore : store buffer (w.path.take buffer.length) =
      .ok (w.path.take buffer.length) := by
    rw [store_eq hlength.le, hlength, List.drop_length, List.append_nil]
  simp [getModuleFileName, hfails, hfull.not_gt, hstore, bind, Except.bind, pure,
    Except.pure]

theorem attemptLeft_getModuleFileName
    {attempt : ℕ} {buffer : List UInt16} (hlength : buffer.length = modulePathSize attempt) :
    ∃ result left,
      getModuleFileName w attempt buffer buffer.length = .ok (result, left) ∧
        AttemptLeft w attempt result left := by
  cases hfails : w.fails attempt with
  | true =>
      have hreport : getModuleFileName w attempt buffer buffer.length = .ok (0, buffer) := by
        simp [getModuleFileName, hfails, pure, Except.pure]
      have hleft : AttemptLeft w attempt 0 buffer :=
        { length_eq := hlength
          result_of_fails := fun _ => rfl
          result_of_full := fun hfull => absurd (.inl hfails) hfull
          found := fun h => by simp [hfails] at h }
      exact ⟨_, _, hreport, hleft⟩
  | false =>
      by_cases hfits : w.path.length < buffer.length
      · have hleft : AttemptLeft w attempt w.path.length
            (w.path ++ [0] ++ buffer.drop (w.path.length + 1)) :=
          { length_eq := by simp; omega
            result_of_fails := fun h => by simp [hfails] at h
            result_of_full := fun hfull => absurd (.inr (hlength ▸ hfits)) hfull
            found := fun _ _ => ⟨rfl, _, List.append_assoc _ _ _⟩ }
        exact ⟨_, _, getModuleFileName_of_fits hfails hfits, hleft⟩
      · have hleft : AttemptLeft w attempt buffer.length (w.path.take buffer.length) :=
          { length_eq := by rw [List.length_take]; omega
            result_of_fails := fun h => by simp [hfails] at h
            result_of_full := fun _ => hlength
            found := fun _ hlt => absurd (hlength ▸ hlt) hfits }
        exact ⟨_, _, getModuleFileName_of_full hfails (by omega), hleft⟩

theorem AttemptLeft.full_iff
    {attempt result : ℕ} {executablePath : List UInt16}
    (hleft : AttemptLeft w attempt result executablePath) :
    result = executablePath.length ↔ ¬ w.Decided attempt := by
  have hpos := modulePathSize_pos attempt
  rw [hleft.length_eq]
  constructor
  · intro hresult hdecided
    cases hfails : w.fails attempt with
    | true =>
        have hzero := hleft.result_of_fails hfails
        omega
    | false =>
        have hfits : w.path.length < modulePathSize attempt := by
          simpa [WindowsPath.Decided, hfails] using hdecided
        have hfound := (hleft.found hfails hfits).1
        omega
  · exact hleft.result_of_full

theorem modulePathSize_le_maxSize {attempt : ℕ} (hattempt : attempt ≤ 22) :
    modulePathSize attempt ≤ maxSize := by
  have hle := modulePathSize_le hattempt
  have hlast : modulePathSize 22 = 1090519040 := by decide
  unfold maxSize
  omega

theorem enlarge_of_lt
    {attempt : ℕ} (hattempt : attempt < 22) {executablePath : List UInt16}
    (hlength : executablePath.length = modulePathSize attempt) :
    ∃ result left, enlarge w (attempt + 1) executablePath = .ok (result, left) ∧
      AttemptLeft w (attempt + 1) result left := by
  have hsucc := modulePathSize_succ attempt
  have hle : modulePathSize (attempt + 1) ≤ maxSize := modulePathSize_le_maxSize hattempt
  have hsize : executablePath.length * 2 % 2 ^ 32 = modulePathSize (attempt + 1) := by
    unfold maxSize at hle
    omega
  set larger := executablePath ++
    List.replicate (modulePathSize (attempt + 1) - executablePath.length) 0 with hlarger
  have hresize : resize executablePath (executablePath.length * 2 % 2 ^ 32) =
      .ok larger := by
    rw [hsize]
    exact if_neg (by omega)
  have hlength' : larger.length = modulePathSize (attempt + 1) := by
    rw [hlarger, List.length_append, List.length_replicate]
    omega
  rcases attemptLeft_getModuleFileName (w := w) hlength' with ⟨result, left, hask, hleft⟩
  refine ⟨result, left, ?_, hleft⟩
  unfold enlarge
  rw [hresize]
  exact hask

theorem enlarge_last
    {executablePath : List UInt16} (hlength : executablePath.length = modulePathSize 22) :
    enlarge w 23 executablePath = .error .lengthError := by
  have hlast : modulePathSize 22 = 1090519040 := by decide
  have hresize : resize executablePath (executablePath.length * 2 % 2 ^ 32) =
      .error .lengthError := by
    apply if_pos
    unfold maxSize
    omega
  unfold enlarge
  rw [hresize]
  rfl

/-- The loop goes on to the first attempt that decides. -/
theorem whileFull_of_decided
    (more attempt : ℕ) {result : ℕ} {executablePath : List UInt16}
    (hlast : attempt + more ≤ 22)
    (hundecided : ∀ i, attempt ≤ i → i < attempt + more → ¬ w.Decided i)
    (hdecided : w.Decided (attempt + more))
    (hleft : AttemptLeft w attempt result executablePath) :
    ∃ final left,
      whileFull w (more + 1) (attempt + 1) result executablePath =
        some (.ok (final, left)) ∧
      AttemptLeft w (attempt + more) final left := by
  induction more generalizing attempt result executablePath with
  | zero =>
      have hstop : ¬ result = executablePath.length := by
        rw [hleft.full_iff]
        exact not_not_intro hdecided
      exact ⟨result, executablePath, if_neg hstop, hleft⟩
  | succ more ih =>
      have hfull : result = executablePath.length :=
        hleft.full_iff.mpr (hundecided attempt le_rfl (by omega))
      have hshift : attempt + (more + 1) = attempt + 1 + more := by omega
      rw [hshift] at hlast hundecided hdecided ⊢
      rcases enlarge_of_lt (w := w) (by omega) hleft.length_eq with
        ⟨next, larger, henlarge, hnext⟩
      rcases ih (attempt + 1) hlast (fun i hge hlt => hundecided i (by omega) hlt) hdecided hnext with
        ⟨final, left, hrun, hfinal⟩
      refine ⟨final, left, ?_, hfinal⟩
      rw [whileFull, if_pos hfull, henlarge]
      exact hrun

/-- Without such an attempt the buffer grows until it cannot. -/
theorem whileFull_of_undecided
    (fuel attempt : ℕ) {result : ℕ} {executablePath : List UInt16}
    (hlast : attempt ≤ 22)
    (hundecided : ∀ i, attempt ≤ i → i ≤ 22 → ¬ w.Decided i)
    (hleft : AttemptLeft w attempt result executablePath) :
    ∀ final, whileFull w fuel (attempt + 1) result executablePath ≠ some (.ok final) := by
  induction fuel generalizing attempt result executablePath with
  | zero =>
      intro final h
      simp [whileFull] at h
  | succ fuel ih =>
      intro final
      have hfull : result = executablePath.length :=
        hleft.full_iff.mpr (hundecided attempt le_rfl hlast)
      rw [whileFull, if_pos hfull]
      by_cases hmore : attempt < 22
      · rcases enlarge_of_lt (w := w) hmore hleft.length_eq with
          ⟨next, larger, henlarge, hnext⟩
        rw [henlarge]
        exact ih (attempt + 1) hmore (fun i hge hle => hundecided i (by omega) hle) hnext final
      · have hattempt : attempt = 22 := by omega
        subst hattempt
        rw [enlarge_last hleft.length_eq]
        simp

theorem getModulePath_eq
    {result : ℕ} {executablePath : List UInt16}
    (hfirst : getModuleFileName w 0 (List.replicate maxPath 0) maxPath =
      .ok (result, executablePath)) (fuel : ℕ) :
    getModulePath w fuel =
      (whileFull w fuel 1 result executablePath).map fun ended =>
        ended.bind fun last => modulePathResult last.1 last.2 := by
  unfold getModulePath
  rw [hfirst]
  rfl

theorem exists_firstAttempt (w : WindowsPath) :
    ∃ result left,
      getModuleFileName w 0 (List.replicate maxPath 0) maxPath = .ok (result, left) ∧
        AttemptLeft w 0 result left := by
  have hlength : (List.replicate maxPath (0 : UInt16)).length = modulePathSize 0 := by
    simp [modulePathSize]
  have hfirst := attemptLeft_getModuleFileName (w := w) hlength
  rwa [List.length_replicate] at hfirst

theorem modulePathResult_of_fails
    {attempt result : ℕ} {executablePath : List UInt16}
    (hleft : AttemptLeft w attempt result executablePath)
    (hfails : w.fails attempt = true) :
    modulePathResult result executablePath = .ok [] :=
  if_pos (hleft.result_of_fails hfails)

theorem modulePathResult_of_found
    {attempt result : ℕ} {executablePath : List UInt16}
    (hleft : AttemptLeft w attempt result executablePath)
    (hfails : w.fails attempt = false) (hfits : w.path.length < modulePathSize attempt) :
    modulePathResult result executablePath = .ok w.path := by
  rcases hleft.found hfails hfits with ⟨hresult, rest, hpath⟩
  unfold modulePathResult
  rw [hresult, hpath, wstringOf_append]
  by_cases hempty : w.path.length = 0
  · rw [if_pos hempty, List.eq_nil_of_length_eq_zero hempty]
  · rw [if_neg hempty]
    rfl

/-- The attempts before the one that decides are too small for the path and do
not fail. -/
theorem failsAt_iff_of_first
    {attempt : ℕ} (hdecided : w.Decided attempt)
    (hundecided : ∀ i < attempt, ¬ w.Decided i) :
    w.FailsAt modulePathSize ↔ w.fails attempt = true := by
  constructor
  · rintro ⟨i, hfails, hbefore⟩
    rcases Nat.lt_trichotomy i attempt with hlt | heq | hgt
    · exact absurd (.inl hfails) (hundecided i hlt)
    · rwa [← heq]
    · have hle := hbefore attempt hgt
      exact hdecided.resolve_right hle.not_gt
  · intro hfails
    refine ⟨attempt, hfails, ?_⟩
    intro i hlt
    have hi := hundecided i hlt
    unfold WindowsPath.Decided at hi
    omega

theorem returnsModulePath_of_decided
    {last : ℕ} (hlast : last ≤ 22) (hdecided : w.Decided last) :
    ReturnsModulePath w := by
  classical
  have hexists : ∃ attempt, w.Decided attempt := ⟨last, hdecided⟩
  set attempt := Nat.find hexists with hattempt
  have hfirst : w.Decided attempt := Nat.find_spec hexists
  have hundecided : ∀ i < attempt, ¬ w.Decided i := fun i hlt => Nat.find_min hexists hlt
  have hle : attempt ≤ last := Nat.find_min' hexists hdecided
  rcases exists_firstAttempt w with ⟨result, executablePath, hask, hleft⟩
  rcases whileFull_of_decided attempt 0 (by omega)
    (fun i _ hlt => hundecided i (by omega)) (by simpa using hfirst) hleft with
    ⟨final, left, hrun, hfinal⟩
  rw [Nat.zero_add] at hrun hfinal
  have hresult : getModulePath w (attempt + 1) = some (modulePathResult final left) := by
    rw [getModulePath_eq hask, hrun]
    rfl
  have hfailsAt := failsAt_iff_of_first hfirst hundecided
  constructor
  · intro hfailed
    have hfails := hfailsAt.mp hfailed
    exact ⟨attempt + 1, by rw [hresult, modulePathResult_of_fails hfinal hfails]⟩
  · intro hfound
    have hfails : w.fails attempt = false := by
      simpa [hfailsAt] using hfound
    have hfits : w.path.length < modulePathSize attempt :=
      hfirst.resolve_left (by simp [hfails])
    exact ⟨attempt + 1, by rw [hresult, modulePathResult_of_found hfinal hfails hfits]⟩

theorem decided_of_returnsModulePath
    (hreturns : ReturnsModulePath w) : ∃ attempt ≤ 22, w.Decided attempt := by
  by_contra hnot
  have hnone : ∀ attempt, attempt ≤ 22 → ¬ w.Decided attempt :=
    fun attempt hle hdecided => hnot ⟨attempt, hle, hdecided⟩
  rcases exists_firstAttempt w with ⟨result, executablePath, hask, hleft⟩
  have hloops : ∀ fuel path, getModulePath w fuel ≠ some (.ok path) := by
    intro fuel path h
    have hrun := whileFull_of_undecided fuel 0 (by omega)
      (fun i _ => hnone i) hleft
    rw [getModulePath_eq hask, Option.map_eq_some_iff] at h
    rcases h with ⟨ended, hended, hresult⟩
    cases ended with
    | error fault => simp [Except.bind] at hresult
    | ok final => exact hrun final hended
  by_cases hfailed : w.FailsAt modulePathSize
  · rcases hreturns.failed hfailed with ⟨fuel, h⟩
    exact hloops fuel _ h
  · rcases hreturns.found hfailed with ⟨fuel, h⟩
    exact hloops fuel _ h

/-- The buffer grows to `260 * 2 ^ 22` units and no further. -/
theorem returnsModulePath_iff (w : WindowsPath) :
    ReturnsModulePath w ↔
      w.path.length < maxPath * 2 ^ 22 ∨ ∃ attempt ≤ 22, w.fails attempt = true := by
  constructor
  · intro hreturns
    rcases decided_of_returnsModulePath hreturns with ⟨attempt, hle, hfails | hfits⟩
    · exact .inr ⟨attempt, hle, hfails⟩
    · exact .inl (hfits.trans_le (modulePathSize_le hle))
  · rintro (hfits | ⟨attempt, hle, hfails⟩)
    · exact returnsModulePath_of_decided le_rfl (.inr hfits)
    · exact returnsModulePath_of_decided hle (.inl hfails)

/-! ## The two attempts of `pwd` -/

section Directory

theorem getCurrentDirectory_of_fails
    {attempt : ℕ} (hfails : w.fails attempt = true) (size : ℕ) (buffer : List UInt16) :
    getCurrentDirectory w attempt size buffer = .ok (0, buffer) := by
  simp [getCurrentDirectory, hfails, pure, Except.pure]

theorem getCurrentDirectory_of_fits
    {attempt : ℕ} (hfails : w.fails attempt = false) {buffer : List UInt16}
    (hfits : w.path.length < buffer.length) :
    getCurrentDirectory w attempt buffer.length buffer =
      .ok (w.path.length, w.path ++ 0 :: buffer.drop (w.path.length + 1)) := by
  have hstore : store buffer (w.path ++ [0]) =
      .ok (w.path ++ 0 :: buffer.drop (w.path.length + 1)) := by
    rw [store_eq (by simpa using hfits)]
    simp
  simp [getCurrentDirectory, hfails, hfits, hstore, bind, Except.bind, pure, Except.pure]

theorem getCurrentDirectory_of_full
    {attempt : ℕ} (hfails : w.fails attempt = false) {size : ℕ}
    (hfull : size ≤ w.path.length) (buffer : List UInt16) :
    getCurrentDirectory w attempt size buffer = .ok (w.path.length + 1, buffer) := by
  simp [getCurrentDirectory, hfails, hfull.not_gt, pure, Except.pure]

namespace JSProcess

variable (lastError : ℕ) (garbage : ℕ → UInt16)

def firstBuffer : List UInt16 := (List.range maxPath).map garbage

def secondBuffer (w : WindowsPath) : List UInt16 :=
  (List.range (w.path.length + 1)).map garbage

theorem askDirectory_eq (w : WindowsPath) :
    askDirectory w garbage =
      (getCurrentDirectory w 0 maxPath (firstBuffer garbage)).bind fun answer =>
        if answer.1 > maxPath then
          (newWchars garbage (asInt answer.1)).bind fun buffer =>
            getCurrentDirectory w 1 (asUnsigned (asInt answer.1)) buffer
        else .ok answer := by
  rfl

/-- If the first buffer is too small, the second has the size that Windows
asked for. -/
theorem askDirectory_of_full
    (hfails : w.fails 0 = false) (hfull : maxPath ≤ w.path.length)
    (hlt : w.path.length + 1 < 2 ^ 31) :
    askDirectory w garbage =
      getCurrentDirectory w 1 (secondBuffer garbage w).length (secondBuffer garbage w) := by
  have hsize : asInt (w.path.length + 1) = (w.path.length + 1 : ℕ) := asInt_of_lt hlt
  have hnew : newWchars garbage (w.path.length + 1 : ℕ) = .ok (secondBuffer garbage w) := by
    unfold newWchars
    rw [if_neg (by omega), Int.toNat_natCast]
    rfl
  have hdword : asUnsigned (w.path.length + 1 : ℕ) = w.path.length + 1 :=
    asUnsigned_of_lt (by omega)
  have hlength : (secondBuffer garbage w).length = w.path.length + 1 := by
    simp [secondBuffer]
  rw [askDirectory_eq, getCurrentDirectory_of_full hfails hfull, hlength]
  change (if w.path.length + 1 > maxPath then _ else _) = _
  rw [if_pos (by omega), hsize, hnew, hdword]
  rfl

/-- The size of a buffer for 2^31 - 1 units does not fit an `int`. -/
theorem askDirectory_of_longest
    (hfails : w.fails 0 = false) (hlongest : w.path.length + 1 = 2 ^ 31) :
    askDirectory w garbage = .error .badArrayNewLength := by
  have hfull : maxPath ≤ w.path.length := by
    unfold maxPath
    omega
  have hsize : newWchars garbage (asInt (w.path.length + 1)) =
      .error .badArrayNewLength := by
    rw [hlongest]
    rfl
  rw [askDirectory_eq, getCurrentDirectory_of_full hfails hfull]
  change (if w.path.length + 1 > maxPath then _ else _) = _
  rw [if_pos (by omega), hsize]
  rfl

theorem failsAt_directorySize_iff (w : WindowsPath) :
    w.FailsAt w.directorySize ↔
      w.fails 0 = true ∨ maxPath ≤ w.path.length ∧ w.fails 1 = true := by
  constructor
  · rintro ⟨attempt, hfails, hbefore⟩
    match attempt with
    | 0 => exact .inl hfails
    | 1 => exact .inr ⟨hbefore 0 (by omega), hfails⟩
    | attempt + 2 =>
        have hsecond : w.path.length + 1 ≤ w.path.length := hbefore 1 (by omega)
        omega
  · rintro (hfails | ⟨hfull, hfails⟩)
    · exact ⟨0, hfails, by simp⟩
    · refine ⟨1, hfails, ?_⟩
      intro before hlt
      obtain rfl : before = 0 := by omega
      exact hfull

theorem exists_askDirectory_of_fits
    (hfails : w.fails 0 = false) (hfits : w.path.length < maxPath) :
    ∃ rest, askDirectory w garbage = .ok (w.path.length, w.path ++ 0 :: rest) := by
  have hlength : (firstBuffer garbage).length = maxPath := by simp [firstBuffer]
  have hroom : w.path.length < (firstBuffer garbage).length := by omega
  have hanswer := getCurrentDirectory_of_fits hfails hroom
  rw [hlength] at hanswer
  refine ⟨(firstBuffer garbage).drop (w.path.length + 1), ?_⟩
  rw [askDirectory_eq, hanswer]
  exact if_neg (by omega)

theorem exists_askDirectory_of_found
    (hlt : w.path.length + 1 < 2 ^ 31) (hfound : ¬ w.FailsAt w.directorySize) :
    ∃ rest, askDirectory w garbage = .ok (w.path.length, w.path ++ 0 :: rest) := by
  rw [failsAt_directorySize_iff, not_or, Bool.not_eq_true] at hfound
  rcases hfound with ⟨hfirst, hsecond⟩
  by_cases hfits : w.path.length < maxPath
  · exact exists_askDirectory_of_fits garbage hfirst hfits
  · have hfails : w.fails 1 = false := by
      simpa [Nat.not_lt.mp hfits] using hsecond
    have hlarge : w.path.length < (secondBuffer garbage w).length := by
      simp [secondBuffer]
    rw [askDirectory_of_full garbage hfirst (by omega) hlt,
      getCurrentDirectory_of_fits hfails hlarge]
    exact ⟨_, rfl⟩

theorem exists_askDirectory_of_fails
    (hfails : w.fails 0 = true ∨
      w.path.length + 1 < 2 ^ 31 ∧ maxPath ≤ w.path.length ∧ w.fails 1 = true) :
    ∃ buffer, askDirectory w garbage = .ok (0, buffer) := by
  cases hfirst : w.fails 0 with
  | true =>
      refine ⟨firstBuffer garbage, ?_⟩
      rw [askDirectory_eq, getCurrentDirectory_of_fails hfirst]
      rfl
  | false =>
      rcases hfails.resolve_left (by simp [hfirst]) with ⟨hlt, hfull, hsecond⟩
      refine ⟨secondBuffer garbage w, ?_⟩
      rw [askDirectory_of_full garbage hfirst hfull hlt,
        getCurrentDirectory_of_fails hsecond]

theorem pwd_of_zero
    {buffer : List UInt16} (hask : askDirectory w garbage = .ok (0, buffer)) :
    pwd w lastError garbage =
      .error (.raised (.win32 lastError (some "GetCurrentDirectory"))) := by
  unfold pwd
  rw [hask]
  rfl

theorem pwd_of_found
    {rest : List UInt16} (hpath : w.path ≠ [])
    (hask : askDirectory w garbage = .ok (w.path.length, w.path ++ 0 :: rest)) :
    pwd w lastError garbage =
      if (utf16ToUtf8 w.path).length > hstringMaxBytelen then
        .error (.raised (.engine (.rangeError (lexerString "string too long".toList))))
      else .ok (utf16ToUtf8 w.path) := by
  have hlength : w.path.length ≠ 0 := by simpa using hpath
  have hpush := pushString_of_zero_notMem (zero_notMem_utf16ToUtf8 w.zero_notMem)
  unfold pwd
  rw [hask]
  change pushDirectory lastError w.path.length (w.path ++ 0 :: rest) = _
  unfold pushDirectory
  rw [if_pos hlength, terminatedWString_append w.zero_notMem]
  change (match pushString (utf16ToUtf8 w.path) with
    | .ok str => (.ok str : Query DukString)
    | .error e => .error (.raised (.engine e))) = _
  rw [hpush]
  by_cases hlong : (utf16ToUtf8 w.path).length > hstringMaxBytelen
  · rw [if_pos hlong, if_pos hlong]
  · rw [if_neg hlong, if_neg hlong]

theorem pwd_eq_storedUnits_iff
    {rest : List UInt16} (hpath : w.path ≠ [])
    (hask : askDirectory w garbage = .ok (w.path.length, w.path ++ 0 :: rest)) :
    pwd w lastError garbage = .ok (storedUnits w.path) ↔
      (∀ unit ∈ w.path, IsScalar unit.toNat) ∧
        (storedUnits w.path).length ≤ hstringMaxBytelen := by
  rw [pwd_of_found lastError garbage hpath hask]
  by_cases hlong : (utf16ToUtf8 w.path).length > hstringMaxBytelen
  · rw [if_pos hlong, ← utf16ToUtf8_eq_storedUnits_iff]
    simp only [reduceCtorEq, false_iff, not_and, not_le]
    intro hsame
    rwa [← hsame]
  · rw [if_neg hlong, Except.ok.injEq, ← utf16ToUtf8_eq_storedUnits_iff]
    constructor
    · intro hsame
      exact ⟨hsame, by rw [← hsame]; omega⟩
    · exact And.left

theorem pwd_of_longest
    (hfails : w.fails 0 = false) (hlongest : w.path.length + 1 = 2 ^ 31) :
    pwd w lastError garbage = .error .badArrayNewLength := by
  unfold pwd
  rw [askDirectory_of_longest garbage hfails hlongest]
  rfl

end JSProcess

end Directory

open JSProcess

theorem pushesDirectory_of_short
    (hlt : w.path.length + 1 < 2 ^ 31) :
    PushesDirectory w ↔
      w.FailsAt w.directorySize ∨ w.path = [] ∨
        (∀ unit ∈ w.path, IsScalar unit.toNat) ∧
          (storedUnits w.path).length ≤ hstringMaxBytelen := by
  by_cases hfailed : w.FailsAt w.directorySize
  · have hpushes : PushesDirectory w := by
      refine ⟨?_, fun hfound => absurd (.inl hfailed) hfound⟩
      intro _ lastError garbage
      rw [failsAt_directorySize_iff] at hfailed
      rcases exists_askDirectory_of_fails garbage
        (hfailed.imp_right fun h => ⟨hlt, h⟩) with ⟨buffer, hask⟩
      exact pwd_of_zero lastError garbage hask
    simp [hpushes, hfailed]
  · by_cases hempty : w.path = []
    · have hpushes : PushesDirectory w := by
        refine ⟨?_, fun hfound => absurd (.inr hempty) hfound⟩
        intro _ lastError garbage
        rcases exists_askDirectory_of_found garbage hlt hfailed with ⟨rest, hask⟩
        rw [hempty, List.length_nil] at hask
        exact pwd_of_zero lastError garbage hask
      simp [hpushes, hempty]
    · have hask := fun garbage => exists_askDirectory_of_found garbage hlt hfailed
      constructor
      · intro hpushes
        rcases hask (fun _ => 0) with ⟨rest, hrest⟩
        have hpwd := hpushes.found (by simp [hfailed, hempty]) 0 fun _ => 0
        exact .inr (.inr ((pwd_eq_storedUnits_iff _ _ hempty hrest).mp hpwd))
      · intro hcondition
        have htext := (hcondition.resolve_left hfailed).resolve_left hempty
        refine ⟨fun hnot => absurd hnot (by simp [hfailed, hempty]), ?_⟩
        intro _ lastError garbage
        rcases hask garbage with ⟨rest, hrest⟩
        exact (pwd_eq_storedUnits_iff _ _ hempty hrest).mpr htext

theorem pushesDirectory_iff_of_longest
    (hlongest : w.path.length + 1 = 2 ^ 31) :
    PushesDirectory w ↔ w.fails 0 = true := by
  constructor
  · intro hpushes
    by_contra hnot
    have hfails : w.fails 0 = false := by simpa using hnot
    have hpwd := pwd_of_longest 0 (fun _ => 0) hfails hlongest
    by_cases hfailed : w.FailsAt w.directorySize ∨ w.path = []
    · rw [hpushes.failed hfailed] at hpwd
      simp at hpwd
    · rw [hpushes.found hfailed] at hpwd
      simp at hpwd
  · intro hfails
    have hfailed : w.FailsAt w.directorySize :=
      (failsAt_directorySize_iff w).mpr (.inl hfails)
    refine ⟨?_, fun hfound => absurd (.inl hfailed) hfound⟩
    intro _ lastError garbage
    rcases exists_askDirectory_of_fails garbage (.inl hfails) with ⟨buffer, hask⟩
    exact pwd_of_zero lastError garbage hask

/-- Below the length at which the size no longer fits an `int`, what is pushed
is the directory if its text is a JS string as it stands. -/
theorem pushesDirectory_iff
    (w : WindowsPath) (hlength : w.path.length < 2 ^ 31) :
    PushesDirectory w ↔
      w.fails 0 = true ∨ w.path = [] ∨ w.path.length + 1 < 2 ^ 31 ∧
        (maxPath ≤ w.path.length ∧ w.fails 1 = true ∨
          (∀ unit ∈ w.path, IsScalar unit.toNat) ∧
            (storedUnits w.path).length ≤ hstringMaxBytelen) := by
  by_cases hlt : w.path.length + 1 < 2 ^ 31
  · rw [pushesDirectory_of_short hlt, failsAt_directorySize_iff]
    tauto
  · have hlongest : w.path.length + 1 = 2 ^ 31 := by omega
    have hnil : w.path ≠ [] := by
      intro hnil
      rw [hnil] at hlongest
      simp at hlongest
    have hnot : ¬ w.path.length + 1 < 2 ^ 31 := hlt
    rw [pushesDirectory_iff_of_longest hlongest]
    tauto

/-- Both queries give the whole path exactly when it is not too long for the
buffers the code can ask for, and the directory is a JS string as it stands. -/
theorem pathsQueried_iff
    (executable directory : WindowsPath) (hlength : directory.path.length < 2 ^ 31) :
    ReturnsModulePath executable ∧ PushesDirectory directory ↔
      (executable.path.length < maxPath * 2 ^ 22 ∨
        ∃ attempt ≤ 22, executable.fails attempt = true) ∧
      (directory.fails 0 = true ∨ directory.path = [] ∨
        directory.path.length + 1 < 2 ^ 31 ∧
          (maxPath ≤ directory.path.length ∧ directory.fails 1 = true ∨
            (∀ unit ∈ directory.path, IsScalar unit.toNat) ∧
              (storedUnits directory.path).length ≤ hstringMaxBytelen)) := by
  rw [returnsModulePath_iff, pushesDirectory_iff directory hlength]

/-- `C:\` -/
def rootDirectory : WindowsPath where
  path := [0x43, 0x3A, 0x5C]
  zero_notMem := by decide
  fails := fun _ => false

theorem pathsQueried_rootDirectory :
    ReturnsModulePath rootDirectory ∧ PushesDirectory rootDirectory := by
  have hscalar : ∀ unit ∈ rootDirectory.path, IsScalar unit.toNat := by
    simp [rootDirectory, IsScalar]
  have hlength : (storedUnits rootDirectory.path).length ≤ hstringMaxBytelen := by decide
  rw [pathsQueried_iff rootDirectory rootDirectory (by decide)]
  exact ⟨.inl (by decide), .inr (.inr ⟨by decide, .inr ⟨hscalar, hlength⟩⟩)⟩

/-- `C:\` and a unit that is no character on its own. -/
def surrogateDirectory : WindowsPath where
  path := [0x43, 0x3A, 0x5C, 0xD800]
  zero_notMem := by decide
  fails := fun _ => false

theorem not_pushesDirectory_of_surrogate :
    surrogateDirectory.path.length < 2 ^ 31 ∧ ¬ PushesDirectory surrogateDirectory := by
  have hlength : surrogateDirectory.path.length < 2 ^ 31 := by decide
  have hsurrogate : ¬ ∀ unit ∈ surrogateDirectory.path, IsScalar unit.toNat := by
    simp [surrogateDirectory, IsScalar]
  refine ⟨hlength, ?_⟩
  rw [pushesDirectory_iff _ hlength]
  rintro (hfails | hempty | ⟨_, ⟨_, hfails⟩ | ⟨hscalar, _⟩⟩)
  · exact Bool.false_ne_true hfails
  · exact List.cons_ne_nil _ _ hempty
  · exact Bool.false_ne_true hfails
  · exact hsurrogate hscalar

end NekoScript
