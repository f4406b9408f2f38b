import NekoScript.ScopedNatives
import Mathlib.Tactic

/-!
# What the natives with a `JSThrowScope` leave behind

An error that is recorded in the scope is raised when nothing is left, and an
error that is raised inside the body leaves the scope.  `readdirSync` never
closes the handle of its search.
-/

namespace NekoScript

open Programs ResourceOwnership

variable {env : ScopeEnvironment}

section Engine

variable {call : EngineCall} {s : ScopeRun}

theorem exec_engine_raised
    {e : JSError} (hraises : env.raises s.calls call = some e) :
    (scopeOp (.engine call)).exec (performScopeOp env) s =
      (.error (.engine e), { s with calls := s.calls + 1 }) := by
  apply Program.exec_failed
  simp only [performScopeOp, hraises]

theorem exec_engine_done
    (hraises : env.raises s.calls call = none) :
    (scopeOp (.engine call)).exec (performScopeOp env) s =
      (.ok (), { s with calls := s.calls + 1 }) := by
  apply Program.exec_perform
  simp only [performScopeOp, hraises]

end Engine

section Scope

variable {α : Type} {body : ScopedProgram (Except Recorded α)} {s s' : ScopeRun}

theorem exec_throwScope :
    (throwScope body).exec (performScopeOp env) s =
      (body.bind fun result => (scopeOp (.delete ⟨.throwScope, s.next⟩)).bind fun _ =>
        match result with
        | .ok value => .pure value
        | .error recorded => (scopeOp (.delete ⟨.argv, recorded.argv⟩)).bind
            fun _ => raiseError recorded.error).exec
        (performScopeOp env) (s.acquire .throwScope) := rfl

theorem exec_throwScope_completed
    {value : α}
    (hbody : body.exec (performScopeOp env) (s.acquire .throwScope) =
      (.ok (.ok value), s')) :
    (throwScope body).exec (performScopeOp env) s =
      (.ok value, s'.release ⟨.throwScope, s.next⟩) := by
  rw [exec_throwScope, Program.exec_bind_ok hbody]
  rfl

theorem exec_throwScope_recorded
    {recorded : Recorded}
    (hbody : body.exec (performScopeOp env) (s.acquire .throwScope) =
      (.ok (.error recorded), s')) :
    (throwScope body).exec (performScopeOp env) s =
      (.error recorded.error,
        (s'.release ⟨.throwScope, s.next⟩).release ⟨.argv, recorded.argv⟩) := by
  rw [exec_throwScope, Program.exec_bind_ok hbody]
  rfl

/-- The rest of the native, which would free the scope, is never reached. -/
theorem exec_throwScope_raised
    {e : ScopeError}
    (hbody : body.exec (performScopeOp env) (s.acquire .throwScope) =
      (.error e, s')) :
    (throwScope body).exec (performScopeOp env) s = (.error e, s') := by
  rw [exec_throwScope, Program.exec_bind_error hbody]

theorem exec_jsThrowScopeWin32ErrorLast (func : String) :
    (jsThrowScopeWin32ErrorLast func :
        ScopedProgram (Except Recorded α)).exec (performScopeOp env) s =
      (.ok (.error ⟨s.next, .win32 (env.lastError s.calls) (some func)⟩),
        s.acquire .argv) := rfl

end Scope

theorem leavesNothing_of_releasedOnce
    {exit : Except ScopeError NativeResult × ScopeRun}
    (honce : exit.2.history.ReleasedOnce) : LeavesNothing exit :=
  fun resource hmem _ => honce resource hmem

/-- The history of a scope in which nothing was acquired. -/
theorem releasedOnce_scope (id : ℕ) :
    History.ReleasedOnce [.released (⟨.throwScope, id⟩ : NativeResource),
      .acquired ⟨.throwScope, id⟩] := by
  intro resource hmem
  have hsame : resource = ⟨.throwScope, id⟩ := by simpa using hmem
  simp [hsame]

/-- The history of a scope in which an error was recorded. -/
theorem releasedOnce_recorded (id argv : ℕ) :
    History.ReleasedOnce [.released (⟨.argv, argv⟩ : NativeResource),
      .released ⟨.throwScope, id⟩, .acquired ⟨.argv, argv⟩,
      .acquired ⟨.throwScope, id⟩] := by
  intro resource hmem
  have hsame : resource = ⟨.argv, argv⟩ ∨ resource = ⟨.throwScope, id⟩ := by
    simpa using hmem
  rcases hsame with hsame | hsame <;> simp [hsame]

theorem not_leavesNothing_of_raised
    {e : ScopeError} {s : ScopeRun}
    (hscope : s.history = [.acquired ⟨.throwScope, 0⟩]) :
    ¬ LeavesNothing (.error e, s) := by
  intro hleaves
  have hmem : .acquired ⟨.throwScope, 0⟩ ∈ s.history := by
    rw [hscope]
    exact List.mem_cons_self
  have honce := hleaves _ hmem (List.not_mem_nil)
  rw [hscope] at honce
  contradiction

/-- Nothing is left when the arguments are refused before the scope is opened. -/
theorem leavesNothing_require_iff
    {α : Type} {checked : Except JSError α} {p : α → ScopedProgram NativeResult} :
    LeavesNothing (((require checked).bind p).exec (performScopeOp env) .first) ↔
      ∀ value, checked = .ok value →
        LeavesNothing ((p value).exec (performScopeOp env) .first) := by
  cases checked with
  | ok value =>
      constructor
      · rintro hleaves other hsame
        rw [← Except.ok.inj hsame]
        exact hleaves
      · intro hleaves
        exact hleaves value rfl
  | error e =>
      constructor
      · intro _ other hsame
        cases hsame
      · intro _ resource hmem
        exact absurd hmem (List.not_mem_nil)

/-- The engine call is all that a body does. -/
theorem leavesNothing_engine_iff
    (call : EngineCall) {result : NativeResult} :
    LeavesNothing ((throwScope ((scopeOp (.engine call)).bind fun _ =>
        .pure (.ok result))).exec (performScopeOp env) .first) ↔
      env.raises 0 call = none := by
  set body : ScopedProgram (Except Recorded NativeResult) :=
    (scopeOp (.engine call)).bind fun _ => .pure (.ok result) with hbody
  set opened := ScopeRun.first.acquire .throwScope with hopened
  cases hraises : env.raises 0 call with
  | some e =>
      have hraised : body.exec (performScopeOp env) opened =
          (.error (.engine e), { opened with calls := 1 }) :=
        Program.exec_bind_error (exec_engine_raised hraises)
      rw [exec_throwScope_raised hraised]
      exact iff_of_false (not_leavesNothing_of_raised rfl) (by simp)
  | none =>
      have hcompleted : body.exec (performScopeOp env) opened =
          (.ok (.ok result), { opened with calls := 1 }) :=
        Program.exec_bind_ok (exec_engine_done hraises)
      rw [exec_throwScope_completed hcompleted]
      exact iff_of_true (leavesNothing_of_releasedOnce (releasedOnce_scope 0)) rfl

/-! ## `readdirSync` -/

section Readdir

variable (handle : NativeResource)

/-- The handle of a search has been acquired and not been released. -/
def HandleOpen (s : ScopeRun) : Prop :=
  .acquired handle ∈ s.history ∧ s.history.releases handle = 0

/-- What the body does after `FindFirstFile` has succeeded. -/
def keepsHandle : ScopeOp → Prop
  | .delete _ => False
  | _ => True

variable {handle}

theorem handleOpen_performScopeOp
    (op : ScopeOp) (hop : keepsHandle op) (s : ScopeRun) (hs : HandleOpen handle s) :
    HandleOpen handle (performScopeOp env op s).2 := by
  rcases hs with ⟨hacquired, hopen⟩
  have hacquire : ∀ kind, HandleOpen handle (s.acquire kind) := fun kind =>
    ⟨List.mem_cons_of_mem _ hacquired, by
      rw [ScopeRun.acquire, History.releases_cons_acquired]
      exact hopen⟩
  cases op with
  | delete resource => exact hop.elim
  | new kind => exact hacquire kind
  | engine call =>
      simp only [performScopeOp]
      cases env.raises s.calls call <;> exact ⟨hacquired, hopen⟩
  | findFirstFile pattern =>
      simp only [performScopeOp]
      cases env.findFirstFile pattern with
      | none => exact ⟨hacquired, hopen⟩
      | some found => exact hacquire .findHandle
  | findNextFile other =>
      refine ⟨List.mem_cons_of_mem _ hacquired, ?_⟩
      change History.releases (.used other :: s.history) handle = 0
      rw [History.releases_cons_used]
      exact hopen
  | _ => exact ⟨hacquired, hopen⟩

theorem all_putFile (i : ℕ) (cFileName : List UInt16) :
    (JSFileSystem.putFile i cFileName).All keepsHandle := by
  unfold JSFileSystem.putFile
  split
  · exact ⟨trivial, fun _ => ⟨trivial, fun _ => trivial⟩⟩
  · exact trivial

theorem all_listFiles
    (i : ℕ) (cFileName : List UInt16) (more : List (List UInt16)) :
    (JSFileSystem.listFiles handle i cFileName more).All keepsHandle := by
  induction more generalizing i cFileName with
  | nil =>
      apply Program.All.bind (all_putFile i cFileName)
      exact fun _ => ⟨trivial, fun _ => trivial⟩
  | cons next more ih =>
      apply Program.All.bind (all_putFile i cFileName)
      intro names
      refine ⟨trivial, fun _ => ?_⟩
      simp only [Program.pure_bind]
      exact Program.All.bind (ih (i + names.length) next) fun _ => trivial

theorem all_readFound (found : Option (NativeResource × List UInt16 × List (List UInt16))) :
    (JSFileSystem.readFound found).All keepsHandle := by
  have hrecord : ∀ func, (jsThrowScopeWin32ErrorLast func :
      ScopedProgram (Except Recorded NativeResult)).All keepsHandle :=
    fun _ => ⟨trivial, fun _ => ⟨trivial, fun _ => trivial⟩⟩
  cases found with
  | none =>
      refine ⟨trivial, fun code => ?_⟩
      simp only [Program.pure_bind]
      split
      · exact hrecord _
      · exact trivial
  | some found =>
      apply Program.All.bind (all_listFiles 0 found.2.1 found.2.2)
      intro names
      refine ⟨trivial, fun code => ?_⟩
      simp only [Program.pure_bind]
      split
      · exact hrecord _
      · exact trivial

theorem HandleOpen.release
    {s : ScopeRun} (hs : HandleOpen handle s) {resource : NativeResource}
    (hother : resource ≠ handle) : HandleOpen handle (s.release resource) := by
  refine ⟨List.mem_cons_of_mem _ hs.1, ?_⟩
  change History.releases (.released resource :: s.history) handle = 0
  rw [History.releases_cons_released, if_neg hother]
  exact hs.2

theorem HandleOpen.not_leavesNothing
    {exit : Except ScopeError NativeResult × ScopeRun}
    (hopen : HandleOpen handle exit.2) (howned : handle ∉ handedOver exit.1) :
    ¬ LeavesNothing exit := by
  intro hleaves
  have honce := hleaves handle hopen.1 howned
  rw [hopen.2] at honce
  contradiction

open JSFileSystem in
/-- Once a search has been opened, its handle is left behind. -/
theorem not_leavesNothing_of_found
    {body : ScopedProgram (Except Recorded NativeResult)} {s : ScopeRun}
    {first : List UInt16} {more : List (List UInt16)}
    (hbody : body.exec (performScopeOp env) (ScopeRun.first.acquire .throwScope) =
      (readFound (some (handle, first, more))).exec (performScopeOp env) s)
    (hkind : handle.kind = .findHandle) (hopen : HandleOpen handle s) :
    ¬ LeavesNothing ((throwScope body).exec (performScopeOp env) .first) := by
  have hkept : HandleOpen handle (body.exec (performScopeOp env)
      (ScopeRun.first.acquire .throwScope)).2 := by
    rw [hbody]
    exact (all_readFound _).exec handleOpen_performScopeOp hopen
  have hscope : ∀ id, (⟨.throwScope, id⟩ : NativeResource) ≠ handle := by
    rintro id rfl
    contradiction
  have hargv : ∀ id, (⟨.argv, id⟩ : NativeResource) ≠ handle := by
    rintro id rfl
    contradiction
  rcases hexec : body.exec (performScopeOp env) (ScopeRun.first.acquire .throwScope)
    with ⟨outcome, s'⟩
  rw [hexec] at hkept
  match outcome with
  | .error e =>
      rw [exec_throwScope_raised hexec]
      exact hkept.not_leavesNothing (List.not_mem_nil)
  | .ok (.error recorded) =>
      rw [exec_throwScope_recorded hexec]
      have hleft := (hkept.release (hscope ScopeRun.first.next)).release
        (hargv recorded.argv)
      exact hleft.not_leavesNothing (List.not_mem_nil)
  | .ok (.ok result) =>
      rw [exec_throwScope_completed hexec]
      have howned : handle ∉ result.owns := by
        intro hmem
        cases result with
        | versionInfo file verHandle verSize verData =>
            obtain ⟨id, -, hsame⟩ := List.mem_map.mp hmem
            rw [← hsame] at hkind
            contradiction
        | _ => exact List.not_mem_nil hmem
      exact (hkept.release (hscope ScopeRun.first.next)).not_leavesNothing howned

open JSFileSystem in
theorem exec_readFound_none (s : ScopeRun) :
    (readFound none).exec (performScopeOp env) s =
      if env.lastError s.calls = errorFileNotFound then
        (.ok (.ok (.names [])), s)
      else
        (.ok (.error ⟨s.next, .win32 (env.lastError s.calls) (some "FindFirstFile")⟩),
          s.acquire .argv) := by
  by_cases hcode : env.lastError s.calls = errorFileNotFound
  · simp [readFound, scopeOp, Program.exec, performScopeOp, hcode]
  · simp [readFound, scopeOp, Program.exec, performScopeOp, hcode,
      exec_jsThrowScopeWin32ErrorLast]

end Readdir

/-- The directory that is searched. -/
def ScopeEnvironment.fullPath (env : ScopeEnvironment) (fn : DukString) :
    ℕ × List UInt16 :=
  env.fullPathName (utf8ToUtf16 (cString fn))

/-- `readdirSync` gives its resources back if it neither raises an error in the
body nor finds anything. -/
def ScopeEnvironment.FindsNothing (env : ScopeEnvironment) (fn : DukString) : Prop :=
  unvalidatedUtf8Length fn ≤ maxPath - 1 ∧
    (((env.fullPath fn).1 = 0 ∨ (env.fullPath fn).1 ≥ maxPath) ∨
      env.raises 0 .pushArray = none ∧
        env.findFirstFile ((env.fullPath fn).2 ++ [0x5C, 0x2A]) = none)

open JSFileSystem in
theorem leavesNothing_readDirectory_iff (fn : DukString) :
    LeavesNothing ((throwScope (readDirectory fn)).exec (performScopeOp env) .first) ↔
      env.FindsNothing fn := by
  set opened := ScopeRun.first.acquire .throwScope with hopened
  by_cases hlong : unvalidatedUtf8Length fn > maxPath - 1
  · have hraised : (readDirectory fn).exec (performScopeOp env) opened =
        (.error (.win32 errorFilenameExcedRange none), opened) := by
      rw [readDirectory, if_pos hlong]
      rfl
    rw [exec_throwScope_raised hraised]
    refine iff_of_false (not_leavesNothing_of_raised rfl) ?_
    rintro ⟨hshort, -⟩
    omega
  have hfull : (readDirectory fn).exec (performScopeOp env) opened =
      (if (env.fullPath fn).1 = 0 ∨ (env.fullPath fn).1 ≥ maxPath then
        jsThrowScopeWin32ErrorLast "GetFullPathName"
      else
        (scopeOp (.engine .pushArray)).bind fun _ =>
          (scopeOp (.findFirstFile ((env.fullPath fn).2 ++ [0x5C, 0x2A]))).bind
            JSFileSystem.readFound).exec (performScopeOp env) opened := by
    rw [readDirectory, if_neg hlong]
    rfl
  by_cases hfails : (env.fullPath fn).1 = 0 ∨ (env.fullPath fn).1 ≥ maxPath
  · rw [if_pos hfails, exec_jsThrowScopeWin32ErrorLast] at hfull
    rw [exec_throwScope_recorded hfull]
    refine iff_of_true ?_ ⟨by omega, Or.inl hfails⟩
    exact leavesNothing_of_releasedOnce (releasedOnce_recorded 0 1)
  rw [if_neg hfails] at hfull
  cases hraises : env.raises 0 .pushArray with
  | some e =>
      have hraised : (readDirectory fn).exec (performScopeOp env) opened =
          (.error (.engine e), { opened with calls := 1 }) := by
        rw [hfull]
        exact Program.exec_bind_error (exec_engine_raised hraises)
      rw [exec_throwScope_raised hraised]
      refine iff_of_false (not_leavesNothing_of_raised rfl) ?_
      rintro ⟨-, hother | ⟨hnone, -⟩⟩
      · exact hfails hother
      · rw [hraises] at hnone
        contradiction
  | none =>
      set pushed : ScopeRun := { opened with calls := 1 } with hpushed
      have hsearch : (readDirectory fn).exec (performScopeOp env) opened =
          ((scopeOp (.findFirstFile ((env.fullPath fn).2 ++ [0x5C, 0x2A]))).bind
            readFound).exec (performScopeOp env) pushed := by
        rw [hfull]
        exact Program.exec_bind_ok (exec_engine_done hraises)
      cases hfind : env.findFirstFile ((env.fullPath fn).2 ++ [0x5C, 0x2A]) with
      | none =>
          have hfound : (readDirectory fn).exec (performScopeOp env) opened =
              (readFound none).exec (performScopeOp env) pushed := by
            rw [hsearch]
            apply Program.exec_perform
            simp only [performScopeOp, hfind]
          refine iff_of_true ?_ ⟨by omega, Or.inr ⟨hraises, hfind⟩⟩
          rw [exec_readFound_none] at hfound
          by_cases hcode : env.lastError pushed.calls = errorFileNotFound
          · rw [if_pos hcode] at hfound
            rw [exec_throwScope_completed hfound]
            exact leavesNothing_of_releasedOnce (releasedOnce_scope 0)
          · rw [if_neg hcode] at hfound
            rw [exec_throwScope_recorded hfound]
            exact leavesNothing_of_releasedOnce (releasedOnce_recorded 0 1)
      | some entries =>
          rcases entries with ⟨first, more⟩
          have hfound : (readDirectory fn).exec (performScopeOp env) opened =
              (readFound (some (⟨.findHandle, 1⟩, first, more))).exec
                (performScopeOp env) (pushed.acquire .findHandle) := by
            rw [hsearch]
            apply Program.exec_perform
            simp only [performScopeOp, hfind]
            rfl
          refine iff_of_false ?_ ?_
          · refine not_leavesNothing_of_found hfound rfl ⟨List.mem_cons_self, ?_⟩
            rfl
          · rintro ⟨-, hother | ⟨-, hnone⟩⟩
            · exact hfails hother
            · rw [hfind] at hnone
              contradiction

/-! ## `NKWinVersionInfo` -/

theorem releasedOnce_versionInfo (id argv chars : ℕ) :
    History.ReleasedOnce [.released (⟨.argv, argv⟩ : NativeResource),
      .released ⟨.throwScope, id⟩, .acquired ⟨.argv, argv⟩,
      .released ⟨.chars, chars⟩, .acquired ⟨.chars, chars⟩,
      .acquired ⟨.throwScope, id⟩] := by
  intro resource hmem
  have hsame : resource = ⟨.argv, argv⟩ ∨ resource = ⟨.chars, chars⟩ ∨
      resource = ⟨.throwScope, id⟩ := by
    simpa using hmem
  rcases hsame with hsame | hsame | hsame <;> simp [hsame]

open NKWinVersionInfo in
/-- The body calls nothing that raises an error, and a buffer that is not
filled is freed. -/
theorem leavesNothing_tryConstruct (file : List UInt16) :
    LeavesNothing (((throwScope (readVersionInfo file)).bind fun vars =>
      .pure (.versionInfo file vars.verHandle vars.verSize vars.verData)).exec
        (performScopeOp env) .first) := by
  set opened := ScopeRun.first.acquire .throwScope with hopened
  rcases hsize : env.fileVersionInfoSize file with ⟨verSize, verHandle⟩
  by_cases hnone : verSize = 0
  · have hrecorded : (readVersionInfo file).exec (performScopeOp env) opened =
        (.ok (.error ⟨1, .win32 (env.lastError 0)
          (some "GetFileVersionInfoSize")⟩), opened.acquire .argv) := by
      simp [readVersionInfo, scopeOp, Program.exec, performScopeOp, hsize, hnone,
        exec_jsThrowScopeWin32ErrorLast]
      exact ⟨rfl, rfl⟩
    rw [Program.exec_bind_error (exec_throwScope_recorded hrecorded)]
    exact leavesNothing_of_releasedOnce (releasedOnce_recorded 0 1)
  cases hfilled : env.fileVersionInfo file verHandle verSize with
  | false =>
      have hrecorded : (readVersionInfo file).exec (performScopeOp env) opened =
          (.ok (.error ⟨2, .win32 (env.lastError 0) (some "GetFileVersionInfo")⟩),
            ((opened.acquire .chars).release ⟨.chars, 1⟩).acquire .argv) := by
        simp [readVersionInfo, scopeOp, Program.exec, performScopeOp, hsize, hnone,
          hfilled, exec_jsThrowScopeWin32ErrorLast]
        exact ⟨⟨rfl, rfl⟩, rfl⟩
      rw [Program.exec_bind_error (exec_throwScope_recorded hrecorded)]
      exact leavesNothing_of_releasedOnce (releasedOnce_versionInfo 0 2 1)
  | true =>
      have hcompleted : (readVersionInfo file).exec (performScopeOp env) opened =
          (.ok (.ok ⟨verHandle, verSize, some 1⟩), opened.acquire .chars) := by
        simp [readVersionInfo, scopeOp, Program.exec, performScopeOp, hsize, hnone,
          hfilled]
        rfl
      rw [Program.exec_bind_ok (exec_throwScope_completed hcompleted)]
      intro resource hmem howned
      have hsome : resource = ⟨.chars, 1⟩ ∨ resource = ⟨.throwScope, 0⟩ := by
        simpa [hopened, ScopeRun.release, ScopeRun.acquire, ScopeRun.first] using hmem
      rcases hsome with hsame | hsame
      · subst hsame
        exact absurd List.mem_cons_self howned
      · subst hsame
        rfl

/-! ## All natives -/

section Natives

variable (codePage : CodePage) (beyond : ℕ → UInt8) (env : ScopeEnvironment)

/-- No error is raised inside the body of the native, and `readdirSync` finds
nothing. -/
def ScopedNative.KeepsToScope : ScopedNative → DukValue → Prop
  | .readdirSync, arg => ∀ fn, arg.requireString 0 = .ok fn → env.FindsNothing fn
  | .toWString, arg => ∀ str, arg.requireString 0 = .ok str →
      env.raises 0 (.pushFixedBuffer
        ((wcharBytes (utf8ToUtf16 (cString str) ++ [0])).length % 2 ^ 32)) = none
  | .fromWString, arg => ∀ str, arg.requireBufferData (-1) = .ok str →
      env.raises 0 (.pushString (cString (utf16ToUtf8
        ((wchars (str ++ (List.range str.length).map beyond)).take str.length)))) =
          none
  | .toAString, arg => ∀ str, arg.requireString 0 = .ok str →
      env.raises 0 (.pushFixedBuffer
        ((convertBySize codePage.encode (utf8ToUtf16 (cString str)) ++ [0]).length %
          2 ^ 32)) = none
  | .fromAString, arg => ∀ str, arg.requireBufferData (-1) = .ok str →
      env.raises 0 (.pushString (cString (utf16ToUtf8
        (convertBySize codePage.decode str)))) = none
  | .versionInfo, _ => True

/-- At the exit of a native nothing is left if and only if no error was raised
inside the body of its scope and no search was opened. -/
theorem leavesNothing_iff_keepsToScope (native : ScopedNative) (arg : DukValue) :
    LeavesNothing (native.run codePage beyond env arg) ↔
      native.KeepsToScope codePage beyond env arg := by
  cases native with
  | readdirSync =>
      apply leavesNothing_require_iff.trans
      exact forall₂_congr fun fn _ => leavesNothing_readDirectory_iff fn
  | toWString =>
      apply leavesNothing_require_iff.trans
      exact forall₂_congr fun str _ => leavesNothing_engine_iff _
  | fromWString =>
      apply leavesNothing_require_iff.trans
      exact forall₂_congr fun str _ => leavesNothing_engine_iff _
  | toAString =>
      apply leavesNothing_require_iff.trans
      exact forall₂_congr fun str _ => leavesNothing_engine_iff _
  | fromAString =>
      apply leavesNothing_require_iff.trans
      exact forall₂_congr fun str _ => leavesNothing_engine_iff _
  | versionInfo =>
      refine iff_of_true ?_ trivial
      apply leavesNothing_require_iff.mpr
      exact fun filename _ => leavesNothing_tryConstruct _

variable {env}

/-- If the engine fails only at what is too long, the native returns what
`NekoScript.toWString` says. -/
theorem run_toWString
    (hengine : ∀ calls call, env.engine calls call = none) (arg : DukValue) :
    (ScopedNative.toWString.run codePage beyond env arg).1 =
      match NekoScript.toWString arg with
      | .ok bytes => .ok (.buffer bytes)
      | .error e => .error (.engine e) := by
  cases hstr : arg.requireString 0 with
  | error e =>
      simp only [ScopedNative.run, ScopedNative.call, NKWinAPI.toWString,
        NekoScript.toWString, hstr]
      rfl
  | ok str =>
      set bytes := wcharBytes (utf8ToUtf16 (cString str) ++ [0]) with hbytes
      set size := ((utf8ToUtf16 (cString str)).length + 1) * 2 % 2 ^ 32 with hsize
      have hlength : bytes.length % 2 ^ 32 = size := by
        rw [hbytes, length_wcharBytes, List.length_append, List.length_singleton]
      have hnative : ScopedNative.toWString.run codePage beyond env arg =
          (throwScope (NKWinAPI.pushTerminated bytes)).exec
            (performScopeOp env) .first := by
        simp only [ScopedNative.run, ScopedNative.call, NKWinAPI.toWString, hstr]
        rfl
      have hmodel : NekoScript.toWString arg =
          (NekoScript.pushFixedBuffer size).bind fun _ => .ok (bytes.take size) := by
        simp only [NekoScript.toWString, hstr]
        rfl
      rw [hnative, hmodel]
      cases hpush : NekoScript.pushFixedBuffer size with
      | error e =>
          have hraises : env.raises 0 (.pushFixedBuffer size) = some e := by
            simp [ScopeEnvironment.raises, hpush]
          have hraised : (NKWinAPI.pushTerminated bytes).exec (performScopeOp env)
              (ScopeRun.first.acquire .throwScope) =
              (.error (.engine e), { ScopeRun.first.acquire .throwScope with
                calls := 1 }) := by
            unfold NKWinAPI.pushTerminated
            rw [hlength]
            exact Program.exec_bind_error (exec_engine_raised hraises)
          rw [exec_throwScope_raised hraised]
          rfl
      | ok zeros =>
          have hraises : env.raises 0 (.pushFixedBuffer size) = none := by
            simp [ScopeEnvironment.raises, hpush, hengine]
          have hcompleted : (NKWinAPI.pushTerminated bytes).exec (performScopeOp env)
              (ScopeRun.first.acquire .throwScope) =
              (.ok (.ok (.buffer (bytes.take size))),
                { ScopeRun.first.acquire .throwScope with calls := 1 }) := by
            unfold NKWinAPI.pushTerminated
            rw [hlength]
            exact Program.exec_bind_ok (exec_engine_done hraises)
          rw [exec_throwScope_completed hcompleted]
          rfl

end Natives

/-- Windows where every directory holds one file, and an engine that never
fails. -/
def oneFile : ScopeEnvironment where
  engine := fun _ _ => none
  lastError := fun _ => errorNoMoreFiles
  fullPathName := fun path => (path.length, path)
  findFirstFile := fun _ => some ([0x61], [])
  fileVersionInfoSize := fun _ => (0, 0)
  fileVersionInfo := fun _ _ _ => false

/-- A directory that is listed without any error keeps its search open. -/
theorem not_leavesNothing_readdirSync :
    ¬ LeavesNothing (ScopedNative.readdirSync.run ⟨fun _ => [], fun _ => []⟩
      (fun _ => 0) oneFile (.string ⟨[0x2E], 4096, by decide, by decide⟩)) := by
  intro hleaves
  have honce := hleaves ⟨.findHandle, 1⟩
  revert honce
  decide

end NekoScript
