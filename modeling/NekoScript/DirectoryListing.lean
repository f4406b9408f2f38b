import NekoScript.ScopedNatives
import Mathlib.Tactic

/-!
# The names in a directory listing

`readdirSync` pushes the names that Windows finds, except those that start with
a dot, as strings.  The other natives of `fs` turn a string back into a native
name, so that a file can be reached by its listed name only if the name survives
both conversions.
-/

namespace NekoScript

open Programs UnicodeCoding

/-- The files that are listed. -/
def visible (files : List (List UInt16)) : List (List UInt16) :=
  files.filter fun file => file.head? ≠ some 0x2E

def listedNames (files : List (List UInt16)) : List DukString :=
  (visible files).map fun file => cString (utf16ToUtf8 file)

/-- The name under which the other natives look for a listed file. -/
def nameOfListed (name : DukString) : List UInt16 := utf8ToUtf16 (cString name)

def foundFiles : Option (List UInt16 × List (List UInt16)) → List (List UInt16)
  | none => []
  | some (first, more) => first :: more

/-- What Windows finds in the directory of that name. -/
def ScopeEnvironment.filesIn (env : ScopeEnvironment) (fn : DukString) :
    List (List UInt16) :=
  foundFiles (env.findFirstFile
    ((env.fullPathName (utf8ToUtf16 (cString fn))).2 ++ [0x5C, 0x2A]))

theorem listedNames_cons (file : List UInt16) (files : List (List UInt16)) :
    listedNames (file :: files) = listedNames [file] ++ listedNames files := by
  by_cases hdot : file.head? = some 0x2E <;> simp [listedNames, visible, hdot]

/-! ## The run -/

section Run

variable {env : ScopeEnvironment}

/-- A body that stores no error returns what `Q` says. -/
def CompletesWith (Q : List DukString → Prop) (result : Except Recorded NativeResult) : Prop :=
  ∀ names, result = .ok (.names names) → Q names

theorem ifEnds_putFile (i : ℕ) (cFileName : List UInt16) (s : ScopeRun) :
    (JSFileSystem.putFile i cFileName).IfEnds (performScopeOp env)
      (fun names => names = listedNames [cFileName]) s := by
  unfold JSFileSystem.putFile
  by_cases hdot : cFileName.head? = some 0x2E
  · rw [if_neg (by simpa using hdot)]
    exact Program.ifEnds_pure (by simp [listedNames, visible, hdot]) s
  · rw [if_pos hdot]
    apply Program.ifEnds_perform
    intro _ s' _
    apply Program.ifEnds_perform
    intro _ s' _
    exact Program.ifEnds_pure (by simp [listedNames, visible, hdot]) s'

theorem ifEnds_listFiles
    (hFind : NativeResource) (i : ℕ) (cFileName : List UInt16) (more : List (List UInt16))
    (s : ScopeRun) :
    (JSFileSystem.listFiles hFind i cFileName more).IfEnds (performScopeOp env)
      (fun names => names = listedNames (cFileName :: more)) s := by
  induction more generalizing i cFileName s with
  | nil =>
      apply (ifEnds_putFile i cFileName s).bind
      intro names hnames s'
      apply Program.ifEnds_perform
      intro _ s' _
      apply Program.ifEnds_pure
      exact hnames
  | cons next more ih =>
      apply (ifEnds_putFile i cFileName s).bind
      intro names hnames s'
      apply Program.ifEnds_perform
      intro _ s' _
      apply (ih (i + names.length) next s').bind
      intro others hothers s'
      apply Program.ifEnds_pure
      rw [listedNames_cons, hnames, hothers]

theorem ifEnds_recorded
    (Q : List DukString → Prop) (func : String) (s : ScopeRun) :
    (jsThrowScopeWin32ErrorLast func : ScopedProgram (Except Recorded NativeResult)).IfEnds
      (performScopeOp env) (CompletesWith Q) s := by
  apply Program.ifEnds_perform
  intro code s' _
  apply Program.ifEnds_perform
  intro argv s' _
  apply Program.ifEnds_pure
  intro names hnames
  cases hnames

theorem ifEnds_readFound
    (found : Option (NativeResource × List UInt16 × List (List UInt16))) (s : ScopeRun) :
    (JSFileSystem.readFound found).IfEnds (performScopeOp env)
      (CompletesWith fun names => names = listedNames (foundFiles (found.map Prod.snd)))
      s := by
  cases found with
  | none =>
      apply Program.ifEnds_perform
      intro code s' _
      simp only [Program.pure_bind]
      split
      · exact ifEnds_recorded _ _ s'
      · apply Program.ifEnds_pure
        intro names hnames
        cases hnames
        rfl
  | some found =>
      apply (ifEnds_listFiles found.1 0 found.2.1 found.2.2 s).bind
      intro names hnames s'
      apply Program.ifEnds_perform
      intro code s' _
      simp only [Program.pure_bind]
      split
      · exact ifEnds_recorded _ _ s'
      · apply Program.ifEnds_pure
        intro others hothers
        cases hothers
        exact hnames

theorem snd_of_findFirstFile
    {pattern : List UInt16} {s s' : ScopeRun}
    {found : Option (NativeResource × List UInt16 × List (List UInt16))}
    (hfound : performScopeOp env (.findFirstFile pattern) s = (.ok found, s')) :
    found.map Prod.snd = env.findFirstFile pattern := by
  cases hfirst : env.findFirstFile pattern with
  | none =>
      simp only [performScopeOp, hfirst, Prod.mk.injEq, Except.ok.injEq] at hfound
      rw [← hfound.1]
      rfl
  | some files =>
      simp only [performScopeOp, hfirst, Prod.mk.injEq, Except.ok.injEq] at hfound
      rw [← hfound.1]
      rfl

theorem ifEnds_readDirectory (fn : DukString) (s : ScopeRun) :
    (JSFileSystem.readDirectory fn).IfEnds (performScopeOp env)
      (CompletesWith fun names => names = listedNames (env.filesIn fn)) s := by
  unfold JSFileSystem.readDirectory
  split
  · apply Program.ifEnds_perform
    intro answer
    cases answer
  · apply Program.ifEnds_perform
    intro full s1 hfull
    have hpath : full = env.fullPathName (utf8ToUtf16 (cString fn)) := by
      simp only [performScopeOp, Prod.mk.injEq, Except.ok.injEq] at hfull
      exact hfull.1.symm
    simp only [Program.pure_bind]
    split
    · exact ifEnds_recorded _ _ s1
    · apply Program.ifEnds_perform
      intro _ s2 _
      apply Program.ifEnds_perform
      intro found s3 hfound
      have hfiles : env.filesIn fn = foundFiles (Option.map Prod.snd found) := by
        unfold ScopeEnvironment.filesIn
        rw [snd_of_findFirstFile hfound, hpath]
      rw [hfiles]
      exact ifEnds_readFound found s3

theorem ifEnds_throwScope
    {Q : List DukString → Prop} {body : ScopedProgram (Except Recorded NativeResult)}
    (hbody : ∀ s, body.IfEnds (performScopeOp env) (CompletesWith Q) s) (s : ScopeRun) :
    (throwScope body).IfEnds (performScopeOp env)
      (fun result => ∀ names, result = .names names → Q names) s := by
  apply Program.ifEnds_perform
  intro scope s1 _
  apply (hbody s1).bind
  intro result hresult s2
  apply Program.ifEnds_perform
  intro _ s3 _
  cases result with
  | ok value =>
      apply Program.ifEnds_pure
      intro names hnames
      exact hresult names (congrArg Except.ok hnames)
  | error recorded =>
      apply Program.ifEnds_perform
      intro _ s4 _
      apply Program.ifEnds_perform
      intro answer
      cases answer

end Run

/-- A call that returns a listing lists what Windows found. -/
theorem names_of_readdirSync
    {codePage : CodePage} {beyond : ℕ → UInt8} {env : ScopeEnvironment} {arg : DukValue}
    {fn : DukString} (harg : arg.requireString 0 = .ok fn) {names : List DukString}
    (hrun : (ScopedNative.readdirSync.run codePage beyond env arg).1 = .ok (.names names)) :
    names = listedNames (env.filesIn fn) := by
  have hcall : ScopedNative.readdirSync.call codePage beyond arg =
      throwScope (JSFileSystem.readDirectory fn) := by
    simp only [ScopedNative.call, JSFileSystem.readdirSync, harg]
    rfl
  unfold ScopedNative.run at hrun
  rw [hcall] at hrun
  have hends := ifEnds_throwScope (@ifEnds_readDirectory env fn) .first
  exact hends.of_exec (.names names) _ (Prod.ext hrun rfl) names rfl

theorem nameOfListed_eq_iff {file : List UInt16} (hzero : 0 ∉ file) :
    nameOfListed (cString (utf16ToUtf8 file)) = file ↔ WellFormedUtf16 file := by
  unfold nameOfListed
  rw [cString_eq_self (zero_notMem_cString _)]
  exact utf8ToUtf16_utf16ToUtf8_iff hzero

/-- The listing names every visible file by a string under which the other
natives look for this very file, if and only if the names of the visible files
are well-formed. -/
theorem names_reach_files_iff
    {codePage : CodePage} {beyond : ℕ → UInt8} {env : ScopeEnvironment} {arg : DukValue}
    {fn : DukString} (harg : arg.requireString 0 = .ok fn) {names : List DukString}
    (hrun : (ScopedNative.readdirSync.run codePage beyond env arg).1 = .ok (.names names))
    (hterminated : ∀ file ∈ env.filesIn fn, 0 ∉ file) :
    names.map nameOfListed = visible (env.filesIn fn) ↔
      ∀ file ∈ visible (env.filesIn fn), WellFormedUtf16 file := by
  have hzero : ∀ file ∈ visible (env.filesIn fn), 0 ∉ file :=
    fun file hmem => hterminated file (List.mem_of_mem_filter hmem)
  have hnames : names.map nameOfListed =
      (visible (env.filesIn fn)).map fun file =>
        nameOfListed (cString (utf16ToUtf8 file)) := by
    rw [names_of_readdirSync harg hrun, listedNames, List.map_map]
    rfl
  have hself : (visible (env.filesIn fn)).map id = visible (env.filesIn fn) := List.map_id _
  rw [hnames]
  constructor
  · intro hsame file hmem
    have hmap := List.map_inj_left.mp (hsame.trans hself.symm) file hmem
    exact (nameOfListed_eq_iff (hzero file hmem)).mp hmap
  · intro hformed
    refine (List.map_congr_left fun file hmem => ?_).trans hself
    exact (nameOfListed_eq_iff (hzero file hmem)).mpr (hformed file hmem)

/-- A directory with a hidden file and one whose name is a surrogate pair. -/
def emojiDirectory : ScopeEnvironment where
  engine := fun _ _ => none
  lastError := fun _ => errorNoMoreFiles
  fullPathName := fun path => (path.length, path)
  findFirstFile := fun _ => some ([0x2E, 0x61], [[0xD83D, 0xDE00], [0x62]])
  fileVersionInfoSize := fun _ => (0, 0)
  fileVersionInfo := fun _ _ _ => false

theorem names_reach_files_emojiDirectory :
    [[0xF0, 0x9F, 0x98, 0x80], [0x62]].map nameOfListed = [[0xD83D, 0xDE00], [0x62]] := by
  have hrun : (ScopedNative.readdirSync.run ⟨fun _ => [], fun _ => []⟩ (fun _ => 0)
      emojiDirectory (.string ⟨[0x64], 4096, by decide, by decide⟩)).1 =
        .ok (.names [[0xF0, 0x9F, 0x98, 0x80], [0x62]]) := rfl
  have hfiles : emojiDirectory.filesIn [0x64] = [[0x2E, 0x61], [0xD83D, 0xDE00], [0x62]] :=
    rfl
  refine (names_reach_files_iff rfl hrun ?_).mpr ?_
  · rw [hfiles]
    decide
  · rw [hfiles]
    intro file hmem
    have hcases : file = [0xD83D, 0xDE00] ∨ file = [0x62] := by
      simpa [visible] using hmem
    rcases hcases with rfl | rfl
    · exact ⟨[0x1F600], by simp [IsScalar], rfl⟩
    · exact ⟨[0x62], by simp [IsScalar], rfl⟩

end NekoScript
