import NekoScript.LineTables
import Mathlib.Tactic

/-!
# Traces of errors

An error notes the functions on the call stack and where each of them was.  Its
`stack` is written from these notes when it is asked for, with the properties
that the functions have then.
-/

namespace NekoScript

/-- A function on the call stack; of a native one, what its properties give. -/
inductive TraceFunction where
  | compiled (func : CompiledFunction)
  | native (name fileName : Option EngineString)

namespace TraceFunction

/-- `Function.prototype` gives a function without a name the empty one. -/
def name : TraceFunction → EngineString
  | compiled func => func.parts.properties.name.getD EngineString.empty
  | native name _ => name.getD EngineString.empty

def fileName : TraceFunction → Option EngineString
  | compiled func => func.parts.properties.fileName
  | native _ fileName => fileName

/-- `duk_hobject_pc2line_query`; `none` where it reads beyond the line table. -/
def line : TraceFunction → ℕ → Option ℕ
  | compiled func, pc => pc2lineQuery func.parts.properties pc
  | native _ _, _ => some 0

end TraceFunction

/-- `duk_activation`; `currPc` is the index of the next instruction. -/
structure Activation where
  func : TraceFunction
  currPc : ℕ
  flags : ℕ
  currPc_lt : currPc < 2 ^ 32

/-- `duk_hthread_get_act_prev_pc` -/
def Activation.prevPc (act : Activation) : ℕ :=
  match act.func with
  | .compiled _ => act.currPc - 1
  | .native _ _ => 0

inductive TraceSource where
  | function (func : TraceFunction)
  | file (name : DukString)

/-- `_Tracedata`, two values for each entry. -/
abbrev Tracedata := List (TraceSource × ℕ)

/-- `DUK_USE_TRACEBACK_DEPTH` -/
def tracebackDepth : ℕ := 32

/-- A place in a source text that is compiled, or in the engine's own source. -/
structure FileLine where
  file : DukString
  line : ℕ
  line_lt : line < 2 ^ 31

def FileLine.entry (place : FileLine) (flags : ℕ) : TraceSource × ℕ :=
  (.file place.file, flags * 2 ^ 32 + place.line)

def Activation.entry (act : Activation) : TraceSource × ℕ :=
  (.function act.func, act.flags * 2 ^ 32 + act.prevPc)

/-- `duk__add_traceback`: the compiler's place, the C place and whether it is not
to be blamed, and the call stack, the innermost activation first. -/
def addTraceback (compiling : Option FileLine) (cSite : Option (FileLine × Bool))
    (callstack : List Activation) : Tracedata :=
  (compiling.map fun place => place.entry 0).toList ++
    ((cSite.map fun site => site.1.entry (if site.2 then 1 else 0)).toList ++
      (callstack.take tracebackDepth).map Activation.entry)

/-! ## The getters of `Error.prototype` -/

def naturalText (n : ℕ) : DukString :=
  (Nat.toDigits 10 n).map fun digit => .ofNat digit.toNat

/-- `%ld` -/
def longText (n : ℤ) : DukString :=
  if n < 0 then lexerString ['-'] ++ naturalText n.natAbs else naturalText n.natAbs

def flagTexts (flags : ℕ) : DukString :=
  (if flags.testBit 0 then lexerString " strict".toList else []) ++
    ((if flags.testBit 1 then lexerString " tailcalled".toList else []) ++
      ((if flags.testBit 2 then lexerString " construct".toList else []) ++
        ((if flags.testBit 4 then lexerString " directeval".toList else []) ++
          (if flags.testBit 3 then lexerString " preventsyield".toList else []))))

def funcname (name : EngineString) : DukString :=
  if name.1 = [] then lexerString "anon".toList else cString name.1

def filename (fileName : Option EngineString) : DukString :=
  match fileName with
  | some fileName => cString fileName.1
  | none => []

def functionText (func : TraceFunction) (line flags : ℕ) : DukString :=
  funcname func.name ++ (lexerString [' '] ++ (filename func.fileName ++
    match func with
    | .compiled _ => lexerString [':'] ++ (longText (asInt line) ++ flagTexts flags)
    | .native _ _ => lexerString " native".toList ++ flagTexts flags))

def fileText (file : DukString) (line : ℕ) : DukString :=
  cString file ++ (lexerString [':'] ++ longText (asInt line))

def entryText : TraceSource × ℕ → Option DukString
  | (.function func, d) => do
      let line ← func.line (d % 2 ^ 32)
      return functionText func line (d / 2 ^ 32)
  | (.file name, d) => some (fileText name (d % 2 ^ 32))

/-- `duk_join` with a newline and a tab. -/
def joinLines : List DukString → DukString
  | [] => []
  | [line] => line
  | line :: lines => line ++ (lexerString ['\n', '\t'] ++ joinLines lines)

def isFunction : TraceSource × ℕ → Bool
  | (.function _, _) => true
  | (.file _, _) => false

/-- `[...]`, when the call stack may have been cut off. -/
def ellipsis (tracedata : Tracedata) : List DukString :=
  if tracedata.countP isFunction ≥ tracebackDepth then [lexerString "[...]".toList] else []

/-- `duk_bi_error_prototype_stack_getter`; `message` is the coerced error. -/
def stackGetter (message : DukString) (tracedata : Tracedata) : Option DukString := do
  let texts ← tracedata.mapM entryText
  return joinLines (message :: (texts ++ ellipsis tracedata))

/-- What the getters of `fileName` and `lineNumber` blame. -/
def blamed : Tracedata → Option (Option (DukString × ℤ))
  | [] => some none
  | (.function func, d) :: rest => do
      let line ← func.line (d % 2 ^ 32)
      match func.fileName with
      | some fileName => return some (fileName.1, asInt line)
      | none => blamed rest
  | (.file name, d) :: rest =>
      if (d / 2 ^ 32).testBit 0 then blamed rest
      else some (some (name, asInt (d % 2 ^ 32)))

/-! ## Reports in terms of the source text -/

/-- The function as the compiler leaves it. -/
structure CompiledFunction.EmittedFrom (func : CompiledFunction) (code : EmittedCode) :
    Prop where
  instructions : func.parts.instructions = code.1.map CompilerInstr.ins
  lines : ∃ buf, pc2linePack code = .ok buf ∧ func.parts.properties.pc2line = some buf
  fileName : func.parts.properties.fileName.isSome

section Source

variable (code : CompiledFunction → EmittedCode)

/-- The line that the compiler noted for the instruction that was executed. -/
def Activation.sourceLine (act : Activation) : ℕ :=
  match act.func with
  | .compiled func => lineAt (code func).1 act.prevPc
  | .native _ _ => 0

def Activation.sourceText (act : Activation) : DukString :=
  functionText act.func (act.sourceLine code) act.flags

def FileLine.text (place : FileLine) : DukString := fileText place.file place.line

def sourceReport (message : DukString) (compiling : Option FileLine)
    (cSite : Option (FileLine × Bool)) (callstack : List Activation) : DukString :=
  joinLines (message :: (((compiling.map FileLine.text).toList ++
    ((cSite.map fun site => site.1.text).toList ++
      (callstack.take tracebackDepth).map (Activation.sourceText code))) ++
    if callstack.length ≥ tracebackDepth then [lexerString "[...]".toList] else []))

/-- The place in a source text: that of the compiler, the C place unless it is
not to be blamed, or that of the innermost function with a file name. -/
def sourceBlame (compiling : Option FileLine) (cSite : Option (FileLine × Bool))
    (callstack : List Activation) : Option (DukString × ℤ) :=
  ((compiling.map fun place => (place.file, (place.line : ℤ))).toList ++
    ((cSite.bind fun site =>
        if site.2 then none else some (site.1.file, (site.1.line : ℤ))).toList ++
      (callstack.take tracebackDepth).filterMap fun act =>
        act.func.fileName.map fun fileName =>
          (fileName.1, (act.sourceLine code : ℤ)))).head?

end Source

/-! ## Entries -/

theorem entry_mod {flags n : ℕ} (hn : n < 2 ^ 32) :
    (flags * 2 ^ 32 + n) % 2 ^ 32 = n ∧ (flags * 2 ^ 32 + n) / 2 ^ 32 = flags := by
  omega

theorem Activation.prevPc_lt (act : Activation) : act.prevPc < 2 ^ 32 := by
  have hlt := act.currPc_lt
  unfold Activation.prevPc
  cases act.func with
  | compiled func =>
      dsimp only
      omega
  | native name fileName => positivity

theorem entryText_place (place : FileLine) (flags : ℕ) :
    entryText (place.entry flags) = some place.text := by
  have hlt := place.line_lt
  have hentry := @entry_mod flags place.line (by omega)
  unfold FileLine.entry entryText
  dsimp only
  rw [hentry.1]
  rfl

theorem entryText_activation
    {act : Activation} {line : ℕ} (h : act.func.line act.prevPc = some line) :
    entryText act.entry = some (functionText act.func line act.flags) := by
  have hentry := @entry_mod act.flags act.prevPc act.prevPc_lt
  unfold Activation.entry entryText
  dsimp only
  rw [hentry.1, hentry.2, h]
  rfl

theorem mapM_eq_some
    {α β : Type} {f : α → Option β} {g : α → β} {items : List α}
    (h : ∀ item ∈ items, f item = some (g item)) : items.mapM f = some (items.map g) := by
  induction items with
  | nil => rfl
  | cons item items ih =>
      rw [List.mapM_cons, h item List.mem_cons_self,
        ih fun other hother => h other (List.mem_cons_of_mem item hother)]
      rfl

/-- A stack whose functions have these lines. -/
theorem stackGetter_of_lines
    {callstack : List Activation} {lineOf : Activation → ℕ}
    (h : ∀ act ∈ callstack, act.func.line act.prevPc = some (lineOf act))
    (message : DukString) (compiling : Option FileLine) (cSite : Option (FileLine × Bool)) :
    stackGetter message (addTraceback compiling cSite callstack) =
      some (joinLines (message :: (((compiling.map FileLine.text).toList ++
        ((cSite.map fun site => site.1.text).toList ++
          (callstack.take tracebackDepth).map fun act =>
            functionText act.func (lineOf act) act.flags)) ++
        if callstack.length ≥ tracebackDepth then [lexerString "[...]".toList] else []))) := by
  have hcompiling : (compiling.map fun place => place.entry 0).toList.mapM entryText =
      some (compiling.map FileLine.text).toList := by
    cases compiling with
    | none => rfl
    | some place => simp [entryText_place]
  have hsite : (cSite.map fun site => site.1.entry (if site.2 then 1 else 0)).toList.mapM
      entryText = some (cSite.map fun site => site.1.text).toList := by
    cases cSite with
    | none => rfl
    | some site => simp [entryText_place]
  have hstack : ((callstack.take tracebackDepth).map Activation.entry).mapM entryText =
      some ((callstack.take tracebackDepth).map fun act =>
        functionText act.func (lineOf act) act.flags) := by
    rw [List.mapM_map]
    apply mapM_eq_some
    intro act hact
    exact entryText_activation (h act (List.mem_of_mem_take hact))
  have hcount : (addTraceback compiling cSite callstack).countP isFunction =
      min tracebackDepth callstack.length := by
    have hplaces : ∀ place : FileLine, ∀ flags, isFunction (place.entry flags) = false :=
      fun _ _ => rfl
    have hfunctions : ((callstack.take tracebackDepth).map Activation.entry).countP
        isFunction = min tracebackDepth callstack.length := by
      rw [List.countP_eq_length.mpr, List.length_map, List.length_take]
      intro entry hentry
      rcases List.mem_map.mp hentry with ⟨act, _, rfl⟩
      rfl
    unfold addTraceback
    rw [List.countP_append, List.countP_append, hfunctions]
    cases compiling <;> cases cSite <;> simp [hplaces]
  have hellipsis : ellipsis (addTraceback compiling cSite callstack) =
      if callstack.length ≥ tracebackDepth then [lexerString "[...]".toList] else [] := by
    unfold ellipsis
    rw [hcount]
    by_cases hlong : callstack.length ≥ tracebackDepth
    · rw [if_pos hlong, if_pos (le_min le_rfl hlong)]
    · rw [if_neg hlong, if_neg (fun hle => hlong (hle.trans (min_le_right _ _)))]
  unfold stackGetter
  rw [hellipsis]
  unfold addTraceback
  rw [List.mapM_append, List.mapM_append, hcompiling, hsite, hstack]
  rfl

/-- The first function with a file name is blamed, for the line it was at. -/
theorem blamed_map_entry
    {callstack : List Activation} {lineOf : Activation → ℕ}
    (h : ∀ act ∈ callstack,
      act.func.line act.prevPc = some (lineOf act) ∧ lineOf act < 2 ^ 31) :
    blamed (callstack.map Activation.entry) =
      some (callstack.filterMap fun act =>
        act.func.fileName.map fun fileName => (fileName.1, (lineOf act : ℤ))).head? := by
  induction callstack with
  | nil => rfl
  | cons act rest ih =>
      rcases h act List.mem_cons_self with ⟨hline, hlt⟩
      have hentry := @entry_mod act.flags act.prevPc act.prevPc_lt
      have hrest := ih fun other hother => h other (List.mem_cons_of_mem act hother)
      rw [List.map_cons]
      unfold Activation.entry blamed
      rw [hentry.1, hline, Option.bind_eq_bind, Option.bind_some]
      cases hfile : act.func.fileName with
      | none =>
          rw [List.filterMap_cons_none (by simp [hfile]), ← hrest]
          rfl
      | some fileName =>
          rw [List.filterMap_cons_some (by simp only [hfile, Option.map_some]; rfl),
            asInt_of_lt hlt]
          rfl

theorem blamed_of_lines
    {callstack : List Activation} {lineOf : Activation → ℕ}
    (h : ∀ act ∈ callstack,
      act.func.line act.prevPc = some (lineOf act) ∧ lineOf act < 2 ^ 31)
    (compiling : Option FileLine) (cSite : Option (FileLine × Bool)) :
    blamed (addTraceback compiling cSite callstack) =
      some ((compiling.map fun place => (place.file, (place.line : ℤ))).toList ++
        ((cSite.bind fun site =>
            if site.2 then none else some (site.1.file, (site.1.line : ℤ))).toList ++
          (callstack.take tracebackDepth).filterMap fun act =>
            act.func.fileName.map fun fileName =>
              (fileName.1, (lineOf act : ℤ)))).head? := by
  have hstack := @blamed_map_entry (callstack.take tracebackDepth) lineOf
    fun act hact => h act (List.mem_of_mem_take hact)
  have hplace : ∀ (place : FileLine) rest, blamed (place.entry 0 :: rest) =
      some (some (place.file, (place.line : ℤ))) := by
    intro place rest
    have hlt := place.line_lt
    have hentry := @entry_mod 0 place.line (by omega)
    unfold FileLine.entry blamed
    rw [hentry.1, hentry.2, Nat.zero_testBit, asInt_of_lt hlt]
    rfl
  have hskip : ∀ (place : FileLine) rest, blamed (place.entry 1 :: rest) = blamed rest := by
    intro place rest
    have hlt := place.line_lt
    have hentry := @entry_mod 1 place.line (by omega)
    unfold FileLine.entry
    rw [blamed, hentry.2]
    rfl
  unfold addTraceback
  cases compiling with
  | some place => exact hplace place _
  | none =>
      cases cSite with
      | none => exact hstack
      | some site =>
          rcases site with ⟨place, noblame⟩
          cases noblame with
          | false => exact hplace place _
          | true => exact (hskip place _).trans hstack

/-! ## Functions loaded from bytecode -/

/-- The same call stack of other compiled functions. -/
def TraceFunction.moved (move : CompiledFunction → CompiledFunction) :
    TraceFunction → TraceFunction
  | compiled func => compiled (move func)
  | native name fileName => native name fileName

def Activation.moved (move : CompiledFunction → CompiledFunction) (act : Activation) :
    Activation :=
  { act with func := act.func.moved move }

def Activation.RunsIn (act : Activation) (program : CompiledFunction) : Prop :=
  ∀ func, act.func = .compiled func → func ∈ program.nested

theorem CompiledFunction.EmittedFrom.line
    {func : CompiledFunction} {code : EmittedCode} (h : func.EmittedFrom code) (pc : ℕ) :
    pc2lineQuery func.parts.properties pc = some (lineAt code.1 pc) := by
  rcases h.lines with ⟨buf, hpack, hbuf⟩
  rcases exists_packed code with ⟨buf', hpack', table, hpacked, hbytes⟩
  have hsame : buf' = buf := by
    rw [hpack] at hpack'
    exact (Except.ok.inj hpack').symm
  subst hsame
  unfold pc2lineQuery
  rw [hbuf]
  dsimp only
  rw [hbytes]
  exact pc2lineQueryRaw_of_packed hpacked code.2 (hbytes ▸ buf'.2) pc

theorem lineAt_lt (instrs : List CompilerInstr) (pc : ℕ) : lineAt instrs pc < 2 ^ 31 := by
  unfold lineAt
  cases instrs[pc]? with
  | none => simp
  | some instr =>
      have hle := instr.line_le
      unfold esbcMaxLinenumber at hle
      simp only [Option.map_some, Option.getD_some]
      omega

/-- What a trace shows of a loaded function is what it shows of the function. -/
structure SameTrace (func other : CompiledFunction) : Prop where
  name : other.parts.properties.name.getD EngineString.empty =
    func.parts.properties.name.getD EngineString.empty
  fileName : other.parts.properties.fileName = func.parts.properties.fileName
  line : ∀ pc, pc2lineQuery other.parts.properties pc = pc2lineQuery func.parts.properties pc

theorem sameTrace_loaded {func : CompiledFunction} {code : EmittedCode}
    (h : func.EmittedFrom code) : SameTrace func (func.mapParts FunctionParts.loaded) := by
  rcases h.lines with ⟨buf, _, hbuf⟩
  rcases Option.isSome_iff_exists.mp h.fileName with ⟨fileName, hfile⟩
  cases func with
  | mk parts funcs =>
      have hbuf' : parts.properties.pc2line = some buf := hbuf
      have hfile' : parts.properties.fileName = some fileName := hfile
      constructor
      · rfl
      · change some (parts.properties.fileName.getD EngineString.empty) =
          parts.properties.fileName
        rw [hfile']
        rfl
      · intro pc
        change pc2lineQueryRaw (parts.properties.pc2line.getD EngineBuffer.empty).1 pc =
          pc2lineQuery parts.properties pc
        unfold pc2lineQuery
        rw [hbuf']
        rfl

/-- The call stack, as `moved` shows it, is reported in terms of the source. -/
def ReportsSource (code : CompiledFunction → EmittedCode) (callstack moved : List Activation) :
    Prop :=
  ∀ message compiling cSite,
    stackGetter message (addTraceback compiling cSite moved) =
        some (sourceReport code message compiling cSite callstack) ∧
      blamed (addTraceback compiling cSite moved) =
        some (sourceBlame code compiling cSite callstack)

theorem functionText_moved
    {func : TraceFunction} {move : CompiledFunction → CompiledFunction}
    (hmove : ∀ compiled, func = .compiled compiled → SameTrace compiled (move compiled))
    (line flags : ℕ) :
    functionText (func.moved move) line flags = functionText func line flags ∧
      (func.moved move).fileName = func.fileName := by
  cases func with
  | native name fileName => exact ⟨rfl, rfl⟩
  | compiled func =>
      have hsame := hmove func rfl
      have hname : ((TraceFunction.compiled func).moved move).name =
          (TraceFunction.compiled func).name := hsame.name
      have hfile : ((TraceFunction.compiled func).moved move).fileName =
          (TraceFunction.compiled func).fileName := hsame.fileName
      refine ⟨?_, hfile⟩
      unfold functionText
      rw [hname, hfile]
      rfl

theorem line_moved
    {act : Activation} {code : CompiledFunction → EmittedCode}
    {move : CompiledFunction → CompiledFunction}
    (hemitted : ∀ func, act.func = .compiled func → func.EmittedFrom (code func))
    (hmove : ∀ func, act.func = .compiled func → SameTrace func (move func)) :
    (act.moved move).func.line (act.moved move).prevPc = some (act.sourceLine code) ∧
      act.sourceLine code < 2 ^ 31 := by
  rcases act with ⟨func, currPc, flags, currPc_lt⟩
  cases func with
  | native name fileName => exact ⟨rfl, by simp [Activation.sourceLine]⟩
  | compiled func =>
      refine ⟨?_, lineAt_lt _ _⟩
      exact ((hmove func rfl).line _).trans ((hemitted func rfl).line _)

theorem reportsSource_moved
    {program : CompiledFunction} {code : CompiledFunction → EmittedCode}
    (hemitted : ∀ func ∈ program.nested, func.EmittedFrom (code func))
    {move : CompiledFunction → CompiledFunction}
    (hmove : ∀ func ∈ program.nested, SameTrace func (move func))
    {callstack : List Activation} (hruns : ∀ act ∈ callstack, act.RunsIn program) :
    ReportsSource code callstack (callstack.map (Activation.moved move)) := by
  have hact : ∀ act ∈ callstack,
      (act.moved move).func.line (act.moved move).prevPc = some (act.sourceLine code) ∧
        act.sourceLine code < 2 ^ 31 := by
    intro act hmem
    exact line_moved (fun func hfunc => hemitted func (hruns act hmem func hfunc))
      fun func hfunc => hmove func (hruns act hmem func hfunc)
  have htext : ∀ act ∈ callstack, ∀ line,
      functionText (act.moved move).func line (act.moved move).flags =
          functionText act.func line act.flags ∧
        (act.moved move).func.fileName = act.func.fileName := by
    intro act hmem line
    exact functionText_moved (fun func hfunc => hmove func (hruns act hmem func hfunc)) line _
  have hlines : ∀ act' ∈ callstack.map (Activation.moved move),
      act'.func.line act'.prevPc = some ((act'.func.line act'.prevPc).getD 0) ∧
        (act'.func.line act'.prevPc).getD 0 < 2 ^ 31 := by
    intro act' hmem
    rcases List.mem_map.mp hmem with ⟨act, hin, rfl⟩
    rw [(hact act hin).1]
    exact ⟨rfl, (hact act hin).2⟩
  intro message compiling cSite
  have hstack := stackGetter_of_lines (fun act' hmem => (hlines act' hmem).1) message
    compiling cSite
  have hblame := blamed_of_lines hlines compiling cSite
  have htexts : (callstack.take tracebackDepth).map
      ((fun act => functionText act.func ((act.func.line act.prevPc).getD 0) act.flags) ∘
        Activation.moved move) =
      (callstack.take tracebackDepth).map (Activation.sourceText code) := by
    apply List.map_congr_left
    intro act hmem
    have hin := List.mem_of_mem_take hmem
    simp only [Function.comp_apply]
    rw [(hact act hin).1, (htext act hin _).1]
    rfl
  have hplaces : (callstack.take tracebackDepth).filterMap
      ((fun act => act.func.fileName.map fun fileName =>
          (fileName.1, (((act.func.line act.prevPc).getD 0 : ℕ) : ℤ))) ∘
        Activation.moved move) =
      (callstack.take tracebackDepth).filterMap fun act =>
        act.func.fileName.map fun fileName =>
          (fileName.1, (act.sourceLine code : ℤ)) := by
    apply List.filterMap_congr
    intro act hmem
    have hin := List.mem_of_mem_take hmem
    simp only [Function.comp_apply]
    rw [(hact act hin).1, (htext act hin 0).2]
    rfl
  constructor
  · rw [hstack, List.length_map, ← List.map_take, List.map_map, htexts]
    rfl
  · rw [hblame, ← List.map_take, List.filterMap_map, hplaces]
    rfl

/-- A program that is loaded from its bytecode reports errors as the compiled
program does: with the lines of the source text. -/
theorem reports_of_loaded
    {program : CompiledFunction} {dumped : List UInt8}
    (hdump : dukDumpFunction program = .ok dumped) (hstorable : program.Storable)
    {room : ℕ} (hslots : program.slots ≤ room) {code : CompiledFunction → EmittedCode}
    (hemitted : ∀ func ∈ program.nested, func.EmittedFrom (code func))
    (after : List UInt8) :
    ∃ loaded counterpart, dukLoadFunction room (dumped ++ after) = .done loaded after ∧
      loaded.nested = program.nested.map counterpart ∧
      ∀ callstack : List Activation, (∀ act ∈ callstack, act.RunsIn program) →
        ReportsSource code callstack callstack ∧
          ReportsSource code callstack (callstack.map (Activation.moved counterpart)) := by
  obtain ⟨-, -, rfl⟩ := dukDumpFunction_eq_ok_iff.mp hdump
  refine ⟨_, CompiledFunction.mapParts FunctionParts.loaded,
    dukLoadFunction_bytecodeOf hstorable hslots after,
    CompiledFunction.nested_mapParts _ program, ?_⟩
  intro callstack hruns
  have hself := @reportsSource_moved program code hemitted id
    (fun func _ => ⟨rfl, rfl, fun _ => rfl⟩) callstack hruns
  have hid : callstack.map (Activation.moved id) = callstack := by
    apply List.map_id''
    intro act
    cases act with
    | mk func currPc flags currPc_lt => cases func <;> rfl
  rw [hid] at hself
  exact ⟨hself, reportsSource_moved hemitted
    (fun func hfunc => sameTrace_loaded (hemitted func hfunc)) hruns⟩

/-- Three instructions, on lines 5, 7 and 300. -/
def tracedCode : EmittedCode :=
  ⟨[⟨0, 5, by decide⟩, ⟨0, 7, by decide⟩, ⟨0, 300, by decide⟩], by decide⟩

def tracedFunction : CompiledFunction :=
  .mk
    { nregs := 1
      nargs := 0
      flags := closureFlags
      instructions := [0, 0, 0]
      consts := []
      properties := {
        length := none
        name := none
        fileName := some ⟨[0x61], by decide⟩
        pc2line := (pc2linePack tracedCode).toOption
        varmap := none
        formals := none
        lexenv := none } }
    []

theorem emittedFrom_tracedFunction : tracedFunction.EmittedFrom tracedCode := by
  rcases exists_packed tracedCode with ⟨buf, hpack, _⟩
  have hlines : tracedFunction.parts.properties.pc2line = some buf := by
    change (pc2linePack tracedCode).toOption = some buf
    rw [hpack]
    rfl
  exact ⟨rfl, ⟨buf, hpack, hlines⟩, rfl⟩

theorem nested_tracedFunction : tracedFunction.nested = [tracedFunction] := rfl

/-- The function, after its second instruction, in a native function without a
file name. -/
def tracedStack : List Activation :=
  [⟨.compiled tracedFunction, 2, 1, by decide⟩, ⟨.native (some ⟨[0x66], by decide⟩) none, 0, 0,
    by decide⟩]

theorem reports_of_loaded_tracedFunction :
    ∃ loaded counterpart,
      dukLoadFunction 64 (bytecodeOf tracedFunction ++ []) = .done loaded [] ∧
      stackGetter [0x45] (addTraceback none none
          (tracedStack.map (Activation.moved counterpart))) =
        some (lexerString ['E', '\n', '\t', 'a', 'n', 'o', 'n', ' ', 'a', ':', '7', ' ', 's',
          't', 'r', 'i', 'c', 't', '\n', '\t', 'f', ' ', ' ', 'n', 'a', 't', 'i', 'v', 'e']) ∧
      blamed (addTraceback none none (tracedStack.map (Activation.moved counterpart))) =
        some (some ([0x61], 7)) := by
  have hstorable : tracedFunction.Storable := by
    intro g hg
    rw [nested_tracedFunction, List.mem_singleton] at hg
    subst hg
    constructor <;> decide
  have hdump : dukDumpFunction tracedFunction = .ok (bytecodeOf tracedFunction) :=
    dukDumpFunction_eq_ok_iff.mpr ⟨rfl, by decide +kernel, rfl⟩
  have hemitted : ∀ func ∈ tracedFunction.nested, func.EmittedFrom tracedCode := by
    intro func hfunc
    rw [nested_tracedFunction, List.mem_singleton] at hfunc
    rw [hfunc]
    exact emittedFrom_tracedFunction
  have hruns : ∀ act ∈ tracedStack, act.RunsIn tracedFunction := by
    intro act hact func hfunc
    rw [nested_tracedFunction, List.mem_singleton]
    rcases List.mem_cons.mp hact with rfl | hrest
    · exact (TraceFunction.compiled.inj hfunc).symm
    · rw [List.mem_singleton.mp hrest] at hfunc
      cases hfunc
  rcases @reports_of_loaded tracedFunction _ hdump hstorable 64 (by decide)
    (fun _ => tracedCode) hemitted [] with ⟨loaded, counterpart, hload, _, hreports⟩
  have hreport := (hreports tracedStack hruns).2 [0x45] none none
  refine ⟨loaded, counterpart, hload, ?_, ?_⟩
  · rw [hreport.1]
    decide
  · rw [hreport.2]
    decide

end NekoScript
