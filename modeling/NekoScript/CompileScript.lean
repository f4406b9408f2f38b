import NekoScript.AppMain
import NekoScript.FileNaming
import Mathlib.Tactic

/-!
# Compiling programs to bytecode

`compile.coffee` compiles each file of `process.scriptArgv` and writes the dump
of the function next to it, under the name with a `c` at its end.  `AppMain`
starts such a file without its source.
-/

namespace NekoScript

inductive CompileFault where
  | native (error : JSError)
  | compile (message : DukString)

/-- `"(app)"` -/
def appName : DukString := lexerString ['(', 'a', 'p', 'p', ')']

/-- `file + "c"` -/
def compiledName (file : DukString) : DukString := file ++ lexerString ['c']

/-- `Duktape.dumpBytecode`; the engine puts the buffer somewhere. -/
def dumpBytecode (func : CompiledFunction) : Except JSError HBuffer :=
  match hdump : dukDumpFunction func with
  | .error e => .error e
  | .ok bytes =>
      .ok {
        bytes := bytes
        data := 16
        bytes_of_null := fun hnull => absurd hnull (by decide)
        length_le := (dukDumpFunction_eq_ok_iff.mp hdump).2.1 }

section Files

variable {File : Type} [DecidableEq File] (fs : FileSystem File)
  (streams : StreamBehaviour) (engine : Engine)

/-- One turn of the loop. -/
def compileFile (file : DukString) (vol : Volume File) :
    Except CompileFault Unit × Volume File :=
  match JSFileSystem.readFileSync fs streams vol file with
  | .error e => (.error (.native e), vol)
  | .ok bytes =>
      match engine.compile (bufferToString bytes) appName with
      | .error message => (.error (.compile message), vol)
      | .ok func =>
          match dumpBytecode func with
          | .error e => (.error (.native e), vol)
          | .ok bytecode =>
              match JSFileSystem.writeFileSync fs streams vol (compiledName file)
                  (.buffer bytecode) with
              | (.error e, next) => (.error (.native e), next)
              | (.ok (), next) => (.ok (), next)

/-- The loop over `process.scriptArgv`; an error ends the script. -/
def compileFiles : List DukString → Volume File → Except CompileFault Unit × Volume File
  | [], vol => (.ok (), vol)
  | file :: files, vol =>
      match compileFile fs streams engine file vol with
      | (.error fault, next) => (.error fault, next)
      | (.ok (), next) => compileFiles files next

end Files

section Names

variable {File : Type} (fs : FileSystem File)

/-- The file that a path of a script names. -/
def sourceFile (file : DukString) : Option File := fs.designates (utf8ToUtf16 (cString file))

def compiledFile (file : DukString) : Option File := sourceFile fs (compiledName file)

/-- No file is written twice, and none that is read is written. -/
structure CompilesApart (files : List DukString) : Prop where
  outputs : files.Pairwise fun file other => compiledFile fs file ≠ compiledFile fs other
  inputs : ∀ file ∈ files, ∀ other ∈ files, compiledFile fs file ≠ sourceFile fs other

end Names

variable {File : Type} [DecidableEq File] {fs : FileSystem File}
  {streams : StreamBehaviour} {engine : Engine} {vol next : Volume File}

theorem of_dumpBytecode {func : CompiledFunction} {bytecode : HBuffer}
    (hdump : dumpBytecode func = .ok bytecode) :
    dukDumpFunction func = .ok bytecode.bytes := by
  unfold dumpBytecode at hdump
  split at hdump
  · cases hdump
  · rename_i bytes hbytes
    rw [← Except.ok.inj hdump]
    exact hbytes

/-! ## One file -/

theorem entry_writeFileSync {path : DukString} {data : DukValue} {file : File}
    (hother : sourceFile fs path ≠ some file) :
    (JSFileSystem.writeFileSync fs streams vol path data).2.entry file = vol.entry file := by
  unfold JSFileSystem.writeFileSync
  cases JSFileSystem.requested data with
  | error e => rfl
  | ok bytes =>
      cases hname : fs.designates (utf8ToUtf16 (cString path)) with
      | none => simp only [hname]
      | some target =>
          have hne : file ≠ target := by
            intro heq
            rw [← heq] at hname
            exact hother hname
          simp only [hname]
          split_ifs
          · simp [hne]
          · rfl

/-- A turn changes the compiled file only. -/
theorem entry_compileFile {source : DukString} {file : File}
    (hother : compiledFile fs source ≠ some file) :
    (compileFile fs streams engine source vol).2.entry file = vol.entry file := by
  unfold compileFile
  cases JSFileSystem.readFileSync fs streams vol source with
  | error e => rfl
  | ok bytes =>
      simp only
      cases engine.compile (bufferToString bytes) appName with
      | error message => rfl
      | ok func =>
          simp only
          cases dumpBytecode func with
          | error e => rfl
          | ok bytecode =>
              have hwrite := @entry_writeFileSync _ _ fs streams vol (compiledName source)
                (.buffer bytecode) file hother
              rcases hdone : JSFileSystem.writeFileSync fs streams vol (compiledName source)
                (.buffer bytecode) with ⟨outcome, written⟩
              rw [hdone] at hwrite
              cases outcome <;> simpa [hdone] using hwrite

/-- The file holds the dump of what the source compiles to. -/
def HoldsCompiled (engine : Engine) (bytes : List UInt8) (entry : Option VolumeEntry) : Prop :=
  ∃ func dumped, engine.compile (bufferToString bytes) appName = .ok func ∧
    dukDumpFunction func = .ok dumped ∧ entry = some (.file dumped)

theorem of_compileFile (hfull : streams.Full) {source : DukString}
    (hturn : compileFile fs streams engine source vol = (.ok (), next)) :
    ∃ bytes file, JSFileSystem.readFileSync fs streams vol source = .ok bytes ∧
      compiledFile fs source = some file ∧ HoldsCompiled engine bytes (next.entry file) := by
  unfold compileFile at hturn
  cases hread : JSFileSystem.readFileSync fs streams vol source with
  | error e => simp [hread] at hturn
  | ok bytes =>
      cases hcompile : engine.compile (bufferToString bytes) appName with
      | error message => simp [hread, hcompile] at hturn
      | ok func =>
          cases hdump : dumpBytecode func with
          | error e => simp [hread, hcompile, hdump] at hturn
          | ok bytecode =>
              rcases hwrite : JSFileSystem.writeFileSync fs streams vol (compiledName source)
                (.buffer bytecode) with ⟨outcome, written⟩
              cases outcome with
              | error e => simp [hread, hcompile, hdump, hwrite] at hturn
              | ok done =>
                  have hnext : written = next := by
                    simpa [hread, hcompile, hdump, hwrite] using hturn
                  rcases JSFileSystem.of_writeFileSync_ok hfull hwrite with
                    ⟨file, stored, hfile, hrequested, _, hentry⟩
                  have hstored : stored = bytecode.bytes :=
                    (Except.ok.inj hrequested).symm
                  refine ⟨bytes, file, rfl, hfile, func, _, hcompile, of_dumpBytecode hdump, ?_⟩
                  rw [← hnext, hentry, hstored]
                  simp

/-! ## The loop -/

theorem compileFiles_cons {source : DukString} {files : List DukString}
    (hrun : compileFiles fs streams engine (source :: files) vol = (.ok (), next)) :
    ∃ middle, compileFile fs streams engine source vol = (.ok (), middle) ∧
      compileFiles fs streams engine files middle = (.ok (), next) := by
  unfold compileFiles at hrun
  rcases hturn : compileFile fs streams engine source vol with ⟨outcome, middle⟩
  cases outcome with
  | error fault => simp [hturn] at hrun
  | ok done =>
      rw [hturn] at hrun
      exact ⟨middle, rfl, hrun⟩

theorem entry_compileFiles {files : List DukString} {file : File}
    (hother : ∀ source ∈ files, compiledFile fs source ≠ some file)
    (hrun : compileFiles fs streams engine files vol = (.ok (), next)) :
    next.entry file = vol.entry file := by
  induction files generalizing vol with
  | nil =>
      have hsame : vol = next := by simpa [compileFiles] using hrun
      rw [hsame]
  | cons source files ih =>
      rcases compileFiles_cons hrun with ⟨middle, hturn, hrest⟩
      have hkept := @entry_compileFile _ _ fs streams engine vol source file
        (hother source List.mem_cons_self)
      rw [hturn] at hkept
      rw [ih (fun other hmem => hother other (List.mem_cons_of_mem _ hmem)) hrest]
      exact hkept

theorem readFileSync_of_compileFile {source other : DukString}
    (hapart : compiledFile fs source ≠ sourceFile fs other)
    (hturn : compileFile fs streams engine source vol = (.ok (), next)) :
    JSFileSystem.readFileSync fs streams next other =
      JSFileSystem.readFileSync fs streams vol other := by
  have hentry : (sourceFile fs other).bind next.entry =
      (sourceFile fs other).bind vol.entry := by
    cases hfile : sourceFile fs other with
    | none => rfl
    | some file =>
        rw [hfile] at hapart
        have hkept := @entry_compileFile _ _ fs streams engine vol source file hapart
        rw [hturn] at hkept
        exact hkept
  unfold JSFileSystem.readFileSync JSFileSystem.tellEnd fileExists fileBytes
  unfold sourceFile at hentry
  simp only [hentry]

/-- After a run without errors every source file, as it was at the beginning, is
compiled into the file next to it. -/
theorem compiled_of_compileFiles (hfull : streams.Full) {files : List DukString}
    (hapart : CompilesApart fs files)
    (hrun : compileFiles fs streams engine files vol = (.ok (), next)) :
    ∀ source ∈ files, ∃ bytes file,
      JSFileSystem.readFileSync fs streams vol source = .ok bytes ∧
      compiledFile fs source = some file ∧ HoldsCompiled engine bytes (next.entry file) := by
  induction files generalizing vol with
  | nil => simp
  | cons first files ih =>
      rcases compileFiles_cons hrun with ⟨middle, hturn, hrest⟩
      have houtputs := List.pairwise_cons.mp hapart.outputs
      have hrestApart : CompilesApart fs files :=
        ⟨houtputs.2, fun source hmem other hother =>
          hapart.inputs source (List.mem_cons_of_mem _ hmem) other
            (List.mem_cons_of_mem _ hother)⟩
      intro source hmem
      rcases List.mem_cons.mp hmem with rfl | hlater
      · rcases of_compileFile hfull hturn with ⟨bytes, file, hread, hfile, hholds⟩
        have hkept : next.entry file = middle.entry file := by
          apply entry_compileFiles _ hrest
          intro other hother heq
          exact houtputs.1 other hother (hfile.trans heq.symm)
        rw [← hkept] at hholds
        exact ⟨bytes, file, hread, hfile, hholds⟩
      · rcases ih hrestApart hrest source hlater with ⟨bytes, file, hread, hfile, hholds⟩
        rw [readFileSync_of_compileFile
          (hapart.inputs first List.mem_cons_self source hmem) hturn] at hread
        exact ⟨bytes, file, hread, hfile, hholds⟩

/-- A program that has been compiled and is started by the name of its bytecode,
which ends in `.jsc`, runs the function that its source compiles to, as the loader
restores it. -/
theorem appMain_of_compileFiles (hfull : streams.Full) {files : List DukString}
    (hapart : CompilesApart fs files)
    (hrun : compileFiles fs streams engine files vol = (.ok (), next))
    (hloadable : ∀ source fileName func, engine.compile source fileName = .ok func →
      func.Storable ∧ func.slots ≤ engine.room)
    {source : DukString} (hmem : source ∈ files)
    (hname : isBytecodeName (utf8ToUtf16 (cString (compiledName source))) = true)
    {line : CommandLine}
    (hscript : (commandParts line.units)[1]? =
      some (utf8ToUtf16 (cString (compiledName source)))) :
    ∃ bytes func fuel, JSFileSystem.readFileSync fs streams vol source = .ok bytes ∧
      engine.compile (bufferToString bytes) appName = .ok func ∧
      appMain fs streams next engine fuel line.units =
        some (callProgram engine (func.mapParts FunctionParts.loaded)) := by
  rcases compiled_of_compileFiles hfull hapart hrun source hmem with
    ⟨bytes, file, hread, hfile, func, dumped, hcompile, hdump, hentry⟩
  rcases hloadable _ _ _ hcompile with ⟨hstorable, hslots⟩
  have hwhole : next.entry file = some (.file (dumped.take dumped.length)) := by
    rw [List.take_length, hentry]
  rcases exists_appMain_of_dump engine hfull hdump hstorable hslots hfile hwhole hname
    hscript with ⟨fuel, hstart⟩
  rw [if_pos le_rfl] at hstart
  exact ⟨bytes, func, fuel, hread, hcompile, hstart⟩

def jsPath : DukString := lexerString ['a', '.', 'j', 's']

theorem appMain_of_compileFiles_jsPath :
    ∃ next func fuel,
      compileFiles (flatVolume fun _ => []) JSFileSystem.fullStreams quietEngine
        [jsPath] (volumeWith [utf8ToUtf16 (cString jsPath)]) = (.ok (), next) ∧
      quietEngine.compile (bufferToString []) appName = .ok func ∧
      appMain (flatVolume fun _ => []) JSFileSystem.fullStreams next quietEngine
        fuel jscLine.units =
          some (callProgram quietEngine (func.mapParts FunctionParts.loaded)) := by
  have hread : JSFileSystem.readFileSync (flatVolume fun _ => [])
      JSFileSystem.fullStreams
      (volumeWith [utf8ToUtf16 (cString jsPath)]) jsPath = .ok [] := by
    decide
  have hdump : dumpBytecode protoFunction = .ok protoDump := by
    unfold dumpBytecode
    split
    · rename_i hfailed
      rw [dukDumpFunction_protoFunction] at hfailed
      cases hfailed
    · rename_i bytes hbytes
      rw [dukDumpFunction_protoFunction] at hbytes
      cases hbytes
      rfl
  have hrequested : JSFileSystem.requested (.buffer protoDump) =
      .ok (bytecodeOf protoFunction) := rfl
  have hscript : (commandParts jscLine.units)[1]? =
      some (utf8ToUtf16 (cString (compiledName jsPath))) := by decide
  have hrun : compileFiles (flatVolume fun _ => []) JSFileSystem.fullStreams
      quietEngine [jsPath] (volumeWith [utf8ToUtf16 (cString jsPath)]) =
        (.ok (), (volumeWith [utf8ToUtf16 (cString jsPath)]).setEntry
          (utf8ToUtf16 (cString (compiledName jsPath)))
          (some (.file (bytecodeOf protoFunction)))) := by
    have hcompile : quietEngine.compile (bufferToString []) appName = .ok protoFunction := rfl
    unfold compileFiles compileFile
    rw [hread]
    simp only [hcompile, hdump]
    unfold JSFileSystem.writeFileSync
    simp [hrequested, flatVolume, JSFileSystem.fullStreams, volumeWith, compileFiles]
  have hapart : CompilesApart (flatVolume fun _ => []) [jsPath] := by
    constructor
    · simp
    · intro file hfile other hother
      rw [List.mem_singleton.mp hfile, List.mem_singleton.mp hother]
      decide
  have hloadable : ∀ source fileName func, quietEngine.compile source fileName = .ok func →
      func.Storable ∧ func.slots ≤ quietEngine.room := by
    intro source fileName func hcompile
    rw [← Except.ok.inj hcompile]
    exact ⟨storable_protoFunction, by decide⟩
  rcases appMain_of_compileFiles JSFileSystem.full_fullStreams hapart hrun hloadable
    List.mem_cons_self (by decide) hscript with ⟨bytes, func, fuel, hbytes, hcompile, hstart⟩
  rw [hread] at hbytes
  rw [← Except.ok.inj hbytes] at hcompile
  exact ⟨_, func, fuel, hrun, hcompile, hstart⟩

end NekoScript
