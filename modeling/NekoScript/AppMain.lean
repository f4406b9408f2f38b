import NekoScript.BytecodeRoundTrip
import NekoScript.CommandLine
import NekoScript.ProgramText
import Mathlib.Tactic

/-!
# Starting a program

`AppMain` loads the file that the command line names, as bytecode or as source
text according to its name, and calls what it has loaded.  The compiler and the
call are left to the engine.
-/

namespace NekoScript

/-- What the engine does, with the text of its error. -/
structure Engine where
  /-- `duk_pcompile_string_filename` of a source text. -/
  compile : (source fileName : DukString) → Except DukString CompiledFunction
  /-- The slots of the value stack that `loadBytecode` can have. -/
  room : ℕ
  /-- `duk_pcall` without arguments. -/
  call : CompiledFunction → Except DukString Unit

/-- What `Fail` reports. -/
inductive AppFailure where
  | moduleNotFound (fileName : List UInt16)
  | bytecodeError (error : JSError)
  | sourceError (message : DukString)
  | uncaughtError (stack : DukString)

def AppFailure.title : AppFailure → List Char
  | .moduleNotFound _ => "Module Not Found".toList
  | .bytecodeError _ => "Bytecode Error".toList
  | .sourceError _ => "Source Error".toList
  | .uncaughtError _ => "Uncaught Error".toList

inductive AppEnd where
  /-- `AppMain` returns; `called` is the function that was called. -/
  | returned (retCode : ℤ) (failure : Option AppFailure) (called : Option CompiledFunction)
  /-- An error that nothing catches, or `abort`. -/
  | terminated
  /-- Memory is read that belongs to no object. -/
  | undefined

inductive Loading where
  | loaded (func : CompiledFunction)
  | failed (failure : AppFailure)
  | terminated
  | undefined

def jscSuffix : List UInt16 := ['.', 'j', 's', 'c'].map fun c => .ofNat c.toNat

def binSuffix : List UInt16 := ['.', 'b', 'i', 'n'].map fun c => .ofNat c.toNat

/-- The name of a file that is loaded as bytecode. -/
def isBytecodeName (fileName : List UInt16) : Bool :=
  fileName.length > 4 &&
    (fileName.drop (fileName.length - 4) == jscSuffix ||
      fileName.drop (fileName.length - 4) == binSuffix)

section Windows

variable {File : Type} (fs : FileSystem File) (streams : StreamBehaviour)
  (vol : Volume File) (engine : Engine)

/-- `readFileSync` and `loadBytecode`, each in a protected call. -/
def loadBytecodeFile (fn : DukString) : Loading :=
  match JSFileSystem.readFileSync fs streams vol fn with
  | .error e => .failed (.bytecodeError e)
  | .ok bytes =>
      match dukLoadFunction engine.room bytes with
      | .done func _ => .loaded func
      | .failed e => .failed (.bytecodeError e)
      | .overrun | .unfinished => .undefined

/-- A stream that is not open makes `ReadWholeFileAsString` throw. -/
def compileSourceFile (fileName : List UInt16) (fn : DukString) : Loading :=
  match appMainText fs streams vol fileName with
  | none => .terminated
  | some source =>
      match engine.compile source fn with
      | .error message => .failed (.sourceError message)
      | .ok func => .loaded func

def loadProgram (fileName : List UInt16) : Loading :=
  match pushString (utf16ToUtf8 fileName) with
  | .error _ => .terminated
  | .ok fn =>
      if isBytecodeName fileName then loadBytecodeFile fs streams vol engine fn
      else compileSourceFile fs streams vol engine fileName fn

def callProgram (func : CompiledFunction) : AppEnd :=
  match engine.call func with
  | .error stack => .returned (-1) (some (.uncaughtError stack)) (some func)
  | .ok () => .returned 0 none (some func)

/-- `AppMain`, once the members of `JSProcess` are set.  The context is created
only for a file that exists. -/
def runSettings (settings : ProcessSettings) : AppEnd :=
  if !fileExists fs vol settings.scriptPath then
    .returned (-1) (some (.moduleNotFound settings.scriptPath)) none
  else
    match setupArguments settings with
    | .error _ => .terminated
    | .ok _ =>
        match loadProgram fs streams vol engine settings.scriptPath with
        | .failed failure => .returned (-1) (some failure) none
        | .terminated => .terminated
        | .undefined => .undefined
        | .loaded func => callProgram engine func

def appMain (fuel : ℕ) (line : List UInt16) : Option AppEnd := do
  let commandStrings ← splitCommandLine fuel line
  match processSettings commandStrings with
  | .error _ => return .undefined
  | .ok settings => return runSettings fs streams vol engine settings

end Windows

section Windows

variable {File : Type} [DecidableEq File] {fs : FileSystem File}
  {streams : StreamBehaviour} {vol : Volume File} {engine : Engine}

omit [DecidableEq File] in
theorem exists_appMain
    {line : CommandLine} {fileName : List UInt16}
    (hscript : (commandParts line.units)[1]? = some fileName) (hne : fileName ≠ [])
    (hexists : fileExists fs vol fileName = true) :
    ∃ fuel, appMain fs streams vol engine fuel line.units = some
      (match loadProgram fs streams vol engine fileName with
        | .failed failure => .returned (-1) (some failure) none
        | .terminated => .terminated
        | .undefined => .undefined
        | .loaded func => callProgram engine func) := by
  rcases line.exists_settings hscript hne with ⟨settings, process, hsettings, rfl, hsetup⟩
  have hsplit := splitCommandLine_eq (Nat.lt_succ_self line.units.length)
  have hrun : runSettings fs streams vol engine settings =
      match loadProgram fs streams vol engine settings.scriptPath with
        | .failed failure => .returned (-1) (some failure) none
        | .terminated => .terminated
        | .undefined => .undefined
        | .loaded func => callProgram engine func := by
    unfold runSettings
    simp only [hexists, Bool.not_true, Bool.false_eq_true, if_false, hsetup]
  rw [← hrun]
  exists line.units.length + 1
  unfold appMain
  rw [hsplit, Option.bind_eq_bind, Option.bind_some, hsettings]
  rfl

/-! ## Bytecode -/

/-- The loader on the first `count` bytes of a dump. -/
theorem dukLoadFunction_take
    {func : CompiledFunction} {dumped : List UInt8} (hdump : dukDumpFunction func = .ok dumped)
    (hstorable : func.Storable) {room : ℕ} (hslots : func.slots ≤ room) (count : ℕ) :
    dukLoadFunction room (dumped.take count) =
      if dumped.length ≤ count then .done (func.mapParts FunctionParts.loaded) []
      else if count < 2 then .failed decodeFailed
      else .overrun := by
  obtain ⟨-, -, rfl⟩ := dukDumpFunction_eq_ok_iff.mp hdump
  by_cases hall : (bytecodeOf func).length ≤ count
  · have hload := dukLoadFunction_bytecodeOf hstorable hslots []
    rw [List.append_nil] at hload
    rw [if_pos hall, List.take_of_length_le hall, hload]
  · rw [if_neg hall]
    match count with
    | 0 => rfl
    | 1 => rfl
    | count + 2 =>
        have hbytes := (List.take_append_drop count (dumpFunc func)).symm
        have hafter : (dumpFunc func).drop count ≠ [] := by
          rw [ne_eq, List.drop_eq_nil_iff]
          intro hle
          apply hall
          simp only [bytecodeOf, List.length_cons]
          omega
        rw [if_neg (by omega)]
        exact dukLoadFunction_overrun hstorable hslots hbytes hafter

omit [DecidableEq File] in
/-- A file whose name comes from a JS string is read under that name. -/
theorem loadProgram_of_file
    (hfull : streams.Full) {path : DukString} {fileName : List UInt16}
    (hpath : utf8ToUtf16 (cString path) = fileName)
    (hbounds : 0 ∉ fileName ∧ fileName.length < 2 ^ 15)
    (hname : isBytecodeName fileName = true) {file : File}
    (hfile : fs.designates fileName = some file) {bytes : List UInt8}
    (hentry : vol.entry file = some (.file bytes))
    (hsize : bytes.length ≤ hbufferMaxBytelen) :
    loadProgram fs streams vol engine fileName =
      match dukLoadFunction engine.room bytes with
      | .done func _ => .loaded func
      | .failed e => .failed (.bytecodeError e)
      | .overrun | .unfinished => .undefined := by
  have hback : utf8ToUtf16 (cString (utf16ToUtf8 fileName)) = fileName := by
    rw [utf8ToUtf16_utf16ToUtf8_iff hbounds.1, ← hpath]
    exact wellFormed_utf8ToUtf16 _
  have hbytes := length_utf16ToUtf8_le fileName
  have hpush : pushString (utf16ToUtf8 fileName) = .ok (utf16ToUtf8 fileName) := by
    rw [pushString_of_zero_notMem (zero_notMem_utf16ToUtf8 hbounds.1), if_neg]
    unfold hstringMaxBytelen
    omega
  have hshort : bytes.length < 2 ^ 32 := by
    unfold hbufferMaxBytelen at hsize
    omega
  have hread : JSFileSystem.readFileSync fs streams vol (utf16ToUtf8 fileName) = .ok bytes := by
    rw [JSFileSystem.readFileSync_of_file hfull (by rw [hback, hfile]) hentry hshort,
      if_neg (by omega)]
  unfold loadProgram
  rw [hpush]
  simp only [hname, if_true]
  unfold loadBytecodeFile
  rw [hread]

variable (engine)

omit [DecidableEq File] in
/-- Starting a file that holds the first `count` bytes of a dump. -/
theorem exists_appMain_of_dump
    (hfull : streams.Full) {func : CompiledFunction} {dumped : List UInt8}
    (hdump : dukDumpFunction func = .ok dumped) (hstorable : func.Storable)
    (hslots : func.slots ≤ engine.room) {count : ℕ} {path : DukString} {file : File}
    (hfile : fs.designates (utf8ToUtf16 (cString path)) = some file)
    (hentry : vol.entry file = some (.file (dumped.take count)))
    (hname : isBytecodeName (utf8ToUtf16 (cString path)) = true) {line : CommandLine}
    (hscript : (commandParts line.units)[1]? = some (utf8ToUtf16 (cString path))) :
    ∃ fuel, appMain fs streams vol engine fuel line.units = some
      (if dumped.length ≤ count then callProgram engine (func.mapParts FunctionParts.loaded)
        else if count < 2 then .returned (-1) (some (.bytecodeError decodeFailed)) none
        else .undefined) := by
  have hbounds := line.bounds_of_mem (List.mem_of_getElem? hscript)
  have hne : utf8ToUtf16 (cString path) ≠ [] := by
    intro hnil
    simp [hnil, isBytecodeName] at hname
  have hexists : fileExists fs vol (utf8ToUtf16 (cString path)) = true := by
    simp [fileExists, hfile, hentry]
  have hsize : (dumped.take count).length ≤ hbufferMaxBytelen :=
    (List.length_take_le' _ _).trans (dukDumpFunction_eq_ok_iff.mp hdump).2.1
  have hload := @loadProgram_of_file _ fs streams vol engine hfull path _ rfl hbounds
    hname file hfile _ hentry hsize
  rw [dukLoadFunction_take hdump hstorable hslots] at hload
  rcases @exists_appMain _ fs streams vol engine line _ hscript hne hexists with
    ⟨fuel, hrun⟩
  refine ⟨fuel, ?_⟩
  rw [hrun, hload]
  by_cases hall : dumped.length ≤ count
  · simp only [if_pos hall]
  · by_cases hmarker : count < 2
    · simp only [if_neg hall, if_pos hmarker]
    · simp only [if_neg hall, if_neg hmarker]

/-- A dump that has been written under a name for bytecode, in whole or in part,
and is started by that name, on a stream that reads whole files. -/
theorem appMain_of_stored_dump
    {writing reading : StreamBehaviour} (hreading : reading.Full) {next : Volume File}
    {func : CompiledFunction} {dumped : List UInt8}
    (hdump : dukDumpFunction func = .ok dumped) (hstorable : func.Storable)
    (hslots : func.slots ≤ engine.room) {data : DukValue} (hstring : ∀ s, data ≠ .string s)
    (hdata : dataBytes data = some dumped) {path : DukString}
    (hwrite : JSFileSystem.writeFileSync fs writing vol path data = (.ok (), next))
    (hname : isBytecodeName (utf8ToUtf16 (cString path)) = true) {line : CommandLine}
    (hscript : (commandParts line.units)[1]? = some (utf8ToUtf16 (cString path))) :
    ∃ fuel, appMain fs reading next engine fuel line.units = some
      (if dumped.length ≤ writing.stores dumped.length then
          callProgram engine (func.mapParts FunctionParts.loaded)
        else if writing.stores dumped.length < 2 then
          .returned (-1) (some (.bytecodeError decodeFailed)) none
        else .undefined) := by
  rcases JSFileSystem.exists_stored_of_writeFileSync hwrite with
    ⟨file, bytes, hfile, hrequested, _, hnext⟩
  rcases JSFileSystem.requested_of_bufferData hstring hdata with ⟨hbuffer, _⟩
  have hbytes : bytes = dumped := by
    rw [hrequested] at hbuffer
    exact Except.ok.inj hbuffer
  have hentry : next.entry file = some (.file (dumped.take (writing.stores dumped.length))) := by
    rw [hnext, hbytes]
    simp
  exact exists_appMain_of_dump engine hreading hdump hstorable hslots hfile hentry hname
    hscript

end Windows

/-! ## A disk that is full -/

/-- `n.exe` and `a.jsc` -/
def jscTexts : List (List UInt16) :=
  [['n', '.', 'e', 'x', 'e'], ['a', '.', 'j', 's', 'c']].map fun text =>
    text.map fun c => .ofNat c.toNat

def jscLine : CommandLine where
  units := quoted jscTexts
  zero_notMem := by decide
  fits := by decide

def jscPath : DukString := lexerString ['a', '.', 'j', 's', 'c']

/-- The streams of a disk with room for `room` bytes. -/
def streamsWithRoom (room : ℕ) : StreamBehaviour where
  openForRead := true
  openForWrite := true
  delivers := id
  stores := fun size => min size room

def protoDump : HBuffer where
  bytes := bytecodeOf protoFunction
  data := 16
  bytes_of_null := by simp
  length_le := by decide

/-- Every text is compiled to the same function, which returns. -/
def quietEngine : Engine where
  compile := fun _ _ => .ok protoFunction
  room := 64
  call := fun _ => .ok ()

/-- The volume when the dump has been written to a disk with so much room. -/
def volumeWithRoom (room : ℕ) : Volume Unit :=
  JSFileSystem.emptyVolume.setEntry ()
    (some (.file ((bytecodeOf protoFunction).take (min 75 room))))

/-- A disk with room for 128 bytes takes the dump, one with room for 16 does not. -/
theorem appMain_of_stored_dump_full :
    (∃ fuel, appMain JSFileSystem.singleFile JSFileSystem.fullStreams (volumeWithRoom 128)
      quietEngine fuel jscLine.units =
        some (callProgram quietEngine (protoFunction.mapParts FunctionParts.loaded))) ∧
    ∃ fuel, appMain JSFileSystem.singleFile JSFileSystem.fullStreams (volumeWithRoom 16)
      quietEngine fuel jscLine.units = some .undefined := by
  have hlength : (bytecodeOf protoFunction).length = 75 := by decide
  have hrequested : JSFileSystem.requested (.buffer protoDump) =
      .ok (bytecodeOf protoFunction) := rfl
  have hwrite (room : ℕ) : JSFileSystem.writeFileSync JSFileSystem.singleFile
      (streamsWithRoom room) JSFileSystem.emptyVolume jscPath (.buffer protoDump) =
        (.ok (), volumeWithRoom room) := by
    unfold JSFileSystem.writeFileSync
    simp [hrequested, hlength, JSFileSystem.singleFile, streamsWithRoom,
      JSFileSystem.emptyVolume, volumeWithRoom]
  have hscript : (commandParts jscLine.units)[1]? = some (utf8ToUtf16 (cString jscPath)) := by
    decide
  have hrun (room : ℕ) := appMain_of_stored_dump quietEngine JSFileSystem.full_fullStreams
    dukDumpFunction_protoFunction storable_protoFunction
    (show protoFunction.slots ≤ 64 by decide) (by simp) rfl (hwrite room) (by decide) hscript
  constructor
  · simpa [hlength, streamsWithRoom] using hrun 128
  · simpa [hlength, streamsWithRoom] using hrun 16

end NekoScript
