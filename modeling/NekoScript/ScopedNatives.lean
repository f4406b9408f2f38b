import NekoScript.Programs
import NekoScript.ResourceOwnership
import NekoScript.StringExchange
import Mathlib.Tactic

/-!
# The natives that open a `JSThrowScope`

Their bodies are programs over what must be released, over calls of the engine
that may raise an error, and over calls of Windows.  An error recorded in the
scope is raised when the scope and the recorded arguments have been freed; one
that the engine raises leaves the native at once.
-/

namespace NekoScript

open Programs ResourceOwnership

inductive ResourceKind where
  | throwScope | argv | findHandle | chars
  deriving DecidableEq, Repr

structure NativeResource where
  kind : ResourceKind
  id : ℕ
  deriving DecidableEq, Repr

inductive ScopeError where
  | engine (error : JSError)
  /-- The error object of `JSPushWin32ErrorObject`. -/
  | win32 (code : ℕ) (function : Option String)
  deriving DecidableEq, Repr

/-- The calls of the engine in these bodies that may fail. -/
inductive EngineCall where
  | pushArray
  | pushString (bytes : DukString)
  | putPropIndex (index : ℕ)
  | pushFixedBuffer (size : ℕ)
  deriving DecidableEq, Repr

inductive ScopeOp where
  | new (kind : ResourceKind)
  | delete (resource : NativeResource)
  | throw (error : ScopeError)
  | engine (call : EngineCall)
  | getLastError
  | getFullPathName (path : List UInt16)
  | findFirstFile (pattern : List UInt16)
  | findNextFile (handle : NativeResource)
  | getFileVersionInfoSize (file : List UInt16)
  | getFileVersionInfo (file : List UInt16) (handle size : ℕ) (data : NativeResource)

/-- `GetFileVersionInfoSize` answers with the size and the handle, and
`FindFirstFile` with the handle, the first name, and the names that
`FindNextFile` will find. -/
@[reducible] def ScopeOp.Answer : ScopeOp → Type
  | .new _ => NativeResource
  | .throw _ => Empty
  | .getLastError => ℕ
  | .getFullPathName _ => ℕ × List UInt16
  | .findFirstFile _ =>
      Option (NativeResource × List UInt16 × List (List UInt16))
  | .getFileVersionInfoSize _ => ℕ × ℕ
  | .getFileVersionInfo _ _ _ _ => Bool
  | _ => Unit

abbrev ScopedProgram (α : Type) := Program ScopeOp ScopeOp.Answer α

def scopeOp (op : ScopeOp) : ScopedProgram op.Answer :=
  .perform op .pure

def raiseError {α : Type} (error : ScopeError) : ScopedProgram α :=
  .perform (.throw error) fun answer => nomatch answer

def require {α : Type} : Except JSError α → ScopedProgram α
  | .ok value => .pure value
  | .error e => raiseError (.engine e)

/-! ## The scope -/

/-- What `JSThrowScope_t::set` has stored. -/
structure Recorded where
  argv : ℕ
  error : ScopeError

/-- `JSThrowScope`, a body, and `JSThrowScopeEnd`. -/
def throwScope {α : Type} (body : ScopedProgram (Except Recorded α)) :
    ScopedProgram α := do
  let scope : NativeResource ← scopeOp (.new .throwScope)
  let result ← body
  scopeOp (.delete scope)
  match result with
  | .ok value => pure value
  | .error recorded => do
      scopeOp (.delete ⟨.argv, recorded.argv⟩)
      raiseError recorded.error

def jsThrowScopeWin32Error {α : Type} (code : ℕ) (func : String) :
    ScopedProgram (Except Recorded α) := do
  let argv : NativeResource ← scopeOp (.new .argv)
  pure (.error ⟨argv.id, .win32 code (some func)⟩)

def jsThrowScopeWin32ErrorLast {α : Type} (func : String) :
    ScopedProgram (Except Recorded α) := do
  let code : ℕ ← scopeOp .getLastError
  jsThrowScopeWin32Error code func

/-! ## The natives -/

/-- `MAX_PATH` -/
def maxPath : ℕ := 260

/-- `ERROR_FILE_NOT_FOUND` -/
def errorFileNotFound : ℕ := 2

/-- `ERROR_NO_MORE_FILES` -/
def errorNoMoreFiles : ℕ := 18

/-- `ERROR_FILENAME_EXCED_RANGE` -/
def errorFilenameExcedRange : ℕ := 206

/-- What a native pushes or returns. -/
inductive NativeResult where
  | names (names : List DukString)
  | buffer (bytes : List UInt8)
  | string (bytes : DukString)
  | versionInfo (file : List UInt16) (verHandle verSize : ℕ) (verData : Option ℕ)

/-- The system code page. -/
structure CodePage where
  encode : List UInt16 → List UInt8
  decode : List UInt8 → List UInt16

namespace JSFileSystem

/-- A name that starts with a dot is not listed.  `Array.prototype` is as the
engine makes it, so that the put of an entry meets no setter. -/
def putFile (i : ℕ) (cFileName : List UInt16) : ScopedProgram (List DukString) :=
  if cFileName.head? ≠ some 0x2E then do
    let name := cString (utf16ToUtf8 cFileName)
    scopeOp (.engine (.pushString name))
    scopeOp (.engine (.putPropIndex i))
    pure [name]
  else pure []

/-- The loop over `FindNextFile`, which fails when there is no more. -/
def listFiles (hFind : NativeResource) :
    (i : ℕ) → (cFileName : List UInt16) → (more : List (List UInt16)) →
      ScopedProgram (List DukString)
  | i, cFileName, [] => do
      let names ← putFile i cFileName
      scopeOp (.findNextFile hFind)
      pure names
  | i, cFileName, next :: more => do
      let names ← putFile i cFileName
      scopeOp (.findNextFile hFind)
      let others ← listFiles hFind (i + names.length) next more
      pure (names ++ others)

/-- The part of `readdirSync` after `FindFirstFile`. -/
def readFound : Option (NativeResource × List UInt16 × List (List UInt16)) →
    ScopedProgram (Except Recorded NativeResult)
  | none => do
      let code : ℕ ← scopeOp .getLastError
      if code ≠ errorFileNotFound then jsThrowScopeWin32ErrorLast "FindFirstFile"
      else pure (.ok (.names []))
  | some (hFind, first, more) => do
      let names ← listFiles hFind 0 first more
      let code : ℕ ← scopeOp .getLastError
      if code ≠ errorNoMoreFiles then jsThrowScopeWin32ErrorLast "FindNextFile"
      else pure (.ok (.names names))

def readDirectory (fn : DukString) :
    ScopedProgram (Except Recorded NativeResult) := do
  if unvalidatedUtf8Length fn > maxPath - 1 then
    raiseError (.win32 errorFilenameExcedRange none)
  else
    let full : ℕ × List UInt16 ←
      scopeOp (.getFullPathName (utf8ToUtf16 (cString fn)))
    if full.1 = 0 ∨ full.1 ≥ maxPath then
      jsThrowScopeWin32ErrorLast "GetFullPathName"
    else
      scopeOp (.engine .pushArray)
      let found ← scopeOp (.findFirstFile (full.2 ++ [0x5C, 0x2A]))
      readFound found

def readdirSync (arg : DukValue) : ScopedProgram NativeResult := do
  let fn ← require (arg.requireString 0)
  throwScope (readDirectory fn)

end JSFileSystem

namespace NKWinAPI

variable (codePage : CodePage) (beyond : ℕ → UInt8)

/-- The size is an `unsigned int`. -/
def pushTerminated (bytes : List UInt8) : ScopedProgram (Except Recorded NativeResult) := do
  let size := bytes.length % 2 ^ 32
  scopeOp (.engine (.pushFixedBuffer size))
  pure (.ok (.buffer (bytes.take size)))

def pushCString (bytes : DukString) : ScopedProgram (Except Recorded NativeResult) := do
  scopeOp (.engine (.pushString (cString bytes)))
  pure (.ok (.string (cString bytes)))

def toWString (arg : DukValue) : ScopedProgram NativeResult := do
  let str ← require (arg.requireString 0)
  throwScope (pushTerminated (wcharBytes (utf8ToUtf16 (cString str) ++ [0])))

/-- As in `NekoScript.fromWString`, `size` is taken for a number of units. -/
def fromWString (arg : DukValue) : ScopedProgram NativeResult := do
  let str ← require (arg.requireBufferData (-1))
  let size := str.length
  let memory := str ++ (List.range size).map beyond
  throwScope (pushCString (utf16ToUtf8 ((wchars memory).take size)))

def toAString (arg : DukValue) : ScopedProgram NativeResult := do
  let str ← require (arg.requireString 0)
  throwScope (pushTerminated
    (convertBySize codePage.encode (utf8ToUtf16 (cString str)) ++ [0]))

def fromAString (arg : DukValue) : ScopedProgram NativeResult := do
  let str ← require (arg.requireBufferData (-1))
  throwScope (pushCString (utf16ToUtf8 (convertBySize codePage.decode str)))

end NKWinAPI

namespace NKWinVersionInfo

/-- The variables that the body of `tryConstruct` sets. -/
structure Variables where
  verHandle : ℕ
  verSize : ℕ
  verData : Option ℕ

def readVersionInfo (file : List UInt16) :
    ScopedProgram (Except Recorded Variables) := do
  let size : ℕ × ℕ ← scopeOp (.getFileVersionInfoSize file)
  if size.1 = 0 then jsThrowScopeWin32ErrorLast "GetFileVersionInfoSize"
  else
    let verData : NativeResource ← scopeOp (.new .chars)
    let filled : Bool ← scopeOp (.getFileVersionInfo file size.2 size.1 verData)
    if !filled then
      scopeOp (.delete verData)
      jsThrowScopeWin32ErrorLast "GetFileVersionInfo"
    else pure (.ok ⟨size.2, size.1, some verData.id⟩)

def tryConstruct (arg : DukValue) : ScopedProgram NativeResult := do
  let filename ← require (arg.requireString 0)
  let file := utf8ToUtf16 (cString filename)
  let vars : Variables ← throwScope (readVersionInfo file)
  pure (.versionInfo file vars.verHandle vars.verSize vars.verData)

end NKWinVersionInfo

inductive ScopedNative where
  | readdirSync | toWString | fromWString | toAString | fromAString | versionInfo
  deriving DecidableEq, Repr

def ScopedNative.call (codePage : CodePage) (beyond : ℕ → UInt8) :
    ScopedNative → DukValue → ScopedProgram NativeResult
  | .readdirSync => JSFileSystem.readdirSync
  | .toWString => NKWinAPI.toWString
  | .fromWString => NKWinAPI.fromWString beyond
  | .toAString => NKWinAPI.toAString codePage
  | .fromAString => NKWinAPI.fromAString codePage
  | .versionInfo => NKWinVersionInfo.tryConstruct

/-! ## Runs -/

/-- How Windows and the engine answer.  Errors of the engine and last errors
are given by the number of engine calls made so far. -/
structure ScopeEnvironment where
  engine : ℕ → EngineCall → Option JSError
  lastError : ℕ → ℕ
  fullPathName : List UInt16 → ℕ × List UInt16
  findFirstFile : List UInt16 → Option (List UInt16 × List (List UInt16))
  fileVersionInfoSize : List UInt16 → ℕ × ℕ
  fileVersionInfo : List UInt16 → ℕ → ℕ → Bool

/-- A call fails when what it pushes is too long, and whenever the engine fails
for another reason. -/
def ScopeEnvironment.raises (env : ScopeEnvironment) (calls : ℕ) :
    EngineCall → Option JSError
  | .pushFixedBuffer size =>
      match NekoScript.pushFixedBuffer size with
      | .error e => some e
      | .ok _ => env.engine calls (.pushFixedBuffer size)
  | .pushString bytes =>
      if bytes.length > hstringMaxBytelen then
        some (.rangeError (lexerString "string too long".toList))
      else env.engine calls (.pushString bytes)
  | call => env.engine calls call

structure ScopeRun where
  history : History NativeResource
  next : ℕ
  calls : ℕ

namespace ScopeRun

def acquire (kind : ResourceKind) (s : ScopeRun) : ScopeRun :=
  { s with history := .acquired ⟨kind, s.next⟩ :: s.history, next := s.next + 1 }

def use (resource : NativeResource) (s : ScopeRun) : ScopeRun :=
  { s with history := .used resource :: s.history }

def release (resource : NativeResource) (s : ScopeRun) : ScopeRun :=
  { s with history := .released resource :: s.history }

def first : ScopeRun := ⟨[], 0, 0⟩

end ScopeRun

def performScopeOp (env : ScopeEnvironment) :
    (op : ScopeOp) → ScopeRun → Except ScopeError op.Answer × ScopeRun
  | .new kind, s => (.ok ⟨kind, s.next⟩, s.acquire kind)
  | .delete resource, s => (.ok (), s.release resource)
  | .throw error, s => (.error error, s)
  | .engine call, s =>
      match env.raises s.calls call with
      | some e => (.error (.engine e), { s with calls := s.calls + 1 })
      | none => (.ok (), { s with calls := s.calls + 1 })
  | .getLastError, s => (.ok (env.lastError s.calls), s)
  | .getFullPathName path, s => (.ok (env.fullPathName path), s)
  | .findFirstFile pattern, s =>
      match env.findFirstFile pattern with
      | none => (.ok none, s)
      | some (found, more) =>
          (.ok (some (⟨.findHandle, s.next⟩, found, more)), s.acquire .findHandle)
  | .findNextFile handle, s => (.ok (), s.use handle)
  | .getFileVersionInfoSize file, s => (.ok (env.fileVersionInfoSize file), s)
  | .getFileVersionInfo file handle size _, s =>
      (.ok (env.fileVersionInfo file handle size), s)

/-- A native called with `arg`. -/
def ScopedNative.run (codePage : CodePage) (beyond : ℕ → UInt8)
    (env : ScopeEnvironment) (native : ScopedNative) (arg : DukValue) :
    Except ScopeError NativeResult × ScopeRun :=
  (native.call codePage beyond arg).exec (performScopeOp env) .first

/-- The buffers that a result owns. -/
def NativeResult.owns : NativeResult → List NativeResource
  | .versionInfo _ _ _ verData => verData.toList.map fun id => ⟨.chars, id⟩
  | _ => []

def handedOver : Except ScopeError NativeResult → List NativeResource
  | .ok result => result.owns
  | .error _ => []

/-- At the exit, whatever was acquired and is not owned by the result has been
released exactly once. -/
def LeavesNothing (exit : Except ScopeError NativeResult × ScopeRun) : Prop :=
  ∀ resource, .acquired resource ∈ exit.2.history → resource ∉ handedOver exit.1 →
    exit.2.history.releases resource = 1

end NekoScript
