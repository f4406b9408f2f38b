import NekoScript.DuktapeValues
import NekoScript.HelperConversions
import Mathlib.Tactic

/-!
# The natives of `fs`

Files are reached in two ways.  The streams and `GetFileAttributes` take UTF-16
names; `DeleteFileA` and `MoveFileA` decode their argument with the ANSI code
page.  What the streams do with the bytes is described for each call: whether
they open, and how many of the bytes asked for they transfer.
-/

namespace NekoScript

inductive VolumeEntry where
  | file (bytes : List UInt8)
  | directory
  deriving DecidableEq, Repr

/-- What is stored, and for which files Windows refuses to write, delete or
move. -/
structure Volume (File : Type) where
  entry : File → Option VolumeEntry
  refuses : File → Bool

/-- The file a UTF-16 name designates, the decoding of the system code page,
and what happens to the names below a directory that is moved. -/
structure FileSystem (File : Type) where
  designates : List UInt16 → Option File
  codePage : List UInt8 → List UInt16
  moveDirectory : Volume File → File → File → Volume File

/-- How the streams of a call behave.  A stream that cannot seek to its end
counts as not open; `delivers` and `stores` give how many bytes are transferred
of those requested, the flush and the close included. -/
structure StreamBehaviour where
  openForRead : Bool
  openForWrite : Bool
  delivers : ℕ → ℕ
  stores : ℕ → ℕ

structure StreamBehaviour.Full (streams : StreamBehaviour) : Prop where
  opens : streams.openForRead = true
  delivers : ∀ size, size ≤ streams.delivers size
  stores : ∀ size, size ≤ streams.stores size

variable {File : Type} [DecidableEq File]

def Volume.setEntry (vol : Volume File) (file : File) (entry : Option VolumeEntry) :
    Volume File :=
  { vol with entry := Function.update vol.entry file entry }

@[simp]
theorem Volume.setEntry_entry
    (vol : Volume File) (file : File) (entry : Option VolumeEntry) :
    (vol.setEntry file entry).entry = Function.update vol.entry file entry := rfl

section Windows

variable (fs : FileSystem File) (vol : Volume File)

def deleteFileA (name : List UInt8) : Option (Volume File) :=
  match fs.designates (fs.codePage name) with
  | none => none
  | some file =>
      match vol.entry file with
      | some (.file _) =>
          if vol.refuses file then none else some (vol.setEntry file none)
      | _ => none

/-- `MoveFileA`.  A move onto itself changes nothing. -/
def moveFileA (existing new : List UInt8) : Option (Volume File) :=
  match fs.designates (fs.codePage existing), fs.designates (fs.codePage new) with
  | some source, some target =>
      if source = target then
        if (vol.entry source).isSome then some vol else none
      else if (vol.entry target).isSome then none
      else if vol.refuses source || vol.refuses target then none
      else
        match vol.entry source with
        | some (.file bytes) =>
            some ((vol.setEntry source none).setEntry target (some (.file bytes)))
        | some .directory => some (fs.moveDirectory vol source target)
        | none => none
  | _, _ => none

omit [DecidableEq File] in
/-- `FileExists`: there is something of that name, and it is no directory. -/
def fileExists (name : List UInt16) : Bool :=
  match (fs.designates name).bind vol.entry with
  | some (.file _) => true
  | _ => false

omit [DecidableEq File] in
def fileBytes (name : List UInt16) : List UInt8 :=
  match (fs.designates name).bind vol.entry with
  | some (.file bytes) => bytes
  | _ => []

end Windows

def errorMessage (text : List Char) (fn : DukString) : DukString :=
  lexerString text ++ cString fn

namespace JSFileSystem

variable (fs : FileSystem File) (streams : StreamBehaviour) (vol : Volume File)

omit [DecidableEq File] in
def existsSync (fn : DukString) : Bool :=
  fileExists fs vol (utf8ToUtf16 (cString fn))

omit [DecidableEq File] in
/-- `tellg` after seeking to the end; -1 if the stream did not open. -/
def tellEnd (fname : List UInt16) : ℤ :=
  if streams.openForRead then (fileBytes fs vol fname).length else -1

omit [DecidableEq File] in
def readFileSync (fn : DukString) : Except JSError (List UInt8) :=
  let fname := utf8ToUtf16 (cString fn)
  if !fileExists fs vol fname then
    .error (.apiError (errorMessage "File not found: ".toList fn))
  else do
    -- `size_t size = t.tellg()` keeps the low 32 bits
    let size := (tellEnd fs streams vol fname % 2 ^ 32).toNat
    let buffer ← pushFixedBuffer size
    let bytes :=
      if streams.openForRead then
        ((fileBytes fs vol fname).take size).take (streams.delivers size)
      else []
    return bytes ++ buffer.drop bytes.length

/-- What `writeFileSync` hands to the stream: `sz` bytes from `ptr`. -/
def requested (data : DukValue) : Except JSError (List UInt8) :=
  match data with
  | .string h =>
      let sz := unvalidatedUtf8Length h.bytes
      .ok ((h.bytes ++ [0]).take sz)
  | _ => data.requireBufferData 1

def writeFileSync (fn : DukString) (data : DukValue) :
    Except JSError Unit × Volume File :=
  match requested data with
  | .error e => (.error e, vol)
  | .ok bytes =>
      let fname := utf8ToUtf16 (cString fn)
      let failed : Except JSError Unit × Volume File :=
        (.error (.apiError
          (errorMessage "Stream cannot be opened for write: ".toList fn)), vol)
      match fs.designates fname with
      | none => failed
      | some file =>
          if streams.openForWrite = true ∧ vol.refuses file = false ∧
              vol.entry file ≠ some .directory then
            (.ok (), vol.setEntry file
              (some (.file (bytes.take (streams.stores bytes.length)))))
          else failed

def unlinkSync (fn : DukString) : Except JSError Unit × Volume File :=
  match deleteFileA fs vol (cString fn) with
  | some next => (.ok (), next)
  | none =>
      (.error (.apiError (errorMessage "Can't delete file: ".toList fn)), vol)

def renameSync (oldFn newFn : DukString) : Except JSError Unit × Volume File :=
  match moveFileA fs vol (cString oldFn) (cString newFn) with
  | some next => (.ok (), next)
  | none =>
      (.error (.apiError (errorMessage "Can't move file: ".toList oldFn ++
        errorMessage " to ".toList newFn)), vol)

end JSFileSystem

end NekoScript
