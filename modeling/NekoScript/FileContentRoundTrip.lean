import NekoScript.JSFileSystem
import Mathlib.Tactic

/-!
# Writing a file and reading it back

`writeFileSync` takes the size of a string from `duk_get_length`, which counts
characters, and the bytes from `duk_get_string`.  What is stored is therefore a
prefix of the string's bytes, and all of them only if every character is one
byte long.
-/

namespace NekoScript

namespace JSFileSystem

variable {File : Type} [DecidableEq File]

omit [DecidableEq File] in
/-- A file that exists is read into a buffer of zeros, which the engine may
refuse. -/
theorem readFileSync_of_exists
    (fs : FileSystem File) (streams : StreamBehaviour) (vol : Volume File)
    (fn : DukString)
    (hexists : fileExists fs vol (utf8ToUtf16 (cString fn)) = true)
    (hopen : streams.openForRead = true) {contents : List UInt8}
    (hcontents : fileBytes fs vol (utf8ToUtf16 (cString fn)) = contents) :
    readFileSync fs streams vol fn =
      if contents.length % 2 ^ 32 > hbufferMaxBytelen then
        .error (.rangeError (lexerString "buffer too long".toList))
      else
        let size := contents.length % 2 ^ 32
        let read := (contents.take size).take (streams.delivers size)
        .ok (read ++ (List.replicate size 0).drop read.length) := by
  have hsize : (tellEnd fs streams vol (utf8ToUtf16 (cString fn)) % 2 ^ 32).toNat =
      contents.length % 2 ^ 32 := by
    unfold tellEnd
    rw [if_pos hopen, hcontents]
    omega
  unfold readFileSync
  simp only [hexists, Bool.not_true, Bool.false_eq_true, if_false, hsize, hcontents,
    hopen, if_true]
  unfold pushFixedBuffer
  split <;> rfl

omit [DecidableEq File] in
theorem readFileSync_of_file
    {fs : FileSystem File} {streams : StreamBehaviour} (hfull : streams.Full)
    {vol : Volume File} {fn : DukString} {file : File}
    (hname : fs.designates (utf8ToUtf16 (cString fn)) = some file)
    {bytes : List UInt8} (hentry : vol.entry file = some (.file bytes))
    (hshort : bytes.length < 2 ^ 32) :
    readFileSync fs streams vol fn =
      if bytes.length > hbufferMaxBytelen then
        .error (.rangeError (lexerString "buffer too long".toList))
      else .ok bytes := by
  have hexists : fileExists fs vol (utf8ToUtf16 (cString fn)) = true := by
    simp [fileExists, hname, hentry]
  have hbytes : fileBytes fs vol (utf8ToUtf16 (cString fn)) = bytes := by
    simp [fileBytes, hname, hentry]
  have hsize : bytes.length % 2 ^ 32 = bytes.length := Nat.mod_eq_of_lt hshort
  have hall : (bytes.take bytes.length).take (streams.delivers bytes.length) =
      bytes := by
    rw [List.take_length]
    exact List.take_of_length_le (hfull.delivers _)
  have hfilled : bytes ++ (List.replicate bytes.length (0 : UInt8)).drop bytes.length =
      bytes := by
    rw [List.drop_of_length_le (by simp), List.append_nil]
  rw [readFileSync_of_exists fs streams vol fn hexists hfull.opens hbytes, hsize]
  simp only [hall, hfilled]

theorem exists_stored_of_writeFileSync
    {fs : FileSystem File} {streams : StreamBehaviour} {vol next : Volume File}
    {fn : DukString} {data : DukValue}
    (hwrite : writeFileSync fs streams vol fn data = (.ok (), next)) :
    ∃ file bytes, fs.designates (utf8ToUtf16 (cString fn)) = some file ∧
      requested data = .ok bytes ∧
      (streams.openForWrite = true ∧ vol.refuses file = false ∧
        vol.entry file ≠ some .directory) ∧
      next = vol.setEntry file
        (some (.file (bytes.take (streams.stores bytes.length)))) := by
  unfold writeFileSync at hwrite
  cases hrequested : requested data with
  | error e => simp [hrequested] at hwrite
  | ok bytes =>
      cases hname : fs.designates (utf8ToUtf16 (cString fn)) with
      | none => simp [hrequested, hname] at hwrite
      | some file =>
          simp only [hrequested, hname] at hwrite
          by_cases hopen : streams.openForWrite = true ∧
              vol.refuses file = false ∧ vol.entry file ≠ some .directory
          · rw [if_pos hopen] at hwrite
            exact ⟨file, bytes, rfl, rfl, hopen, (Prod.mk.inj hwrite).2.symm⟩
          · rw [if_neg hopen] at hwrite
            simp at hwrite

theorem of_writeFileSync_ok
    {fs : FileSystem File} {streams : StreamBehaviour} (hfull : streams.Full)
    {vol next : Volume File} {fn : DukString} {data : DukValue}
    (hwrite : writeFileSync fs streams vol fn data = (.ok (), next)) :
    ∃ file bytes, fs.designates (utf8ToUtf16 (cString fn)) = some file ∧
      requested data = .ok bytes ∧ vol.refuses file = false ∧
      next = vol.setEntry file (some (.file bytes)) := by
  rcases exists_stored_of_writeFileSync hwrite with
    ⟨file, bytes, hname, hrequested, hopen, hnext⟩
  have hall : bytes.take (streams.stores bytes.length) = bytes :=
    List.take_of_length_le (hfull.stores _)
  rw [hall] at hnext
  exact ⟨file, bytes, hname, hrequested, hopen.2.1, hnext⟩

theorem length_le_of_bufferData
    {data : DukValue} {pointer : ℕ} {bytes : List UInt8}
    (hdata : data.bufferData = some (pointer, bytes)) :
    bytes.length ≤ hbufferMaxBytelen := by
  cases data with
  | buffer h =>
      have hbytes : h.bytes = bytes := by
        simpa [DukValue.bufferData] using congrArg (Option.map Prod.snd) hdata
      rw [← hbytes]
      exact h.length_le
  | bufferObject h =>
      unfold DukValue.bufferData at hdata
      cases hbuf : h.buf with
      | none => simp [hbuf] at hdata
      | some buf =>
          simp only [hbuf] at hdata
          split at hdata
          · have hbytes := (Prod.mk.inj (Option.some.inj hdata)).2
            have hlength := buf.length_le
            rw [← hbytes, List.length_take, List.length_drop]
            omega
          · contradiction
  | _ => simp [DukValue.bufferData] at hdata

end JSFileSystem

/-- The bytes of a string or buffer. -/
def dataBytes : DukValue → Option (List UInt8)
  | .string h => some h.bytes
  | data => data.bufferData.map Prod.snd

/-- Whatever `writeFileSync` stored without an error, `readFileSync` returns as
the bytes of `data`. -/
def ReadsBackWritten (path : DukString) (data : DukValue) : Prop :=
  ∀ (File : Type) [DecidableEq File] (fs : FileSystem File)
    (streams : StreamBehaviour) (vol next : Volume File) (bytes : List UInt8),
    streams.Full → dataBytes data = some bytes →
    JSFileSystem.writeFileSync fs streams vol path data = (.ok (), next) →
    JSFileSystem.readFileSync fs streams next path = .ok bytes

def OneBytePerCharacter (s : HString) : Prop :=
  ∀ x ∈ s.bytes, ¬ (0x80 ≤ x ∧ x ≤ 0xbf)

namespace JSFileSystem

/-- One file that can always be opened. -/
def singleFile : FileSystem Unit where
  designates := fun _ => some ()
  codePage := fun _ => []
  moveDirectory := fun vol _ _ => vol

def emptyVolume : Volume Unit where
  entry := fun _ => none
  refuses := fun _ => false

def fullStreams : StreamBehaviour where
  openForRead := true
  openForWrite := true
  delivers := id
  stores := id

theorem full_fullStreams : fullStreams.Full :=
  ⟨rfl, fun _ => le_rfl, fun _ => le_rfl⟩

theorem writeFileSync_singleFile
    {data : DukValue} {bytes : List UInt8} (hrequested : requested data = .ok bytes)
    (path : DukString) :
    writeFileSync singleFile fullStreams emptyVolume path data =
      (.ok (), emptyVolume.setEntry () (some (.file bytes))) := by
  unfold writeFileSync
  simp [hrequested, singleFile, fullStreams, emptyVolume]

theorem requested_string (s : HString) :
    requested (.string s) =
      .ok (s.bytes.take (unvalidatedUtf8Length s.bytes)) := by
  have hle := unvalidatedUtf8Length_le s.bytes
  have htaken : (s.bytes ++ [0]).take (unvalidatedUtf8Length s.bytes) =
      s.bytes.take (unvalidatedUtf8Length s.bytes) :=
    List.take_append_of_le_length hle
  exact congrArg Except.ok htaken

theorem requested_of_bufferData
    {data : DukValue} {bytes : List UInt8}
    (hstring : ∀ s, data ≠ .string s) (hdata : dataBytes data = some bytes) :
    requested data = .ok bytes ∧ bytes.length ≤ hbufferMaxBytelen := by
  have hmap : data.bufferData.map Prod.snd = some bytes := by
    cases data with
    | string s => exact absurd rfl (hstring s)
    | _ => simpa [dataBytes] using hdata
  rw [Option.map_eq_some_iff] at hmap
  rcases hmap with ⟨⟨pointer, stored⟩, hbuffer, rfl⟩
  have hrequire : data.requireBufferData 1 = .ok stored := by
    simp [DukValue.requireBufferData, hbuffer]
  constructor
  · cases data with
    | string s => exact absurd rfl (hstring s)
    | _ => exact hrequire
  · exact length_le_of_bufferData hbuffer

theorem readsBackWritten_of_requested
    {path : DukString} {data : DukValue} {bytes : List UInt8}
    (hdata : dataBytes data = some bytes) (hrequested : requested data = .ok bytes)
    (hlength : bytes.length ≤ hbufferMaxBytelen) :
    ReadsBackWritten path data := by
  intro File _ fs streams vol next read hfull hread hwrite
  have heq : read = bytes := by
    rw [hdata] at hread
    exact (Option.some.inj hread).symm
  obtain ⟨file, stored, hname, hstored, _, rfl⟩ := of_writeFileSync_ok hfull hwrite
  have hstoredEq : stored = bytes := by
    rw [hrequested] at hstored
    exact (Except.ok.inj hstored).symm
  subst read stored
  have hshort : bytes.length < 2 ^ 32 := by
    unfold hbufferMaxBytelen at hlength
    omega
  rw [readFileSync_of_file hfull hname (by simp) hshort]
  rw [if_neg (by omega)]

theorem requested_of_readsBackWritten
    {path : DukString} {s : HString}
    (hround : ReadsBackWritten path (.string s)) :
    s.bytes.take (unvalidatedUtf8Length s.bytes) = s.bytes ∧
      s.bytes.length ≤ hbufferMaxBytelen := by
  set stored := s.bytes.take (unvalidatedUtf8Length s.bytes) with hstored
  have hwrite := writeFileSync_singleFile (requested_string s) path
  have hread := hround Unit singleFile fullStreams emptyVolume _ s.bytes
    full_fullStreams rfl hwrite
  have hle : stored.length ≤ s.bytes.length := List.length_take_le' _ _
  have hshort : stored.length < 2 ^ 32 := by
    have hmax := s.length_le
    unfold hstringMaxBytelen at hmax
    omega
  have hfile : (emptyVolume.setEntry () (some (.file stored))).entry () =
      some (.file stored) := by simp
  rw [readFileSync_of_file full_fullStreams rfl hfile hshort] at hread
  by_cases hlong : stored.length > hbufferMaxBytelen
  · rw [if_pos hlong] at hread
    contradiction
  · rw [if_neg hlong] at hread
    have heq : stored = s.bytes := Except.ok.inj hread
    refine ⟨heq, ?_⟩
    rw [← heq]
    omega

end JSFileSystem

open JSFileSystem in
/-- What was written is read back exactly for buffers, and for strings without
a character of several bytes that fit in a buffer. -/
theorem readsBackWritten_iff (path : DukString) (data : DukValue) :
    ReadsBackWritten path data ↔
      ∀ s, data = .string s →
        OneBytePerCharacter s ∧ s.bytes.length ≤ hbufferMaxBytelen := by
  constructor
  · rintro hround s rfl
    obtain ⟨htake, hlength⟩ := requested_of_readsBackWritten hround
    refine ⟨?_, hlength⟩
    have hle := unvalidatedUtf8Length_le s.bytes
    have hcount : unvalidatedUtf8Length s.bytes = s.bytes.length := by
      have hlen := congrArg List.length htake
      rw [List.length_take] at hlen
      omega
    exact (unvalidatedUtf8Length_eq_length_iff s.bytes).mp hcount
  · intro hcondition
    by_cases hstring : ∃ s, data = .string s
    · rcases hstring with ⟨s, rfl⟩
      obtain ⟨hone, hlength⟩ := hcondition s rfl
      have hcount := (unvalidatedUtf8Length_eq_length_iff s.bytes).mpr hone
      apply readsBackWritten_of_requested rfl _ hlength
      rw [requested_string, hcount, List.take_length]
    · cases hdata : dataBytes data with
      | none =>
          intro File _ fs streams vol next bytes _ hbytes _
          rw [hdata] at hbytes
          contradiction
      | some bytes =>
          obtain ⟨hrequested, hlength⟩ := requested_of_bufferData
            (fun s heq => hstring ⟨s, heq⟩) hdata
          exact readsBackWritten_of_requested hdata hrequested hlength

/-- The last byte of U+00E9 is lost. -/
theorem not_readsBackWritten_of_two_byte_character :
    let data : HString := ⟨lexerString ['é'], 16, by decide, by decide⟩
    let next := JSFileSystem.emptyVolume.setEntry () (some (.file [0xC3]))
    JSFileSystem.writeFileSync JSFileSystem.singleFile JSFileSystem.fullStreams
        JSFileSystem.emptyVolume (lexerString ['f']) (.string data) =
          (.ok (), next) ∧
      ¬ ReadsBackWritten (lexerString ['f']) (.string data) := by
  intro data next
  constructor
  · exact JSFileSystem.writeFileSync_singleFile rfl _
  · intro hround
    have htake := (JSFileSystem.requested_of_readsBackWritten hround).1
    revert htake
    decide

end NekoScript
