import NekoScript.FileContentRoundTrip
import Mathlib.Tactic

/-!
# Streams that fail

Neither `readFileSync` nor `writeFileSync` looks at the state of its stream
after the transfer.  A read that stops early leaves zeros in the buffer, a file
of 4 GiB or more is cut to the low 32 bits of its size, and a write that stops
early is not noticed.
-/

namespace NekoScript

namespace JSFileSystem

variable {File : Type} [DecidableEq File] (fs : FileSystem File)
  (streams : StreamBehaviour) (vol : Volume File) (fn : DukString)

/-- What `readFileSync` returns is the contents of the file. -/
def ReadReportsFailure : Prop :=
  ∀ result, readFileSync fs streams vol fn = .ok result →
    result = fileBytes fs vol (utf8ToUtf16 (cString fn))

/-- Once `writeFileSync` returns, all that it was asked to write is stored. -/
def WriteReportsFailure (data : DukValue) : Prop :=
  ∀ next, writeFileSync fs streams vol fn data = (.ok (), next) →
    ∃ file bytes, fs.designates (utf8ToUtf16 (cString fn)) = some file ∧
      requested data = .ok bytes ∧ next.entry file = some (.file bytes)

/-- If the file is opened and a buffer of the size computed can be had, then
the size is right and the bytes that are not transferred are zero. -/
def ReadFailureShows (contents : List UInt8) : Prop :=
  streams.openForRead = true → contents.length % 2 ^ 32 ≤ hbufferMaxBytelen →
    contents.length < 2 ^ 32 ∧
      ∀ byte ∈ contents.drop (streams.delivers contents.length), byte = 0

/-- If the file is opened, then all bytes are transferred. -/
def WriteFailureShows (data : DukValue) : Prop :=
  ∀ bytes file, requested data = .ok bytes →
    fs.designates (utf8ToUtf16 (cString fn)) = some file →
    streams.openForWrite = true → vol.refuses file = false →
    vol.entry file ≠ some .directory →
    bytes.length ≤ streams.stores bytes.length

omit [DecidableEq File] in
theorem fileBytes_of_not_exists
    (hexists : fileExists fs vol (utf8ToUtf16 (cString fn)) = false) :
    fileBytes fs vol (utf8ToUtf16 (cString fn)) = [] := by
  unfold fileExists at hexists
  unfold fileBytes
  cases hentry : (fs.designates (utf8ToUtf16 (cString fn))).bind vol.entry with
  | none => rfl
  | some entry =>
      cases entry with
      | file bytes => simp [hentry] at hexists
      | directory => rfl

omit [DecidableEq File] in
theorem not_readFileSync_of_not_open
    (hopen : streams.openForRead = false) (result : List UInt8) :
    readFileSync fs streams vol fn ≠ .ok result := by
  have hsize : (tellEnd fs streams vol (utf8ToUtf16 (cString fn)) % 2 ^ 32).toNat =
      0xffffffff := by
    unfold tellEnd
    rw [if_neg (by simp [hopen])]
    decide
  have hlong : 0xffffffff > hbufferMaxBytelen := by decide
  unfold readFileSync
  simp only [hsize, pushFixedBuffer, if_pos hlong]
  split
  · simp
  · simp [bind, Except.bind]

/-- A short read is the file after all if only zeros are missing. -/
theorem padded_eq_iff (contents : List UInt8) (count : ℕ) :
    contents.take count ++
        (List.replicate contents.length 0).drop (contents.take count).length =
      contents ↔ ∀ byte ∈ contents.drop count, byte = 0 := by
  have hlength : contents.length - (contents.take count).length =
      (contents.drop count).length := by
    rw [List.length_take, List.length_drop]
    omega
  rw [List.drop_replicate, hlength]
  constructor
  · intro heq
    have hdrop : List.replicate (contents.drop count).length 0 = contents.drop count := by
      have hsplit := heq.trans (List.take_append_drop count contents).symm
      exact List.append_cancel_left hsplit
    intro byte hmem
    rw [← hdrop] at hmem
    exact List.eq_of_mem_replicate hmem
  · intro hzeros
    have hdrop : contents.drop count = List.replicate (contents.drop count).length 0 :=
      List.eq_replicate_iff.mpr ⟨rfl, hzeros⟩
    rw [← hdrop, List.take_append_drop]

omit [DecidableEq File] in
theorem readReportsFailure_iff :
    ReadReportsFailure fs streams vol fn ↔
      ReadFailureShows streams (fileBytes fs vol (utf8ToUtf16 (cString fn))) := by
  set contents := fileBytes fs vol (utf8ToUtf16 (cString fn)) with hcontents
  cases hopen : streams.openForRead with
  | false =>
      apply iff_of_true
      · intro result hread
        exact absurd hread (not_readFileSync_of_not_open fs streams vol fn hopen result)
      · intro hopened
        rw [hopen] at hopened
        contradiction
  | true =>
      cases hexists : fileExists fs vol (utf8ToUtf16 (cString fn)) with
      | false =>
          have hnil : contents = [] := fileBytes_of_not_exists fs vol fn hexists
          apply iff_of_true
          · intro result hread
            simp [readFileSync, hexists] at hread
          · intro _ _
            simp [hnil]
      | true =>
          have hread := readFileSync_of_exists fs streams vol fn hexists hopen
            hcontents.symm
          by_cases hlong : contents.length % 2 ^ 32 > hbufferMaxBytelen
          · rw [if_pos hlong] at hread
            apply iff_of_true
            · intro result hresult
              rw [hread] at hresult
              contradiction
            · intro _ hshort
              omega
          · rw [if_neg hlong] at hread
            dsimp only at hread
            constructor
            · intro hreports _ _
              have hresult : _ = contents := hreports _ hread
              have hlength := congrArg List.length hresult
              simp only [List.length_append, List.length_take, List.length_drop,
                List.length_replicate] at hlength
              have hsmall : contents.length < 2 ^ 32 := by
                have hmod : contents.length % 2 ^ 32 < 2 ^ 32 :=
                  Nat.mod_lt _ (by decide)
                omega
              rw [Nat.mod_eq_of_lt hsmall, List.take_length] at hresult
              exact ⟨hsmall, (padded_eq_iff _ _).mp hresult⟩
            · intro hshows result hresult
              obtain ⟨hsmall, hzeros⟩ := hshows hopen (by omega)
              rw [hread, Nat.mod_eq_of_lt hsmall, List.take_length] at hresult
              rw [← Except.ok.inj hresult]
              exact (padded_eq_iff _ _).mpr hzeros

theorem writeReportsFailure_iff (data : DukValue) :
    WriteReportsFailure fs streams vol fn data ↔
      WriteFailureShows fs streams vol fn data := by
  constructor
  · intro hreports bytes file hrequested hname hopen hrefuses hdirectory
    have hwrite : writeFileSync fs streams vol fn data = (.ok (), vol.setEntry file
        (some (.file (bytes.take (streams.stores bytes.length))))) := by
      unfold writeFileSync
      simp [hrequested, hname, hopen, hrefuses, hdirectory]
    obtain ⟨file', bytes', hname', hrequested', hentry⟩ := hreports _ hwrite
    obtain rfl : file = file' := Option.some.inj (hname.symm.trans hname')
    obtain rfl : bytes = bytes' := Except.ok.inj (hrequested.symm.trans hrequested')
    have htake : bytes.take (streams.stores bytes.length) = bytes := by
      simpa using hentry
    have hlength := congrArg List.length htake
    rw [List.length_take] at hlength
    omega
  · intro hshows next hwrite
    rcases exists_stored_of_writeFileSync hwrite with
      ⟨file, bytes, hname, hrequested, hopen, rfl⟩
    have hall := hshows bytes file hrequested hname hopen.1 hopen.2.1 hopen.2.2
    have hstored : (vol.setEntry file
        (some (.file (bytes.take (streams.stores bytes.length))))).entry file =
          some (.file bytes) := by
      rw [List.take_of_length_le hall]
      simp
    exact ⟨file, bytes, hname, hrequested, hstored⟩

end JSFileSystem

open JSFileSystem in
/-- A failure of the stream goes unreported exactly when a file that was opened
is not transferred as a whole, and more than zeros are missing. -/
theorem fileOperationsReportFailure_iff
    {File : Type} [DecidableEq File] (fs : FileSystem File)
    (streams : StreamBehaviour) (vol : Volume File) (fn : DukString)
    (data : DukValue) :
    (ReadReportsFailure fs streams vol fn ↔
        ReadFailureShows streams (fileBytes fs vol (utf8ToUtf16 (cString fn)))) ∧
      (WriteReportsFailure fs streams vol fn data ↔
        WriteFailureShows fs streams vol fn data) :=
  ⟨readReportsFailure_iff fs streams vol fn,
    writeReportsFailure_iff fs streams vol fn data⟩

/-- Both operations return normally although half of the bytes are missing. -/
theorem not_reportsFailure_of_short_transfer :
    let streams : StreamBehaviour := ⟨true, true, fun _ => 1, fun _ => 1⟩
    let vol : Volume Unit := ⟨fun _ => some (.file [1, 2]), fun _ => false⟩
    let data : DukValue := .buffer ⟨[3, 4], 16, by decide, by decide⟩
    JSFileSystem.readFileSync JSFileSystem.singleFile streams vol ['f'.toUInt8] =
        .ok [1, 0] ∧
      ¬ JSFileSystem.ReadReportsFailure JSFileSystem.singleFile streams vol
          ['f'.toUInt8] ∧
      ¬ JSFileSystem.WriteReportsFailure JSFileSystem.singleFile streams vol
          ['f'.toUInt8] data := by
  intro streams vol data
  have hread : JSFileSystem.readFileSync JSFileSystem.singleFile streams vol
      ['f'.toUInt8] = .ok [1, 0] := rfl
  refine ⟨hread, ?_, ?_⟩
  · intro hreports
    have hresult := hreports _ hread
    revert hresult
    decide
  · rw [JSFileSystem.writeReportsFailure_iff]
    intro hshows
    have hall := hshows [3, 4] () rfl rfl rfl rfl (by simp [vol])
    revert hall
    decide

end NekoScript
