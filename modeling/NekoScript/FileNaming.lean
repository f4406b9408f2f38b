import NekoScript.FileContentRoundTrip
import Mathlib.Tactic

/-!
# The file a path names

`existsSync`, `readFileSync` and `writeFileSync` name a file by the UTF-16 form
of the path.  `unlinkSync` and `renameSync` pass the UTF-8 bytes to functions
that decode them with the ANSI code page, so they name the same file only where
that decoding gives the same UTF-16 name.
-/

namespace NekoScript

open JSFileSystem

/-- After `writeFileSync(p, d)`, `unlinkSync(p)` removes that file and no
other, and `renameSync(p, q)` moves it to `q` and changes no other, whatever
the names designate on a volume with this code page. -/
structure NamesOneFile (codePage : List UInt8 → List UInt16) (p q : DukString) :
    Prop where
  unlink : ∀ (File : Type) [DecidableEq File] (fs : FileSystem File)
    (streams : StreamBehaviour) (vol written removed : Volume File)
    (data : DukValue),
    fs.codePage = codePage → streams.Full →
    writeFileSync fs streams vol p data = (.ok (), written) →
    unlinkSync fs written p = (.ok (), removed) →
      existsSync fs removed p = false ∧
      ∀ file, fs.designates (utf8ToUtf16 (cString p)) ≠ some file →
        removed.entry file = written.entry file
  rename : ∀ (File : Type) [DecidableEq File] (fs : FileSystem File)
    (streams : StreamBehaviour) (vol written moved : Volume File)
    (data : DukValue),
    fs.codePage = codePage → streams.Full →
    fs.designates (utf8ToUtf16 (cString p)) ≠
      fs.designates (utf8ToUtf16 (cString q)) →
    writeFileSync fs streams vol p data = (.ok (), written) →
    renameSync fs written p q = (.ok (), moved) →
      readFileSync fs streams moved q = readFileSync fs streams written p ∧
      (∀ b, data = .buffer b → readFileSync fs streams moved q = .ok b.bytes) ∧
      existsSync fs moved p = false ∧
      ∀ file, fs.designates (utf8ToUtf16 (cString p)) ≠ some file →
        fs.designates (utf8ToUtf16 (cString q)) ≠ some file →
        moved.entry file = written.entry file

section Windows

variable {File : Type} [DecidableEq File]

theorem of_deleteFileA
    {fs : FileSystem File} {vol next : Volume File} {name : List UInt8}
    (hdelete : deleteFileA fs vol name = some next) :
    ∃ file, fs.designates (fs.codePage name) = some file ∧
      next = vol.setEntry file none := by
  unfold deleteFileA at hdelete
  cases hname : fs.designates (fs.codePage name) with
  | none => simp [hname] at hdelete
  | some file =>
      simp only [hname] at hdelete
      split at hdelete
      · split at hdelete
        · contradiction
        · exact ⟨file, rfl, (Option.some.inj hdelete).symm⟩
      · contradiction

theorem of_moveFileA
    {fs : FileSystem File} {vol next : Volume File} {existing new : List UInt8}
    {source : File} (hsource : fs.designates (fs.codePage existing) = some source)
    (hother : fs.designates (fs.codePage new) ≠ some source)
    {bytes : List UInt8} (hentry : vol.entry source = some (.file bytes))
    (hmove : moveFileA fs vol existing new = some next) :
    ∃ target, fs.designates (fs.codePage new) = some target ∧
      next = (vol.setEntry source none).setEntry target (some (.file bytes)) := by
  unfold moveFileA at hmove
  cases htarget : fs.designates (fs.codePage new) with
  | none => simp [hsource, htarget] at hmove
  | some target =>
      have hne : source ≠ target := by
        rintro rfl
        exact hother htarget
      simp only [hsource, htarget, if_neg hne, hentry] at hmove
      split at hmove
      · contradiction
      · split at hmove
        · contradiction
        · exact ⟨target, rfl, (Option.some.inj hmove).symm⟩

theorem of_unlinkSync_ok
    {fs : FileSystem File} {vol next : Volume File} {fn : DukString}
    (hunlink : unlinkSync fs vol fn = (.ok (), next)) :
    deleteFileA fs vol (cString fn) = some next := by
  unfold unlinkSync at hunlink
  cases hdelete : deleteFileA fs vol (cString fn) with
  | none => simp [hdelete] at hunlink
  | some other =>
      simp only [hdelete] at hunlink
      rw [(Prod.mk.inj hunlink).2]

theorem of_renameSync_ok
    {fs : FileSystem File} {vol next : Volume File} {oldFn newFn : DukString}
    (hrename : renameSync fs vol oldFn newFn = (.ok (), next)) :
    moveFileA fs vol (cString oldFn) (cString newFn) = some next := by
  unfold renameSync at hrename
  cases hmove : moveFileA fs vol (cString oldFn) (cString newFn) with
  | none => simp [hmove] at hrename
  | some other =>
      simp only [hmove] at hrename
      rw [(Prod.mk.inj hrename).2]

omit [DecidableEq File] in
theorem fileExists_eq_false
    {fs : FileSystem File} {vol : Volume File} {name : List UInt16} {file : File}
    (hname : fs.designates name = some file) (hentry : vol.entry file = none) :
    fileExists fs vol name = false := by
  simp [fileExists, hname, hentry]

omit [DecidableEq File] in
theorem fileExists_eq_true
    {fs : FileSystem File} {vol : Volume File} {name : List UInt16} {file : File}
    (hname : fs.designates name = some file) {bytes : List UInt8}
    (hentry : vol.entry file = some (.file bytes)) :
    fileExists fs vol name = true := by
  simp [fileExists, hname, hentry]

omit [DecidableEq File] in
theorem readFileSync_congr
    {fs : FileSystem File} (streams : StreamBehaviour)
    {vol next : Volume File} {p q : DukString}
    (hentry : (fs.designates (utf8ToUtf16 (cString q))).bind next.entry =
      (fs.designates (utf8ToUtf16 (cString p))).bind vol.entry)
    (hfile : ∃ bytes, (fs.designates (utf8ToUtf16 (cString p))).bind vol.entry =
      some (.file bytes)) :
    readFileSync fs streams next q = readFileSync fs streams vol p := by
  rcases hfile with ⟨bytes, hbytes⟩
  have hexists : fileExists fs next (utf8ToUtf16 (cString q)) = true ∧
      fileExists fs vol (utf8ToUtf16 (cString p)) = true := by
    simp [fileExists, hentry, hbytes]
  have hcontent : fileBytes fs next (utf8ToUtf16 (cString q)) =
      fileBytes fs vol (utf8ToUtf16 (cString p)) := by
    simp [fileBytes, hentry]
  unfold readFileSync tellEnd
  simp [hexists.1, hexists.2, hcontent]

end Windows

/-- The code page decodes a path to the name that its UTF-8 decoding gives. -/
def DecodedAlike (codePage : List UInt8 → List UInt16) (path : DukString) : Prop :=
  codePage (cString path) = utf8ToUtf16 (cString path)

theorem namesOneFile_of_decodedAlike
    {codePage : List UInt8 → List UInt16} {p q : DukString}
    (hp : DecodedAlike codePage p)
    (hq : utf8ToUtf16 (cString p) ≠ utf8ToUtf16 (cString q) →
      DecodedAlike codePage q) :
    NamesOneFile codePage p q := by
  constructor
  · intro File _ fs streams vol written removed data hpage hfull hwrite hunlink
    obtain ⟨file, bytes, hname, _, _, rfl⟩ := of_writeFileSync_ok hfull hwrite
    obtain ⟨other, hother, rfl⟩ := of_deleteFileA (of_unlinkSync_ok hunlink)
    have hsame : other = file := by
      rw [hpage, hp, hname] at hother
      exact (Option.some.inj hother).symm
    subst other
    refine ⟨fileExists_eq_false hname (by simp), ?_⟩
    intro kept hkept
    have hne : kept ≠ file := by
      rintro rfl
      exact hkept hname
    rw [Volume.setEntry_entry, Function.update_of_ne hne]
  · intro File _ fs streams vol written moved data hpage hfull hdiff hwrite hrename
    have hnames : utf8ToUtf16 (cString p) ≠ utf8ToUtf16 (cString q) := by
      intro heq
      exact hdiff (by rw [heq])
    have hq := hq hnames
    obtain ⟨source, bytes, hname, hrequested, _, rfl⟩ :=
      of_writeFileSync_ok hfull hwrite
    have hsource : fs.designates (fs.codePage (cString p)) = some source := by
      rw [hpage, hp, hname]
    have hother : fs.designates (fs.codePage (cString q)) ≠ some source := by
      rw [hpage, hq, ← hname]
      exact hdiff.symm
    have hentry : (vol.setEntry source (some (.file bytes))).entry source =
        some (.file bytes) := by simp
    obtain ⟨target, htarget, rfl⟩ :=
      of_moveFileA hsource hother hentry (of_renameSync_ok hrename)
    have htargetName : fs.designates (utf8ToUtf16 (cString q)) = some target := by
      rw [← hq, ← hpage, htarget]
    have hne : source ≠ target := by
      rintro rfl
      exact hother htarget
    set written := vol.setEntry source (some (.file bytes)) with hwritten
    set moved := (written.setEntry source none).setEntry target
      (some (.file bytes)) with hmoved
    have hthere : moved.entry target = some (.file bytes) := by simp [hmoved]
    have hgone : moved.entry source = none := by simp [hmoved, hne]
    have hread : readFileSync fs streams moved q =
        readFileSync fs streams written p := by
      apply readFileSync_congr
      · rw [hname, htargetName, Option.bind_some, Option.bind_some, hthere]
        simp [hwritten]
      · exact ⟨bytes, by simp [hname, hwritten]⟩
    refine ⟨hread, ?_, fileExists_eq_false hname hgone, ?_⟩
    · rintro b rfl
      have hbytes : b.bytes = bytes := Except.ok.inj hrequested
      subst bytes
      have hlength := b.length_le
      have hshort : b.bytes.length < 2 ^ 32 := by
        unfold hbufferMaxBytelen at hlength
        omega
      rw [readFileSync_of_file hfull htargetName hthere hshort,
        if_neg (by omega)]
    · intro other hnotP hnotQ
      have hneSource : other ≠ source := by
        rintro rfl
        exact hnotP hname
      have hneTarget : other ≠ target := by
        rintro rfl
        exact hnotQ htargetName
      simp [hmoved, hneSource, hneTarget]

def flatVolume (codePage : List UInt8 → List UInt16) :
    FileSystem (List UInt16) where
  designates := some
  codePage := codePage
  moveDirectory := fun vol _ _ => vol

def volumeWith (files : List (List UInt16)) : Volume (List UInt16) where
  entry := fun name => if name ∈ files then some (.file []) else none
  refuses := fun _ => false

def emptyBuffer : HBuffer := ⟨[], 16, fun _ => rfl, by decide⟩

theorem writeFileSync_flatVolume
    (codePage : List UInt8 → List UInt16) (files : List (List UInt16))
    (p : DukString) :
    writeFileSync (flatVolume codePage) fullStreams (volumeWith files) p
        (.buffer emptyBuffer) =
      (.ok (), (volumeWith files).setEntry (utf8ToUtf16 (cString p))
        (some (.file []))) := by
  have hrequested : requested (.buffer emptyBuffer) = .ok [] := rfl
  have hdirectory : (volumeWith files).entry (utf8ToUtf16 (cString p)) ≠
      some .directory := by
    unfold volumeWith
    dsimp only
    split <;> simp
  unfold writeFileSync
  rw [hrequested]
  simp only [flatVolume]
  rw [if_pos ⟨rfl, rfl, hdirectory⟩]
  simp

theorem decodedAlike_of_unlink
    {codePage : List UInt8 → List UInt16} {p q : DukString}
    (hnames : NamesOneFile codePage p q) : DecodedAlike codePage p := by
  by_contra hdiff
  set wide := utf8ToUtf16 (cString p) with hwide
  set ansi := codePage (cString p) with hansi
  have hwrite := writeFileSync_flatVolume codePage [ansi] p
  rw [← hwide] at hwrite
  set written := (volumeWith [ansi]).setEntry wide (some (.file [])) with hwritten
  have hthere : written.entry ansi = some (.file []) := by
    simp [hwritten, volumeWith, Function.update_apply]
  have hunlink : unlinkSync (flatVolume codePage) written p =
      (.ok (), written.setEntry ansi none) := by
    have hdelete : deleteFileA (flatVolume codePage) written (cString p) =
        some (written.setEntry ansi none) := by
      unfold deleteFileA
      simp only [flatVolume, ← hansi, hthere]
      rfl
    unfold unlinkSync
    rw [hdelete]
  obtain ⟨hgone, _⟩ := hnames.unlink (List UInt16) (flatVolume codePage) fullStreams
    (volumeWith [ansi]) written _ _ rfl full_fullStreams hwrite hunlink
  have hentry : (written.setEntry ansi none).entry wide = some (.file []) := by
    have hne : wide ≠ ansi := fun heq => hdiff heq.symm
    simp [hwritten, hne]
  have hstill : existsSync (flatVolume codePage) (written.setEntry ansi none) p =
      true := fileExists_eq_true rfl hentry
  rw [hgone] at hstill
  contradiction

theorem decodedAlike_of_rename
    {codePage : List UInt8 → List UInt16} {p q : DukString}
    (hnames : NamesOneFile codePage p q) (hp : DecodedAlike codePage p)
    (hwides : utf8ToUtf16 (cString p) ≠ utf8ToUtf16 (cString q)) :
    DecodedAlike codePage q := by
  by_contra hdiff
  set source := utf8ToUtf16 (cString p) with hsource
  set wide := utf8ToUtf16 (cString q) with hwide
  set ansi := codePage (cString q) with hansi
  have hwrite := writeFileSync_flatVolume codePage [] p
  rw [← hsource] at hwrite
  set written := (volumeWith []).setEntry source (some (.file [])) with hwritten
  have hcodePage : codePage (cString p) = source := hp
  have hgone : written.entry wide = none := by
    have hne : wide ≠ source := fun heq => hwides heq.symm
    simp [hwritten, hne, volumeWith]
  have hfrom : written.entry source = some (.file []) := by simp [hwritten]
  have hrules := fun moved => hnames.rename (List UInt16) (flatVolume codePage)
    fullStreams (volumeWith []) written moved (.buffer emptyBuffer) rfl
    full_fullStreams (fun heq => hwides (Option.some.inj heq)) hwrite
  by_cases hself : ansi = source
  · -- the move onto itself succeeds and leaves the file where it was
    have hmove : renameSync (flatVolume codePage) written p q =
        (.ok (), written) := by
      have hsame : moveFileA (flatVolume codePage) written (cString p) (cString q) =
          some written := by
        unfold moveFileA
        simp only [flatVolume, hcodePage, ← hansi, hself, if_true, hfrom,
          Option.isSome_some]
      unfold renameSync
      rw [hsame]
    obtain ⟨_, _, hexists, _⟩ := hrules written hmove
    have hstill : existsSync (flatVolume codePage) written p = true :=
      fileExists_eq_true rfl hfrom
    rw [hexists] at hstill
    contradiction
  · have hne : source ≠ ansi := fun heq => hself heq.symm
    have hfree : written.entry ansi = none := by
      simp [hwritten, hself, volumeWith]
    have hmove : renameSync (flatVolume codePage) written p q =
        (.ok (), (written.setEntry source none).setEntry ansi
          (some (.file []))) := by
      have hmoved : moveFileA (flatVolume codePage) written (cString p) (cString q) =
          some ((written.setEntry source none).setEntry ansi
            (some (.file []))) := by
        unfold moveFileA
        simp only [flatVolume, hcodePage, ← hansi, if_neg hne, hfree, hfrom]
        rfl
      unfold renameSync
      rw [hmoved]
    obtain ⟨_, hread, _, _⟩ := hrules _ hmove
    have hread := hread emptyBuffer rfl
    have hnone : ((written.setEntry source none).setEntry ansi
        (some (.file []))).entry wide = none := by
      have hneAnsi : wide ≠ ansi := fun heq => hdiff heq.symm
      have hneSource : wide ≠ source := fun heq => hwides heq.symm
      simp [hneAnsi, hneSource, hgone]
    have hname : (flatVolume codePage).designates wide = some wide := rfl
    have hmissing := fileExists_eq_false hname hnone
    unfold readFileSync at hread
    simp [← hwide, hmissing] at hread

/-- The natives agree on the files `p` and `q` name exactly when the code page
decodes `p`, and `q` if it is another name, as UTF-8. -/
theorem namesOneFile_iff
    (codePage : List UInt8 → List UInt16) (p q : DukString) :
    NamesOneFile codePage p q ↔
      DecodedAlike codePage p ∧
        (utf8ToUtf16 (cString p) ≠ utf8ToUtf16 (cString q) →
          DecodedAlike codePage q) := by
  constructor
  · intro hnames
    have hp := decodedAlike_of_unlink hnames
    exact ⟨hp, decodedAlike_of_rename hnames hp⟩
  · rintro ⟨hp, hq⟩
    exact namesOneFile_of_decodedAlike hp hq

/-- On code page 1252 the two bytes of U+00E9 decode to another name:
`unlinkSync` deletes the file of that name and leaves the one it was given. -/
theorem not_namesOneFile_of_latin1 :
    let latin1 : List UInt8 → List UInt16 := List.map UInt8.toUInt16
    let path := lexerString ['é']
    let fs := flatVolume latin1
    let written : Volume (List UInt16) :=
      (volumeWith [[0xC3, 0xA9]]).setEntry [0xE9] (some (.file []))
    let removed := written.setEntry [0xC3, 0xA9] none
    unlinkSync fs written path = (.ok (), removed) ∧
      existsSync fs removed path = true ∧
      ¬ NamesOneFile latin1 path path := by
  intro latin1 path fs written removed
  refine ⟨rfl, by decide, ?_⟩
  intro hnames
  have halike : DecodedAlike latin1 path := decodedAlike_of_unlink hnames
  revert halike
  unfold DecodedAlike
  decide

end NekoScript
