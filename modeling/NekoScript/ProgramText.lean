import NekoScript.FileContentRoundTrip
import Mathlib.Data.List.DropRight
import Mathlib.Tactic

/-!
# The text of a program

`AppMain` reads a source file in text mode, into a string as long as the file
is, and compiles it up to its first NUL.  The examples compile the text of the
buffer that `fs.readFileSync` returns.
-/

namespace NekoScript

def carriageReturn : UInt8 := 0x0D

def lineFeed : UInt8 := 0x0A

def ctrlZ : UInt8 := 0x1A

def space : UInt8 := 0x20

/-- The bytes a stream in text mode delivers: CR LF becomes LF, and Ctrl-Z ends
the file. -/
def textMode : List UInt8 → List UInt8
  | [] => []
  | byte :: rest =>
      if byte = ctrlZ then []
      else if byte = carriageReturn ∧ rest.head? = some lineFeed then textMode rest
      else byte :: textMode rest

variable {File : Type} (fs : FileSystem File) (streams : StreamBehaviour)
  (vol : Volume File)

/-- `ReadWholeFileAsString`.  The size that `tellg` reports for a stream that is
not open is more than a `std::string` can hold. -/
def readWholeFileAsString (fname : List UInt16) : Option (List UInt8) :=
  let size := (JSFileSystem.tellEnd fs streams vol fname % 2 ^ 32).toNat
  if streams.openForRead then
    let translated := textMode (fileBytes fs vol fname)
    let read := (translated.take size).take (streams.delivers size)
    some (read ++ (List.replicate size space).drop read.length)
  else none

/-- What `AppMain` gives to the compiler for a source file. -/
def appMainText (fname : List UInt16) : Option DukString :=
  (readWholeFileAsString fs streams vol fname).map cString

/-- `toString("utf-8")` of a buffer; the engine ignores the encoding. -/
def bufferToString (bytes : List UInt8) : DukString := bytes

def replaceCrLf : List UInt8 → List UInt8
  | [] => []
  | byte :: rest =>
      if byte = carriageReturn ∧ rest.head? = some lineFeed then replaceCrLf rest
      else byte :: replaceCrLf rest

def trimSpaces (text : List UInt8) : List UInt8 :=
  text.rdropWhile (· = space)

/-- If `fs.readFileSync` returns the file, then `AppMain` sees the same text, up
to line ends and trailing spaces. -/
def SameProgramText (fn : DukString) : Prop :=
  ∀ bytes, JSFileSystem.readFileSync fs streams vol fn = .ok bytes →
    ∃ text, appMainText fs streams vol (utf8ToUtf16 (cString fn)) = some text ∧
      trimSpaces text = trimSpaces (replaceCrLf (bufferToString bytes))

theorem length_textMode_le (bytes : List UInt8) :
    (textMode bytes).length ≤ bytes.length := by
  induction bytes with
  | nil => exact le_rfl
  | cons byte rest ih =>
      unfold textMode
      split_ifs
      · simp
      · exact ih.trans (Nat.le_succ _)
      · simpa using ih

theorem ctrlZ_notMem_textMode (bytes : List UInt8) : ctrlZ ∉ textMode bytes := by
  induction bytes with
  | nil => simp [textMode]
  | cons byte rest ih =>
      unfold textMode
      split_ifs with hend hpair
      · simp
      · exact ih
      · rw [List.mem_cons, not_or]
        exact ⟨fun heq => hend heq.symm, ih⟩

theorem textMode_eq_replaceCrLf
    {bytes : List UInt8} (hend : ctrlZ ∉ bytes) : textMode bytes = replaceCrLf bytes := by
  induction bytes with
  | nil => rfl
  | cons byte rest ih =>
      rw [List.mem_cons, not_or] at hend
      have hbyte : byte ≠ ctrlZ := fun heq => hend.1 heq.symm
      unfold textMode replaceCrLf
      rw [if_neg hbyte, ih hend.2]

theorem mem_of_mem_replaceCrLf
    {bytes : List UInt8} {byte : UInt8} (hmem : byte ∈ replaceCrLf bytes) :
    byte ∈ bytes := by
  induction bytes with
  | nil => simp [replaceCrLf] at hmem
  | cons first rest ih =>
      unfold replaceCrLf at hmem
      split_ifs at hmem
      · exact List.mem_cons_of_mem _ (ih hmem)
      · rw [List.mem_cons] at hmem ⊢
        exact hmem.imp_right ih

/-- Only carriage returns are dropped. -/
theorem mem_replaceCrLf
    {bytes : List UInt8} {byte : UInt8} (hmem : byte ∈ bytes)
    (hne : byte ≠ carriageReturn) : byte ∈ replaceCrLf bytes := by
  induction bytes with
  | nil => simp at hmem
  | cons first rest ih =>
      rw [List.mem_cons] at hmem
      unfold replaceCrLf
      split_ifs with hpair
      · rcases hmem with rfl | hmem
        · exact absurd hpair.1 hne
        · exact ih hmem
      · rw [List.mem_cons]
        exact hmem.imp_right ih

theorem mem_trimSpaces
    {text : List UInt8} {byte : UInt8} (hmem : byte ∈ text) (hne : byte ≠ space) :
    byte ∈ trimSpaces text := by
  induction text using List.reverseRecOn with
  | nil => simp at hmem
  | append_singleton text last ih =>
      unfold trimSpaces
      by_cases hlast : last = space
      · rw [List.rdropWhile_concat_pos _ _ _ (by simpa using hlast)]
        rw [List.mem_append, List.mem_singleton] at hmem
        rcases hmem with hmem | rfl
        · exact ih hmem
        · exact absurd hlast hne
      · rwa [List.rdropWhile_concat_neg _ _ _ (by simpa using hlast)]

theorem mem_of_mem_trimSpaces
    {text : List UInt8} {byte : UInt8} (hmem : byte ∈ trimSpaces text) : byte ∈ text :=
  (List.rdropWhile_prefix _ _).subset hmem

theorem trimSpaces_append_replicate (text : List UInt8) (count : ℕ) :
    trimSpaces (text ++ List.replicate count space) = trimSpaces text := by
  induction count with
  | zero => simp
  | succ count ih =>
      rw [List.replicate_succ', ← List.append_assoc]
      unfold trimSpaces at ih ⊢
      rw [List.rdropWhile_concat_pos _ _ _ (by simp), ih]

/-- A file that is read in full is translated, padded and cut at a NUL. -/
theorem appMainText_of_file
    {fs : FileSystem File} {streams : StreamBehaviour} (hfull : streams.Full)
    {vol : Volume File} {fname : List UInt16} {file : File}
    (hname : fs.designates fname = some file) {bytes : List UInt8}
    (hentry : vol.entry file = some (.file bytes)) (hshort : bytes.length < 2 ^ 32) :
    ∃ count, appMainText fs streams vol fname =
      some (cString (textMode bytes ++ List.replicate count space)) := by
  have hbytes : fileBytes fs vol fname = bytes := by
    simp [fileBytes, hname, hentry]
  have hsize : (JSFileSystem.tellEnd fs streams vol fname % 2 ^ 32).toNat =
      bytes.length := by
    unfold JSFileSystem.tellEnd
    rw [if_pos hfull.opens, hbytes]
    omega
  have hlength := length_textMode_le bytes
  have hall : ((textMode bytes).take bytes.length).take
      (streams.delivers bytes.length) = textMode bytes := by
    rw [List.take_of_length_le hlength]
    exact List.take_of_length_le (hlength.trans (hfull.delivers _))
  refine ⟨bytes.length - (textMode bytes).length, ?_⟩
  unfold appMainText readWholeFileAsString
  simp only [hsize, hbytes, hfull.opens, if_true, hall, List.drop_replicate,
    Option.map_some]

/-- What is before a NUL or Ctrl-Z is all that `AppMain` sees of a file, so the
texts agree exactly for files that have neither. -/
theorem sameProgramText_iff
    {fs : FileSystem File} {streams : StreamBehaviour} (hfull : streams.Full)
    {vol : Volume File} {fn : DukString} {file : File}
    (hname : fs.designates (utf8ToUtf16 (cString fn)) = some file)
    {bytes : List UInt8} (hentry : vol.entry file = some (.file bytes))
    (hshort : bytes.length < 2 ^ 32) :
    SameProgramText fs streams vol fn ↔
      (bytes.length ≤ hbufferMaxBytelen → ∀ byte ∈ bytes, byte ≠ 0 ∧ byte ≠ ctrlZ) := by
  have hread := JSFileSystem.readFileSync_of_file hfull hname hentry hshort
  obtain ⟨count, htext⟩ := appMainText_of_file hfull hname hentry hshort
  by_cases hlong : bytes.length > hbufferMaxBytelen
  · rw [if_pos hlong] at hread
    apply iff_of_true
    · intro result hresult
      rw [hread] at hresult
      contradiction
    · intro hfits
      omega
  rw [if_neg hlong] at hread
  constructor
  · intro hsame _ byte hmem
    obtain ⟨text, hloaded, htrimmed⟩ := hsame bytes hread
    rw [htext] at hloaded
    obtain rfl := Option.some.inj hloaded
    have hseen : ∀ other ∈ bytes, other ≠ carriageReturn → other ≠ space →
        other ∈ cString (textMode bytes ++ List.replicate count space) := by
      intro other hother hreturn hspace
      have htrim : other ∈ trimSpaces (replaceCrLf (bufferToString bytes)) :=
        mem_trimSpaces (mem_replaceCrLf hother hreturn) hspace
      rw [← htrimmed] at htrim
      exact mem_of_mem_trimSpaces htrim
    constructor
    · rintro rfl
      exact zero_notMem_cString _ (hseen 0 hmem (by decide) (by decide))
    · rintro rfl
      have hloaded := hseen ctrlZ hmem (by decide) (by decide)
      have hpadded := (List.takeWhile_prefix _).subset hloaded
      rw [List.mem_append] at hpadded
      rcases hpadded with htranslated | hspace
      · exact ctrlZ_notMem_textMode bytes htranslated
      · have heq := List.eq_of_mem_replicate hspace
        revert heq
        decide
  · intro hclean result hresult
    have hfits := hclean (by omega)
    obtain rfl := Except.ok.inj (hread.symm.trans hresult)
    have htranslated : textMode bytes = replaceCrLf bytes :=
      textMode_eq_replaceCrLf fun hmem => (hfits ctrlZ hmem).2 rfl
    have hzero : 0 ∉ replaceCrLf bytes ++ List.replicate count space := by
      rw [List.mem_append, not_or]
      refine ⟨fun hmem => (hfits 0 (mem_of_mem_replaceCrLf hmem)).1 rfl, ?_⟩
      intro hmem
      have heq := List.eq_of_mem_replicate hmem
      revert heq
      decide
    refine ⟨_, htext, ?_⟩
    rw [htranslated, cString_eq_self hzero, trimSpaces_append_replicate]
    rfl

theorem sameProgramText_crLf :
    let bytes : List UInt8 := [0x61, carriageReturn, lineFeed, 0x62]
    let vol : Volume Unit := ⟨fun _ => some (.file bytes), fun _ => false⟩
    SameProgramText JSFileSystem.singleFile JSFileSystem.fullStreams vol [] ↔
      (bytes.length ≤ hbufferMaxBytelen → ∀ byte ∈ bytes, byte ≠ 0 ∧ byte ≠ ctrlZ) := by
  intro bytes vol
  have hname : JSFileSystem.singleFile.designates (utf8ToUtf16 (cString [])) =
      some () := rfl
  exact sameProgramText_iff JSFileSystem.full_fullStreams hname rfl (by decide)

/-- A comment with a Ctrl-Z in it ends the program that `AppMain` runs. -/
theorem not_sameProgramText_of_ctrlZ :
    let bytes : List UInt8 := [0x2F, 0x2F, ctrlZ, lineFeed, 0x66]
    let vol : Volume Unit := ⟨fun _ => some (.file bytes), fun _ => false⟩
    appMainText JSFileSystem.singleFile JSFileSystem.fullStreams vol [] =
        some [0x2F, 0x2F, space, space, space] ∧
      JSFileSystem.readFileSync JSFileSystem.singleFile JSFileSystem.fullStreams vol
          [] = .ok bytes ∧
      ¬ SameProgramText JSFileSystem.singleFile JSFileSystem.fullStreams vol [] := by
  intro bytes vol
  have hread : JSFileSystem.readFileSync JSFileSystem.singleFile
      JSFileSystem.fullStreams vol [] = .ok bytes := rfl
  have htext : appMainText JSFileSystem.singleFile JSFileSystem.fullStreams vol [] =
      some [0x2F, 0x2F, space, space, space] := rfl
  refine ⟨htext, hread, ?_⟩
  intro hsame
  obtain ⟨text, hloaded, htrimmed⟩ := hsame bytes hread
  obtain rfl := Option.some.inj (hloaded.symm.trans htext)
  revert htrimmed
  decide

end NekoScript
