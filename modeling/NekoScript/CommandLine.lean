import NekoScript.DuktapeValues
import NekoScript.FileContentRoundTrip
import NekoScript.HelperConversions
import NekoScript.QuotedWords
import Mathlib.Data.List.DropRight
import Mathlib.Tactic

/-!
# The command line and `process.argv`

`AppMain` takes the command line apart with `SplitCommandLine` and keeps the
parts in static members.  `JSProcess::setupProperties` makes the properties of
`process` from them.
-/

namespace NekoScript

open QuotedWords UnicodeCoding

/-! ## `CommandLineParser.cpp` -/

def wideSpace : UInt16 := 0x20

def wideTab : UInt16 := 0x09

def wideNewline : UInt16 := 0x0A

def wideQuote : UInt16 := 0x22

def isTrimmed (c : UInt16) : Bool := c = wideSpace || c = wideNewline || c = wideTab

/-- `UString::Trim` -/
def trim (s : List UInt16) : List UInt16 := (s.rdropWhile isTrimmed).dropWhile isTrimmed

/-- The loop over `src`, at the index `i`: whether there is a part, the part, and
what follows it. -/
def splitPart (quoteMode : Bool) (i : ℕ) (dest1 : List UInt16) :
    List UInt16 → Bool × List UInt16 × List UInt16
  | [] => (i != 0, dest1, [])
  | c :: rest =>
      if (c = wideSpace || c = wideTab) && !quoteMode then (i != 0, dest1, rest)
      else if c = wideQuote then splitPart (!quoteMode) (i + 1) dest1 rest
      else splitPart quoteMode (i + 1) (dest1 ++ [c]) rest

def splitParts : (fuel : ℕ) → List UInt16 → List (List UInt16) →
    Option (List (List UInt16))
  | 0, _, _ => none
  | fuel + 1, sTemp, parts =>
      let (found, s1, s2) := splitPart false 0 [] sTemp
      let parts := if found then parts ++ [s1] else parts
      if s2 = [] then some parts else splitParts fuel s2 parts

/-- `SplitCommandLine` -/
def splitCommandLine (fuel : ℕ) (s : List UInt16) : Option (List (List UInt16)) :=
  splitParts fuel (trim s) []

/-! ## `AppMain` -/

/-- The static members of `JSProcess`. -/
structure ProcessSettings where
  execPath : List UInt16
  scriptPath : List UInt16
  scriptArgv : List (List UInt16)
  execArgv : List (List UInt16)

inductive LaunchFault where
  /-- `commandStrings[0]` of an empty vector. -/
  | noCommandStrings
  | raised (error : JSError)
  deriving DecidableEq, Repr

/-- `D:\git\qtwrap\installer\windows\dist\app.neko.js` -/
def defaultFileName : List UInt16 :=
  ['D', ':', '\\', 'g', 'i', 't', '\\', 'q', 't', 'w', 'r', 'a', 'p', '\\', 'i',
   'n', 's', 't', 'a', 'l', 'l', 'e', 'r', '\\', 'w', 'i', 'n', 'd', 'o', 'w', 's',
   '\\', 'd', 'i', 's', 't', '\\', 'a', 'p', 'p', '.', 'n', 'e', 'k', 'o', '.',
   'j', 's'].map fun c =>
      .ofNat c.toNat

def processSettings (commandStrings : List (List UInt16)) :
    Except LaunchFault ProcessSettings :=
  let (fileName, scriptArgvOffset) :=
    match commandStrings with
    | _ :: fileName :: _ => (fileName, 2)
    | _ => ([], 1)
  let fileName := if fileName = [] then defaultFileName else fileName
  match commandStrings with
  | [] => .error .noCommandStrings
  | execPath :: _ =>
      .ok {
        execPath := execPath
        scriptPath := fileName
        scriptArgv := commandStrings.drop scriptArgvOffset
        execArgv := [] }

/-! ## `JSProcess::setupProperties` -/

structure ProcessArguments where
  argv : List DukString
  scriptArgv : List DukString
  execArgv : List DukString
  scriptPath : DukString
  execPath : DukString
  deriving DecidableEq

def pushNative (units : List UInt16) : Except LaunchFault DukString :=
  match pushString (utf16ToUtf8 units) with
  | .ok str => .ok str
  | .error e => .error (.raised e)

def setupArguments (s : ProcessSettings) : Except LaunchFault ProcessArguments := do
  let exec ← pushNative s.execPath
  let script ← pushNative s.scriptPath
  let arguments ← s.scriptArgv.mapM pushNative
  let scriptArgv ← s.scriptArgv.mapM pushNative
  let execArgv ← s.execArgv.mapM pushNative
  let scriptPath ← pushNative s.scriptPath
  let execPath ← pushNative s.execPath
  return {
    argv := exec :: script :: arguments
    scriptArgv := scriptArgv
    execArgv := execArgv
    scriptPath := scriptPath
    execPath := execPath }

/-- What a program sees that is started with this command line. -/
def processArguments (fuel : ℕ) (line : List UInt16) :
    Option (Except LaunchFault ProcessArguments) := do
  let commandStrings ← splitCommandLine fuel line
  return processSettings commandStrings >>= setupArguments

/-! ## What is asked of it -/

/-- What `GetCommandLineW` can point to. -/
structure CommandLine where
  units : List UInt16
  zero_notMem : 0 ∉ units
  fits : units.length < 2 ^ 15

/-- The properties of `process` say `texts`: the engine, the script and what
follows. -/
structure ProcessArguments.Say (process : ProcessArguments)
    (encode : List UInt16 → DukString) (texts : List (List UInt16)) : Prop where
  argv : process.argv = texts.map encode
  scriptArgv : process.scriptArgv = (texts.drop 2).map encode
  execArgv : process.execArgv = []
  execPath : texts[0]?.map encode = some process.execPath
  scriptPath : texts[1]?.map encode = some process.scriptPath

/-- `AppMain` finds the script file of this command line, and the program that it
starts sees `texts`. -/
def Passes {File : Type} (fs : FileSystem File) (vol : Volume File) (line : List UInt16)
    (texts : List (List UInt16)) : Prop :=
  ∃ fuel commandStrings settings process,
    splitCommandLine fuel line = some commandStrings ∧
    processSettings commandStrings = .ok settings ∧
    fileExists fs vol settings.scriptPath = true ∧
    setupArguments settings = .ok process ∧
    process.Say storedUnits texts

def commandLineDelimiters : Delimiters UInt16 where
  separator c := c = wideSpace || c = wideTab
  quote := wideQuote
  separator_quote := by decide

def quoted (texts : List (List UInt16)) : List UInt16 :=
  quotedLine commandLineDelimiters wideSpace texts

/-- There is a script, and no text has a NUL, a quotation mark or a surrogate. -/
structure Passable (texts : List (List UInt16)) : Prop where
  script : ∃ text, texts[1]? = some text ∧ text ≠ []
  units : ∀ text ∈ texts, ∀ unit ∈ text,
    unit ≠ 0 ∧ unit ≠ wideQuote ∧ IsScalar unit.toNat

/-! ## The parts of a line -/

theorem words_eq_splitPart
    (quoteMode : Bool) (i : ℕ) (dest1 line : List UInt16) (hstart : i = 0 → dest1 = []) :
    words commandLineDelimiters quoteMode (if i = 0 then none else some dest1) line =
      (if (splitPart quoteMode i dest1 line).1 then
          [(splitPart quoteMode i dest1 line).2.1] else []) ++
        words commandLineDelimiters false none (splitPart quoteMode i dest1 line).2.2 := by
  induction line generalizing quoteMode i dest1 with
  | nil => by_cases hi : i = 0 <;> simp [words, splitPart, hi]
  | cons c rest ih =>
      have hread : (if i = 0 then none else some dest1).getD [] = dest1 := by
        by_cases hi : i = 0 <;> simp [hi, hstart]
      by_cases hcut : ((c = wideSpace || c = wideTab) && !quoteMode) = true
      · obtain ⟨hseparator, hmode⟩ := Bool.and_eq_true_iff.mp hcut
        have hstop : splitPart quoteMode i dest1 (c :: rest) = (i != 0, dest1, rest) :=
          if_pos hcut
        have hmode : quoteMode = false := by simpa using hmode
        rw [hstop, hmode, words_separator commandLineDelimiters hseparator]
        by_cases hi : i = 0 <;> simp [hi]
      · by_cases hquote : c = wideQuote
        · have hnext := ih (!quoteMode) (i + 1) dest1 (by omega)
          have hloop : splitPart quoteMode i dest1 (c :: rest) =
              splitPart (!quoteMode) (i + 1) dest1 rest :=
            (if_neg hcut).trans (if_pos hquote)
          have hword := words_quote commandLineDelimiters quoteMode
            (if i = 0 then none else some dest1) rest
          rw [if_neg (by omega)] at hnext
          rw [hread] at hword
          rw [hloop, ← hnext, hquote]
          exact hword
        · have hnext := ih quoteMode (i + 1) (dest1 ++ [c]) (by omega)
          have hloop : splitPart quoteMode i dest1 (c :: rest) =
              splitPart quoteMode (i + 1) (dest1 ++ [c]) rest :=
            (if_neg hcut).trans (if_neg hquote)
          have hword := words_letter commandLineDelimiters (eq_false_of_ne_true hcut) hquote
            (if i = 0 then none else some dest1) rest
          rw [if_neg (by omega)] at hnext
          rw [hread] at hword
          rw [hloop, ← hnext]
          exact hword

theorem length_splitPart_le (quoteMode : Bool) (i : ℕ) (dest1 line : List UInt16) :
    (splitPart quoteMode i dest1 line).2.2.length ≤ line.length - 1 := by
  induction line generalizing quoteMode i dest1 with
  | nil => simp [splitPart]
  | cons c rest ih =>
      unfold splitPart
      split_ifs
      · simp
      · exact (ih _ _ _).trans (by simp)
      · exact (ih _ _ _).trans (by simp)

/-- The loop ends with the words of the line. -/
theorem splitParts_eq {fuel : ℕ} {line : List UInt16} (hfuel : line.length < fuel)
    (parts : List (List UInt16)) :
    splitParts fuel line parts =
      some (parts ++ words commandLineDelimiters false none line) := by
  induction fuel generalizing line parts with
  | zero => omega
  | succ fuel ih =>
      have hwords := words_eq_splitPart false 0 [] line (fun _ => rfl)
      have hlength := length_splitPart_le false 0 [] line
      unfold splitParts
      generalize splitPart false 0 [] line = part at *
      obtain ⟨found, s1, s2⟩ := part
      simp only [if_true] at hwords hlength ⊢
      rw [hwords]
      by_cases hdone : s2 = []
      · cases found <;> simp [hdone, words]
      · have hrest : s2.length < fuel := by
          have hpos := List.length_pos_of_ne_nil hdone
          omega
        rw [if_neg hdone, ih hrest]
        cases found <;> simp

theorem eq_of_splitParts {fuel : ℕ} {line : List UInt16} {parts all : List (List UInt16)}
    (hsplit : splitParts fuel line parts = some all) :
    all = parts ++ words commandLineDelimiters false none line := by
  induction fuel generalizing line parts with
  | zero => simp [splitParts] at hsplit
  | succ fuel ih =>
      have hwords := words_eq_splitPart false 0 [] line (fun _ => rfl)
      unfold splitParts at hsplit
      generalize splitPart false 0 [] line = part at *
      obtain ⟨found, s1, s2⟩ := part
      simp only [if_true] at hwords hsplit
      rw [hwords]
      by_cases hdone : s2 = []
      · rw [if_pos hdone] at hsplit
        rw [← Option.some.inj hsplit]
        cases found <;> simp [hdone, words]
      · rw [if_neg hdone] at hsplit
        rw [ih hsplit]
        cases found <;> simp

/-- The parts of the line, in the terms of its words. -/
def commandParts (line : List UInt16) : List (List UInt16) :=
  words commandLineDelimiters false none (trim line)

theorem splitCommandLine_eq {fuel : ℕ} {line : List UInt16} (hfuel : line.length < fuel) :
    splitCommandLine fuel line = some (commandParts line) := by
  have htrim : (trim line).length ≤ line.length :=
    (List.dropWhile_sublist _).length_le.trans (List.rdropWhile_prefix _ _).length_le
  exact splitParts_eq (by omega) []

theorem eq_of_splitCommandLine {fuel : ℕ} {line : List UInt16}
    {parts : List (List UInt16)} (hsplit : splitCommandLine fuel line = some parts) :
    parts = commandParts line :=
  eq_of_splitParts hsplit

theorem sublist_of_mem_commandParts {line part : List UInt16}
    (hmem : part ∈ commandParts line) : part.Sublist line := by
  have hsub := sublist_of_mem_words hmem
  rw [Option.getD_none, List.nil_append] at hsub
  exact hsub.trans ((List.dropWhile_sublist _).trans (List.rdropWhile_prefix _ _).sublist)

theorem quote_notMem_of_mem_commandParts {line part : List UInt16}
    (hmem : part ∈ commandParts line) : wideQuote ∉ part :=
  quote_notMem_of_mem_words (d := commandLineDelimiters) (by simp) hmem

theorem trim_quoted {texts : List (List UInt16)} (hne : texts ≠ []) :
    trim (quoted texts) = quoted texts := by
  have hhead : (quoted texts).head? = some wideQuote := head?_quotedLine hne
  have hlast : (quoted texts).getLast? = some wideQuote := getLast?_quotedLine hne
  have hright : (quoted texts).rdropWhile isTrimmed = quoted texts := by
    obtain ⟨front, hfront⟩ := List.getLast?_eq_some_iff.mp hlast
    rw [hfront]
    exact List.rdropWhile_concat_neg _ _ _ (by decide)
  obtain ⟨rest, hrest⟩ := List.head?_eq_some_iff.mp hhead
  unfold trim
  rw [hright, hrest]
  exact List.dropWhile_cons_of_neg (by decide)

theorem commandParts_quoted {texts : List (List UInt16)} (hne : texts ≠ [])
    (hquote : ∀ text ∈ texts, wideQuote ∉ text) :
    commandParts (quoted texts) = texts := by
  unfold commandParts
  rw [trim_quoted hne]
  exact words_quotedLine (d := commandLineDelimiters) (by decide) hquote

/-! ## The properties of `process` -/

theorem pushNative_eq {units : List UInt16} (hzero : 0 ∉ units)
    (hlength : units.length < 2 ^ 15) : pushNative units = .ok (utf16ToUtf8 units) := by
  have hbytes := length_utf16ToUtf8_le units
  have hlimit : ¬(utf16ToUtf8 units).length > hstringMaxBytelen := by
    unfold hstringMaxBytelen
    omega
  unfold pushNative
  rw [pushString_of_zero_notMem (zero_notMem_utf16ToUtf8 hzero), if_neg hlimit]

theorem mapM_pushNative_eq {texts : List (List UInt16)}
    (htexts : ∀ text ∈ texts, 0 ∉ text ∧ text.length < 2 ^ 15) :
    texts.mapM pushNative = .ok (texts.map utf16ToUtf8) := by
  induction texts with
  | nil => rfl
  | cons text texts ih =>
      obtain ⟨hzero, hlength⟩ := htexts text (by simp)
      rw [List.mapM_cons, pushNative_eq hzero hlength,
        ih fun other hmem => htexts other (List.mem_cons_of_mem _ hmem)]
      rfl

/-- The texts that the parts of a command line stand for. -/
def programTexts : List (List UInt16) → List (List UInt16)
  | [] => []
  | [execPath] => [execPath, defaultFileName]
  | execPath :: fileName :: scriptArgv =>
      execPath :: (if fileName = [] then defaultFileName else fileName) :: scriptArgv

theorem defaultFileName_units :
    ∀ unit ∈ defaultFileName, unit ≠ 0 ∧ unit ≠ wideQuote ∧ IsScalar unit.toNat := by
  simp [defaultFileName, wideQuote, IsScalar]

theorem mem_programTexts {parts : List (List UInt16)} {text : List UInt16}
    (hmem : text ∈ programTexts parts) : text = defaultFileName ∨ text ∈ parts := by
  unfold programTexts at hmem
  split at hmem
  · simp at hmem
  · simp at hmem ⊢
    tauto
  · rename_i execPath fileName scriptArgv
    by_cases hempty : fileName = [] <;> simp [hempty] at hmem ⊢ <;> tauto

theorem script_ne_nil {parts : List (List UInt16)} {script : List UInt16}
    (hscript : (programTexts parts)[1]? = some script) : script ≠ [] := by
  have hdefault : defaultFileName ≠ [] := by
    intro hnil
    simpa [defaultFileName] using congrArg List.length hnil
  match parts with
  | [] => simp [programTexts] at hscript
  | [_] =>
      have heq : defaultFileName = script := by simpa [programTexts] using hscript
      rwa [← heq]
  | _ :: fileName :: _ =>
      by_cases hfile : fileName = []
      · have heq : defaultFileName = script := by simpa [programTexts, hfile] using hscript
        rwa [← heq]
      · have heq : fileName = script := by simpa [programTexts, hfile] using hscript
        rwa [← heq]

/-- Either there is no part, or the properties are made of the parts. -/
theorem processSettings_cases {parts : List (List UInt16)}
    (hparts : ∀ part ∈ parts, 0 ∉ part ∧ part.length < 2 ^ 15) :
    parts = [] ∧ (processSettings parts >>= setupArguments) = .error .noCommandStrings ∨
      ∃ process, (processSettings parts >>= setupArguments) = .ok process ∧
        process.Say utf16ToUtf8 (programTexts parts) := by
  have hdefault : 0 ∉ defaultFileName ∧ defaultFileName.length < 2 ^ 15 :=
    ⟨fun hmem => (defaultFileName_units 0 hmem).1 rfl, by simp [defaultFileName]⟩
  have hsetup : ∀ execPath scriptPath scriptArgv,
      (0 ∉ execPath ∧ execPath.length < 2 ^ 15) →
      (0 ∉ scriptPath ∧ scriptPath.length < 2 ^ 15) →
      (∀ text ∈ scriptArgv, 0 ∉ text ∧ text.length < 2 ^ 15) →
      ∃ process, setupArguments ⟨execPath, scriptPath, scriptArgv, []⟩ = .ok process ∧
        process.Say utf16ToUtf8 (execPath :: scriptPath :: scriptArgv) := by
    intro execPath scriptPath scriptArgv hexec hscript hargv
    unfold setupArguments
    simp only [pushNative_eq hexec.1 hexec.2, pushNative_eq hscript.1 hscript.2,
      mapM_pushNative_eq hargv]
    exact ⟨_, rfl, rfl, rfl, rfl, rfl, rfl⟩
  match parts with
  | [] => exact .inl ⟨rfl, rfl⟩
  | [execPath] =>
      exact .inr (hsetup execPath defaultFileName [] (hparts execPath (by simp)) hdefault
        (by simp))
  | execPath :: fileName :: scriptArgv =>
      refine .inr (hsetup execPath _ scriptArgv (hparts execPath (by simp)) ?_ ?_)
      · by_cases hempty : fileName = []
        · rw [if_pos hempty]
          exact hdefault
        · rw [if_neg hempty]
          exact hparts fileName (by simp)
      · intro text hmem
        exact hparts text (by simp [hmem])

namespace CommandLine

variable (line : CommandLine)

theorem bounds_of_mem {part : List UInt16} (hmem : part ∈ commandParts line.units) :
    0 ∉ part ∧ part.length < 2 ^ 15 := by
  have hsub := sublist_of_mem_commandParts hmem
  exact ⟨fun hzero => line.zero_notMem (hsub.subset hzero),
    hsub.length_le.trans_lt line.fits⟩

theorem of_processArguments {fuel : ℕ} {process : ProcessArguments}
    (hrun : processArguments fuel line.units = some (.ok process)) :
    commandParts line.units ≠ [] ∧
      process.Say utf16ToUtf8 (programTexts (commandParts line.units)) := by
  unfold processArguments at hrun
  rw [Option.bind_eq_bind, Option.bind_eq_some_iff] at hrun
  obtain ⟨parts, hsplit, hsettings⟩ := hrun
  rw [eq_of_splitCommandLine hsplit] at hsettings
  have hdone := Option.some.inj hsettings
  rcases processSettings_cases fun part hmem => line.bounds_of_mem hmem with
    ⟨-, hnone⟩ | ⟨other, hother, hsay⟩
  · rw [hnone] at hdone
    cases hdone
  · rw [hother] at hdone
    cases hdone
    refine ⟨?_, hsay⟩
    intro hnil
    rw [hnil] at hother
    cases hother

theorem exists_settings {fileName : List UInt16}
    (hscript : (commandParts line.units)[1]? = some fileName) (hne : fileName ≠ []) :
    ∃ settings process, processSettings (commandParts line.units) = .ok settings ∧
      settings.scriptPath = fileName ∧ setupArguments settings = .ok process := by
  have hcases := processSettings_cases fun part hmem => line.bounds_of_mem hmem
  generalize commandParts line.units = parts at hscript hcases
  match parts with
  | [] => simp at hscript
  | [_] => simp at hscript
  | execPath :: file :: scriptArgv =>
      have hfile : file = fileName := by simpa using hscript
      rcases hcases with ⟨hnil, _⟩ | ⟨process, hprocess, _⟩
      · simp at hnil
      · exact ⟨_, process, rfl, by simp [hfile, hne], hprocess⟩

end CommandLine

/-! ## What can be passed -/

section Windows

variable {File : Type} {fs : FileSystem File} {vol : Volume File}

theorem passable_of_passes {line : CommandLine} {texts : List (List UInt16)}
    (hpasses : Passes fs vol line.units texts) : Passable texts := by
  obtain ⟨fuel, commandStrings, settings, process, hsplit, hsettings, -, hsetup, hsay⟩ :=
    hpasses
  have hrun : processArguments fuel line.units = some (.ok process) := by
    unfold processArguments
    rw [hsplit, Option.bind_eq_bind, Option.bind_some, hsettings]
    exact congrArg some hsetup
  obtain ⟨hparts, hnative⟩ := line.of_processArguments hrun
  have hsame : texts.map storedUnits =
      (programTexts (commandParts line.units)).map utf16ToUtf8 :=
    hsay.argv.symm.trans hnative.argv
  have hunits : ∀ native ∈ programTexts (commandParts line.units),
      0 ∉ native ∧ wideQuote ∉ native := by
    intro native hmem
    rcases mem_programTexts hmem with rfl | hpart
    · exact ⟨fun hzero => (defaultFileName_units _ hzero).1 rfl,
        fun hquote => (defaultFileName_units _ hquote).2.1 rfl⟩
    · exact ⟨(line.bounds_of_mem hpart).1, quote_notMem_of_mem_commandParts hpart⟩
  refine ⟨?_, ?_⟩
  · obtain ⟨text, htext, hstored⟩ := Option.map_eq_some_iff.mp hsay.scriptPath
    refine ⟨text, htext, ?_⟩
    rintro rfl
    obtain ⟨script, hscript, hencoded⟩ := Option.map_eq_some_iff.mp hnative.scriptPath
    have hempty : script = [] := utf16ToUtf8_eq_nil_iff.mp (hencoded.trans hstored.symm)
    rw [hempty] at hscript
    exact script_ne_nil hscript rfl
  · intro text hmem unit hunit
    have hstored : storedUnits text ∈ texts.map storedUnits := List.mem_map_of_mem hmem
    rw [hsame] at hstored
    obtain ⟨native, hnative, heq⟩ := List.mem_map.mp hstored
    obtain ⟨hzero, hquote⟩ := hunits native hnative
    refine ⟨?_, ?_, isScalar_of_utf16ToUtf8_eq heq unit hunit⟩
    · rintro rfl
      exact hzero (mem_of_utf16ToUtf8_eq heq (by decide) hunit)
    · rintro rfl
      exact hquote (mem_of_utf16ToUtf8_eq heq (by decide) hunit)

namespace Passable

variable {texts : List (List UInt16)} (h : Passable texts)

include h

theorem ne_nil : texts ≠ [] := by
  rintro rfl
  obtain ⟨_, hscript, -⟩ := h.script
  simp at hscript

theorem zero_notMem_quoted : 0 ∉ quoted texts := by
  intro hzero
  rcases mem_of_mem_quotedLine hzero with hquote | hblank | ⟨text, hmem, hunit⟩
  · exact absurd hquote (by decide)
  · exact absurd hblank (by decide)
  · exact (h.units text hmem 0 hunit).1 rfl

theorem commandParts_quoted : commandParts (quoted texts) = texts :=
  NekoScript.commandParts_quoted h.ne_nil fun text hmem hquote =>
    (h.units text hmem _ hquote).2.1 rfl

theorem programTexts_eq : programTexts texts = texts := by
  obtain ⟨script, hscript, hne⟩ := h.script
  match texts with
  | [] => rfl
  | [_] => simp at hscript
  | _ :: fileName :: _ =>
      have hfile : fileName = script := by simpa using hscript
      simp [programTexts, hfile, hne]

theorem map_utf16ToUtf8 : texts.map utf16ToUtf8 = texts.map storedUnits := by
  apply List.map_congr_left
  intro text hmem
  exact (utf16ToUtf8_eq_storedUnits_iff text).mpr fun unit hunit =>
    (h.units text hmem unit hunit).2.2

theorem say {process : ProcessArguments} (hsay : process.Say utf16ToUtf8 texts) :
    process.Say storedUnits texts := by
  have hat : ∀ i : ℕ, texts[i]?.map storedUnits = texts[i]?.map utf16ToUtf8 := by
    intro i
    rw [← List.getElem?_map, ← List.getElem?_map, h.map_utf16ToUtf8]
  have hdrop : (texts.drop 2).map utf16ToUtf8 = (texts.drop 2).map storedUnits := by
    rw [List.map_drop, List.map_drop, h.map_utf16ToUtf8]
  exact ⟨hsay.argv.trans h.map_utf16ToUtf8, hsay.scriptArgv.trans hdrop, hsay.execArgv,
    (hat 0).trans hsay.execPath, (hat 1).trans hsay.scriptPath⟩

theorem passes_quoted (hfits : (quoted texts).length < 2 ^ 15)
    (hexists : ∀ script, texts[1]? = some script → fileExists fs vol script = true) :
    Passes fs vol (quoted texts) texts := by
  let line : CommandLine := ⟨quoted texts, h.zero_notMem_quoted, hfits⟩
  have hparts : commandParts line.units = texts := h.commandParts_quoted
  obtain ⟨script, hscript, hne⟩ := h.script
  rcases line.exists_settings (by rw [hparts, hscript]) hne with
    ⟨settings, process, hsettings, hpath, hsetup⟩
  have hsplit := splitCommandLine_eq (Nat.lt_succ_self line.units.length)
  have hrun : processArguments (line.units.length + 1) line.units = some (.ok process) := by
    unfold processArguments
    rw [hsplit, Option.bind_eq_bind, Option.bind_some, hsettings]
    exact congrArg some hsetup
  have hsay := (line.of_processArguments hrun).2
  rw [hparts, h.programTexts_eq] at hsay
  exact ⟨_, _, settings, process, hsplit, hsettings, hpath ▸ hexists script hscript, hsetup,
    h.say hsay⟩

end Passable

/-- For a script whose file exists: what no command line can pass is what has a
NUL, a quotation mark or a surrogate in it, or names no script; the rest is passed
with quotation marks around each text. -/
theorem passes_tfae {texts : List (List UInt16)} (hfits : (quoted texts).length < 2 ^ 15)
    (hexists : ∀ script, texts[1]? = some script → fileExists fs vol script = true) :
    List.TFAE [∃ line : CommandLine, Passes fs vol line.units texts,
      0 ∉ quoted texts ∧ Passes fs vol (quoted texts) texts, Passable texts] := by
  tfae_have 1 → 3 := fun ⟨_, hpasses⟩ => passable_of_passes hpasses
  tfae_have 3 → 2 := fun h => ⟨h.zero_notMem_quoted, h.passes_quoted hfits hexists⟩
  tfae_have 2 → 1 := fun ⟨hzero, hpasses⟩ => ⟨⟨quoted texts, hzero, hfits⟩, hpasses⟩
  tfae_finish

end Windows

/-- A script with a blank in its name, and an empty argument. -/
def spacedTexts : List (List UInt16) := [[0x6E], [0x61, wideSpace, 0x62], []]

theorem passes_tfae_spacedTexts :
    Passes JSFileSystem.singleFile (JSFileSystem.emptyVolume.setEntry () (some (.file [])))
      (quoted spacedTexts) spacedTexts := by
  have hpassable : Passable spacedTexts := by
    refine ⟨⟨_, rfl, by decide⟩, ?_⟩
    simp [spacedTexts, wideSpace, wideQuote, IsScalar]
  have hiff : Passable spacedTexts ↔ 0 ∉ quoted spacedTexts ∧
      Passes JSFileSystem.singleFile (JSFileSystem.emptyVolume.setEntry () (some (.file [])))
        (quoted spacedTexts) spacedTexts :=
    (@passes_tfae Unit JSFileSystem.singleFile
      (JSFileSystem.emptyVolume.setEntry () (some (.file []))) spacedTexts (by decide)
      (by simp [fileExists, JSFileSystem.singleFile])).out 2 1
  exact (hiff.mp hpassable).2

end NekoScript
