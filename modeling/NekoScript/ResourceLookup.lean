import NekoScript.GenerateResources
import Mathlib.Tactic

/-!
# Looking up generated resources

The tables invert: for any number of resources the row of each denotes its
content.  The header does not: its `#define`s are on one line and all give the
same index, so only a single resource can be looked up by name.
-/

namespace NekoScript

open CSourceText Transducers

/-! ## Generated literals -/

theorem toNat_toInt32 (i : ℕ) :
    (toInt32 i + 4294967296).toNat % 4294967296 = i % 4294967296 := by
  have hmod : toInt32 i % ((4294967296 : ℕ) : ℤ) = (i : ℤ) % ((4294967296 : ℕ) : ℤ) :=
    Int.bmod_emod
  have hlow : -(((4294967296 : ℕ) : ℤ) / 2) ≤ toInt32 i :=
    Int.le_bmod (by norm_num)
  push_cast at hmod hlow
  omega

theorem hexPad_eq (i : ℕ) :
    hexPad i =
      '0' :: 'x' :: lowDigits 16 8 (toInt32 i + 4294967296).toNat := by
  set value := (toInt32 i + 4294967296).toNat with hvalue
  have hpos : 0 < (Nat.toDigits 16 value).length := Nat.length_toDigits_pos
  have hdigits := drop_replicate_append_toDigits (by decide : 1 < 16) 8 7 value
    (by omega)
  have hzeros : "0000000".toList = List.replicate 7 '0' := by decide
  unfold hexPad
  dsimp only
  rw [← hvalue, hzeros, List.length_append, List.length_replicate, hdigits]
  rfl

theorem length_lowDigits (base width value : ℕ) :
    (lowDigits base width value).length = width := by
  induction width generalizing value with
  | zero => rfl
  | succ width ih => rw [lowDigits, List.length_append, ih, List.length_singleton]

theorem isWordChar_of_mem_lowDigits
    {width value : ℕ} {c : Char} (hmem : c ∈ lowDigits 16 width value) :
    isWordChar c = true := by
  induction width generalizing value with
  | zero => simp [lowDigits] at hmem
  | succ width ih =>
      rw [lowDigits, List.mem_append, List.mem_singleton] at hmem
      rcases hmem with hmem | rfl
      · exact ih hmem
      · have hall : ∀ d : Fin 16, isWordChar d.val.digitChar = true := by decide
        exact hall ⟨value % 16, Nat.mod_lt _ (by decide)⟩

theorem isWord_hexPad (i : ℕ) : IsWord (hexPad i) := by
  rw [hexPad_eq]
  constructor
  · simp
  · intro c hmem
    rw [List.mem_cons, List.mem_cons] at hmem
    rcases hmem with rfl | rfl | hmem
    · decide
    · decide
    · exact isWordChar_of_mem_lowDigits hmem

theorem integerLiteral_hexPad (i : ℕ) :
    integerLiteral (hexPad i) = some (i % 4294967296) := by
  rw [hexPad_eq]
  set value := (toInt32 i + 4294967296).toNat with hvalue
  have hread := readDigits_lowDigits (by decide : 0 < 16) le_rfl 8 value 0
  have hlength := length_lowDigits 16 8 value
  have hmod : value % 16 ^ 8 = i % 4294967296 := toNat_toInt32 i
  cases hdigits : lowDigits 16 8 value with
  | nil => simp [hdigits] at hlength
  | cons c rest =>
      rw [hdigits, hmod, Nat.zero_mul, Nat.zero_add] at hread
      exact hread

def decimalDigits (byte : UInt8) : List Char := Nat.toDigits 10 byte.toNat

theorem feed_hexDumpCell (byte : UInt8) :
    lexer.feed .blank (hexDumpCell byte) =
      ([.word (decimalDigits byte), .symbol ','], .blank) := by
  have hall : ∀ n : Fin 256, lexer.feed .blank (hexDumpCell (.ofNat n.val)) =
      ([.word (decimalDigits (.ofNat n.val)), .symbol ','], .blank) := by
    decide +kernel
  have hbyte := hall ⟨byte.toNat, byte.toNat_lt⟩
  simpa using hbyte

theorem integerLiteral_decimalDigits (byte : UInt8) :
    integerLiteral (decimalDigits byte) = some byte.toNat := by
  have hall : ∀ n : Fin 256, integerLiteral (decimalDigits (.ofNat n.val)) =
      some n.val := by
    decide +kernel
  have hbyte := hall ⟨byte.toNat, byte.toNat_lt⟩
  simpa using hbyte

/-! ## The texts -/

/-- C identifiers; what can follow `NEKORES_` in a macro name. -/
structure IsIdentifier (name : List Char) : Prop where
  word : IsWord name
  start : ∀ c, name.head? = some c → c.isDigit = false

theorem isIdentifier_of_all
    {name : List Char} (hne : name ≠ []) (hall : name.all isWordChar = true)
    (hstart : name.head?.all (fun c => !c.isDigit) = true) :
    IsIdentifier name := by
  refine ⟨⟨hne, List.all_eq_true.mp hall⟩, ?_⟩
  intro c hc
  rw [hc, Option.all_some] at hstart
  simpa using hstart

theorem newline_notMem_of_isWord {name : List Char} (hword : IsWord name) :
    '\n' ∉ name := by
  intro hmem
  have hchar := hword.chars '\n' hmem
  revert hchar
  decide

/-- Each resource with its offset, from `offset` on. -/
def rowsFrom : ℕ → List Resource → List (ℕ × Resource)
  | _, [] => []
  | offset, r :: rest => (offset, r) :: rowsFrom (offset + (r.content.length + 1)) rest

theorem map_snd_rowsFrom (offset : ℕ) (resources : List Resource) :
    (rowsFrom offset resources).map Prod.snd = resources := by
  induction resources generalizing offset with
  | nil => rfl
  | cons r resources ih => rw [rowsFrom, List.map_cons, ih]

/-- What `addResource` appends to the header. -/
def headerText (index : ℕ) (r : Resource) : List Char :=
  "#define NEKORES_".toList ++ r.name ++ "\t".toList ++ hexPad index

def rowText (index : ℕ) (row : ℕ × Resource) : List Char :=
  "    \x7b".toList ++ hexPad index ++ ", ".toList ++ hexPad row.1 ++ ", ".toList ++
    hexPad row.2.content.length ++ "\x7d, //".toList ++ row.2.name ++ "\n".toList

def dumpText (data : List UInt8) : List Char :=
  data.zipIdx.flatMap fun (byte, i) =>
    (if i % 16 = 0 then "\n".toList else []) ++ hexDumpCell byte

def blockText (r : Resource) : List Char :=
  "\n// ".toList ++ r.name ++ dumpText r.content ++ "\n  0,".toList

def headerTexts (resources : List Resource) : List Char :=
  resources.flatMap (headerText 0)

def codeText (resources : List Resource) : List Char :=
  "const _NekoRes_Meta_t _NekoRes_Meta[] = \x7b\n".toList ++
    (rowsFrom 0 resources).flatMap (rowText 0) ++ "\x7d;\n\n".toList ++
    ("const unsigned char _NekoRes_Payload[] = \x7b".toList ++
      resources.flatMap blockText ++ "\n\x7d;".toList)

/-! ## Texts that grow -/

/-- `f` appends `text`, or throws if the result is too long. -/
def Appends (f : List Char → Option (List Char)) (text : List Char) : Prop :=
  ∀ before, before.length ≤ textLimit → f before = limited (before ++ text)

theorem limited_of_le {text : List Char} (hle : text.length ≤ textLimit) :
    limited text = some text := if_pos hle

theorem limited_of_lt {text : List Char} (hlt : textLimit < text.length) :
    limited text = none := if_neg (by omega)

theorem appends_concat (text : List Char) : Appends (concat · text) text :=
  fun _ _ => rfl

/-- What is too long stays too long. -/
theorem Appends.limited_bind
    {f : List Char → Option (List Char)} {text : List Char} (hf : Appends f text)
    (before : List Char) : (limited before).bind f = limited (before ++ text) := by
  by_cases hle : before.length ≤ textLimit
  · rw [limited_of_le hle, Option.bind_some, hf before hle]
  · rw [limited_of_lt (by omega), limited_of_lt (by rw [List.length_append]; omega)]
    rfl

theorem Appends.bind
    {f g : List Char → Option (List Char)} {text other : List Char}
    (hf : Appends f text) (hg : Appends g other) :
    Appends (fun before => (f before).bind g) (text ++ other) := by
  intro before hle
  change (f before).bind g = _
  rw [hf before hle, hg.limited_bind, List.append_assoc]

theorem appends_foldlM
    {α : Type} {f : List Char → α → Option (List Char)} {text : α → List Char}
    (hf : ∀ item, Appends (f · item) (text item)) (items : List α) :
    Appends (items.foldlM f ·) (items.flatMap text) := by
  induction items with
  | nil =>
      intro before hle
      rw [List.flatMap_nil, List.append_nil, limited_of_le hle]
      rfl
  | cons item items ih => exact (hf item).bind ih

theorem concatAll_eq
    {text : List Char} (hle : text.length ≤ textLimit) (texts : List (List Char)) :
    concatAll (text :: texts) = limited (text ++ texts.flatten) := by
  have hall := appends_foldlM appends_concat texts text hle
  rwa [List.flatMap_id'] at hall

/-- A text is made and then appended. -/
theorem limited_bind_concat
    {α : Type} (before text : List Char) (next : List Char → Option α) :
    ((limited text).bind fun text => (concat before text).bind next) =
      (limited (before ++ text)).bind next := by
  by_cases hle : text.length ≤ textLimit
  · rw [limited_of_le hle]
    rfl
  · rw [limited_of_lt (by omega), limited_of_lt (by rw [List.length_append]; omega)]
    rfl

theorem addResource_eq (g : ResourceTexts) (r : Resource) :
    addResource g r.name r.content =
      (limited (g.header ++ headerText g.index r)).bind fun header =>
        (limited (g.metas ++ rowText g.index (g.offset, r))).bind fun metas =>
          some { g with
            header := header
            metas := metas
            blocks := g.blocks ++ [r.content]
            blockTag := g.blockTag ++ [r.name]
            offset := g.offset + (r.content.length + 1) } := by
  have hdefine : "#define NEKORES_".toList.length ≤ textLimit := by decide
  have hbrace : "    \x7b".toList.length ≤ textLimit := by decide
  have hdefinition := concatAll_eq hdefine [r.name, "\t".toList, hexPad g.index]
  have hrow := concatAll_eq hbrace
    [hexPad g.index, ", ".toList, hexPad g.offset, ", ".toList,
      hexPad r.content.length, "\x7d, //".toList, r.name, "\n".toList]
  have hheaderText : "#define NEKORES_".toList ++
      [r.name, "\t".toList, hexPad g.index].flatten = headerText g.index r := by
    unfold headerText
    generalize hexPad g.index = index
    simp only [List.flatten_cons, List.flatten_nil, List.append_nil, List.append_assoc]
  have hrowText : "    \x7b".toList ++ [hexPad g.index, ", ".toList, hexPad g.offset,
      ", ".toList, hexPad r.content.length, "\x7d, //".toList, r.name, "\n".toList].flatten =
        rowText g.index (g.offset, r) := by
    unfold rowText
    dsimp only
    generalize hexPad g.index = index, hexPad g.offset = offset,
      hexPad r.content.length = length
    simp only [List.flatten_cons, List.flatten_nil, List.append_nil, List.append_assoc]
  rw [hheaderText] at hdefinition
  rw [hrowText] at hrow
  unfold addResource
  simp only [Option.bind_eq_bind, hdefinition, hrow, limited_bind_concat]
  rfl

/-- The texts once all resources have been added. -/
def textsAfter (g : ResourceTexts) (resources : List Resource) : ResourceTexts :=
  { g with
    header := g.header ++ resources.flatMap (headerText g.index)
    metas := g.metas ++ (rowsFrom g.offset resources).flatMap (rowText g.index)
    blocks := g.blocks ++ resources.map Resource.content
    blockTag := g.blockTag ++ resources.map Resource.name
    offset := g.offset + (resources.map fun r => r.content.length + 1).sum }

theorem foldlM_addResource (resources : List Resource) (g : ResourceTexts)
    (hheader : g.header.length ≤ textLimit) (hmetas : g.metas.length ≤ textLimit) :
    resources.foldlM (fun g r => addResource g r.name r.content) g =
      (limited (textsAfter g resources).header).bind fun _ =>
        (limited (textsAfter g resources).metas).bind fun _ =>
          some (textsAfter g resources) := by
  induction resources generalizing g with
  | nil =>
      have hsame : textsAfter g [] = g := by simp [textsAfter, rowsFrom]
      rw [hsame, limited_of_le hheader, limited_of_le hmetas]
      rfl
  | cons r resources ih =>
      have hrest : ∀ (header metas : List Char) (next : ResourceTexts),
          next = { g with
            header := header
            metas := metas
            blocks := g.blocks ++ [r.content]
            blockTag := g.blockTag ++ [r.name]
            offset := g.offset + (r.content.length + 1) } →
          header = g.header ++ headerText g.index r →
          metas = g.metas ++ rowText g.index (g.offset, r) →
          textsAfter next resources = textsAfter g (r :: resources) := by
        rintro header metas next rfl rfl rfl
        simp [textsAfter, rowsFrom, Nat.add_assoc]
      have hheaderLe : (g.header ++ headerText g.index r).length ≤
          (textsAfter g (r :: resources)).header.length := by
        simp only [textsAfter, List.flatMap_cons, List.length_append]
        omega
      have hmetasLe : (g.metas ++ rowText g.index (g.offset, r)).length ≤
          (textsAfter g (r :: resources)).metas.length := by
        simp only [textsAfter, rowsFrom, List.flatMap_cons, List.length_append]
        omega
      rw [List.foldlM_cons, addResource_eq]
      by_cases hfirst : (g.header ++ headerText g.index r).length ≤ textLimit
      · by_cases hsecond : (g.metas ++ rowText g.index (g.offset, r)).length ≤ textLimit
        · rw [limited_of_le hfirst, limited_of_le hsecond]
          rw [← hrest _ _ _ rfl rfl rfl]
          exact ih _ hfirst hsecond
        · have hlong : textLimit < (textsAfter g (r :: resources)).metas.length := by omega
          rw [limited_of_le hfirst, limited_of_lt (by omega : textLimit < _),
            limited_of_lt hlong]
          cases limited (textsAfter g (r :: resources)).header <;> rfl
      · have hlong : textLimit < (textsAfter g (r :: resources)).header.length := by omega
        rw [limited_of_lt (by omega : textLimit < _), limited_of_lt hlong]
        rfl

theorem flatten_hexDumpResult (data : List UInt8) :
    (hexDumpResult data).flatten = dumpText data := by
  unfold hexDumpResult dumpText
  rw [← List.flatMap_id, List.flatMap_assoc]
  congr 1
  funext ⟨byte, i⟩
  by_cases hbreak : i % 16 = 0
  · simp [hbreak]
  · simp [hbreak]

theorem appends_appendBlock (r : Resource) :
    Appends (appendBlock · (r.content, r.name)) (blockText r) := by
  intro before hle
  have hdump : generateHexDump r.content = limited (dumpText r.content) := by
    unfold generateHexDump join
    rw [flatten_hexDumpResult]
  have hcomment : concat "\n// ".toList r.name = limited ("\n// ".toList ++ r.name) := rfl
  unfold appendBlock blockText
  have hrest := (appends_concat (dumpText r.content)).bind (appends_concat "\n  0,".toList)
  simp only [Option.bind_eq_bind, hdump, hcomment, limited_bind_concat]
  refine (hrest.limited_bind _).trans ?_
  simp only [List.append_assoc]

theorem generateCode_textsAfter (resources : List Resource) :
    generateCode (textsAfter .initial resources) = limited (codeText resources) := by
  have hblocks : ∀ code, ((textsAfter .initial resources).blocks.zip
      (textsAfter .initial resources).blockTag).foldlM appendBlock code =
        resources.foldlM (fun code r => appendBlock code (r.content, r.name)) code := by
    intro code
    have hzip : (resources.map Resource.content).zip (resources.map Resource.name) =
        resources.map fun r => (r.content, r.name) := List.zip_map'
    simp only [textsAfter, ResourceTexts.initial, List.nil_append, hzip, List.foldlM_map]
  have hmeta : metaTable (textsAfter .initial resources) = limited
      ("const _NekoRes_Meta_t _NekoRes_Meta[] = \x7b\n".toList ++
        (rowsFrom 0 resources).flatMap (rowText 0) ++ "\x7d;\n\n".toList) := by
    have hclose : "\x7d;\n".toList ++ "\n".toList = "\x7d;\n\n".toList := rfl
    rw [← hclose]
    refine (appends_foldlM appends_concat _ [] (Nat.zero_le _)).trans ?_
    generalize "const _NekoRes_Meta_t _NekoRes_Meta[] = \x7b\n".toList = opening,
      "\x7d;\n".toList = closing, "\n".toList = newline
    simp [textsAfter, ResourceTexts.initial]
  have hpayload := (appends_concat "const unsigned char _NekoRes_Payload[] = \x7b".toList).bind
    ((appends_foldlM appends_appendBlock resources).bind (appends_concat "\n\x7d;".toList))
  unfold generateCode
  simp only [Option.bind_eq_bind, hblocks, hmeta]
  refine (hpayload.limited_bind _).trans ?_
  unfold codeText
  simp only [List.append_assoc]

/-! ## Their lengths -/

theorem length_hexPad (i : ℕ) : (hexPad i).length = 10 := by
  rw [hexPad_eq]
  simp [length_lowDigits]

theorem length_headerText (index : ℕ) (r : Resource) :
    (headerText index r).length = r.name.length + 27 := by
  unfold headerText
  simp only [List.length_append, length_hexPad]
  simp
  omega

theorem length_rowText (index : ℕ) (row : ℕ × Resource) :
    (rowText index row).length = row.2.name.length + 45 := by
  unfold rowText
  simp only [List.length_append, length_hexPad]
  simp
  omega

theorem length_hexDumpCell (byte : UInt8) : (hexDumpCell byte).length = 5 := by
  have hall : ∀ n : Fin 256, (hexDumpCell (.ofNat n.val)).length = 5 := by
    decide +kernel
  have hbyte := hall ⟨byte.toNat, byte.toNat_lt⟩
  simpa using hbyte

theorem length_dumpText (data : List UInt8) :
    (dumpText data).length = 5 * data.length + (data.length + 15) / 16 := by
  have hfrom : ∀ (start : ℕ) (data : List UInt8),
      ((data.zipIdx start).flatMap fun cell : UInt8 × ℕ =>
        (if cell.2 % 16 = 0 then "\n".toList else []) ++ hexDumpCell cell.1).length =
          5 * data.length + ((start + data.length + 15) / 16 - (start + 15) / 16) := by
    intro start data
    induction data generalizing start with
    | nil => simp
    | cons byte data ih =>
        rw [List.zipIdx_cons, List.flatMap_cons, List.length_append, ih,
          List.length_append, length_hexDumpCell, List.length_cons]
        by_cases hbreak : start % 16 = 0
        · have hnewline : "\n".toList.length = 1 := rfl
          rw [if_pos hbreak, hnewline]
          omega
        · rw [if_neg hbreak, List.length_nil]
          omega
  have hall := hfrom 0 data
  rw [Nat.zero_add] at hall
  exact hall

/-- The length of the code, for what is embedded. -/
def codeSize (resources : List Resource) : ℕ :=
  91 + (resources.map fun r => 2 * r.name.length + 5 * r.content.length +
    (r.content.length + 15) / 16 + 54).sum

theorem length_codeText (resources : List Resource) :
    (codeText resources).length = codeSize resources := by
  have hrows : ∀ (offset : ℕ) (resources : List Resource),
      ((rowsFrom offset resources).flatMap (rowText 0)).length +
        (resources.flatMap blockText).length =
          (resources.map fun r => 2 * r.name.length + 5 * r.content.length +
            (r.content.length + 15) / 16 + 54).sum := by
    intro offset resources
    induction resources generalizing offset with
    | nil => rfl
    | cons r resources ih =>
        have hnext := ih (offset + (r.content.length + 1))
        have hblock : (blockText r).length =
            r.name.length + (5 * r.content.length + (r.content.length + 15) / 16) + 9 := by
          have hopen : "\n// ".toList.length = 4 := rfl
          have hend : "\n  0,".toList.length = 5 := rfl
          unfold blockText
          simp only [List.length_append, length_dumpText]
          omega
        simp only [rowsFrom, List.flatMap_cons, List.length_append, length_rowText, hblock,
          List.map_cons, List.sum_cons]
        omega
  have hall := hrows 0 resources
  have hmeta : "const _NekoRes_Meta_t _NekoRes_Meta[] = \x7b\n".toList.length = 42 := rfl
  have hmiddle : "\x7d;\n\n".toList.length = 4 := rfl
  have hpayload : "const unsigned char _NekoRes_Payload[] = \x7b".toList.length = 42 := rfl
  have hclose : "\n\x7d;".toList.length = 3 := rfl
  unfold codeText codeSize
  simp only [List.length_append]
  omega

theorem length_headerTexts_le (resources : List Resource) :
    (headerTexts resources).length ≤ (codeText resources).length := by
  have hrows : ∀ (offset : ℕ) (resources : List Resource),
      (resources.flatMap (headerText 0)).length ≤
        ((rowsFrom offset resources).flatMap (rowText 0)).length := by
    intro offset resources
    induction resources generalizing offset with
    | nil => exact le_rfl
    | cons r resources ih =>
        have hnext := ih (offset + (r.content.length + 1))
        simp only [rowsFrom, List.flatMap_cons, List.length_append, length_rowText,
          length_headerText]
        omega
  have hall := hrows 0 resources
  unfold headerTexts codeText
  simp only [List.length_append]
  omega

theorem generate_eq (resources : List Resource) :
    generate resources =
      (limited (codeText resources)).map fun code => ⟨code, headerTexts resources⟩ := by
  have hheader := length_headerTexts_le resources
  have hmetas : (textsAfter .initial resources).metas.length ≤
      (codeText resources).length := by
    unfold codeText
    simp only [textsAfter, ResourceTexts.initial, List.nil_append, List.length_append]
    omega
  have hsame : (textsAfter .initial resources).header = headerTexts resources := by
    simp [textsAfter, ResourceTexts.initial, headerTexts]
  unfold generate
  rw [foldlM_addResource resources .initial (Nat.zero_le _) (Nat.zero_le _)]
  rw [hsame]
  by_cases hle : (codeText resources).length ≤ textLimit
  · rw [limited_of_le (hheader.trans hle), limited_of_le (hmetas.trans hle)]
    simp only [Option.bind_eq_bind, Option.bind_some, generateCode_textsAfter,
      limited_of_le hle, hsame, Option.map_some]
    rfl
  · have hlong : textLimit < (codeText resources).length := by omega
    rw [limited_of_lt hlong]
    cases limited (headerTexts resources) with
    | none => rfl
    | some header =>
        cases limited (textsAfter .initial resources).metas with
        | none => rfl
        | some metas =>
            simp only [Option.bind_eq_bind, Option.bind_some, generateCode_textsAfter,
              limited_of_lt hlong]
            rfl

/-! ## Their tokens -/

theorem feed_word_comma (word : List Char) :
    lexer.feed (.word word) ", ".toList =
      ([.word word, .symbol ','], .blank) := by
  rfl

def rowTokens (index : ℕ) (row : ℕ × Resource) : List Token :=
  [.symbol '{', .word (hexPad index), .symbol ',', .word (hexPad row.1), .symbol ',',
    .word (hexPad row.2.content.length), .symbol '}']

theorem feed_rowText
    (index : ℕ) {row : ℕ × Resource} (hname : IsWord row.2.name) :
    lexer.feed .blank (rowText index row) =
      (rowTokens index row ++ [.symbol ','], .blank) := by
  have hopen : lexer.feed .blank "    \x7b".toList = ([.symbol '{'], .blank) := by
    decide
  have hcomment : lexer.feed (.word (hexPad row.2.content.length))
      "\x7d, //".toList =
        ([.word (hexPad row.2.content.length), .symbol '}', .symbol ','],
          .lineComment) := by
    generalize hexPad row.2.content.length = word
    rfl
  have htag := feed_inside_lineComment (newline_notMem_of_isWord hname)
  have hend : lexer.feed .lineComment "\n".toList = ([], .blank) := by decide
  have hindex := lexer.feed_trans (lexer.feed_trans hopen (isWord_hexPad index).feed)
    (feed_word_comma _)
  have hoffset := lexer.feed_trans
    (lexer.feed_trans hindex (isWord_hexPad row.1).feed) (feed_word_comma _)
  have hlength := lexer.feed_trans
    (lexer.feed_trans hoffset (isWord_hexPad row.2.content.length).feed) hcomment
  have hrow := lexer.feed_trans (lexer.feed_trans hlength htag) hend
  exact hrow

def numberTokens (byte : UInt8) : List Token := [.word (decimalDigits byte)]

theorem feed_dumpText (data : List UInt8) :
    lexer.feed .blank (dumpText data) =
      (data.flatMap fun byte => numberTokens byte ++ [.symbol ','], .blank) := by
  have hcells : ∀ cell ∈ data.zipIdx, lexer.feed .blank
      ((if cell.2 % 16 = 0 then "\n".toList else []) ++ hexDumpCell cell.1) =
        (numberTokens cell.1 ++ [.symbol ','], .blank) := by
    intro cell _
    have hbreak : lexer.feed .blank (if cell.2 % 16 = 0 then "\n".toList else []) =
        ([], .blank) := by
      split <;> decide
    have hcell := lexer.feed_trans hbreak (feed_hexDumpCell cell.1)
    exact hcell
  have hdump := lexer.feed_flatMap
    (fun cell : UInt8 × ℕ =>
      (if cell.2 % 16 = 0 then "\n".toList else []) ++ hexDumpCell cell.1)
    (fun cell => numberTokens cell.1 ++ [Token.symbol ',']) hcells
  have hbytes : data.zipIdx.flatMap
      (fun cell => numberTokens cell.1 ++ [.symbol ',']) =
        data.flatMap fun byte => numberTokens byte ++ [.symbol ','] := by
    have hmap := List.flatMap_map Prod.fst
      (fun byte => numberTokens byte ++ [Token.symbol ',']) data.zipIdx
    rw [← hmap, List.zipIdx_map_fst]
  rw [hbytes] at hdump
  exact hdump

/-- The dump of a block and its final zero start on a new line. -/
theorem exists_newline_dumpText (data : List UInt8) :
    ∃ rest, dumpText data ++ "\n  0,".toList = '\n' :: rest := by
  cases data with
  | nil => exact ⟨_, rfl⟩
  | cons byte data =>
      refine ⟨hexDumpCell byte ++ (data.zipIdx 1).flatMap (fun cell =>
        (if cell.2 % 16 = 0 then "\n".toList else []) ++ hexDumpCell cell.1) ++
          "\n  0,".toList, ?_⟩
      rfl

theorem feed_blockText {r : Resource} (hname : IsWord r.name) :
    lexer.feed .blank (blockText r) =
      ((r.content ++ [0]).flatMap
          (fun byte => numberTokens byte ++ [Token.symbol ',']), .blank) := by
  have hopen : lexer.feed .blank "\n// ".toList = ([], .lineComment) := by decide
  have htag := feed_inside_lineComment (newline_notMem_of_isWord hname)
  have hzero : lexer.feed .blank "\n  0,".toList =
      (numberTokens 0 ++ [.symbol ','], .blank) := by decide
  have hdump := lexer.feed_trans (feed_dumpText r.content) hzero
  obtain ⟨rest, hrest⟩ := exists_newline_dumpText r.content
  have hline : lexer.feed .lineComment
      (dumpText r.content ++ "\n  0,".toList) =
        lexer.feed .blank (dumpText r.content ++ "\n  0,".toList) := by
    rw [hrest]
    exact feed_lineComment_newline rest
  have hblock := lexer.feed_trans (lexer.feed_trans hopen htag) (hline.trans hdump)
  unfold blockText
  rw [List.append_assoc, hblock, List.flatMap_append]
  rfl

def payloadBytes (resources : List Resource) : List UInt8 :=
  resources.flatMap fun r => r.content ++ [0]

def metaType : List Token :=
  [.word "const".toList, .word "_NekoRes_Meta_t".toList]

def payloadType : List Token :=
  [.word "const".toList, .word "unsigned".toList, .word "char".toList]

theorem tokens_codeText
    {resources : List Resource} (hnames : ∀ r ∈ resources, IsWord r.name) :
    tokens (codeText resources) =
      arrayTokens metaType "_NekoRes_Meta".toList
        ((rowsFrom 0 resources).flatMap fun row => rowTokens 0 row ++ [.symbol ','])
        (arrayTokens payloadType "_NekoRes_Payload".toList
          ((payloadBytes resources).flatMap fun byte =>
            numberTokens byte ++ [.symbol ',']) []) := by
  have hrowNames : ∀ row ∈ rowsFrom 0 resources, IsWord row.2.name := by
    intro row hmem
    apply hnames
    rw [← map_snd_rowsFrom 0 resources]
    exact List.mem_map_of_mem hmem
  have hopen : lexer.feed .blank
      "const _NekoRes_Meta_t _NekoRes_Meta[] = \x7b\n".toList =
        ([.word "const".toList, .word "_NekoRes_Meta_t".toList,
          .word "_NekoRes_Meta".toList, .symbol '[', .symbol ']', .symbol '=',
          .symbol '{'], .blank) := by decide
  have hrows := lexer.feed_flatMap (rowText 0)
    (fun row => rowTokens 0 row ++ [Token.symbol ','])
    (fun row hmem => feed_rowText 0 (hrowNames row hmem))
  have hmiddle : lexer.feed .blank "\x7d;\n\n".toList =
      ([.symbol '}', .symbol ';'], .blank) := by decide
  have hpayload : lexer.feed .blank
      "const unsigned char _NekoRes_Payload[] = \x7b".toList =
        ([.word "const".toList, .word "unsigned".toList, .word "char".toList,
          .word "_NekoRes_Payload".toList, .symbol '[', .symbol ']', .symbol '=',
          .symbol '{'], .blank) := by decide
  have hblocks := lexer.feed_flatMap blockText
    (fun r => (r.content ++ [0]).flatMap
      fun byte => numberTokens byte ++ [Token.symbol ','])
    (fun r hmem => feed_blockText (hnames r hmem))
  have hclose : lexer.feed .blank "\n\x7d;".toList =
      ([.symbol '}', .symbol ';'], .blank) := by decide
  have htables := lexer.feed_trans
    (lexer.feed_trans (lexer.feed_trans hopen hrows) hmiddle)
    (lexer.feed_trans (lexer.feed_trans hpayload hblocks) hclose)
  unfold tokens Transducer.run codeText
  rw [htables, payloadBytes, List.flatMap_assoc]
  simp [lexer, arrayTokens, metaType, payloadType]

/-! ## The tables -/

theorem parseNumber_word
    {literal : List Char} {value : ℕ} (hliteral : integerLiteral literal = some value)
    (rest : List Token) :
    parseNumber (.word literal :: rest) = some (value, rest) := by
  simp [parseNumber, hliteral]

def rowMeta (index : ℕ) (row : ℕ × Resource) : NekoResMeta where
  index := index % 4294967296
  offset := row.1 % 4294967296
  length := row.2.content.length % 4294967296

theorem parseMeta_of_literals
    {first second third : List Char} {index offset length : ℕ}
    (hfirst : integerLiteral first = some index)
    (hsecond : integerLiteral second = some offset)
    (hthird : integerLiteral third = some length) (rest : List Token) :
    parseMeta (.symbol '{' :: .word first :: .symbol ',' :: .word second ::
        .symbol ',' :: .word third :: .symbol '}' :: rest) =
      some (⟨index, offset, length⟩, rest) := by
  simp only [parseMeta, parseBraced, List.length_cons, parseItems,
    parseNumber_word hfirst, parseNumber_word hsecond, parseNumber_word hthird,
    Option.map_some]

theorem parseMeta_rowTokens (index : ℕ) (row : ℕ × Resource) (rest : List Token) :
    parseMeta (rowTokens index row ++ rest) = some (rowMeta index row, rest) :=
  parseMeta_of_literals (integerLiteral_hexPad index) (integerLiteral_hexPad row.1)
    (integerLiteral_hexPad row.2.content.length) rest

theorem word_notMem_rowTokens
    {word : List Char} (hstart : word.head? ≠ some '0') (index : ℕ)
    (rows : List (ℕ × Resource)) :
    Token.word word ∉ rows.flatMap (fun row => rowTokens index row ++ [.symbol ',']) := by
  have hne : ∀ i, word ≠ hexPad i := by
    intro i heq
    rw [heq, hexPad_eq] at hstart
    exact hstart rfl
  rw [List.mem_flatMap]
  rintro ⟨row, _, hmem⟩
  simp [rowTokens, hne] at hmem

/-- The tables of any number of resources compile. -/
theorem compileTables_codeText
    {resources : List Resource} (hnames : ∀ r ∈ resources, IsWord r.name)
    (hsome : resources ≠ []) :
    compileTables (codeText resources) =
      some ⟨(rowsFrom 0 resources).map (rowMeta 0),
        (payloadBytes resources).map UInt8.toNat⟩ := by
  have hrows : rowsFrom 0 resources ≠ [] := by
    intro hnil
    have hmap := map_snd_rowsFrom 0 resources
    rw [hnil] at hmap
    exact hsome hmap.symm
  have hbytes : payloadBytes resources ≠ [] := by
    cases resources with
    | nil => contradiction
    | cons r resources => simp [payloadBytes]
  have hmetaName : Token.word "_NekoRes_Meta".toList ∉ metaType := by
    decide
  have hmetas := arrayElements_of_commas (rowTokens 0) (rowMeta 0)
    (fun row (_ : row ∈ rowsFrom 0 resources) rest => parseMeta_rowTokens 0 row rest)
    (fun row _ => ⟨_, _, rfl, by decide⟩) hrows "_NekoRes_Meta".toList hmetaName
    (arrayTokens payloadType "_NekoRes_Payload".toList
      ((payloadBytes resources).flatMap fun byte =>
        numberTokens byte ++ [.symbol ',']) [])
  have hpayloadName : Token.word "_NekoRes_Payload".toList ∉
      arrayTokens metaType "_NekoRes_Meta".toList
        ((rowsFrom 0 resources).flatMap fun row => rowTokens 0 row ++ [.symbol ','])
        payloadType := by
    apply word_notMem_arrayTokens (by decide) (by decide) _ (by decide)
    exact word_notMem_rowTokens (by decide) 0 (rowsFrom 0 resources)
  have hpayload := arrayElements_of_commas numberTokens UInt8.toNat
    (fun byte (_ : byte ∈ payloadBytes resources) rest =>
      parseNumber_word (integerLiteral_decimalDigits byte) rest)
    (fun byte _ => ⟨_, _, rfl, by simp⟩) hbytes "_NekoRes_Payload".toList
    hpayloadName []
  have hfits : ((payloadBytes resources).map UInt8.toNat).all (· < 256) = true := by
    rw [List.all_eq_true]
    intro value hmem
    rw [List.mem_map] at hmem
    rcases hmem with ⟨byte, _, rfl⟩
    simpa using byte.toNat_lt
  unfold compileTables
  simp only [tokens_codeText hnames, hmetas]
  rw [arrayTokens_arrayTokens, hpayload]
  exact if_pos hfits

theorem payload_of_row
    {offset : ℕ} {resources : List Resource} {row : ℕ × Resource}
    (hrow : row ∈ rowsFrom offset resources) :
    offset ≤ row.1 ∧
      ((payloadBytes resources).drop (row.1 - offset)).take row.2.content.length =
        row.2.content := by
  induction resources generalizing offset with
  | nil => simp [rowsFrom] at hrow
  | cons r resources ih =>
      have hpayload : payloadBytes (r :: resources) =
          r.content ++ [0] ++ payloadBytes resources := by
        simp [payloadBytes]
      rw [rowsFrom, List.mem_cons] at hrow
      rcases hrow with rfl | hrow
      · simp [hpayload, List.append_assoc]
      · obtain ⟨hge, hslice⟩ := ih hrow
        have hskip : row.1 - offset =
            (r.content ++ [0]).length + (row.1 - (offset + (r.content.length + 1))) := by
          rw [List.length_append, List.length_singleton]
          omega
        refine ⟨by omega, ?_⟩
        rw [hpayload, hskip, List.drop_length_add_append, hslice]

/-- The row of a resource denotes its content, as long as offset and length fit
`unsigned int`. -/
theorem nekoResGet_of_row
    {resources : List Resource} (hnames : ∀ r ∈ resources, IsWord r.name)
    {tables : NekoResTables}
    (hcompile : compileTables (codeText resources) = some tables)
    {k : ℕ} {row : ℕ × Resource} (hrow : (rowsFrom 0 resources)[k]? = some row)
    (hoffset : row.1 < 4294967296) (hlength : row.2.content.length < 4294967296) :
    nekoResLength tables k = some row.2.content.length ∧
      ∃ data, nekoResGet tables k = some data ∧
        data.take row.2.content.length = row.2.content.map UInt8.toNat := by
  have hsome : resources ≠ [] := by
    rintro rfl
    simp [rowsFrom] at hrow
  rw [compileTables_codeText hnames hsome] at hcompile
  have htables := (Option.some.inj hcompile).symm
  have hpayload : tables.payload = (payloadBytes resources).map UInt8.toNat := by
    rw [htables]
  have hmeta : tables.metas[k]? = some ⟨0, row.1, row.2.content.length⟩ := by
    rw [htables, List.getElem?_map, hrow, Option.map_some, rowMeta,
      Nat.mod_eq_of_lt hoffset, Nat.mod_eq_of_lt hlength]
  have hslice := (payload_of_row (List.mem_of_getElem? hrow)).2
  rw [Nat.sub_zero] at hslice
  refine ⟨by simp [nekoResLength, hmeta], tables.payload.drop row.1,
    by simp [nekoResGet, hmeta], ?_⟩
  rw [hpayload, ← List.map_drop, ← List.map_take, hslice]

/-! ## The header -/

def macroName (r : Resource) : List Char := "NEKORES_".toList ++ r.name

theorem tokens_headerText_append
    {r : Resource} (hname : IsWord r.name) (rest : List Char) :
    tokens (headerText 0 r ++ rest) =
      .symbol '#' :: .word "define".toList :: .word (macroName r) ::
        tokens (hexPad 0 ++ rest) := by
  have hopen : lexer.feed .blank "#define NEKORES_".toList =
      ([.symbol '#', .word "define".toList], .word "NEKORES_".toList) := by decide
  have hword := feed_inside_word hname.chars "NEKORES_".toList
  have hend : lexer.feed (.word (macroName r)) "\t".toList =
      ([.word (macroName r)], .blank) := by
    generalize macroName r = word
    rfl
  have hstart := lexer.feed_trans (lexer.feed_trans hopen hword) hend
  unfold tokens headerText
  rw [List.append_assoc _ (hexPad 0), lexer.run_append_of_feed hstart]
  rfl

theorem newline_notMem_header
    {resources : List Resource} (hnames : ∀ r ∈ resources, IsWord r.name) :
    '\n' ∉ resources.flatMap (headerText 0) := by
  rw [List.mem_flatMap]
  rintro ⟨r, hmem, hnewline⟩
  have hname := newline_notMem_of_isWord (hnames r hmem)
  have hindex := newline_notMem_of_isWord (isWord_hexPad 0)
  unfold headerText at hnewline
  rw [List.mem_append, List.mem_append, List.mem_append] at hnewline
  rcases hnewline with ((hopen | hname') | htab) | hindex'
  · revert hopen
    decide
  · exact hname hname'
  · revert htab
    decide
  · exact hindex hindex'

/-- The header is one line, which defines the macro of the first resource. -/
theorem macros_headerTexts
    {r : Resource} {rest : List Resource}
    (hnames : ∀ other ∈ r :: rest, IsWord other.name) :
    macros (headerTexts (r :: rest)) =
      [(macroName r, tokens (hexPad 0 ++ rest.flatMap (headerText 0)))] := by
  have hline := List.splitOn_eq_singleton (newline_notMem_header hnames)
  have htokens := tokens_headerText_append (hnames r List.mem_cons_self)
    (rest.flatMap (headerText 0))
  unfold macros
  rw [headerTexts, hline, List.filterMap_cons, List.filterMap_nil,
    List.flatMap_cons]
  simp [directive, htokens]

theorem resourceIndex_of_single {r : Resource} (hname : IsWord r.name) :
    resourceIndex (headerTexts [r]) r.name = some 0 := by
  have hnames : ∀ other ∈ [r], IsWord other.name :=
    fun other hmem => (List.mem_singleton.mp hmem) ▸ hname
  have hmacros := macros_headerTexts hnames
  have htokens : tokens (hexPad 0) = [.word (hexPad 0)] := by
    unfold tokens Transducer.run
    rw [(isWord_hexPad 0).feed]
    rfl
  rw [List.flatMap_nil, List.append_nil, htokens] at hmacros
  have hself : ("NEKORES_".toList ++ r.name == macroName r) = true :=
    beq_self_eq_true _
  unfold resourceIndex expandInteger
  rw [hmacros]
  simp only [List.lookup_cons, hself, integerLiteral_hexPad, Nat.zero_mod]

theorem resourceIndex_of_later
    {r : Resource} {rest : List Resource}
    (hnames : ∀ other ∈ r :: rest, IsWord other.name)
    {name : List Char} (hne : name ≠ r.name) :
    resourceIndex (headerTexts (r :: rest)) name = none := by
  have hlookup : ("NEKORES_".toList ++ name == macroName r) = false := by
    rw [beq_eq_false_iff_ne]
    intro heq
    exact hne (List.append_cancel_left heq)
  unfold resourceIndex expandInteger
  rw [macros_headerTexts hnames]
  simp only [List.lookup_cons, hlookup, List.lookup_nil]

/-! ## Lookup by name -/

/-- Distinct C identifiers, and contents of less than 4 GiB together. -/
structure ResourcesAdmissible (resources : List Resource) : Prop where
  identifiers : ∀ r ∈ resources, IsIdentifier r.name
  distinct : (resources.map Resource.name).Nodup
  size : (resources.map fun r => r.content.length).sum < 2 ^ 32

/-- The script writes its files, and once the tables compile, each macro expands
to an index of its own, under which the content of its resource is found. -/
def LookupCorrect (resources : List Resource) : Prop :=
  ∃ files, generate resources = some files ∧
    ∀ tables, compileTables files.code = some tables →
      (∀ r ∈ resources, ∃ index, resourceIndex files.header r.name = some index ∧
        nekoResLength tables index = some r.content.length ∧
        ∃ data, nekoResGet tables index = some data ∧
          data.take r.content.length = r.content.map UInt8.toNat) ∧
      ∀ r ∈ resources, ∀ other ∈ resources, r.name ≠ other.name →
        resourceIndex files.header r.name ≠ resourceIndex files.header other.name

theorem generate_of_fits {resources : List Resource}
    (hfits : codeSize resources ≤ textLimit) :
    generate resources = some ⟨codeText resources, headerTexts resources⟩ := by
  rw [generate_eq, limited_of_le (by rwa [length_codeText]), Option.map_some]

theorem of_generate {resources : List Resource} {files : GeneratedFiles}
    (hfiles : generate resources = some files) :
    codeSize resources ≤ textLimit ∧
      files = ⟨codeText resources, headerTexts resources⟩ := by
  by_cases hfits : codeSize resources ≤ textLimit
  · rw [generate_of_fits hfits] at hfiles
    exact ⟨hfits, (Option.some.inj hfiles).symm⟩
  · rw [generate_eq, limited_of_lt (by rw [length_codeText]; omega)] at hfiles
    contradiction

theorem not_lookupCorrect_of_two
    {first second : Resource} {rest : List Resource}
    (hnames : ∀ r ∈ first :: second :: rest, IsWord r.name)
    (hne : second.name ≠ first.name) :
    ¬ LookupCorrect (first :: second :: rest) := by
  rintro ⟨files, hfiles, hcorrect⟩
  rw [(of_generate hfiles).2] at hcorrect
  obtain ⟨hfound, _⟩ := hcorrect _ (compileTables_codeText hnames (by simp))
  obtain ⟨index, hindex, _⟩ := hfound second (by simp)
  rw [resourceIndex_of_later hnames hne] at hindex
  contradiction

theorem lookupCorrect_of_single
    {r : Resource} (hname : IsWord r.name) (hlength : r.content.length < 4294967296)
    (hfits : codeSize [r] ≤ textLimit) : LookupCorrect [r] := by
  have hnames : ∀ other ∈ [r], IsWord other.name :=
    fun other hmem => (List.mem_singleton.mp hmem) ▸ hname
  refine ⟨_, generate_of_fits hfits, ?_⟩
  intro tables hcompile
  have hrow : (rowsFrom 0 [r])[0]? = some (0, r) := rfl
  obtain ⟨hlen, hget⟩ := nekoResGet_of_row hnames hcompile hrow (by simp) hlength
  constructor
  · intro other hmem
    rw [List.mem_singleton.mp hmem]
    exact ⟨0, resourceIndex_of_single hname, hlen, hget⟩
  · intro first hfirst second hsecond hne
    rw [List.mem_singleton.mp hfirst, List.mem_singleton.mp hsecond] at hne
    exact absurd rfl hne

/-- Resources are found by name exactly if there is at most one, and the code for
it is not too long for a string of the engine. -/
theorem lookupCorrect_iff
    {resources : List Resource} (hadmissible : ResourcesAdmissible resources) :
    LookupCorrect resources ↔
      resources.length ≤ 1 ∧ codeSize resources ≤ textLimit := by
  have hnames : ∀ r ∈ resources, IsWord r.name :=
    fun r hmem => (hadmissible.identifiers r hmem).word
  rcases resources with _ | ⟨first, _ | ⟨second, rest⟩⟩
  · have hfits : codeSize [] ≤ textLimit := by decide
    constructor
    · intro _
      exact ⟨by simp, hfits⟩
    · intro _
      exact ⟨_, generate_of_fits hfits, by simp⟩
  · constructor
    · rintro ⟨files, hfiles, _⟩
      exact ⟨by simp, (of_generate hfiles).1⟩
    · rintro ⟨_, hfits⟩
      have hlength : first.content.length < 4294967296 := by
        simpa using hadmissible.size
      exact lookupCorrect_of_single (hnames first List.mem_cons_self) hlength hfits
  · have hne : second.name ≠ first.name := by
      have hdistinct := hadmissible.distinct
      rw [List.map_cons, List.map_cons, List.nodup_cons] at hdistinct
      intro heq
      exact hdistinct.1 (by simp [heq])
    constructor
    · intro hcorrect
      exact absurd hcorrect (not_lookupCorrect_of_two hnames hne)
    · rintro ⟨hlength, _⟩
      simp at hlength

theorem lookupCorrect_iff_init :
    LookupCorrect [⟨"INIT_EVENT_EMITTER".toList, [0xBF, 0]⟩] ↔
      [(⟨"INIT_EVENT_EMITTER".toList, [0xBF, 0]⟩ : Resource)].length ≤ 1 ∧
        codeSize [⟨"INIT_EVENT_EMITTER".toList, [0xBF, 0]⟩] ≤ textLimit :=
  lookupCorrect_iff
    ⟨by
      intro r hmem
      rw [List.mem_singleton.mp hmem]
      exact isIdentifier_of_all (by decide) (by decide) (by decide),
      by decide, by decide⟩

/-- With two resources the macro of the second is not defined, and that of the
first does not expand to an integer. -/
theorem not_lookupCorrect_of_second_resource :
    let resources : List Resource := [⟨['A'], [1]⟩, ⟨['B'], [2]⟩]
    let header := "#define NEKORES_A\t0x00000000#define NEKORES_B\t0x00000000".toList
    ResourcesAdmissible resources ∧
      (generate resources).map GeneratedFiles.header = some header ∧
      resourceIndex header ['A'] = none ∧ resourceIndex header ['B'] = none ∧
      ¬ LookupCorrect resources := by
  intro resources header
  have hidentifiers : ∀ r ∈ resources, IsIdentifier r.name := by
    intro r hmem
    simp only [resources, List.mem_cons, List.not_mem_nil, or_false] at hmem
    rcases hmem with rfl | rfl
    · exact isIdentifier_of_all (by decide) (by decide) (by decide)
    · exact isIdentifier_of_all (by decide) (by decide) (by decide)
  have hheader : (generate resources).map GeneratedFiles.header = some header := by
    rw [generate_of_fits (by decide)]
    exact congrArg some (by decide)
  refine ⟨⟨hidentifiers, by decide, by decide⟩, hheader, by decide, by decide, ?_⟩
  exact not_lookupCorrect_of_two (fun r hmem => (hidentifiers r hmem).word) (by decide)

end NekoScript
