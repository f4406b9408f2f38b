import NekoScript.Transducers
import Mathlib.Tactic

/-!
# Generated C text

What a C compiler makes of generated headers and tables: tokens between spaces
and comments, integer literals, object-like `#define` lines, and initialisers
of arrays.  Words are maximal runs of letters, digits and underscores.
-/

namespace CSourceText

open Transducers

inductive Token where
  | word (chars : List Char)
  | symbol (c : Char)
  deriving DecidableEq, Repr

/-! ## Tokens -/

inductive LexState where
  | blank
  | word (read : List Char)
  | slash
  | lineComment
  | blockComment (star : Bool)
  deriving DecidableEq, Repr

def isWordChar (c : Char) : Bool := c.isAlphanum || c = '_'

structure IsWord (chars : List Char) : Prop where
  ne_nil : chars ≠ []
  chars : ∀ c ∈ chars, isWordChar c = true

def lexBlank (c : Char) : List Token × LexState :=
  if isWordChar c then ([], .word [c])
  else if c = '/' then ([], .slash)
  else if c.isWhitespace then ([], .blank)
  else ([.symbol c], .blank)

def lexStep : LexState → Char → List Token × LexState
  | .blank, c => lexBlank c
  | .word read, c =>
      if isWordChar c then ([], .word (read ++ [c]))
      else (.word read :: (lexBlank c).1, (lexBlank c).2)
  | .slash, c =>
      if c = '/' then ([], .lineComment)
      else if c = '*' then ([], .blockComment false)
      else (.symbol '/' :: (lexBlank c).1, (lexBlank c).2)
  | .lineComment, c => if c = '\n' then ([], .blank) else ([], .lineComment)
  | .blockComment star, c =>
      if star && c = '/' then ([], .blank) else ([], .blockComment (c = '*'))

def lexer : Transducer LexState Char Token where
  step := lexStep
  flush
    | .word read => [.word read]
    | .slash => [.symbol '/']
    | _ => []

def tokens (text : List Char) : List Token := lexer.run .blank text

theorem feed_cons (state : LexState) (c : Char) (rest : List Char) :
    lexer.feed state (c :: rest) =
      ((lexStep state c).1 ++ (lexer.feed (lexStep state c).2 rest).1,
        (lexer.feed (lexStep state c).2 rest).2) := rfl

theorem feed_inside_word
    {chars : List Char} (hchars : ∀ c ∈ chars, isWordChar c = true)
    (read : List Char) :
    lexer.feed (.word read) chars = ([], .word (read ++ chars)) := by
  induction chars generalizing read with
  | nil => simp [Transducer.feed]
  | cons c chars ih =>
      have hc := hchars c List.mem_cons_self
      have hrest := ih (fun other hmem => hchars other (List.mem_cons_of_mem _ hmem))
        (read ++ [c])
      rw [feed_cons]
      simp only [lexStep, hc, if_true, hrest]
      simp

theorem IsWord.feed {chars : List Char} (hword : IsWord chars) :
    lexer.feed .blank chars = ([], .word chars) := by
  rcases hword with ⟨hne, hchars⟩
  cases chars with
  | nil => contradiction
  | cons c chars =>
      have hc := hchars c List.mem_cons_self
      have hrest := feed_inside_word
        (fun other hmem => hchars other (List.mem_cons_of_mem _ hmem)) [c]
      rw [feed_cons]
      simp only [lexStep, lexBlank, hc, if_true, hrest]
      simp

theorem IsWord.feed_append
    {chars : List Char} (hword : IsWord chars) {c : Char}
    (hend : isWordChar c = false) :
    lexer.feed .blank (chars ++ [c]) =
      (.word chars :: (lexBlank c).1, (lexBlank c).2) := by
  rw [lexer.feed_append_of_feed hword.feed, feed_cons]
  simp [lexStep, hend, Transducer.feed]

theorem feed_inside_lineComment
    {text : List Char} (hline : '\n' ∉ text) :
    lexer.feed .lineComment text = ([], .lineComment) := by
  induction text with
  | nil => rfl
  | cons c text ih =>
      rw [List.mem_cons, not_or] at hline
      have hc : c ≠ '\n' := fun heq => hline.1 heq.symm
      rw [feed_cons]
      simp only [lexStep, if_neg hc, ih hline.2]
      rfl

theorem feed_lineComment_newline (rest : List Char) :
    lexer.feed .lineComment ('\n' :: rest) = lexer.feed .blank ('\n' :: rest) := by
  rw [feed_cons, feed_cons]
  have hsame : lexStep .lineComment '\n' = lexStep .blank '\n' := by decide
  rw [hsame]

/-! ## Integer literals -/

def digitValue (c : Char) : Option ℕ :=
  if c.isDigit then some (c.toNat - '0'.toNat)
  else if 'a' ≤ c ∧ c ≤ 'f' then some (c.toNat - 'a'.toNat + 10)
  else if 'A' ≤ c ∧ c ≤ 'F' then some (c.toNat - 'A'.toNat + 10)
  else none

def readDigits (base : ℕ) : ℕ → List Char → Option ℕ
  | value, [] => some value
  | value, c :: rest =>
      match digitValue c with
      | none => none
      | some digit =>
          if digit < base then readDigits base (value * base + digit) rest else none

/-- Decimal, octal and hexadecimal literals without a suffix. -/
def integerLiteral : List Char → Option ℕ
  | '0' :: 'x' :: c :: rest => readDigits 16 0 (c :: rest)
  | '0' :: rest => readDigits 8 0 rest
  | c :: rest => readDigits 10 0 (c :: rest)
  | [] => none

theorem readDigits_cons
    (base value : ℕ) {c : Char} {digit : ℕ} (hdigit : digitValue c = some digit)
    (hbase : digit < base) (rest : List Char) :
    readDigits base value (c :: rest) = readDigits base (value * base + digit) rest := by
  simp [readDigits, hdigit, hbase]

theorem readDigits_append
    {base value read : ℕ} {digits : List Char}
    (hread : readDigits base value digits = some read) (rest : List Char) :
    readDigits base value (digits ++ rest) = readDigits base read rest := by
  induction digits generalizing value with
  | nil =>
      rw [Option.some.inj hread]
      rfl
  | cons c digits ih =>
      cases hdigit : digitValue c with
      | none => simp [readDigits, hdigit] at hread
      | some digit =>
          by_cases hbase : digit < base
          · rw [readDigits_cons base value hdigit hbase] at hread
            rw [List.cons_append, readDigits_cons base value hdigit hbase]
            exact ih hread
          · simp [readDigits, hdigit, hbase] at hread

theorem digitValue_digitChar {digit : ℕ} (hdigit : digit < 16) :
    digitValue digit.digitChar = some digit := by
  have hall : ∀ d : Fin 16, digitValue d.val.digitChar = some d.val := by decide
  exact hall ⟨digit, hdigit⟩

/-- The last `width` digits of a number. -/
def lowDigits (base : ℕ) : ℕ → ℕ → List Char
  | 0, _ => []
  | width + 1, value =>
      lowDigits base width (value / base) ++ [(value % base).digitChar]

theorem readDigits_lowDigits
    {base : ℕ} (hpos : 0 < base) (hbase : base ≤ 16) (width value before : ℕ) :
    readDigits base before (lowDigits base width value) =
      some (before * base ^ width + value % base ^ width) := by
  induction width generalizing value with
  | zero => simp [lowDigits, readDigits, Nat.mod_one]
  | succ width ih =>
      have hlt : value % base < base := Nat.mod_lt _ hpos
      have hdigit : digitValue (value % base).digitChar = some (value % base) :=
        digitValue_digitChar (by omega)
      have hsplit : value % base ^ (width + 1) =
          value / base % base ^ width * base + value % base := by
        rw [Nat.pow_succ, Nat.mul_comm, Nat.mod_mul]
        ring
      unfold lowDigits
      rw [readDigits_append (ih _), readDigits_cons base _ hdigit hlt, hsplit]
      simp only [readDigits, Option.some.injEq]
      ring

theorem lowDigits_zero (base width : ℕ) :
    lowDigits base width 0 = List.replicate width '0' := by
  induction width with
  | zero => rfl
  | succ width ih =>
      rw [lowDigits, Nat.zero_div, ih, Nat.zero_mod, List.replicate_succ']
      rfl

theorem drop_replicate_append_toDigits
    {base : ℕ} (hbase : 1 < base) (width padding value : ℕ)
    (hwidth : width ≤ padding + (Nat.toDigits base value).length) :
    (List.replicate padding '0' ++ Nat.toDigits base value).drop
        (padding + (Nat.toDigits base value).length - width) =
      lowDigits base width value := by
  induction width generalizing value with
  | zero =>
      simp [lowDigits]
  | succ width ih =>
      by_cases hsmall : value < base
      · have hdigits : Nat.toDigits base value = [value.digitChar] :=
          Nat.toDigits_of_lt_base hsmall
        rw [hdigits] at hwidth ⊢
        have hcount : padding + [value.digitChar].length - (width + 1) =
            padding - width := by
          simp
        have hle : padding - width ≤ (List.replicate padding '0').length := by simp
        have hrest : padding - (padding - width) = width := by
          simp only [List.length_singleton] at hwidth
          omega
        rw [hcount, List.drop_append_of_le_length hle, List.drop_replicate, hrest,
          lowDigits, Nat.div_eq_of_lt hsmall, Nat.mod_eq_of_lt hsmall,
          lowDigits_zero]
      · have hdigits : Nat.toDigits base value =
            Nat.toDigits base (value / base) ++ [(value % base).digitChar] :=
          Nat.toDigits_of_base_le hbase (by omega)
        rw [hdigits, List.length_append, List.length_singleton] at hwidth
        have hrest := ih (value / base) (by omega)
        set high := Nat.toDigits base (value / base) with hhigh
        have hcount : padding + (high ++ [(value % base).digitChar]).length -
            (width + 1) = padding + high.length - width := by
          rw [List.length_append, List.length_singleton]
          omega
        have hle : padding + high.length - width ≤
            (List.replicate padding '0' ++ high).length := by
          rw [List.length_append, List.length_replicate]
          omega
        rw [hdigits, hcount, ← List.append_assoc,
          List.drop_append_of_le_length hle, hrest, lowDigits]

/-! ## Macros -/

def directive (line : List Char) : Option (List Char × List Token) :=
  match tokens line with
  | .symbol '#' :: .word keyword :: .word name :: replacement =>
      if keyword = "define".toList then some (name, replacement) else none
  | _ => none

/-- The object-like macros a text defines, one for each line that is a
directive. -/
def macros (text : List Char) : List (List Char × List Token) :=
  (text.splitOn '\n').filterMap directive

/-- The integer a macro expands to, if its replacement is one literal. -/
def expandInteger (defined : List (List Char × List Token)) (name : List Char) :
    Option ℕ :=
  match defined.lookup name with
  | some [.word literal] => integerLiteral literal
  | _ => none

/-! ## Initialisers -/

def parseNumber : List Token → Option (ℕ × List Token)
  | .word literal :: rest => (integerLiteral literal).map fun value => (value, rest)
  | _ => none

/-- Items separated by commas, up to the closing brace. -/
def parseItems {Item : Type} (item : List Token → Option (Item × List Token)) :
    ℕ → List Token → Option (List Item × List Token)
  | 0, _ => none
  | fuel + 1, input =>
      match input with
      | .symbol '}' :: rest => some ([], rest)
      | _ =>
          match item input with
          | some (first, .symbol ',' :: rest) =>
              (parseItems item fuel rest).map fun (others, rest) =>
                (first :: others, rest)
          | some (first, .symbol '}' :: rest) => some ([first], rest)
          | _ => none

def parseBraced {Item : Type} (item : List Token → Option (Item × List Token)) :
    List Token → Option (List Item × List Token)
  | .symbol '{' :: rest => parseItems item (rest.length + 1) rest
  | _ => none

/-- The elements of the array `name`, whose bound is left to its initialiser:
there must be one at least. -/
def arrayElements {Item : Type} (item : List Token → Option (Item × List Token))
    (name : List Char) (input : List Token) : Option (List Item) :=
  match input.dropWhile (· ≠ .word name) with
  | .word _ :: .symbol '[' :: .symbol ']' :: .symbol '=' :: rest =>
      match parseBraced item rest with
      | some (first :: others, .symbol ';' :: _) => some (first :: others)
      | _ => none
  | _ => none

theorem parseItems_of_ne
    {Item : Type} (item : List Token → Option (Item × List Token)) (fuel : ℕ)
    {start : Token} (hne : start ≠ .symbol '}') {input others rest : List Token}
    {first : Item} (hinput : input = start :: others)
    (hitem : item input = some (first, .symbol ',' :: rest)) :
    parseItems item (fuel + 1) input =
      (parseItems item fuel rest).map fun (others, rest) =>
        (first :: others, rest) := by
  rw [hinput] at hitem ⊢
  rw [parseItems, hitem]
  · rfl
  · intro rest heq
    exact hne (List.cons.inj heq).1

theorem parseItems_of_commas
    {Item Piece : Type} {item : List Token → Option (Item × List Token)}
    {pieces : List Piece} (shown : Piece → List Token) (value : Piece → Item)
    (hitem : ∀ piece ∈ pieces, ∀ rest,
      item (shown piece ++ rest) = some (value piece, rest))
    (hopen : ∀ piece ∈ pieces, ∃ first others,
      shown piece = first :: others ∧ first ≠ .symbol '}')
    {fuel : ℕ} (hfuel : pieces.length < fuel) (rest : List Token) :
    parseItems item fuel
        (pieces.flatMap (fun piece => shown piece ++ [.symbol ',']) ++
          .symbol '}' :: rest) =
      some (pieces.map value, rest) := by
  induction pieces generalizing fuel with
  | nil =>
      obtain ⟨fuel, rfl⟩ := Nat.exists_eq_succ_of_ne_zero (by omega : fuel ≠ 0)
      simp [parseItems]
  | cons piece pieces ih =>
      obtain ⟨fuel, rfl⟩ := Nat.exists_eq_succ_of_ne_zero (by omega : fuel ≠ 0)
      have hlength : pieces.length < fuel := by simpa using hfuel
      have hrest := ih (fun other hmem => hitem other (List.mem_cons_of_mem _ hmem))
        (fun other hmem => hopen other (List.mem_cons_of_mem _ hmem)) hlength
      obtain ⟨start, others, hshown, hne⟩ := hopen piece List.mem_cons_self
      set input := (piece :: pieces).flatMap
        (fun piece => shown piece ++ [.symbol ',']) ++ .symbol '}' :: rest with hinput
      have hsplit : input = shown piece ++ .symbol ',' ::
          (pieces.flatMap (fun piece => shown piece ++ [.symbol ',']) ++
            .symbol '}' :: rest) := by
        simp [hinput]
      have hstart : input = start :: (others ++ .symbol ',' ::
          (pieces.flatMap (fun piece => shown piece ++ [.symbol ',']) ++
            .symbol '}' :: rest)) := by
        rw [hsplit, hshown, List.cons_append]
      have hfirst := hitem piece List.mem_cons_self (.symbol ',' ::
        (pieces.flatMap (fun piece => shown piece ++ [.symbol ',']) ++
          .symbol '}' :: rest))
      rw [← hsplit] at hfirst
      rw [parseItems_of_ne item fuel hne hstart hfirst, hrest]
      rfl

theorem parseBraced_of_commas
    {Item Piece : Type} {item : List Token → Option (Item × List Token)}
    {pieces : List Piece} (shown : Piece → List Token) (value : Piece → Item)
    (hitem : ∀ piece ∈ pieces, ∀ rest,
      item (shown piece ++ rest) = some (value piece, rest))
    (hopen : ∀ piece ∈ pieces, ∃ first others,
      shown piece = first :: others ∧ first ≠ .symbol '}') (rest : List Token) :
    parseBraced item (.symbol '{' ::
        (pieces.flatMap (fun piece => shown piece ++ [.symbol ',']) ++
          .symbol '}' :: rest)) =
      some (pieces.map value, rest) := by
  have hlength : pieces.length ≤
      (pieces.flatMap fun piece => shown piece ++ [.symbol ',']).length := by
    rw [List.length_flatMap]
    have hsum := List.length_le_sum_of_one_le
      (pieces.map fun piece => (shown piece ++ [Token.symbol ',']).length)
    rw [List.length_map] at hsum
    apply hsum
    intro count hmem
    rw [List.mem_map] at hmem
    rcases hmem with ⟨piece, _, rfl⟩
    simp
  apply parseItems_of_commas shown value hitem hopen
  rw [List.length_append]
  omega

/-- The tokens of an array definition, and those `after` it. -/
def arrayTokens (type : List Token) (name : List Char) (items after : List Token) :
    List Token :=
  type ++ .word name :: .symbol '[' :: .symbol ']' :: .symbol '=' :: .symbol '{' ::
    (items ++ .symbol '}' :: .symbol ';' :: after)

/-- What is before the second of two arrays counts as part of its type. -/
theorem arrayTokens_arrayTokens
    (type type' : List Token) (name name' : List Char)
    (items items' after : List Token) :
    arrayTokens type name items (arrayTokens type' name' items' after) =
      arrayTokens (arrayTokens type name items type') name' items' after := by
  simp [arrayTokens]

theorem word_notMem_arrayTokens
    {word name : List Char} {type items after : List Token}
    (htype : .word word ∉ type) (hname : word ≠ name) (hitems : .word word ∉ items)
    (hafter : .word word ∉ after) :
    .word word ∉ arrayTokens type name items after := by
  simp [arrayTokens, htype, hname, hitems, hafter]

/-- The elements of the array `name`; there need not be any. -/
def readArray {Item : Type} (item : List Token → Option (Item × List Token))
    (name : List Char) (input : List Token) : Option (List Item) :=
  match input.dropWhile (· ≠ .word name) with
  | .word _ :: .symbol '[' :: .symbol ']' :: .symbol '=' :: rest =>
      (parseBraced item rest).map Prod.fst
  | _ => none

theorem dropWhile_arrayTokens
    {name : List Char} {before : List Token} (hname : .word name ∉ before)
    (items after : List Token) :
    (arrayTokens before name items after).dropWhile (· ≠ .word name) =
      .word name :: .symbol '[' :: .symbol ']' :: .symbol '=' :: .symbol '{' ::
        (items ++ .symbol '}' :: .symbol ';' :: after) := by
  have hskip : ∀ token ∈ before, decide (token ≠ .word name) = true := by
    intro token hmem
    have hne : token ≠ .word name := fun heq => hname (heq ▸ hmem)
    simpa using hne
  unfold arrayTokens
  rw [List.dropWhile_append_of_pos hskip, List.dropWhile_cons_of_neg (by simp)]

section Arrays

variable {Item Piece : Type} {item : List Token → Option (Item × List Token)}
  {pieces : List Piece} (shown : Piece → List Token) (value : Piece → Item)
  (hitem : ∀ piece ∈ pieces, ∀ rest,
    item (shown piece ++ rest) = some (value piece, rest))
  (hopen : ∀ piece ∈ pieces, ∃ first others,
    shown piece = first :: others ∧ first ≠ .symbol '}')

include hitem hopen

theorem readArray_of_commas
    (name : List Char) {before : List Token} (hname : .word name ∉ before)
    (after : List Token) :
    readArray item name (arrayTokens before name
        (pieces.flatMap fun piece => shown piece ++ [.symbol ',']) after) =
      some (pieces.map value) := by
  have hbraced := parseBraced_of_commas shown value hitem hopen
    (.symbol ';' :: after)
  unfold readArray
  rw [dropWhile_arrayTokens hname]
  simp only [hbraced, Option.map_some]

theorem arrayElements_of_commas
    (hpieces : pieces ≠ []) (name : List Char) {before : List Token}
    (hname : .word name ∉ before) (after : List Token) :
    arrayElements item name (arrayTokens before name
        (pieces.flatMap fun piece => shown piece ++ [.symbol ',']) after) =
      some (pieces.map value) := by
  have hbraced := parseBraced_of_commas shown value hitem hopen
    (.symbol ';' :: after)
  unfold arrayElements
  rw [dropWhile_arrayTokens hname]
  simp only [hbraced]
  cases pieces with
  | nil => contradiction
  | cons piece pieces => rfl

end Arrays

end CSourceText
