import Mathlib.Data.List.Basic
import Mathlib.Tactic

/-!
# Quoted words

A line is cut at its separators, except between quotes.  The quotes themselves
are left out, so that a word may also be quoted in part.
-/

namespace NekoScript.QuotedWords

structure Delimiters (α : Type) where
  separator : α → Bool
  quote : α
  separator_quote : separator quote = false

variable {α : Type} (d : Delimiters α)

/-- The words from a place in the line on.  There `word` has been read of a word
that has begun, and is `none` between two words. -/
def words [DecidableEq α] (quoted : Bool) (word : Option (List α)) :
    List α → List (List α)
  | [] => word.toList
  | c :: rest =>
      if d.separator c && !quoted then word.toList ++ words false none rest
      else if c = d.quote then words (!quoted) (some (word.getD [])) rest
      else words quoted (some (word.getD [] ++ [c])) rest

/-- Each text between quotes, with one `blank` between two of them. -/
def quotedLine (blank : α) : List (List α) → List α
  | [] => []
  | [text] => d.quote :: text ++ [d.quote]
  | text :: next :: more =>
      d.quote :: text ++ d.quote :: blank :: quotedLine blank (next :: more)

variable {d}

theorem mem_of_mem_quotedLine {blank : α} {texts : List (List α)} {c : α}
    (hmem : c ∈ quotedLine d blank texts) :
    c = d.quote ∨ c = blank ∨ ∃ text ∈ texts, c ∈ text := by
  fun_induction quotedLine d blank texts with
  | case1 => simp at hmem
  | case2 text =>
      simp only [List.cons_append, List.mem_cons, List.mem_append, List.not_mem_nil,
        or_false] at hmem
      rcases hmem with hquote | htext | hquote
      · exact .inl hquote
      · exact .inr (.inr ⟨text, by simp, htext⟩)
      · exact .inl hquote
  | case3 text next more ih =>
      simp only [List.cons_append, List.mem_cons, List.mem_append] at hmem
      rcases hmem with hquote | htext | hquote | hblank | hmore
      · exact .inl hquote
      · exact .inr (.inr ⟨text, by simp, htext⟩)
      · exact .inl hquote
      · exact .inr (.inl hblank)
      · rcases ih hmore with hquote | hblank | ⟨other, hother, hmem⟩
        · exact .inl hquote
        · exact .inr (.inl hblank)
        · exact .inr (.inr ⟨other, List.mem_cons_of_mem _ hother, hmem⟩)

theorem head?_quotedLine {blank : α} {texts : List (List α)} (hne : texts ≠ []) :
    (quotedLine d blank texts).head? = some d.quote := by
  match texts with
  | [] => exact absurd rfl hne
  | [_] => rfl
  | _ :: _ :: _ => rfl

theorem getLast?_quotedLine {blank : α} {texts : List (List α)} (hne : texts ≠ []) :
    (quotedLine d blank texts).getLast? = some d.quote := by
  fun_induction quotedLine d blank texts with
  | case1 => exact absurd rfl hne
  | case2 text => exact List.getLast?_concat
  | case3 text next more ih =>
      have hlast := ih (by simp)
      have hline : quotedLine d blank (next :: more) ≠ [] := by
        intro hnil
        simp [hnil] at hlast
      rw [← hlast, List.cons_append, List.getLast?_cons, List.getLast?_append]
      simp [List.getLast?_cons, hlast]

variable [DecidableEq α] (d)

theorem words_separator {c : α} (hseparator : d.separator c = true)
    (word : Option (List α)) (rest : List α) :
    words d false word (c :: rest) = word.toList ++ words d false none rest := by
  simp [words, hseparator]

theorem words_quote (quoted : Bool) (word : Option (List α)) (rest : List α) :
    words d quoted word (d.quote :: rest) =
      words d (!quoted) (some (word.getD [])) rest := by
  simp [words, d.separator_quote]

theorem words_letter {c : α} {quoted : Bool}
    (hseparator : (d.separator c && !quoted) = false) (hquote : c ≠ d.quote)
    (word : Option (List α)) (rest : List α) :
    words d quoted word (c :: rest) =
      words d quoted (some (word.getD [] ++ [c])) rest := by
  simp [words, hseparator, hquote]

variable {d}

/-- A text between quotes is taken as it is, and the word goes on after it. -/
theorem words_quoted_text {text : List α} (hquote : d.quote ∉ text)
    (word : List α) (rest : List α) :
    words d true (some word) (text ++ d.quote :: rest) =
      words d false (some (word ++ text)) rest := by
  induction text generalizing word with
  | nil => simp [words_quote]
  | cons c text ih =>
      have hne : c ≠ d.quote := (List.ne_of_not_mem_cons hquote).symm
      have hrest : d.quote ∉ text := List.not_mem_of_not_mem_cons hquote
      rw [List.cons_append, words_letter d (by simp) hne, ih hrest]
      simp

theorem words_quotedLine {blank : α} (hblank : d.separator blank = true)
    {texts : List (List α)} (hquote : ∀ text ∈ texts, d.quote ∉ text) :
    words d false none (quotedLine d blank texts) = texts := by
  fun_induction quotedLine d blank texts with
  | case1 => rfl
  | case2 text =>
      rw [List.cons_append, words_quote, Bool.not_false,
        words_quoted_text (hquote text (by simp))]
      simp [words]
  | case3 text next more ih =>
      have hmore := ih fun other hmem => hquote other (List.mem_cons_of_mem _ hmem)
      rw [List.cons_append, words_quote, Bool.not_false,
        words_quoted_text (hquote text (by simp)), words_separator d hblank, hmore]
      simp

/-- What is read of a word has been read from the line. -/
theorem sublist_of_mem_words {quoted : Bool} {word : Option (List α)}
    {line part : List α} (hmem : part ∈ words d quoted word line) :
    part.Sublist (word.getD [] ++ line) := by
  induction line generalizing quoted word with
  | nil =>
      have hword : word = some part := by simpa [words] using hmem
      simp [hword]
  | cons c rest ih =>
      unfold words at hmem
      split_ifs at hmem with hseparator hquote
      · rcases List.mem_append.mp hmem with hword | hrest
        · have hword : word = some part := by simpa using hword
          simp [hword]
        · have hsub := ih hrest
          rw [Option.getD_none, List.nil_append] at hsub
          exact (hsub.trans (List.sublist_cons_self c rest)).trans
            (List.sublist_append_right _ _)
      · have hsub := ih hmem
        rw [Option.getD_some] at hsub
        exact hsub.trans ((List.sublist_cons_self c rest).append_left _)
      · have hsub := ih hmem
        rwa [Option.getD_some, List.append_assoc] at hsub

theorem quote_notMem_of_mem_words {quoted : Bool} {word : Option (List α)}
    (hword : ∀ text ∈ word, d.quote ∉ text) {line part : List α}
    (hmem : part ∈ words d quoted word line) : d.quote ∉ part := by
  induction line generalizing quoted word with
  | nil => exact hword part (by simpa [words] using hmem)
  | cons c rest ih =>
      have hread : d.quote ∉ word.getD [] := by
        cases word with
        | none => simp
        | some text => exact hword text rfl
      unfold words at hmem
      split_ifs at hmem with hseparator hquote
      · rcases List.mem_append.mp hmem with hdone | hrest
        · exact hword part (by simpa using hdone)
        · exact ih (by simp) hrest
      · exact ih (by simpa using hread) hmem
      · refine ih ?_ hmem
        intro text htext
        rw [← Option.some.inj htext, List.mem_append, not_or]
        exact ⟨hread, by simpa using Ne.symm hquote⟩

end NekoScript.QuotedWords
