import VcdTools.Header.Sanitize

/-! # The lines of a sanitised header

What sanitising does to each kind of line: its words, its line ends, and what a
second pass makes of a line that the first one wrote. -/
namespace VcdTools.Header
open VcdTools.Lib

/-! ## Identifiers -/

theorem fixIdent_cases (ident : List Char) :
    fixIdent ident = ident ∨ fixIdent ident = '\\' :: ident := by
  unfold fixIdent
  split
  · split
    · exact .inl rfl
    · exact .inr rfl
  · exact .inl rfl

theorem fixIdent_escaped (ident : List Char) : fixIdent ('\\' :: ident) = '\\' :: ident := by
  simp [fixIdent, needsEscape]

@[simp] theorem fixIdent_fixIdent (ident : List Char) :
    fixIdent (fixIdent ident) = fixIdent ident := by
  rcases fixIdent_cases ident with h | h
  · rw [h, h]
  · rw [h, fixIdent_escaped]

theorem fixIdent_word {ident : List Char} (hne : ident ≠ [])
    (h : ∀ c ∈ ident, isWhitespace c = false) :
    fixIdent ident ≠ [] ∧ ∀ c ∈ fixIdent ident, isWhitespace c = false := by
  rcases fixIdent_cases ident with hfix | hfix
  · rw [hfix]
    exact ⟨hne, h⟩
  · rw [hfix]
    refine ⟨List.cons_ne_nil _ _, fun c hc => ?_⟩
    obtain rfl | hc := List.mem_cons.mp hc
    · rfl
    · exact h c hc

/-! ## The words of a line -/

theorem isWhitespace_of_isLineEnd {c : Char} (h : isLineEnd c = true) : isWhitespace c = true := by
  simp only [isLineEnd, Bool.or_eq_true, decide_eq_true_eq] at h
  obtain rfl | rfl := h
  · exact isWhitespace_feed
  · exact isWhitespace_return

theorem isLineEnd_cases {c : Char} (h : isLineEnd c = true) : c = '\n' ∨ c = '\r' := by
  simpa [isLineEnd] using h

theorem not_isLineEnd {c : Char} (h : isWhitespace c = false) : isLineEnd c = false := by
  cases hc : isLineEnd c with
  | false => rfl
  | true =>
    rw [isWhitespace_of_isLineEnd hc] at h
    cases h

/-- The four words of a scope. -/
def scopeWords (kind ident : List Char) : List (List Char) :=
  [scopeKeyword, kind, ident, endKeyword]

section
variable {line indent kind ident fourth tail : List Char} {more : List (List Char)}

theorem ScopeLine.kind_word (h : ScopeLine line indent kind ident fourth more) :
    kind ≠ [] ∧ ∀ c ∈ kind, isWhitespace c = false := by
  have hmem : kind ∈ words isWhitespace line := by simp [h.parts]
  exact not_sep_of_mem_words hmem

theorem ScopeLine.ident_word (h : ScopeLine line indent kind ident fourth more) :
    ident ≠ [] ∧ ∀ c ∈ ident, isWhitespace c = false := by
  have hmem : ident ∈ words isWhitespace line := by simp [h.parts]
  exact not_sep_of_mem_words hmem

/-- The words of a scope that was written anew, with what stands behind it. -/
theorem words_scopeText (h : ScopeLine line indent kind ident fourth more) (tail : List Char) :
    words isWhitespace (scopeText indent kind ident ++ tail) =
      scopeKeyword :: kind :: fixIdent ident :: words isWhitespace (endKeyword ++ tail) := by
  obtain ⟨hkind, hkindWord⟩ := h.kind_word
  obtain ⟨hident, hidentWord⟩ := fixIdent_word h.ident_word.1 h.ident_word.2
  rw [scopeText, List.append_assoc, words_indent h.blank, List.append_assoc, List.cons_append,
    words_scope, List.append_assoc, List.cons_append,
    words_word_cons hkind hkindWord isWhitespace_blank, List.append_assoc, List.cons_append,
    words_word_cons hident hidentWord isWhitespace_blank]

theorem words_end (htail : ∀ c ∈ tail.head?, isWhitespace c = true) :
    words isWhitespace (endKeyword ++ tail) = endKeyword :: words isWhitespace tail := by
  rw [words_append (.inr htail), words_word endKeyword_ne endKeyword_word]
  rfl

theorem words_scopeText_blank (h : ScopeLine line indent kind ident fourth more)
    (tail : List Char) (htail : ∀ c ∈ tail.head?, isWhitespace c = true) :
    words isWhitespace (scopeText indent kind ident ++ tail) =
      scopeWords kind (fixIdent ident) ++ words isWhitespace tail := by
  rw [words_scopeText h, words_end htail]
  rfl

/-- A text that starts with a word takes the `$end` in front of it along. -/
theorem words_scopeText_merged (h : ScopeLine line indent kind ident fourth more) {c : Char}
    (hhead : tail.head? = some c) (hc : isWhitespace c = false) :
    (words isWhitespace (scopeText indent kind ident ++ tail)).length =
      3 + (words isWhitespace tail).length := by
  rw [words_scopeText h, List.length_cons, List.length_cons, List.length_cons,
    words_word_append endKeyword_word hhead hc]
  omega

/-! ## The second pass -/

/-- A scope that was written anew is written in the same way again. -/
theorem ScopeLine.again (h : ScopeLine line indent kind ident fourth more)
    (tail : List Char) (htail : ∀ c ∈ tail.head?, isWhitespace c = true) :
    sanitizeLine (scopeText indent kind ident ++ tail) =
      scopeText indent kind ident ++ newline (scopeText indent kind ident ++ tail) := by
  have hscope : ScopeLine (scopeText indent kind ident ++ tail) indent kind (fixIdent ident)
      endKeyword (words isWhitespace tail) := by
    refine ⟨h.blank, ⟨kind ++ ' ' :: (fixIdent ident ++ ' ' :: endKeyword) ++ tail, ?_⟩,
      words_scopeText_blank h tail htail⟩
    simp [scopeText]
  rw [hscope.sanitize, scopeText, fixIdent_fixIdent]
  rfl

/-- There is no line end in a scope that was written anew. -/
theorem ScopeLine.no_lineEnd {body : List Char} {c : Char}
    (h : ScopeLine line indent kind ident fourth more) (hline : line <+: body ++ [c])
    (hbody : ∀ c ∈ body, isLineEnd c = false) :
    ∀ c ∈ scopeText indent kind ident, isLineEnd c = false := by
  obtain ⟨tail, htail⟩ := h.keyword
  have hindent : indent <+: body := by
    have hfull : indent <+: body ++ [c] := (List.prefix_append _ _).trans (htail ▸ hline)
    refine List.prefix_of_prefix_length_le hfull (List.prefix_append _ _) ?_
    have hlength := hline.length_le
    have hkeyword : scopeKeyword.length = 6 := rfl
    rw [htail, List.length_append, List.length_append, List.length_append, hkeyword] at hlength
    simp only [List.length_cons, List.length_nil] at hlength
    omega
  have hfixed := (fixIdent_word h.ident_word.1 h.ident_word.2).2
  intro d hd
  simp only [scopeText, List.mem_append, List.mem_cons] at hd
  obtain hd | hd | rfl | hd | rfl | hd | rfl | hd := hd
  · exact hbody d (hindent.mem hd)
  · exact not_isLineEnd (scopeKeyword_word d hd)
  · rfl
  · exact not_isLineEnd (h.kind_word.2 d hd)
  · rfl
  · exact not_isLineEnd (hfixed d hd)
  · rfl
  · exact not_isLineEnd (endKeyword_word d hd)

end

end VcdTools.Header
