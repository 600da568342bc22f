import VcdTools.Header.SanitizeLines

/-! # The tokens of a sanitised header

When sanitising keeps the tokens of a header, and when a second pass changes
nothing more. It writes a scope line anew from three of its words: a word after
the fourth is dropped, and so is a carriage return that ends the line, which
lets the line run into the next one. -/
namespace VcdTools.Header
open VcdTools.Lib

/-! ## Texts line by line -/

theorem sanitizeLine_spec (line : List Char) :
    (¬ Rewritten line ∧ sanitizeLine line = line) ∨
      ∃ indent kind ident fourth more, ScopeLine line indent kind ident fourth more ∧
        sanitizeLine line = scopeText indent kind ident ++ newline line := by
  by_cases h : Rewritten line
  · obtain ⟨indent, kind, ident, fourth, more, hscope⟩ := h.scopeLine
    exact .inr ⟨indent, kind, ident, fourth, more, hscope, hscope.sanitize⟩
  · exact .inl ⟨h, sanitizeLine_kept h⟩

@[simp] theorem sanitizeText_nil : sanitizeText [] = [] := rfl

section
variable {body : List Char} {c : Char}

theorem sanitizeText_open (hne : body ≠ []) (h : ∀ c ∈ body, isLineEnd c = false) :
    sanitizeText body = sanitizeLine body := by
  rw [sanitizeText, splitInclusive_open hne h, List.flatMap_singleton]

theorem sanitizeText_line (h : ∀ c ∈ body, isLineEnd c = false) (hc : isLineEnd c = true)
    (rest : List Char) :
    sanitizeText (body ++ c :: rest) = sanitizeLine (body ++ [c]) ++ sanitizeText rest := by
  rw [sanitizeText, splitInclusive_line h hc, List.flatMap_cons, ← sanitizeText]

theorem newline_concat (body : List Char) (c : Char) :
    newline (body ++ [c]) = if c = '\n' then ['\n'] else [] := by
  simp [newline]

theorem newline_open (h : ∀ c ∈ body, isLineEnd c = false) : newline body = [] := by
  rw [newline, if_neg]
  intro hlast
  cases h '\n' (List.mem_of_getLast? hlast)

end

/-- The first character of a line is kept. -/
theorem sanitizeLine_head (line : List Char) : (sanitizeLine line).head? = line.head? := by
  rcases sanitizeLine_spec line with ⟨-, hkept⟩ | ⟨indent, kind, ident, fourth, more, h, hscope⟩
  · rw [hkept]
  · obtain ⟨tail, htail⟩ := h.keyword
    rw [hscope, htail, scopeText]
    cases indent <;> rfl

theorem sanitizeText_head (text : List Char) : (sanitizeText text).head? = text.head? := by
  induction text using lines_induction isLineEnd with
  | nil => rfl
  | last body hne hbody => rw [sanitizeText_open hne hbody, sanitizeLine_head]
  | line body c rest hbody hc _ =>
    rw [sanitizeText_line hbody hc, List.head?_append, sanitizeLine_head]
    cases body <;> rfl

/-- The words of a text of several lines. -/
theorem words_line {c : Char} (hc : isLineEnd c = true) (body rest : List Char) :
    words isWhitespace (body ++ c :: rest) =
      words isWhitespace (body ++ [c]) ++ words isWhitespace rest := by
  have hspace := isWhitespace_of_isLineEnd hc
  rw [words_append_cons _ _ hspace, words_append_sep hspace]

/-! ## What is kept -/

/-- The tokens are the same, but the identifier of a `$scope` may have got a
backslash in front. -/
structure TokensKept (tokens kept : List (List Char)) : Prop where
  length : kept.length = tokens.length
  each : ∀ i token, tokens[i]? = some token → kept[i]? = some token ∨
    (kept[i]? = some ('\\' :: token) ∧ ∃ j, i = j + 2 ∧ tokens[j]? = some scopeKeyword)

/-- Each line that is written anew has the four words of a scope, and a carriage
return that ends it stands before a line feed or ends the text. -/
def Tidy : List (List Char) → Prop
  | [] => True
  | line :: lines =>
    (Rewritten line → (∃ kind ident, words isWhitespace line = scopeWords kind ident) ∧
      (line.getLast? = some '\r' → ∀ next ∈ lines.head?, next = ['\n'])) ∧ Tidy lines

theorem TokensKept.refl (tokens : List (List Char)) : TokensKept tokens tokens :=
  ⟨rfl, fun _ _ h => .inl h⟩

theorem TokensKept.append {as as' bs bs' : List (List Char)} (ha : TokensKept as as')
    (hb : TokensKept bs bs') : TokensKept (as ++ bs) (as' ++ bs') := by
  refine ⟨by rw [List.length_append, List.length_append, ha.length, hb.length], ?_⟩
  intro i token h
  by_cases hi : i < as.length
  · rw [List.getElem?_append_left hi] at h
    rw [List.getElem?_append_left (by rw [ha.length]; exact hi)]
    refine (ha.each i token h).imp id fun hescaped => ⟨hescaped.1, ?_⟩
    obtain ⟨j, rfl, hj⟩ := hescaped.2
    exact ⟨j, rfl, by rw [List.getElem?_append_left (by omega)]; exact hj⟩
  · have hle : as.length ≤ i := by omega
    rw [List.getElem?_append_right hle] at h
    rw [List.getElem?_append_right (by rw [ha.length]; exact hle), ha.length]
    refine (hb.each _ token h).imp id fun hescaped => ⟨hescaped.1, ?_⟩
    obtain ⟨j, hij, hj⟩ := hescaped.2
    refine ⟨as.length + j, by omega, ?_⟩
    rw [List.getElem?_append_right (by omega), Nat.add_sub_cancel_left]
    exact hj

theorem TokensKept.scope (kind ident : List Char) :
    TokensKept (scopeWords kind ident) (scopeWords kind (fixIdent ident)) := by
  refine ⟨rfl, fun i token h => ?_⟩
  match i with
  | 0 | 1 | 3 => exact .inl h
  | 2 =>
    cases h
    rcases fixIdent_cases ident with hfix | hfix
    · exact .inl (congrArg some hfix)
    · exact .inr ⟨congrArg some hfix, 0, rfl, rfl⟩
  | _ + 4 => cases h

/-! ## Tidy texts -/

/-- The next line of a text starts with its next character. -/
theorem splitInclusive_head {rest : List Char}
    (h : ∀ next ∈ (splitInclusive isLineEnd rest).head?, next = ['\n']) :
    rest = [] ∨ ∃ more, rest = '\n' :: more := by
  cases rest with
  | nil => exact .inl rfl
  | cons c more =>
    refine .inr ⟨more, ?_⟩
    rw [splitInclusive] at h
    by_cases hc : isLineEnd c = true
    · rw [if_pos hc] at h
      rw [List.head_eq_of_cons_eq (h [c] rfl)]
    · rw [if_neg hc] at h
      have hline : ∃ line, c :: line = ['\n'] := by
        cases hrest : splitInclusive isLineEnd more with
        | nil =>
          rw [hrest] at h
          exact ⟨[], h [c] rfl⟩
        | cons line lines =>
          rw [hrest] at h
          exact ⟨line, h (c :: line) rfl⟩
      obtain ⟨line, hline⟩ := hline
      rw [List.head_eq_of_cons_eq hline]

/-- What stands behind a scope in the sanitised text. -/
def scopeTail (line rest : List Char) : List Char := newline line ++ sanitizeText rest

theorem words_scopeTail (line rest : List Char) :
    words isWhitespace (scopeTail line rest) = words isWhitespace (sanitizeText rest) := by
  unfold scopeTail newline
  split
  · exact words_cons_sep isWhitespace_feed _
  · rfl

/-- After a tidy scope line comes whitespace, if anything. -/
theorem scopeTail_blank {body rest : List Char} {c : Char} (hc : isLineEnd c = true)
    (hreturn : (body ++ [c]).getLast? = some '\r' →
      ∀ next ∈ (splitInclusive isLineEnd rest).head?, next = ['\n']) :
    ∀ d ∈ (scopeTail (body ++ [c]) rest).head?, isWhitespace d = true := by
  rw [scopeTail, newline_concat]
  rcases isLineEnd_cases hc with rfl | rfl
  · intro d hd
    cases hd
    rfl
  · intro d hd
    rw [if_neg (by decide), List.nil_append, sanitizeText_head] at hd
    rcases splitInclusive_head (hreturn (by simp)) with rfl | ⟨more, rfl⟩
    · cases hd
    · cases hd
      rfl

/-- **The tokens of a tidy text are kept.** -/
theorem tokensKept_of_tidy (text : List Char) (h : Tidy (splitInclusive isLineEnd text)) :
    TokensKept (words isWhitespace text) (words isWhitespace (sanitizeText text)) := by
  induction text using lines_induction isLineEnd with
  | nil => exact .refl _
  | last body hne hbody =>
    rw [splitInclusive_open hne hbody] at h
    rw [sanitizeText_open hne hbody]
    rcases sanitizeLine_spec body with ⟨-, hkept⟩ | ⟨indent, kind, ident, fourth, more, hs, hscope⟩
    · rw [hkept]
      exact .refl _
    · obtain ⟨kind', ident', hwords⟩ := (h.1 hs.rewritten).1
      have hparts := hs.parts
      rw [hwords] at hparts
      cases hparts
      have hkept := words_scopeText_blank hs [] (by simp)
      rw [hscope, newline_open hbody, hkept, words_nil, List.append_nil, hwords]
      exact .scope kind ident
  | line body c rest hbody hc ih =>
    rw [splitInclusive_line hbody hc] at h
    have hrest := ih h.2
    rw [sanitizeText_line hbody hc, words_line hc]
    rcases sanitizeLine_spec (body ++ [c]) with
      ⟨-, hkept⟩ | ⟨indent, kind, ident, fourth, more, hs, hscope⟩
    · rw [hkept, List.append_assoc, List.singleton_append, words_line hc _ (sanitizeText rest)]
      exact (TokensKept.refl _).append hrest
    · obtain ⟨⟨kind', ident', hwords⟩, hreturn⟩ := h.1 hs.rewritten
      have hparts := hs.parts
      rw [hwords] at hparts
      cases hparts
      rw [hscope, List.append_assoc, ← scopeTail,
        words_scopeText_blank hs _ (scopeTail_blank hc hreturn), words_scopeTail, hwords]
      exact (TokensKept.scope kind ident).append hrest

section
variable {line indent kind ident fourth : List Char} {more : List (List Char)}

theorem ScopeLine.sanitizeText_open (h : ScopeLine line indent kind ident fourth more)
    (hclean : ∀ c ∈ scopeText indent kind ident, isLineEnd c = false) :
    sanitizeText (scopeText indent kind ident) = scopeText indent kind ident := by
  have hagain := h.again [] (by simp)
  rw [List.append_nil, newline_open hclean, List.append_nil] at hagain
  rw [Header.sanitizeText_open (by simp [scopeText]) hclean, hagain]

theorem ScopeLine.sanitizeText_feed (h : ScopeLine line indent kind ident fourth more)
    (hclean : ∀ c ∈ scopeText indent kind ident, isLineEnd c = false) (rest : List Char) :
    sanitizeText (scopeText indent kind ident ++ '\n' :: rest) =
      scopeText indent kind ident ++ '\n' :: sanitizeText rest := by
  have hagain := h.again ['\n'] fun c hc => (by cases hc; rfl)
  rw [newline_concat, if_pos rfl] at hagain
  rw [sanitizeText_line hclean rfl, hagain, List.append_assoc, List.singleton_append]

end

theorem sanitizeText_feed (rest : List Char) :
    sanitizeText ('\n' :: rest) = '\n' :: sanitizeText rest :=
  @sanitizeText_line [] '\n' (by simp) rfl rest

/-- **A second pass over a tidy text changes nothing more.** -/
theorem sanitizeText_again (text : List Char) (h : Tidy (splitInclusive isLineEnd text)) :
    sanitizeText (sanitizeText text) = sanitizeText text := by
  induction text using lines_induction isLineEnd with
  | nil => rfl
  | last body hne hbody =>
    rw [sanitizeText_open hne hbody]
    rcases sanitizeLine_spec body with ⟨-, hkept⟩ | ⟨indent, kind, ident, fourth, more, hs, hscope⟩
    · rw [hkept, sanitizeText_open hne hbody, hkept]
    · have hclean := hs.no_lineEnd (c := '\n') (List.prefix_append _ _) hbody
      rw [hscope, newline_open hbody, List.append_nil, hs.sanitizeText_open hclean]
  | line body c rest hbody hc ih =>
    rw [splitInclusive_line hbody hc] at h
    have hrest := ih h.2
    rw [sanitizeText_line hbody hc]
    rcases sanitizeLine_spec (body ++ [c]) with
      ⟨-, hkept⟩ | ⟨indent, kind, ident, fourth, more, hs, hscope⟩
    · rw [hkept, List.append_assoc, List.singleton_append, sanitizeText_line hbody hc, hkept, hrest,
        List.append_assoc, List.singleton_append]
    · have hclean := hs.no_lineEnd (List.prefix_refl _) hbody
      have hreturn := (h.1 hs.rewritten).2
      rw [hscope, newline_concat]
      rcases isLineEnd_cases hc with rfl | rfl
      · rw [if_pos rfl, List.append_assoc, List.singleton_append, hs.sanitizeText_feed hclean, hrest]
      · -- the scope runs into what comes next, which is the end or a line feed
        rw [if_neg (by decide), List.append_nil]
        rcases splitInclusive_head (hreturn (by simp)) with rfl | ⟨more, rfl⟩
        · rw [sanitizeText_nil, List.append_nil, hs.sanitizeText_open hclean]
        · rw [sanitizeText_feed, sanitizeText_feed] at hrest
          rw [sanitizeText_feed, hs.sanitizeText_feed hclean, (List.cons.inj hrest).2]

/-! ## Texts that are not tidy -/

/-- Sanitising adds no words. -/
theorem sanitizeText_words_le (text : List Char) :
    (words isWhitespace (sanitizeText text)).length ≤ (words isWhitespace text).length := by
  induction text using lines_induction isLineEnd with
  | nil => exact Nat.le_refl _
  | last body hne hbody =>
    rw [sanitizeText_open hne hbody]
    rcases sanitizeLine_spec body with ⟨-, hkept⟩ | ⟨indent, kind, ident, fourth, more, hs, hscope⟩
    · rw [hkept]
    · have hkept := words_scopeText_blank hs [] (by simp)
      rw [hscope, newline_open hbody, hkept, words_nil, hs.parts]
      simp [scopeWords]
  | line body c rest hbody hc ih =>
    rw [sanitizeText_line hbody hc, words_line hc]
    rcases sanitizeLine_spec (body ++ [c]) with
      ⟨-, hkept⟩ | ⟨indent, kind, ident, fourth, more, hs, hscope⟩
    · rw [hkept, List.append_assoc, List.singleton_append, words_line hc _ (sanitizeText rest),
        List.length_append, List.length_append]
      omega
    · rw [hscope, List.append_assoc, ← scopeTail, List.length_append, hs.parts]
      by_cases hblank : ∀ d ∈ (scopeTail (body ++ [c]) rest).head?, isWhitespace d = true
      · rw [words_scopeText_blank hs _ hblank, words_scopeTail, List.length_append]
        simp only [scopeWords, List.length_cons, List.length_nil]
        omega
      · obtain ⟨d, hd, hword⟩ : ∃ d ∈ (scopeTail (body ++ [c]) rest).head?,
            isWhitespace d = false := by simpa using hblank
        rw [words_scopeText_merged hs hd hword, words_scopeTail]
        simp only [List.length_cons]
        omega

theorem count_return {word : List Char} (h : ∀ c ∈ word, isWhitespace c = false) :
    word.count '\r' = 0 := by
  rw [List.count_eq_zero]
  intro hmem
  cases h _ hmem

theorem sanitizeLine_returns_le (line : List Char) :
    (sanitizeLine line).count '\r' ≤ line.count '\r' := by
  rcases sanitizeLine_spec line with ⟨-, hkept⟩ | ⟨indent, kind, ident, fourth, more, hs, hscope⟩
  · rw [hkept]
  · obtain ⟨tail, htail⟩ := hs.keyword
    have hindent : indent.count '\r' ≤ line.count '\r' := by
      rw [htail, List.count_append]
      omega
    have hnewline : (newline line).count '\r' = 0 := by
      unfold newline
      split <;> rfl
    have hfixed := count_return (fixIdent_word hs.ident_word.1 hs.ident_word.2).2
    have hkind := count_return hs.kind_word.2
    have hscopeKeyword : scopeKeyword.count '\r' = 0 := count_return scopeKeyword_word
    have hendKeyword : endKeyword.count '\r' = 0 := count_return endKeyword_word
    rw [hscope, scopeText]
    simp only [List.count_append, List.count_cons, hnewline, hfixed, hkind, hscopeKeyword,
      hendKeyword]
    simpa using hindent

/-- Sanitising adds no carriage returns. -/
theorem sanitizeText_returns_le (text : List Char) :
    (sanitizeText text).count '\r' ≤ text.count '\r' := by
  induction text using lines_induction isLineEnd with
  | nil => exact Nat.le_refl _
  | last body hne hbody =>
    rw [sanitizeText_open hne hbody]
    exact sanitizeLine_returns_le body
  | line body c rest hbody hc ih =>
    have hline := sanitizeLine_returns_le (body ++ [c])
    rw [List.count_append] at hline
    rw [sanitizeText_line hbody hc, List.count_append, List.count_append, List.count_cons]
    rw [List.count_cons, List.count_nil] at hline
    omega

/-- Kept tokens leave a scope line no more than its four words. -/
theorem four_words {pre pre' rest rest' more : List (List Char)} {kind ident fourth : List Char}
    (hpre : pre'.length = pre.length) (hle : rest'.length ≤ rest.length)
    (h : TokensKept (pre ++ (scopeKeyword :: kind :: ident :: fourth :: more ++ rest))
      (pre' ++ (scopeWords kind (fixIdent ident) ++ rest'))) :
    scopeKeyword :: kind :: ident :: fourth :: more = scopeWords kind ident := by
  have hlength := h.length
  simp only [List.length_append, List.length_cons, scopeWords, List.length_nil] at hlength
  have hmore : more = [] := List.eq_nil_of_length_eq_zero (by omega)
  have hfourth := h.each (pre.length + 3) fourth (by
    rw [List.getElem?_append_right (by omega), Nat.add_sub_cancel_left]
    rfl)
  rw [List.getElem?_append_right (by omega), hpre, Nat.add_sub_cancel_left] at hfourth
  rcases hfourth with hsame | ⟨hescaped, -⟩
  · rw [hmore, ← Option.some.inj hsame]
    rfl
  · cases Option.some.inj hescaped

/-- A scope that runs into something other than a line feed is not left alone by
the next pass. -/
theorem ScopeLine.sanitizeText_ne {line indent kind ident fourth tail : List Char}
    {more : List (List Char)} {d : Char} (h : ScopeLine line indent kind ident fourth more)
    (hclean : ∀ c ∈ scopeText indent kind ident, isLineEnd c = false)
    (hhead : tail.head? = some d) (hspace : isWhitespace d = true) (hfeed : d ≠ '\n') :
    sanitizeText (scopeText indent kind ident ++ tail) ≠ scopeText indent kind ident ++ tail := by
  intro hagain
  have hblank : ∀ tail' : List Char, tail'.head? = some d → ∀ c ∈ tail'.head?,
      isWhitespace c = true := by
    intro tail' htail' c hc
    rw [htail'] at hc
    cases hc
    exact hspace
  have hbodyClean : ∀ {body : List Char}, (∀ c ∈ body, isLineEnd c = false) →
      ∀ c ∈ scopeText indent kind ident ++ body, isLineEnd c = false := by
    intro body hbody c hc
    exact (List.mem_append.mp hc).elim (hclean c) (hbody c)
  revert hhead hagain
  induction tail using lines_induction isLineEnd with
  | nil =>
    intro hhead
    cases hhead
  | last body hne hbody =>
    -- the whole tail is dropped
    intro hhead hagain
    rw [Header.sanitizeText_open (by simp [scopeText]) (hbodyClean hbody),
      h.again _ (hblank _ hhead), newline_open (hbodyClean hbody)] at hagain
    exact hne (List.append_cancel_left hagain).symm
  | line body c rest hbody hc _ =>
    intro hhead hagain
    have hfirst : (body ++ [c]).head? = some d := by
      rw [← hhead]
      cases body <;> rfl
    rw [← List.append_assoc, sanitizeText_line (hbodyClean hbody) hc, List.append_assoc,
      h.again _ (hblank _ hfirst), ← List.append_assoc, newline_concat, List.append_assoc,
      List.append_assoc] at hagain
    have htail := List.append_cancel_left hagain
    rcases isLineEnd_cases hc with rfl | rfl
    · rw [if_pos rfl] at htail
      have hd := congrArg List.head? htail
      rw [hhead] at hd
      exact hfeed (Option.some.inj hd).symm
    · -- there are more carriage returns than the next pass has to give
      have hreturns := sanitizeText_returns_le rest
      rw [if_neg (by decide), List.nil_append] at htail
      rw [htail, List.count_append, List.count_cons] at hreturns
      simp at hreturns
      omega

/-- What a scope line stands before when the next pass leaves it and what comes
after it alone. -/
theorem ScopeLine.boundary {body rest indent kind ident fourth : List Char} {c : Char}
    {more : List (List Char)} (h : ScopeLine (body ++ [c]) indent kind ident fourth more)
    (hbody : ∀ c ∈ body, isLineEnd c = false) (hc : isLineEnd c = true)
    (hblank : ∀ d ∈ (scopeTail (body ++ [c]) rest).head?, isWhitespace d = true)
    (hagain : sanitizeText (scopeText indent kind ident ++ scopeTail (body ++ [c]) rest) =
      scopeText indent kind ident ++ scopeTail (body ++ [c]) rest) :
    (c = '\r' → ∀ next ∈ (splitInclusive isLineEnd rest).head?, next = ['\n']) ∧
      sanitizeText (sanitizeText rest) = sanitizeText rest := by
  have hclean := h.no_lineEnd (List.prefix_refl _) hbody
  rw [scopeTail, newline_concat] at hblank hagain
  rcases isLineEnd_cases hc with rfl | rfl
  · rw [if_pos rfl, List.singleton_append, h.sanitizeText_feed hclean] at hagain
    exact ⟨fun hreturn => absurd hreturn (by decide),
      (List.cons.inj (List.append_cancel_left hagain)).2⟩
  · rw [if_neg (by decide), List.nil_append] at hblank hagain
    have hhead := sanitizeText_head rest
    cases rest with
    | nil => exact ⟨fun _ next hnext => (by cases hnext), rfl⟩
    | cons d rest =>
      have hspace := hblank d hhead
      by_cases hfeed : d = '\n'
      · subst hfeed
        rw [Header.sanitizeText_feed, h.sanitizeText_feed hclean] at hagain
        refine ⟨fun _ next hnext => ?_, ?_⟩
        · cases hnext
          rfl
        · rw [Header.sanitizeText_feed, Header.sanitizeText_feed]
          exact List.append_cancel_left hagain
      · exact absurd hagain (h.sanitizeText_ne hclean hhead hspace hfeed)

/-- **A text whose tokens are kept and that a second pass leaves alone is
tidy.** The induction carries the tokens of the lines before. -/
theorem tidy_of_kept (text : List Char) (pre pre' : List (List Char))
    (hpre : pre'.length = pre.length)
    (hkept : TokensKept (pre ++ words isWhitespace text)
      (pre' ++ words isWhitespace (sanitizeText text)))
    (hagain : sanitizeText (sanitizeText text) = sanitizeText text) :
    Tidy (splitInclusive isLineEnd text) := by
  induction text using lines_induction isLineEnd generalizing pre pre' with
  | nil => trivial
  | last body hne hbody =>
    rw [splitInclusive_open hne hbody]
    refine ⟨fun hrewritten => ⟨?_, fun _ next hnext => (by cases hnext)⟩, trivial⟩
    obtain ⟨indent, kind, ident, fourth, more, hs⟩ := hrewritten.scopeLine
    rw [sanitizeText_open hne hbody, hs.sanitize, newline_open hbody,
      words_scopeText_blank hs [] (by simp), hs.parts, words_nil,
      ← List.append_nil (scopeKeyword :: kind :: ident :: fourth :: more)] at hkept
    exact ⟨kind, ident, hs.parts.trans (four_words hpre (Nat.le_refl _) hkept)⟩
  | line body c rest hbody hc ih =>
    rw [splitInclusive_line hbody hc]
    rw [words_line hc] at hkept
    rw [sanitizeText_line hbody hc] at hkept hagain
    rcases sanitizeLine_spec (body ++ [c]) with
      ⟨hnot, hline⟩ | ⟨indent, kind, ident, fourth, more, hs, hscope⟩
    · rw [hline, List.append_assoc, List.singleton_append] at hkept hagain
      rw [words_line hc _ (sanitizeText rest), ← List.append_assoc, ← List.append_assoc] at hkept
      rw [sanitizeText_line hbody hc, hline, List.append_assoc, List.singleton_append] at hagain
      refine ⟨fun hrewritten => absurd hrewritten hnot, ih _ _ ?_ hkept ?_⟩
      · rw [List.length_append, List.length_append, hpre]
      · exact (List.cons.inj (List.append_cancel_left hagain)).2
    · have hclean := hs.no_lineEnd (List.prefix_refl _) hbody
      rw [hscope, List.append_assoc, ← scopeTail] at hkept hagain
      have hblank : ∀ d ∈ (scopeTail (body ++ [c]) rest).head?, isWhitespace d = true := by
        by_contra hnot
        obtain ⟨d, hd, hword⟩ : ∃ d ∈ (scopeTail (body ++ [c]) rest).head?,
          isWhitespace d = false := by simpa using hnot
        have hlength := hkept.length
        have hle := sanitizeText_words_le rest
        rw [List.length_append, List.length_append, List.length_append, hs.parts,
          words_scopeText_merged hs hd hword, words_scopeTail] at hlength
        simp only [List.length_cons] at hlength
        omega
      rw [words_scopeText_blank hs _ hblank, words_scopeTail, hs.parts] at hkept
      have hfour := four_words hpre (sanitizeText_words_le rest) hkept
      rw [hfour, ← List.append_assoc, ← List.append_assoc] at hkept
      obtain ⟨hreturn, hrest⟩ := hs.boundary hbody hc hblank hagain
      refine ⟨fun _ => ⟨⟨kind, ident, hs.parts.trans hfour⟩, fun hlast => hreturn ?_⟩,
        ih _ _ ?_ hkept hrest⟩
      · simpa using hlast
      · rw [List.length_append, List.length_append, hpre]
        rfl

/-- **Sanitising keeps the tokens of a header, and a second pass changes nothing
more, exactly when its lines are tidy**: each scope line that is written anew
is `$scope`, a kind, an identifier and `$end`, and a carriage return that ends
it stands before a line feed or at the end. -/
theorem sanitize_iff (header : List UInt8) :
    (TokensKept (words isWhitespace (fromUtf8Lossy header))
        (words isWhitespace (sanitizeHeader header)) ∧
      sanitizeHeader (encodeUtf8 (sanitizeHeader header)) = sanitizeHeader header) ↔
      Tidy (splitInclusive isLineEnd (fromUtf8Lossy header)) := by
  simp only [sanitizeHeader, fromUtf8Lossy_encodeUtf8]
  constructor
  · intro h
    exact tidy_of_kept _ [] [] rfl h.1 h.2
  · intro h
    exact ⟨tokensKept_of_tidy _ h, sanitizeText_again _ h⟩

/-- A variable after the `$end` of a scope on the same line is lost. -/
theorem sanitize_drops_tokens :
    let header := encodeUtf8 "$scope module top $end $var wire 1 ! clk $end\n".toList
    fromUtf8Lossy header = "$scope module top $end $var wire 1 ! clk $end\n".toList ∧
    sanitizeHeader header = "$scope module top $end\n".toList ∧
    ¬ TokensKept (words isWhitespace (fromUtf8Lossy header))
      (words isWhitespace (sanitizeHeader header)) := by
  simp only [sanitizeHeader, fromUtf8Lossy_encodeUtf8, true_and]
  refine ⟨by decide, fun h => ?_⟩
  have hlength := h.length
  revert hlength
  decide

end VcdTools.Header
