import Mathlib.Data.List.DropRight
import Mathlib.Tactic.Common

/-! # Words and lines

A text cut at separators, as the standard library cuts it: the words between
whitespace, and the lines with the terminators that end them. Whitespace is the
Unicode property `White_Space`. -/
namespace VcdTools.Lib

/-- `char::is_whitespace`. -/
def isWhitespace (c : Char) : Bool :=
  let n := c.toNat
  (9 ≤ n && n ≤ 13) || n = 0x20 || n = 0x85 || n = 0xA0 || n = 0x1680 ||
    (0x2000 ≤ n && n ≤ 0x200A) || n = 0x2028 || n = 0x2029 || n = 0x202F || n = 0x205F || n = 0x3000

/-- `str::trim_start`. -/
def trimStart (text : List Char) : List Char := text.dropWhile isWhitespace

/-- `str::trim`. -/
def trim (text : List Char) : List Char := (trimStart text).rdropWhile isWhitespace

/-- A text is what trimming leaves, between whitespace. -/
theorem exists_trim (text : List Char) :
    ∃ before after, (∀ c ∈ before, isWhitespace c = true) ∧ (∀ c ∈ after, isWhitespace c = true) ∧
      text = before ++ trim text ++ after := by
  refine ⟨text.takeWhile isWhitespace, (trimStart text).rtakeWhile isWhitespace,
    fun c hc => List.mem_takeWhile_imp hc, fun c hc => List.mem_rtakeWhile_imp hc, ?_⟩
  rw [List.append_assoc, trim, List.rdropWhile_append_rtakeWhile, trimStart,
    List.takeWhile_append_dropWhile]

theorem trim_eq_self {text : List Char} (h : ∀ c ∈ text, isWhitespace c = false) :
    trim text = text := by
  have hstart : trimStart text = text := by
    cases text with
    | nil => rfl
    | cons c rest => exact List.dropWhile_cons_of_neg (by simp [h c List.mem_cons_self])
  rw [trim, hstart, List.rdropWhile_eq_self_iff]
  intro hne
  simp [h _ (List.getLast_mem hne)]

section
variable {α : Type*}

/-! ## Words -/

/-- The words of a text: what is left between its separators. -/
def words (sep : α → Bool) (text : List α) : List (List α) :=
  (text.splitOnP sep).filter fun word => !word.isEmpty

/-- The pieces of a text, each with the terminator that ends it:
`split_inclusive`. -/
def splitInclusive (sep : α → Bool) : List α → List (List α)
  | [] => []
  | c :: cs =>
    if sep c then [c] :: splitInclusive sep cs
    else match splitInclusive sep cs with
      | [] => [[c]]
      | line :: lines => (c :: line) :: lines

variable {sep : α → Bool}

@[simp] theorem words_nil : words sep [] = [] := by
  simp [words, List.splitOnP_nil]

/-- **A separator parts the words** on its two sides. -/
theorem words_append_cons (xs ys : List α) {c : α} (hc : sep c = true) :
    words sep (xs ++ c :: ys) = words sep xs ++ words sep ys := by
  unfold words
  rw [List.splitOnP_append_cons xs ys hc, List.filter_append]

theorem words_cons_sep {c : α} (hc : sep c = true) (ys : List α) :
    words sep (c :: ys) = words sep ys := by
  simpa using words_append_cons [] ys hc

theorem words_append_sep {c : α} (hc : sep c = true) (xs : List α) :
    words sep (xs ++ [c]) = words sep xs := by
  simpa using words_append_cons xs [] hc

/-- Separators in front of a text belong to no word. -/
theorem words_append_left {xs : List α} (h : ∀ c ∈ xs, sep c = true) (ys : List α) :
    words sep (xs ++ ys) = words sep ys := by
  induction xs with
  | nil => rfl
  | cons c xs ih =>
    rw [List.cons_append, words_cons_sep (h c List.mem_cons_self)]
    exact ih fun c hc => h c (List.mem_cons_of_mem _ hc)

/-- A text without separators is a word. -/
theorem words_word {word : List α} (hne : word ≠ []) (h : ∀ c ∈ word, sep c = false) :
    words sep word = [word] := by
  rw [words, List.splitOnP_eq_singleton h]
  simpa using hne

/-- The first word of a text. -/
theorem words_word_cons {word : List α} (hne : word ≠ []) (h : ∀ c ∈ word, sep c = false) {c : α}
    (hc : sep c = true) (rest : List α) :
    words sep (word ++ c :: rest) = word :: words sep rest := by
  rw [words_append_cons _ _ hc, words_word hne h]
  rfl

/-- Words are not empty and have no separators. -/
theorem not_sep_of_mem_words {text word : List α} (h : word ∈ words sep text) :
    word ≠ [] ∧ ∀ c ∈ word, sep c = false := by
  obtain ⟨hmem, hne⟩ := List.mem_filter.mp h
  refine ⟨by simpa using hne, ?_⟩
  clear h hne
  induction text generalizing word with
  | nil =>
    rw [List.splitOnP_nil, List.mem_singleton] at hmem
    subst hmem
    exact fun c hc => absurd hc List.not_mem_nil
  | cons c text ih =>
    rw [List.splitOnP_cons_eq_if_modifyHead] at hmem
    by_cases hc : sep c = true
    · rw [if_pos hc, List.mem_cons] at hmem
      obtain rfl | hmem := hmem
      · exact fun c hc => absurd hc List.not_mem_nil
      · exact ih hmem
    · rw [if_neg hc] at hmem
      obtain ⟨piece, pieces, hpieces⟩ :=
        List.exists_cons_of_ne_nil (List.splitOnP_ne_nil sep text)
      rw [hpieces] at ih
      rw [hpieces, List.modifyHead_cons, List.mem_cons] at hmem
      obtain rfl | hmem := hmem
      · intro d hd
        obtain rfl | hd := List.mem_cons.mp hd
        · simpa using hc
        · exact ih List.mem_cons_self d hd
      · exact ih (List.mem_cons_of_mem _ hmem)

/-- Two texts whose words do not meet. -/
theorem words_append {xs ys : List α}
    (h : (∀ c ∈ xs.getLast?, sep c = true) ∨ ∀ c ∈ ys.head?, sep c = true) :
    words sep (xs ++ ys) = words sep xs ++ words sep ys := by
  rcases h with hlast | hhead
  · rcases List.eq_nil_or_concat xs with rfl | ⟨before, c, rfl⟩
    · simp
    · have hc := hlast c (by simp)
      rw [List.concat_eq_append, List.append_assoc, List.singleton_append, words_append_cons _ _ hc,
        words_append_sep hc]
  · cases ys with
    | nil => simp
    | cons c ys =>
      have hc := hhead c rfl
      rw [words_append_cons _ _ hc, words_cons_sep hc]

/-- **A word in front of a text that starts with one** is part of this one. -/
theorem words_word_append {word ys : List α} (h : ∀ c ∈ word, sep c = false) {d : α}
    (hhead : ys.head? = some d) (hd : sep d = false) :
    (words sep (word ++ ys)).length = (words sep ys).length := by
  obtain ⟨ys, rfl⟩ : ∃ rest, ys = d :: rest := by
    cases ys with
    | nil => cases hhead
    | cons c rest =>
      cases hhead
      exact ⟨rest, rfl⟩
  let first := (d :: ys).takeWhile fun c => !sep c
  let rest := (d :: ys).dropWhile fun c => !sep c
  have hsplit : d :: ys = first ++ rest := List.takeWhile_append_dropWhile.symm
  have hfirst : ∀ c ∈ first, sep c = false := by
    intro c hc
    simpa using List.mem_takeWhile_imp hc
  have hne : first ≠ [] := by
    simp [first, hd]
  have hrest : ∀ c ∈ rest.head?, sep c = true := by
    intro c hc
    have := List.head?_dropWhile_not (fun c => !sep c) (d :: ys)
    rw [show ((d :: ys).dropWhile fun c => !sep c).head? = some c from hc] at this
    simpa using this
  have hword : ∀ c ∈ word ++ first, sep c = false := by
    intro c hc
    exact (List.mem_append.mp hc).elim (h c) (hfirst c)
  rw [hsplit, ← List.append_assoc, words_append (.inr hrest), words_append (.inr hrest),
    words_word (by simp [hne]) hword, words_word hne hfirst]
  rfl

/-! ## Lines -/

theorem splitInclusive_line {body : List α} (h : ∀ c ∈ body, sep c = false) {c : α}
    (hc : sep c = true) (rest : List α) :
    splitInclusive sep (body ++ c :: rest) = (body ++ [c]) :: splitInclusive sep rest := by
  induction body with
  | nil => simp [splitInclusive, hc]
  | cons d body ih =>
    have hd := h d List.mem_cons_self
    rw [List.cons_append, splitInclusive, ih fun c hc => h c (List.mem_cons_of_mem _ hc)]
    simp [hd]

theorem splitInclusive_open {body : List α} (hne : body ≠ []) (h : ∀ c ∈ body, sep c = false) :
    splitInclusive sep body = [body] := by
  induction body with
  | nil => exact absurd rfl hne
  | cons d body ih =>
    have hd := h d List.mem_cons_self
    cases body with
    | nil => simp [splitInclusive, hd]
    | cons e body =>
      rw [splitInclusive, ih (List.cons_ne_nil _ _) fun c hc => h c (List.mem_cons_of_mem _ hc)]
      simp [hd]

/-- **Induction on the lines of a text**: an open line may end it. -/
theorem lines_induction {motive : List α → Prop} (sep : α → Bool) (nil : motive [])
    (last : ∀ body, body ≠ [] → (∀ c ∈ body, sep c = false) → motive body)
    (line : ∀ body c rest, (∀ c ∈ body, sep c = false) → sep c = true → motive rest →
      motive (body ++ c :: rest)) (text : List α) : motive text := by
  generalize hn : text.length = n
  induction n using Nat.strong_induction_on generalizing text with
  | _ n ih =>
    let body := text.takeWhile fun c => !sep c
    let rest := text.dropWhile fun c => !sep c
    have hsplit : text = body ++ rest := List.takeWhile_append_dropWhile.symm
    have hbody : ∀ c ∈ body, sep c = false := by
      intro c hc
      simpa using List.mem_takeWhile_imp hc
    cases hrest : rest with
    | nil =>
      rw [hsplit, hrest, List.append_nil]
      by_cases hne : body = []
      · rw [hne]
        exact nil
      · exact last body hne hbody
    | cons c more =>
      have hc := List.head?_dropWhile_not (fun c => !sep c) text
      rw [show text.dropWhile (fun c => !sep c) = c :: more from hrest] at hc
      rw [hsplit, hrest]
      refine line body c more hbody (by simpa using hc) (ih more.length ?_ more rfl)
      have hlength := congrArg List.length hsplit
      rw [hrest, List.length_append, List.length_cons] at hlength
      omega

/-- Complete lines in front of a text. -/
theorem splitInclusive_append {xs : List α} (h : ∀ c ∈ xs.getLast?, sep c = true) (ys : List α) :
    splitInclusive sep (xs ++ ys) = splitInclusive sep xs ++ splitInclusive sep ys := by
  induction xs using lines_induction sep with
  | nil => rfl
  | last body hne hbody =>
    have hlast := h _ (List.getLast?_eq_some_getLast hne)
    rw [hbody _ (List.getLast_mem hne)] at hlast
    cases hlast
  | line body c rest hbody hc ih =>
    have hrest : ∀ d ∈ rest.getLast?, sep d = true := by
      intro d hd
      refine h d ?_
      rw [Option.mem_def] at hd ⊢
      rw [List.getLast?_append, List.getLast?_cons, hd]
      rfl
    rw [List.append_assoc, List.cons_append, splitInclusive_line hbody hc,
      splitInclusive_line hbody hc, ih hrest]
    rfl

theorem flatten_splitInclusive (sep : α → Bool) (text : List α) : (splitInclusive sep text).flatten = text := by
  induction text using lines_induction sep with
  | nil => rfl
  | last body hne hbody => rw [splitInclusive_open hne hbody, List.flatten_singleton]
  | line body c rest hbody hc ih =>
    rw [splitInclusive_line hbody hc, List.flatten_cons, ih]
    simp

/-- The first line of a text, with the terminator that ends it. -/
def firstLine (sep : α → Bool) (text : List α) : List α :=
  text.takeWhile (fun c => !sep c) ++ (text.dropWhile fun c => !sep c).take 1

theorem firstLine_append {body : List α} (h : ∀ c ∈ body, sep c = false) (text : List α) :
    firstLine sep (body ++ text) = body ++ firstLine sep text := by
  have hbody : ∀ c ∈ body, (!sep c) = true := fun c hc => by simp [h c hc]
  unfold firstLine
  rw [List.takeWhile_append_of_pos hbody, List.dropWhile_append_of_pos hbody, List.append_assoc]

theorem firstLine_line {body : List α} (h : ∀ c ∈ body, sep c = false) {c : α}
    (hc : sep c = true) (rest : List α) : firstLine sep (body ++ c :: rest) = body ++ [c] := by
  rw [firstLine_append h]
  simp [firstLine, hc]

/-- The first line of a text that goes on after a terminator. -/
theorem firstLine_of_any {text : List α} (h : text.any sep = true) (rest : List α) :
    firstLine sep (text ++ rest) = firstLine sep text := by
  induction text with
  | nil => cases h
  | cons c text ih =>
    by_cases hc : sep c = true
    · have hline : ∀ tail, firstLine sep (c :: tail) = [c] := fun tail =>
        firstLine_line (fun _ h => (by cases h) : ∀ c ∈ ([] : List α), sep c = false) hc tail
      rw [List.cons_append, hline, hline]
    · have hopen : ∀ tail, firstLine sep (c :: tail) = c :: firstLine sep tail := fun tail =>
        firstLine_append (fun d hd => (by
          rw [List.mem_singleton.mp hd, Bool.eq_false_iff.mpr hc]) : ∀ d ∈ [c], sep d = false) tail
      rw [List.any_cons, Bool.eq_false_iff.mpr hc, Bool.false_or] at h
      rw [List.cons_append, hopen, hopen, ih h]

/-- The first line of a text is empty only when the text is. -/
theorem eq_nil_of_firstLine {text : List α} (h : firstLine sep text = []) : text = [] := by
  obtain ⟨htake, hdrop⟩ := List.append_eq_nil_iff.mp h
  have hrest : (text.dropWhile fun c => !sep c) = [] := by
    obtain hzero | hrest := List.take_eq_nil_iff.mp hdrop
    · cases hzero
    · exact hrest
  rw [← List.takeWhile_append_dropWhile (p := fun c => !sep c) (l := text), htake, hrest]
  rfl

theorem length_firstLine_le (sep : α → Bool) (text : List α) :
    (firstLine sep text).length ≤ text.length := by
  have hsplit := congrArg List.length
    (List.takeWhile_append_dropWhile (p := fun c => !sep c) (l := text))
  rw [List.length_append] at hsplit
  rw [firstLine, List.length_append, List.length_take]
  omega

/-- **A text is its first line and the lines of the rest.** -/
theorem splitInclusive_firstLine (sep : α → Bool) {text : List α} (hne : text ≠ []) :
    ∃ rest, text = firstLine sep text ++ rest ∧
      splitInclusive sep text = firstLine sep text :: splitInclusive sep rest := by
  induction text using lines_induction sep with
  | nil => exact absurd rfl hne
  | last body hbody_ne hbody =>
    have hfirst : firstLine sep body = body := by
      simpa [firstLine] using firstLine_append hbody []
    exact ⟨[], by simp [hfirst], by simp [hfirst, splitInclusive_open hbody_ne hbody, splitInclusive]⟩
  | line body c rest hbody hc =>
    refine ⟨rest, ?_, ?_⟩
    · rw [firstLine_line hbody hc]
      simp
    · rw [firstLine_line hbody hc, splitInclusive_line hbody hc]

/-! ## Blocks -/

/-- `rchunks`: blocks of a size from the end on, what is left for the last. -/
def rchunks (size : Nat) (items : List α) : List (List α) :=
  if size = 0 ∨ items = [] then []
  else items.drop (items.length - size) :: rchunks size (items.take (items.length - size))
termination_by items.length
decreasing_by
  rename_i h
  have hpos : 0 < items.length := List.length_pos_iff.mpr fun hnil => h (.inr hnil)
  rw [List.length_take]
  omega

/-- Blocks that are full come back last block first. -/
theorem rchunks_flatten {size : Nat} (hsize : 0 < size) (blocks : List (List α))
    (h : ∀ block ∈ blocks, block.length = size) :
    rchunks size blocks.flatten = blocks.reverse := by
  induction blocks using List.reverseRecOn with
  | nil => rw [rchunks, if_pos (.inr rfl), List.reverse_nil]
  | append_singleton blocks block ih =>
    have hblock : block.length = size := h block (List.mem_append_right _ List.mem_cons_self)
    have hne : blocks.flatten ++ block ≠ [] :=
      List.append_ne_nil_of_right_ne_nil _ (List.ne_nil_of_length_pos (by omega))
    have hlength : (blocks.flatten ++ block).length - size = blocks.flatten.length := by
      rw [List.length_append, hblock, Nat.add_sub_cancel]
    rw [List.flatten_append, List.flatten_singleton, rchunks, if_neg (by simp [hne]; omega), hlength,
      List.drop_left, List.take_left, ih fun b hb => h b (List.mem_append_left _ hb),
      List.reverse_append]
    rfl

end

end VcdTools.Lib
