import VcdTools.Lib.Utf8
import VcdTools.Lib.Words

/-! # Sanitising a header

`sanitize_header` of `header.rs`, on the characters of the text. It goes
through the lines, which a line feed or a carriage return ends, and writes the
scope lines anew. -/
namespace VcdTools.Header
open VcdTools.Lib

/-- `allowed_chars`. -/
def allowedChars : List Char :=
  "abcdefghijklmnopqrstuvwxyzABCDEFGHIJKLMNOPQRSTUVWXYZ0123456789_$().".toList

def needsEscape (ident : List Char) : Bool :=
  if ident.head? = some '\\' || ident.isEmpty then false
  else
    let startsOk := ident.head?.any fun ch => ch.isAlpha || ch = '_'
    if !startsOk then true
    else ident.any fun ch => !allowedChars.contains ch

/-- `fixed`. -/
def fixIdent (ident : List Char) : List Char :=
  if needsEscape ident then
    if ident.head? = some '\\' then ident else '\\' :: ident
  else ident

def scopeKeyword : List Char := "$scope".toList

def endKeyword : List Char := "$end".toList

/-- The pieces of `split_inclusive(['\n', '\r'])`. -/
def isLineEnd (c : Char) : Bool := c = '\n' || c = '\r'

/-- `{prefix}$scope {kind} {fixed} $end`. -/
def scopeText (indent kind ident : List Char) : List Char :=
  indent ++ (scopeKeyword ++ ' ' :: (kind ++ ' ' :: (fixIdent ident ++ ' ' :: endKeyword)))

/-- `newline`. -/
def newline (line : List Char) : List Char := if line.getLast? = some '\n' then ['\n'] else []

/-- One turn of the loop over the lines. -/
def sanitizeLine (line : List Char) : List Char :=
  let trimmed := trimStart line
  if (scopeKeyword ++ [' ']).isPrefixOf trimmed then
    match words isWhitespace trimmed with
    | keyword :: kind :: ident :: _ :: _ =>
      if keyword = scopeKeyword then
        scopeText (line.take (line.length - trimmed.length)) kind ident ++ newline line
      else line
    | _ => line
  else line

def sanitizeText (text : List Char) : List Char :=
  (splitInclusive isLineEnd text).flatMap sanitizeLine

def sanitizeHeader (header : List UInt8) : List Char := sanitizeText (fromUtf8Lossy header)

/-! ## Characters -/

theorem isWhitespace_blank : isWhitespace ' ' = true := rfl

theorem isWhitespace_feed : isWhitespace '\n' = true := rfl

theorem isWhitespace_return : isWhitespace '\r' = true := rfl

theorem scopeKeyword_word : ∀ c ∈ scopeKeyword, isWhitespace c = false := by
  have hall : (scopeKeyword.all fun c => !isWhitespace c) = true := rfl
  intro c hc
  simpa using List.all_eq_true.mp hall c hc

theorem endKeyword_word : ∀ c ∈ endKeyword, isWhitespace c = false := by
  have hall : (endKeyword.all fun c => !isWhitespace c) = true := rfl
  intro c hc
  simpa using List.all_eq_true.mp hall c hc

theorem endKeyword_ne : endKeyword ≠ [] := List.cons_ne_nil _ _

/-! ## Scope lines -/

/-- A line that is written anew. -/
def Rewritten (line : List Char) : Prop :=
  scopeKeyword ++ [' '] <+: trimStart line ∧ 4 ≤ (words isWhitespace line).length

instance (line : List Char) : Decidable (Rewritten line) :=
  inferInstanceAs (Decidable (_ ∧ _))

/-- The parts of such a line. -/
structure ScopeLine (line indent kind ident fourth : List Char) (more : List (List Char)) :
    Prop where
  blank : ∀ c ∈ indent, isWhitespace c = true
  keyword : ∃ tail, line = indent ++ (scopeKeyword ++ ' ' :: tail)
  parts : words isWhitespace line = scopeKeyword :: kind :: ident :: fourth :: more

variable {line indent kind ident fourth : List Char} {more : List (List Char)}

theorem trimStart_scope (h : ∀ c ∈ indent, isWhitespace c = true) (tail : List Char) :
    trimStart (indent ++ (scopeKeyword ++ tail)) = scopeKeyword ++ tail := by
  rw [trimStart, List.dropWhile_append_of_pos h]
  rfl

theorem words_indent (h : ∀ c ∈ indent, isWhitespace c = true) (text : List Char) :
    words isWhitespace (indent ++ text) = words isWhitespace text :=
  words_append_left h text

theorem words_scope (tail : List Char) : words isWhitespace (scopeKeyword ++ ' ' :: tail) =
    scopeKeyword :: words isWhitespace tail :=
  words_word_cons (List.cons_ne_nil _ _) scopeKeyword_word isWhitespace_blank tail

/-- **A scope line is written anew from its parts.** -/
theorem ScopeLine.sanitize (h : ScopeLine line indent kind ident fourth more) :
    sanitizeLine line = scopeText indent kind ident ++ newline line := by
  obtain ⟨tail, htail⟩ := h.keyword
  have htrim : trimStart line = scopeKeyword ++ ' ' :: tail := by
    rw [htail]
    exact trimStart_scope h.blank _
  have hwords : words isWhitespace (trimStart line) =
      scopeKeyword :: kind :: ident :: fourth :: more := by
    rw [htrim, ← words_indent h.blank, ← htail, h.parts]
  have hindent : line.take (line.length - (trimStart line).length) = indent := by
    rw [htrim, htail, List.length_append, Nat.add_sub_cancel, List.take_left]
  have hstarts : (scopeKeyword ++ [' ']).isPrefixOf (trimStart line) = true := by
    rw [List.isPrefixOf_iff_prefix, htrim]
    exact ⟨tail, by simp⟩
  unfold sanitizeLine
  simp only [hstarts, if_true, hwords, hindent]

theorem Rewritten.scopeLine (h : Rewritten line) :
    ∃ indent kind ident fourth more, ScopeLine line indent kind ident fourth more := by
  obtain ⟨⟨tail, htail⟩, hlength⟩ := h
  let indent := line.takeWhile isWhitespace
  have hindent : ∀ c ∈ indent, isWhitespace c = true := fun c hc => List.mem_takeWhile_imp hc
  have hline : line = indent ++ (scopeKeyword ++ ' ' :: tail) := by
    have hsplit : line = indent ++ trimStart line := List.takeWhile_append_dropWhile.symm
    rw [← htail] at hsplit
    simpa using hsplit
  have hwords : words isWhitespace line = scopeKeyword :: words isWhitespace tail := by
    rw [hline, words_indent hindent, words_scope]
  rw [hwords] at hlength
  match hmore : words isWhitespace tail with
  | kind :: ident :: fourth :: more =>
    exact ⟨indent, kind, ident, fourth, more, hindent, ⟨tail, hline⟩, hwords.trans (by rw [hmore])⟩
  | [] | [_] | [_, _] =>
    rw [hmore] at hlength
    simp at hlength

theorem ScopeLine.rewritten (h : ScopeLine line indent kind ident fourth more) :
    Rewritten line := by
  obtain ⟨tail, htail⟩ := h.keyword
  refine ⟨⟨tail, ?_⟩, ?_⟩
  · rw [htail, trimStart_scope h.blank]
    simp
  · rw [h.parts]
    simp

/-- **Every other line is kept.** -/
theorem sanitizeLine_kept (h : ¬ Rewritten line) : sanitizeLine line = line := by
  unfold sanitizeLine
  simp only
  split
  · rename_i hstarts
    split
    · rename_i keyword kind ident fourth more hwords
      split
      · have hsame : words isWhitespace line = words isWhitespace (trimStart line) := by
          have hsplit : line = line.takeWhile isWhitespace ++ trimStart line :=
            List.takeWhile_append_dropWhile.symm
          conv_lhs => rw [hsplit]
          exact words_indent (fun c hc => List.mem_takeWhile_imp hc) _
        refine absurd ⟨List.isPrefixOf_iff_prefix.mp hstarts, ?_⟩ h
        rw [hsame, hwords]
        simp
      · rfl
    · rfl
  · rfl

example : sanitizeHeader (encodeUtf8 "$scope module a-b $end\r\n".toList) =
    "$scope module \\a-b $end\n".toList := by
  rw [sanitizeHeader, fromUtf8Lossy_encodeUtf8]
  decide

end VcdTools.Header
