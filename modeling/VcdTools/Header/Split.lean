import Mathlib.Data.List.Infix
import VcdTools.Lib.Words
import VcdTools.Data

/-! # Splitting a file into header and body

`read_header_bytes_from_file` of `header.rs` reads the file line by line, through
the first line that has `$enddefinitions` in it; the body is read from the
position after that line. The parser of the `vcd` crate reads tokens between
blanks instead, and is a parameter here. -/
namespace VcdTools.Header
open VcdTools.Lib

/-- `b"…"`. -/
def ascii (text : String) : List UInt8 := text.toList.map fun c => UInt8.ofNat c.toNat

def isLineFeed (c : UInt8) : Bool := c = 10

def marker : List UInt8 := ascii "$enddefinitions"

/-- `windows(b"$enddefinitions".len()).any(…)`. -/
def containsMarker (line : List UInt8) : Bool := line.tails.any fun window => marker.isPrefixOf window

/-- The loop of `read_header_bytes_from_file`, over what `read_until` returns. -/
def readHeaderLines (headerBytes : List UInt8) : List (List UInt8) → Option (List UInt8)
  | [] => none
  | line :: lines =>
    if containsMarker line then some (headerBytes ++ line)
    else readHeaderLines (headerBytes ++ line) lines

/-- `read_header_bytes_from_file`: the header and `body_offset`. -/
def readHeaderBytes (file : List UInt8) : Except VcdError (List UInt8 × Nat) :=
  match readHeaderLines [] (splitInclusive isLineFeed file) with
  | some headerBytes => .ok (headerBytes, headerBytes.length)
  | none => .error .missingEndDefinitions

/-! ## VCD texts -/

/-- The blanks of the `vcd` crate. -/
def isBlank (c : UInt8) : Bool := c = 32 || c = 9 || c = 10 || c = 13

/-- A token, and the blanks that end it. -/
structure Token where
  word : List UInt8
  gap : List UInt8
  word_ne : word ≠ []
  word_solid : ∀ c ∈ word, isBlank c = false
  gap_ne : gap ≠ []
  gap_blank : ∀ c ∈ gap, isBlank c = true

def Token.bytes (token : Token) : List UInt8 := token.word ++ token.gap

def endWord : List UInt8 := ascii "$end"

/-- The header commands in front of `$enddefinitions`. -/
def sectionWords : List (List UInt8) :=
  ["$comment", "$date", "$version", "$timescale", "$scope", "$upscope", "$var"].map ascii

/-- One of them: its tokens up to the first `$end`. -/
structure HeaderCommand where
  keyword : Token
  content : List Token
  close : Token
  keyword_known : keyword.word ∈ sectionWords
  content_open : ∀ token ∈ content, token.word ≠ endWord
  close_end : close.word = endWord

def HeaderCommand.bytes (command : HeaderCommand) : List UInt8 :=
  (command.keyword :: command.content ++ [command.close]).flatMap Token.bytes

/-- **A legal file**, in any layout: header commands, `$enddefinitions $end`, and
a body that a blank parts from it. -/
structure VcdText where
  lead : List UInt8
  commands : List HeaderCommand
  gap : List UInt8
  after : List UInt8
  lead_blank : ∀ c ∈ lead, isBlank c = true
  gap_ne : gap ≠ []
  gap_blank : ∀ c ∈ gap, isBlank c = true
  after_parted : ∀ c ∈ after.head?, isBlank c = true

namespace VcdText
variable (v : VcdText)

/-- What stands in front of `$enddefinitions`. -/
def sections : List UInt8 := v.lead ++ v.commands.flatMap HeaderCommand.bytes

/-- The file through the `$end` that closes `$enddefinitions`. -/
def head : List UInt8 := v.sections ++ (marker ++ (v.gap ++ endWord))

def bytes : List UInt8 := v.head ++ v.after

/-- The lines that end in front of `$enddefinitions`. -/
def closedLines : List UInt8 := v.sections.rdropWhile fun c => !isLineFeed c

/-- **The layout of a line-oriented header**: no earlier line has the marker in
it, and the line of the marker ends with the `$end` that closes it. -/
structure Plain : Prop where
  unmarked : ∀ line ∈ splitInclusive isLineFeed v.closedLines, containsMarker line = false
  joined : ∀ c ∈ v.gap, isLineFeed c = false
  parted : ∀ c ∈ firstLine isLineFeed v.after, isBlank c = true

end VcdText

/-! ## The parser -/

/-- `vcd::Parser`: `parse_header` gives the header and leaves the rest of the
stream; `commands` are the commands of a stream up to its end or its first error. -/
structure VcdParser (Items Command Failure : Type) where
  parseHeader : List UInt8 → Except Failure (Items × List UInt8)
  commands : List UInt8 → List Command

section
variable {Items Command Failure : Type} (P : VcdParser Items Command Failure)

/-- **What the parser's documentation says of a header**: it is read through the
`$end` of `$enddefinitions`, whatever follows the blank after it, and blanks in
front of a command are skipped. -/
structure VcdParser.Reads (head : List UInt8) : Prop where
  items : ∀ rest rest', (∃ c ∈ rest.head?, isBlank c = true) →
    (∃ c ∈ rest'.head?, isBlank c = true) →
    (P.parseHeader (head ++ rest)).map Prod.fst = (P.parseHeader (head ++ rest')).map Prod.fst
  left : ∀ rest items left, (∀ c ∈ rest.head?, isBlank c = true) →
    P.parseHeader (head ++ rest) = .ok (items, left) →
    ∃ blanks, rest = blanks ++ left ∧ ∀ c ∈ blanks, isBlank c = true
  blank : ∀ c bytes, isBlank c = true → P.commands (c :: bytes) = P.commands bytes

/-- The header items and commands of a whole file. -/
def VcdParser.parseFile (file : List UInt8) : Except Failure (Items × List Command) :=
  (P.parseHeader file).map fun parsed => (parsed.1, P.commands parsed.2)

/-- Those of a header, and of a body from `body_offset` on. -/
def VcdParser.parseParts (header : List UInt8) (file : List UInt8) (bodyOffset : Nat) :
    Except Failure (Items × List Command) :=
  (P.parseHeader header).map fun parsed => (parsed.1, P.commands (file.drop bodyOffset))

/-- **Nothing is lost.** The header ends with the `$end` that closes
`$enddefinitions`, but for blanks; every byte of a body token is in the body; and
the two parts say what the file says. -/
structure VcdText.Splits (v : VcdText) (headerBytes : List UInt8) (bodyOffset : Nat) : Prop where
  ends : ∃ blanks, headerBytes = v.head ++ blanks ∧ ∀ c ∈ blanks, isBlank c = true
  body : ∀ i c, v.bytes[i]? = some c → v.head.length ≤ i → isBlank c = false → bodyOffset ≤ i
  parses : P.parseParts headerBytes v.bytes bodyOffset = P.parseFile v.bytes

/-! ## The scan -/

theorem containsMarker_iff (line : List UInt8) : containsMarker line = true ↔ marker <:+: line := by
  unfold containsMarker
  rw [List.any_eq_true, List.infix_iff_prefix_suffix]
  constructor
  · intro ⟨window, hwindow, hstarts⟩
    exact ⟨window, List.isPrefixOf_iff_prefix.mp hstarts, (List.mem_tails _ _).mp hwindow⟩
  · intro ⟨window, hstarts, hwindow⟩
    exact ⟨window, (List.mem_tails _ _).mpr hwindow, List.isPrefixOf_iff_prefix.mpr hstarts⟩

theorem marker_line : ∀ c ∈ marker, isLineFeed c = false := by
  have hall : (marker.all fun c => !isLineFeed c) = true := rfl
  intro c hc
  simpa using List.all_eq_true.mp hall c hc

theorem endWord_line : ∀ c ∈ endWord, isLineFeed c = false := by
  have hall : (endWord.all fun c => !isLineFeed c) = true := rfl
  intro c hc
  simpa using List.all_eq_true.mp hall c hc

/-- **The scan stops at the first line with the marker.** -/
theorem readHeaderLines_first {before : List (List UInt8)} {line : List UInt8}
    (hbefore : ∀ earlier ∈ before, containsMarker earlier = false)
    (hline : containsMarker line = true) (headerBytes : List UInt8) (lines : List (List UInt8)) :
    readHeaderLines headerBytes (before ++ line :: lines) =
      some (headerBytes ++ (before.flatten ++ line)) := by
  induction before generalizing headerBytes with
  | nil => simp [readHeaderLines, hline]
  | cons earlier before ih =>
    have hearlier := hbefore earlier List.mem_cons_self
    have hmore := ih (fun l hl => hbefore l (List.mem_cons_of_mem _ hl)) (headerBytes ++ earlier)
    rw [List.cons_append, readHeaderLines, hearlier, if_neg Bool.false_ne_true, hmore]
    simp

theorem readHeaderBytes_first {file : List UInt8} {before : List (List UInt8)} {line : List UInt8}
    {lines : List (List UInt8)} (hfile : splitInclusive isLineFeed file = before ++ line :: lines)
    (hbefore : ∀ earlier ∈ before, containsMarker earlier = false)
    (hline : containsMarker line = true) :
    readHeaderBytes file = .ok (before.flatten ++ line, (before.flatten ++ line).length) := by
  unfold readHeaderBytes
  rw [hfile, readHeaderLines_first hbefore hline]
  rfl

namespace VcdText
variable (v : VcdText)

/-- The text from the line of `$enddefinitions` on. -/
def openLine : List UInt8 := v.sections.rtakeWhile fun c => !isLineFeed c

theorem sections_eq : v.sections = v.closedLines ++ v.openLine :=
  (List.rdropWhile_append_rtakeWhile ..).symm

theorem openLine_line : ∀ c ∈ v.openLine, isLineFeed c = false := by
  intro c hc
  simpa using List.mem_rtakeWhile_imp hc

theorem closedLines_last : ∀ c ∈ v.closedLines.getLast?, isLineFeed c = true := by
  intro c hc
  obtain ⟨hne, rfl⟩ := List.mem_getLast?_eq_getLast hc
  have hlast := List.rdropWhile_last_not (fun c => !isLineFeed c) v.sections hne
  rw [Bool.not_eq_true', Bool.not_eq_false] at hlast
  exact hlast

/-- What stands in the line of the marker, up to the gap. -/
def markerLine : List UInt8 := v.openLine ++ marker

theorem bytes_eq :
    v.bytes = v.closedLines ++ (v.markerLine ++ (v.gap ++ (endWord ++ v.after))) := by
  unfold bytes head markerLine
  rw [sections_eq]
  simp only [List.append_assoc]

theorem head_eq : v.head = v.closedLines ++ (v.markerLine ++ (v.gap ++ endWord)) := by
  unfold head markerLine
  rw [sections_eq]
  simp only [List.append_assoc]

theorem markerLine_line : ∀ c ∈ v.markerLine, isLineFeed c = false := by
  intro c hc
  exact (List.mem_append.mp hc).elim (v.openLine_line c) (marker_line c)

theorem markerLine_ne : v.markerLine ≠ [] := List.append_ne_nil_of_right_ne_nil _ (List.cons_ne_nil _ _)

theorem markerLine_append (tail : List UInt8) : containsMarker (v.markerLine ++ tail) = true := by
  rw [containsMarker_iff]
  exact ⟨v.openLine, tail, rfl⟩

/-- The rest of the marker's line. -/
def markerTail : List UInt8 := firstLine isLineFeed (v.gap ++ (endWord ++ v.after))

/-- **The lines of a file**: those that end in front of the marker, the marker's
own, and the rest. -/
theorem lines_eq : ∃ lines, splitInclusive isLineFeed v.bytes =
    splitInclusive isLineFeed v.closedLines ++ (v.markerLine ++ v.markerTail) :: lines := by
  obtain ⟨rest, -, hlines⟩ := splitInclusive_firstLine isLineFeed
    (List.append_ne_nil_of_left_ne_nil v.markerLine_ne (v.gap ++ (endWord ++ v.after)))
  rw [firstLine_append v.markerLine_line] at hlines
  refine ⟨splitInclusive isLineFeed rest, ?_⟩
  rw [bytes_eq, splitInclusive_append v.closedLines_last, hlines]
  rfl

/-- The header of a file whose earlier lines have no marker. -/
theorem readHeaderBytes_unmarked
    (h : ∀ line ∈ splitInclusive isLineFeed v.closedLines, containsMarker line = false) :
    readHeaderBytes v.bytes = .ok (v.closedLines ++ (v.markerLine ++ v.markerTail),
      (v.closedLines ++ (v.markerLine ++ v.markerTail)).length) := by
  obtain ⟨lines, hlines⟩ := v.lines_eq
  rw [readHeaderBytes_first hlines h (v.markerLine_append _), flatten_splitInclusive]

/-- **A marker in an earlier line** ends the header there. -/
theorem readHeaderBytes_marked
    (h : ¬ ∀ line ∈ splitInclusive isLineFeed v.closedLines, containsMarker line = false) :
    ∃ headerBytes, readHeaderBytes v.bytes = .ok (headerBytes, headerBytes.length) ∧
      headerBytes.length ≤ v.closedLines.length := by
  obtain ⟨lines, hlines⟩ := v.lines_eq
  cases hfind : (splitInclusive isLineFeed v.closedLines).find? containsMarker with
  | none =>
    rw [List.find?_eq_none] at hfind
    exact absurd (fun line hline => by simpa using hfind line hline) h
  | some line =>
    obtain ⟨hline, before, later, hclosed, hbefore⟩ := List.find?_eq_some_iff_append.mp hfind
    rw [hclosed, List.append_assoc, List.cons_append] at hlines
    refine ⟨_, readHeaderBytes_first hlines (fun l hl => by simpa using hbefore l hl) hline, ?_⟩
    have hflat := flatten_splitInclusive isLineFeed v.closedLines
    rw [hclosed, List.flatten_append, List.flatten_cons] at hflat
    rw [← hflat]
    simp

theorem closedLines_lt_head : v.closedLines.length < v.head.length := by
  rw [head_eq]
  have := List.length_pos_of_ne_nil v.markerLine_ne
  simp only [List.length_append]
  omega

/-- A gap over two lines ends the header in front of its `$end`. -/
theorem markerTail_parted (h : ¬ ∀ c ∈ v.gap, isLineFeed c = false) :
    v.markerTail.length ≤ v.gap.length := by
  unfold markerTail
  let text := v.gap.takeWhile fun c => !isLineFeed c
  let rest := v.gap.dropWhile fun c => !isLineFeed c
  have hgap : v.gap = text ++ rest := List.takeWhile_append_dropWhile.symm
  have htext : ∀ c ∈ text, isLineFeed c = false := by
    intro c hc
    simpa using List.mem_takeWhile_imp hc
  cases hrest : rest with
  | nil =>
    rw [hrest, List.append_nil] at hgap
    rw [hgap] at h
    exact absurd htext h
  | cons c rest =>
    have hc := List.head?_dropWhile_not (fun c => !isLineFeed c) v.gap
    rw [show v.gap.dropWhile (fun c => !isLineFeed c) = c :: rest from hrest] at hc
    rw [hgap, hrest, List.append_assoc, List.cons_append,
      firstLine_line htext (by simpa using hc)]
    simp

theorem markerTail_joined (h : ∀ c ∈ v.gap, isLineFeed c = false) :
    v.markerTail = v.gap ++ (endWord ++ firstLine isLineFeed v.after) := by
  unfold markerTail
  rw [firstLine_append h, firstLine_append endWord_line]

/-- The header of a file whose marker, gap and `$end` are one line's. -/
theorem readHeaderBytes_joined
    (h : ∀ line ∈ splitInclusive isLineFeed v.closedLines, containsMarker line = false)
    (hgap : ∀ c ∈ v.gap, isLineFeed c = false) :
    readHeaderBytes v.bytes = .ok (v.head ++ firstLine isLineFeed v.after,
      (v.head ++ firstLine isLineFeed v.after).length) := by
  rw [readHeaderBytes_unmarked v h, markerTail_joined v hgap, head_eq]
  simp only [List.append_assoc]

/-! ## What is split -/

variable {P v} {headerBytes : List UInt8} {bodyOffset : Nat}

/-- A header that stops in front of the `$end` does not split the file well. -/
theorem Splits.head_le (h : v.Splits P headerBytes bodyOffset) :
    v.head.length ≤ headerBytes.length := by
  obtain ⟨blanks, hends, -⟩ := h.ends
  rw [hends, List.length_append]
  exact Nat.le_add_right _ _

theorem commands_blanks {head : List UInt8} (hP : P.Reads head) {blanks : List UInt8}
    (h : ∀ c ∈ blanks, isBlank c = true) (bytes : List UInt8) :
    P.commands (blanks ++ bytes) = P.commands bytes := by
  induction blanks with
  | nil => rfl
  | cons c blanks ih =>
    rw [List.cons_append, hP.blank c _ (h c List.mem_cons_self)]
    exact ih fun c hc => h c (List.mem_cons_of_mem _ hc)

theorem firstLine_head (text : List UInt8) :
    (firstLine isLineFeed text).head? = text.head? := by
  cases text with
  | nil => rfl
  | cons c text =>
    unfold firstLine
    by_cases hc : isLineFeed c = true <;> simp [hc]

theorem firstLine_prefixes (text : List UInt8) : ∃ rest, text = firstLine isLineFeed text ++ rest := by
  by_cases hne : text = []
  · exact ⟨[], by rw [hne]; rfl⟩
  · obtain ⟨rest, htext, -⟩ := splitInclusive_firstLine isLineFeed hne
    exact ⟨rest, htext⟩

/-- **The two parts say what the file says**, when the rest of the header's line
is blank. -/
theorem parseParts_eq (hP : P.Reads v.head)
    (hblank : ∀ c ∈ firstLine isLineFeed v.after, isBlank c = true) :
    P.parseParts (v.head ++ firstLine isLineFeed v.after) v.bytes
      (v.head ++ firstLine isLineFeed v.after).length = P.parseFile v.bytes := by
  obtain ⟨rest, hafter⟩ := firstLine_prefixes v.after
  have hdrop : v.bytes.drop (v.head ++ firstLine isLineFeed v.after).length = rest := by
    unfold bytes
    conv_lhs => rw [hafter]
    rw [← List.append_assoc]
    conv_lhs => rw [← hafter]
    exact List.drop_left
  -- The commands after the header, wherever in the blanks its parser stopped.
  have hcommands : ∀ items left, P.parseHeader v.bytes = .ok (items, left) →
      P.commands left = P.commands rest := by
    intro items left hparse
    obtain ⟨blanks, hleft, hblanks⟩ := hP.left v.after items left v.after_parted hparse
    rw [← commands_blanks hP hblanks left, ← hleft, ← commands_blanks hP hblank rest, ← hafter]
  have hitems : (P.parseHeader (v.head ++ firstLine isLineFeed v.after)).map Prod.fst =
      (P.parseHeader v.bytes).map Prod.fst := by
    cases hhead : v.after.head? with
    | none =>
      rw [List.head?_eq_none_iff] at hhead
      unfold bytes
      rw [hhead]
      rfl
    | some c =>
      have hc := v.after_parted c hhead
      exact hP.items _ _ ⟨c, by rw [firstLine_head]; exact hhead, hc⟩ ⟨c, hhead, hc⟩
  unfold VcdParser.parseParts VcdParser.parseFile
  rw [hdrop]
  cases hwhole : P.parseHeader v.bytes with
  | error failure =>
    rw [hwhole] at hitems
    cases hregion : P.parseHeader (v.head ++ firstLine isLineFeed v.after) with
    | error failure' =>
      rw [hregion] at hitems
      cases hitems
      rfl
    | ok parsed =>
      rw [hregion] at hitems
      cases hitems
  | ok parsed =>
    rw [hwhole] at hitems
    cases hregion : P.parseHeader (v.head ++ firstLine isLineFeed v.after) with
    | error failure =>
      rw [hregion] at hitems
      cases hitems
    | ok parsed' =>
      rw [hregion] at hitems
      have hfst : parsed'.1 = parsed.1 := by injection hitems
      have hrest := hcommands parsed.1 parsed.2 hwhole
      change Except.ok (parsed'.1, P.commands rest) = Except.ok (parsed.1, P.commands parsed.2)
      rw [hfst, hrest]

/-- **A plain layout is split well.** -/
theorem Plain.splits (h : v.Plain) (hP : P.Reads v.head) :
    v.Splits P (v.head ++ firstLine isLineFeed v.after)
      (v.head ++ firstLine isLineFeed v.after).length where
  ends := ⟨_, rfl, h.parted⟩
  body := by
    intro i c hi hhead hc
    by_contra hlt
    obtain ⟨rest, hafter⟩ := firstLine_prefixes v.after
    unfold bytes at hi
    rw [hafter, ← List.append_assoc, List.getElem?_append_left (Nat.lt_of_not_le hlt),
      List.getElem?_append_right hhead] at hi
    have hblank := h.parted c (List.mem_of_getElem? hi)
    rw [hc] at hblank
    cases hblank
  parses := parseParts_eq hP h.parted

/-- **Header and body are split well in a line-oriented layout, and in no other.** -/
theorem splits_iff (v : VcdText) (hP : P.Reads v.head) :
    ∃ headerBytes bodyOffset, readHeaderBytes v.bytes = .ok (headerBytes, bodyOffset) ∧
      (v.Splits P headerBytes bodyOffset ↔ v.Plain) := by
  by_cases hmarked : ∀ line ∈ splitInclusive isLineFeed v.closedLines, containsMarker line = false
  · by_cases hgap : ∀ c ∈ v.gap, isLineFeed c = false
    · refine ⟨_, _, readHeaderBytes_joined v hmarked hgap, ?_, ?_⟩
      · intro hsplits
        obtain ⟨blanks, hends, hblanks⟩ := hsplits.ends
        exact ⟨hmarked, hgap, by rwa [List.append_cancel_left hends]⟩
      · intro hplain
        exact hplain.splits hP
    · refine ⟨_, _, readHeaderBytes_unmarked v hmarked, ?_, ?_⟩
      · intro hsplits
        have hle := hsplits.head_le
        have hshort := markerTail_parted v hgap
        rw [head_eq] at hle
        simp only [List.length_append] at hle
        have : 0 < endWord.length := Nat.zero_lt_succ _
        omega
      · intro hplain
        exact absurd hplain.joined hgap
  · obtain ⟨headerBytes, hread, hshort⟩ := readHeaderBytes_marked v hmarked
    refine ⟨_, _, hread, ?_, ?_⟩
    · intro hsplits
      have hle := hsplits.head_le
      have := closedLines_lt_head v
      omega
    · intro hplain
      exact absurd hplain.unmarked hmarked

/-! ### A file -/

/-- The words of a header up to the `$end` of `$enddefinitions`; `read` are those
before the word that is read. -/
def headerWords (read : List (List UInt8)) (word : List UInt8) :
    List UInt8 → Except Unit (List (List UInt8) × List UInt8)
  | [] => if word = endWord ∧ read.head? = some marker then .ok (read.reverse, []) else .error ()
  | c :: bytes =>
    if isBlank c then
      if word = [] then headerWords read [] bytes
      else if word = endWord ∧ read.head? = some marker then .ok (read.reverse, bytes)
      else headerWords (word :: read) [] bytes
    else headerWords read (word ++ [c]) bytes

/-- A parser of words. -/
def wordParser : VcdParser (List (List UInt8)) (List UInt8) Unit where
  parseHeader := headerWords [] []
  commands := words isBlank

/-- A header that ends with `$enddefinitions $end` is read through it. -/
theorem wordParser_reads {head : List UInt8} (read : List (List UInt8))
    (h : ∀ rest, headerWords [] [] (head ++ rest) = headerWords (marker :: read) endWord rest) :
    wordParser.Reads head := by
  have hread : ∀ c rest, isBlank c = true →
      wordParser.parseHeader (head ++ c :: rest) = .ok ((marker :: read).reverse, rest) := by
    intro c rest hc
    refine (h (c :: rest)).trans ?_
    simp [headerWords, hc, endWord, ascii]
  refine ⟨?_, ?_, fun c bytes hc => words_cons_sep hc bytes⟩
  · intro rest rest' ⟨c, hrest, hc⟩ ⟨d, hrest', hd⟩
    obtain ⟨tail, rfl⟩ := List.head?_eq_some_iff.mp hrest
    obtain ⟨tail', rfl⟩ := List.head?_eq_some_iff.mp hrest'
    rw [hread c tail hc, hread d tail' hd]
    rfl
  · intro rest items left hblank hparse
    cases rest with
    | nil =>
      have hend : wordParser.parseHeader (head ++ []) = .ok ((marker :: read).reverse, []) :=
        h []
      rw [hend] at hparse
      cases hparse
      exact ⟨[], rfl, fun c hc => absurd hc List.not_mem_nil⟩
    | cons c rest =>
      rw [hread c rest (hblank c rfl)] at hparse
      cases hparse
      exact ⟨[c], rfl, fun d hd => by rw [List.mem_singleton.mp hd]; exact hblank c rfl⟩

/-- A token with one blank after it. -/
def asciiToken (text : String) (hne : ascii text ≠ [])
    (h : ((ascii text).all fun c => !isBlank c) = true) : Token where
  word := ascii text
  gap := [32]
  word_ne := hne
  word_solid := fun c hc => by simpa using List.all_eq_true.mp h c hc
  gap_ne := List.cons_ne_nil _ _
  gap_blank := fun c hc => by rw [List.mem_singleton.mp hc]; rfl

/-- `$date now $end $enddefinitions $end`, and a body. -/
def dated (body : String) (h : ∀ c ∈ (ascii body).head?, isBlank c = true) : VcdText where
  lead := []
  commands := [{ keyword := asciiToken "$date" (List.cons_ne_nil _ _) rfl
                 content := [asciiToken "now" (List.cons_ne_nil _ _) rfl]
                 close := asciiToken "$end" (List.cons_ne_nil _ _) rfl
                 keyword_known := by simp [sectionWords, asciiToken]
                 content_open := fun token h => by rw [List.mem_singleton.mp h]; decide
                 close_end := rfl }]
  gap := [32]
  after := ascii body
  lead_blank := fun c hc => absurd hc List.not_mem_nil
  gap_ne := List.cons_ne_nil _ _
  gap_blank := fun c hc => by rw [List.mem_singleton.mp hc]; rfl
  after_parted := h

/-- The body starts on the line after the header. -/
def dated.apart : VcdText := dated "\n#0\n1!\n" fun c hc => by cases hc; rfl

/-- The body starts on the header's line. -/
def dated.joined : VcdText := dated " #0\n1!\n" fun c hc => by cases hc; rfl

theorem splits_iff_apart : wordParser.Reads dated.apart.head ∧
    ∃ headerBytes bodyOffset, readHeaderBytes dated.apart.bytes = .ok (headerBytes, bodyOffset) ∧
      (dated.apart.Splits wordParser headerBytes bodyOffset ↔ dated.apart.Plain) := by
  have hreads : wordParser.Reads dated.apart.head :=
    wordParser_reads (["$end", "now", "$date"].map ascii) fun rest => rfl
  exact ⟨hreads, splits_iff dated.apart hreads⟩

/-- **The timestamp on the header's line is lost.** -/
theorem splits_not_joined : wordParser.Reads dated.joined.head ∧
    readHeaderBytes dated.joined.bytes =
      .ok (ascii "$date now $end $enddefinitions $end #0\n", 39) ∧
    wordParser.parseFile dated.joined.bytes =
      .ok (["$date", "now", "$end", "$enddefinitions"].map ascii, ["#0", "1!"].map ascii) ∧
    wordParser.parseParts (ascii "$date now $end $enddefinitions $end #0\n") dated.joined.bytes 39 =
      .ok (["$date", "now", "$end", "$enddefinitions"].map ascii, ["1!"].map ascii) ∧
    ¬ dated.joined.Splits wordParser (ascii "$date now $end $enddefinitions $end #0\n") 39 := by
  refine ⟨?_, rfl, rfl, rfl, ?_⟩
  · exact wordParser_reads (["$end", "now", "$date"].map ascii) fun rest => rfl
  · intro hsplits
    have hbody := hsplits.body 36 35 rfl (by decide) rfl
    omega

end VcdText

end

end VcdTools.Header
