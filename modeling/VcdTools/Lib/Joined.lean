import Mathlib.Data.String.Basic

/-! # Names joined in one text

Splitting at a separator of two characters finds its occurrences from the left.
In names joined with such a separator these are the ones between two names and
those within a name, so that each name comes back in its pieces. -/
namespace VcdTools.Lib.Joined
open String

variable {a b : Char}

/-! ## Positions between two parts of a text -/

theorem get_between (l r : List Char) (c : Char) :
    Pos.Raw.get (ofList (l ++ c :: r)) ⟨utf8Len l⟩ = c := get_of_valid l (c :: r)

theorem next_between (l r : List Char) (c : Char) :
    Pos.Raw.next (ofList (l ++ c :: r)) ⟨utf8Len l⟩ = ⟨utf8Len (l ++ [c])⟩ := by
  rw [next_of_valid, utf8Len_append l [c]]
  simp

theorem not_atEnd_between (l r : List Char) (c : Char) :
    ¬ Pos.Raw.atEnd (ofList (l ++ c :: r)) ⟨utf8Len l⟩ = true := by
  rw [atEnd_of_valid]
  exact List.cons_ne_nil c r

theorem atEnd_after (l : List Char) : Pos.Raw.atEnd (ofList l) ⟨utf8Len l⟩ = true := by
  have h := atEnd_of_valid l []
  rw [List.append_nil] at h
  exact h.mpr rfl

/-! ## The steps of the search -/

/-- A character of a name. -/
theorem splitOnAux_skip {l m r : List Char} {c : Char} (hc : c ≠ a) (acc : List String) :
    splitOnAux (ofList (l ++ m ++ c :: r)) (ofList [a, b]) ⟨utf8Len l⟩ ⟨utf8Len (l ++ m)⟩ 0 acc =
      splitOnAux (ofList (l ++ m ++ c :: r)) (ofList [a, b]) ⟨utf8Len l⟩
        ⟨utf8Len (l ++ m ++ [c])⟩ 0 acc := by
  have hsep : Pos.Raw.get (ofList [a, b]) 0 = a := get_between [] [b] a
  rw [splitOnAux, if_neg (not_atEnd_between _ _ _), get_between, hsep, if_neg (by simpa using hc)]
  exact congrArg (fun i => splitOnAux _ _ _ i 0 acc) (next_between ..)

/-- The first character of a separator asks for the second. -/
theorem splitOnAux_first (l m r : List Char) (acc : List String) :
    splitOnAux (ofList (l ++ m ++ a :: r)) (ofList [a, b]) ⟨utf8Len l⟩ ⟨utf8Len (l ++ m)⟩ 0 acc =
      splitOnAux (ofList (l ++ m ++ a :: r)) (ofList [a, b]) ⟨utf8Len l⟩
        ⟨utf8Len (l ++ m ++ [a])⟩ ⟨utf8Len [a]⟩ acc := by
  have hsep : Pos.Raw.get (ofList [a, b]) 0 = a := get_between [] [b] a
  have hsepNext : Pos.Raw.next (ofList [a, b]) 0 = ⟨utf8Len [a]⟩ := next_between [] [b] a
  have hsepEnd : ¬ Pos.Raw.atEnd (ofList [a, b]) ⟨utf8Len [a]⟩ = true :=
    not_atEnd_between [a] [] b
  rw [splitOnAux, if_neg (not_atEnd_between _ _ _), get_between, hsep, if_pos (beq_self_eq_true a)]
  simp only [next_between, hsepNext, if_neg hsepEnd]

/-- A separator ends a name. -/
theorem splitOnAux_separator (l m r : List Char) (acc : List String) :
    splitOnAux (ofList (l ++ m ++ a :: b :: r)) (ofList [a, b]) ⟨utf8Len l⟩ ⟨utf8Len (l ++ m)⟩ 0
        acc =
      splitOnAux (ofList (l ++ m ++ a :: b :: r)) (ofList [a, b]) ⟨utf8Len (l ++ m ++ [a, b])⟩
        ⟨utf8Len (l ++ m ++ [a, b])⟩ 0 (ofList m :: acc) := by
  have hsplit : l ++ m ++ a :: b :: r = (l ++ m ++ [a]) ++ b :: r := by simp
  have hnext : Pos.Raw.next (ofList (l ++ m ++ a :: b :: r)) ⟨utf8Len (l ++ m ++ [a])⟩ =
      ⟨utf8Len (l ++ m ++ [a, b])⟩ := by
    rw [hsplit, next_between, List.append_assoc]
    rfl
  have hget : Pos.Raw.get (ofList (l ++ m ++ a :: b :: r)) ⟨utf8Len (l ++ m ++ [a])⟩ = b := by
    rw [hsplit, get_between]
  have hend : ¬ Pos.Raw.atEnd (ofList (l ++ m ++ a :: b :: r))
      ⟨utf8Len (l ++ m ++ [a])⟩ = true := by
    rw [hsplit]
    exact not_atEnd_between _ _ _
  have hsep : Pos.Raw.get (ofList [a, b]) ⟨utf8Len [a]⟩ = b := get_between [a] [] b
  have hsepNext : Pos.Raw.next (ofList [a, b]) ⟨utf8Len [a]⟩ = ⟨utf8Len [a, b]⟩ :=
    next_between [a] [] b
  have hsepEnd : Pos.Raw.atEnd (ofList [a, b]) ⟨utf8Len [a, b]⟩ = true := atEnd_after [a, b]
  have hextract : Pos.Raw.extract (ofList (l ++ m ++ a :: b :: r)) ⟨utf8Len l⟩
      (Pos.Raw.unoffsetBy ⟨utf8Len (l ++ m ++ [a, b])⟩ ⟨utf8Len [a, b]⟩) = ofList m := by
    have hstart : Pos.Raw.unoffsetBy ⟨utf8Len (l ++ m ++ [a, b])⟩ ⟨utf8Len [a, b]⟩ =
        (⟨utf8Len l + utf8Len m⟩ : Pos.Raw) := by
      rw [Pos.Raw.unoffsetBy, utf8Len_append (l ++ m), utf8Len_append l, Nat.add_sub_cancel]
    rw [hstart]
    exact extract_of_valid l m (a :: b :: r)
  rw [splitOnAux_first, splitOnAux, if_neg hend, hget, hsep, if_pos (beq_self_eq_true b)]
  simp only [hnext, hsepNext, if_pos hsepEnd, hextract]

/-- The end of the text ends the last name. -/
theorem splitOnAux_end (l m : List Char) (acc : List String) :
    splitOnAux (ofList (l ++ m)) (ofList [a, b]) ⟨utf8Len l⟩ ⟨utf8Len (l ++ m)⟩ 0 acc =
      (ofList m :: acc).reverse := by
  have hextract : Pos.Raw.extract (ofList (l ++ m)) ⟨utf8Len l⟩ ⟨utf8Len (l ++ m)⟩ = ofList m := by
    have h := extract_of_valid l m []
    rw [List.append_nil] at h
    rw [utf8Len_append]
    exact h
  rw [splitOnAux, if_pos (atEnd_after _), hextract]

/-- The first character of a separator that ends the text, or that another
character follows, is one of the name. -/
theorem splitOnAux_lone {l m r : List Char} (hr : r.head? ≠ some b) (acc : List String) :
    splitOnAux (ofList (l ++ m ++ a :: r)) (ofList [a, b]) ⟨utf8Len l⟩ ⟨utf8Len (l ++ m)⟩ 0 acc =
      splitOnAux (ofList (l ++ m ++ a :: r)) (ofList [a, b]) ⟨utf8Len l⟩
        ⟨utf8Len (l ++ m ++ [a])⟩ 0 acc := by
  have hsep : Pos.Raw.get (ofList [a, b]) ⟨utf8Len [a]⟩ = b := get_between [a] [] b
  have hback : Pos.Raw.unoffsetBy ⟨utf8Len (l ++ m ++ [a])⟩ ⟨utf8Len [a]⟩ =
      (⟨utf8Len (l ++ m)⟩ : Pos.Raw) := by
    rw [Pos.Raw.unoffsetBy, utf8Len_append (l ++ m) [a], Nat.add_sub_cancel]
  rw [splitOnAux_first]
  cases r with
  | nil =>
    have hlast := atEnd_after (l ++ m ++ [a])
    rw [splitOnAux, if_pos hlast, splitOnAux, if_pos hlast]
  | cons c r =>
    have hsplit : l ++ m ++ a :: c :: r = (l ++ m ++ [a]) ++ c :: r := by simp
    have hc : ¬ (c == b) = true := by simpa using hr
    have hmore : ¬ Pos.Raw.atEnd (ofList (l ++ m ++ a :: c :: r))
        ⟨utf8Len (l ++ m ++ [a])⟩ = true := by
      rw [hsplit]
      exact not_atEnd_between _ _ _
    have hget : Pos.Raw.get (ofList (l ++ m ++ a :: c :: r)) ⟨utf8Len (l ++ m ++ [a])⟩ = c := by
      rw [hsplit, get_between]
    rw [splitOnAux, if_neg hmore, hget, hsep, if_neg hc, hback, next_between]

/-! ## The pieces of a text -/

/-- What stands between the occurrences of the separator. -/
def pieces (a b : Char) : List Char → List (List Char)
  | [] => [[]]
  | [c] => [[c]]
  | c :: d :: text =>
    if c = a ∧ d = b then [] :: pieces a b text
    else (pieces a b (d :: text)).modifyHead (c :: ·)

theorem pieces_ne_nil (text : List Char) : pieces a b text ≠ [] := by
  fun_induction pieces a b text with
  | case1 => exact List.cons_ne_nil _ _
  | case2 => exact List.cons_ne_nil _ _
  | case3 => exact List.cons_ne_nil _ _
  | case4 c d text _ ih =>
    obtain ⟨piece, rest, h⟩ := List.exists_cons_of_ne_nil ih
    rw [h]
    exact List.cons_ne_nil _ _

/-- A character that opens no separator belongs to the first piece. -/
theorem splitOnAux_char {l m r : List Char} {c : Char} (h : ¬ (c = a ∧ r.head? = some b))
    (acc : List String) :
    splitOnAux (ofList (l ++ m ++ c :: r)) (ofList [a, b]) ⟨utf8Len l⟩ ⟨utf8Len (l ++ m)⟩ 0 acc =
      splitOnAux (ofList (l ++ (m ++ [c]) ++ r)) (ofList [a, b]) ⟨utf8Len l⟩
        ⟨utf8Len (l ++ (m ++ [c]))⟩ 0 acc := by
  have hmove : l ++ (m ++ [c]) ++ r = l ++ m ++ c :: r := by simp
  rw [hmove, ← List.append_assoc l m [c]]
  by_cases hc : c = a
  · subst hc
    exact splitOnAux_lone (fun hr => h ⟨rfl, hr⟩) acc
  · exact splitOnAux_skip hc acc

theorem splitOnAux_pieces (text l m : List Char) (acc : List String) :
    splitOnAux (ofList (l ++ m ++ text)) (ofList [a, b]) ⟨utf8Len l⟩ ⟨utf8Len (l ++ m)⟩ 0 acc =
      acc.reverse ++ ((pieces a b text).modifyHead (m ++ ·)).map ofList := by
  fun_induction pieces a b text generalizing l m acc with
  | case1 =>
    rw [List.append_nil, splitOnAux_end, List.reverse_cons, List.modifyHead_cons, List.append_nil]
    rfl
  | case2 c =>
    rw [splitOnAux_char (fun h => by cases h.2), List.append_nil, splitOnAux_end, List.reverse_cons]
    rfl
  | case3 c d text hsep ih =>
    obtain ⟨rfl, rfl⟩ := hsep
    have hrest : l ++ m ++ [c, d] ++ [] ++ text = l ++ m ++ c :: d :: text := by simp
    have hmore := ih (l ++ m ++ [c, d]) [] (ofList m :: acc)
    rw [hrest, List.append_nil] at hmore
    obtain ⟨piece, rest, hpieces⟩ := List.exists_cons_of_ne_nil (pieces_ne_nil (a := c) (b := d) text)
    rw [splitOnAux_separator, hmore, hpieces, List.reverse_cons, List.append_assoc,
      List.modifyHead_cons, List.modifyHead_cons, List.append_nil]
    rfl
  | case4 c d text hsep ih =>
    have hopen : ¬ (c = a ∧ (d :: text).head? = some b) :=
      fun h => hsep ⟨h.1, Option.some.inj h.2⟩
    obtain ⟨piece, rest, hpieces⟩ := List.exists_cons_of_ne_nil (pieces_ne_nil (a := a) (b := b) (d :: text))
    rw [splitOnAux_char hopen, ih, hpieces, List.modifyHead_cons, List.modifyHead_cons,
      List.modifyHead_cons, List.append_assoc]
    rfl

/-- **Splitting gives the pieces.** -/
theorem splitOn_eq_pieces (text : List Char) :
    (ofList text).splitOn (ofList [a, b]) = (pieces a b text).map ofList := by
  have hsep : ¬ (ofList [a, b] == "") = true := by
    rw [beq_iff_eq, ← toList_inj, toList_ofList]
    exact List.cons_ne_nil a [b]
  have h := splitOnAux_pieces (a := a) (b := b) text [] [] []
  obtain ⟨piece, rest, hpieces⟩ := List.exists_cons_of_ne_nil (pieces_ne_nil (a := a) (b := b) text)
  rw [hpieces] at h ⊢
  rw [splitOn, if_neg hsep]
  exact h

/-- **Joining undoes it.** -/
theorem intercalate_pieces (text : List Char) : [a, b].intercalate (pieces a b text) = text := by
  fun_induction pieces a b text with
  | case1 => rfl
  | case2 c => exact List.intercalate_singleton
  | case3 c d text hsep ih =>
    obtain ⟨rfl, rfl⟩ := hsep
    obtain ⟨piece, rest, hpieces⟩ := List.exists_cons_of_ne_nil (pieces_ne_nil (a := c) (b := d) text)
    rw [hpieces] at ih ⊢
    rw [List.intercalate_cons_cons, ih]
    rfl
  | case4 c d text hsep ih =>
    obtain ⟨piece, rest, hpieces⟩ := List.exists_cons_of_ne_nil (pieces_ne_nil (a := a) (b := b) (d :: text))
    rw [hpieces] at ih ⊢
    rw [List.modifyHead_cons]
    cases rest with
    | nil =>
      rw [List.intercalate_singleton] at ih ⊢
      rw [ih]
    | cons next rest =>
      rw [List.intercalate_cons_cons] at ih ⊢
      rw [List.cons_append, List.cons_append, ih]

/-- The first of several pieces is shorter than the text. -/
theorem pieces_first {text piece next : List Char} {rest : List (List Char)}
    (h : pieces a b text = piece :: next :: rest) : ∃ more, text = piece ++ a :: b :: more := by
  have htext := intercalate_pieces (a := a) (b := b) text
  rw [h, List.intercalate_cons_cons] at htext
  refine ⟨[a, b].intercalate (next :: rest), ?_⟩
  rw [← htext, List.append_assoc]
  rfl

/-- A separator behind a text ends its last piece. -/
theorem pieces_append_separator (hab : a ≠ b) (text rest : List Char) :
    pieces a b (text ++ a :: b :: rest) = pieces a b text ++ pieces a b rest := by
  fun_induction pieces a b text with
  | case1 =>
    rw [List.nil_append, pieces, if_pos ⟨rfl, rfl⟩]
    rfl
  | case2 c =>
    have hopen : ¬ (c = a ∧ a = b) := fun h => hab h.2
    rw [List.singleton_append, pieces, if_neg hopen, pieces, if_pos ⟨rfl, rfl⟩]
    rfl
  | case3 c d text hsep ih =>
    rw [List.cons_append, List.cons_append, pieces, if_pos hsep, ih]
    rfl
  | case4 c d text hsep ih =>
    obtain ⟨piece, more, hpieces⟩ := List.exists_cons_of_ne_nil (pieces_ne_nil (a := a) (b := b) (d :: text))
    rw [List.cons_append, List.cons_append, pieces, if_neg hsep, ← List.cons_append, ih, hpieces]
    rfl

/-- **Joined names split into the pieces of each.** -/
theorem pieces_intercalate (hab : a ≠ b) {names : List (List Char)} (hne : names ≠ []) :
    pieces a b ([a, b].intercalate names) = names.flatMap (pieces a b) := by
  induction names with
  | nil => exact absurd rfl hne
  | cons name names ih =>
    cases names with
    | nil => rw [List.intercalate_singleton, List.flatMap_singleton]
    | cons next names =>
      have htext : [a, b].intercalate (name :: next :: names) =
          name ++ a :: b :: [a, b].intercalate (next :: names) := by
        rw [List.intercalate_cons_cons, List.append_assoc]
        rfl
      rw [htext, pieces_append_separator hab, ih (List.cons_ne_nil _ _)]
      rfl

/-- A text is one piece exactly when the separator is not in it. -/
theorem pieces_eq_singleton_iff (hab : a ≠ b) {text : List Char} :
    pieces a b text = [text] ↔ ¬ [a, b] <:+: text := by
  constructor
  · rintro h ⟨before, rest, rfl⟩
    have hpieces := pieces_append_separator hab before rest
    have hbefore := List.length_pos_iff.mpr (pieces_ne_nil (a := a) (b := b) before)
    have hrest := List.length_pos_iff.mpr (pieces_ne_nil (a := a) (b := b) rest)
    rw [List.append_assoc] at h
    have hlength := congrArg List.length (hpieces.symm.trans h)
    rw [List.length_append, List.length_singleton] at hlength
    omega
  · intro h
    obtain ⟨first, rest, hpieces⟩ :=
      List.exists_cons_of_ne_nil (pieces_ne_nil (a := a) (b := b) text)
    cases rest with
    | nil =>
      have htext := intercalate_pieces (a := a) (b := b) text
      rw [hpieces, List.intercalate_singleton] at htext
      rw [hpieces, htext]
    | cons next rest =>
      obtain ⟨more, hmore⟩ := pieces_first hpieces
      exact absurd ⟨first, more, by rw [hmore, List.append_assoc]; rfl⟩ h

/-- A name without the first character of the separator is one piece. -/
theorem pieces_of_not_mem {text : List Char} (h : a ∉ text) : pieces a b text = [text] := by
  fun_induction pieces a b text with
  | case1 => rfl
  | case2 => rfl
  | case3 c d text hsep => exact absurd (hsep.1 ▸ List.mem_cons_self) h
  | case4 c d text hsep ih => rw [ih fun hmem => h (List.mem_cons_of_mem _ hmem)]; rfl

/-- Names that are one piece each come back. -/
theorem splitOn_intercalate (hab : a ≠ b) {names : List (List Char)} (hne : names ≠ [])
    (hnames : ∀ n ∈ names, a ∉ n) :
    (ofList ([a, b].intercalate names)).splitOn (ofList [a, b]) = names.map ofList := by
  have hpieces : names.flatMap (pieces a b) = names := by
    calc
      _ = names.flatMap fun name => [name] :=
        List.flatMap_congr fun name hname => pieces_of_not_mem (hnames name hname)
      _ = names := List.flatMap_singleton' names
  rw [splitOn_eq_pieces, pieces_intercalate hab hne, hpieces]

theorem splitOnAux_ne_nil (s sep : String) (start i j : Pos.Raw) (acc : List String) :
    splitOnAux s sep start i j acc ≠ [] := by
  fun_induction splitOnAux s sep start i j acc with
  | case1 => simp
  | case2 _ _ _ _ _ _ _ _ _ ih => exact ih
  | case3 _ _ _ _ _ _ _ _ _ ih => exact ih
  | case4 _ _ _ _ _ _ ih => exact ih

/-- Splitting a text gives at least one name. -/
theorem splitOn_ne_nil (s sep : String) : s.splitOn sep ≠ [] := by
  unfold splitOn
  split
  · exact List.cons_ne_nil s []
  · exact splitOnAux_ne_nil s sep 0 0 0 []

end VcdTools.Lib.Joined
