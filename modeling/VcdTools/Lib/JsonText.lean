import VcdTools.Lib.Decimal
import VcdTools.Lib.Json
import VcdTools.Lib.Utf8

/-! # JSON text reads in one way

The text of a value tells where the value ends and which value it is: two
values whose texts begin the same text are the same, as long as no digit comes
behind a number. The first character tells the kind of the value, a string ends
at its first bare quote, and an escape tells its character. -/
namespace VcdTools.Lib.Json

/-! ## Strings -/

/-- The character at the front of the inside of a string, and what follows it;
`none` at the closing quote. -/
def readChar : List Char → Option (Char × List Char)
  | [] => none
  | c :: rest =>
    if c = quote then none
    else if c = backslash then
      match rest with
      | 'u' :: '0' :: '0' :: high :: low :: rest =>
        some (.ofNat (16 * (high.toNat - 48) +
          if low.isDigit then low.toNat - 48 else low.toNat - 87), rest)
      | 'b' :: rest => some (.ofNat 8, rest)
      | 't' :: rest => some (.ofNat 9, rest)
      | 'n' :: rest => some (.ofNat 10, rest)
      | 'f' :: rest => some (.ofNat 12, rest)
      | 'r' :: rest => some (.ofNat 13, rest)
      | c :: rest => some (c, rest)
      | [] => none
    else some (c, rest)

theorem readChar_low {n : Nat} (h : n < 32) (rest : List Char) :
    readChar (escapeChar (.ofNat n) ++ rest) = some (.ofNat n, rest) := by
  interval_cases n <;> rfl

theorem readChar_escapeChar (c : Char) (rest : List Char) :
    readChar (escapeChar c ++ rest) = some (c, rest) := by
  by_cases hlow : c.toNat < 32
  · have h := readChar_low hlow rest
    rwa [Char.ofNat_toNat] at h
  · by_cases hspecial : c = quote ∨ c = backslash
    · rcases hspecial with rfl | rfl <;> rfl
    · have hshort : shortEscape c = none := by
        unfold shortEscape
        split <;> first | omega | rfl
      have hplain : escapeChar c = [c] := by simp [escapeChar, hspecial, hshort, hlow]
      rw [not_or] at hspecial
      simp [hplain, readChar, hspecial.1, hspecial.2]

theorem readChar_quote (rest : List Char) : readChar (quote :: rest) = none := rfl

/-- Equal texts of strings are those of equal strings, with equal rests. -/
theorem escape_unique : ∀ {text text' rest rest' : List Char},
    escape text ++ quote :: rest = escape text' ++ quote :: rest' → text = text' ∧ rest = rest'
  | [], [], _, _, h => ⟨rfl, List.tail_eq_of_cons_eq h⟩
  | [], c :: text', rest, rest', h => by
    have hread := congrArg readChar h
    rw [escape, List.flatMap_nil, List.nil_append, escape, List.flatMap_cons, List.append_assoc,
      readChar_quote, readChar_escapeChar] at hread
    cases hread
  | c :: text, [], rest, rest', h => by
    have hread := congrArg readChar h
    rw [escape, List.flatMap_cons, List.append_assoc, readChar_escapeChar, escape, List.flatMap_nil,
      List.nil_append, readChar_quote] at hread
    cases hread
  | c :: text, c' :: text', rest, rest', h => by
    have hread := congrArg readChar h
    rw [escape, List.flatMap_cons, List.append_assoc, readChar_escapeChar, escape,
      List.flatMap_cons, List.append_assoc, readChar_escapeChar] at hread
    obtain ⟨rfl, hrest⟩ := Prod.mk.inj (Option.some.inj hread)
    obtain ⟨rfl, rfl⟩ := escape_unique hrest
    exact ⟨rfl, rfl⟩

theorem string_unique {s s' : String} {rest rest' : List Char}
    (h : string s ++ rest = string s' ++ rest') : s = s' ∧ rest = rest' := by
  simp only [string, List.cons_append, List.append_assoc, List.nil_append] at h
  obtain ⟨htext, hrest⟩ := escape_unique (List.tail_eq_of_cons_eq h)
  exact ⟨String.toList_inj.mp htext, hrest⟩

/-! ## Numbers -/

/-- No digit comes next. -/
def Stops (rest : List Char) : Prop := ∀ c ∈ rest.head?, c.isDigit = false

theorem stops_nil : Stops [] := by simp [Stops]

theorem stops_cons {c : Char} {rest : List Char} : Stops (c :: rest) ↔ c.isDigit = false := by
  simp [Stops]

theorem takeWhile_decimal (n : Nat) {rest : List Char} (h : Stops rest) :
    (decimal n ++ rest).takeWhile Char.isDigit = decimal n := by
  rw [List.takeWhile_append_of_pos (decimal_isDigit n)]
  cases rest with
  | nil => simp
  | cons c rest => simp [stops_cons.mp h]

theorem decimal_unique {n n' : Nat} {rest rest' : List Char}
    (h : decimal n ++ rest = decimal n' ++ rest') (hrest : Stops rest) (hrest' : Stops rest') :
    n = n' ∧ rest = rest' := by
  have htext : decimal n = decimal n' := by
    rw [← takeWhile_decimal n hrest, h, takeWhile_decimal n' hrest']
  have hn : n = n' := Decimal.repr_injective (String.toList_inj.mp (by
    rw [Nat.toList_repr, Nat.toList_repr]
    exact htext))
  rw [htext] at h
  exact ⟨hn, List.append_cancel_left h⟩

/-! ## The first character -/

/-- The kinds of values whose texts begin differently. -/
inductive Kind
  | null
  | bool (value : Bool)
  | num
  | str
  | arr
  | obj

def kind : Json → Kind
  | .null => .null
  | .bool value => .bool value
  | .num _ => .num
  | .str _ => .str
  | .arr _ => .arr
  | .obj _ => .obj

/-- The kind of the value that a character begins. -/
def begins (c : Char) : Option Kind :=
  if c.isDigit then some .num
  else if c = quote then some .str
  else match c with
    | 'n' => some .null
    | 't' => some (.bool true)
    | 'f' => some (.bool false)
    | '[' => some .arr
    | '\x7b' => some .obj
    | _ => none

theorem head_render (j : Json) : ∃ c rest, j.render = c :: rest ∧ begins c = some j.kind := by
  match j with
  | .null | .bool true | .bool false | .str _ | .arr [] | .arr (_ :: _) | .obj [] | .obj (_ :: _) =>
    exact ⟨_, _, rfl, rfl⟩
  | .num n =>
    cases hdigits : decimal n with
    | nil =>
      have hpos := digits_pos n
      simp [digits, hdigits] at hpos
    | cons c rest =>
      have hc := decimal_isDigit n c (hdigits ▸ List.mem_cons_self)
      exact ⟨c, rest, hdigits, if_pos hc⟩

theorem kind_unique {j j' : Json} {rest rest' : List Char}
    (h : j.render ++ rest = j'.render ++ rest') : j.kind = j'.kind := by
  obtain ⟨c, text, hj, hc⟩ := head_render j
  obtain ⟨c', text', hj', hc'⟩ := head_render j'
  rw [hj, hj', List.cons_append, List.cons_append] at h
  rw [List.head_eq_of_cons_eq h, hc'] at hc
  exact (Option.some.inj hc).symm

/-- A character that begins no value is not the first one of a value. -/
theorem render_ne {j : Json} {c : Char} {rest rest' : List Char} (hc : begins c = none) :
    c :: rest' ≠ j.render ++ rest := by
  obtain ⟨c', text, hj, hc'⟩ := head_render j
  rw [hj, List.cons_append]
  intro h
  rw [List.head_eq_of_cons_eq h, hc'] at hc
  cases hc

/-! ## Values -/

theorem stops_elems (es : List Json) (rest : List Char) :
    Stops (renderElems es ++ ']' :: rest) := by
  cases es <;> exact stops_cons.mpr rfl

theorem stops_fields (fs : List (String × Json)) (rest : List Char) :
    Stops (renderFields fs ++ '\x7d' :: rest) := by
  cases fs <;> exact stops_cons.mpr rfl

mutual

/-- **A text begins with the text of one value only.** -/
theorem render_unique : ∀ (j j' : Json) {rest rest' : List Char},
    j.render ++ rest = j'.render ++ rest' → Stops rest → Stops rest' → j = j' ∧ rest = rest'
  | .null, j', rest, rest', h, _, _ => by
    cases j' with
    | null => exact ⟨rfl, List.append_cancel_left h⟩
    | _ => cases kind_unique h
  | .bool value, j', rest, rest', h, _, _ => by
    cases j' with
    | bool value' =>
      cases kind_unique h
      exact ⟨rfl, List.append_cancel_left h⟩
    | _ => cases kind_unique h
  | .num n, j', rest, rest', h, hrest, hrest' => by
    cases j' with
    | num n' =>
      obtain ⟨rfl, hrests⟩ := decimal_unique h hrest hrest'
      exact ⟨rfl, hrests⟩
    | _ => cases kind_unique h
  | .str s, j', rest, rest', h, _, _ => by
    cases j' with
    | str s' =>
      obtain ⟨rfl, hrests⟩ := string_unique h
      exact ⟨rfl, hrests⟩
    | _ => cases kind_unique h
  | .arr es, j', rest, rest', h, _, _ => by
    cases j' with
    | arr es' =>
      cases es with
      | nil =>
        cases es' with
        | nil => exact ⟨rfl, List.append_cancel_left h⟩
        | cons e' es' =>
          simp only [render, List.cons_append, List.append_assoc] at h
          exact absurd (List.tail_eq_of_cons_eq h) (render_ne rfl)
      | cons e es =>
        cases es' with
        | nil =>
          simp only [render, List.cons_append, List.append_assoc] at h
          exact absurd (List.tail_eq_of_cons_eq h).symm (render_ne rfl)
        | cons e' es' =>
          simp only [render, List.cons_append, List.append_assoc, List.nil_append] at h
          obtain ⟨rfl, hes⟩ := render_unique e e' (List.tail_eq_of_cons_eq h)
            (stops_elems es rest) (stops_elems es' rest')
          obtain ⟨rfl, hrests⟩ := renderElems_unique es es' hes
          exact ⟨rfl, hrests⟩
    | _ => cases kind_unique h
  | .obj fs, j', rest, rest', h, _, _ => by
    cases j' with
    | obj fs' =>
      match fs, fs' with
      | [], [] => exact ⟨rfl, List.append_cancel_left h⟩
      | [], (k', v') :: fs' => simp [render, string, quote] at h
      | (k, v) :: fs, [] => simp [render, string, quote] at h
      | (k, v) :: fs, (k', v') :: fs' =>
        simp only [render, List.cons_append, List.append_assoc, List.nil_append] at h
        obtain ⟨rfl, hv⟩ := string_unique (List.tail_eq_of_cons_eq h)
        obtain ⟨rfl, hfs⟩ := render_unique v v' (List.tail_eq_of_cons_eq hv)
          (stops_fields fs rest) (stops_fields fs' rest')
        obtain ⟨rfl, hrests⟩ := renderFields_unique fs fs' hfs
        exact ⟨rfl, hrests⟩
    | _ => cases kind_unique h

theorem renderElems_unique : ∀ (es es' : List Json) {rest rest' : List Char},
    renderElems es ++ ']' :: rest = renderElems es' ++ ']' :: rest' → es = es' ∧ rest = rest'
  | [], [], _, _, h => ⟨rfl, List.tail_eq_of_cons_eq h⟩
  | [], _ :: _, _, _, h => by simp [renderElems] at h
  | _ :: _, [], _, _, h => by simp [renderElems] at h
  | e :: es, e' :: es', rest, rest', h => by
    simp only [renderElems, List.cons_append, List.append_assoc] at h
    obtain ⟨rfl, hes⟩ := render_unique e e' (List.tail_eq_of_cons_eq h)
      (stops_elems es rest) (stops_elems es' rest')
    obtain ⟨rfl, hrests⟩ := renderElems_unique es es' hes
    exact ⟨rfl, hrests⟩

theorem renderFields_unique : ∀ (fs fs' : List (String × Json)) {rest rest' : List Char},
    renderFields fs ++ '\x7d' :: rest = renderFields fs' ++ '\x7d' :: rest' →
      fs = fs' ∧ rest = rest'
  | [], [], _, _, h => ⟨rfl, List.tail_eq_of_cons_eq h⟩
  | [], _ :: _, _, _, h => by simp [renderFields] at h
  | _ :: _, [], _, _, h => by simp [renderFields] at h
  | (k, v) :: fs, (k', v') :: fs', rest, rest', h => by
    simp only [renderFields, List.cons_append, List.append_assoc] at h
    obtain ⟨rfl, hv⟩ := string_unique (List.tail_eq_of_cons_eq h)
    obtain ⟨rfl, hfs⟩ := render_unique v v' (List.tail_eq_of_cons_eq hv)
      (stops_fields fs rest) (stops_fields fs' rest')
    obtain ⟨rfl, hrests⟩ := renderFields_unique fs fs' hfs
    exact ⟨rfl, hrests⟩

end

/-- **Different values have different texts.** -/
theorem render_injective {j j' : Json} (h : j.render = j'.render) : j = j' :=
  (render_unique j j' (congrArg (· ++ []) h) stops_nil stops_nil).1

/-- Different values are different bytes. -/
theorem encodeUtf8_render_injective {j j' : Json}
    (h : encodeUtf8 j.render = encodeUtf8 j'.render) : j = j' := by
  have htext := congrArg fromUtf8Lossy h
  rw [fromUtf8Lossy_encodeUtf8, fromUtf8Lossy_encodeUtf8] at htext
  exact render_injective htext

end VcdTools.Lib.Json
