import Mathlib.Algebra.Order.BigOperators.Group.List
import Mathlib.Algebra.Order.Ring.Nat
import Mathlib.Data.List.Basic
import Mathlib.Tactic.IntervalCases

/-! # Compact JSON text and its size

JSON values, the text a compact printer gives them, and bounds on the number
of UTF-8 bytes of that text: of a string against the string's own length, of a
decimal against its digits, of an object against its fields. -/
namespace VcdTools.Lib

inductive Json
  | null
  | bool (value : Bool)
  | num (value : Nat)
  | str (value : String)
  | arr (elems : List Json)
  | obj (fields : List (String × Json))

namespace Json

/-- The UTF-8 length of a text. -/
def bytes (text : List Char) : Nat := (text.map Char.utf8Size).sum

def strBytes (s : String) : Nat := bytes s.toList

def quote : Char := Char.ofNat 34

def backslash : Char := Char.ofNat 92

/-- A control character below `0x20` with a short escape. -/
def shortEscape (c : Char) : Option Char :=
  match c.toNat with
  | 8 => some 'b'
  | 9 => some 't'
  | 10 => some 'n'
  | 12 => some 'f'
  | 13 => some 'r'
  | _ => none

def escapeChar (c : Char) : List Char :=
  if c = quote ∨ c = backslash then [backslash, c]
  else match shortEscape c with
    | some e => [backslash, e]
    | none =>
      if c.toNat < 32 then
        [backslash, 'u', '0', '0', Nat.digitChar (c.toNat / 16), Nat.digitChar (c.toNat % 16)]
      else [c]

def escape (text : List Char) : List Char := text.flatMap escapeChar

def string (s : String) : List Char := quote :: (escape s.toList ++ [quote])

def decimal (n : Nat) : List Char := Nat.toDigits 10 n

mutual
/-- The text of a value, without any white space. -/
def render : Json → List Char
  | .null => ['n', 'u', 'l', 'l']
  | .bool true => ['t', 'r', 'u', 'e']
  | .bool false => ['f', 'a', 'l', 's', 'e']
  | .num n => decimal n
  | .str s => string s
  | .arr [] => ['[', ']']
  | .arr (e :: es) => '[' :: (render e ++ (renderElems es ++ [']']))
  | .obj [] => ['\x7b', '\x7d']
  | .obj ((k, v) :: fs) => '\x7b' :: (string k ++ ':' :: (render v ++ (renderFields fs ++ ['\x7d'])))

def renderElems : List Json → List Char
  | [] => []
  | e :: es => ',' :: (render e ++ renderElems es)

def renderFields : List (String × Json) → List Char
  | [] => []
  | (k, v) :: fs => ',' :: (string k ++ ':' :: (render v ++ renderFields fs))
end

/-- The size of a value's text. -/
def size (j : Json) : Nat := bytes j.render

/-- A printer hands the text to its writer in pieces of its own choice. -/
structure Serializer where
  pieces : Json → List (List Char)
  flatten_pieces : ∀ j, (pieces j).flatten = j.render

/-- The printer that writes the text in one piece. -/
def Serializer.whole : Serializer := ⟨fun j => [j.render], fun j => by simp⟩

/-- Writing the pieces until one is refused. -/
def writeAll {ω : Type} (write : ω → List Char → ω × Bool) : ω → List (List Char) → ω × Bool
  | w, [] => (w, true)
  | w, piece :: pieces =>
    match write w piece with
    | (w', true) => writeAll write w' pieces
    | (w', false) => (w', false)

/-! ## Objects built from a sorted map -/

def keyLt (a b : String) : Bool := decide (a.toList < b.toList)

/-- Insertion into a map sorted by key; a key already there gets the new value. -/
def insert (key : String) (value : Json) : List (String × Json) → List (String × Json)
  | [] => [(key, value)]
  | (k, v) :: fs =>
    if keyLt key k then (key, value) :: (k, v) :: fs
    else if keyLt k key then (k, v) :: insert key value fs
    else (key, value) :: fs

def object (fields : List (String × Json)) : Json :=
  .obj (fields.foldl (fun map (k, v) => insert k v map) [])

example (a b c : Json) : object [("kind", a), ("limit", b), ("actual", c)] =
    .obj [("actual", c), ("kind", a), ("limit", b)] := rfl

/-! ## Sizes -/

@[simp] theorem bytes_nil : bytes [] = 0 := rfl

@[simp] theorem bytes_cons (c : Char) (cs : List Char) :
    bytes (c :: cs) = c.utf8Size + bytes cs := rfl

@[simp] theorem bytes_append (cs ds : List Char) : bytes (cs ++ ds) = bytes cs + bytes ds := by
  simp [bytes]

theorem digitChar_utf8Size {n : Nat} (h : n < 16) : (Nat.digitChar n).utf8Size = 1 := by
  have table : ∀ n < 16, (Nat.digitChar n).utf8Size = 1 := by decide
  exact table n h

/-- An escape is at most six times as long as what it stands for. -/
theorem escapeChar_le (c : Char) : bytes (escapeChar c) ≤ 6 * c.utf8Size := by
  have hpos := c.utf8Size_pos
  have hback : backslash.utf8Size = 1 := by decide
  unfold escapeChar
  split
  · simp only [bytes_cons, bytes_nil, hback]
    omega
  · cases he : shortEscape c with
    | some e =>
      have hsize : e.utf8Size = 1 := by
        unfold shortEscape at he
        split at he <;> cases he <;> decide
      simp only [bytes_cons, bytes_nil, hback, hsize]
      omega
    | none =>
      simp only
      split
      · have hhigh := digitChar_utf8Size (n := c.toNat / 16) (by omega)
        have hlow := digitChar_utf8Size (n := c.toNat % 16) (by omega)
        have hu : Char.utf8Size 'u' = 1 := by decide
        have hz : Char.utf8Size '0' = 1 := by decide
        simp only [bytes_cons, bytes_nil, hback, hhigh, hlow, hu, hz]
        omega
      · simp only [bytes_cons, bytes_nil]
        omega

theorem escape_le (text : List Char) : bytes (escape text) ≤ 6 * bytes text := by
  induction text with
  | nil => exact Nat.le_refl 0
  | cons c cs ih =>
    have hc := escapeChar_le c
    simp only [escape, List.flatMap_cons, bytes_append, bytes_cons] at ih ⊢
    omega

theorem string_bytes (s : String) : bytes (string s) = 2 + bytes (escape s.toList) := by
  have hquote : quote.utf8Size = 1 := by decide
  simp only [string, bytes_cons, bytes_append, bytes_nil, hquote]
  omega

theorem string_le (s : String) : bytes (string s) ≤ 2 + 6 * strBytes s := by
  have := escape_le s.toList
  rw [string_bytes, strBytes]
  omega

theorem digit_plain {c : Char} (h : c.isDigit = true) : escapeChar c = [c] ∧ c.utf8Size = 1 := by
  have hlo : 48 ≤ c.toNat := by
    simp only [Char.isDigit, Bool.and_eq_true, decide_eq_true_eq] at h
    exact h.1
  have hhi : c.toNat ≤ 57 := by
    simp only [Char.isDigit, Bool.and_eq_true, decide_eq_true_eq] at h
    exact h.2
  have table : ∀ n, 48 ≤ n → n ≤ 57 → escapeChar (Char.ofNat n) = [Char.ofNat n] ∧
      (Char.ofNat n).utf8Size = 1 := by
    intro n hl hu
    interval_cases n <;> decide
  have hc := table c.toNat hlo hhi
  rwa [Char.ofNat_toNat] at hc

/-- The digits of a number need no escape. -/
theorem escape_digits {text : List Char} (h : ∀ c ∈ text, c.isDigit = true) :
    escape text = text ∧ bytes text = text.length := by
  induction text with
  | nil => exact ⟨rfl, rfl⟩
  | cons c cs ih =>
    obtain ⟨he, hs⟩ := digit_plain (h c List.mem_cons_self)
    obtain ⟨ihe, ihs⟩ := ih fun d hd => h d (List.mem_cons_of_mem _ hd)
    constructor
    · rw [escape, List.flatMap_cons, he]
      simpa [escape] using ihe
    · rw [bytes_cons, hs, ihs, List.length_cons]
      omega

/-- The number of decimal digits. -/
def digits (n : Nat) : Nat := (decimal n).length

theorem digits_le_iff {n k : Nat} (h : 0 < k) : digits n ≤ k ↔ n < 10 ^ k :=
  Nat.length_toDigits_le_iff (by decide) h

theorem digits_zero : digits 0 = 1 := by decide

theorem digits_pos (n : Nat) : 0 < digits n := Nat.length_toDigits_pos

theorem digits_mono {n m : Nat} (h : n ≤ m) : digits n ≤ digits m := by
  rw [digits_le_iff (digits_pos m)]
  exact Nat.lt_of_le_of_lt h ((digits_le_iff (digits_pos m)).mp (Nat.le_refl _))

/-- A number can count its own digits: their number grows more slowly. -/
theorem exists_digits_fixed {k m : Nat} (h : digits (k + m) ≤ m) : ∃ d ≤ m, digits (k + d) = d := by
  induction m with
  | zero => exact absurd h (Nat.not_le.mpr (digits_pos k))
  | succ m ih =>
    by_cases hm : digits (k + m) ≤ m
    · obtain ⟨d, hd, hfixed⟩ := ih hm
      exact ⟨d, Nat.le_succ_of_le hd, hfixed⟩
    · have hmono := digits_mono (n := k + m) (m := k + (m + 1)) (by omega)
      exact ⟨m + 1, Nat.le_refl _, by omega⟩

theorem digits_add_self_le (k : Nat) : digits (k + (k + 1)) ≤ k + 1 := by
  have hlt : k < 10 ^ k := Nat.lt_pow_self (by decide)
  rw [digits_le_iff (by omega), Nat.pow_succ]
  omega

theorem decimal_isDigit (n : Nat) : ∀ c ∈ decimal n, c.isDigit = true := fun _ hc =>
  Nat.isDigit_of_mem_toDigits (by decide) (by decide) hc

@[simp] theorem decimal_bytes (n : Nat) : bytes (decimal n) = digits n :=
  (escape_digits (decimal_isDigit n)).2

theorem repr_bytes (n : Nat) : strBytes (Nat.repr n) = digits n := by
  rw [strBytes, Nat.toList_repr]
  exact decimal_bytes n

@[simp] theorem string_repr_bytes (n : Nat) : bytes (string (Nat.repr n)) = 2 + digits n := by
  have hd := escape_digits (decimal_isDigit n)
  rw [string_bytes, Nat.toList_repr]
  show 2 + bytes (escape (decimal n)) = 2 + digits n
  rw [hd.1, decimal_bytes]

@[simp] theorem size_num (n : Nat) : size (.num n) = digits n := by simp [size, render]

@[simp] theorem size_str (s : String) : size (.str s) = bytes (string s) := by simp [size, render]

theorem size_false : size (.bool false) = 5 := by decide

theorem size_bool_le (b : Bool) : size (.bool b) ≤ 5 := by cases b <;> decide

/-- The size of an object is the sum over its fields, up to its punctuation. -/
theorem size_obj_cons (k : String) (v : Json) (fs : List (String × Json)) :
    size (.obj ((k, v) :: fs)) = 3 + bytes (string k) + size v + bytes (renderFields fs) := by
  have hopen : Char.utf8Size '\x7b' = 1 := by decide
  have hclose : Char.utf8Size '\x7d' = 1 := by decide
  have hcolon : Char.utf8Size ':' = 1 := by decide
  simp only [size, render, bytes_cons, bytes_append, bytes_nil, hopen, hclose, hcolon]
  omega

theorem renderFields_nil : bytes (renderFields []) = 0 := by simp [renderFields]

theorem renderFields_cons (k : String) (v : Json) (fs : List (String × Json)) :
    bytes (renderFields ((k, v) :: fs)) =
      2 + bytes (string k) + size v + bytes (renderFields fs) := by
  have hcomma : Char.utf8Size ',' = 1 := by decide
  have hcolon : Char.utf8Size ':' = 1 := by decide
  simp only [size, renderFields, bytes_cons, bytes_append, hcomma, hcolon]
  omega

theorem bytes_renderElems (es : List Json) :
    bytes (renderElems es) = (es.map fun e => size e + 1).sum := by
  have hcomma : Char.utf8Size ',' = 1 := by decide
  induction es with
  | nil => rfl
  | cons e es ih =>
    rw [renderElems, bytes_cons, bytes_append, ih, hcomma, List.map_cons, List.sum_cons, size]
    omega

/-- The size of an array is the sum over its elements, each with its comma or bracket. -/
theorem size_arr {es : List Json} (h : es ≠ []) :
    size (.arr es) = 1 + (es.map fun e => size e + 1).sum := by
  have hopen : Char.utf8Size '[' = 1 := by decide
  have hclose : Char.utf8Size ']' = 1 := by decide
  obtain ⟨e, es, rfl⟩ := List.exists_cons_of_ne_nil h
  have hrest := bytes_renderElems es
  simp only [size, render, bytes_cons, bytes_append, bytes_nil, hopen, hclose, hrest,
    List.map_cons, List.sum_cons]
  omega

theorem size_arr_one (v : Json) : size (.arr [v]) = 2 + size v := by
  rw [size_arr (List.cons_ne_nil _ _)]
  simp only [List.map_cons, List.map_nil, List.sum_cons, List.sum_nil]
  omega

/-- Small elements make a small array. -/
theorem size_arr_le {es : List Json} {k : Nat} (h : ∀ e ∈ es, size e ≤ k) :
    size (.arr es) ≤ 2 + es.length * (k + 1) := by
  by_cases hes : es = []
  · subst hes
    have hempty : size (.arr []) = 2 := by decide
    omega
  · have hsum := List.sum_le_card_nsmul (es.map fun e => size e + 1) (k + 1) (by simpa using h)
    rw [List.length_map, Nat.nsmul_eq_mul] at hsum
    rw [size_arr hes]
    omega

/-- A writer that takes whatever still fits under its cap takes the text
exactly when all of it fits, however it is cut into pieces; the writer that
refused is `Over`. -/
theorem writeAll_fits {ω : Type} (write : ω → List Char → ω × Bool) (len : ω → Nat) (cap : Nat)
    (Ok Over : ω → Prop)
    (hfits : ∀ w piece, Ok w → len w + bytes piece ≤ cap →
      (write w piece).2 = true ∧ Ok (write w piece).1 ∧
        len (write w piece).1 = len w + bytes piece)
    (hover : ∀ w piece, Ok w → cap < len w + bytes piece →
      (write w piece).2 = false ∧ Over (write w piece).1)
    (pieces : List (List Char)) : ∀ w, Ok w → len w ≤ cap →
      if len w + bytes pieces.flatten ≤ cap then
        (writeAll write w pieces).2 = true ∧
          len (writeAll write w pieces).1 = len w + bytes pieces.flatten
      else (writeAll write w pieces).2 = false ∧ Over (writeAll write w pieces).1 := by
  induction pieces with
  | nil =>
    intro w _ hle
    rw [if_pos (by simpa using hle)]
    exact ⟨rfl, rfl⟩
  | cons piece pieces ih =>
    intro w hok hle
    simp only [List.flatten_cons, bytes_append, ← Nat.add_assoc, writeAll]
    rcases heq : write w piece with ⟨w', accepted⟩
    by_cases hp : len w + bytes piece ≤ cap
    · obtain ⟨htrue, hok', hlen⟩ := hfits w piece hok hp
      rw [heq] at htrue hok' hlen
      subst htrue
      have := ih w' hok' (hlen ▸ hp)
      rwa [hlen] at this
    · obtain ⟨hfalse, hbad⟩ := hover w piece hok (by omega)
      rw [heq] at hfalse hbad
      subst hfalse
      rw [if_neg (by omega)]
      exact ⟨rfl, hbad⟩

/-- A writer that keeps what it accepts has kept the whole text in the end. -/
theorem writeAll_keeps {ω : Type} (write : ω → List Char → ω × Bool) (text : ω → List Char)
    (hkeeps : ∀ w piece, (write w piece).2 = true → text (write w piece).1 = text w ++ piece)
    (pieces : List (List Char)) : ∀ w, (writeAll write w pieces).2 = true →
      text (writeAll write w pieces).1 = text w ++ pieces.flatten := by
  induction pieces with
  | nil =>
    intro w _
    simp [writeAll]
  | cons piece pieces ih =>
    intro w h
    simp only [writeAll] at h ⊢
    rcases heq : write w piece with ⟨w', accepted⟩
    rw [heq] at h
    cases accepted with
    | false => cases h
    | true =>
      have hstep := hkeeps w piece (by rw [heq])
      rw [heq] at hstep
      simp only at h hstep ⊢
      rw [ih w' h, hstep, List.flatten_cons, List.append_assoc]

/-! ## Characters -/

/-- A text without control characters. -/
def Plain (text : List Char) : Prop := ∀ c ∈ text, 32 ≤ c.toNat

theorem plain_nil : Plain [] := fun _ h => nomatch h

theorem plain_append {a b : List Char} : Plain (a ++ b) ↔ Plain a ∧ Plain b := by
  simp only [Plain, List.mem_append, or_imp, forall_and]

theorem plain_cons {c : Char} {cs : List Char} : Plain (c :: cs) ↔ 32 ≤ c.toNat ∧ Plain cs := by
  simp only [Plain, List.mem_cons, forall_eq_or_imp]

theorem plain_digits {text : List Char} (h : ∀ c ∈ text, c.isDigit = true) : Plain text := by
  intro c hc
  have hdigit := h c hc
  simp only [Char.isDigit, Bool.and_eq_true, decide_eq_true_eq] at hdigit
  have hle : '0'.toNat ≤ c.toNat := hdigit.1
  exact Nat.le_trans (by decide) hle

theorem plain_escapeChar (c : Char) : Plain (escapeChar c) := by
  unfold escapeChar
  split
  · rename_i h
    rcases h with rfl | rfl <;> simp [plain_cons, plain_nil, quote, backslash]
  · split
    · rename_i e he
      unfold shortEscape at he
      have hshort : 32 ≤ e.toNat := by
        split at he <;> cases he <;> decide
      exact plain_cons.mpr ⟨by decide, plain_cons.mpr ⟨hshort, plain_nil⟩⟩
    · split
      · rename_i hlow
        have hdigit : ∀ n < 16, 32 ≤ (Nat.digitChar n).toNat := by decide
        simp only [plain_cons]
        exact ⟨by decide, by decide, by decide, by decide, hdigit _ (by omega), hdigit _ (by omega),
          fun _ h => nomatch h⟩
      · rename_i hhigh
        exact plain_cons.mpr ⟨Nat.not_lt.mp hhigh, plain_nil⟩

theorem plain_string (s : String) : Plain (string s) := by
  have hescape : Plain (escape s.toList) := by
    intro c hc
    obtain ⟨c', -, hc⟩ := List.mem_flatMap.mp hc
    exact plain_escapeChar c' c hc
  rw [string, plain_cons, plain_append, plain_cons]
  exact ⟨by decide, hescape, by decide, plain_nil⟩

mutual

/-- **The text has no control characters.** -/
theorem plain_render : ∀ j : Json, Plain j.render
  | .null => by simp [render, plain_cons, plain_nil]
  | .bool true => by simp [render, plain_cons, plain_nil]
  | .bool false => by simp [render, plain_cons, plain_nil]
  | .num n => plain_digits (decimal_isDigit n)
  | .str s => plain_string s
  | .arr [] => by simp [render, plain_cons, plain_nil]
  | .arr (e :: es) => by
    have he := plain_render e
    have hes := plain_renderElems es
    simp [render, plain_cons, plain_append, he, hes, plain_nil]
  | .obj [] => by simp [render, plain_cons, plain_nil]
  | .obj ((k, v) :: fs) => by
    have hv := plain_render v
    have hfs := plain_renderFields fs
    simp [render, plain_cons, plain_append, plain_string, hv, hfs, plain_nil]

theorem plain_renderElems : ∀ es : List Json, Plain (renderElems es)
  | [] => plain_nil
  | e :: es => by
    have he := plain_render e
    have hes := plain_renderElems es
    simp [renderElems, plain_cons, plain_append, he, hes]

theorem plain_renderFields : ∀ fs : List (String × Json), Plain (renderFields fs)
  | [] => plain_nil
  | (k, v) :: fs => by
    have hv := plain_render v
    have hfs := plain_renderFields fs
    simp [renderFields, plain_cons, plain_append, plain_string, hv, hfs]

end

end Json
end VcdTools.Lib
