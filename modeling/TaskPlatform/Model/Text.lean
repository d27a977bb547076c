import Mathlib.Data.List.DropRight

/-!
# Text functions of Python and of MySQL

Python strings and `utf8mb4` columns are sequences of Unicode code points, as
Lean's `String` is.  `str.strip()` removes every Unicode whitespace character at
both ends; MySQL's `TRIM` removes spaces only.
-/

namespace TaskPlatform

/-- Characters `str.strip()` removes. -/
def isPySpace (c : Char) : Bool :=
  let n := c.toNat
  (9 ≤ n && n ≤ 13) || (28 ≤ n && n ≤ 32) || n == 0x85 || n == 0xa0 || n == 0x1680 ||
    (0x2000 ≤ n && n ≤ 0x200a) || n == 0x2028 || n == 0x2029 || n == 0x202f || n == 0x205f ||
    n == 0x3000

/-- Remove the characters `p` selects from both ends. -/
def stripChars (p : Char → Bool) (l : List Char) : List Char := (l.dropWhile p).rdropWhile p

theorem dropWhile_stripChars (p : Char → Bool) (l : List Char) :
    (stripChars p l).dropWhile p = stripChars p l := by
  rw [List.dropWhile_eq_self_iff]
  intro hpos hp
  have hpre : stripChars p l <+: l.dropWhile p := List.rdropWhile_prefix p _
  have hlen : 0 < (l.dropWhile p).length := Nat.lt_of_lt_of_le hpos hpre.length_le
  have hhead : (stripChars p l)[0] = (l.dropWhile p)[0] := hpre.getElem hpos
  refine List.dropWhile_get_zero_not p l hlen ?_
  rw [List.get_eq_getElem, ← hhead]
  exact hp

theorem stripChars_idem (p : Char → Bool) (l : List Char) :
    stripChars p (stripChars p l) = stripChars p l := by
  have h : (stripChars p l).rdropWhile p = stripChars p l := List.rdropWhile_idempotent p _
  rw [stripChars, dropWhile_stripChars, h]

theorem length_stripChars_le (p : Char → Bool) (l : List Char) :
    (stripChars p l).length ≤ l.length := by
  have hpre : stripChars p l <+: l.dropWhile p := List.rdropWhile_prefix p _
  exact Nat.le_trans hpre.length_le (List.dropWhile_sublist p).length_le

/-- What begins with a character that stays is not stripped to nothing. -/
theorem stripChars_cons_ne_nil {p : Char → Bool} {c : Char} {l : List Char} (h : p c = false) :
    stripChars p (c :: l) ≠ [] := by
  rw [stripChars, List.dropWhile_cons_of_neg (by simp [h])]
  intro hnil
  have hc := List.rdropWhile_eq_nil_iff.mp hnil c List.mem_cons_self
  rw [h] at hc
  cases hc

/-- Python's `str.strip()`. -/
def strip (s : String) : String := String.ofList (stripChars isPySpace s.toList)

theorem strip_idem (s : String) : strip (strip s) = strip s := by
  simp only [strip, String.toList_ofList, stripChars_idem]

/-- MySQL's `TRIM(s)`. -/
def sqlTrim (s : String) : String := String.ofList (stripChars (· == ' ') s.toList)

/-- `CHAR_LENGTH(TRIM(s)) BETWEEN 1 AND 100`. -/
def trimmedLengthOk (s : String) : Bool :=
  1 ≤ (sqlTrim s).length && (sqlTrim s).length ≤ 100

/-- What one set of characters leaves alone, a smaller one leaves alone. -/
theorem stripChars_eq_of_imp {p q : Char → Bool} {l : List Char} (h : stripChars p l = l)
    (hqp : ∀ c, q c = true → p c = true) : stripChars q l = l := by
  have hfront : l.dropWhile p = l := by
    rw [← h]
    exact dropWhile_stripChars p l
  have hback : l.rdropWhile p = l := by
    rw [stripChars, hfront] at h
    exact h
  have hfront' : l.dropWhile q = l := by
    rw [List.dropWhile_eq_self_iff] at hfront ⊢
    exact fun hl hc => hfront hl (hqp _ hc)
  have hback' : l.rdropWhile q = l := by
    rw [List.rdropWhile_eq_self_iff] at hback ⊢
    exact fun hl hc => hback hl (hqp _ hc)
  rw [stripChars, hfront', hback']

/-- A space is whitespace to Python, so `TRIM` does nothing to a stripped string. -/
theorem sqlTrim_of_strip {s : String} (h : strip s = s) : sqlTrim s = s := by
  have hlist : stripChars isPySpace s.toList = s.toList := by
    have htoList := congrArg String.toList h
    rw [strip, String.toList_ofList] at htoList
    exact htoList
  have hspace : ∀ c : Char, (c == ' ') = true → isPySpace c = true := by
    intro c hc
    rw [eq_of_beq hc]
    decide
  rw [sqlTrim, stripChars_eq_of_imp hlist hspace, String.ofList_toList]

theorem trimmedLengthOk_of_strip {s : String} (h : strip s = s)
    (hlength : 1 ≤ s.length ∧ s.length ≤ 100) : trimmedLengthOk s = true := by
  rw [trimmedLengthOk, sqlTrim_of_strip h]
  simp only [hlength.1, hlength.2, decide_true, Bool.and_self]

/-- The pattern `^[A-Za-z0-9_]+$` of usernames. -/
def isUsernameText (s : String) : Bool :=
  !s.toList.isEmpty && s.toList.all fun c => c.isAlphanum || c == '_'

/-- How the database compares usernames: two strings are equal under the
collation when they have the same weight. -/
class Collation where
  weight : String → String

end TaskPlatform
