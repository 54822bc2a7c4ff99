/-
TwoEnded.Text.Split — text cut into lines and words.

`pieces c` cuts a text at every occurrence of the character `c`, and keeps
empty pieces; its law is `pieces_append`: a text cut at a place where `c`
stands is cut on both sides alone.

* A line ends at a line feed, and one carriage return right before that line
  feed belongs to the ending (`lines`). The text after the last line feed is a
  line too, and a carriage return at its end is part of it.
* A word ends at a space, and at nothing else; empty words are left out
  (`words`).
-/

namespace TwoEnded.Text

/-! ## Pieces -/

/-- Puts a character in front of the first piece. -/
def prepend (x : Char) : List (List Char) → List (List Char)
  | [] => [[x]]
  | piece :: rest => (x :: piece) :: rest

/-- The pieces between the occurrences of `c`; there is one more of them than
there are occurrences. -/
def pieces (c : Char) (text : List Char) : List (List Char) :=
  text.foldr (fun x rest => if x = c then [] :: rest else prepend x rest) [[]]

@[simp] theorem pieces_nil (c : Char) : pieces c [] = [[]] := rfl

theorem pieces_cons (c x : Char) (text : List Char) :
    pieces c (x :: text) = if x = c then [] :: pieces c text else prepend x (pieces c text) := rfl

@[simp] theorem pieces_cons_self (c : Char) (text : List Char) :
    pieces c (c :: text) = [] :: pieces c text := by
  simp [pieces_cons]

theorem pieces_ne_nil (c : Char) (text : List Char) : pieces c text ≠ [] := by
  cases text with
  | nil => simp
  | cons x text =>
    rw [pieces_cons]
    split
    · simp
    · cases pieces c text <;> simp [prepend]

theorem prepend_append {x : Char} {a b : List (List Char)} (h : a ≠ []) :
    prepend x (a ++ b) = prepend x a ++ b := by
  cases a with
  | nil => exact absurd rfl h
  | cons piece rest => rfl

/-- The two sides of an occurrence of `c` are cut alone. -/
theorem pieces_append (c : Char) (a b : List Char) :
    pieces c (a ++ c :: b) = pieces c a ++ pieces c b := by
  induction a with
  | nil => simp
  | cons x a ih =>
    rw [List.cons_append, pieces_cons, pieces_cons, ih]
    split
    · rfl
    · exact prepend_append (pieces_ne_nil c a)

/-! ## Lines and words -/

/-- The line without one carriage return at its end. -/
def dropReturn (line : List Char) : List Char :=
  if line.getLast? = some '\r' then line.dropLast else line

/-- The lines of a text. -/
def lines (text : List Char) : List (List Char) :=
  let ps := pieces '\n' text
  ps.dropLast.map dropReturn ++ ps.getLast?.toList

/-- The words of a line. -/
def words (line : List Char) : List (List Char) :=
  (pieces ' ' line).filter (!·.isEmpty)

end TwoEnded.Text
