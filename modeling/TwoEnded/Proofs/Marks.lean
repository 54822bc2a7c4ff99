/-
TwoEnded.Proofs.Marks — how the mark and the colon of a token are read.

`Token.split_cases` says what a token is if it is split in a certain way, and
`split_of_bang_front` and `split_of_bang_behind` say how a token is split of which
the characters are known. A marked token is a label only if it ends in a colon,
which a mark behind the word excludes.
-/
import TwoEnded.Token

namespace TwoEnded

namespace Token

/-- The three ways in which a token is split. -/
theorem split_cases (t : Token) :
    (∃ w, t.text.toList = '!' :: w ∧ t.split = (some .left, String.ofList w)) ∨
    (∃ w, t.text.toList = w ++ ['!'] ∧ w.head? ≠ some '!' ∧
      t.split = (some .right, String.ofList w)) ∨
    t.split = (none, t.text) := by
  unfold split
  split
  · next w hw => exact .inl ⟨w, hw, rfl⟩
  · next hhead =>
    by_cases hlast : t.text.toList.getLast? = some '!'
    · refine .inr (.inl ⟨t.text.toList.dropLast, ?_, ?_, by rw [if_pos hlast]⟩)
      · obtain ⟨w, hw⟩ := List.getLast?_eq_some_iff.mp hlast
        rw [hw, List.dropLast_concat]
      · intro hbang
        cases hchars : t.text.toList with
        | nil => rw [hchars] at hlast; cases hlast
        | cons x rest =>
          rw [hchars] at hbang
          cases rest with
          | nil => cases hbang
          | cons y rest =>
            have hx : x = '!' := by simpa using hbang
            exact hhead (y :: rest) (by rw [hchars, hx])
    · exact .inr (.inr (by rw [if_neg hlast]))

/-- A token that does not hold the mark is its own word. -/
theorem split_of_no_bang {t : Token} (h : '!' ∉ t.text.toList) : t.split = (none, t.text) := by
  obtain ⟨w, hw, -⟩ | ⟨w, hw, -, -⟩ | hsplit := split_cases t
  · exact absurd (by simp [hw]) h
  · exact absurd (by simp [hw]) h
  · exact hsplit

theorem split_of_bang_front {t : Token} {w : List Char} (h : t.text.toList = '!' :: w) :
    t.split = (some .left, String.ofList w) := by
  unfold split
  rw [h]
  rfl

theorem split_of_bang_behind {t : Token} {w : List Char} (h : t.text.toList = w ++ ['!'])
    (hne : w ≠ []) (hhead : w.head? ≠ some '!') : t.split = (some .right, String.ofList w) := by
  unfold split
  split
  · next v hv =>
    rw [h] at hv
    cases w with
    | nil => exact absurd rfl hne
    | cons x w =>
      have hx : x = '!' := by simp at hv; exact hv.1
      exact absurd (by rw [hx]; rfl) hhead
  · rw [h, List.getLast?_concat, if_pos rfl, List.dropLast_concat]

theorem label?_of_bang_front {t : Token} {w : List Char} (h : t.text.toList = '!' :: w)
    (hlast : w.getLast? ≠ some ':') : t.label? = none := by
  have hcolon : ('!' :: w).getLast? ≠ some ':' := by
    cases w with
    | nil => decide
    | cons x w => rwa [List.getLast?_cons_cons]
  rw [label?, h, if_neg hcolon]

theorem label?_of_bang_behind {t : Token} {w : List Char} (h : t.text.toList = w ++ ['!']) :
    t.label? = none := by
  have hcolon : (w ++ ['!']).getLast? ≠ some ':' := by
    rw [List.getLast?_concat]
    decide
  rw [label?, h, if_neg hcolon]

end Token

end TwoEnded
