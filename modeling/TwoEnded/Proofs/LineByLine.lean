/-
TwoEnded.Proofs.LineByLine — a source text is read line by line, however its lines end.

## §1 Lines

A text with a line feed in it has the lines before the line feed and the lines after it. Only the
last piece before needs a look: it is the rest of the text there, and a line that has ended here, so
that a carriage return at its end belongs to the line there and to its ending here. If there is no
carriage return at that place, the two sides are read as if they stood alone
(`lines_append_of_no_return`).

## §2 Returns

`withReturns` puts a carriage return in front of each line feed. They are dropped again with the
line feeds, and what is left are the pieces between them (`lines_withReturns`). These are also the
lines of the text, if it has no carriage return of its own.

## §3 Tokens

An empty line and a remark have no words, and so no text changes its tokens with them.
-/
import TwoEnded.Proofs.NormalForm

namespace TwoEnded

namespace Text

/-! ## §1 Lines -/

/-- The last piece of a text is the end of it. -/
theorem exists_last_piece (c : Char) (text : List Char) :
    ∃ init last, pieces c text = init ++ [last] ∧ last <:+ text := by
  induction text with
  | nil => exact ⟨[], [], rfl, List.suffix_rfl⟩
  | cons x text ih =>
    obtain ⟨init, last, hpieces, hsuffix⟩ := ih
    rw [pieces_cons, hpieces]
    split
    · exact ⟨[] :: init, last, rfl, hsuffix.trans (List.suffix_cons x text)⟩
    · cases init with
      | nil =>
        -- The only piece of a text is the text.
        obtain rfl : last = text := by
          have hjoin : [c].intercalate (text.splitOn c) = text := List.intercalate_splitOn c
          rwa [← pieces_eq_splitOn, hpieces, List.nil_append, List.intercalate_singleton] at hjoin
        exact ⟨[], x :: last, rfl, List.suffix_rfl⟩
      | cons first init =>
        exact ⟨(x :: first) :: init, last, rfl, hsuffix.trans (List.suffix_cons x text)⟩

theorem dropReturn_of_no_return {line : List Char} (h : line.getLast? ≠ some '\r') :
    dropReturn line = line :=
  if_neg h

theorem dropReturn_concat (line : List Char) : dropReturn (line ++ ['\r']) = line := by
  rw [dropReturn, List.getLast?_concat, if_pos rfl, List.dropLast_concat]

/-- All pieces but the last one are lines that have ended. -/
theorem lines_of_pieces {text : List Char} {init : List (List Char)} {last : List Char}
    (h : pieces '\n' text = init ++ [last]) : lines text = init.map dropReturn ++ [last] := by
  simp [lines, h]

/-- In front of a line feed all pieces are lines that have ended. -/
theorem lines_append (a b : List Char) :
    lines (a ++ '\n' :: b) = (pieces '\n' a).map dropReturn ++ lines b := by
  obtain ⟨init, last, hpieces, -⟩ := exists_last_piece '\n' b
  have hwhole : pieces '\n' (a ++ '\n' :: b) = (pieces '\n' a ++ init) ++ [last] := by
    rw [pieces_append, hpieces, List.append_assoc]
  rw [lines_of_pieces hwhole, lines_of_pieces hpieces, List.map_append, List.append_assoc]

/-- If the text before a line feed does not end in a carriage return, its lines are those that it
has alone. -/
theorem lines_append_of_no_return {a : List Char} (h : a.getLast? ≠ some '\r') (b : List Char) :
    lines (a ++ '\n' :: b) = lines a ++ lines b := by
  obtain ⟨init, last, hpieces, hsuffix⟩ := exists_last_piece '\n' a
  have hlast : last.getLast? ≠ some '\r' := by
    obtain ⟨front, rfl⟩ := hsuffix
    intro hreturn
    exact h (by rw [List.getLast?_append, hreturn, Option.some_or])
  rw [lines_append, hpieces, lines_of_pieces hpieces, List.map_append, List.map_singleton,
    dropReturn_of_no_return hlast]

/-! ## §2 Returns -/

/-- The text with a carriage return in front of each line feed. -/
def withReturns (text : List Char) : List Char :=
  text.flatMap fun c => if c = '\n' then ['\r', '\n'] else [c]

theorem withReturns_cons_feed (text : List Char) :
    withReturns ('\n' :: text) = '\r' :: '\n' :: withReturns text := rfl

theorem withReturns_cons {x : Char} (h : x ≠ '\n') (text : List Char) :
    withReturns (x :: text) = x :: withReturns text := by
  rw [withReturns, List.flatMap_cons, if_neg h]
  rfl

/-- The carriage returns stand at the ends of all pieces but the last one. -/
theorem exists_pieces_withReturns (text : List Char) :
    ∃ init last, pieces '\n' text = init ++ [last] ∧
      pieces '\n' (withReturns text) = init.map (· ++ ['\r']) ++ [last] := by
  induction text with
  | nil => exact ⟨[], [], rfl, rfl⟩
  | cons x text ih =>
    obtain ⟨init, last, hpieces, hreturns⟩ := ih
    by_cases hx : x = '\n'
    · subst hx
      refine ⟨[] :: init, last, by rw [pieces_cons_self, hpieces, List.cons_append], ?_⟩
      rw [withReturns_cons_feed, pieces_cons, if_neg (by decide), pieces_cons_self, hreturns]
      rfl
    · rw [withReturns_cons hx, pieces_cons, if_neg hx, pieces_cons, if_neg hx, hpieces, hreturns]
      cases init with
      | nil => exact ⟨[], x :: last, rfl, rfl⟩
      | cons first init => exact ⟨(x :: first) :: init, last, rfl, rfl⟩

/-- The carriage returns are dropped with the line feeds that they stand in front of. -/
theorem lines_withReturns (text : List Char) : lines (withReturns text) = pieces '\n' text := by
  obtain ⟨init, last, hpieces, hreturns⟩ := exists_pieces_withReturns text
  have hdropped : (init.map (· ++ ['\r'])).map dropReturn = init := by
    simp [Function.comp_def, dropReturn_concat]
  rw [lines_of_pieces hreturns, hdropped, hpieces]

/-- Without carriage returns the lines are the pieces between the line feeds. -/
theorem lines_of_no_return {text : List Char} (h : '\r' ∉ text) :
    lines text = pieces '\n' text := by
  obtain ⟨init, last, hpieces, -⟩ := exists_last_piece '\n' text
  have hkept : init.map dropReturn = init := by
    rw [List.map_congr_left (g := id), List.map_id]
    intro piece hpiece
    have hmem : piece ∈ pieces '\n' text := by rw [hpieces]; exact List.mem_append_left _ hpiece
    exact dropReturn_of_no_return fun hreturn =>
      h (mem_of_mem_pieces hmem (List.mem_of_getLast? hreturn))
  rw [lines_of_pieces hpieces, hkept, hpieces]

end Text

namespace Source

open Text

/-! ## §3 Tokens -/

theorem textWords_append (a b : List Char) :
    textWords (a ++ '\n' :: b) =
      ((pieces '\n' a).map dropReturn).flatMap lineWords ++ textWords b := by
  rw [textWords, lines_append, List.flatMap_append]
  rfl

/-- The line is empty, or a number sign is its first visible character. -/
def IsIdle (line : List Char) : Prop := line = [] ∨ firstVisible line = some '#'

/-- A carriage return at the end of a line is not visible. -/
theorem firstVisible_dropReturn (line : List Char) :
    firstVisible (dropReturn line) = firstVisible line := by
  unfold dropReturn
  split
  · next hreturn =>
    obtain ⟨front, rfl⟩ := List.getLast?_eq_some_iff.mp hreturn
    have hblank : firstVisible ['\r'] = none := by decide
    rw [List.dropLast_concat, firstVisible_append, hblank, Option.or_none]
  · rfl

theorem lineWords_of_isIdle {line : List Char} (h : IsIdle line) :
    lineWords (dropReturn line) = [] := by
  obtain rfl | hsign := h
  · rfl
  · rw [lineWords, if_pos]
    rw [isRemark_iff, firstVisible_dropReturn, hsign]

/-- An idle line in front of a text adds nothing to it. -/
theorem textWords_idle {line : List Char} (hfeed : '\n' ∉ line) (h : IsIdle line)
    (text : List Char) : textWords (line ++ '\n' :: text) = textWords text := by
  have hpieces : pieces '\n' line = [line] := by
    rw [pieces_eq_splitOn, List.splitOn_eq_singleton hfeed]
  rw [textWords_append, hpieces, List.map_singleton, List.flatMap_singleton,
    lineWords_of_isIdle h, List.nil_append]

/-- The source text with a carriage return in front of each line feed. -/
def withReturns (source : String) : String := String.ofList (Text.withReturns source.toList)

/-- The tokens on the two sides of a line feed. -/
theorem tokens_append {first : String} (h : first.toList.getLast? ≠ some '\r') (second : String) :
    tokens (first ++ "\n" ++ second) = tokens first ++ tokens second := by
  have htext : (first ++ "\n" ++ second).toList = first.toList ++ '\n' :: second.toList := by simp
  simp only [tokens, textWords]
  rw [htext, lines_append_of_no_return h, List.flatMap_append, List.map_append]

/-- **Lines are read one by one, however they end.**

* The tokens of two texts with a line feed between them are those of the first text and those of
  the second, unless the first one ends in a carriage return, which the line feed would take in.
* Hence a line that is empty, or a remark, can be put between two lines or taken away: the tokens
  are the same with it and without it.
* And a text without carriage returns has the same tokens if each of its lines ends in a carriage
  return and a line feed. -/
theorem lines_read_independently :
    (∀ first second : String, first.toList.getLast? ≠ some '\r' →
      tokens (first ++ "\n" ++ second) = tokens first ++ tokens second) ∧
    (∀ before line after : String, before.toList.getLast? ≠ some '\r' → '\n' ∉ line.toList →
      IsIdle line.toList →
      tokens (before ++ "\n" ++ line ++ "\n" ++ after) = tokens (before ++ "\n" ++ after)) ∧
    ∀ source : String, '\r' ∉ source.toList → tokens (withReturns source) = tokens source := by
  refine ⟨fun first second h => tokens_append h second, ?_, ?_⟩
  · intro before line after hreturn hfeed hidle
    have hline : tokens (line ++ "\n" ++ after) = tokens after := by
      have htext : (line ++ "\n" ++ after).toList = line.toList ++ '\n' :: after.toList := by simp
      rw [tokens, htext, textWords_idle hfeed hidle, tokens]
    have hsplit : before ++ "\n" ++ line ++ "\n" ++ after =
        before ++ "\n" ++ (line ++ "\n" ++ after) := by
      simp only [String.append_assoc]
    rw [hsplit, tokens_append hreturn, tokens_append hreturn, hline]
  · intro source hreturn
    rw [tokens, tokens, withReturns, String.toList_ofList, textWords, lines_withReturns, textWords,
      lines_of_no_return hreturn]

/-- The carriage return before the line feed matters: alone it is part of a word. -/
example : tokens ("a\r" ++ "\n" ++ "b") ≠ tokens "a\r" ++ tokens "b" := by decide +kernel

/-- Carriage returns that end a line, begin one and stand at the end of the text; a remark behind
blanks that ends in a carriage return; and an empty line with either ending. -/
theorem lines_read_independently_mixed_endings :
    ("a\r\n\rb".toList.getLast? ≠ some '\r' ∧
      tokens ("a\r\n\rb" ++ "\n" ++ "\n#c\r\n!1 \r") =
        [⟨"a"⟩, ⟨"\rb"⟩] ++ [⟨"!1"⟩, ⟨"\r"⟩]) ∧
    ("1!".toList.getLast? ≠ some '\r' ∧ '\n' ∉ "\t # 3!\r".toList ∧ IsIdle "\t # 3!\r".toList ∧
      tokens ("1!" ++ "\n" ++ "\t # 3!\r" ++ "\n" ++ "2!") = [⟨"1!"⟩, ⟨"2!"⟩]) ∧
    '\r' ∉ "1!\n\n2!".toList ∧ withReturns "1!\n\n2!" = "1!\r\n\r\n2!" ∧
      tokens "1!\r\n\r\n2!" = [⟨"1!"⟩, ⟨"2!"⟩] := by
  obtain ⟨hsides, hidle, hreturns⟩ := lines_read_independently
  refine ⟨⟨by decide +kernel, ?_⟩, ⟨by decide +kernel, by decide +kernel, ?_, ?_⟩,
    by decide +kernel, by decide +kernel, ?_⟩
  · rw [hsides _ _ (by decide +kernel)]
    decide +kernel
  · exact .inr (by decide +kernel)
  · rw [hidle _ _ _ (by decide +kernel) (by decide +kernel) (.inr (by decide +kernel))]
    decide +kernel
  · have hsame := hreturns "1!\n\n2!" (by decide +kernel)
    have htext : withReturns "1!\n\n2!" = "1!\r\n\r\n2!" := by decide +kernel
    rw [htext] at hsame
    rw [hsame]
    decide +kernel

end Source

end TwoEnded
