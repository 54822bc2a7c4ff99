/-
TwoEnded.Proofs.NormalForm — a source text of one line for every source text.

The tokens of a text, written in one line with a space between them, are a text with the
same tokens. This is not plain: a token may hold a number sign or any blank but a space,
and the lines of the text may have been remarks, so that in the one line a number sign
might come to stand first and make a remark of the whole program. It does not.

## §1 Pieces

A text is put together from its pieces with the separator between them, and pieces that
do not hold the separator are the pieces of the text that they make up. Both are laws of
`List.splitOn`, which `pieces` is (`pieces_eq_splitOn`).

## §2 Lines and words

A line holds no line feed, a word no space.

## §3 The first visible character

`firstVisible` is what decides whether a line is a remark. Spaces between words do not
matter to it, so that the first visible character of a line is that of its words.

## §4 Normal forms

`Source.Normal` says of a sequence of tokens that it can be written in one line. These
are the sequences that source texts have (`normal_tokens`), and each of them is read back
from its line (`tokens_joined`).
-/
import TwoEnded.Source

namespace TwoEnded

namespace Text

/-! ## §1 Pieces -/

theorem prepend_eq_modifyHead {x : Char} {ps : List (List Char)} (h : ps ≠ []) :
    prepend x ps = ps.modifyHead (List.cons x) := by
  cases ps with
  | nil => exact absurd rfl h
  | cons p ps => rfl

theorem pieces_eq_splitOn (c : Char) (text : List Char) : pieces c text = text.splitOn c := by
  induction text with
  | nil => rw [pieces_nil, List.splitOn_nil]
  | cons x text ih =>
    rw [pieces_cons, List.splitOn_cons_eq_if_modifyHead, ← ih,
      prepend_eq_modifyHead (pieces_ne_nil c text)]
    simp only [beq_iff_eq]

theorem not_mem_of_mem_pieces {c : Char} {text piece : List Char} (h : piece ∈ pieces c text) :
    c ∉ piece := by
  induction text generalizing piece with
  | nil =>
    have hnil : piece = [] := by simpa using h
    simp [hnil]
  | cons x text ih =>
    rw [pieces_cons] at h
    split at h
    · rcases List.mem_cons.mp h with rfl | h'
      · simp
      · exact ih h'
    · next hx =>
      cases hp : pieces c text with
      | nil => exact absurd hp (pieces_ne_nil c text)
      | cons p ps =>
        rw [hp, prepend] at h
        rcases List.mem_cons.mp h with rfl | h'
        · have hp' : c ∉ p := ih (by simp [hp])
          simp [hp', Ne.symm hx]
        · exact ih (by simp [hp, h'])

/-- A character between pieces that are put together is one of the separator. -/
theorem mem_intercalate {x : Char} {separator : List Char} {ws : List (List Char)}
    (h : x ∈ separator.intercalate ws) : x ∈ separator ∨ ∃ w ∈ ws, x ∈ w := by
  induction ws with
  | nil => simp at h
  | cons w ws ih =>
    cases ws with
    | nil =>
      rw [List.intercalate_singleton] at h
      exact .inr ⟨w, by simp, h⟩
    | cons w' ws =>
      rw [List.intercalate_cons_cons] at h
      simp only [List.mem_append] at h
      rcases h with (h | h) | h
      · exact .inr ⟨w, by simp, h⟩
      · exact .inl h
      · rcases ih h with hc | ⟨u, hu, hx⟩
        · exact .inl hc
        · exact .inr ⟨u, List.mem_cons_of_mem _ hu, hx⟩

theorem mem_intercalate_of_mem {c x : Char} {ws : List (List Char)} {w : List Char}
    (hw : w ∈ ws) (hx : x ∈ w) : x ∈ [c].intercalate ws := by
  induction ws with
  | nil => cases hw
  | cons u ws ih =>
    cases ws with
    | nil =>
      have hu : w = u := by simpa using hw
      rwa [List.intercalate_singleton, ← hu]
    | cons u' ws =>
      rw [List.intercalate_cons_cons]
      simp only [List.mem_append]
      rcases List.mem_cons.mp hw with rfl | hw'
      · exact .inl (.inl hx)
      · exact .inr (ih hw')

/-- A piece of a text is made of characters of the text. -/
theorem mem_of_mem_pieces {c x : Char} {text piece : List Char} (h : piece ∈ pieces c text)
    (hx : x ∈ piece) : x ∈ text := by
  have hmem : x ∈ [c].intercalate (pieces c text) := mem_intercalate_of_mem h hx
  rwa [pieces_eq_splitOn, List.intercalate_splitOn] at hmem

/-! ## §2 Lines and words -/

theorem lines_of_not_mem {text : List Char} (h : '\n' ∉ text) : lines text = [text] := by
  have hpieces : pieces '\n' text = [text] := by
    rw [pieces_eq_splitOn, List.splitOn_eq_singleton h]
  simp [lines, hpieces]

theorem mem_of_mem_dropReturn {x : Char} {line : List Char} (h : x ∈ dropReturn line) :
    x ∈ line := by
  unfold dropReturn at h
  split at h
  · exact (List.dropLast_sublist line).subset h
  · exact h

theorem not_mem_of_mem_lines {text line : List Char} (h : line ∈ lines text) : '\n' ∉ line := by
  simp only [lines, List.mem_append, List.mem_map, Option.mem_toList] at h
  rcases h with ⟨piece, hpiece, rfl⟩ | hlast
  · intro hx
    have hmem : piece ∈ pieces '\n' text := (List.dropLast_sublist _).subset hpiece
    exact not_mem_of_mem_pieces hmem (mem_of_mem_dropReturn hx)
  · exact not_mem_of_mem_pieces (List.mem_of_getLast? hlast)

theorem mem_words {line word : List Char} (h : word ∈ words line) :
    word ≠ [] ∧ ' ' ∉ word ∧ ∀ x ∈ word, x ∈ line := by
  obtain ⟨hpiece, hne⟩ := List.mem_filter.mp h
  exact ⟨by simpa using hne, not_mem_of_mem_pieces hpiece, fun x => mem_of_mem_pieces hpiece⟩

/-- Words that are put together with spaces are the words of the line that they make up. -/
theorem words_intercalate {ws : List (List Char)} (h : ∀ w ∈ ws, w ≠ [] ∧ ' ' ∉ w) :
    words ([' '].intercalate ws) = ws := by
  by_cases hnil : ws = []
  · subst hnil
    rfl
  · have hkeep : ws.filter (!·.isEmpty) = ws := by
      rw [List.filter_eq_self]
      intro w hw
      simpa using (h w hw).1
    rw [words, pieces_eq_splitOn, List.splitOn_intercalate ' ' (fun w hw => (h w hw).2) hnil,
      hkeep]

/-! ## §3 The first visible character -/

/-- The first character that is not blank. -/
def firstVisible (text : List Char) : Option Char := text.find? (!isBlank ·)

theorem firstVisible_append (a b : List Char) :
    firstVisible (a ++ b) = (firstVisible a).or (firstVisible b) :=
  List.find?_append

/-- Spaces between words are not visible. -/
theorem firstVisible_intercalate (ws : List (List Char)) :
    firstVisible ([' '].intercalate ws) = firstVisible ws.flatten := by
  induction ws with
  | nil => rfl
  | cons w ws ih =>
    cases ws with
    | nil => simp
    | cons w' ws =>
      have hspace : firstVisible [' '] = none := by decide
      rw [List.intercalate_cons_cons, firstVisible_append, firstVisible_append, hspace, ih,
        Option.or_none, ← firstVisible_append]
      rfl

/-- What is visible of a line is visible in its words. -/
theorem firstVisible_words (line : List Char) :
    firstVisible (words line).flatten = firstVisible line := by
  calc firstVisible (words line).flatten
      = firstVisible (pieces ' ' line).flatten := by rw [words, List.flatten_filter_not_isEmpty]
    _ = firstVisible ([' '].intercalate (pieces ' ' line)) := (firstVisible_intercalate _).symm
    _ = firstVisible line := by rw [pieces_eq_splitOn, List.intercalate_splitOn]

end Text

namespace Source

open Text

theorem isRemark_iff {line : List Char} : isRemark line = true ↔ firstVisible line = some '#' := by
  have hhead : (line.dropWhile isBlank).head? = firstVisible line := by
    induction line with
    | nil => rfl
    | cons x line ih =>
      cases hx : isBlank x with
      | true => simpa [firstVisible, hx] using ih
      | false => simp [firstVisible, hx]
  simp [isRemark, hhead]

/-- The first visible character of the words of a line makes no remark of them: a line of
which it would do so has no words. -/
theorem firstVisible_lineWords (line : List Char) :
    firstVisible (lineWords line).flatten ≠ some '#' := by
  unfold lineWords
  split
  · simp [firstVisible]
  · next hremark =>
    rw [firstVisible_words, Ne, ← isRemark_iff]
    exact hremark

/-- The words of all lines in a row do not begin like a remark either, since the first
visible character among them is that of one line. -/
theorem firstVisible_textWords (text : List Char) :
    firstVisible (textWords text).flatten ≠ some '#' := by
  intro h
  rw [textWords, List.flatMap_def, List.flatten_flatten, firstVisible, List.find?_flatten] at h
  obtain ⟨group, hgroup, hfirst⟩ := List.exists_of_findSome?_eq_some h
  rw [List.map_map] at hgroup
  obtain ⟨line, -, rfl⟩ := List.mem_map.mp hgroup
  exact firstVisible_lineWords line hfirst

theorem mem_textWords {text word : List Char} (h : word ∈ textWords text) :
    word ≠ [] ∧ ' ' ∉ word ∧ '\n' ∉ word := by
  obtain ⟨line, hline, hword⟩ := List.mem_flatMap.mp h
  unfold lineWords at hword
  split at hword
  · cases hword
  · obtain ⟨hne, hspace, hmem⟩ := mem_words hword
    exact ⟨hne, hspace, fun hx => not_mem_of_mem_lines hline (hmem _ hx)⟩

/-! ## §4 Normal forms -/

/-- The tokens in one line. -/
def joined (ts : List Token) : String := " ".intercalate (ts.map Token.text)

theorem toList_joined (ts : List Token) :
    (joined ts).toList = [' '].intercalate (ts.map fun t => t.text.toList) := by
  have hspace : " ".toList = [' '] := by decide
  rw [joined, String.toList_intercalate, hspace, List.map_map]
  rfl

/-- The tokens can be written in one line: each of them is a word of a line, and the line
is no remark. -/
structure Normal (ts : List Token) : Prop where
  words : ∀ t ∈ ts, t.text ≠ "" ∧ ' ' ∉ t.text.toList ∧ '\n' ∉ t.text.toList
  visible : firstVisible (joined ts).toList ≠ some '#'

theorem toList_tokens (source : String) :
    (tokens source).map (fun t => t.text.toList) = textWords source.toList := by
  simp [tokens, Function.comp_def]

/-- The tokens of a text are normal. -/
theorem normal_tokens (source : String) : Normal (tokens source) where
  words := by
    intro t ht
    obtain ⟨word, hword, rfl⟩ := List.mem_map.mp ht
    obtain ⟨hne, hspace, hfeed⟩ := mem_textWords hword
    rw [String.toList_ofList]
    refine ⟨?_, hspace, hfeed⟩
    intro hempty
    exact hne (by simpa using congrArg String.toList hempty)
  visible := by
    rw [toList_joined, firstVisible_intercalate, toList_tokens]
    exact firstVisible_textWords source.toList

/-- Tokens without a blank, a line feed and a number sign are normal. -/
theorem normal_of_plain {ts : List Token} (h : ∀ t ∈ ts, t.text ≠ "" ∧ ' ' ∉ t.text.toList ∧
    '\n' ∉ t.text.toList ∧ '#' ∉ t.text.toList) : Normal ts where
  words := by
    intro t ht
    obtain ⟨hne, hspace, hfeed, -⟩ := h t ht
    exact ⟨hne, hspace, hfeed⟩
  visible := by
    intro hfirst
    have hmem := List.mem_of_find?_eq_some hfirst
    rw [toList_joined] at hmem
    rcases mem_intercalate hmem with hspace | ⟨chars, hchars, hsign⟩
    · exact absurd hspace (by decide)
    · obtain ⟨t, ht, rfl⟩ := List.mem_map.mp hchars
      exact (h t ht).2.2.2 hsign

/-- Normal tokens are read back from their line. -/
theorem tokens_joined {ts : List Token} (h : Normal ts) : tokens (joined ts) = ts := by
  have hone : '\n' ∉ (joined ts).toList := by
    rw [toList_joined]
    intro hfeed
    rcases mem_intercalate hfeed with hspace | ⟨word, hword, hx⟩
    · exact absurd hspace (by decide)
    · obtain ⟨t, ht, rfl⟩ := List.mem_map.mp hword
      exact (h.words t ht).2.2 hx
  have hwords : ∀ w ∈ ts.map (fun t => t.text.toList), w ≠ [] ∧ ' ' ∉ w := by
    intro w hw
    obtain ⟨t, ht, rfl⟩ := List.mem_map.mp hw
    obtain ⟨hne, hspace, -⟩ := h.words t ht
    exact ⟨by simpa using hne, hspace⟩
  have hremark : ¬ isRemark (joined ts).toList = true := by
    rw [isRemark_iff]
    exact h.visible
  have hline : textWords (joined ts).toList = ts.map fun t => t.text.toList := by
    rw [textWords, lines_of_not_mem hone, List.flatMap_singleton, lineWords, if_neg hremark,
      toList_joined, words_intercalate hwords]
  rw [tokens, hline, List.map_map]
  simp [Function.comp_def]

/-- **Normal form**: the tokens of a text are normal, and reading their line gives them
again; and normal tokens are what is read from their line. -/
theorem source_normal_form :
    (∀ source : String,
      (∀ t ∈ tokens source, t.text ≠ "" ∧ ' ' ∉ t.text.toList ∧ '\n' ∉ t.text.toList) ∧
      (joined (tokens source)).toList.find? (!isBlank ·) ≠ some '#' ∧
      tokens (joined (tokens source)) = tokens source) ∧
    ∀ ts : List Token,
      (∀ t ∈ ts, t.text ≠ "" ∧ ' ' ∉ t.text.toList ∧ '\n' ∉ t.text.toList) →
      (joined ts).toList.find? (!isBlank ·) ≠ some '#' → tokens (joined ts) = ts := by
  refine ⟨?_, ?_⟩
  · intro source
    have hnormal := normal_tokens source
    exact ⟨hnormal.words, hnormal.visible, tokens_joined hnormal⟩
  · intro ts hwords hvisible
    exact tokens_joined ⟨hwords, hvisible⟩

/-- A token of one tab in front, number signs within and behind, and a carriage return that
ends no line. -/
theorem source_normal_form_tab_and_sign :
    let ts : List Token := [⟨"\t"⟩, ⟨"1!"⟩, ⟨"#"⟩, ⟨"a#\r"⟩]
    (∀ t ∈ ts, t.text ≠ "" ∧ ' ' ∉ t.text.toList ∧ '\n' ∉ t.text.toList) ∧
    (joined ts).toList.find? (!isBlank ·) ≠ some '#' ∧
    joined ts = "\t 1! # a#\r" ∧ tokens "\t 1! # a#\r" = ts := by
  intro ts
  have hwords : ∀ t ∈ ts, t.text ≠ "" ∧ ' ' ∉ t.text.toList ∧ '\n' ∉ t.text.toList := by
    decide +kernel
  have hvisible : (joined ts).toList.find? (!isBlank ·) ≠ some '#' := by decide +kernel
  have hline : joined ts = "\t 1! # a#\r" := by decide +kernel
  have hread := source_normal_form.2 ts hwords hvisible
  rw [hline] at hread
  exact ⟨hwords, hvisible, hline, hread⟩

end Source

end TwoEnded
