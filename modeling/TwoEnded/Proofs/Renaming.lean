/-
TwoEnded.Proofs.Renaming — the names of labels do not matter.

## §1 Words

A token is a word in one of four forms (`Form`): the definition of a label, or the word
unmarked, marked in front or marked behind. The words are plain names, reserved words and
decimal numerals (`IsWord`). None of them holds a mark or a colon (`Unmarked`), so that a form
is read off a token in one way only (`Form.split_of_ne`), and says what the token does
(`Form.instruction_definition`, `Form.instruction_of_ne`).

## §2 Renaming

A map of plain names to plain names renames words and tokens. A plain name stays a plain name,
and any other word stays what it is; so words are renamed injectively if plain names are, and
a renamed word is reserved, or a numeral, if it was before.

## §3 Programs

The table of labels has under the new name what it had under the old one (`Relabelled`), so
that each token does the same as before. This is the `Correspondence` named `relabelling`.
-/
import Mathlib.Logic.Equiv.Basic
import TwoEnded.Proofs.Likeness
import TwoEnded.Proofs.Marks

namespace TwoEnded

/-! ## §1 Words -/

namespace Numeral

/-- Whether the word begins with a digit, or with a sign and a digit. -/
def begins (word : List Char) : Bool := (sign word).2.head?.any Char.isDigit

/-- Whether the word is an optional sign with one digit or more behind it. -/
def isDecimal (word : List Char) : Bool :=
  !(sign word).2.isEmpty && (sign word).2.all Char.isDigit

theorem read_of_begins_eq_false {word : List Char} (h : begins word = false) :
    read word = .notNumeral := by
  unfold begins at h
  simp only [read]
  cases hdigits : (sign word).2 with
  | nil => rfl
  | cons c rest =>
    rw [hdigits] at h
    have hc : c.isDigit = false := by simpa using h
    simp [readDigits, digit?, hc]

/-- The characters of a numeral are a sign and digits. -/
theorem mem_of_isDecimal {word : List Char} (h : isDecimal word = true) {c : Char}
    (hc : c ∈ word) : c = '-' ∨ c = '+' ∨ c.isDigit = true := by
  have hall : ∀ d ∈ (sign word).2, d.isDigit = true := by
    simp only [isDecimal, Bool.and_eq_true, List.all_eq_true] at h
    exact h.2
  unfold sign at hall
  split at hall
  · rcases List.mem_cons.mp hc with rfl | hc
    · exact .inl rfl
    · exact .inr (.inr (hall c hc))
  · rcases List.mem_cons.mp hc with rfl | hc
    · exact .inr (.inl rfl)
    · exact .inr (.inr (hall c hc))
  · exact .inr (.inr (hall c hc))

end Numeral

/-- The word is not empty and holds neither a mark nor a colon. -/
structure Unmarked (word : String) : Prop where
  ne : word ≠ ""
  mark : '!' ∉ word.toList
  colon : ':' ∉ word.toList

/-- The word can be the name of a label and nothing else. -/
structure IsPlain (word : String) : Prop extends Unmarked word where
  reserved : Opcode.ofWord? word = none
  numeral : Numeral.begins word.toList = false

instance (word : String) : Decidable (IsPlain word) :=
  decidable_of_iff
    ((word ≠ "" ∧ '!' ∉ word.toList ∧ ':' ∉ word.toList) ∧ Opcode.ofWord? word = none ∧
      Numeral.begins word.toList = false)
    ⟨fun ⟨⟨hne, hmark, hcolon⟩, hreserved, hnumeral⟩ =>
      ⟨⟨hne, hmark, hcolon⟩, hreserved, hnumeral⟩,
    fun h => ⟨⟨h.ne, h.mark, h.colon⟩, h.reserved, h.numeral⟩⟩

/-- A plain name. -/
structure PlainName where
  text : String
  plain : IsPlain text
  deriving DecidableEq

/-- A plain name, a reserved word or a decimal numeral. -/
inductive IsWord (word : String) : Prop
  | plain (h : IsPlain word)
  | reserved (op : Opcode) (h : word = op.name)
  | numeral (h : Numeral.isDecimal word.toList = true)

instance (word : String) : Decidable (IsWord word) :=
  decidable_of_iff
    (IsPlain word ∨ (Opcode.ofWord? word).isSome = true ∨
      Numeral.isDecimal word.toList = true) <| by
    constructor
    · rintro (h | h | h)
      · exact .plain h
      · obtain ⟨op, hop⟩ := Option.isSome_iff_exists.mp h
        exact .reserved op (Opcode.ofWord?_eq_some_iff.mp hop)
      · exact .numeral h
    · rintro (h | ⟨op, rfl⟩ | h)
      · exact .inl h
      · exact .inr (.inl (by simp))
      · exact .inr (.inr h)

theorem Opcode.unmarked_name (op : Opcode) : Unmarked op.name := by
  cases op with
  | binary op => cases op <;> exact ⟨by decide, by decide, by decide⟩
  | _ => exact ⟨by decide, by decide, by decide⟩

theorem IsWord.unmarked {word : String} (h : IsWord word) : Unmarked word := by
  cases h with
  | plain h => exact h.toUnmarked
  | reserved op h => exact h ▸ op.unmarked_name
  | numeral h =>
    refine ⟨?_, ?_, ?_⟩
    · rintro rfl
      cases h
    · intro hmem
      have := Numeral.mem_of_isDecimal h hmem
      revert this
      decide
    · intro hmem
      have := Numeral.mem_of_isDecimal h hmem
      revert this
      decide

/-- The four forms in which a token has a word. -/
inductive Form where
  | definition
  | unmarked
  | front
  | behind
  deriving DecidableEq, Repr

namespace Form

/-- The token with this word. -/
def token (word : String) : Form → Token
  | .definition => ⟨word ++ ":"⟩
  | .unmarked => ⟨word⟩
  | .front => ⟨"!" ++ word⟩
  | .behind => ⟨word ++ "!"⟩

/-- The end that the form marks. -/
def side : Form → Option Side
  | .front => some .left
  | .behind => some .right
  | _ => none

theorem label?_definition (word : String) : (Form.definition.token word).label? = some word := by
  simp [Token.label?, token]

theorem label?_of_ne {form : Form} (hform : form ≠ .definition) {word : String}
    (h : Unmarked word) : (form.token word).label? = none := by
  have hlast : word.toList.getLast? ≠ some ':' := fun hc => h.colon (List.mem_of_getLast? hc)
  cases form with
  | definition => exact absurd rfl hform
  | unmarked => rw [Token.label?, token, if_neg hlast]
  | front => exact Token.label?_of_bang_front (w := word.toList) (by simp [token]) hlast
  | behind => exact Token.label?_of_bang_behind (w := word.toList) (by simp [token])

theorem split_definition {word : String} (h : Unmarked word) :
    (Form.definition.token word).split = (none, word ++ ":") := by
  apply Token.split_of_no_bang
  simp [token, h.mark]

theorem split_of_ne {form : Form} (hform : form ≠ .definition) {word : String}
    (h : Unmarked word) : (form.token word).split = (form.side, word) := by
  cases form with
  | definition => exact absurd rfl hform
  | unmarked => exact Token.split_of_no_bang h.mark
  | front =>
    rw [Token.split_of_bang_front (w := word.toList) (by simp [token]), String.ofList_toList]
    rfl
  | behind =>
    have hne : word.toList ≠ [] := by simpa using h.ne
    have hhead : word.toList.head? ≠ some '!' := fun hc => h.mark (List.mem_of_head? hc)
    rw [Token.split_of_bang_behind (w := word.toList) (by simp [token]) hne hhead,
      String.ofList_toList]
    rfl

/-- A token that defines a label does nothing. -/
theorem instruction_definition (labels : Labels) {word : String} (h : Unmarked word) :
    (Form.definition.token word).instruction labels = .landmark := by
  simp [Token.instruction, split_definition h, label?_definition]

/-- Any other token does what its word says at the end that it marks. -/
theorem instruction_of_ne (labels : Labels) {form : Form} (hform : form ≠ .definition)
    {word : String} (h : Unmarked word) :
    (form.token word).instruction labels =
      match Opcode.ofWord? word with
      | some op => .apply form.side op
      | none => .push form.side (labels.operand word) := by
  cases hop : Opcode.ofWord? word <;>
    simp [Token.instruction, split_of_ne hform h, label?_of_ne hform h, hop]

end Form

/-- The token has a plain name, a reserved word or a numeral in one of the four forms. -/
def Token.IsSimple (t : Token) : Prop :=
  ∃ (form : Form) (word : String), IsWord word ∧ t = form.token word

/-! ## §2 Renaming -/

section Renaming

variable (f : PlainName → PlainName)

/-- The word with its plain name replaced. -/
def renameWord (word : String) : String :=
  if h : IsPlain word then (f ⟨word, h⟩).text else word

/-- The token with the plain name in it replaced. -/
def Token.rename (t : Token) : Token :=
  match t.label? with
  | some name => Form.definition.token (renameWord f name)
  | none =>
    match t.split with
    | (some .left, word) => Form.front.token (renameWord f word)
    | (some .right, word) => Form.behind.token (renameWord f word)
    | (none, word) => Form.unmarked.token (renameWord f word)

/-- A renamed word is a plain name where the word was one, and else it is the word. -/
theorem renameWord_cases (word : String) :
    (∃ h : IsPlain word, renameWord f word = (f ⟨word, h⟩).text) ∨
      (¬ IsPlain word ∧ renameWord f word = word) := by
  by_cases h : IsPlain word
  · exact .inl ⟨h, by rw [renameWord, dif_pos h]⟩
  · exact .inr ⟨h, by rw [renameWord, dif_neg h]⟩

theorem unmarked_renameWord {word : String} (h : Unmarked word) :
    Unmarked (renameWord f word) := by
  obtain ⟨hplain, hname⟩ | ⟨-, hname⟩ := renameWord_cases f word
  · rw [hname]
    exact (f ⟨word, hplain⟩).plain.toUnmarked
  · rwa [hname]

theorem ofWord?_renameWord (word : String) :
    Opcode.ofWord? (renameWord f word) = Opcode.ofWord? word := by
  obtain ⟨hplain, hname⟩ | ⟨-, hname⟩ := renameWord_cases f word
  · rw [hname, hplain.reserved]
    exact (f ⟨word, hplain⟩).plain.reserved
  · rw [hname]

theorem read_renameWord (word : String) :
    Numeral.read (renameWord f word).toList = Numeral.read word.toList := by
  obtain ⟨hplain, hname⟩ | ⟨-, hname⟩ := renameWord_cases f word
  · rw [hname, Numeral.read_of_begins_eq_false hplain.numeral]
    exact Numeral.read_of_begins_eq_false (f ⟨word, hplain⟩).plain.numeral
  · rw [hname]

/-- The token of a form is renamed by renaming its word. -/
theorem Form.rename_token (form : Form) {word : String} (h : Unmarked word) :
    (form.token word).rename f = form.token (renameWord f word) := by
  by_cases hform : form = .definition
  · rw [hform, Token.rename, label?_definition]
  · rw [Token.rename, label?_of_ne hform h, split_of_ne hform h]
    cases form with
    | definition => exact absurd rfl hform
    | _ => rfl

variable {f}

/-- Different words have different names after the renaming, if plain names have. -/
theorem renameWord_injective (hf : Function.Injective f) : Function.Injective (renameWord f) := by
  intro a b hab
  obtain ⟨ha, hname⟩ | ⟨ha, hname⟩ := renameWord_cases f a
  · obtain ⟨hb, hname'⟩ | ⟨hb, hname'⟩ := renameWord_cases f b
    · have hsame : f ⟨a, ha⟩ = f ⟨b, hb⟩ := by
        have htext : (f ⟨a, ha⟩).text = (f ⟨b, hb⟩).text := by rw [← hname, ← hname', hab]
        cases hfa : f ⟨a, ha⟩
        cases hfb : f ⟨b, hb⟩
        simpa [hfa, hfb] using htext
      exact congrArg PlainName.text (hf hsame)
    · -- A plain name would have become a word that is not plain.
      have hplain := (f ⟨a, ha⟩).plain
      rw [← hname, hab, hname'] at hplain
      exact absurd hplain hb
  · obtain ⟨hb, hname'⟩ | ⟨hb, hname'⟩ := renameWord_cases f b
    · have hplain := (f ⟨b, hb⟩).plain
      rw [← hname', ← hab, hname] at hplain
      exact absurd hplain ha
    · rw [← hname, hab, hname']

end Renaming

/-! ## §3 Programs -/

/-- The second table has under the new names what the first one has under the old ones. -/
def Relabelled (f : PlainName → PlainName) (labels labels' : Labels) : Prop :=
  ∀ word : String, labels'[renameWord f word]? = labels[word]?

section Programs

variable {f : PlainName → PlainName} {labels labels' : Labels}

theorem Relabelled.insert (hf : Function.Injective f) (h : Relabelled f labels labels')
    (name : String) (address : Nat) :
    Relabelled f (labels.insert name address) (labels'.insert (renameWord f name) address) := by
  intro word
  rw [Std.TreeMap.getElem?_insert, Std.TreeMap.getElem?_insert, h word]
  simp [(renameWord_injective hf).eq_iff]

theorem Relabelled.operand (h : Relabelled f labels labels') (word : String) :
    labels'.operand (renameWord f word) = labels.operand word := by
  rw [Labels.operand, Labels.operand, read_renameWord, h word]

/-- A renamed token does what the token did. -/
theorem Relabelled.instruction (h : Relabelled f labels labels') {t : Token} (ht : t.IsSimple) :
    (t.rename f).instruction labels' = t.instruction labels := by
  obtain ⟨form, word, hword, rfl⟩ := ht
  have hunmarked := hword.unmarked
  have hunmarked' := unmarked_renameWord f hunmarked
  rw [form.rename_token f hunmarked]
  by_cases hform : form = .definition
  · rw [hform, Form.instruction_definition _ hunmarked, Form.instruction_definition _ hunmarked']
  · rw [Form.instruction_of_ne _ hform hunmarked, Form.instruction_of_ne _ hform hunmarked',
      ofWord?_renameWord, h.operand]

/-- What becomes of the tables of labels: both can be made, and the second is the first under
the new names, or the same token defines a label a second time. -/
inductive Collected (f : PlainName → PlainName) : Except Fault Labels → Except Fault Labels → Prop
  | ok {labels labels' : Labels} (h : Relabelled f labels labels') :
      Collected f (.ok labels) (.ok labels')
  | duplicate (address : Nat) (token : Token) (name : String) (first : Nat) :
      Collected f (.error (Labels.duplicateFault address token name first))
        (.error (Labels.duplicateFault address (token.rename f) (renameWord f name) first))

theorem label?_rename {t : Token} (ht : t.IsSimple) :
    (t.rename f).label? = t.label?.map (renameWord f) := by
  obtain ⟨form, word, hword, rfl⟩ := ht
  have hunmarked := hword.unmarked
  have hunmarked' := unmarked_renameWord f hunmarked
  rw [form.rename_token f hunmarked]
  by_cases hform : form = .definition
  · rw [hform, Form.label?_definition, Form.label?_definition]
    rfl
  · rw [Form.label?_of_ne hform hunmarked, Form.label?_of_ne hform hunmarked']
    rfl

theorem Relabelled.collect (hf : Function.Injective f) (h : Relabelled f labels labels')
    (address : Nat) {tokens : List Token} (htokens : ∀ t ∈ tokens, t.IsSimple) :
    Collected f (labels.collect address tokens)
      (labels'.collect address (tokens.map (Token.rename f))) := by
  induction tokens generalizing labels labels' address with
  | nil => exact .ok h
  | cons t rest ih =>
    have hrest : ∀ u ∈ rest, u.IsSimple := fun u hu => htokens u (by simp [hu])
    simp only [List.map_cons, Labels.collect, label?_rename (htokens t (by simp))]
    cases t.label? with
    | none => exact ih h (address + 1) hrest
    | some name =>
      simp only [Option.map_some, h name]
      cases labels[name]? with
      | some first => exact .duplicate address t name first
      | none => exact ih (h.insert hf name address) (address + 1) hrest

end Programs

/-- The same values and deques, and renamed tokens. -/
def relabelling (f : PlainName → PlainName) : Correspondence where
  side := id
  deques d d' := d' = d
  values := Eq
  text text := (Token.rename f ⟨text⟩).text
  side_opposite _ := rfl
  word_eq h := Value.word_eq_of_eq h
  refl _ := rfl
  apply op _ _ _ _ ha hb := op.apply_agree_of_eq ha hb
  empty := rfl
  size_eq h := by rw [h]
  insert _ _ _ _ _ hv hd := by rw [hv, hd, id]
  take s d d' hd := by
    subst hd
    rw [id]
    cases d'.take? s with
    | none => exact .none
    | some p => exact .some ⟨rfl, rfl⟩

theorem relabelling_programs {f : PlainName → PlainName} {labels labels' : Labels}
    (h : Relabelled f labels labels') {tokens : List Token} (htokens : ∀ t ∈ tokens, t.IsSimple) :
    (relabelling f).Programs { tokens := tokens.toArray, labels := labels }
      { tokens := (tokens.map (Token.rename f)).toArray, labels := labels' } :=
  Correspondence.programs_of_tokens
    (fun t ht => (h.instruction (htokens t ht)).trans (t.instruction labels).onSide_same.symm)
    fun _ _ => rfl

/-- The event on the machine with the renamed program: the token of a fault is renamed. -/
def Event.rename (f : PlainName → PlainName) : Event → Event
  | .failed fault =>
    .failed { fault with token := fault.token.map fun text => (Token.rename f ⟨text⟩).text }
  | event => event

theorem events_relabelling {f : PlainName → PlainName} {i : Option Instruction} {e e' : Event}
    (h : (relabelling f).Events i e e') : e' = e.rename f := by
  cases h with
  | running => rfl
  | stopped => rfl
  | exit => rfl
  | failed fault => rfl
  | print _ hv => rw [← hv]; rfl
  | trace _ hd => rw [hd]; rfl

namespace Machine

/-- The answers to a call on a machine and on the one with the renamed program: same address,
same deque, and the same event up to the token of a fault. -/
def RenamedAnswer (f : PlainName → PlainName) (a a' : Option Event × Machine) : Prop :=
  a'.2.ip = a.2.ip ∧ a'.2.deque = a.2.deque ∧ a'.1 = a.1.map (Event.rename f)

/-- **Renaming labels preserves behaviour**: for tokens with plain names, reserved words and
numerals in any of the four forms, and a renaming that keeps plain names apart, the tokens
and the renamed tokens can both be loaded, or the same token defines a label a second time.
If they can be loaded, then every call of every session gives the same answer on the two
machines, up to the token of a fault. -/
theorem renaming_preserves_behaviour {f : PlainName → PlainName} (hf : Function.Injective f)
    {tokens : List Token} (h : ∀ t ∈ tokens, t.IsSimple) :
    match Program.load tokens, Program.load (tokens.map (Token.rename f)) with
    | .ok p, .ok p' =>
      ∀ calls : List Call,
        List.Forall₂ (RenamedAnswer f) ((start p false).session calls)
          ((start p' false).session calls)
    | .error g, .error g' => ∃ (address : Nat) (token : Token) (name : String) (first : Nat),
        g = Labels.duplicateFault address token name first ∧
        g' = Labels.duplicateFault address (token.rename f) (renameWord f name) first
    | _, _ => False := by
  have hempty : Relabelled f ∅ ∅ := fun word => by simp
  have hcollected := hempty.collect hf 0 h
  unfold Program.load
  cases hcollect : Labels.collect ∅ 0 tokens with
  | error g =>
    rw [hcollect] at hcollected
    cases hcollect' : Labels.collect ∅ 0 (tokens.map (Token.rename f)) with
    | ok labels' => rw [hcollect'] at hcollected; cases hcollected
    | error g' =>
      rw [hcollect'] at hcollected
      cases hcollected with
      | duplicate address token name first => exact ⟨address, token, name, first, rfl, rfl⟩
  | ok labels =>
    rw [hcollect] at hcollected
    cases hcollect' : Labels.collect ∅ 0 (tokens.map (Token.rename f)) with
    | error g' => rw [hcollect'] at hcollected; cases hcollected
    | ok labels' =>
      rw [hcollect'] at hcollected
      cases hcollected with
      | ok hlabels =>
        intro calls
        have hstart : Alike (relabelling f) _ _
            (start { tokens := tokens.toArray, labels := labels } false)
            (start { tokens := (tokens.map (Token.rename f)).toArray, labels := labels' } false) :=
          ⟨rfl, rfl, rfl, rfl, rfl, rfl, rfl, rfl⟩
        refine (hstart.session (relabelling_programs hlabels h) calls).imp ?_
        rintro ⟨e, m⟩ ⟨e', m'⟩ ⟨halike, hevents⟩
        refine ⟨halike.ip, halike.deque, ?_⟩
        cases hevents with
        | none => rfl
        | some hevent => exact congrArg some (events_relabelling hevent)

/-- Two names are exchanged in a loop that ends with a name that has no definition. -/
theorem renaming_preserves_behaviour_exchange :
    let f : PlainName → PlainName := Equiv.swap ⟨"loop", by decide⟩ ⟨"out", by decide⟩
    let tokens : List Token :=
      [⟨"3!"⟩, ⟨"loop:"⟩, ⟨"-1!"⟩, ⟨"add!"⟩, ⟨"dup!"⟩, ⟨"loop!"⟩, ⟨"jmpif!"⟩, ⟨"add:"⟩, ⟨"!out"⟩]
    let renamed : List Token :=
      [⟨"3!"⟩, ⟨"out:"⟩, ⟨"-1!"⟩, ⟨"add!"⟩, ⟨"dup!"⟩, ⟨"out!"⟩, ⟨"jmpif!"⟩, ⟨"add:"⟩, ⟨"!loop"⟩]
    tokens.map (Token.rename f) = renamed ∧
      ∃ p p', Program.load tokens = .ok p ∧ Program.load renamed = .ok p' ∧
        ∀ calls : List Call, List.Forall₂ (RenamedAnswer f) ((start p false).session calls)
          ((start p' false).session calls) := by
  intro f tokens renamed
  let forms : List (Form × String) :=
    [(.behind, "3"), (.definition, "loop"), (.behind, "-1"), (.behind, "add"), (.behind, "dup"),
      (.behind, "loop"), (.behind, "jmpif"), (.definition, "add"), (.front, "out")]
  have hforms : tokens = forms.map fun x => x.1.token x.2 := by decide +kernel
  have hwords : ∀ x ∈ forms, IsWord x.2 := by decide +kernel
  have hsimple : ∀ t ∈ tokens, t.IsSimple := by
    rw [hforms]
    intro t ht
    obtain ⟨x, hx, rfl⟩ := List.mem_map.mp ht
    exact ⟨x.1, x.2, hwords x hx, rfl⟩
  have hrenamed : tokens.map (Token.rename f) = renamed := by decide +kernel
  have hload : (Program.load tokens).isOk = true := by decide +kernel
  have h := renaming_preserves_behaviour (Equiv.injective _) hsimple (f := f)
  rw [hrenamed] at h
  refine ⟨hrenamed, ?_⟩
  split at h
  · next p p' hp hp' => exact ⟨p, p', hp, hp', h⟩
  · next g g' hg _ =>
    rw [hg] at hload
    cases hload
  · exact h.elim

end Machine

end TwoEnded
