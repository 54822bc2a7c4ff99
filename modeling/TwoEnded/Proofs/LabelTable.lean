/-
TwoEnded.Proofs.LabelTable — the labels of a program are those that its tokens define.

## §1 The table

A token defines a label if it is a name with a colon behind it (`label?_eq_some_iff`).
`Labels.Lists labels tokens` says that the table holds what the tokens define, no more and no
less: a name has an address in it exactly if the token at this address defines the name. So a
name that is defined at all is defined once (`Lists.unique`). This is what holds of the table at
every moment while tokens are collected, for the tokens that have been read.

## §2 The first repetition

Where the table fails to be made, the token at hand defines a name that the table already has.
The tokens before it have a table, and so define no name twice: the token is the first one to
repeat a definition, and there is one definition that it repeats (`FirstRepeat`).
-/
import TwoEnded.Program

namespace TwoEnded

/-! ## §1 The table -/

/-- A token defines a label exactly if it is the name with a colon behind it. -/
theorem Token.label?_eq_some_iff {t : Token} {name : String} :
    t.label? = some name ↔ t = ⟨name ++ ":"⟩ := by
  unfold label?
  constructor
  · intro h
    split at h
    · next hlast =>
      cases h
      obtain ⟨chars, hchars⟩ := List.getLast?_eq_some_iff.mp hlast
      have htext : t.text = String.ofList chars ++ ":" := by
        apply String.toList_inj.mp
        simp [hchars]
      rw [hchars, List.dropLast_concat, ← htext]
    · cases h
  · rintro rfl
    simp

namespace Labels

variable {labels : Labels} {before : List Token}

/-- The table has a name with an address exactly if the token at this address defines it. -/
def Lists (labels : Labels) (tokens : List Token) : Prop :=
  ∀ (name : String) (address : Nat),
    labels[name]? = some address ↔ tokens[address]? = some ⟨name ++ ":"⟩

theorem lists_empty : Lists ∅ [] := by
  intro name address
  simp

/-- No name is defined twice by tokens that have a table. -/
theorem Lists.unique (h : Lists labels before) {name : String} {i j : Nat}
    (hi : before[i]? = some ⟨name ++ ":"⟩) (hj : before[j]? = some ⟨name ++ ":"⟩) : i = j := by
  have hfirst := (h name i).mpr hi
  have hsecond := (h name j).mpr hj
  rw [hfirst] at hsecond
  exact Option.some.inj hsecond

theorem getElem?_concat_eq_some_iff {t u : Token} {address : Nat} :
    (before ++ [t])[address]? = some u ↔
      before[address]? = some u ∨ (address = before.length ∧ t = u) := by
  by_cases hlt : address < before.length
  · simp [List.getElem?_append_left hlt, Nat.ne_of_lt hlt]
  · have hnone : before[address]? = none := List.getElem?_eq_none (by omega)
    rw [List.getElem?_append_right (by omega), hnone]
    by_cases heq : address = before.length
    · simp [heq]
    · have hpast : [t][address - before.length]? = none := by
        apply List.getElem?_eq_none
        simp only [List.length_singleton]
        omega
      simp [hpast, heq]

/-- A token that defines no label adds nothing. -/
theorem Lists.concat_of_none (h : Lists labels before) {t : Token} (ht : t.label? = none) :
    Lists labels (before ++ [t]) := by
  intro name address
  rw [h name address, getElem?_concat_eq_some_iff]
  refine ⟨.inl, ?_⟩
  rintro (hbefore | ⟨-, hdefines⟩)
  · exact hbefore
  · rw [Token.label?_eq_some_iff.mpr hdefines] at ht
    cases ht

/-- A new name has the address of the token that defines it. -/
theorem Lists.concat_of_some (h : Lists labels before) {t : Token} {new : String}
    (ht : t.label? = some new) (hnew : labels[new]? = none) :
    Lists (labels.insert new before.length) (before ++ [t]) := by
  have htext := Token.label?_eq_some_iff.mp ht
  intro name address
  rw [Std.TreeMap.getElem?_insert, getElem?_concat_eq_some_iff, ← h name address]
  by_cases hname : new = name
  · -- It had no address before, and the tokens before do not define it.
    subst hname
    simp [hnew, htext, eq_comm]
  · have hother : t ≠ ⟨name ++ ":"⟩ := by
      rw [htext]
      simpa using hname
    simp [hname, hother]

/-! ## §2 The first repetition -/

/-- The token at `second` is the first one that repeats a definition, and it repeats that at
`first`. -/
structure FirstRepeat (tokens : List Token) (first second : Nat) (name : String) : Prop where
  lt : first < second
  defined : tokens[first]? = some ⟨name ++ ":"⟩
  again : tokens[second]? = some ⟨name ++ ":"⟩
  unique : ∀ i < second, tokens[i]? = some ⟨name ++ ":"⟩ → i = first
  least : ∀ j < second, ∀ i < j, ∀ other : String,
    tokens[j]? = some ⟨other ++ ":"⟩ → tokens[i]? ≠ some ⟨other ++ ":"⟩

theorem Lists.firstRepeat (h : Lists labels before) {t : Token} {name : String} {first : Nat}
    (ht : t.label? = some name) (hfirst : labels[name]? = some first) (rest : List Token) :
    FirstRepeat (before ++ t :: rest) first before.length name := by
  have hdefined := (h name first).mp hfirst
  have hlt : first < before.length := (List.getElem?_eq_some_iff.mp hdefined).1
  have hbefore : ∀ i < before.length, (before ++ t :: rest)[i]? = before[i]? :=
    fun i hi => List.getElem?_append_left hi
  constructor
  case lt => exact hlt
  case defined => rw [hbefore first hlt, hdefined]
  case again => simp [Token.label?_eq_some_iff.mp ht]
  case unique =>
    intro i hi hagain
    rw [hbefore i hi] at hagain
    exact h.unique hagain hdefined
  case least =>
    intro j hj i hi other hdefines hearlier
    rw [hbefore j hj] at hdefines
    rw [hbefore i (by omega)] at hearlier
    have := h.unique hearlier hdefines
    omega

/-- The tokens before have a table. Then those that follow complete it, or one of them is the
first to repeat a definition. -/
theorem Lists.collect (h : Lists labels before) (rest : List Token) :
    match labels.collect before.length rest with
    | .ok labels' => Lists labels' (before ++ rest)
    | .error f => ∃ (first second : Nat) (name : String),
        FirstRepeat (before ++ rest) first second name ∧
        f = duplicateFault second ⟨name ++ ":"⟩ name first := by
  induction rest generalizing labels before with
  | nil => simpa [Labels.collect] using h
  | cons t rest ih =>
    have happend : before ++ t :: rest = (before ++ [t]) ++ rest := by simp
    have hlength : before.length + 1 = (before ++ [t]).length := by simp
    rw [Labels.collect]
    cases hlabel : t.label? with
    | none =>
      rw [happend, hlength]
      exact ih (h.concat_of_none hlabel)
    | some name =>
      cases hfirst : labels[name]? with
      | some first =>
        have ht := Token.label?_eq_some_iff.mp hlabel
        simp only [hfirst]
        exact ⟨first, before.length, name, h.firstRepeat hlabel hfirst rest, by rw [ht]⟩
      | none =>
        simp only [hfirst]
        rw [happend, hlength]
        exact ih (h.concat_of_some hlabel hfirst)

end Labels

namespace Program

open Labels in
/-- What becomes of tokens that are loaded: a program whose table lists their labels, or the
fault of the first token that repeats a definition. -/
theorem load_cases (tokens : List Token) :
    (∃ labels, Lists labels tokens ∧
      load tokens = .ok { tokens := tokens.toArray, labels := labels }) ∨
    (∃ (first second : Nat) (name : String), FirstRepeat tokens first second name ∧
      load tokens = .error (duplicateFault second ⟨name ++ ":"⟩ name first)) := by
  have hcollect := lists_empty.collect tokens
  unfold load
  cases hlabels : Labels.collect ∅ 0 tokens with
  | ok labels =>
    rw [List.length_nil, hlabels] at hcollect
    exact .inl ⟨labels, hcollect, rfl⟩
  | error f =>
    rw [List.length_nil, hlabels] at hcollect
    obtain ⟨first, second, name, hrepeat, rfl⟩ := hcollect
    exact .inr ⟨first, second, name, hrepeat, rfl⟩

/-- **Labels are resolved exactly.** For every list of tokens:

* it can be loaded exactly if no two of its tokens define the same label;
* the program has just these tokens, and a name is the label of an address exactly if the token
  there is the name with a colon behind it, whatever the name;
* otherwise the fault names the first token that repeats a definition, and tells the name and
  the address of the one definition before it. -/
theorem label_resolution_exact (tokens : List Token) :
    ((∃ p, load tokens = .ok p) ↔
      ∀ (name : String) (i j : Nat),
        tokens[i]? = some ⟨name ++ ":"⟩ → tokens[j]? = some ⟨name ++ ":"⟩ → i = j) ∧
    (∀ p, load tokens = .ok p →
      p.size = tokens.length ∧ (∀ i, p.token? i = tokens[i]?) ∧
        ∀ (name : String) (i : Nat), p.label? name = some i ↔ p.token? i = some ⟨name ++ ":"⟩) ∧
    (∀ f, load tokens = .error f →
      ∃ (first second : Nat) (name : String), Labels.FirstRepeat tokens first second name ∧
        f = { kind := .duplicateLabel, address := some second, token := some (name ++ ":"),
              detail := "LABEL `" ++ name ++ "` ALREADY DEFINED AT " ++ Nat.repr first }) := by
  obtain ⟨labels, hlists, hload⟩ | ⟨first, second, name, hrepeat, hload⟩ := load_cases tokens
  · refine ⟨⟨fun _ name i j => hlists.unique, fun _ => ⟨_, hload⟩⟩, fun p hp => ?_, fun f hf => ?_⟩
    · rw [hload] at hp
      cases hp
      refine ⟨by simp [size], fun i => by simp [token?], fun name i => ?_⟩
      simpa [token?, label?] using hlists name i
    · rw [hload] at hf
      cases hf
  · refine ⟨⟨?_, fun hunique => ?_⟩, fun p hp => ?_, fun f hf => ?_⟩
    · rintro ⟨p, hp⟩
      rw [hload] at hp
      cases hp
    · have := hunique name first second hrepeat.defined hrepeat.again
      exact absurd this (Nat.ne_of_lt hrepeat.lt)
    · rw [hload] at hp
      cases hp
    · rw [hload] at hf
      cases hf
      exact ⟨first, second, name, hrepeat, rfl⟩

/-- Two names are defined twice, and the repetition that comes first is of the name that was
defined last. The empty name and a name with a mark in front are labels like any other. -/
theorem label_resolution_exact_crossed :
    let crossed : List Token := [⟨"b:"⟩, ⟨"a:"⟩, ⟨"1!"⟩, ⟨"a:"⟩, ⟨"b:"⟩]
    let odd : List Token := [⟨"1!"⟩, ⟨":"⟩, ⟨"!a:"⟩, ⟨"a"⟩]
    (∃ (f : Fault) (name : String), load crossed = .error f ∧ f.address = some 3 ∧
      Labels.FirstRepeat crossed 1 3 name) ∧
    ∃ p, load odd = .ok p ∧ p.label? "" = some 1 ∧ p.label? "!a" = some 2 ∧
      p.label? "a" ≠ some 3 := by
  intro crossed odd
  constructor
  · have hload : load crossed =
        .error ⟨.duplicateLabel, some 3, some "a:", "LABEL `a` ALREADY DEFINED AT 1"⟩ := rfl
    obtain ⟨first, second, name, hrepeat, hfault⟩ := (label_resolution_exact crossed).2.2 _ hload
    have hsecond : second = 3 := by simpa using (congrArg Fault.address hfault).symm
    subst hsecond
    -- The token at 1 is the one at 3.
    have hfirst : 1 = first := hrepeat.unique 1 (by decide) hrepeat.again
    exact ⟨_, name, hload, rfl, hfirst ▸ hrepeat⟩
  · obtain ⟨p, hp⟩ : ∃ p, load odd = .ok p := ⟨_, rfl⟩
    obtain ⟨-, htokens, hlabels⟩ := (label_resolution_exact odd).2.1 p hp
    refine ⟨p, hp, ?_, ?_, ?_⟩
    · rw [hlabels, htokens]
      rfl
    · rw [hlabels, htokens]
      rfl
    · rw [Ne, hlabels, htokens]
      decide

end Program

end TwoEnded
