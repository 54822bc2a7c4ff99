/-
TwoEnded.Proofs.ArgumentLaws — what a command may expect of the parser of its arguments.

## §1 Laws

The parser is not the command's own, and so the command is not proved against one parser but
against the rules that a parser makes public. `ParserLaws parse` are these rules for a command with
one optional path, one option `--trace`, and a setting of the environment in the place of the
option. Each law is about one rule: what a path is, what a double hyphen does, where the option may
stand, what the setting says if the option is not there.

## §2 Arrangements

`Arranged path trace arguments` says that the arguments hold the path once, perhaps the option, and
perhaps a double hyphen behind the option. From the laws, a parser takes all such arguments for the
same path, and tracing is on if the option is there or the setting does not mean no
(`ParserLaws.invocation`).

## §3 The parser of the command

The laws are not empty: `Command.parse` keeps them (`parserLaws_parse`). What its reader does with
one argument is said once, in `readFrom_cons`, and each law is an induction over the arguments.
-/
import Mathlib.Data.List.Forall2
import TwoEnded.Command.Response

namespace TwoEnded

namespace Command

/-! ## §1 Laws -/

/-- An argument that is read as an option unless it stands behind a double hyphen. -/
def IsOption (argument : String) : Prop := ∃ c rest, argument.toList = '-' :: c :: rest

/-- The arguments in front of the double hyphen, among which options are looked for. -/
def options (arguments : List String) : List String := arguments.takeWhile (· != "--")

/-- The first text is the second one, with any of its letters capitalised. -/
def SameButForCase (text word : String) : Prop :=
  List.Forall₂ (fun c d => c = d ∨ c = d.toUpper) text.toList word.toList

/-- The setting means no. -/
def MeansNo (setting : String) : Prop := ∃ word ∈ offSettings, SameButForCase setting word

/-- The rules of a parser for a command with an optional path, the option `--trace`, and a setting
in the place of the option. -/
structure ParserLaws (parse : List String → Option String → Except Response Invocation) : Prop where
  /-- An argument that is not empty and not an option is the path. -/
  operand : ∀ path, path ≠ "" → ¬ IsOption path → parse [path] none = .ok ⟨some path, false⟩
  /-- Behind a double hyphen every argument that is not empty is a path. -/
  escaped : ∀ path, path ≠ "" → parse ["--", path] none = .ok ⟨some path, false⟩
  /-- A double hyphen with nothing behind it changes nothing. -/
  closing : ∀ arguments setting invocation, "--" ∉ arguments →
    parse arguments setting = .ok invocation → parse (arguments ++ ["--"]) setting = .ok invocation
  /-- The option may stand anywhere in front of the double hyphen, and switches tracing on. -/
  flag : ∀ front rest setting invocation, "--" ∉ front → "--trace" ∉ options (front ++ rest) →
    parse (front ++ rest) setting = .ok invocation →
    parse (front ++ "--trace" :: rest) setting = .ok { invocation with trace := true }
  /-- If the option is not there, the setting says whether to trace: no, if it means no. -/
  setting : ∀ arguments text invocation, "--trace" ∉ options arguments →
    parse arguments none = .ok invocation →
    ∃ trace, parse arguments (some text) = .ok { invocation with trace := trace } ∧
      (trace = false ↔ MeansNo text)

/-! ## §2 Arrangements -/

/-- The tracing option, if it is given. -/
def flag (trace : Bool) : List String := if trace then ["--trace"] else []

/-- The arguments that give a path once and the tracing option or not. -/
inductive Arranged (path : String) (trace : Bool) : List String → Prop
  | plain {arguments : List String} (hpath : ¬ IsOption path)
      (h : arguments.Perm (path :: flag trace)) : Arranged path trace arguments
  | closed {arguments : List String} (hpath : ¬ IsOption path)
      (h : arguments.Perm (path :: flag trace)) : Arranged path trace (arguments ++ ["--"])
  | behind : Arranged path trace (flag trace ++ ["--", path])

/-- Tracing is asked for, by the option or by the setting. -/
def Traced (trace : Bool) (setting : Option String) : Prop :=
  trace = true ∨ ∃ text, setting = some text ∧ ¬ MeansNo text

section Words

variable {path : String} (hpath : ¬ IsOption path)

include hpath

theorem ne_of_isOption {word : String} (h : IsOption word) : path ≠ word := by
  rintro rfl
  exact hpath h

theorem ne_dashes : path ≠ "--" := ne_of_isOption hpath ⟨'-', [], by decide⟩

theorem ne_flag : path ≠ "--trace" :=
  ne_of_isOption hpath ⟨'-', ['t', 'r', 'a', 'c', 'e'], by decide⟩

end Words

theorem options_cons (argument : String) (rest : List String) :
    options (argument :: rest) = if argument = "--" then [] else argument :: options rest := by
  by_cases h : argument = "--" <;> simp [options, h]

/-- The arguments without the option: a path, with a double hyphen on either side of it or none. -/
inductive Bare (path : String) : List String → Prop
  | plain (hpath : ¬ IsOption path) : Bare path [path]
  | closed (hpath : ¬ IsOption path) : Bare path [path, "--"]
  | behind : Bare path ["--", path]

theorem Bare.not_mem_options {path : String} {arguments : List String} (h : Bare path arguments) :
    "--trace" ∉ options arguments := by
  cases h with
  | plain hpath => simp [options, ne_dashes hpath, (ne_flag hpath).symm]
  | closed hpath => simp [options_cons, ne_dashes hpath, (ne_flag hpath).symm]
  | behind => simp [options_cons]

/-- The path and the option, in either order. -/
theorem exists_front {path : String} {trace : Bool} {arguments : List String}
    (hpath : ¬ IsOption path) (h : arguments.Perm (path :: flag trace)) :
    ∃ front rest, arguments = front ++ flag trace ++ rest ∧ "--" ∉ front ∧
      front ++ rest = [path] := by
  have hdashes : "--" ∉ [path] := by simpa using (ne_dashes hpath).symm
  cases trace with
  | false => exact ⟨[path], [], by simpa [flag] using List.perm_singleton.mp h, hdashes, rfl⟩
  | true =>
    obtain ⟨x, y, rfl⟩ := List.length_eq_two.mp h.length_eq
    have hx : x = path ∨ x = "--trace" := by simpa [flag] using h.subset (List.mem_cons_self ..)
    rcases hx with rfl | rfl
    · have hy := List.perm_singleton.mp (List.Perm.cons_inv h)
      exact ⟨[x], [], by rw [hy]; rfl, hdashes, rfl⟩
    · have hy := List.perm_singleton.mp (List.Perm.cons_inv (h.trans (.swap ..)))
      exact ⟨[], [path], by rw [hy]; rfl, by simp, rfl⟩

/-- Arranged arguments are bare ones with the option put in front of the double hyphen. -/
theorem Arranged.exists_bare {path : String} {trace : Bool} {arguments : List String}
    (h : Arranged path trace arguments) :
    ∃ front rest, arguments = front ++ flag trace ++ rest ∧ "--" ∉ front ∧
      Bare path (front ++ rest) := by
  cases h with
  | plain hpath hperm =>
    obtain ⟨front, rest, rfl, hfront, hbare⟩ := exists_front hpath hperm
    exact ⟨front, rest, rfl, hfront, hbare ▸ .plain hpath⟩
  | closed hpath hperm =>
    obtain ⟨front, rest, rfl, hfront, hbare⟩ := exists_front hpath hperm
    refine ⟨front, rest ++ ["--"], by simp, hfront, ?_⟩
    rw [← List.append_assoc, hbare]
    exact .closed hpath
  | behind => exact ⟨[], ["--", path], by simp, by simp, .behind⟩

namespace ParserLaws

variable {parse : List String → Option String → Except Response Invocation} (h : ParserLaws parse)
  {path : String} (hne : path ≠ "")

include h hne

theorem bare {arguments : List String} (hbare : Bare path arguments) :
    parse arguments none = .ok ⟨some path, false⟩ := by
  cases hbare with
  | plain hpath => exact h.operand path hne hpath
  | closed hpath =>
    refine h.closing [path] none _ ?_ (h.operand path hne hpath)
    simpa using (ne_dashes hpath).symm
  | behind => exact h.escaped path hne

/-- Without the option, the setting decides. -/
theorem bare_setting {arguments : List String} (hbare : Bare path arguments)
    (setting : Option String) :
    ∃ tracing, parse arguments setting = .ok ⟨some path, tracing⟩ ∧
      (tracing = true ↔ Traced false setting) := by
  have hnone := h.bare hne hbare
  cases setting with
  | none => exact ⟨false, hnone, by simp [Traced]⟩
  | some text =>
    obtain ⟨tracing, hparse, hno⟩ := h.setting arguments text _ hbare.not_mem_options hnone
    refine ⟨tracing, hparse, ?_⟩
    rw [← Bool.not_eq_false, hno]
    simp [Traced]

/-- **Arranged arguments are understood**: the path is the one that is given, and tracing is on
exactly if it is asked for by the option or by the setting. -/
theorem invocation {trace : Bool} {arguments : List String}
    (harranged : Arranged path trace arguments) (setting : Option String) :
    ∃ tracing, parse arguments setting = .ok ⟨some path, tracing⟩ ∧
      (tracing = true ↔ Traced trace setting) := by
  obtain ⟨front, rest, rfl, hfront, hbare⟩ := harranged.exists_bare
  obtain ⟨tracing, hparse, htracing⟩ := h.bare_setting hne hbare setting
  cases trace with
  | false => exact ⟨tracing, by simpa [Command.flag] using hparse, htracing⟩
  | true =>
    have hflag := h.flag front rest setting _ hfront hbare.not_mem_options hparse
    exact ⟨true, by simpa [Command.flag] using hflag, by simp [Traced]⟩

end ParserLaws

/-! ## §3 The parser of the command -/

namespace Request

variable {path p : Option String} {trace t : Bool}

/-- Reading paths does not depend on the option, and keeps it. -/
theorem readPaths_eq_run {arguments : List String}
    (h : readPaths path trace arguments = some (.run p t)) :
    t = trace ∧ ∀ trace', readPaths path trace' arguments = some (.run p trace') := by
  induction arguments generalizing path with
  | nil =>
    cases h
    exact ⟨rfl, fun _ => rfl⟩
  | cons argument rest ih =>
    rw [readPaths] at h
    split at h
    · cases h
    · next hpath =>
      obtain ⟨htrace, hrest⟩ := ih h
      exact ⟨htrace, fun trace' => by rw [readPaths, if_neg hpath, hrest]⟩

/-- An argument that is not an option is taken as the path, if it can be one. -/
theorem readFrom_operand {argument : String} (hargument : ¬ IsOption argument)
    (rest : List String) :
    readFrom path trace (argument :: rest) =
      if argument = "" || path.isSome then none else readFrom (some argument) trace rest := by
  have hhelp : argument ≠ "--help" :=
    ne_of_isOption hargument ⟨'-', ['h', 'e', 'l', 'p'], by decide⟩
  have hversion : argument ≠ "--version" :=
    ne_of_isOption hargument ⟨'-', ['v', 'e', 'r', 's', 'i', 'o', 'n'], by decide⟩
  rw [readFrom, if_neg (ne_dashes hargument), if_neg (ne_flag hargument), if_neg hhelp,
    if_neg hversion]
  split
  · next chars h => exact absurd ⟨'h', chars, h⟩ hargument
  · next chars h => exact absurd ⟨'V', chars, h⟩ hargument
  · next c chars _ _ h => exact absurd ⟨c, chars, h⟩ hargument
  · rfl

/-- Any other option is refused, or asks for help or for the version. -/
theorem readFrom_option {argument : String} (hargument : IsOption argument)
    (hdashes : argument ≠ "--") (hflag : argument ≠ "--trace") (rest : List String) :
    readFrom path trace (argument :: rest) ≠ some (.run p t) := by
  obtain ⟨c, chars, hchars⟩ := hargument
  rw [readFrom, if_neg hdashes, if_neg hflag]
  split
  · simp
  · split
    · simp
    · split
      · simp
      · simp
      · simp
      · next hother => exact absurd hchars (hother c chars)

/-- What the first argument is if the command is asked to run. -/
theorem readFrom_cons {argument : String} {rest : List String}
    (h : readFrom path trace (argument :: rest) = some (.run p t)) :
    (argument = "--" ∧ readPaths path trace rest = some (.run p t)) ∨
    (argument = "--trace" ∧ readFrom path true rest = some (.run p t)) ∨
    (¬ IsOption argument ∧ readFrom (some argument) trace rest = some (.run p t) ∧
      ∀ trace' rest', readFrom path trace' (argument :: rest') =
        readFrom (some argument) trace' rest') := by
  by_cases hdashes : argument = "--"
  · rw [readFrom, if_pos hdashes] at h
    exact .inl ⟨hdashes, h⟩
  · by_cases hflag : argument = "--trace"
    · rw [readFrom, if_neg hdashes, if_pos hflag] at h
      split at h
      · cases h
      · exact .inr (.inl ⟨hflag, h⟩)
    · by_cases hoption : IsOption argument
      · exact absurd h (readFrom_option hoption hdashes hflag rest)
      · rw [readFrom_operand hoption] at h
        split at h
        · cases h
        · next hpath =>
          refine .inr (.inr ⟨hoption, h, fun trace' rest' => ?_⟩)
          rw [readFrom_operand hoption, if_neg hpath]

/-- If the option is not there, reading does not depend on it, and keeps it. -/
theorem readFrom_eq_run {arguments : List String} (hflag : "--trace" ∉ options arguments)
    (h : readFrom path trace arguments = some (.run p t)) :
    t = trace ∧ ∀ trace', readFrom path trace' arguments = some (.run p trace') := by
  induction arguments generalizing path with
  | nil =>
    cases h
    exact ⟨rfl, fun _ => rfl⟩
  | cons argument rest ih =>
    rw [options_cons] at hflag
    obtain ⟨rfl, hpaths⟩ | ⟨rfl, -⟩ | ⟨hoption, hrest, hstep⟩ := readFrom_cons h
    · obtain ⟨htrace, hother⟩ := readPaths_eq_run hpaths
      exact ⟨htrace, fun trace' => by rw [readFrom, if_pos rfl, hother]⟩
    · simp at hflag
    · rw [if_neg (ne_dashes hoption), List.mem_cons, not_or] at hflag
      obtain ⟨htrace, hother⟩ := ih hflag.2 hrest
      exact ⟨htrace, fun trace' => by rw [hstep, hother]⟩

theorem readFrom_closing {arguments : List String} (hdashes : "--" ∉ arguments)
    (h : readFrom path trace arguments = some (.run p t)) :
    readFrom path trace (arguments ++ ["--"]) = some (.run p t) := by
  induction arguments generalizing path trace with
  | nil => simpa [readFrom, readPaths] using h
  | cons argument rest ih =>
    rw [List.mem_cons, not_or] at hdashes
    obtain ⟨rfl, -⟩ | ⟨rfl, hrest⟩ | ⟨-, hrest, hstep⟩ := readFrom_cons h
    · exact absurd rfl hdashes.1
    · have hoff : trace = false := by
        cases trace with
        | false => rfl
        | true => simp [readFrom] at h
      subst hoff
      simpa [readFrom] using ih hdashes.2 hrest
    · rw [List.cons_append, hstep]
      exact ih hdashes.2 hrest

theorem readFrom_flag {front rest : List String} (hdashes : "--" ∉ front)
    (hflag : "--trace" ∉ options (front ++ rest))
    (h : readFrom path false (front ++ rest) = some (.run p t)) :
    readFrom path false (front ++ "--trace" :: rest) = some (.run p true) := by
  induction front generalizing path with
  | nil =>
    have hrest := (readFrom_eq_run hflag h).2 true
    simpa [readFrom] using hrest
  | cons argument front ih =>
    rw [List.mem_cons, not_or] at hdashes
    rw [List.cons_append, options_cons] at hflag
    obtain ⟨rfl, -⟩ | ⟨rfl, -⟩ | ⟨hoption, hrest, hstep⟩ := readFrom_cons h
    · exact absurd rfl hdashes.1
    · simp at hflag
    · rw [if_neg (ne_dashes hoption), List.mem_cons, not_or] at hflag
      rw [List.cons_append, hstep]
      exact ih hdashes.2 hflag.2 hrest

end Request

/-- The letters whose small form is a given character. -/
theorem toLower_eq_iff {c d : Char} (hd : d.isUpper = false) :
    c.toLower = d ↔ c = d ∨ c = d.toUpper := by
  delta Char.isUpper at hd
  delta Char.toLower Char.toUpper
  simp only [decide_eq_false_iff_not, Char.reduceVal] at hd ⊢
  split <;> split <;> simp only [Char.ext_iff] <;> grind

theorem map_toLower_eq_iff {cs ds : List Char} (h : ∀ d ∈ ds, d.isUpper = false) :
    cs.map Char.toLower = ds ↔ List.Forall₂ (fun c d => c = d ∨ c = d.toUpper) cs ds := by
  induction cs generalizing ds with
  | nil => cases ds <;> simp
  | cons c cs ih =>
    cases ds with
    | nil => simp
    | cons d ds =>
      obtain ⟨hd, hds⟩ := List.forall_mem_cons.mp h
      rw [List.map_cons, List.cons.injEq, List.forall₂_cons, toLower_eq_iff hd, ih hds]

/-- A setting that is there asks for tracing if it does not mean no. -/
theorem isSwitchedOn_eq_false_iff (text : String) :
    isSwitchedOn (some text) = false ↔ MeansNo text := by
  have hsmall : ∀ word ∈ offSettings, ∀ d ∈ word.toList, d.isUpper = false := by
    have hall : offSettings.all (fun word => word.toList.all fun d => !d.isUpper) = true := by
      decide
    simpa using hall
  have hword : ∀ word ∈ offSettings,
      String.ofList (text.toList.map Char.toLower) = word ↔ SameButForCase text word := by
    intro word hmem
    rw [SameButForCase, ← map_toLower_eq_iff (hsmall word hmem), ← String.toList_inj,
      String.toList_ofList]
  have hno : String.ofList (text.toList.map Char.toLower) ∈ offSettings ↔ MeansNo text := by
    constructor
    · intro hmem
      exact ⟨_, hmem, (hword _ hmem).mp rfl⟩
    · rintro ⟨word, hmem, hsame⟩
      rw [(hword word hmem).mpr hsame]
      exact hmem
  simp [isSwitchedOn, hno]

theorem parse_eq_ok_iff {arguments : List String} {setting : Option String}
    {invocation : Invocation} :
    parse arguments setting = .ok invocation ↔
      ∃ trace, Request.read arguments = some (.run invocation.path trace) ∧
        (trace || isSwitchedOn setting) = invocation.trace := by
  constructor
  · intro h
    unfold parse at h
    split at h
    · cases h
    · cases h
    · cases h
    · next hread =>
      cases h
      exact ⟨_, hread, rfl⟩
  · rintro ⟨trace, hread, htrace⟩
    simp only [parse, hread, htrace]

/-- The parser of the command keeps the laws. -/
theorem parserLaws_parse : ParserLaws parse where
  operand := by
    intro path hne hpath
    refine parse_eq_ok_iff.mpr ⟨false, ?_, rfl⟩
    rw [Request.read, Request.readFrom_operand hpath]
    simp [hne, Request.readFrom]
  escaped := by
    intro path hne
    refine parse_eq_ok_iff.mpr ⟨false, ?_, rfl⟩
    simp [Request.read, Request.readFrom, Request.readPaths, hne]
  closing := by
    intro arguments setting invocation hdashes h
    obtain ⟨trace, hread, htrace⟩ := parse_eq_ok_iff.mp h
    exact parse_eq_ok_iff.mpr ⟨trace, Request.readFrom_closing hdashes hread, htrace⟩
  flag := by
    intro front rest setting invocation hdashes hflag h
    obtain ⟨trace, hread, -⟩ := parse_eq_ok_iff.mp h
    exact parse_eq_ok_iff.mpr ⟨true, Request.readFrom_flag hdashes hflag hread, rfl⟩
  setting := by
    intro arguments text invocation hflag h
    obtain ⟨trace, hread, -⟩ := parse_eq_ok_iff.mp h
    obtain ⟨rfl, -⟩ := Request.readFrom_eq_run hflag hread
    refine ⟨isSwitchedOn (some text), ?_, isSwitchedOn_eq_false_iff text⟩
    exact parse_eq_ok_iff.mpr ⟨false, hread, rfl⟩

end Command

end TwoEnded
