/-
TwoEnded.Proofs.TraceText — the lines of a traced run can be told apart and read.

## §1 Cuts

A text can be cut at the first occurrence of a character (`Text.append_cons_inj`). So parts with
commas between them and lines with line feeds behind them can be found again, if they hold no
commas and no line feeds themselves.

## §2 Values and deques

Values are written differently if they are different, the integer 1 and the boolean `true`
included, and with letters, digits and the minus sign only. So the commas in the text of a deque
are those between its values.

## §3 Announcements

The line that announces an instruction is the address, a colon and a space, the token, an arrow
between spaces, and the deque. A token may hold colons, arrows and brackets, so the cuts are made
from the left: at the first colon, since there is none in the address, and then at the first
space behind it, since there is none in a token that comes from a source text.

## §4 Kinds of lines

A traced run has lines of four kinds (`LineKind`). `Machine.Tells` says what line of which kind a
machine is about to tell, and every line of a run is told so by a machine on its way
(`Machine.exists_tells`). The kind can be read off the line (`LineKind.ofText`).
-/
import TwoEnded.Proofs.Decimal
import TwoEnded.Proofs.NormalForm
import TwoEnded.Proofs.Sink

namespace TwoEnded

/-! ## §1 Cuts -/

namespace Text

/-- Texts that are equal up to the first occurrence of a character are equal before and behind
it. -/
theorem append_cons_inj {c : Char} {a a' b b' : List Char} (ha : c ∉ a) (ha' : c ∉ a')
    (h : a ++ c :: b = a' ++ c :: b') : a = a' ∧ b = b' := by
  induction a generalizing a' with
  | nil =>
    cases a' with
    | nil => exact ⟨rfl, (List.cons.inj h).2⟩
    | cons x a' => exact absurd (by rw [(List.cons.inj h).1]; simp) ha'
  | cons x a ih =>
    cases a' with
    | nil => exact absurd (by rw [← (List.cons.inj h).1]; simp) ha
    | cons x' a' =>
      obtain ⟨hx, hrest⟩ := List.cons.inj h
      obtain ⟨hab, hb⟩ := ih (fun hc => ha (by simp [hc])) (fun hc => ha' (by simp [hc])) hrest
      exact ⟨by rw [hx, hab], hb⟩

/-- Parts that are not empty and hold no comma are determined by the text that they make up with
commas between them. -/
theorem intercalate_comma_injective {ts ts' : List (List Char)}
    (hts : ∀ t ∈ ts, t ≠ [] ∧ ',' ∉ t) (hts' : ∀ t ∈ ts', t ≠ [] ∧ ',' ∉ t)
    (h : [',', ' '].intercalate ts = [',', ' '].intercalate ts') : ts = ts' := by
  induction ts generalizing ts' with
  | nil =>
    match ts' with
    | [] => rfl
    | [t'] => exact absurd (by simpa using h.symm) (hts' t' (by simp)).1
    | t' :: u' :: rest' => simp [List.intercalate_cons_cons] at h
  | cons t rest ih =>
    obtain ⟨hne, hcomma⟩ := hts t (by simp)
    match rest, ts' with
    | [], [] => exact absurd (by simpa using h) hne
    | [], [t'] => simpa using h
    | [], t' :: u' :: rest' =>
      -- The text on the right holds a comma, and that on the left does not.
      rw [List.intercalate_singleton, List.intercalate_cons_cons] at h
      exact absurd (by rw [h]; simp) hcomma
    | u :: rest, [] => simp [List.intercalate_cons_cons] at h
    | u :: rest, [t'] =>
      rw [List.intercalate_singleton, List.intercalate_cons_cons] at h
      exact absurd (by rw [← h]; simp) (hts' t' (by simp)).2
    | u :: rest, t' :: u' :: rest' =>
      rw [List.intercalate_cons_cons, List.intercalate_cons_cons, List.append_assoc,
        List.append_assoc] at h
      obtain ⟨rfl, hbehind⟩ := append_cons_inj hcomma (hts' t' (by simp)).2 h
      have hrest := ih (fun v hv => hts v (by simp [hv])) (fun v hv => hts' v (by simp [hv]))
        (List.cons.inj hbehind).2
      rw [hrest]

end Text

/-- Lines without line feeds are determined by the text that is written of them. -/
theorem Writer.page_injective {lines lines' : List String}
    (h : ∀ text ∈ lines, '\n' ∉ text.toList) (h' : ∀ text ∈ lines', '\n' ∉ text.toList)
    (hpage : page lines = page lines') : lines = lines' := by
  have hfeed : "\n".toList = ['\n'] := by decide
  have htoList : ∀ (text : String) (lines : List String),
      (page (text :: lines)).toList = text.toList ++ '\n' :: (page lines).toList := by
    intro text lines
    simp [hfeed]
  induction lines generalizing lines' with
  | nil =>
    cases lines' with
    | nil => rfl
    | cons text' lines' => simpa [htoList] using congrArg String.toList hpage
  | cons text lines ih =>
    cases lines' with
    | nil => simpa [htoList] using congrArg String.toList hpage
    | cons text' lines' =>
      have hchars := congrArg String.toList hpage
      rw [htoList, htoList] at hchars
      obtain ⟨htext, hrest⟩ := Text.append_cons_inj (h text (by simp)) (h' text' (by simp)) hchars
      have hlines := ih (fun t ht => h t (by simp [ht])) (fun t ht => h' t (by simp [ht]))
        (String.toList_injective hrest)
      rw [String.toList_injective htext, hlines]

/-! ## §2 Values and deques -/

/-- A value is written with letters, digits and the minus sign. -/
theorem Value.mem_text {v : Value} {c : Char} (h : c ∈ v.text.toList) :
    c = '-' ∨ c.isAlphanum = true := by
  cases v with
  | int n =>
    rcases Numeral.mem_write h with rfl | hdigit
    · exact .inl rfl
    · exact .inr (by simp [Char.isAlphanum, hdigit])
  | bool b =>
    have hletters : (Value.bool b).text.toList.all Char.isAlphanum = true := by
      cases b <;> decide
    exact .inr (List.all_eq_true.mp hletters c h)

theorem Value.text_ne_empty (v : Value) : v.text.toList ≠ [] := by
  cases v with
  | int n => exact Numeral.toList_write_ne_nil _
  | bool b => cases b <;> decide

/-- A written integer is not a word of letters. -/
theorem Value.text_int_ne_text_bool (n : Int64) (b : Bool) :
    (Value.int n).text ≠ (Value.bool b).text := by
  intro h
  have hletter : ∃ c ∈ (Value.bool b).text.toList, ¬ (c = '-' ∨ c.isDigit = true) := by
    cases b
    · exact ⟨'f', by decide⟩
    · exact ⟨'t', by decide⟩
  obtain ⟨c, hc, hnot⟩ := hletter
  rw [← h] at hc
  exact hnot (Numeral.mem_write hc)

/-- Different values are written differently. -/
theorem Value.text_injective {v v' : Value} (h : v.text = v'.text) : v = v' := by
  cases v with
  | int n =>
    cases v' with
    | int n' => rw [Int64.toInt_inj.mp (Numeral.write_injective h)]
    | bool b' => exact absurd h (text_int_ne_text_bool n b')
  | bool b =>
    cases v' with
    | int n' => exact absurd h.symm (text_int_ne_text_bool n' b)
    | bool b' =>
      revert h
      cases b <;> cases b' <;> decide

namespace Deque

theorem toList_text (d : Deque Value) :
    d.text.toList =
      '[' :: ([',', ' '].intercalate (d.toList.map fun v => v.text.toList) ++ [']']) := by
  have hcomma : ", ".toList = [',', ' '] := by decide
  simp [text, String.toList_intercalate, hcomma, Function.comp_def]

/-- The text of a deque is made of the characters of its values, brackets, commas and spaces. -/
theorem mem_text {d : Deque Value} {c : Char} (h : c ∈ d.text.toList) :
    c ∈ ['[', ']', ',', ' ', '-'] ∨ c.isAlphanum = true := by
  rw [toList_text] at h
  rcases List.mem_cons.mp h with rfl | h
  · exact .inl (by decide)
  rcases List.mem_append.mp h with h | h
  · rcases Text.mem_intercalate h with hcomma | ⟨t, ht, hc⟩
    · have : c = ',' ∨ c = ' ' := by simpa using hcomma
      rcases this with rfl | rfl <;> exact .inl (by decide)
    · obtain ⟨v, -, rfl⟩ := List.mem_map.mp ht
      rcases Value.mem_text hc with rfl | hc
      · exact .inl (by decide)
      · exact .inr hc
  · rw [List.mem_singleton.mp h]
    exact .inl (by decide)

/-- The text of a deque determines its values. -/
theorem text_injective {d d' : Deque Value} (h : d.text = d'.text) : d.toList = d'.toList := by
  have hparts : ∀ (d : Deque Value), ∀ t ∈ d.toList.map (fun v => v.text.toList),
      t ≠ [] ∧ ',' ∉ t := by
    intro d t ht
    obtain ⟨v, -, rfl⟩ := List.mem_map.mp ht
    exact ⟨v.text_ne_empty, fun hcomma => absurd (Value.mem_text hcomma) (by decide)⟩
  have hchars := congrArg String.toList h
  rw [toList_text, toList_text] at hchars
  have hinner := List.append_cancel_right (List.cons.inj hchars).2
  have htexts := Text.intercalate_comma_injective (hparts d) (hparts d') hinner
  exact (List.map_inj_right fun v v' hv =>
    Value.text_injective (String.toList_injective hv)).mp htexts

/-- A row is made of stars and spaces. -/
theorem mem_row {d : Deque Value} {c : Char} (h : c ∈ d.row.toList) : c = '*' ∨ c = ' ' := by
  rw [row, String.toList_ofList] at h
  obtain ⟨v, -, rfl⟩ := List.mem_map.mp h
  split
  · exact .inl rfl
  · exact .inr rfl

end Deque

/-! ## §3 Announcements -/

/-- A token of a program that comes from a source text holds neither a space nor a line feed. -/
theorem Program.token_of_source {source : String} {p : Program} (hp : ofSource source = .ok p)
    {address : Nat} {t : Token} (ht : p.token? address = some t) :
    ' ' ∉ t.text.toList ∧ '\n' ∉ t.text.toList := by
  have hmem : t ∈ Source.tokens source := by
    rw [ofSource, load] at hp
    split at hp
    · cases hp
      exact Array.mem_toList_iff.mpr (Array.mem_of_getElem? ht)
    · cases hp
  exact ((Source.normal_tokens source).words t hmem).2

namespace Machine

/-- The machine has a program that comes from a source text. -/
def HasSource (m : Machine) : Prop := ∃ source, Program.ofSource source = .ok m.program

section Announcement

variable {m m' : Machine} {t t' : Token}

theorem toList_announcement (ht : m.program.token? m.ip = some t) :
    m.announcement.toList =
      (Nat.repr m.ip).toList ++
        ':' :: ' ' :: (t.text.toList ++ ' ' :: '<' :: '-' :: ' ' :: m.deque.text.toList) := by
  have hcolon : ": ".toList = [':', ' '] := by decide
  have harrow : " <- ".toList = [' ', '<', '-', ' '] := by decide
  simp [announcement, tokenText, ht, hcolon, harrow]

/-- An announcement determines the address, the token and the values of the deque. -/
theorem announcement_injective (hm : m.HasSource) (hm' : m'.HasSource)
    (ht : m.program.token? m.ip = some t) (ht' : m'.program.token? m'.ip = some t')
    (h : m.announcement = m'.announcement) :
    m.ip = m'.ip ∧ t = t' ∧ m.deque.toList = m'.deque.toList := by
  obtain ⟨source, hsource⟩ := hm
  obtain ⟨source', hsource'⟩ := hm'
  have hchars := congrArg String.toList h
  rw [toList_announcement ht, toList_announcement ht'] at hchars
  have hdigits : ∀ n : Nat, ':' ∉ (Nat.repr n).toList := by
    intro n hcolon
    exact absurd (Numeral.isDigit_of_mem_repr hcolon) (by decide)
  obtain ⟨haddress, hbehind⟩ := Text.append_cons_inj (hdigits _) (hdigits _) hchars
  obtain ⟨htoken, hrest⟩ := Text.append_cons_inj (Program.token_of_source hsource ht).1
    (Program.token_of_source hsource' ht').1 (List.cons.inj hbehind).2
  have hdeque : m.deque.text.toList = m'.deque.text.toList := by simpa using hrest
  exact ⟨Nat.repr_inj.mp (String.toList_injective haddress),
    congrArg Token.mk (String.toList_injective htoken),
    Deque.text_injective (String.toList_injective hdeque)⟩

/-- An announcement takes one line. -/
theorem not_mem_announcement (hm : m.HasSource) (ht : m.program.token? m.ip = some t) :
    '\n' ∉ m.announcement.toList := by
  obtain ⟨source, hsource⟩ := hm
  have haddress : '\n' ∉ (Nat.repr m.ip).toList := fun hfeed =>
    absurd (Numeral.isDigit_of_mem_repr hfeed) (by decide)
  have htoken := (Program.token_of_source hsource ht).2
  have hdeque : '\n' ∉ m.deque.text.toList := fun hfeed =>
    absurd (Deque.mem_text hfeed) (by decide)
  rw [toList_announcement ht]
  simp only [List.mem_append, List.mem_cons, not_or]
  exact ⟨haddress, by decide, by decide, htoken, by decide, by decide, by decide, by decide,
    hdeque⟩

end Announcement

end Machine

/-! ## §4 Kinds of lines -/

/-- The kinds of lines that a traced run has. -/
inductive LineKind where
  /-- The next instruction with the deque before it. -/
  | announcement
  /-- The deque at the end of the program. -/
  | closing
  /-- A value that the program prints. -/
  | print
  /-- The deque that the program shows as a row of cells. -/
  | row
  deriving DecidableEq, Repr

/-- The kind of a line, read off its text. -/
def LineKind.ofText (text : String) : LineKind :=
  match text.toList.head? with
  | none => .row
  | some first =>
    if first = '[' then .closing
    else if first = '*' ∨ first = ' ' then .row
    else if ':' ∈ text.toList then .announcement
    else .print

/-- A line that begins as a number or a word does is an announcement or a printed value, and the
colon tells which. -/
theorem LineKind.ofText_of_first {text : String} {first : Char} {rest : List Char}
    (h : text.toList = first :: rest) (hfirst : first = '-' ∨ first.isAlphanum = true) :
    ofText text = if ':' ∈ text.toList then .announcement else .print := by
  have hbracket : first ≠ '[' := by
    rintro rfl
    exact absurd hfirst (by decide)
  have hcell : ¬ (first = '*' ∨ first = ' ') := by
    rintro (rfl | rfl) <;> exact absurd hfirst (by decide)
  rw [ofText, h, List.head?_cons]
  dsimp only
  rw [if_neg hbracket, if_neg hcell]

/-- Only `print` and `trace` say a line: a value that is popped, and the row of the deque. -/
theorem Instruction.perform_line {i : Instruction} {d d' : Deque Value} {text : String}
    (h : i.perform d = .ok (.say text) d') :
    ∃ side, (∃ v, i = .apply side .print ∧ Deque.pop side d = .ok v d' ∧ text = v.text) ∨
      (i = .apply side .trace ∧ text = d.row) := by
  cases i with
  | landmark => cases h
  | push side operand =>
    obtain ⟨v, e, -, hpush⟩ := Action.bind_eq_ok h
    obtain ⟨u, e', -, hnext⟩ := Action.bind_eq_ok hpush
    cases hnext
  | apply side op =>
    have hleads : op = .print ∨ op = .trace := op.returns_leadsTo side d _ d' h
    rcases hleads with rfl | rfl
    · obtain ⟨v, e, hpop, hnext⟩ := Action.bind_eq_ok h
      cases hnext
      exact ⟨side, .inl ⟨v, rfl, hpop, rfl⟩⟩
    · cases h
      exact ⟨side, .inr ⟨rfl, rfl⟩⟩

namespace Machine

/-- The line that a tracing machine tells in its next cycle, and of which kind it is. -/
inductive Tells (m : Machine) : LineKind → String → Prop
  | announcement {t : Token} (ht : m.program.token? m.ip = some t) (hnew : m.announced = false) :
      Tells m .announcement m.announcement
  | closing (ht : m.program.token? m.ip = none) : Tells m .closing m.deque.text
  | print {side : Option Side} {v : Value} {d : Deque Value} (hready : m.announced = true)
      (hi : m.program.instruction? m.ip = some (.apply side .print))
      (hpop : Deque.pop side m.deque = .ok v d) : Tells m .print v.text
  | row {side : Option Side} (hready : m.announced = true)
      (hi : m.program.instruction? m.ip = some (.apply side .trace)) : Tells m .row m.deque.row

/-- A line that a tracing machine tells is of one of the kinds. -/
theorem tells_of_tick {m m' : Machine} {text : String} (htracing : m.tracing = true)
    (h : m.tick = (.line text, m')) : ∃ kind, m.Tells kind text := by
  obtain ⟨hi, htick⟩ | ⟨i, hi, -, hnew, htick⟩ | ⟨i, hi, hready, htick⟩ := tick_cases m
  · have hnone : m.program.token? m.ip = none := by
      simpa [Program.instruction?_eq] using hi
    rw [h, finish, htracing] at htick
    cases htick
    exact ⟨.closing, .closing hnone⟩
  · obtain ⟨t, ht⟩ := Option.isSome_iff_exists.mp (Program.token?_of_instruction? hi)
    rw [h, announce] at htick
    cases htick
    exact ⟨.announcement, .announcement ht hnew⟩
  · have hannounced : m.announced = true := by simpa [htracing] using hready
    rw [h] at htick
    unfold settle at htick
    split at htick <;> cases htick
    next hperform =>
    obtain ⟨side, ⟨v, rfl, hpop, rfl⟩ | ⟨rfl, rfl⟩⟩ := Instruction.perform_line hperform
    · exact ⟨.print, .print hannounced hi hpop⟩
    · exact ⟨.row, .row hannounced hi⟩

/-- A line that a machine tells is one line, and its text shows its kind. -/
theorem Tells.text {m : Machine} {kind : LineKind} {text : String} (hm : m.HasSource)
    (h : m.Tells kind text) : '\n' ∉ text.toList ∧ LineKind.ofText text = kind := by
  cases h with
  | announcement ht hnew =>
    refine ⟨not_mem_announcement hm ht, ?_⟩
    have hchars := toList_announcement ht
    have hcolon : ':' ∈ m.announcement.toList := by
      rw [hchars]
      exact List.mem_append_right _ List.mem_cons_self
    cases hdigits : (Nat.repr m.ip).toList with
    | nil => exact absurd hdigits (by rw [Nat.toList_repr]; exact Nat.toDigits_ne_nil)
    | cons digit digits =>
      have hdigit : digit.isDigit = true := Numeral.isDigit_of_mem_repr (by rw [hdigits]; simp)
      rw [hdigits, List.cons_append] at hchars
      rw [LineKind.ofText_of_first hchars (.inr (by simp [Char.isAlphanum, hdigit])),
        if_pos hcolon]
  | closing ht =>
    refine ⟨fun hfeed => absurd (Deque.mem_text hfeed) (by decide), ?_⟩
    simp [LineKind.ofText, Deque.toList_text]
  | @print side v d hready hi hpop =>
    have hnone : ∀ c : Char, ¬ (c = '-' ∨ c.isAlphanum = true) → c ∉ v.text.toList :=
      fun c hc hmem => hc (Value.mem_text hmem)
    refine ⟨hnone '\n' (by decide), ?_⟩
    cases hchars : v.text.toList with
    | nil => exact absurd hchars v.text_ne_empty
    | cons first rest =>
      have hfirst := Value.mem_text (v := v) (by rw [hchars]; exact List.mem_cons_self)
      rw [LineKind.ofText_of_first hchars hfirst, if_neg (hnone ':' (by decide))]
  | row hready hi =>
    refine ⟨fun hfeed => absurd (Deque.mem_row hfeed) (by decide), ?_⟩
    cases hchars : m.deque.row.toList with
    | nil => simp [LineKind.ofText, hchars]
    | cons first rest =>
      have hfirst := Deque.mem_row (d := m.deque) (by rw [hchars]; exact List.mem_cons_self)
      rcases hfirst with rfl | rfl <;> simp [LineKind.ofText, hchars]

/-- A machine that runs is reached after each of its slices. -/
theorem reaches_afterSlices (m : Machine) (n : Nat) : m.Reaches (m.afterSlices n) := by
  induction n with
  | zero => exact .here
  | succ n ih => exact .execute ih sliceCycles

theorem Reaches.hasSource {source : String} {p : Program} (hp : Program.ofSource source = .ok p)
    {tracing : Bool} {m : Machine} (h : (start p tracing).Reaches m) : m.HasSource := by
  obtain ⟨hprogram, -⟩ := (invariant_program p tracing).reaches h ⟨rfl, rfl⟩
  exact ⟨source, by rw [hprogram, hp]⟩

/-- A line of a traced run is told by a machine on its way. -/
theorem exists_tells {p : Program} {n : Nat} {text : String}
    (h : text ∈ (start p true).toldLines n) :
    ∃ m kind, (start p true).Reaches m ∧ m.tick.1 = .line text ∧ m.Tells kind text := by
  obtain ⟨j, -, hline⟩ := List.mem_filterMap.mp h
  have hevent : (start p true).sliceEvent j = .line text := by
    revert hline
    cases (start p true).sliceEvent j <;> simp [Event.line?]
  have hslice := execute_afterSlices (start p true) j
  rw [hevent] at hslice
  obtain ⟨spent, m, hspent, -, htick⟩ := exists_tick_of_line hslice
  have hreach : (start p true).Reaches m := by
    have := (reaches_afterSlices (start p true) j).execute spent
    rwa [hspent] at this
  obtain ⟨-, htracing⟩ := (invariant_program p true).reaches hreach ⟨rfl, rfl⟩
  obtain ⟨kind, htells⟩ := tells_of_tick htracing htick
  exact ⟨m, kind, hreach, by rw [htick], htells⟩

/-- The lines of a traced run are lines, and each shows its kind. -/
theorem toldLines_text {source : String} {p : Program} (hp : Program.ofSource source = .ok p)
    {n : Nat} {text : String} (h : text ∈ (start p true).toldLines n) :
    '\n' ∉ text.toList ∧ ∃ m, (start p true).Reaches m ∧ m.tick.1 = .line text ∧
      m.Tells (LineKind.ofText text) text := by
  obtain ⟨m, kind, hreach, htick, htells⟩ := exists_tells h
  obtain ⟨hfeed, rfl⟩ := htells.text (hreach.hasSource hp)
  exact ⟨hfeed, m, hreach, htick, htells⟩

/-- **Traced output can be decoded.** The output of a traced run is made of lines without line
feeds, so that the lines can be told from the text, and each is told by a machine on the way as
the kind of line that `LineKind.ofText` reads off it. No machine tells the same line as another
kind. Two machines that announce an instruction with the same line are at the same address, have
the same token there and the same values in the deque; two that close with the same line have the
same values in the deque. -/
theorem traced_output_decodable :
    (∀ (source : String) (p : Program), Program.ofSource source = .ok p → ∀ slices : Nat,
      (∀ r : Run String, (start p true).run slices never Writer.text "" = some r →
        r.output = Writer.page ((start p true).toldLines slices)) ∧
      (∀ text ∈ (start p true).toldLines slices, '\n' ∉ text.toList ∧
        ∃ m, (start p true).Reaches m ∧ m.tick.1 = .line text ∧
          m.Tells (LineKind.ofText text) text) ∧
      ∀ lines : List String, (∀ text ∈ lines, '\n' ∉ text.toList) →
        Writer.page lines = Writer.page ((start p true).toldLines slices) →
        lines = (start p true).toldLines slices) ∧
    (∀ (m : Machine) (kind : LineKind) (text : String), m.HasSource → m.Tells kind text →
      '\n' ∉ text.toList ∧ LineKind.ofText text = kind) ∧
    (∀ (m m' : Machine) (text : String), m.HasSource → m'.HasSource →
      m.Tells .announcement text → m'.Tells .announcement text →
      m.ip = m'.ip ∧ m.program.token? m.ip = m'.program.token? m'.ip ∧
        m.deque.toList = m'.deque.toList) ∧
    ∀ (m m' : Machine) (text : String), m.Tells .closing text → m'.Tells .closing text →
      m.deque.toList = m'.deque.toList := by
  refine ⟨fun source p hp slices => ⟨?_, ?_, ?_⟩, ?_, ?_, ?_⟩
  · intro r hr
    obtain ⟨k, -, -, -, hwritten, rfl⟩ := run_text_eq_some hr
    exact hwritten.symm
  · intro text htext
    exact toldLines_text hp htext
  · intro lines hlines hpage
    exact Writer.page_injective hlines (fun text htext => (toldLines_text hp htext).1) hpage
  · intro m kind text hm htells
    exact htells.text hm
  · intro m m' text hm hm' htells htells'
    generalize htext : text = text' at htells'
    cases htells with
    | announcement ht hnew =>
      cases htells' with
      | announcement ht' hnew' =>
        obtain ⟨hip, htoken, hdeque⟩ := announcement_injective hm hm' ht ht' htext
        exact ⟨hip, by rw [ht, ht', htoken], hdeque⟩
  · intro m m' text htells htells'
    generalize htext : text = text' at htells'
    cases htells
    cases htells'
    exact Deque.text_injective htext

/-- Two programs announce a label that is an arrow. One of them prints a boolean before it shows
an empty row and closes; the other has found its boolean in another way. -/
theorem traced_output_decodable_arrow_label :
    let p : Program :=
      { tokens := #[⟨"1!"⟩, ⟨"dup!"⟩, ⟨"eq!"⟩, ⟨"<-:"⟩, ⟨"print!"⟩, ⟨"trace"⟩]
        labels := (∅ : Labels).insert "<-" 3 }
    let p' : Program :=
      { tokens := #[⟨"2!"⟩, ⟨"dup!"⟩, ⟨"eq!"⟩, ⟨"<-:"⟩]
        labels := (∅ : Labels).insert "<-" 3 }
    let m := (((start p true).afterSlices 3).execute 1).2
    let m' := (((start p' true).afterSlices 3).execute 1).2
    let lines := ["0: 1! <- []", "1: dup! <- [1]", "2: eq! <- [1, 1]", "3: <-: <- [true]",
      "4: print! <- [true]", "true", "5: trace <- []", "", "[]"]
    Program.ofSource "1! dup! eq! <-: print! trace" = .ok p ∧
      Program.ofSource "2! dup! eq! <-: " = .ok p' ∧
      (start p true).toldLines 10 = lines ∧
      (∃ r, (start p true).run 10 never Writer.text "" = some r ∧
        r.output = Writer.page lines) ∧
      (∀ text ∈ lines, '\n' ∉ text.toList ∧
        ∃ m, (start p true).Reaches m ∧ m.tick.1 = .line text ∧
          m.Tells (LineKind.ofText text) text) ∧
      lines.map LineKind.ofText = [.announcement, .announcement, .announcement, .announcement,
        .announcement, .print, .announcement, .row, .closing] ∧
      m.Tells .announcement "3: <-: <- [true]" ∧ m'.Tells .announcement "3: <-: <- [true]" ∧
      m.ip = m'.ip ∧ m.deque.toList = m'.deque.toList := by
  intro p p' m m' lines
  have htokens : Source.tokens "1! dup! eq! <-: print! trace" = p.tokens.toList := by
    decide +kernel
  have htokens' : Source.tokens "2! dup! eq! <-: " = p'.tokens.toList := by decide +kernel
  have hp : Program.ofSource "1! dup! eq! <-: print! trace" = .ok p := by
    rw [Program.ofSource, htokens]
    rfl
  have hp' : Program.ofSource "2! dup! eq! <-: " = .ok p' := by
    rw [Program.ofSource, htokens']
    rfl
  have hlines : (start p true).toldLines 10 = lines := by decide +kernel
  have hkinds : lines.map LineKind.ofText = [.announcement, .announcement, .announcement,
      .announcement, .announcement, .print, .announcement, .row, .closing] := by decide +kernel
  obtain ⟨hruns, -, hannouncements, -⟩ := traced_output_decodable
  obtain ⟨houtput, htold, -⟩ := hruns _ p hp 10
  rw [hlines] at houtput htold
  have hends : ((start p true).run 10 never Writer.text "").isSome = true := by decide +kernel
  obtain ⟨r, hr⟩ := Option.isSome_iff_exists.mp hends
  have htext : m.announcement = "3: <-: <- [true]" := by decide +kernel
  have htext' : m'.announcement = "3: <-: <- [true]" := by decide +kernel
  have htells : m.Tells .announcement "3: <-: <- [true]" := by
    rw [← htext]
    exact .announcement (show m.program.token? m.ip = some ⟨"<-:"⟩ by decide +kernel)
      (by decide +kernel)
  have htells' : m'.Tells .announcement "3: <-: <- [true]" := by
    rw [← htext']
    exact .announcement (show m'.program.token? m'.ip = some ⟨"<-:"⟩ by decide +kernel)
      (by decide +kernel)
  have hm : m.HasSource := ((reaches_afterSlices _ 3).execute 1).hasSource hp
  have hm' : m'.HasSource := ((reaches_afterSlices _ 3).execute 1).hasSource hp'
  obtain ⟨hip, -, hdeque⟩ := hannouncements m m' _ hm hm' htells htells'
  exact ⟨hp, hp', hlines, ⟨r, hr, houtput r hr⟩, htold, hkinds, htells, htells', hip, hdeque⟩

end Machine

end TwoEnded
