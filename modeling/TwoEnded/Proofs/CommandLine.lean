/-
TwoEnded.Proofs.CommandLine — the command does what the machine does.

## §1 Faults

A program fails to load because a label is defined twice, and a run that nobody interrupts does
not fail as interrupted.

## §2 Responses

So the exit code of every failure is 1, and the command tells of a run what the run has told. This
holds for every parser that keeps the laws of `TwoEnded.Proofs.ArgumentLaws`, with a terminal or
without, in a call that is `Calm`: the log lets warnings through and nothing else, and there is
neither a warning nor an interruption.
-/
import TwoEnded.Proofs.ArgumentLaws
import TwoEnded.Proofs.Interruption
import TwoEnded.Proofs.Sink

namespace TwoEnded

/-! ## §1 Faults -/

theorem Labels.kind_of_collect {labels : Labels} {address : Nat} {tokens : List Token} {f : Fault}
    (h : collect labels address tokens = .error f) : f.kind = .duplicateLabel := by
  induction tokens generalizing labels address with
  | nil => cases h
  | cons token rest ih =>
    rw [collect] at h
    split at h
    · exact ih h
    · split at h
      · cases h
        rfl
      · exact ih h

/-- A program fails to load only because a label is defined twice. -/
theorem Program.kind_of_ofSource {source : String} {f : Fault} (h : ofSource source = .error f) :
    f.kind = .duplicateLabel := by
  rw [ofSource, load] at h
  split at h
  · cases h
  · next hcollect =>
    cases h
    exact Labels.kind_of_collect hcollect

/-- A run that nobody interrupts does not fail as interrupted. -/
theorem Machine.kind_of_run {m : Machine} (hs : m.stopped = false) (hi : m.interrupted = false)
    {n : Nat} {r : Run String} {f : Fault} (h : m.run n never Writer.text "" = some r)
    (hresult : r.result = .error f) : f.kind ≠ .interrupted := by
  obtain ⟨k, -, hevents, -, -, rfl⟩ := run_text_eq_some h
  have hfailed : m.sliceEvent k = .failed f := by
    revert hresult
    cases m.sliceEvent k <;> simp [Event.result]
  have hslice := execute_afterSlices m k
  rw [hfailed] at hslice
  intro hkind
  obtain ⟨hruns, hasked⟩ := interrupted_of_execute hslice hkind
  rcases afterSlices_cases hs hi hevents with ⟨-, hnot⟩ | ⟨j, -, hoff⟩
  · rw [hasked] at hnot
    cases hnot
  · rw [hoff.stopped] at hruns
    cases hruns

namespace Command

/-! ## §2 Responses -/

/-- Interruptions would be noticed, there are none, and the log lets only warnings through, as it
does unless it is told otherwise. -/
structure Surroundings.Calm (around : Surroundings) : Prop where
  handler : around.handlerFault = none
  interrupted : around.interrupted = Machine.never
  log : ∀ record, record.isWarning = false → around.log record = ""

theorem faultCode_of_kind {f : Fault} (h : f.kind ≠ .interrupted) : faultCode f = 1 := by
  unfold faultCode
  split
  · next hkind => exact absurd hkind h
  · rfl

namespace Surroundings

variable {around : Surroundings} (hcalm : around.Calm)

include hcalm

/-- A run that has not failed is answered by its output. -/
theorem conclude_ok (stdout : String) (outcome : Outcome) :
    around.conclude stdout "" (.ok outcome) = ⟨0, stdout, ""⟩ := by
  rw [conclude, hcalm.log _ rfl, String.append_empty]

/-- A failure that is not an interruption is answered by its message. -/
theorem conclude_error {f : Fault} (h : f.kind ≠ .interrupted) (stdout : String) :
    around.conclude stdout "" (.error f) =
      ⟨1, stdout, (if around.terminal then around.bold ("ERROR: " ++ f.message)
        else "ERROR: " ++ f.message) ++ "\n"⟩ := by
  rw [conclude, faultCode_of_kind h, report, hcalm.log _ rfl, String.empty_append,
    String.empty_append]

section Respond

variable {path source : String} {tracing : Bool} {arguments : List String}
  {setting : Option String} (hread : around.read path = .ok source)
  (hparse : around.parse arguments setting = .ok ⟨some path, tracing⟩)

include hread hparse

/-- A source that cannot be loaded is answered by the message of its fault. -/
theorem prepare_of_load_error {f : Fault} (hload : Program.ofSource source = .error f) :
    around.prepare arguments setting = .error (around.conclude "" "" (.error f)) := by
  have hlog := hcalm.log (.sourceRead path source.utf8ByteSize) rfl
  simp only [prepare, hparse, load, hread, hload, opening, hcalm.handler, hlog,
    String.append_empty]

/-- A source that can be loaded gives a machine at the beginning of its program. -/
theorem prepare_of_load {p : Program} (hload : Program.ofSource source = .ok p) :
    around.prepare arguments setting = .ok ("", Machine.start p tracing) := by
  have hlog := hcalm.log (.sourceRead path source.utf8ByteSize) rfl
  have hloaded := hcalm.log (.loaded p.size p.labels.size) rfl
  simp only [prepare, hparse, load, hread, hload, opening, hcalm.handler, hlog, hloaded,
    String.append_empty]

theorem respond_of_load_error {f : Fault} (hload : Program.ofSource source = .error f)
    (slices : Nat) :
    around.respond slices arguments setting = some (around.conclude "" "" (.error f)) := by
  rw [respond, prepare_of_load_error hcalm hread hparse hload]

/-- The command runs the program at the path. -/
theorem respond_of_load {p : Program} (hload : Program.ofSource source = .ok p) (slices : Nat) :
    around.respond slices arguments setting =
      ((Machine.start p tracing).run slices Machine.never Writer.text "").map fun r =>
        around.conclude r.output "" r.result := by
  have hlog := hcalm.log (.run (Machine.start p tracing)) rfl
  simp only [respond, prepare_of_load hcalm hread hparse hload, hcalm.interrupted, hlog,
    String.append_empty]
  cases (Machine.start p tracing).run slices Machine.never Writer.text "" <;> rfl

end Respond

end Surroundings

/-- **The command agrees with the machine.** Let the parser keep its laws, let the call be calm, and
let the arguments give a path to a source text. Tracing is on exactly if the option is there or the
setting does not mean no.

* If the text cannot be loaded, the command fails with the message of the fault and prints nothing.
* Otherwise it prints what a run of the machine writes, and it ends when the run ends: with code 0
  and no message, or with code 1 and the message of the fault.
* Where the option stands, and whether it is the option or the setting that asks for tracing, makes
  no other difference.

A message stands on a line of its own on standard error, and in bold letters if that is a
terminal. -/
theorem command_line_agrees {around : Surroundings} (hparser : ParserLaws around.parse)
    (hcalm : around.Calm) {path source : String} (hne : path ≠ "")
    (hread : around.read path = .ok source) :
    let message (f : Fault) : String :=
      (if around.terminal then around.bold ("ERROR: " ++ f.message) else "ERROR: " ++ f.message) ++
        "\n"
    (∀ (trace : Bool) (setting : Option String) (arguments : List String) (tracing : Bool),
      Arranged path trace arguments → (tracing = true ↔ Traced trace setting) → ∀ slices : Nat,
      (∀ f, Program.ofSource source = .error f →
        around.respond slices arguments setting = some ⟨1, "", message f⟩) ∧
      ∀ p, Program.ofSource source = .ok p →
        ((Machine.start p tracing).run slices Machine.never Writer.text "" = none →
          around.respond slices arguments setting = none) ∧
        ∀ r, (Machine.start p tracing).run slices Machine.never Writer.text "" = some r →
          around.respond slices arguments setting = some
            (match r.result with
            | .ok .exit => ⟨0, r.output, ""⟩
            | .ok .ended => ⟨0, r.output, ""⟩
            | .error f => ⟨1, r.output, message f⟩)) ∧
    ∀ (trace trace' : Bool) (setting setting' : Option String) (arguments arguments' : List String),
      Arranged path trace arguments → Arranged path trace' arguments' →
      (Traced trace setting ↔ Traced trace' setting') → ∀ slices : Nat,
      around.respond slices arguments setting = around.respond slices arguments' setting' := by
  intro message
  constructor
  · intro trace setting arguments tracing harranged htracing slices
    obtain ⟨tracing', hparse, htracing'⟩ := hparser.invocation hne harranged setting
    obtain rfl : tracing' = tracing := Bool.eq_iff_iff.mpr (htracing'.trans htracing.symm)
    constructor
    · intro f hload
      have hkind : f.kind ≠ .interrupted := by
        rw [Program.kind_of_ofSource hload]
        decide
      rw [Surroundings.respond_of_load_error hcalm hread hparse hload,
        Surroundings.conclude_error hcalm hkind]
    · intro p hload
      have hrespond := Surroundings.respond_of_load hcalm hread hparse hload slices
      refine ⟨fun hrun => by rw [hrespond, hrun, Option.map_none], fun r hrun => ?_⟩
      rw [hrespond, hrun, Option.map_some]
      cases hresult : r.result with
      | ok outcome =>
        rw [Surroundings.conclude_ok hcalm]
        cases outcome <;> rfl
      | error f =>
        rw [Surroundings.conclude_error hcalm (Machine.kind_of_run rfl rfl hrun hresult)]
  · intro trace trace' setting setting' arguments arguments' harranged harranged' hsame slices
    obtain ⟨tracing, hparse, htracing⟩ := hparser.invocation hne harranged setting
    obtain ⟨tracing', hparse', htracing'⟩ := hparser.invocation hne harranged' setting'
    obtain rfl : tracing = tracing' :=
      Bool.eq_iff_iff.mpr (htracing.trans (hsame.trans htracing'.symm))
    cases hload : Program.ofSource source with
    | error f =>
      rw [Surroundings.respond_of_load_error hcalm hread hparse hload,
        Surroundings.respond_of_load_error hcalm hread hparse' hload]
    | ok p =>
      rw [Surroundings.respond_of_load hcalm hread hparse hload,
        Surroundings.respond_of_load hcalm hread hparse' hload]

/-- A file that holds a text is read as that text. -/
theorem decode_toUTF8 (text : String) : decode text.toUTF8 = .ok text := by
  have hvalid : text.toUTF8.IsValidUTF8 := text.isValidUTF8
  delta decode String.fromUTF8?
  rw [dif_pos hvalid]
  rfl

/-- A file whose name begins with a hyphen is run with tracing, once because of the option while
the setting means no, once because of the setting alone. The run fails after it has printed. On a
terminal the message is in bold letters. -/
theorem command_line_agrees_either_switch :
    let source := "1! print! add!"
    let folder : Folder := ⟨[("-calm", .file source.toUTF8)]⟩
    let plain : Surroundings := .plain folder.read
    let shown : Surroundings := { Surroundings.plain folder.read with terminal := true }
    let output := "0: 1! <- []\n1: print! <- [1]\n1\n2: add! <- []\n"
    (ParserLaws plain.parse ∧ plain.Calm ∧ folder.read "-calm" = .ok source) ∧
      (Arranged "-calm" true ["--trace", "--", "-calm"] ∧ ¬ MeansNo "Yes" ∧ MeansNo "oFF") ∧
      plain.respond 9 ["--trace", "--", "-calm"] (some "oFF") =
        plain.respond 9 ["--", "-calm"] (some "Yes") ∧
      plain.respond 9 ["--", "-calm"] (some "Yes") =
        some ⟨1, output, "ERROR: STACK UNDERFLOW AT 2 (`add!`)\n"⟩ ∧
      shown.respond 9 ["--", "-calm"] (some "Yes") =
        some ⟨1, output, "\x1b[1mERROR: STACK UNDERFLOW AT 2 (`add!`)\x1b[0m\n"⟩ := by
  intro source folder plain shown output
  let p : Program := { tokens := #[⟨"1!"⟩, ⟨"print!"⟩, ⟨"add!"⟩], labels := ∅ }
  have htokens : Source.tokens source = p.tokens.toList := by decide +kernel
  have hp : Program.ofSource source = .ok p := by
    rw [Program.ofSource, htokens]
    rfl
  have hread : folder.read "-calm" = .ok source := by
    have hfile : folder.read "-calm" = decode source.toUTF8 := by rfl
    rw [hfile, decode_toUTF8]
  have hcalm : plain.Calm := ⟨rfl, rfl, fun _ _ => rfl⟩
  have hcalm' : shown.Calm := ⟨rfl, rfl, fun _ _ => rfl⟩
  have hflag : Arranged "-calm" true ["--trace", "--", "-calm"] := .behind
  have hbare : Arranged "-calm" false ["--", "-calm"] := .behind
  have hyes : ¬ MeansNo "Yes" := by
    rw [← isSwitchedOn_eq_false_iff]
    decide +kernel
  have hoff : MeansNo "oFF" := (isSwitchedOn_eq_false_iff _).mp (by decide +kernel)
  have htraced : Traced false (some "Yes") := .inr ⟨"Yes", rfl, hyes⟩
  obtain ⟨r, hrun, houtput, hresult⟩ : ∃ r,
      (Machine.start p true).run 9 Machine.never Writer.text "" = some r ∧ r.output = output ∧
        r.result = .error ((Fault.ofKind .stackUnderflow).located 2 "add!") := by
    have hend : ((Machine.start p true).run 9 Machine.never Writer.text "").map
        (fun r => (r.output, r.result)) =
          some (output, .error ((Fault.ofKind .stackUnderflow).located 2 "add!")) := by
      decide +kernel
    obtain ⟨r, hrun, hr⟩ := Option.map_eq_some_iff.mp hend
    exact ⟨r, hrun, congrArg Prod.fst hr, congrArg Prod.snd hr⟩
  have hon : true = true ↔ Traced false (some "Yes") := ⟨fun _ => htraced, fun _ => rfl⟩
  have hnamed : "-calm" ≠ "" := by decide
  have hplain : plain.read "-calm" = .ok source := hread
  have hshown : shown.read "-calm" = .ok source := hread
  obtain ⟨hagrees, hsame⟩ := command_line_agrees parserLaws_parse hcalm hnamed hplain
  obtain ⟨hagrees', -⟩ := command_line_agrees parserLaws_parse hcalm' hnamed hshown
  refine ⟨⟨parserLaws_parse, hcalm, hread⟩, ⟨hflag, hyes, hoff⟩, ?_, ?_, ?_⟩
  · exact hsame true false _ _ _ _ hflag hbare ⟨fun _ => htraced, fun _ => .inl rfl⟩ 9
  · have hrespond := ((hagrees false _ _ true hbare hon 9).2 p hp).2 r hrun
    rw [hresult, houtput] at hrespond
    exact hrespond
  · have hrespond := ((hagrees' false _ _ true hbare hon 9).2 p hp).2 r hrun
    rw [hresult, houtput] at hrespond
    exact hrespond

end Command

end TwoEnded
