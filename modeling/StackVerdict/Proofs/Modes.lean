import Mathlib.Data.List.Nodup
import StackVerdict.Proofs.Emission
import StackVerdict.Proofs.Grammar
import StackVerdict.Proofs.Reports

/-!
# What the flags change

The command of a command line hangs on the words after the flags alone (`execute_words_eq_ran_iff`),
and the flags hang on nothing but how its finding is shown (`Invocation.run_congr`).  Whichever way
that is, the message comes first (`exists_present_dump`, `exists_present_diagnostic`), and a fault
is not shown at all.  So the plain answer begins the other ones, and flags that have no say in how a
finding is shown change nothing (`execute_modes`).
-/

namespace StackVerdict.CommandLine

/-! ## Flags and the words after them -/

/-- The words after a subcommand say the command. -/
def Says (c : Subcommand) (tail : List String) (cmd : Command) : Prop :=
  ∃ items, Tail c tail items ∧ Complete c items ∧ (Form.ofItems c items).command c = .ok cmd

/-- Flags that can be given together. -/
structure Compatible (flags : List Flag) : Prop where
  nodup : flags.Nodup
  shown : ¬ (.dump ∈ flags ∧ .diagnostic ∈ flags)

section Words

variable {flags flags' : List Flag} {c : Subcommand} {tail : List String} {o : Outcome}

/-- What is answered hangs on the flags and on what the other words say. -/
theorem execute_words_eq_ran_iff :
    execute (flags.map Flag.word ++ c.name :: tail) = .ok (.ran o) ↔
      Compatible flags ∧ ∃ cmd, Says c tail cmd ∧ Invocation.run ⟨flags, cmd⟩ = .ok o := by
  rw [execute_eq_ran_iff]
  constructor
  · rintro ⟨i, hread, hrun⟩
    obtain ⟨d, tail', items, hwords, hnodup, hshown, htail, hitems, hcmd⟩ :=
      Invocation.read_eq_ok_iff.1 hread
    obtain ⟨rfl, rfl, rfl⟩ := flags_append_inj hwords
    exact ⟨⟨hnodup, hshown⟩, i.command, ⟨items, htail, hitems, hcmd⟩, hrun⟩
  · rintro ⟨hflags, cmd, ⟨items, htail, hitems, hcmd⟩, hrun⟩
    exact ⟨⟨flags, cmd⟩, Invocation.read_eq_ok_iff.2
      ⟨c, tail, items, rfl, hflags.nodup, hflags.shown, htail, hitems, hcmd⟩, hrun⟩

theorem Says.vetted {cmd : Command} (h : Says c tail cmd) : cmd.draft.Vetted := by
  obtain ⟨items, -, -, hcmd⟩ := h
  exact Form.vetted_of_draft? (Form.command_eq_ok_iff.1 hcmd).2

end Words

/-! ## Runs under different flags -/

/-- All that can come of a command: its draft cannot be read, or its finding is shown. -/
theorem Invocation.run_eq_ok_iff {flags : List Flag} {cmd : Command} (h : cmd.draft.Vetted)
    {o : Outcome} :
    run ⟨flags, cmd⟩ = .ok o ↔
      (∃ e, cmd.draft.read = .error e ∧ o = { exitCode := 1, stdout := "", stderr := e.report }) ∨
      ∃ v f s, cmd.draft.read = .ok v ∧ Finding.ofVerdict cmd.label v = .ok f ∧
        present flags f = .ok s ∧ o = { exitCode := 0, stdout := s, stderr := "" } := by
  cases hread : cmd.draft.read with
  | error e =>
      rw [run_of_error (i := ⟨flags, cmd⟩) hread]
      simp [eq_comm]
  | ok v =>
      obtain ⟨f, s, hf, hs, hrun⟩ :=
        exists_run (i := ⟨flags, cmd⟩) hread (h.explainable hread)
      rw [hrun]
      constructor
      · intro ho
        exact .inr ⟨v, f, s, rfl, hf, hs, (Except.ok.inj ho).symm⟩
      · rintro (⟨e, ⟨⟩, -⟩ | ⟨w, g, t, hw, hg, ht, rfl⟩)
        obtain rfl := Except.ok.inj hw
        obtain rfl := Except.ok.inj (hf.symm.trans hg)
        rw [Except.ok.inj (hs.symm.trans ht)]

/-- A finding is shown alike under flags that ask for the same report in the same colours. -/
theorem present_congr {flags flags' : List Flag}
    (hdiagnostic : .diagnostic ∈ flags ↔ .diagnostic ∈ flags')
    (hdump : .dump ∈ flags ↔ .dump ∈ flags')
    (hcolor : .diagnostic ∈ flags → (.color ∈ flags ↔ .color ∈ flags')) (f : Finding) :
    present flags f = present flags' f := by
  unfold present
  by_cases h : .diagnostic ∈ flags
  · have hsame : decide (.color ∈ flags) = decide (.color ∈ flags') := by
      rw [decide_eq_decide]
      exact hcolor h
    rw [if_pos h, if_pos (hdiagnostic.1 h), hsame]
  · rw [if_neg h, if_neg (mt hdiagnostic.2 h)]
    simp only [hdump]

theorem Invocation.run_congr {flags flags' : List Flag} {cmd : Command}
    (h : ∀ f, present flags f = present flags' f) : run ⟨flags, cmd⟩ = run ⟨flags', cmd⟩ := by
  unfold run
  simp only [h]

section Present

variable {label : String} {v : Verdict} {f : Finding}

theorem exists_present_dump (h : Finding.ofVerdict label v = .ok f) :
    ∃ rest, present [.dump] f = .ok (f.message ++ "\n" ++ rest) := by
  have hdump : present [.dump] f = .ok (Text.unlines f.dumpLines) :=
    Finding.dump_eq_ok (Finding.hasSnapshots_of_ofVerdict h)
  rw [Finding.unlines_dumpLines, String.append_assoc] at hdump
  exact ⟨_, hdump⟩

theorem exists_present_diagnostic (h : Finding.ofVerdict label v = .ok f) :
    ∃ rest, present [.diagnostic] f = .ok ("error: " ++ (f.message ++ "\n") ++ rest) := by
  have hsound : Finding.Sound (.check label v) [] f := Finding.Sound.made h
  obtain ⟨ns, hns⟩ := hsound.notes
  have hemit : present [.diagnostic] f = .ok (Diagnostic.emit {} ⟨f.message, ns⟩) :=
    Finding.emit_eq_ok hns {}
  rw [Diagnostic.emit_eq_unlines, Diagnostic.allLines, Text.unlines_cons] at hemit
  simp only [String.append_assoc] at hemit ⊢
  exact ⟨_, hemit⟩

end Present

/-! ## Command lines that differ in their flags -/

section Flags

variable {flags flags' : List Flag} {c : Subcommand} {tail : List String} {o : Outcome}

/-- Where nothing can be shown the flags do not matter. -/
theorem execute_of_exitCode_ne (hflags' : Compatible flags')
    (h : execute (flags.map Flag.word ++ c.name :: tail) = .ok (.ran o)) (ho : o.exitCode ≠ 0) :
    o.exitCode = 1 ∧ o.stdout = "" ∧
      execute (flags'.map Flag.word ++ c.name :: tail) = .ok (.ran o) := by
  obtain ⟨-, cmd, hsays, hrun⟩ := execute_words_eq_ran_iff.1 h
  rcases (Invocation.run_eq_ok_iff hsays.vetted).1 hrun with ⟨e, he, rfl⟩ | ⟨v, f, s, -, -, -, rfl⟩
  · have hrun' := Invocation.run_of_error (i := ⟨flags', cmd⟩) he
    exact ⟨rfl, rfl, execute_words_eq_ran_iff.2 ⟨hflags', cmd, hsays, hrun'⟩⟩
  · exact absurd rfl ho

/-- What the plain command line shows is the message of a finding, and other flags show the same
finding in their way. -/
theorem exists_finding_of_plain (h : execute (c.name :: tail) = .ok (.ran o))
    (ho : o.exitCode = 0) :
    ∃ label v f, Finding.ofVerdict label v = .ok f ∧
      o = { exitCode := 0, stdout := f.message ++ "\n", stderr := "" } ∧
      ∀ flags s, Compatible flags → present flags f = .ok s →
        execute (flags.map Flag.word ++ c.name :: tail) = .ok (.ran { o with stdout := s }) := by
  have hplain : execute (([] : List Flag).map Flag.word ++ c.name :: tail) = .ok (.ran o) := h
  obtain ⟨-, cmd, hsays, hrun⟩ := execute_words_eq_ran_iff.1 hplain
  rcases (Invocation.run_eq_ok_iff hsays.vetted).1 hrun with
    ⟨e, -, rfl⟩ | ⟨v, f, s, hv, hf, hs, rfl⟩
  · cases ho
  · obtain rfl : f.message ++ "\n" = s := Except.ok.inj hs
    refine ⟨cmd.label, v, f, hf, rfl, fun flags t hflags ht => ?_⟩
    refine execute_words_eq_ran_iff.2 ⟨hflags, cmd, hsays, ?_⟩
    exact (Invocation.run_eq_ok_iff hsays.vetted).2 (.inr ⟨v, f, t, hv, hf, ht, rfl⟩)

theorem execute_congr (hflags' : Compatible flags')
    (hshown : ∀ f, present flags f = present flags' f)
    (h : execute (flags.map Flag.word ++ c.name :: tail) = .ok (.ran o)) :
    execute (flags'.map Flag.word ++ c.name :: tail) = .ok (.ran o) := by
  obtain ⟨-, cmd, hsays, hrun⟩ := execute_words_eq_ran_iff.1 h
  rw [Invocation.run_congr hshown] at hrun
  exact execute_words_eq_ran_iff.2 ⟨hflags', cmd, hsays, hrun⟩

theorem Compatible.perm (h : Compatible flags) (hperm : flags.Perm flags') :
    Compatible flags' := by
  refine ⟨hperm.nodup_iff.1 h.nodup, ?_⟩
  rw [← hperm.mem_iff, ← hperm.mem_iff]
  exact h.shown

theorem Compatible.insert {before after : List Flag} {f : Flag} (h : Compatible (before ++ after))
    (hf : f ∉ before ++ after) (hdump : f ≠ .dump) (hdiagnostic : f ≠ .diagnostic) :
    Compatible (before ++ f :: after) := by
  refine ⟨List.nodup_middle.2 (List.nodup_cons.2 ⟨hf, h.nodup⟩), ?_⟩
  simpa [hdump.symm, hdiagnostic.symm] using h.shown

/-- The plain answer begins the dump, and behind the word for an error the diagnostic; where it
reports a fault instead, so do the others.  Telling what is recorded changes no answer, and colour
changes none but the diagnostic, wherever among the flags they stand. -/
theorem execute_modes (c : Subcommand) (tail : List String) :
    (∀ o, execute (c.name :: tail) = .ok (.ran o) →
      (o.exitCode = 0 →
        (∃ rest, execute (Flag.dump.word :: c.name :: tail) =
          .ok (.ran { o with stdout := o.stdout ++ rest })) ∧
        ∃ rest, execute (Flag.diagnostic.word :: c.name :: tail) =
          .ok (.ran { o with stdout := "error: " ++ o.stdout ++ rest })) ∧
      (o.exitCode ≠ 0 → o.exitCode = 1 ∧ o.stdout = "" ∧
        execute (Flag.dump.word :: c.name :: tail) = .ok (.ran o) ∧
        execute (Flag.diagnostic.word :: c.name :: tail) = .ok (.ran o))) ∧
    ∀ before after o,
      execute ((before ++ after).map Flag.word ++ c.name :: tail) = .ok (.ran o) →
      (.trace ∉ before ++ after →
        execute ((before ++ .trace :: after).map Flag.word ++ c.name :: tail) = .ok (.ran o)) ∧
      (.color ∉ before ++ after → .diagnostic ∉ before ++ after →
        execute ((before ++ .color :: after).map Flag.word ++ c.name :: tail) = .ok (.ran o)) := by
  have hdump : Compatible [.dump] := ⟨by decide, by decide⟩
  have hdiagnostic : Compatible [.diagnostic] := ⟨by decide, by decide⟩
  refine ⟨fun o h => ⟨fun ho => ?_, fun ho => ?_⟩, fun before after o h => ?_⟩
  · obtain ⟨label, v, f, hf, rfl, hshow⟩ := exists_finding_of_plain h ho
    obtain ⟨rest, hrest⟩ := exists_present_dump hf
    obtain ⟨rest', hrest'⟩ := exists_present_diagnostic hf
    exact ⟨⟨rest, hshow _ _ hdump hrest⟩, rest', hshow _ _ hdiagnostic hrest'⟩
  · have hplain : execute (([] : List Flag).map Flag.word ++ c.name :: tail) = .ok (.ran o) := h
    obtain ⟨hcode, hout, hd⟩ := execute_of_exitCode_ne hdump hplain ho
    obtain ⟨-, -, he⟩ := execute_of_exitCode_ne hdiagnostic hplain ho
    exact ⟨hcode, hout, hd, he⟩
  · have hflags : Compatible (before ++ after) := (execute_words_eq_ran_iff.1 h).1
    refine ⟨fun htrace => ?_, fun hcolor hplain => ?_⟩
    · refine execute_congr (hflags.insert htrace (by decide) (by decide)) (fun f => ?_) h
      exact present_congr (by simp) (by simp) (by simp) f
    · refine execute_congr (hflags.insert hcolor (by decide) (by decide)) (fun f => ?_) h
      exact present_congr (by simp) (by simp) (fun hmem => absurd hmem hplain) f

/-- Line feeds at the end of a label do not hide the message in the other answers, and a slot
outside the stack is reported alike in all of them. -/
theorem execute_modes_line_feeds :
    let m := "Add\n\n expects 2 values on the stack\n"
    let shown := ["Add\n\n", "--expected=2", "--stack=A"]
    let outside := ["Add", "--expected=B", "--index=1", "--stack=A"]
    let report := "Error: slot 1 is out of bounds for stack of 1 value(s)\n"
    (∃ rest, execute ("--dump" :: "underflow" :: shown) =
      .ok (.ran { exitCode := 0, stdout := m ++ rest, stderr := "" })) ∧
    (∃ rest, execute ("--diagnostic" :: "underflow" :: shown) =
      .ok (.ran { exitCode := 0, stdout := "error: " ++ m ++ rest, stderr := "" })) ∧
    execute ("--trace" :: "underflow" :: shown) =
      .ok (.ran { exitCode := 0, stdout := m, stderr := "" }) ∧
    execute ("--diagnostic" :: "type-mismatch" :: outside) =
      .ok (.ran { exitCode := 1, stdout := "", stderr := report }) := by
  intro m shown outside report
  obtain ⟨hplain, hflags⟩ := execute_modes .underflow shown
  obtain ⟨hmismatch, -⟩ := execute_modes .typeMismatch outside
  have hshown : execute ("underflow" :: shown) =
      .ok (.ran { exitCode := 0, stdout := m, stderr := "" }) := by decide
  have houtside : execute ("type-mismatch" :: outside) =
      .ok (.ran { exitCode := 1, stdout := "", stderr := report }) := by decide
  obtain ⟨hdump, hdiagnostic⟩ := (hplain _ hshown).1 rfl
  obtain ⟨-, -, -, hsame⟩ := (hmismatch _ houtside).2 (by decide)
  exact ⟨hdump, hdiagnostic, (hflags [] [] _ hshown).1 (by decide), hsame⟩

end Flags

end StackVerdict.CommandLine
