import StackVerdict.CommandLine.Run
import StackVerdict.Proofs.Reachable

/-!
# What a command answers

A command explains a failed check whose slot was looked at when its draft was read (`Draft.Vetted`),
so what is read can be explained and shown in every way.  Therefore a command either reports that
its draft cannot be read (`Invocation.run_of_error`) or shows the finding that explains what was
read (`Invocation.exists_run`), and never fails otherwise (`Invocation.exists_outcome`).
-/

namespace StackVerdict

/-! ## Drafts whose slot is looked at -/

theorem Verdict.ofMismatch_eq_ok_iff {expected : TypeName} {stack : Snapshot} {index : Nat}
    {v : Verdict} :
    ofMismatch expected stack index = .ok v ↔
      index < stack.height ∧ v = .typeMismatch expected stack index := by
  unfold ofMismatch
  by_cases h : index < stack.height <;> simp [h, eq_comm]

/-- A failed check, whose slot is looked at where it is about one. -/
def Draft.Vetted : Draft → Prop
  | success => False
  | typeMismatch _ _ _ => False
  | _ => True

/-- What such a draft is read as can be explained. -/
theorem Draft.Vetted.explainable {d : Draft} (h : d.Vetted) {v : Verdict} (hv : d.read = .ok v) :
    v.Explainable := by
  cases d with
  | success => exact absurd h id
  | typeMismatch expected stack index => exact absurd h id
  | underflow needed stack =>
      obtain ⟨s, -, hs⟩ := bind_eq_ok_iff.1 hv
      obtain rfl := Except.ok.inj hs
      trivial
  | checkedMismatch expected stack index =>
      obtain ⟨t, -, hrest⟩ := bind_eq_ok_iff.1 hv
      obtain ⟨s, -, hs⟩ := bind_eq_ok_iff.1 hrest
      obtain ⟨hindex, rfl⟩ := Verdict.ofMismatch_eq_ok_iff.1 hs
      exact hindex
  | stackMismatch branch destination =>
      obtain ⟨a, -, hrest⟩ := bind_eq_ok_iff.1 hv
      obtain ⟨b, -, hb⟩ := bind_eq_ok_iff.1 hrest
      obtain rfl := Except.ok.inj hb
      trivial
  | sizeFailure needed stack =>
      obtain ⟨s, -, hs⟩ := bind_eq_ok_iff.1 hv
      obtain rfl := Except.ok.inj hs
      trivial

namespace CommandLine

theorem Form.vetted_of_draft? {c : Subcommand} {f : Form} {d : Draft} (h : f.draft? c = some d) :
    d.Vetted := by
  cases c with
  | underflow =>
      obtain ⟨n, -, rfl⟩ := Option.map_eq_some_iff.1 h
      trivial
  | typeMismatch =>
      unfold draft? at h
      dsimp only at h
      split at h
      · obtain rfl := Option.some.inj h
        trivial
      · cases h
  | stackMismatch =>
      obtain rfl := Option.some.inj h
      trivial
  | stackSize =>
      obtain ⟨n, -, rfl⟩ := Option.map_eq_some_iff.1 h
      trivial

theorem Form.command_eq_ok_iff {c : Subcommand} {f : Form} {cmd : Command} :
    f.command c = .ok cmd ↔ f.label = some cmd.label ∧ f.draft? c = some cmd.draft := by
  unfold command
  obtain ⟨label, draft⟩ := cmd
  split
  · next l d hl hd => simp [hl, hd]
  · next hnone =>
    constructor
    · intro h
      cases h
    · rintro ⟨hl, hd⟩
      exact absurd hd (hnone _ _ hl)

/-! ## Runs -/

theorem exists_present {o : Origin} {l : List Attachment} {f : Finding} (h : Finding.Sound o l f)
    (hf : f.hasSnapshots = true) (flags : List Flag) : ∃ s, present flags f = .ok s := by
  obtain ⟨ns, hns⟩ := h.notes
  unfold present
  by_cases hdiagnostic : .diagnostic ∈ flags
  · exact ⟨_, by rw [if_pos hdiagnostic, Finding.emit_eq_ok hns]⟩
  · by_cases hdump : .dump ∈ flags
    · exact ⟨_, by rw [if_neg hdiagnostic, if_pos hdump, Finding.dump, if_pos hf]⟩
    · exact ⟨_, by rw [if_neg hdiagnostic, if_neg hdump]⟩

theorem exists_record {c : Command} {v : Verdict} (h : c.draft.read = .ok v) (hv : v.Explainable) :
    ∃ f events, Finding.ofVerdict c.label v = .ok f ∧ c.record = .ok (.ok f, events) := by
  obtain ⟨m, hm⟩ := hv.sentence c.label
  have hf := Finding.ofVerdict_eq_ok_iff.2 ⟨m, Verdict.message_eq_ok_iff.2 ⟨hv, hm⟩, rfl⟩
  have horigin : Finding.ofOrigin (.check c.label v) = .ok _ := hf
  refine ⟨_, [Origin.event (.check c.label v) m], hf, ?_⟩
  rw [Command.record, h]
  show Except.ok (Finding.record (.check c.label v)) = _
  rw [Finding.record, horigin]

namespace Invocation

variable {i : Invocation}

/-- A draft that cannot be read is reported. -/
theorem run_of_error {e : InputError} (h : i.command.draft.read = .error e) :
    i.run = .ok { exitCode := 1, stdout := "", stderr := e.report } := by
  have hrecord : i.command.record = .error e := by
    rw [Command.record, h]
    rfl
  rw [run, hrecord]

/-- A check that can be explained is explained, and shown as the flags ask for it. -/
theorem exists_run {v : Verdict} (h : i.command.draft.read = .ok v) (hv : v.Explainable) :
    ∃ f s, Finding.ofVerdict i.command.label v = .ok f ∧ present i.flags f = .ok s ∧
      i.run = .ok { exitCode := 0, stdout := s, stderr := "" } := by
  obtain ⟨f, events, hf, hrecord⟩ := exists_record h hv
  have hsound : Finding.Sound (.check i.command.label v) [] f := Finding.Sound.made hf
  obtain ⟨s, hs⟩ := exists_present hsound (Finding.hasSnapshots_of_ofVerdict hf) i.flags
  refine ⟨f, s, hf, hs, ?_⟩
  rw [run, hrecord]
  show (present i.flags f >>= fun text => _) = _
  rw [hs]
  rfl

theorem exists_outcome (h : i.command.draft.Vetted) : ∃ o, i.run = .ok o := by
  cases hread : i.command.draft.read with
  | error e => exact ⟨_, run_of_error hread⟩
  | ok v =>
      obtain ⟨f, s, -, -, hrun⟩ := exists_run hread (h.explainable hread)
      exact ⟨_, hrun⟩

end Invocation

end CommandLine

end StackVerdict
