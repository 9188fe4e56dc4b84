import StackVerdict.Proofs.Except
import StackVerdict.Session.Finding

/-!
# Reachable findings

A finding is made of its origin, and from then on it is only copied and attached to.  What a failed
check must be like to be explained is looked at once, when the finding is made (`Explainable`); that
the finding still holds this verdict, with its stacks in front, is what every later step keeps
(`Sound`).  Therefore every question about a reachable finding has an answer, save for the dump of
a finding to which no stack ever came (`Reachable.answers`), and the findings of a session are
reachable whatever its steps are (`FindingSession.State.sound_run`).
-/

namespace StackVerdict

/-! ## Verdicts that can be explained -/

namespace Verdict

/-- A failed check, and one at a slot of its stack if it is about a slot. -/
def Explainable : Verdict → Prop
  | success => False
  | typeMismatch _ stack index => index < stack.height
  | _ => True

instance : DecidablePred Explainable
  | success => inferInstanceAs (Decidable False)
  | typeMismatch _ stack index => inferInstanceAs (Decidable (index < stack.height))
  | underflow .. | stackMismatch .. | sizeFailure .. => inferInstanceAs (Decidable True)

theorem vet_eq_ok_iff {label : String} {v : Verdict} : v.vet label = .ok () ↔ v.Explainable := by
  cases v <;> simp [vet, Explainable]

theorem Explainable.ne_success {v : Verdict} (h : v.Explainable) : v ≠ .success := by
  rintro rfl
  exact h

theorem Explainable.snapshots_ne_nil {v : Verdict} (h : v.Explainable) : v.snapshots ≠ [] := by
  cases v with
  | success => exact absurd h id
  | _ => exact List.cons_ne_nil _ _

/-- The slot of an explainable type mismatch can be read. -/
theorem Explainable.get {expected : TypeName} {stack : Snapshot} {index : Nat}
    (h : (typeMismatch expected stack index).Explainable) :
    ∃ found, stack.get index = .ok found := by
  have hindex : index < stack.slots.length := h
  exact ⟨stack.slots[index], Snapshot.get_eq_ok_iff.2 (List.getElem?_eq_getElem hindex)⟩

theorem Explainable.sentence {v : Verdict} (h : v.Explainable) (label : String) :
    ∃ m, v.sentence label = .ok m := by
  cases v with
  | success => exact absurd h id
  | typeMismatch expected stack index =>
      obtain ⟨found, hfound⟩ := h.get
      exact ⟨_, by rw [Verdict.sentence, hfound]; rfl⟩
  | _ => exact ⟨_, rfl⟩

theorem Explainable.remarks {v : Verdict} (h : v.Explainable) : ∃ l, v.remarks = .ok l := by
  cases v with
  | success => exact absurd h id
  | typeMismatch expected stack index =>
      obtain ⟨found, hfound⟩ := h.get
      exact ⟨_, by rw [Verdict.remarks, hfound]; rfl⟩
  | _ => exact ⟨_, rfl⟩

/-- What is let through is what can be explained, and nothing fails behind that. -/
theorem message_eq_ok_iff {label m : String} {v : Verdict} :
    v.message label = .ok m ↔ v.Explainable ∧ v.sentence label = .ok m := by
  have hvet : v.vet label = .ok () ↔ v.Explainable := vet_eq_ok_iff
  rw [message, bind_eq_ok_iff, ← hvet]
  constructor
  · rintro ⟨⟨⟩, hvet, hsentence⟩
    exact ⟨hvet, hsentence⟩
  · rintro ⟨hvet, hsentence⟩
    exact ⟨(), hvet, hsentence⟩

end Verdict

/-! ## The invariant of a finding -/

namespace Origin

/-- The failed check that a finding stems from. -/
def verdict? : Origin → Option Verdict
  | check _ v => some v
  | custom _ => none

/-- The message of the finding. -/
def message : Origin → Except Misuse String
  | check label v => v.message label
  | custom m => .ok m

/-- The stacks that the finding starts with. -/
def snapshots : Origin → List Snapshot
  | check _ v => v.snapshots
  | custom _ => []

theorem eq_check_of_verdict? {o : Origin} {v : Verdict} (h : o.verdict? = some v) :
    ∃ label, o = .check label v := by
  cases o with
  | check label w => exact ⟨label, congrArg _ (Option.some.inj h)⟩
  | custom m => cases h

theorem eq_custom_of_verdict? {o : Origin} (h : o.verdict? = none) : ∃ m, o = .custom m := by
  cases o with
  | check label w => cases h
  | custom m => exact ⟨m, rfl⟩

end Origin

namespace Attachment

theorem allSnapshots_append (l m : List Attachment) :
    allSnapshots (l ++ m) = allSnapshots l ++ allSnapshots m :=
  List.flatMap_append

theorem allInstructions_append (l m : List Attachment) :
    allInstructions (l ++ m) = allInstructions l ++ allInstructions m :=
  List.flatMap_append

end Attachment

namespace Finding

/-- The findings made of `o` to which the attachments in `l` were put one after the other. -/
inductive Reachable (o : Origin) : List Attachment → Finding → Prop
  | made {f : Finding} (h : ofOrigin o = .ok f) : Reachable o [] f
  /-- A copy is equal to what it is a copy of. -/
  | copied {l : List Attachment} {f : Finding} (h : Reachable o l f) : Reachable o l f
  | attached {l : List Attachment} {f : Finding} (h : Reachable o l f) (a : Attachment) :
      Reachable o (l ++ [a]) (f.attach a)

/-- What every step keeps: the verdict of the origin is explainable and explained by the message,
and its stacks stand in front of those that were attached. -/
structure Sound (o : Origin) (l : List Attachment) (f : Finding) : Prop where
  explainable : ∀ v, o.verdict? = some v → v.Explainable
  verdict : f.verdict = o.verdict?
  message : o.message = .ok f.message
  snapshots : f.snapshots = o.snapshots ++ Attachment.allSnapshots l
  instructions : f.instructions = Attachment.allInstructions l

theorem Sound.made {o : Origin} {f : Finding} (h : ofOrigin o = .ok f) : Sound o [] f := by
  cases o with
  | check label v =>
      obtain ⟨m, hm, rfl⟩ := ofVerdict_eq_ok_iff.1 h
      refine ⟨?_, rfl, hm, (List.append_nil _).symm, rfl⟩
      rintro _ ⟨⟩
      exact (Verdict.message_eq_ok_iff.1 hm).1
  | custom m =>
      obtain rfl : ofMessage m = f := Except.ok.inj h
      exact ⟨by rintro _ ⟨⟩, rfl, rfl, rfl, rfl⟩

theorem Sound.attach {o : Origin} {l : List Attachment} {f : Finding} (h : Sound o l f)
    (a : Attachment) : Sound o (l ++ [a]) (f.attach a) := by
  have hsnapshots : (f.attach a).snapshots = f.snapshots ++ Attachment.allSnapshots [a] := by
    cases a <;> simp [Finding.attach, Attachment.allSnapshots]
  have hinstructions :
      (f.attach a).instructions = f.instructions ++ Attachment.allInstructions [a] := by
    cases a <;> simp [Finding.attach, Attachment.allInstructions]
  have hrest : (f.attach a).message = f.message ∧ (f.attach a).verdict = f.verdict := by
    cases a <;> exact ⟨rfl, rfl⟩
  refine ⟨h.explainable, hrest.2.trans h.verdict, by rw [hrest.1, h.message], ?_, ?_⟩
  · rw [hsnapshots, h.snapshots, List.append_assoc, Attachment.allSnapshots_append]
  · rw [hinstructions, h.instructions, Attachment.allInstructions_append]

theorem Reachable.sound {o : Origin} {l : List Attachment} {f : Finding} (h : Reachable o l f) :
    Sound o l f := by
  induction h with
  | made h => exact Sound.made h
  | copied _ ih => exact ih
  | attached _ a ih => exact ih.attach a

/-- The stacks of the failed check are in front. -/
theorem Sound.snapshots_eq {o : Origin} {l : List Attachment} {f : Finding} (h : Sound o l f)
    {v : Verdict} (hv : f.verdict = some v) :
    f.snapshots = v.snapshots ++ Attachment.allSnapshots l := by
  rw [h.verdict] at hv
  obtain ⟨label, rfl⟩ := Origin.eq_check_of_verdict? hv
  exact h.snapshots

/-! ## Every question has an answer -/

theorem Sound.remarks {o : Origin} {l : List Attachment} {f : Finding} (h : Sound o l f) :
    ∃ rs, f.remarks = .ok rs := by
  rw [Finding.remarks, h.verdict]
  cases ho : o.verdict? with
  | none => exact ⟨[], rfl⟩
  | some v => exact (h.explainable v ho).remarks

theorem notes_eq_ok {f : Finding} {rs : List Remark} (h : f.remarks = .ok rs) :
    f.notes = .ok (rs.map Remark.text ++ f.exhibits.map Exhibit.note) := by
  rw [notes, h]
  rfl

theorem diagnostic_eq_ok {f : Finding} {ns : List String} (h : f.notes = .ok ns) :
    f.diagnostic = .ok ⟨f.message, ns⟩ := by
  rw [diagnostic, h]
  rfl

theorem emit_eq_ok {f : Finding} {ns : List String} (h : f.notes = .ok ns) (a : Appearance) :
    f.emit a = .ok (Diagnostic.emit a ⟨f.message, ns⟩) := by
  rw [emit, diagnostic_eq_ok h]
  rfl

theorem emitPlain_eq_ok {f : Finding} {ns : List String} (h : f.notes = .ok ns) :
    f.emitPlain = .ok (Diagnostic.emit {} ⟨f.message, ns⟩) :=
  emit_eq_ok h {}

theorem Sound.notes {o : Origin} {l : List Attachment} {f : Finding} (h : Sound o l f) :
    ∃ ns, f.notes = .ok ns := by
  obtain ⟨rs, hrs⟩ := h.remarks
  exact ⟨_, notes_eq_ok hrs⟩

/-- There is no stack to show just where a message of the caller's own got none. -/
theorem Sound.hasSnapshots_eq_false_iff {o : Origin} {l : List Attachment} {f : Finding}
    (h : Sound o l f) :
    f.hasSnapshots = false ↔ (∃ m, o = .custom m) ∧ Attachment.allSnapshots l = [] := by
  rw [← Bool.not_eq_true, hasSnapshots_eq_true_iff, Decidable.not_not, h.snapshots,
    List.append_eq_nil_iff]
  cases o with
  | check label v =>
      have hv : v.snapshots ≠ [] := (h.explainable v rfl).snapshots_ne_nil
      simp [Origin.snapshots, hv]
  | custom m => simp [Origin.snapshots]

/-- A finding on a failed check has a stack to show. -/
theorem hasSnapshots_of_ofVerdict {label : String} {v : Verdict} {f : Finding}
    (h : ofVerdict label v = .ok f) : f.hasSnapshots = true := by
  obtain ⟨m, hm, rfl⟩ := ofVerdict_eq_ok_iff.1 h
  have hv := (Verdict.message_eq_ok_iff.1 hm).1
  exact hasSnapshots_eq_true_iff.2 hv.snapshots_ne_nil

theorem dump_eq_error_iff {f : Finding} {e : Misuse} :
    f.dump = .error e ↔ f.hasSnapshots = false ∧ e = .nothingToDump f.message := by
  unfold dump
  cases f.hasSnapshots <;> simp [eq_comm]

theorem dumpTail_eq_error_iff {f : Finding} {n : Nat} {e : Misuse} :
    f.dumpTail n = .error e ↔ f.dump = .error e := by
  unfold dumpTail
  cases f.dump <;> simp [bind, Except.bind, pure, Except.pure]

/-- Only the dump can be out of place. -/
theorem Sound.answer_eq_error_iff {o : Origin} {l : List Attachment} {f : Finding}
    (h : Sound o l f) {q : Query} {e : Misuse} :
    f.answer q = .error e ↔ (q = .dump ∨ ∃ n, q = .dumpTail n) ∧ f.dump = .error e := by
  obtain ⟨ns, hns⟩ := h.notes
  cases q with
  | dump => cases hd : f.dump <;> simp [answer, hd, Except.map]
  | dumpTail n =>
      rw [answer, ← dumpTail_eq_error_iff (n := n)]
      cases f.dumpTail n <;> simp [Except.map]
  | notes => simp [answer, hns, Except.map]
  | diagnostic => simp [answer, diagnostic_eq_ok hns, Except.map]
  | emission a => simp [answer, emit_eq_ok hns, Except.map]
  | plainEmission => simp [answer, emitPlain_eq_ok hns, Except.map]
  | _ => simp [answer]

/-- A finding that keeps a failed check was made of it: the check is a failure, at a slot of its
stack if at a slot at all, its sentence is the message, and its stacks are in front.  A finding that
keeps none has just the stacks that were attached to it.  So it has a diagnostic and can be emitted,
and no question is out of place but the dump of a message of the caller's own without any stack. -/
theorem Reachable.answers {o : Origin} {l : List Attachment} {f : Finding} (h : Reachable o l f) :
    (∀ v, f.verdict = some v →
      v ≠ .success ∧
      (∀ expected stack index, v = .typeMismatch expected stack index → index < stack.height) ∧
      (∃ label, o = .check label v ∧ v.message label = .ok f.message) ∧
      (∀ label, ∃ m, v.sentence label = .ok m) ∧
      f.snapshots = v.snapshots ++ Attachment.allSnapshots l) ∧
    (f.verdict = none → o = .custom f.message ∧ f.snapshots = Attachment.allSnapshots l) ∧
    (∃ d, f.diagnostic = .ok d) ∧ (∀ a, ∃ s, f.emit a = .ok s) ∧ (∃ s, f.emitPlain = .ok s) ∧
    (∀ e, f.dump = .error e ↔
      e = .nothingToDump f.message ∧ (∃ m, o = .custom m) ∧ Attachment.allSnapshots l = []) ∧
    ∀ q e, f.answer q = .error e ↔ (q = .dump ∨ ∃ n, q = .dumpTail n) ∧ f.dump = .error e := by
  have hs := h.sound
  obtain ⟨ns, hns⟩ := hs.notes
  refine ⟨fun v hv => ?_, fun hnone => ?_, ⟨_, diagnostic_eq_ok hns⟩,
    fun a => ⟨_, emit_eq_ok hns a⟩, ⟨_, emitPlain_eq_ok hns⟩, fun e => ?_,
    fun q e => hs.answer_eq_error_iff⟩
  · have hv' := hs.verdict.symm.trans hv
    have hexplainable := hs.explainable v hv'
    obtain ⟨label, rfl⟩ := Origin.eq_check_of_verdict? hv'
    refine ⟨hexplainable.ne_success, ?_, ⟨label, rfl, hs.message⟩, hexplainable.sentence,
      hs.snapshots_eq hv⟩
    rintro expected stack index rfl
    exact hexplainable
  · rw [hs.verdict] at hnone
    obtain ⟨m, rfl⟩ := Origin.eq_custom_of_verdict? hnone
    exact ⟨congrArg Origin.custom (Except.ok.inj hs.message), hs.snapshots⟩
  · rw [dump_eq_error_iff, hs.hasSnapshots_eq_false_iff, and_comm]

/-- A type mismatch at the last slot of its stack can be asked everything, also after a stack and
an instruction were attached. -/
theorem Reachable.answers_last_slot :
    let v : Verdict := .typeMismatch .int64 ⟨[.float, .null]⟩ 1
    let l : List Attachment := [.snapshots [.empty], .instructions ["Stelem"]]
    ∃ f, Reachable (.check "Stelem" v) l f ∧ f.verdict = some v ∧
      f.snapshots = [⟨[.float, .null]⟩, .empty] ∧ (∃ d, f.diagnostic = .ok d) ∧
      ∀ e, f.dump ≠ .error e := by
  intro v l
  obtain ⟨g, hg⟩ : ∃ g, ofOrigin (.check "Stelem" v) = .ok g := ⟨_, rfl⟩
  have hreach := ((Reachable.made hg).copied.attached (.snapshots [.empty])).attached
    (.instructions ["Stelem"])
  obtain ⟨hsome, -, hdiagnostic, -, -, hdump, -⟩ := hreach.answers
  have hverdict := hreach.sound.verdict
  obtain ⟨-, -, -, -, hsnapshots⟩ := hsome v hverdict
  refine ⟨_, hreach, hverdict, hsnapshots, hdiagnostic, fun e he => ?_⟩
  obtain ⟨-, ⟨m, hm⟩, -⟩ := (hdump e).1 he
  cases hm

end Finding

/-! ## Sessions -/

namespace Finding

theorem ofDraft_eq_ok_iff {label : String} {d : Draft} {f : Finding} :
    ofDraft label d = .ok f ↔ ∃ v, d.read = .ok v ∧ ofOrigin (.check label v) = .ok f := by
  simp only [ofDraft, bind_eq_ok_iff, liftInput_eq_ok_iff, liftMisuse_eq_ok_iff, ofOrigin]

theorem attachListings_eq_ok_iff {f g : Finding} {l : List Listing} :
    f.attachListings l = .ok g ↔
      ∃ ss, l.mapM Listing.read = .ok ss ∧ f.attach (.snapshots ss) = g := by
  simp only [attachListings, bind_eq_ok_iff, liftInput_eq_ok_iff, pure, Except.pure,
    Except.ok.injEq]

end Finding

namespace FindingSession

/-- The name that a step binds, if it binds one. -/
def Step.target? : Step → Option String
  | make target _ _ => some target
  | custom target _ => some target
  | copy _ target => some target
  | attachSnapshots _ target _ => some target
  | attachInstructions _ target _ => some target
  | ask _ _ => none

namespace State

variable {st next : State} {s : Step} {a : Answer}

/-- What a step can bind: a finding that is made, copied or attached to. -/
inductive Offers (st : State) : Finding → Prop
  | made {o : Origin} {f : Finding} (h : Finding.ofOrigin o = .ok f) : Offers st f
  | copied {source : String} {f : Finding} (h : st.finding source = .ok f) : Offers st f
  | attached {source : String} {f : Finding} (h : st.finding source = .ok f) (a : Attachment) :
      Offers st (f.attach a)

/-- All that a step can do. -/
theorem step_cases (h : st.step s = .ok (next, a)) :
    (s.target? = none ∧ next = st) ∨
      ∃ target f, s.target? = some target ∧ st.Offers f ∧ next = (st.bind target f).1 := by
  cases s with
  | make target label draft =>
      obtain ⟨f, hf, hbind⟩ := map_eq_ok_iff.1 h
      obtain ⟨v, -, hv⟩ := Finding.ofDraft_eq_ok_iff.1 hf
      exact .inr ⟨target, f, rfl, .made hv, (congrArg Prod.fst hbind).symm⟩
  | custom target message =>
      exact .inr ⟨target, .ofMessage message, rfl, .made (o := .custom message) rfl,
        (congrArg Prod.fst (Except.ok.inj h)).symm⟩
  | copy source target =>
      obtain ⟨f, hf, hbind⟩ := map_eq_ok_iff.1 h
      exact .inr ⟨target, f, rfl, .copied hf, (congrArg Prod.fst hbind).symm⟩
  | attachSnapshots source target snapshots =>
      obtain ⟨f, hf, hrest⟩ := bind_eq_ok_iff.1 h
      obtain ⟨g, hg, hbind⟩ := bind_eq_ok_iff.1 hrest
      obtain ⟨ss, -, rfl⟩ := Finding.attachListings_eq_ok_iff.1 hg
      exact .inr ⟨target, _, rfl, .attached hf (.snapshots ss),
        (congrArg Prod.fst (Except.ok.inj hbind)).symm⟩
  | attachInstructions source target instructions =>
      obtain ⟨f, hf, hbind⟩ := bind_eq_ok_iff.1 h
      exact .inr ⟨target, _, rfl, .attached hf (.instructions instructions),
        (congrArg Prod.fst (Except.ok.inj hbind)).symm⟩
  | ask source query =>
      obtain ⟨f, -, hrest⟩ := bind_eq_ok_iff.1 h
      obtain ⟨answer, -, hkeep⟩ := bind_eq_ok_iff.1 hrest
      exact .inl ⟨rfl, (congrArg Prod.fst (Except.ok.inj hkeep)).symm⟩

/-- Every name is bound to a reachable finding. -/
def Sound (st : State) : Prop :=
  ∀ name f, st.findings.find? name = some f → ∃ o l, Finding.Reachable o l f

theorem sound_initial : State.initial.Sound := by
  intro name f h
  cases h

theorem Sound.finding (h : st.Sound) {name : String} {f : Finding}
    (hf : st.finding name = .ok f) : ∃ o l, Finding.Reachable o l f := by
  unfold State.finding at hf
  cases hfind : st.findings.find? name with
  | none => simp [hfind] at hf
  | some g =>
      obtain rfl : g = f := by simpa [hfind] using hf
      exact h name g hfind

theorem Sound.offers (h : st.Sound) {f : Finding} (hf : st.Offers f) :
    ∃ o l, Finding.Reachable o l f := by
  cases hf with
  | made hmade => exact ⟨_, _, .made hmade⟩
  | copied hfind =>
      obtain ⟨o, l, hreach⟩ := h.finding hfind
      exact ⟨o, l, hreach.copied⟩
  | attached hfind a =>
      obtain ⟨o, l, hreach⟩ := h.finding hfind
      exact ⟨o, _, hreach.attached a⟩

theorem Sound.step (h : st.Sound) (hstep : st.step s = .ok (next, a)) : next.Sound := by
  rcases step_cases hstep with ⟨-, rfl⟩ | ⟨target, f, -, hf, rfl⟩
  · exact h
  · intro name g hg
    by_cases hname : name = target
    · subst hname
      rw [State.bind, Bindings.find?_bind_self] at hg
      obtain rfl := Option.some.inj hg
      exact h.offers hf
    · rw [State.bind, Bindings.find?_bind_of_ne hname] at hg
      exact h name g hg

/-- A step that fails changes nothing. -/
theorem Sound.attempt (h : st.Sound) (s : Step) : (st.attempt s).1.Sound := by
  unfold State.attempt
  cases hstep : st.step s with
  | error e => exact h
  | ok r => exact h.step hstep

theorem Sound.run (h : st.Sound) (steps : List Step) : (st.run steps).1.Sound := by
  induction steps generalizing st with
  | nil => exact h
  | cons s steps ih => exact ih (h.attempt s)

/-- Whatever the steps of a session are, what it binds is reachable. -/
theorem sound_run (steps : List Step) : (State.initial.run steps).1.Sound :=
  sound_initial.run steps

end State

end FindingSession

end StackVerdict
