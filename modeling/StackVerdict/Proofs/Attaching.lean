import StackVerdict.Proofs.Reachable

/-!
# The order of attachments

A finding keeps its stacks and its instructions apart and puts what is attached behind them, so a
list of attachments comes to the stacks in it and the instructions in it, each in order
(`Finding.attachAll_eq`).  In which turns the two were attached, and how many at a time, no question
can find out (`Finding.answer_attachAll_eq_iff`).  In a session every attachment is bound to a name
and leaves the other names alone (`FindingSession.State.finding_attempt`), so attachments that
follow one another add up, whatever is done in between (`FindingSession.Attaches.finding_run`).
-/

namespace StackVerdict

namespace Finding

variable {f : Finding} {as bs : List Attachment}

/-- What is attached comes to its stacks and its instructions. -/
theorem attachAll_congr (hsnapshots : Attachment.allSnapshots as = Attachment.allSnapshots bs)
    (hinstructions : Attachment.allInstructions as = Attachment.allInstructions bs) :
    f.attachAll as = f.attachAll bs := by
  rw [attachAll_eq, attachAll_eq, hsnapshots, hinstructions]

/-- Findings that answer every question alike got the same stacks and the same instructions, each in
the same order, in whatever turns. -/
theorem answer_attachAll_eq_iff :
    (∀ q, (f.attachAll as).answer q = (f.attachAll bs).answer q) ↔
      Attachment.allSnapshots as = Attachment.allSnapshots bs ∧
        Attachment.allInstructions as = Attachment.allInstructions bs := by
  constructor
  · intro h
    have hsnapshots := h .snapshots
    have hinstructions := h .instructions
    simp only [answer, attachAll_eq, Except.ok.injEq, Answer.snapshots.injEq, Answer.texts.injEq,
      List.append_cancel_left_eq] at hsnapshots hinstructions
    exact ⟨hsnapshots, hinstructions⟩
  · rintro ⟨hsnapshots, hinstructions⟩ q
    rw [attachAll_congr hsnapshots hinstructions]

end Finding

namespace FindingSession

/-! ## Steps -/

namespace State

variable {st : State} {s : Step} {name target : String} {f : Finding}

theorem finding_bind_self (st : State) (target : String) (f : Finding) :
    (st.bind target f).1.finding target = .ok f := by
  rw [finding, bind, Bindings.find?_bind_self]

theorem finding_bind_of_ne (h : name ≠ target) (st : State) (f : Finding) :
    (st.bind target f).1.finding name = st.finding name := by
  rw [finding, finding, bind, Bindings.find?_bind_of_ne h]

theorem attempt_of_ok {next : State} {a : Answer} (h : st.step s = .ok (next, a)) :
    st.attempt s = (next, .ok a) := by
  rw [attempt, h]

theorem attempt_of_error {e : Fault} (h : st.step s = .error e) :
    st.attempt s = (st, .error e) := by
  rw [attempt, h]

/-- A step that is answered with a fault leaves the session as it is. -/
theorem attempt_fst_of_error {e : Fault} (h : (st.attempt s).2 = .error e) :
    (st.attempt s).1 = st := by
  cases hstep : st.step s with
  | error e' => rw [attempt_of_error hstep]
  | ok r =>
      rw [attempt_of_ok hstep] at h
      cases h

/-- A step binds no name but its target. -/
theorem finding_attempt (h : s.target? ≠ some name) :
    (st.attempt s).1.finding name = st.finding name := by
  cases hstep : st.step s with
  | error e => rw [attempt_of_error hstep]
  | ok r =>
      rw [attempt_of_ok hstep]
      rcases step_cases hstep with ⟨-, hkeep⟩ | ⟨target, f, htarget, -, hbind⟩
      · rw [hkeep]
      · have hne : name ≠ target := fun heq => h (heq ▸ htarget)
        rw [hbind, finding_bind_of_ne hne]

/-- A step that is carried out binds its target. -/
theorem finding_attempt_of_bind (h : st.step s = .ok (st.bind target f)) :
    (st.attempt s).1.finding target = .ok f := by
  rw [attempt, h]
  exact finding_bind_self st target f

theorem finding_attempt_attachSnapshots {ls : List Listing} {ss : List Snapshot}
    (hf : st.finding name = .ok f) (hread : ls.mapM Listing.read = .ok ss) (target : String) :
    (st.attempt (.attachSnapshots name target ls)).1.finding target =
      .ok (f.attach (.snapshots ss)) := by
  have hattach : f.attachListings ls = .ok (f.attach (.snapshots ss)) :=
    Finding.attachListings_eq_ok_iff.2 ⟨ss, hread, rfl⟩
  apply finding_attempt_of_bind
  rw [step, hf, ok_bind, hattach]
  rfl

theorem finding_attempt_attachInstructions (hf : st.finding name = .ok f) (target : String)
    (xs : List String) :
    (st.attempt (.attachInstructions name target xs)).1.finding target =
      .ok (f.attach (.instructions xs)) := by
  apply finding_attempt_of_bind
  rw [step, hf]
  rfl

/-- A question is answered by the finding that is bound to the name, and changes nothing. -/
theorem attempt_ask (hf : st.finding name = .ok f) (q : Finding.Query) :
    st.attempt (.ask name q) = (st, (liftMisuse (f.answer q)).map .answered) := by
  rw [attempt, step, hf, ok_bind]
  cases f.answer q <;> rfl

end State

/-! ## Runs -/

/-- Steps of which some attach the given things to a finding, one after the other: the first to what
is bound to the first name, and each of the rest to what the one before it bound.  The steps between
them can be any that do not bind the name that is due. -/
inductive Attaches : String → List Step → String → List Attachment → Prop
  | done (name : String) : Attaches name [] name []
  | snapshots {ls : List Listing} {ss : List Snapshot} {source target final : String}
      {steps : List Step} {l : List Attachment} (hread : ls.mapM Listing.read = .ok ss)
      (h : Attaches target steps final l) :
      Attaches source (.attachSnapshots source target ls :: steps) final (.snapshots ss :: l)
  | instructions {xs : List String} {source target final : String} {steps : List Step}
      {l : List Attachment} (h : Attaches target steps final l) :
      Attaches source (.attachInstructions source target xs :: steps) final (.instructions xs :: l)
  | between {s : Step} {name final : String} {steps : List Step} {l : List Attachment}
      (hs : s.target? ≠ some name) (h : Attaches name steps final l) :
      Attaches name (s :: steps) final l

theorem attaches_nil {name : String} {steps : List Step}
    (h : ∀ s ∈ steps, s.target? ≠ some name) : Attaches name steps name [] := by
  induction steps with
  | nil => exact .done name
  | cons s steps ih =>
      rw [List.forall_mem_cons] at h
      exact .between h.1 (ih h.2)

/-- Attachments that follow one another add up under the name that the last of them binds. -/
theorem Attaches.finding_run {name final : String} {steps : List Step} {l : List Attachment}
    (h : Attaches name steps final l) {st : State} {f : Finding} (hf : st.finding name = .ok f) :
    (st.run steps).1.finding final = .ok (f.attachAll l) := by
  -- every step leads to another session, and every attachment to another finding
  induction h generalizing st f with
  | done name => exact hf
  | snapshots hread _ ih => exact ih (State.finding_attempt_attachSnapshots hf hread _)
  | instructions _ ih => exact ih (State.finding_attempt_attachInstructions hf _ _)
  | between hs _ ih => exact ih ((State.finding_attempt hs).trans hf)

/-- Attachments are told apart by no question just where they hold the same stacks and the same
instructions, each in order; in whatever turns they come, message and verdict stay.  In a session
the name that the last of them is bound to answers every question accordingly.  Steps under other
names change no answer of the finding itself, and a step that fails changes nothing. -/
theorem attachments_commute (f : Finding) (as bs : List Attachment) :
    ((∀ q, (f.attachAll as).answer q = (f.attachAll bs).answer q) ↔
      Attachment.allSnapshots as = Attachment.allSnapshots bs ∧
        Attachment.allInstructions as = Attachment.allInstructions bs) ∧
    ((f.attachAll as).answer .message = .ok (.text f.message) ∧
      (f.attachAll as).answer .verdict = .ok (.verdict f.verdict)) ∧
    (∀ (st : State) name, st.finding name = .ok f →
      (∀ steps final, Attaches name steps final as →
        ∀ q, ((st.run steps).1.attempt (.ask final q)).2 =
          (liftMisuse ((f.attachAll as).answer q)).map .answered) ∧
      ∀ steps, (∀ s ∈ steps, s.target? ≠ some name) →
        ∀ q, ((st.run steps).1.attempt (.ask name q)).2 = (st.attempt (.ask name q)).2) ∧
    ∀ (st : State) s e, (st.attempt s).2 = .error e → (st.attempt s).1 = st := by
  refine ⟨Finding.answer_attachAll_eq_iff, ⟨?_, ?_⟩, fun st name hf => ⟨fun steps final h q => ?_,
    fun steps hother q => ?_⟩, fun st s e => State.attempt_fst_of_error⟩
  · rw [Finding.attachAll_eq, Finding.answer]
  · rw [Finding.attachAll_eq, Finding.answer]
  · rw [State.attempt_ask (h.finding_run hf)]
  · have hkept := (attaches_nil hother).finding_run hf
    rw [State.attempt_ask hkept, State.attempt_ask hf, Finding.attachAll_nil]

/-- Two findings are made of one in the same session, in different turns and with a step between
them that fails. -/
theorem attachments_commute_one_session :
    let st := (State.initial.run [.custom "e" "m"]).1
    let steps : List Step :=
      [.attachSnapshots "e" "a" [⟨.topDown, ["Int32", "Float"]⟩],
        .attachInstructions "e" "b" ["Dup"], .attachSnapshots "a" "c" [⟨.topDown, [""]⟩],
        .attachInstructions "a" "a" ["Dup"],
        .attachSnapshots "b" "b" [⟨.bottomUp, ["Float", "Int32"]⟩, ⟨.topDown, []⟩],
        .attachSnapshots "a" "a" [⟨.captured, []⟩]]
    let later := (st.run steps).1
    (∀ q, (later.attempt (.ask "a" q)).2 = (later.attempt (.ask "b" q)).2) ∧
      (later.attempt (.ask "e" .dump)).2 = .error (.misuse (.nothingToDump "m")) := by
  intro st steps later
  let f := Finding.ofMessage "m"
  let s : Snapshot := ⟨[.int32, .float]⟩
  let as : List Attachment := [.snapshots [s], .instructions ["Dup"], .snapshots [.empty]]
  let bs : List Attachment := [.instructions ["Dup"], .snapshots [s, .empty]]
  have hf : st.finding "e" = .ok f := rfl
  have ha : Attaches "e" steps "a" as :=
    .snapshots rfl (.between (by decide) (.between (by decide) (.instructions
      (.between (by decide) (.snapshots rfl (.done "a"))))))
  have hb : Attaches "e" steps "b" bs :=
    .between (by decide) (.instructions (.between (by decide) (.between (by decide)
      (.snapshots rfl (.between (by decide) (.done "b"))))))
  obtain ⟨hsame, -, hsession, -⟩ := attachments_commute f as bs
  obtain ⟨-, -, hsession', -⟩ := attachments_commute f bs as
  obtain ⟨hfirst, hkept⟩ := hsession st "e" hf
  refine ⟨fun q => ?_, ?_⟩
  · rw [hfirst steps "a" ha q, (hsession' st "e" hf).1 steps "b" hb q, hsame.2 ⟨rfl, rfl⟩ q]
  · rw [hkept steps (by decide) .dump]
    rfl

end FindingSession

end StackVerdict
