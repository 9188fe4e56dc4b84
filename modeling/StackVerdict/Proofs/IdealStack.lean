import StackVerdict.Proofs.Except
import StackVerdict.Proofs.Orientation
import StackVerdict.Session.Stack

/-!
# The ideal stack

The ideal stack of a session is a list of names with its top at the head: a push puts a name in
front, a pop takes the first one off.  The working stack grows at its end, and read from there it is
the ideal stack after every step (`State.stacked_attempt`), so also after every run
(`State.stacked_run`).  A picture is bound to a name until a step that is carried out binds the name
again (`State.find?_run`).  Therefore a capture shows the ideal stack of its moment, and whatever is
asked about it later is answered from that (`State.capture_refines`).
-/

namespace StackVerdict

namespace StackSession

/-! ## The ideal machine -/

/-- The ideal stack after one more step.  The empty name cannot be pushed, and steps that are not
about the working stack leave it alone. -/
def idealStep (l : List String) : Step → List String
  | .push name => if name = "" then l else name :: l
  | .pop => l.tail
  | .clear => []
  | _ => l

/-- The ideal stack after steps that start from an empty one. -/
def ideal (steps : List Step) : List String := steps.foldl idealStep []

/-- The name that a step binds if it is carried out. -/
def Step.target? : Step → Option String
  | capture target => some target
  | make target _ => some target
  | copy _ target => some target
  | _ => none

theorem idealStep_of_target? {s : Step} {target : String} (h : s.target? = some target)
    (l : List String) : idealStep l s = l := by
  cases s <;> first | rfl | cases h

/-! ## Steps -/

namespace State

variable {st next : State} {s : Step} {a : Answer} {target : String}

/-- The names on the working stack, the top first. -/
def stacked (st : State) : List String :=
  (st.working.values.toList.map TypeName.name).reverse

/-- All that a step does when it is carried out. -/
inductive Moves (st : State) : Step → State → Prop
  | push (t : TypeName) : Moves st (.push t.name) (st.work (st.working.push t)).1
  | pop : Moves st .pop (st.work st.working.pop).1
  | clear : Moves st .clear (st.work .empty).1
  | bound {s : Step} {target : String} (h : s.target? = some target) (p : Snapshot) :
      Moves st s (st.bind target p).1
  | asked (source : String) (q : Query) : Moves st (.ask source q) st

theorem moves_of_step (h : st.step s = .ok (next, a)) : st.Moves s next := by
  cases s with
  | push name =>
      obtain ⟨t, ht, hwork⟩ := map_eq_ok_iff.1 h
      obtain rfl := TypeName.ofString_eq_ok_iff.1 (liftInput_eq_ok_iff.1 ht)
      obtain rfl := congrArg Prod.fst hwork
      exact .push t
  | pop =>
      obtain rfl := congrArg Prod.fst (Except.ok.inj h)
      exact .pop
  | clear =>
      obtain rfl := congrArg Prod.fst (Except.ok.inj h)
      exact .clear
  | capture target =>
      obtain rfl := congrArg Prod.fst (Except.ok.inj h)
      exact .bound rfl _
  | make target stack =>
      obtain ⟨p, -, hbind⟩ := map_eq_ok_iff.1 h
      obtain rfl := congrArg Prod.fst hbind
      exact .bound rfl p
  | copy source target =>
      obtain ⟨p, -, hbind⟩ := map_eq_ok_iff.1 h
      obtain rfl := congrArg Prod.fst hbind
      exact .bound rfl p
  | ask source q =>
      obtain ⟨p, -, hrest⟩ := bind_eq_ok_iff.1 h
      obtain ⟨b, -, hkeep⟩ := bind_eq_ok_iff.1 hrest
      obtain rfl := congrArg Prod.fst (Except.ok.inj hkeep)
      exact .asked source q

theorem Moves.stacked_eq (h : st.Moves s next) : next.stacked = idealStep st.stacked s := by
  cases h with
  | push t => simp [stacked, work, WorkingStack.push, idealStep, t.name_ne]
  | pop => simp [stacked, work, WorkingStack.pop, idealStep]
  | clear => simp [stacked, work, WorkingStack.empty, idealStep]
  | bound h p => rw [idealStep_of_target? h]; rfl
  | asked source q => rfl

/-- A push fails just where its name is empty. -/
theorem exists_step_push_eq_error_iff {name : String} :
    (∃ e, st.step (.push name) = .error e) ↔ name = "" := by
  cases h : TypeName.ofString name with
  | error e =>
      have hname := (TypeName.ofString_eq_error_iff.1 h).1
      rw [step, h]
      exact ⟨fun _ => hname, fun _ => ⟨.input e, rfl⟩⟩
  | ok t =>
      have hname : name ≠ "" := by
        rw [← TypeName.ofString_eq_ok_iff.1 h]
        exact t.name_ne
      rw [step, h]
      exact ⟨fun ⟨_, he⟩ => (nomatch he), fun hempty => absurd hempty hname⟩

/-- A step that fails is none that the ideal stack would make. -/
theorem idealStep_of_error {e : Fault} (h : st.step s = .error e) (l : List String) :
    idealStep l s = l := by
  cases s with
  | push name => exact if_pos (exists_step_push_eq_error_iff.1 ⟨e, h⟩)
  | pop => cases h
  | clear => cases h
  | _ => rfl

theorem stacked_attempt (st : State) (s : Step) :
    (st.attempt s).1.stacked = idealStep st.stacked s := by
  unfold attempt
  cases h : st.step s with
  | error e => exact (idealStep_of_error h _).symm
  | ok r => exact (moves_of_step h).stacked_eq

/-! ## Runs -/

theorem run_append (st : State) (before after : List Step) :
    (st.run (before ++ after)).1 = ((st.run before).1.run after).1 := by
  induction before generalizing st with
  | nil => rfl
  | cons s before ih => exact ih (st.attempt s).1

theorem stacked_run (st : State) (steps : List Step) :
    (st.run steps).1.stacked = steps.foldl idealStep st.stacked := by
  induction steps generalizing st with
  | nil => rfl
  | cons s steps ih =>
      rw [List.foldl_cons, ← stacked_attempt]
      exact ih (st.attempt s).1

/-- No step binds the name again, unless it fails. -/
def Keeps (target : String) (st : State) : List Step → Prop
  | [] => True
  | s :: steps =>
      (s.target? = some target → ∃ e, st.step s = .error e) ∧ Keeps target (st.attempt s).1 steps

theorem Moves.find?_eq (h : st.Moves s next) (hs : s.target? ≠ some target) :
    next.pictures.find? target = st.pictures.find? target := by
  cases h with
  | @bound _ name hname p =>
      have hne : target ≠ name := fun heq => hs (heq ▸ hname)
      exact Bindings.find?_bind_of_ne hne _ p
  | _ => rfl

theorem find?_attempt (h : s.target? = some target → ∃ e, st.step s = .error e) :
    (st.attempt s).1.pictures.find? target = st.pictures.find? target := by
  unfold attempt
  cases hstep : st.step s with
  | error e => rfl
  | ok r =>
      refine (moves_of_step hstep).find?_eq fun htarget => ?_
      obtain ⟨e, he⟩ := h htarget
      simp [hstep] at he

theorem find?_run {steps : List Step} (h : st.Keeps target steps) :
    (st.run steps).1.pictures.find? target = st.pictures.find? target := by
  induction steps generalizing st with
  | nil => rfl
  | cons s steps ih =>
      rw [← find?_attempt h.1]
      exact ih h.2

/-! ## Captures -/

/-- What is to be answered about a picture of the ideal stack; another picture is compared as it is
bound by then. -/
def Tells (pictures : Bindings Snapshot) (l : List String) : Query → Except Fault Answer → Prop
  | .describe, r => ∃ p, r = .ok (.description p) ∧ p.slots.map TypeName.name = l
  | .find i, r => ∃ t, r = .ok (.slot t) ∧ t.map TypeName.name = l[i]?
  | .read i, r =>
      (∀ n, l[i]? = some n → ∃ t, r = .ok (.slot (some t)) ∧ t.name = n) ∧
        (l[i]? = none → r = .error (.misuse (.slotOutside i l.length)))
  | .visit, r => ∃ ts, r = .ok (.slots ts) ∧ ts.map TypeName.name = l
  | .line, r => r = .ok (.text ("[" ++ ", ".intercalate l ++ "]"))
  | .same other, r =>
      match pictures.find? other with
      | some p => r = .ok (.truth (decide (l = p.slots.map TypeName.name)))
      | none => r = .error (.unbound other)

theorem tells_answer (st : State) (p : Snapshot) (q : Query) :
    Tells st.pictures (p.slots.map TypeName.name) q (st.answer p q) := by
  cases q with
  | describe => exact ⟨p, rfl, rfl⟩
  | find i => exact ⟨p.get? i, rfl, by rw [Snapshot.get?, List.getElem?_map]⟩
  | read i =>
      refine ⟨fun n hn => ?_, fun hnone => ?_⟩
      · rw [List.getElem?_map, Option.map_eq_some_iff] at hn
        obtain ⟨t, ht, rfl⟩ := hn
        have hget : p.get i = .ok t := Snapshot.get_eq_ok_iff.2 ht
        exact ⟨t, by rw [answer, hget]; rfl, rfl⟩
      · rw [List.getElem?_map, Option.map_eq_none_iff] at hnone
        have hget : p.get i = .error (.slotOutside i p.height) := by
          rw [Snapshot.get, Snapshot.get?, hnone]
        rw [answer, hget, List.length_map]
        rfl
  | visit => exact ⟨p.slots, by rw [answer]; simp [Snapshot.foldl], rfl⟩
  | line => rfl
  | same other =>
      rw [answer, picture, Tells]
      cases st.pictures.find? other with
      | none => rfl
      | some r =>
          have hsame :
              (p == r) = decide (p.slots.map TypeName.name = r.slots.map TypeName.name) := by
            rw [Bool.eq_iff_iff, beq_iff_eq, decide_eq_true_iff, Snapshot.map_name_inj]
          show Except.ok (Answer.truth (p == r)) = _
          rw [hsame]

theorem names_capture (st : State) :
    (Snapshot.capture st.working).slots.map TypeName.name = st.stacked :=
  List.map_reverse

/-- A capture shows the ideal stack of its moment, slot by slot from the top, and until its name is
bound again it is asked about with the answers of that moment, whatever else is done and whatever
fails in between. -/
theorem capture_refines {before between : List Step} {target : String}
    (hkept : ((State.initial.run before).1.attempt (.capture target)).1.Keeps target between) :
    let st := (State.initial.run before).1
    let later := (State.initial.run (before ++ .capture target :: between)).1
    (∀ name, (∃ e, st.step (.push name) = .error e) ↔ name = "") ∧
    ∃ p, (st.attempt (.capture target)).2 = .ok (.bound p) ∧
      p.slots.map TypeName.name = ideal before ∧
      (∀ i, (p.get? i).map TypeName.name = (ideal before)[i]?) ∧
      (∀ i, p.get? i = none ↔ (ideal before).length ≤ i) ∧
      p.bottomUp.map TypeName.name = (ideal before).reverse ∧
      ∀ q, (later.attempt (.ask target q)).1 = later ∧
        Tells later.pictures (ideal before) q (later.attempt (.ask target q)).2 := by
  intro st later
  have hideal : (Snapshot.capture st.working).slots.map TypeName.name = ideal before := by
    rw [names_capture]
    exact stacked_run .initial before
  have hbound : later.picture target = .ok (.capture st.working) := by
    have hfind : later.pictures.find? target = some (.capture st.working) := by
      show ((State.initial.run (before ++ .capture target :: between)).1).pictures.find? target = _
      rw [run_append]
      exact (find?_run hkept).trans (Bindings.find?_bind_self _ _ _)
    rw [picture, hfind]
  refine ⟨fun _ => exists_step_push_eq_error_iff, _, rfl, hideal, fun i => ?_, fun i => ?_, ?_,
    fun q => ?_⟩
  · rw [← hideal, List.getElem?_map]
    rfl
  · rw [Snapshot.get?_eq_none_iff, ← hideal, List.length_map]
    rfl
  · rw [← hideal, Snapshot.bottomUp, List.map_reverse]
  · have hask : later.attempt (.ask target q) = (later, later.answer (.capture st.working) q) := by
      rw [attempt, step, hbound, ok_bind]
      cases later.answer (.capture st.working) q <;> rfl
    rw [hask, ← hideal]
    exact ⟨rfl, tells_answer later _ q⟩

/-- Pushing over what was captured does not change the capture, nor do steps that fail, also where
they would bind its name. -/
theorem capture_refines_failing_steps :
    let before : List Step := [.push "A", .push "", .push "B"]
    let between : List Step := [.pop, .push "C", .copy "none" "s", .make "s" ⟨.captured, [""]⟩,
      .capture "t", .clear]
    let later := (State.initial.run (before ++ .capture "s" :: between)).1
    ((State.initial.run before).1.attempt (.capture "s")).1.Keeps "s" between ∧
      ideal before = ["B", "A"] ∧ ideal (before ++ .capture "s" :: between) = [] ∧
      (∃ t, (later.attempt (.ask "s" (.read 0))).2 = .ok (.slot (some t)) ∧ t.name = "B") ∧
      (later.attempt (.ask "s" (.read 2))).2 = .error (.misuse (.slotOutside 2 2)) ∧
      (later.attempt (.ask "s" .line)).2 = .ok (.text "[B, A]") := by
  intro before between later
  have hkept : ((State.initial.run before).1.attempt (.capture "s")).1.Keeps "s" between :=
    ⟨fun h => absurd h (by decide), fun h => absurd h (by decide), fun _ => ⟨_, rfl⟩,
      fun _ => ⟨_, rfl⟩, fun h => absurd h (by decide), fun h => absurd h (by decide), trivial⟩
  obtain ⟨-, p, -, -, -, -, -, htells⟩ := capture_refines hkept
  exact ⟨hkept, by decide, by decide, (htells (.read 0)).2.1 "B" (by decide),
    (htells (.read 2)).2.2 (by decide), (htells .line).2⟩

end State

end StackSession

end StackVerdict
