import StackVerdict.Finding.Event
import StackVerdict.Proofs.Drafts
import StackVerdict.Proofs.Notes
import StackVerdict.Proofs.Run

/-!
# The guards on a slot

That a type mismatch points at a slot of its stack is looked at when the verdict is checked, looked
at again before it is explained, and relied upon by the message and by the remarks, which both read
the slot.  All of them draw the line at the height of the stack (`Verdict.exists_ofMismatch_iff`,
`Verdict.vet_eq_ok_iff`).  Behind the guard in front of the message nothing fails
(`Verdict.message_eq_error_iff`), so a finding comes about just where its verdict can be explained,
and one event is recorded just where a finding comes about (`Finding.guards_agree`).
-/

namespace StackVerdict

namespace Verdict

variable {label : String} {v : Verdict} {e : Misuse}

theorem exists_ofMismatch_iff {expected : TypeName} {stack : Snapshot} {index : Nat} :
    (∃ w, ofMismatch expected stack index = .ok w) ↔
      (typeMismatch expected stack index).Explainable := by
  simp only [ofMismatch_eq_ok_iff, exists_and_left, exists_eq, and_true, Explainable]

theorem vet_eq_error_iff :
    v.vet label = .error e ↔
      v = .success ∧ e = .explainedSuccess label ∨
        ∃ expected stack index, v = .typeMismatch expected stack index ∧ stack.height ≤ index ∧
          e = .explainedOutside label index stack.height := by
  cases v with
  | success => simp [vet, eq_comm]
  | typeMismatch expected stack index =>
      rw [vet]
      by_cases h : stack.height ≤ index
      · simp [h, eq_comm]
      · simp [h]
  | _ => simp [vet]

/-- What is let through has a sentence. -/
theorem message_eq_error_iff : v.message label = .error e ↔ v.vet label = .error e := by
  rw [message, bind_eq_error_iff]
  refine or_iff_left ?_
  rintro ⟨⟨⟩, hvet, hsentence⟩
  obtain ⟨m, hm⟩ := (vet_eq_ok_iff.1 hvet).sentence label
  rw [hm] at hsentence
  cases hsentence

theorem exists_message_iff : (∃ m, v.message label = .ok m) ↔ v.Explainable := by
  simp only [message_eq_ok_iff, exists_and_left]
  exact and_iff_left_of_imp fun h => h.sentence label

end Verdict

namespace Finding

variable {label : String} {v : Verdict} {f : Finding} {o : Origin} {e : Misuse}

theorem ofVerdict_eq_error_iff : ofVerdict label v = .error e ↔ v.message label = .error e := by
  rw [ofVerdict, bind_eq_error_iff]
  refine or_iff_left ?_
  rintro ⟨m, -, h⟩
  cases h

theorem exists_ofVerdict_iff : (∃ f, ofVerdict label v = .ok f) ↔ v.Explainable := by
  have hmessage : (∃ m, v.message label = .ok m) ↔ v.Explainable := Verdict.exists_message_iff
  rw [← hmessage]
  constructor
  · rintro ⟨f, hf⟩
    obtain ⟨m, hm, -⟩ := ofVerdict_eq_ok_iff.1 hf
    exact ⟨m, hm⟩
  · rintro ⟨m, hm⟩
    exact ⟨_, ofVerdict_eq_ok_iff.2 ⟨m, hm, rfl⟩⟩

/-- Message and remarks quote the slot that a type mismatch is about. -/
theorem exists_found {expected : TypeName} {stack : Snapshot} {index : Nat}
    (h : ofVerdict label (.typeMismatch expected stack index) = .ok f) :
    ∃ found, stack.get? index = some found ∧
      f.message = label ++ " expected " ++ article expected.name ++ " " ++ expected.name ++
        "; found " ++ found.name ∧
      f.remarks = .ok [.holds index found, .requires expected] := by
  obtain ⟨m, hm, rfl⟩ := ofVerdict_eq_ok_iff.1 h
  obtain ⟨-, hsentence⟩ := Verdict.message_eq_ok_iff.1 hm
  obtain ⟨found, hfound, hm⟩ := bind_eq_ok_iff.1 hsentence
  refine ⟨found, Snapshot.get_eq_ok_iff.1 hfound, (Except.ok.inj hm).symm, ?_⟩
  exact Verdict.remarks_typeMismatch.2 ⟨found, hfound, rfl⟩

/-! ## What is recorded -/

theorem record_of_ok (h : ofOrigin o = .ok f) : record o = (.ok f, [o.event f.message]) := by
  rw [record, h]

theorem record_of_error (h : ofOrigin o = .error e) : record o = (.error e, []) := by
  rw [record, h]

theorem record_fst (o : Origin) : (record o).1 = ofOrigin o := by
  cases h : ofOrigin o with
  | ok f => rw [record_of_ok h]
  | error e => rw [record_of_error h]

/-- A type mismatch is accepted by its check just where the slot is in the stack, which is just
where its message and its finding come about; the notes of the finding then quote the slot.  No
finding comes about of a success and of a slot outside, for the reason for which there is no
message, and nothing is recorded then.  Every other finding is recorded in one event with its label,
the kind of its verdict and its message. -/
theorem guards_agree (label : String) :
    (∀ expected stack index,
      let v := Verdict.typeMismatch expected stack index
      let checked := Verdict.ofMismatch expected stack index
      (∀ w, checked = .ok w ↔ index < stack.height ∧ w = v) ∧
      (∀ e, checked = .error e ↔
        stack.height ≤ index ∧ e = .slotOutOfBounds index stack.height) ∧
      ((∃ w, checked = .ok w) ↔ ∃ m, v.message label = .ok m) ∧
      ((∃ w, checked = .ok w) ↔ v.vet label = .ok ()) ∧
      ((∃ w, checked = .ok w) ↔ ∃ f, ofVerdict label v = .ok f) ∧
      ∀ f, ofVerdict label v = .ok f →
        ∃ found, stack.get? index = some found ∧
          f.message = label ++ " expected " ++ article expected.name ++ " " ++ expected.name ++
            "; found " ++ found.name ∧
          f.notes = .ok
            (("note: slot " ++ index.repr ++ " (counting from the top of the stack) holds `" ++
                found.name ++ "`") ::
              ("note: instruction requires `" ++ expected.name ++ "` in this slot") ::
              f.exhibits.map Exhibit.note)) ∧
    ∀ v : Verdict,
      let r := record (.check label v)
      (∀ e, ofVerdict label v = .error e ↔
        v = .success ∧ e = .explainedSuccess label ∨
          ∃ expected stack index, v = .typeMismatch expected stack index ∧ stack.height ≤ index ∧
            e = .explainedOutside label index stack.height) ∧
      (∀ e, ofVerdict label v = .error e ↔ v.message label = .error e) ∧
      r.1 = ofVerdict label v ∧
      (∀ e, ofVerdict label v = .error e → r.2 = []) ∧
      ∀ f, ofVerdict label v = .ok f →
        ∃ w, f.verdict = some w ∧
          r.2 = [⟨[("message", "constructed verification error"), ("label", label),
            ("kind", w.kind.text), ("message", f.message)]⟩] := by
  refine ⟨fun expected stack index => ?_, fun v => ?_⟩
  · refine ⟨fun w => Verdict.ofMismatch_eq_ok_iff, fun e => Verdict.ofMismatch_eq_error_iff,
      Verdict.exists_ofMismatch_iff.trans Verdict.exists_message_iff.symm,
      Verdict.exists_ofMismatch_iff.trans Verdict.vet_eq_ok_iff.symm,
      Verdict.exists_ofMismatch_iff.trans exists_ofVerdict_iff.symm, fun f hf => ?_⟩
    obtain ⟨found, hfound, hmessage, hremarks⟩ := exists_found hf
    refine ⟨found, hfound, hmessage, ?_⟩
    rw [notes_eq_ok hremarks, List.map_cons, List.map_cons, Remark.text_holds, Remark.text_requires]
    simp [← String.append_assoc]
  · refine ⟨fun e => ?_, fun e => ofVerdict_eq_error_iff, record_fst _, fun e he => ?_,
      fun f hf => ?_⟩
    · rw [ofVerdict_eq_error_iff, Verdict.message_eq_error_iff, Verdict.vet_eq_error_iff]
    · have horigin : ofOrigin (.check label v) = .error e := he
      rw [record_of_error horigin]
    · have horigin : ofOrigin (.check label v) = .ok f := hf
      obtain ⟨m, -, rfl⟩ := ofVerdict_eq_ok_iff.1 hf
      refine ⟨v, rfl, ?_⟩
      rw [record_of_ok horigin]
      rfl

/-- The line is drawn between the last slot and the height of the stack: the slot is quoted in one
recorded finding, and one place further down there is neither a finding nor a record. -/
theorem guards_agree_at_height :
    let s : Snapshot := ⟨[.object, .float]⟩
    let v (i : Nat) : Verdict := .typeMismatch .int32 s i
    (Verdict.ofMismatch .int32 s 1 = .ok (v 1) ∧
      ∃ f, ofVerdict "Add" (v 1) = .ok f ∧ f.message = "Add expected an Int32; found Float" ∧
        (record (.check "Add" (v 1))).2 =
          [⟨[("message", "constructed verification error"), ("label", "Add"),
            ("kind", "type mismatch"), ("message", f.message)]⟩]) ∧
    Verdict.ofMismatch .int32 s 2 = .error (.slotOutOfBounds 2 2) ∧
      ofVerdict "Add" (v 2) = .error (.explainedOutside "Add" 2 2) ∧
      (record (.check "Add" (v 2))).2 = [] := by
  intro s v
  obtain ⟨hslot, hverdict⟩ := guards_agree "Add"
  obtain ⟨hchecked, -, -, -, hfinding, hquoted⟩ := hslot .int32 s 1
  obtain ⟨-, houtside, -⟩ := hslot .int32 s 2
  have hok : Verdict.ofMismatch .int32 s 1 = .ok (v 1) := (hchecked _).2 ⟨by decide, rfl⟩
  obtain ⟨f, hf⟩ := hfinding.1 ⟨_, hok⟩
  obtain ⟨found, hfound, hmessage, -⟩ := hquoted f hf
  obtain rfl : .float = found := Option.some.inj hfound
  obtain ⟨w, hw, hevent⟩ := (hverdict (v 1)).2.2.2.2 f hf
  obtain ⟨m, -, rfl⟩ := ofVerdict_eq_ok_iff.1 hf
  obtain rfl : v 1 = w := Option.some.inj hw
  have herror : ofVerdict "Add" (v 2) = .error (.explainedOutside "Add" 2 2) :=
    ((hverdict (v 2)).1 _).2 (.inr ⟨.int32, s, 2, rfl, by decide, rfl⟩)
  exact ⟨⟨hok, _, hf, hmessage, hevent⟩, (houtside _).2 ⟨by decide, rfl⟩, herror,
    (hverdict (v 2)).2.2.2.1 _ herror⟩

end Finding

end StackVerdict
