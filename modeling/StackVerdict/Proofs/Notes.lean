import StackVerdict.Proofs.Exhibit
import StackVerdict.Proofs.Reachable

/-!
# Reading notes back

The notes of a finding are the remarks on its failed check and one note for each stack, and the two
are told apart by their first letter.  A remark opens with words that belong to one kind of check
(`kind_eq_of_remarks`), and behind them it tells what the check was about; the stacks of the check
are the first ones of the finding.  Therefore the notes of a reachable finding tell its failed check
and its stacks (`notes_eq_iff`).
-/

namespace StackVerdict

/-! ## What a remark says -/

namespace Remark

theorem text_takes (needed held : Nat) : (takes needed held).text =
    "note: " ++ ("instruction takes " ++ needed.repr ++ " operand(s) from the top of the stack, " ++
      ("but the stack holds " ++ held.repr ++ " value(s)")) := rfl

theorem text_pushEarlier : pushEarlier.text =
    "help: " ++ "missing operands must be pushed by instructions emitted before this one" := rfl

theorem text_holds (index : Nat) (found : TypeName) : (holds index found).text =
    "note: " ++ ("slot " ++ index.repr ++ " (counting from the top of the stack) holds `" ++
      found.name ++ "`") := rfl

theorem text_requires (expected : TypeName) : (requires expected).text =
    "note: " ++ ("instruction requires `" ++ expected.name ++ "` in this slot") := rfl

theorem text_heights (branch destination : Nat) : (heights branch destination).text =
    "note: " ++ ("stack at branch holds " ++ branch.repr ++ " value(s), " ++
      ("but stack at destination holds " ++ destination.repr ++ " value(s)")) := rfl

theorem text_diverge (index : Nat) (branch destination : TypeName) :
    (diverge index branch destination).text =
      "note: " ++ ("stacks first diverge at slot " ++ index.repr ++ ": `" ++ branch.name ++
        "` at branch, `" ++ destination.name ++ "` at destination") := rfl

theorem text_identical : identical.text =
    "note: " ++
      "stacks list identical types, verifier must have rejected them for another reason" := rfl

theorem text_leaveSame : leaveSame.text =
    "help: " ++
      "every path into destination must leave stack of the same height holding the same types" :=
  rfl

theorem text_requiresExactly (needed held : Nat) : (requiresExactly needed held).text =
    "note: " ++ ("instruction requires exactly " ++ needed.repr ++ " value(s) on the stack, " ++
      ("but the stack holds " ++ held.repr)) := rfl

end Remark

/-! ## The kind of check that is remarked on -/

/-- The words that the first remark on a check of the given kind opens with.  There is no remark on
a success. -/
def Verdict.Kind.opening : Verdict.Kind → String
  | success => ""
  | underflow => "note: " ++ "instruction takes "
  | typeMismatch => "note: " ++ "slot "
  | stackMismatch => "note: " ++ "stack"
  | sizeFailure => "note: " ++ "instruction requires exactly "

/-- No opening begins with that of another kind. -/
theorem Verdict.Kind.eq_of_opening_prefix {k k' : Verdict.Kind} (hk : k ≠ .success)
    (h : k.opening.toList <+: k'.opening.toList) : k = k' := by
  revert hk h
  unfold opening
  cases k <;> cases k'
  all_goals simp only [String.toList_append]
  all_goals repeat rw [String.toList_ofList]
  all_goals simp

/-- The remark on where two stacks part opens like every first remark on stacks that do not fit. -/
theorem Divergence.opening_prefix_remark (branch destination : Snapshot) (d : Divergence) :
    Verdict.Kind.stackMismatch.opening.toList <+:
      (d.remark branch destination).text.toList := by
  unfold Divergence.remark Verdict.Kind.opening
  cases d with
  | none =>
      rw [Remark.text_identical, String.toList_append, String.toList_append,
        List.prefix_append_right_inj, String.toList_ofList, String.toList_ofList]
      simp
  | height =>
      rw [Remark.text_heights]
      simp only [String.toList_append, List.append_assoc, List.prefix_append_right_inj]
      rw [String.toList_ofList, String.toList_ofList]
      simp
  | slot index left right =>
      rw [Remark.text_diverge]
      simp only [String.toList_append, List.append_assoc, List.prefix_append_right_inj]
      rw [String.toList_ofList, String.toList_ofList]
      simp

namespace Verdict

theorem remarks_typeMismatch {expected : TypeName} {stack : Snapshot} {index : Nat}
    {rs : List Remark} :
    (typeMismatch expected stack index).remarks = .ok rs ↔
      ∃ found, stack.get index = .ok found ∧ rs = [.holds index found, .requires expected] := by
  rw [remarks, bind_eq_ok_iff]
  simp only [pure, Except.pure, Except.ok.injEq, eq_comm]

/-- The first remark on a check opens with the words for its kind. -/
theorem exists_first_remark {v : Verdict} {rs : List Remark} (h : v.remarks = .ok rs) :
    ∃ r rest, rs = r :: rest ∧ v.kind.opening.toList <+: r.text.toList := by
  cases v with
  | success => cases h
  | underflow needed stack =>
      refine ⟨_, _, (Except.ok.inj h).symm, ?_⟩
      rw [kind, Kind.opening, Remark.text_takes]
      simp only [String.toList_append, List.append_assoc, List.prefix_append_right_inj,
        List.prefix_append]
  | typeMismatch expected stack index =>
      obtain ⟨found, -, rfl⟩ := remarks_typeMismatch.1 h
      refine ⟨_, _, rfl, ?_⟩
      rw [kind, Kind.opening, Remark.text_holds]
      simp only [String.toList_append, List.append_assoc, List.prefix_append_right_inj,
        List.prefix_append]
  | stackMismatch branch destination =>
      exact ⟨_, _, (Except.ok.inj h).symm, Divergence.opening_prefix_remark _ _ _⟩
  | sizeFailure needed stack =>
      refine ⟨_, _, (Except.ok.inj h).symm, ?_⟩
      rw [kind, Kind.opening, Remark.text_requiresExactly]
      simp only [String.toList_append, List.append_assoc, List.prefix_append_right_inj,
        List.prefix_append]

theorem kind_ne_success_of_remarks {v : Verdict} {rs : List Remark} (h : v.remarks = .ok rs) :
    v.kind ≠ .success := by
  cases v with
  | success => cases h
  | _ => simp [kind]

theorem kind_eq_of_remarks {v w : Verdict} {rs ss : List Remark} (hv : v.remarks = .ok rs)
    (hw : w.remarks = .ok ss) (h : rs.map Remark.text = ss.map Remark.text) : v.kind = w.kind := by
  obtain ⟨r, rest, rfl, hr⟩ := exists_first_remark hv
  obtain ⟨s, rest', rfl, hs⟩ := exists_first_remark hw
  have htext : r.text = s.text := (List.cons.inj h).1
  rw [htext] at hr
  -- Both openings begin the same text, so one of them begins the other.
  rcases List.prefix_or_prefix_of_prefix hr hs with hprefix | hprefix
  · exact Kind.eq_of_opening_prefix (kind_ne_success_of_remarks hv) hprefix
  · exact (Kind.eq_of_opening_prefix (kind_ne_success_of_remarks hw) hprefix).symm

end Verdict

/-! ## What is remarked on -/

namespace Remark

theorem takes_text_inj {n m k j : Nat} (h : (takes n k).text = (takes m j).text) : n = m := by
  rw [text_takes, text_takes] at h
  simp only [String.append_assoc, String.append_right_inj] at h
  exact Text.repr_append_inj String.toList_ofList rfl h

theorem holds_text_inj {i j : Nat} {t u : TypeName} (h : (holds i t).text = (holds j u).text) :
    i = j := by
  rw [text_holds, text_holds] at h
  simp only [String.append_assoc, String.append_right_inj] at h
  exact Text.repr_append_inj String.toList_ofList rfl h

theorem requiresExactly_text_inj {n m k j : Nat}
    (h : (requiresExactly n k).text = (requiresExactly m j).text) : n = m := by
  rw [text_requiresExactly, text_requiresExactly] at h
  simp only [String.append_assoc, String.append_right_inj] at h
  exact Text.repr_append_inj String.toList_ofList rfl h

theorem requires_text_inj {t u : TypeName} (h : (requires t).text = (requires u).text) : t = u := by
  rw [text_requires, text_requires] at h
  simp only [String.append_right_inj, String.append_left_inj] at h
  exact TypeName.ext h

end Remark

namespace Verdict

/-- A failed check is told by its remarks and its stacks. -/
theorem eq_of_remarks {v w : Verdict} {rs ss : List Remark} (hv : v.remarks = .ok rs)
    (hw : w.remarks = .ok ss) (h : rs.map Remark.text = ss.map Remark.text)
    (hsnapshots : v.snapshots = w.snapshots) : v = w := by
  have hkind := kind_eq_of_remarks hv hw h
  cases v with
  | success => cases hv
  | underflow n s =>
      cases w with
      | underflow m t =>
          obtain rfl : s = t := (List.cons.inj hsnapshots).1
          obtain rfl := Except.ok.inj hv
          obtain rfl := Except.ok.inj hw
          rw [Remark.takes_text_inj (List.cons.inj h).1]
      | _ => cases hkind
  | typeMismatch expected s i =>
      cases w with
      | typeMismatch expected' t j =>
          obtain rfl : s = t := (List.cons.inj hsnapshots).1
          obtain ⟨found, -, rfl⟩ := remarks_typeMismatch.1 hv
          obtain ⟨found', -, rfl⟩ := remarks_typeMismatch.1 hw
          obtain ⟨hholds, hrequires⟩ := List.cons.inj h
          rw [Remark.holds_text_inj hholds, Remark.requires_text_inj (List.cons.inj hrequires).1]
      | _ => cases hkind
  | stackMismatch a b =>
      cases w with
      | stackMismatch a' b' =>
          obtain ⟨rfl, hrest⟩ := List.cons.inj hsnapshots
          rw [(List.cons.inj hrest).1]
      | _ => cases hkind
  | sizeFailure n s =>
      cases w with
      | sizeFailure m t =>
          obtain rfl : s = t := (List.cons.inj hsnapshots).1
          obtain rfl := Except.ok.inj hv
          obtain rfl := Except.ok.inj hw
          rw [Remark.requiresExactly_text_inj (List.cons.inj h).1]
      | _ => cases hkind

/-- The kind of a check tells how many stacks it looked at. -/
theorem length_snapshots_eq {v w : Verdict} (h : v.kind = w.kind) :
    v.snapshots.length = w.snapshots.length := by
  cases v <;> cases w <;> first | rfl | cases h

end Verdict

/-! ## Remarks and exhibits -/

namespace Finding

/-- Whether a note is one on a stack, which the first letter of its heading tells. -/
def isExhibit (note : String) : Bool :=
  note.toList.head? == some 's'

theorem isExhibit_note (x : Exhibit) : isExhibit x.note = true := by
  have hheading : x.heading.text.toList.head? = some 's' := by
    cases x.heading with
    | numbered i => simp [Heading.text_numbered]
    | _ => simp [Heading.text]
  simp [isExhibit, Exhibit.note, List.head?_append, hheading]

theorem isExhibit_text (r : Remark) : isExhibit r.text = false := by
  unfold isExhibit Remark.text
  split_ifs <;> simp

theorem append_notes_inj {rs ss : List Remark} {xs ys : List Exhibit}
    (h : rs.map Remark.text ++ xs.map Exhibit.note = ss.map Remark.text ++ ys.map Exhibit.note) :
    rs.map Remark.text = ss.map Remark.text ∧ xs.map Exhibit.note = ys.map Exhibit.note := by
  have hexhibits : ∀ xs : List Exhibit,
      (xs.map Exhibit.note).filter isExhibit = xs.map Exhibit.note :=
    fun xs => List.filter_eq_self.2 (by simp [isExhibit_note])
  have hremarks : ∀ rs : List Remark, (rs.map Remark.text).filter isExhibit = [] :=
    fun rs => List.filter_eq_nil_iff.2 (by simp [isExhibit_text])
  have hnotes := congrArg (List.filter isExhibit) h
  simp only [List.filter_append, hremarks, hexhibits, List.nil_append] at hnotes
  rw [hnotes] at h
  exact ⟨List.append_cancel_right h, hnotes⟩

theorem notes_congr {f g : Finding} (hverdict : f.verdict = g.verdict)
    (hsnapshots : f.snapshots = g.snapshots) : f.notes = g.notes := by
  have hmismatch : f.isMismatch = g.isMismatch := by
    rw [isMismatch, isMismatch, hverdict]
  rw [notes, notes, remarks, remarks, hverdict, exhibits_congr hsnapshots hmismatch]

theorem remarks_of_verdict {f : Finding} {v : Verdict} (h : f.verdict = some v) :
    f.remarks = v.remarks := by
  rw [remarks, h]

theorem remarks_of_no_verdict {f : Finding} (h : f.verdict = none) : f.remarks = .ok [] := by
  rw [remarks, h]

/-- There is a remark on every failed check, and none on a message of the caller's own. -/
theorem verdict_eq_none_iff {f : Finding} {rs : List Remark} (h : f.remarks = .ok rs) :
    f.verdict = none ↔ rs = [] := by
  cases hv : f.verdict with
  | none =>
      rw [remarks_of_no_verdict hv] at h
      simp [Except.ok.inj h]
  | some v =>
      rw [remarks_of_verdict hv] at h
      obtain ⟨r, rest, rfl, -⟩ := Verdict.exists_first_remark h
      simp

/-- Findings with the same remarks and the same stacks stem from the same check. -/
theorem Sound.verdict_eq {o o' : Origin} {l l' : List Attachment} {f g : Finding}
    {rs ss : List Remark} (hf : Sound o l f) (hg : Sound o' l' g) (hrs : f.remarks = .ok rs)
    (hss : g.remarks = .ok ss) (htext : rs.map Remark.text = ss.map Remark.text)
    (hsnapshots : f.snapshots = g.snapshots) : f.verdict = g.verdict := by
  have hnone : f.verdict = none ↔ g.verdict = none := by
    rw [verdict_eq_none_iff hrs, verdict_eq_none_iff hss, ← List.map_eq_nil_iff (f := Remark.text),
      htext, List.map_eq_nil_iff]
  cases hv : f.verdict with
  | none => rw [hnone.1 hv]
  | some v =>
      obtain ⟨w, hw⟩ : ∃ w, g.verdict = some w :=
        Option.ne_none_iff_exists'.1 fun h => by simp [hnone.2 h] at hv
      rw [remarks_of_verdict hv] at hrs
      rw [remarks_of_verdict hw] at hss
      have hlength := Verdict.length_snapshots_eq (Verdict.kind_eq_of_remarks hrs hss htext)
      rw [hf.snapshots_eq hv, hg.snapshots_eq hw] at hsnapshots
      obtain ⟨hstacks, -⟩ := List.append_inj hsnapshots hlength
      rw [hw, Verdict.eq_of_remarks hrs hss htext hstacks]

/-- Reachable findings without a line feed in the names of their stacks have diagnostics with the
same notes exactly when they stem from the same check, or both from none, and hold the same
stacks. -/
theorem notes_eq_iff {o o' : Origin} {l l' : List Attachment} {f g : Finding}
    (hf : Reachable o l f) (hg : Reachable o' l' g) (hf' : ∀ s ∈ f.snapshots, s.Lacks '\n')
    (hg' : ∀ s ∈ g.snapshots, s.Lacks '\n') :
    ∃ d e, f.diagnostic = .ok d ∧ g.diagnostic = .ok e ∧
      (d.notes = e.notes ↔ f.verdict = g.verdict ∧ f.snapshots = g.snapshots) := by
  obtain ⟨rs, hrs⟩ := hf.sound.remarks
  obtain ⟨ss, hss⟩ := hg.sound.remarks
  have hfnotes := notes_eq_ok hrs
  have hgnotes := notes_eq_ok hss
  refine ⟨_, _, diagnostic_eq_ok hfnotes, diagnostic_eq_ok hgnotes, fun h => ?_,
    fun ⟨hverdict, hsnapshots⟩ => ?_⟩
  · obtain ⟨htext, hnotes⟩ := append_notes_inj h
    have hsnapshots : f.snapshots = g.snapshots := by
      have hread := congrArg (List.map Exhibit.readNote?) hnotes
      rw [map_readNote?_exhibits hf', map_readNote?_exhibits hg'] at hread
      exact (List.map_inj_right fun _ _ => Option.some.inj).1 hread
    exact ⟨hf.sound.verdict_eq hg.sound hrs hss htext hsnapshots, hsnapshots⟩
  · have h := notes_congr hverdict hsnapshots
    rw [hfnotes, hgnotes] at h
    exact Except.ok.inj h

/-- The same type in two slots of one stack: only the number of the slot tells the findings
apart, and a name with a backquote does not hide it. -/
theorem notes_eq_iff_backquote :
    let t : TypeName := ⟨"` in slot 1", by decide⟩
    let v (i : Nat) : Verdict := .typeMismatch t ⟨[t, t]⟩ i
    ∃ f g, Reachable (.check "Add" (v 0)) [] f ∧ Reachable (.check "Add" (v 1)) [] g ∧
      f.message = g.message ∧ f.snapshots = g.snapshots ∧ (∀ s ∈ f.snapshots, s.Lacks '\n') ∧
      ∃ d e, f.diagnostic = .ok d ∧ g.diagnostic = .ok e ∧ d.notes ≠ e.notes := by
  intro t v
  obtain ⟨f, hf⟩ : ∃ f, ofOrigin (.check "Add" (v 0)) = .ok f := ⟨_, rfl⟩
  obtain ⟨g, hg⟩ : ∃ g, ofOrigin (.check "Add" (v 1)) = .ok g := ⟨_, rfl⟩
  have hfreach := Reachable.made hf
  have hgreach := Reachable.made hg
  have hfstacks : f.snapshots = [⟨[t, t]⟩] := hfreach.sound.snapshots
  have hgstacks : g.snapshots = [⟨[t, t]⟩] := hgreach.sound.snapshots
  have hmessage : (Origin.check "Add" (v 0)).message = (Origin.check "Add" (v 1)).message := rfl
  have hlacks : ∀ s ∈ [(⟨[t, t]⟩ : Snapshot)], s.Lacks '\n' := by decide
  rw [hfreach.sound.message, hgreach.sound.message] at hmessage
  rw [← hfstacks] at hlacks
  obtain ⟨d, e, hd, he, hiff⟩ :=
    notes_eq_iff hfreach hgreach hlacks (by rwa [hgstacks, ← hfstacks])
  refine ⟨f, g, hfreach, hgreach, Except.ok.inj hmessage, hfstacks.trans hgstacks.symm, hlacks,
    d, e, hd, he, fun h => ?_⟩
  have hverdict := (hiff.1 h).1
  rw [hfreach.sound.verdict, hgreach.sound.verdict] at hverdict
  simp [Origin.verdict?, v] at hverdict

end Finding

end StackVerdict
