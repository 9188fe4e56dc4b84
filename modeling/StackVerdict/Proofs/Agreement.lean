import StackVerdict.Proofs.Dump
import StackVerdict.Proofs.Notes
import StackVerdict.Proofs.Rows
import Std.Data.String.ToNat

/-!
# What the reports say about the stacks

The message, the first note and the stacks that the dump prints are made apart from each other, and
they agree (`Finding.agree_ofVerdict`).  The row with the number of the slot in question shows the
type that the message and the note say was found.  The note counts as many values as there are rows.
And the note on two stacks that do not fit can be worked out from their rows alone, because it says
a slot, two heights or neither just where the rows part, go on or are the same
(`Divergence.reads_text_remark`).  Only names that hold its own words between backquotes can make it
seem to be about two other names (`Divergence.readable_iff`, `Finding.note_reads_two_ways`).
-/

namespace StackVerdict

/-! ## What a check is reported as -/

/-- The note on where stacks part can be read with no other names than these: the words between them
are neither in the first name, closed by its backquote, nor in the second, opened by its own. -/
def Divergence.Readable (a b : String) : Prop :=
  ¬ "` at branch, `".toList <:+: (a ++ "`").toList ∧
    ¬ "` at branch, `".toList <:+: ("`" ++ b).toList

instance (a b : String) : Decidable (Divergence.Readable a b) :=
  inferInstanceAs (Decidable (_ ∧ _))

/-- The first note on two stacks that do not fit tells how the rows of their printed blocks differ.
It quotes the names in the rows that part, and where these names or those that it is read with are
readable, it is not read with any others. -/
structure Divergence.Reads (note : String) (branch destination : List String) : Prop where
  slot : ∀ i a b,
    let rows := Snapshot.scanRows branch
    let rows' := Snapshot.scanRows destination
    let noted := note = "note: stacks first diverge at slot " ++ i.repr ++ ": `" ++ a ++
      "` at branch, `" ++ b ++ "` at destination"
    (PartAt rows rows' i (i, a) (i, b) → noted) ∧
    (noted → ∃ a' b', PartAt rows rows' i (i, a') (i, b')) ∧
    (Readable a b ∨ (∀ a' b', PartAt rows rows' i (i, a') (i, b') → Readable a' b') →
      (noted ↔ PartAt rows rows' i (i, a) (i, b)))
  heights : ∀ j k,
    note = "note: stack at branch holds " ++ j.repr ++
        " value(s), but stack at destination holds " ++ k.repr ++ " value(s)" ↔
      OneGoesOn (Snapshot.scanRows branch) (Snapshot.scanRows destination) ∧
        j = (Snapshot.scanRows branch).length ∧ k = (Snapshot.scanRows destination).length
  identical :
    note =
        "note: stacks list identical types, verifier must have rejected them for another reason" ↔
      branch = destination

/-- The message, the first note and the printed stacks of a failed check agree. -/
def Verdict.Agree (message note : String) (printed : List (List String)) : Verdict → Prop
  | success => False
  | underflow needed _ =>
      ∃ block, printed = ["stack:" :: block] ∧
        note = "note: instruction takes " ++ needed.repr ++
          " operand(s) from the top of the stack, but the stack holds " ++
          (Snapshot.scanRows block).length.repr ++ " value(s)"
  | typeMismatch _ _ index =>
      ∃ block found, printed = ["stack:" :: block] ∧
        (∀ name, (index, name) ∈ Snapshot.scanRows block ↔ name = found) ∧
        (∃ start, message = start ++ "; found " ++ found) ∧
        note = "note: slot " ++ index.repr ++ " (counting from the top of the stack) holds `" ++
          found ++ "`"
  | stackMismatch _ _ =>
      ∃ branch destination,
        printed = ["stack at branch:" :: branch, "stack at destination:" :: destination] ∧
        Divergence.Reads note branch destination
  | sizeFailure needed _ =>
      ∃ block, printed = ["stack:" :: block] ∧
        note = "note: instruction requires exactly " ++ needed.repr ++
          " value(s) on the stack, but the stack holds " ++ (Snapshot.scanRows block).length.repr

/-! ## Notes that are told apart -/

namespace Divergence

variable (s t : Snapshot) (d : Divergence)

theorem text_remark :
    (d.remark s t).text =
      match d with
      | none =>
          "note: stacks list identical types, verifier must have rejected them for another reason"
      | height =>
          "note: stack at branch holds " ++ s.height.repr ++
            " value(s), but stack at destination holds " ++ t.height.repr ++ " value(s)"
      | slot index a b =>
          "note: stacks first diverge at slot " ++ index.repr ++ ": `" ++ a.name ++
            "` at branch, `" ++ b.name ++ "` at destination" := by
  cases d with
  | none => rfl
  | height =>
      rw [← String.toList_inj]
      simp [remark, Remark.text_heights]
  | slot index a b => simp [remark, Remark.text_diverge, ← String.append_assoc]

/-! The three notes open with words of their own. -/

theorem slot_words_ne_height_words (s t : String) :
    "note: stacks first diverge at slot " ++ s ≠ "note: stack at branch holds " ++ t :=
  Text.append_ne_append (by decide) (by decide)

theorem none_words_ne_height_words (t : String) :
    "note: stacks list identical types, verifier must have rejected them for another reason" ≠
      "note: stack at branch holds " ++ t := by
  change "note: stacks list" ++
    " identical types, verifier must have rejected them for another reason" ≠ _
  exact Text.append_ne_append (by decide) (by decide)

theorem none_words_ne_slot_words (t : String) :
    "note: stacks list identical types, verifier must have rejected them for another reason" ≠
      "note: stacks first diverge at slot " ++ t := by
  change "note: stacks list" ++
    " identical types, verifier must have rejected them for another reason" ≠ _
  exact Text.append_ne_append (by decide) (by decide)

/-- The note on a slot tells the slot, and both names with the words between them as one text. -/
theorem text_remark_eq_slot_iff {i : Nat} {a b : String} :
    (d.remark s t).text = "note: stacks first diverge at slot " ++ i.repr ++ ": `" ++ a ++
        "` at branch, `" ++ b ++ "` at destination" ↔
      ∃ x y : TypeName, d = .slot i x y ∧
        a ++ ("` at branch, `" ++ b) = x.name ++ ("` at branch, `" ++ y.name) := by
  rw [text_remark]
  simp only [String.append_assoc]
  cases d with
  | none => simp [none_words_ne_slot_words]
  | height => simp [(slot_words_ne_height_words _ _).symm]
  | slot j x y =>
      dsimp only
      rw [String.append_right_inj]
      constructor
      · intro h
        obtain rfl : j = i := Text.repr_append_inj String.toList_ofList rfl h
        rw [String.append_right_inj, String.append_right_inj] at h
        refine ⟨x, y, rfl, ?_⟩
        simpa only [← String.append_assoc, String.append_left_inj] using h.symm
      · rintro ⟨x', y', ⟨⟩, h⟩
        rw [String.append_right_inj, String.append_right_inj]
        simpa only [← String.append_assoc, String.append_left_inj] using h.symm

theorem text_remark_eq_height_iff {j k : Nat} :
    (d.remark s t).text = "note: stack at branch holds " ++ j.repr ++
        " value(s), but stack at destination holds " ++ k.repr ++ " value(s)" ↔
      d = .height ∧ j = s.height ∧ k = t.height := by
  rw [text_remark]
  simp only [String.append_assoc]
  cases d with
  | none => simp [none_words_ne_height_words]
  | height =>
      constructor
      · intro h
        dsimp only at h
        rw [String.append_right_inj] at h
        obtain rfl : s.height = j := Text.repr_append_inj String.toList_ofList rfl h
        simp only [String.append_right_inj, String.append_left_inj, Nat.repr_inj] at h
        exact ⟨rfl, rfl, h.symm⟩
      · rintro ⟨-, rfl, rfl⟩
        rfl
  | slot i x y => simp [slot_words_ne_height_words]

theorem text_remark_eq_none_iff :
    (d.remark s t).text =
        "note: stacks list identical types, verifier must have rejected them for another reason" ↔
      d = .none := by
  rw [text_remark]
  simp only [String.append_assoc]
  cases d with
  | none => simp
  | height => simp [(none_words_ne_height_words _).symm]
  | slot i x y => simp [(none_words_ne_slot_words _).symm]

/-! ## The note on two stacks that do not fit -/

/-- Readable names are those that no other names can be taken for. -/
theorem readable_iff {a b : String} :
    Readable a b ↔ ∀ a' b', a ++ ("` at branch, `" ++ b) = a' ++ ("` at branch, `" ++ b') →
      a = a' ∧ b = b' := by
  have hwords : "` at branch, `".toList = '\x60' :: " at branch, ".toList ++ ['\x60'] := rfl
  have hquote : "`".toList = ['\x60'] := rfl
  have hmem : '\x60' ∉ " at branch, ".toList := by decide
  simp only [Readable, String.toList_append, hwords, hquote, List.singleton_append]
  rw [← Text.quoted_sep_inj_iff hmem]
  simp only [← String.toList_inj, String.toList_append, hwords, List.append_assoc,
    List.cons_append, List.nil_append]
  constructor
  · intro h a' b'
    exact h _ _
  · intro h s t
    simpa using h (String.ofList s) (String.ofList t)

example : Readable "List`1" "` at branch" ∧ ¬ Readable "A" "B` at branch, `C" := by decide

/-- The rows of two printed blocks part where a slot is the first difference of their stacks. -/
theorem partAt_scanRows_iff {i : Nat} {a b : String} :
    PartAt (Snapshot.scanRows s.blockLines) (Snapshot.scanRows t.blockLines) i (i, a) (i, b) ↔
      ∃ x y : TypeName, find s t = .slot i x y ∧ a = x.name ∧ b = y.name := by
  rw [Snapshot.scanRows_blockLines, Snapshot.scanRows_blockLines, Snapshot.partAt_numbered_iff]
  simp only [find_eq_slot_iff, Prod.mk.injEq, true_and]
  constructor
  · rintro ⟨x, y, ha, hb, h⟩
    exact ⟨x, y, h, ha, hb⟩
  · rintro ⟨x, y, h, ha, hb⟩
    exact ⟨x, y, ha, hb, h⟩

/-- The first note on two stacks that do not fit is what their printed blocks show. -/
theorem reads_text_remark : Reads ((find s t).remark s t).text s.blockLines t.blockLines where
  slot i a b := by
    intro rows rows' noted
    have hnoted : noted ↔ _ := text_remark_eq_slot_iff s t (find s t)
    have hpart : PartAt rows rows' i (i, a) (i, b) ↔ _ := partAt_scanRows_iff s t
    have hquotes : PartAt rows rows' i (i, a) (i, b) → noted := by
      rw [hnoted, hpart]
      rintro ⟨x, y, h, rfl, rfl⟩
      exact ⟨x, y, h, rfl⟩
    refine ⟨hquotes, fun h => ?_, fun hreadable => ⟨fun h => ?_, hquotes⟩⟩
    · obtain ⟨x, y, hfind, -⟩ := hnoted.1 h
      exact ⟨x.name, y.name, (partAt_scanRows_iff s t).2 ⟨x, y, hfind, rfl, rfl⟩⟩
    · obtain ⟨x, y, hfind, heq⟩ := hnoted.1 h
      have hxy := (partAt_scanRows_iff s t).2 ⟨x, y, hfind, rfl, rfl⟩
      obtain ⟨rfl, rfl⟩ : a = x.name ∧ b = y.name := by
        rcases hreadable with hab | hrows
        · exact readable_iff.1 hab _ _ heq
        · obtain ⟨hxa, hyb⟩ := readable_iff.1 (hrows _ _ hxy) _ _ heq.symm
          exact ⟨hxa.symm, hyb.symm⟩
      exact hxy
  heights j k := by
    rw [text_remark_eq_height_iff, find_eq_height_iff, Snapshot.length_scanRows_blockLines,
      Snapshot.length_scanRows_blockLines, Snapshot.scanRows_blockLines,
      Snapshot.scanRows_blockLines, Snapshot.oneGoesOn_numbered_iff]
  identical := by
    rw [text_remark_eq_none_iff, find_eq_none_iff, Snapshot.blockLines_inj]

end Divergence

/-! ## The reports on a failed check -/

namespace Verdict

theorem sections_eq (message : String) (v : Verdict) :
    Finding.sections ⟨message, some v, v.snapshots, []⟩ =
      match v with
      | success => []
      | underflow _ stack => ["stack:" :: stack.blockLines]
      | typeMismatch _ stack _ => ["stack:" :: stack.blockLines]
      | stackMismatch branch destination =>
          ["stack at branch:" :: branch.blockLines,
            "stack at destination:" :: destination.blockLines]
      | sizeFailure _ stack => ["stack:" :: stack.blockLines] := by
  cases v <;> rfl

theorem agree_of_remarks {label message : String} {v : Verdict} {r : Remark} {rs : List Remark}
    (hmessage : v.message label = .ok message) (hremarks : v.remarks = .ok (r :: rs)) :
    v.Agree message r.text (Finding.sections ⟨message, some v, v.snapshots, []⟩) := by
  rw [sections_eq]
  cases v with
  | success => cases hremarks
  | underflow needed stack =>
      obtain rfl : .takes needed stack.height = r := (List.cons.inj (Except.ok.inj hremarks)).1
      refine ⟨stack.blockLines, rfl, ?_⟩
      rw [Snapshot.length_scanRows_blockLines, ← String.toList_inj]
      simp [Remark.text_takes]
  | typeMismatch expected stack index =>
      obtain ⟨found, hfound, hrs⟩ := remarks_typeMismatch.1 hremarks
      obtain rfl := (List.cons.inj hrs).1
      have hslot := Snapshot.get_eq_ok_iff.1 hfound
      refine ⟨stack.blockLines, found.name, rfl, fun name => ?_, ?_, ?_⟩
      · rw [Snapshot.scanRows_blockLines, Snapshot.mem_numbered_iff]
        constructor
        · rintro ⟨t, ht, rfl⟩
          rw [Option.some.inj (ht.symm.trans hslot)]
        · rintro rfl
          exact ⟨found, hslot, rfl⟩
      · have hsentence := (message_eq_ok_iff.1 hmessage).2
        rw [sentence, hfound] at hsentence
        exact ⟨_, (Except.ok.inj hsentence).symm⟩
      · simp [Remark.text_holds, ← String.append_assoc]
  | stackMismatch branch destination =>
      obtain rfl := (List.cons.inj (Except.ok.inj hremarks)).1
      exact ⟨_, _, rfl, Divergence.reads_text_remark branch destination⟩
  | sizeFailure needed stack =>
      obtain rfl : .requiresExactly needed stack.height = r :=
        (List.cons.inj (Except.ok.inj hremarks)).1
      refine ⟨stack.blockLines, rfl, ?_⟩
      rw [Snapshot.length_scanRows_blockLines, ← String.toList_inj]
      simp [Remark.text_requiresExactly]

end Verdict

namespace Finding

/-- The stacks that the dump of a failed check prints behind its message agree with the message and
with the first note of the diagnostic. -/
theorem agree_ofVerdict {label : String} {v : Verdict} {f : Finding}
    (hf : ofVerdict label v = .ok f) (hnames : ∀ s ∈ v.snapshots, s.Lacks '\n') :
    ∃ dump printed d note notes, f.dump = .ok dump ∧ f.diagnostic = .ok d ∧
      Dump.sections? f.message dump = some printed ∧ d.notes = note :: notes ∧
      v.Agree f.message note printed := by
  have hdump := dump_eq_ok (hasSnapshots_of_ofVerdict hf)
  obtain ⟨m, hm, rfl⟩ := ofVerdict_eq_ok_iff.1 hf
  obtain ⟨rs, hrs⟩ := (Verdict.message_eq_ok_iff.1 hm).1.remarks
  obtain ⟨r, rest, rfl, -⟩ := Verdict.exists_first_remark hrs
  refine ⟨_, _, _, r.text, _, hdump, diagnostic_eq_ok (notes_eq_ok hrs),
    Dump.sections?_unlines_dumpLines hnames (by simp), rfl, Verdict.agree_of_remarks hm hrs⟩

/-- The rows show where the stacks part, also when a name looks like the end of a row or like the
words of the note, and the note has the number and the names of the rows. -/
theorem agree_ofVerdict_look_alikes :
    let a : TypeName := ⟨"] ` at branch, `", by decide⟩
    let v : Verdict := .stackMismatch ⟨[.int32, a]⟩ ⟨[.int32, .null, .float]⟩
    ∃ f d notes, ofVerdict "Br" v = .ok f ∧ (∀ s ∈ v.snapshots, s.Lacks '\n') ∧
      f.diagnostic = .ok d ∧
      d.notes =
        ("note: stacks first diverge at slot 1: `] ` at branch, `` at branch, " ++
          "`null` at destination") :: notes := by
  intro a v
  obtain ⟨f, hf⟩ : ∃ f, ofVerdict "Br" v = .ok f := ⟨_, rfl⟩
  have hnames : ∀ s ∈ v.snapshots, s.Lacks '\n' := by decide
  obtain ⟨dump, printed, d, note, notes, hdump, hd, hprinted, hnotes, hagree⟩ :=
    agree_ofVerdict hf hnames
  obtain ⟨branch, destination, rfl, hreads⟩ := hagree
  obtain rfl := Except.ok.inj hf
  obtain rfl := Except.ok.inj hdump
  rw [Dump.sections?_unlines_dumpLines hnames (by simp)] at hprinted
  obtain ⟨rfl, rfl⟩ : branch = Snapshot.blockLines ⟨[.int32, a]⟩ ∧
      destination = Snapshot.blockLines ⟨[.int32, .null, .float]⟩ := by
    obtain ⟨⟩ := hprinted
    exact ⟨rfl, rfl⟩
  obtain ⟨hquotes, -, -⟩ := hreads.slot 1 a.name "null"
  have hnote := hquotes ⟨by decide, by decide, by decide, by decide⟩
  exact ⟨_, d, notes, hf, hnames, hd, by rw [hnotes, hnote]; rfl⟩

/-- A name that holds the words of the note makes it ambiguous: this one can also be read with two
names of which neither is in a row. -/
theorem note_reads_two_ways :
    let s : Snapshot := ⟨[⟨"A", by decide⟩]⟩
    let t : Snapshot := ⟨[⟨"B` at branch, `C", by decide⟩]⟩
    let v : Verdict := .stackMismatch s t
    ∃ f dump branch destination d note notes, ofVerdict "Br" v = .ok f ∧
      (∀ s ∈ v.snapshots, s.Lacks '\n') ∧ f.dump = .ok dump ∧ f.diagnostic = .ok d ∧
      Dump.sections? f.message dump =
        some ["stack at branch:" :: branch, "stack at destination:" :: destination] ∧
      d.notes = note :: notes ∧
      note =
        "note: stacks first diverge at slot 0: `A` at branch, `B` at branch, `C` at destination" ∧
      ¬ ∀ i a b,
        note = "note: stacks first diverge at slot " ++ i.repr ++ ": `" ++ a ++ "` at branch, `" ++
            b ++ "` at destination" ↔
          PartAt (Snapshot.scanRows branch) (Snapshot.scanRows destination) i (i, a) (i, b) := by
  intro s t v
  obtain ⟨f, hf⟩ : ∃ f, ofVerdict "Br" v = .ok f := ⟨_, rfl⟩
  have hnames : ∀ s ∈ v.snapshots, s.Lacks '\n' := by decide
  have hdump := dump_eq_ok (hasSnapshots_of_ofVerdict hf)
  obtain ⟨m, hm, rfl⟩ := ofVerdict_eq_ok_iff.1 hf
  refine ⟨_, _, s.blockLines, t.blockLines, _, _, _, hf, hnames, hdump,
    diagnostic_eq_ok (notes_eq_ok rfl), Dump.sections?_unlines_dumpLines hnames (by simp), rfl,
    by decide, fun h => ?_⟩
  have hpart := (h 0 "A` at branch, `B" "C").1 (by decide)
  exact absurd hpart.right (by decide)

end Finding

end StackVerdict
