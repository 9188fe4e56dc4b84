import StackVerdict.Proofs.Headings
import StackVerdict.Proofs.Notes
import StackVerdict.Proofs.Reports

/-!
# Reports of findings that grow

What is attached to a finding goes behind what is there, and its reports go on where they ended.
More instructions go on with the numbers of the listing, which is the last part of the dump, and are
in no note (`dumpLines_attach_instructions`).  A stack keeps its heading when more stacks come,
unless it was alone: whether a stack is alone is all that its heading takes from the others
(`heading_attach_snapshots`).  So the reports of a reachable finding begin those of the finding with
more attached, save for the one heading of a stack that was alone (`Reachable.reports_grow`).
-/

namespace StackVerdict

namespace Finding

variable {f : Finding}

theorem hasSnapshots_attach (hf : f.hasSnapshots = true) (a : Attachment) :
    (f.attach a).hasSnapshots = true := by
  rw [hasSnapshots_eq_true_iff] at hf ⊢
  cases a with
  | snapshots ss => exact List.append_ne_nil_of_left_ne_nil hf ss
  | instructions xs => exact hf

/-! ## More instructions -/

/-- The lines that more instructions put behind a dump. -/
def furtherListing (f : Finding) (xs : List String) : List String :=
  (if f.instructions = [] ∧ xs ≠ [] then ["", "instructions:"] else []) ++
    xs.mapIdx fun i text => instructionLine (f.instructions.length + i) text

theorem listing_attach_instructions (f : Finding) (xs : List String) :
    (f.attach (.instructions xs)).listing = f.listing ++ f.furtherListing xs := by
  show (if (f.instructions ++ xs).isEmpty then [] else _) = _
  unfold listing furtherListing
  by_cases hf : f.instructions = []
  · by_cases hxs : xs = []
    · simp [hf, hxs]
    · simp [attach, hf, hxs]
  · simp [attach, hf, List.mapIdx_append, Nat.add_comm]

theorem exhibits_attach_instructions (f : Finding) (xs : List String) :
    (f.attach (.instructions xs)).exhibits = f.exhibits :=
  exhibits_congr rfl rfl

theorem dumpLines_attach_instructions (f : Finding) (xs : List String) :
    (f.attach (.instructions xs)).dumpLines = f.dumpLines ++ f.furtherListing xs := by
  rw [dumpLines, exhibits_attach_instructions, listing_attach_instructions, ← List.append_assoc]
  rfl

theorem unlines_furtherListing (f : Finding) (xs : List String) :
    Text.unlines (f.furtherListing xs) =
      (if f.instructions = [] ∧ xs ≠ [] then "\ninstructions:\n" else "") ++
        Text.unlines
          (xs.mapIdx fun i text => instructionLine (f.instructions.length + i) text) := by
  rw [furtherListing, Text.unlines_append]
  split_ifs
  · rfl
  · rw [Text.unlines_nil]

theorem diagnostic_attach_instructions (f : Finding) (xs : List String) :
    (f.attach (.instructions xs)).diagnostic = f.diagnostic := by
  have hnotes : (f.attach (.instructions xs)).notes = f.notes := notes_congr rfl rfl
  rw [diagnostic, diagnostic, hnotes]
  rfl

/-! ## More stacks -/

theorem isMismatch_attach_snapshots (f : Finding) (ss : List Snapshot) :
    (f.attach (.snapshots ss)).isMismatch = f.isMismatch := rfl

theorem snapshots_attach_snapshots (f : Finding) (ss : List Snapshot) :
    (f.attach (.snapshots ss)).snapshots = f.snapshots ++ ss := rfl

/-- A heading takes nothing from the other stacks but whether there are any. -/
theorem heading_attach_snapshots {i : Nat} (hi : i < f.snapshots.length)
    (h : f.snapshots.length ≠ 1) (ss : List Snapshot) :
    (f.attach (.snapshots ss)).heading i = f.heading i := by
  -- a stack that is there and is not the only one has another beside it already
  have hlength : (f.snapshots ++ ss).length ≠ 1 := by
    rw [List.length_append]
    omega
  unfold heading
  rw [isMismatch_attach_snapshots, snapshots_attach_snapshots, beq_eq_false_iff_ne.2 h,
    beq_eq_false_iff_ne.2 hlength]

theorem exhibits_prefix_attach_snapshots (h : f.snapshots.length ≠ 1) (ss : List Snapshot) :
    f.exhibits <+: (f.attach (.snapshots ss)).exhibits := by
  have hexhibits : f.exhibits = f.snapshots.mapIdx fun i s =>
      { heading := (f.attach (.snapshots ss)).heading i, stack := s } := by
    apply List.ext_getElem
    · simp [exhibits]
    · intro i hi _
      rw [length_exhibits] at hi
      simp [exhibits, heading_attach_snapshots hi h ss]
  rw [hexhibits, exhibits, snapshots_attach_snapshots, List.mapIdx_append]
  exact List.prefix_append _ _

theorem dumpLines_prefix_attach_snapshots (h : f.snapshots.length ≠ 1)
    (hinstructions : f.instructions = []) (ss : List Snapshot) :
    f.dumpLines <+: (f.attach (.snapshots ss)).dumpLines := by
  obtain ⟨more, hmore⟩ := exhibits_prefix_attach_snapshots h ss
  have hlisting : f.listing = [] := by
    rw [listing, hinstructions]
    rfl
  rw [dumpLines, dumpLines, ← hmore, hlisting, List.flatMap_append, List.append_nil,
    List.cons_append, List.append_assoc]
  show f.message :: _ <+: f.message :: _
  exact List.cons_prefix_cons.2 ⟨rfl, List.prefix_append _ _⟩

/-- A stack that was alone gets the number 0. -/
theorem exhibits_attach_of_alone {s : Snapshot} (hf : f.isMismatch = false)
    (h : f.snapshots = [s]) {ss : List Snapshot} (hss : ss ≠ []) :
    f.exhibits = [⟨.sole, s⟩] ∧
      (f.attach (.snapshots ss)).exhibits = ⟨.numbered 0, s⟩ :: Exhibit.numberedFrom 1 ss := by
  have hmore : (f.attach (.snapshots ss)).snapshots = s :: ss := by
    rw [snapshots_attach_snapshots, h, List.singleton_append]
  have hthen := exhibits_of_not_mismatch ((isMismatch_attach_snapshots f ss).trans hf) hmore
  rw [if_neg hss] at hthen
  exact ⟨exhibits_of_not_mismatch hf h, hthen⟩

/-! ## Reachable findings -/

/-- Two stacks that do not fit are two stacks. -/
theorem Sound.isMismatch_eq_false {o : Origin} {l : List Attachment} {s : Snapshot}
    (h : Sound o l f) (hf : f.snapshots = [s]) : f.isMismatch = false := by
  rw [← Bool.not_eq_true, isMismatch_iff]
  rintro ⟨a, b, hv⟩
  have hsnapshots := h.snapshots_eq hv
  simp [Verdict.snapshots, hf] at hsnapshots

/-- Reports of a reachable finding go on where they ended when more is attached to it.  Instructions
change no note and are listed behind those there are, with the next numbers.  More stacks have one
note each behind those there are, and where there is more than one stack and no listing yet, their
blocks stand behind the dump.  A stack that was alone is headed by its number 0 from then on, and
nothing else about its note or the remarks changes. -/
theorem Reachable.reports_grow {o : Origin} {l : List Attachment} (h : Reachable o l f) :
    (∀ xs,
      (∃ d, f.diagnostic = .ok d ∧ (f.attach (.instructions xs)).diagnostic = .ok d) ∧
      (f.hasSnapshots = true →
        ∃ s, f.dump = .ok s ∧
          (f.attach (.instructions xs)).dump = .ok
            (s ++ ((if f.instructions = [] ∧ xs ≠ [] then "\ninstructions:\n" else "") ++
              Text.unlines
                (xs.mapIdx fun i text => instructionLine (f.instructions.length + i) text))))) ∧
    ∀ ss, ss ≠ [] →
      ∃ d e, f.diagnostic = .ok d ∧ (f.attach (.snapshots ss)).diagnostic = .ok e ∧
        e.notes.length = d.notes.length + ss.length ∧
        (f.snapshots.length ≠ 1 → d.notes <+: e.notes) ∧
        (2 ≤ f.snapshots.length → f.instructions = [] →
          ∃ s rest, f.dump = .ok s ∧ (f.attach (.snapshots ss)).dump = .ok (s ++ rest)) ∧
        ∀ s, f.snapshots = [s] →
          ∃ remarks rest, d.notes = remarks ++ ["stack" ++ ":\n" ++ Text.trimEnd s.block] ∧
            e.notes = remarks ++ ("stack #0" ++ ":\n" ++ Text.trimEnd s.block) :: rest := by
  obtain ⟨rs, hrs⟩ := h.sound.remarks
  refine ⟨fun xs => ⟨?_, fun hf => ?_⟩, fun ss hss => ?_⟩
  · have hd := diagnostic_eq_ok (notes_eq_ok hrs)
    exact ⟨_, hd, (diagnostic_attach_instructions f xs).trans hd⟩
  · refine ⟨_, dump_eq_ok hf, ?_⟩
    rw [dump_eq_ok (hasSnapshots_attach hf _), dumpLines_attach_instructions, Text.unlines_append,
      unlines_furtherListing]
  · have hrs' : (f.attach (.snapshots ss)).remarks = .ok rs := hrs
    refine ⟨_, _, diagnostic_eq_ok (notes_eq_ok hrs), diagnostic_eq_ok (notes_eq_ok hrs'), ?_,
      fun hlength => ?_, fun hlength hinstructions => ?_, fun s hs => ?_⟩
    · simp only [List.length_append, List.length_map, length_exhibits, snapshots_attach_snapshots]
      omega
    · obtain ⟨more, hmore⟩ := exhibits_prefix_attach_snapshots hlength ss
      rw [← hmore, List.map_append, ← List.append_assoc]
      exact List.prefix_append _ _
    · obtain ⟨more, hmore⟩ := dumpLines_prefix_attach_snapshots (by omega) hinstructions ss
      have hf : f.hasSnapshots = true := by
        rw [hasSnapshots_eq_true_iff, ← List.length_pos_iff]
        omega
      refine ⟨_, Text.unlines more, dump_eq_ok hf, ?_⟩
      rw [dump_eq_ok (hasSnapshots_attach hf _), ← hmore, Text.unlines_append]
    · obtain ⟨hone, hmany⟩ := exhibits_attach_of_alone (h.sound.isMismatch_eq_false hs) hs hss
      refine ⟨rs.map Remark.text, (Exhibit.numberedFrom 1 ss).map Exhibit.note, ?_, ?_⟩
      · rw [hone]
        rfl
      · rw [hmany]
        rfl

/-- An instruction that comes second has the number 1, and a stack that comes second gives the first
one the number 0 and takes nothing else from its note. -/
theorem Reachable.reports_grow_second :
    let s : Snapshot := ⟨[.float]⟩
    ∃ f, Reachable (.check "Add" (.underflow 2 s)) [.instructions ["Dup"]] f ∧
      (∃ t, f.dump = .ok t ∧
        (f.attach (.instructions ["Add"])).dump = .ok (t ++ "    1: Add\n")) ∧
      ∃ d e, f.diagnostic = .ok d ∧ (f.attach (.snapshots [.empty])).diagnostic = .ok e ∧
        ∃ remarks rest, d.notes = remarks ++ ["stack:\n[\n    [ 0] Float\n]"] ∧
          e.notes = remarks ++ "stack #0:\n[\n    [ 0] Float\n]" :: rest := by
  intro s
  obtain ⟨g, hg⟩ : ∃ g, ofOrigin (.check "Add" (.underflow 2 s)) = .ok g := ⟨_, rfl⟩
  have hreach := (Reachable.made hg).attached (.instructions ["Dup"])
  have hsnapshots : (g.attach (.instructions ["Dup"])).snapshots = [s] := hreach.sound.snapshots
  have hinstructions : (g.attach (.instructions ["Dup"])).instructions = ["Dup"] :=
    hreach.sound.instructions
  obtain ⟨hlisted, hshown⟩ := hreach.reports_grow
  obtain ⟨t, ht, hmore⟩ := (hlisted ["Add"]).2 (by rw [hasSnapshots, hsnapshots]; rfl)
  obtain ⟨d, e, hd, he, -, -, -, halone⟩ := hshown [.empty] (by simp)
  obtain ⟨remarks, rest, hbefore, hthen⟩ := halone s hsnapshots
  have hblock : Text.trimEnd s.block = "[\n    [ 0] Float\n]" := by decide
  rw [hblock] at hbefore hthen
  refine ⟨_, hreach, ⟨t, ht, ?_⟩, d, e, hd, he, remarks, rest, hbefore, hthen⟩
  rw [hmore, hinstructions]
  rfl

end Finding

end StackVerdict
