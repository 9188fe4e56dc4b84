import StackVerdict.Proofs.Dump
import StackVerdict.Proofs.Reachable

/-!
# The stacks in both reports

A finding shows its stacks in its dump and in the notes of its diagnostic.  The dump writes the
block of a stack as it is and a note trims it, but a block ends in a bracket and a line feed
whatever its names are, so the trimming takes off that line feed and nothing else.  Therefore the
dump is the message, the notes on the stacks with an empty line in front of each, and the listing
(`Reachable.dump_eq_notes`).
-/

namespace StackVerdict

namespace Finding

theorem unlines_exhibits (xs : List Exhibit) :
    Text.unlines (xs.flatMap fun x => "" :: x.lines) =
      String.join ((xs.map Exhibit.note).map fun n => "\n" ++ n ++ "\n") := by
  induction xs with
  | nil => simp
  | cons x xs ih =>
      rw [List.flatMap_cons, Text.unlines_append, ih, Text.unlines_cons, x.unlines_lines,
        List.map_cons, List.map_cons, String.join_cons, String.empty_append]
      simp only [String.append_assoc]

theorem unlines_listing (f : Finding) :
    Text.unlines f.listing =
      if f.instructions = [] then ""
      else "\ninstructions:\n" ++ Text.unlines (f.instructions.mapIdx instructionLine) := by
  unfold listing
  by_cases h : f.instructions = []
  · simp [h]
  · rw [if_neg (by simpa using h), if_neg h, Text.unlines_cons, Text.unlines_cons,
      ← String.append_assoc]
    rfl

theorem unlines_dumpLines (f : Finding) :
    Text.unlines f.dumpLines =
      f.message ++ "\n" ++
        String.join ((f.exhibits.map Exhibit.note).map fun n => "\n" ++ n ++ "\n") ++
        Text.unlines f.listing := by
  rw [dumpLines, List.cons_append, Text.unlines_cons, Text.unlines_append, unlines_exhibits,
    ← String.append_assoc]

theorem drop_notes (f : Finding) (remarks : List String) :
    let notes := remarks ++ f.exhibits.map Exhibit.note
    notes.drop (notes.length - f.snapshots.length) = f.exhibits.map Exhibit.note := by
  refine List.drop_left' ?_
  rw [List.length_append, List.length_map, length_exhibits]
  omega

theorem exists_note {f : Finding} {i : Nat} {s : Snapshot} (h : f.snapshots[i]? = some s) :
    ∃ n, (f.exhibits.map Exhibit.note)[i]? = some n ∧
      n ++ "\n" = (f.heading i).text ++ ":\n" ++ s.block := by
  refine ⟨Exhibit.note ⟨f.heading i, s⟩, by simp [exhibits, h], ?_⟩
  have hcolon : ":\n" = ":" ++ "\n" := rfl
  rw [← Exhibit.unlines_lines, Exhibit.lines, Text.unlines_cons, hcolon, ← String.append_assoc]
  rfl

theorem dump_eq_full {f : Finding} (hf : f.hasSnapshots = true) : f.dump = .ok f.full := by
  rw [dump_eq_ok hf, full, if_pos hf]

theorem full_eq_message {f : Finding} (hf : f.hasSnapshots = false) : f.full = f.message := by
  rw [full, hf]
  rfl

/-- The last notes of the diagnostic are one for each stack, which is its heading and its block
less the last line feed.  The dump is the message, each of these notes behind an empty line, and
the numbered listing of the instructions if there are any.  At length a finding says its dump where
it has a stack, and otherwise, as always in short, its message. -/
theorem Reachable.dump_eq_notes {o : Origin} {l : List Attachment} {f : Finding}
    (h : Reachable o l f) :
    ∃ d, f.diagnostic = .ok d ∧
      let notes := d.notes.drop (d.notes.length - f.snapshots.length)
      notes.length = f.snapshots.length ∧
      (∀ i s, f.snapshots[i]? = some s →
        ∃ n, notes[i]? = some n ∧ n ++ "\n" = (f.heading i).text ++ ":\n" ++ s.block) ∧
      (f.hasSnapshots = true →
        f.dump = .ok
          (f.message ++ "\n" ++ String.join (notes.map fun n => "\n" ++ n ++ "\n") ++
            if f.instructions = [] then ""
            else "\ninstructions:\n" ++ Text.unlines (f.instructions.mapIdx instructionLine))) ∧
      (f.hasSnapshots = true → f.dump = .ok f.full) ∧
      (f.hasSnapshots = false → f.full = f.message) ∧
      f.brief = f.message := by
  obtain ⟨rs, hrs⟩ := h.sound.remarks
  refine ⟨_, diagnostic_eq_ok (notes_eq_ok hrs), ?_⟩
  rw [drop_notes]
  refine ⟨by rw [List.length_map, length_exhibits], fun i s hs => exists_note hs, fun hf => ?_,
    dump_eq_full, full_eq_message, rfl⟩
  rw [dump_eq_ok hf, unlines_dumpLines, unlines_listing]

/-- Blanks and line feeds at the end of a name stay in the note, also in the last row of a block. -/
theorem Reachable.dump_eq_notes_blank_ends :
    let s : Snapshot := ⟨[⟨"Int32 \n", by decide⟩, ⟨"\u3000", by decide⟩]⟩
    let f := (ofMessage "m").attachAll [.snapshots [s, .empty], .instructions ["Ret"]]
    Reachable (.custom "m") [.snapshots [s, .empty], .instructions ["Ret"]] f ∧
    ∃ d, f.diagnostic = .ok d ∧
      d.notes.drop (d.notes.length - 2) =
        ["stack #0:\n[\n    [ 0] Int32 \n\n    [ 1] \u3000\n]", "stack #1:\n[]"] ∧
      f.dump = .ok
        ("m\n" ++ "\nstack #0:\n[\n    [ 0] Int32 \n\n    [ 1] \u3000\n]\n" ++
          "\nstack #1:\n[]\n" ++ "\ninstructions:\n    0: Ret\n") := by
  intro s f
  have hreach : Reachable (.custom "m") [.snapshots [s, .empty], .instructions ["Ret"]] f :=
    ((Reachable.made rfl).attached (.snapshots [s, .empty])).attached (.instructions ["Ret"])
  obtain ⟨d, hd, -, -, hdump, -⟩ := hreach.dump_eq_notes
  have hnotes : d.notes.drop (d.notes.length - 2) =
      ["stack #0:\n[\n    [ 0] Int32 \n\n    [ 1] \u3000\n]", "stack #1:\n[]"] := by
    obtain rfl := Except.ok.inj ((diagnostic_eq_ok (notes_eq_ok rfl)).symm.trans hd)
    decide
  refine ⟨hreach, d, hd, hnotes, ?_⟩
  rw [hdump rfl, show f.snapshots.length = 2 from rfl, hnotes]
  decide

end Finding

end StackVerdict
