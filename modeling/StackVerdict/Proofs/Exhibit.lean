import Std.Data.String.ToNat
import StackVerdict.Finding.Exhibit
import StackVerdict.Proofs.Text

/-!
# Reading stacks back

The block of a stack is read row by row (`readBlock?_blockLines`): a row begins with its own number
in brackets, so the name is what follows, whatever characters it has.  Headings are told apart by
their text (`Heading.text_injective`).  A note on a stack is the heading and the block without their
last line feed (`unlines_lines`), whatever the names are; where no name holds a line feed the stack
is read back from the note (`readNote?_note`).
-/

namespace StackVerdict

/-! ## Blocks -/

namespace Snapshot

/-- No name in the stack holds the character. -/
def Lacks (c : Char) (s : Snapshot) : Prop :=
  ∀ t ∈ s.slots, c ∉ t.name.toList

instance (c : Char) (s : Snapshot) : Decidable (s.Lacks c) :=
  inferInstanceAs (Decidable (∀ t ∈ s.slots, c ∉ t.name.toList))

/-- The type in the row with the given number. -/
def readRow? (i : Nat) (line : String) : Option TypeName :=
  (Text.after? ("    [" ++ Text.column 2 i ++ "] ") line).bind fun name =>
    (TypeName.ofString name).toOption

/-- The stack in a block that is given line by line; the rows are between the first line and the
last. -/
def readBlock? (lines : List String) : Option Snapshot :=
  (Text.readNumbered readRow? lines.tail.dropLast).map ofTopDown

theorem readRow?_row (i : Nat) (t : TypeName) : readRow? i (row i t) = some t := by
  rw [readRow?, row, Text.after?_append, Option.bind_some, TypeName.ofString_name]
  rfl

theorem readBlock?_blockLines (s : Snapshot) : readBlock? s.blockLines = some s := by
  have hrows : s.blockLines.tail.dropLast = s.rows := by
    unfold blockLines
    split_ifs with h
    · simp [rows, List.isEmpty_iff.1 h]
    · simp
  rw [readBlock?, hrows, rows, Text.readNumbered_mapIdx readRow?_row]
  rfl

theorem of_mem_blockLines {s : Snapshot} {l : String} (h : l ∈ s.blockLines) :
    l ∈ ["[]", "[", "]"] ∨ ∃ i, ∃ t ∈ s.slots, l = row i t := by
  unfold blockLines at h
  split_ifs at h
  · left
    rw [List.mem_singleton.1 h]
    simp
  · simp only [List.mem_cons, List.mem_append, List.not_mem_nil, or_false] at h
    rcases h with rfl | h | rfl
    · simp
    · obtain ⟨i, hi, rfl⟩ := List.mem_mapIdx.1 h
      exact Or.inr ⟨i, _, List.getElem_mem hi, rfl⟩
    · simp

theorem ne_empty_of_mem_blockLines {s : Snapshot} {l : String} (h : l ∈ s.blockLines) : l ≠ "" := by
  rcases of_mem_blockLines h with h | ⟨i, t, -, rfl⟩
  · rintro rfl
    simp at h
  · simp [row]

theorem not_mem_of_mem_blockLines {c : Char} (hc : Text.IsBreak c) {s : Snapshot} (hs : s.Lacks c)
    {l : String} (h : l ∈ s.blockLines) : c ∉ l.toList := by
  rcases of_mem_blockLines h with h | ⟨i, t, ht, rfl⟩
  · simp only [List.mem_cons, List.not_mem_nil, or_false] at h
    rcases h with rfl | rfl | rfl <;> rcases hc with rfl | rfl <;> simp
  · have hcolumn := hc.not_mem_column 2 i
    have hname := hs t ht
    rcases hc with rfl | rfl <;> simp [row, hcolumn, hname]

/-- A block ends in a bracket and a line feed, whatever its names are. -/
theorem exists_block_eq (s : Snapshot) :
    ∃ start : String, s.block = (start.push ']').push '\n' := by
  unfold block blockLines
  split_ifs
  · exact ⟨"[", by simp⟩
  · refine ⟨Text.unlines ("[" :: s.rows), ?_⟩
    rw [← List.cons_append, Text.unlines_append, ← String.toList_inj]
    simp

/-- Nothing but the last line feed of a block is trimmed. -/
theorem exists_trimEnd_block_eq (s : Snapshot) :
    ∃ start : String,
      Text.trimEnd s.block = start.push ']' ∧ s.block = (start.push ']').push '\n' := by
  obtain ⟨start, hstart⟩ := s.exists_block_eq
  refine ⟨start, ?_, hstart⟩
  rw [hstart, Text.trimEnd_push_of_isBlank (by decide),
    Text.trimEnd_push_of_not_isBlank (by decide)]

end Snapshot

/-! ## Headings -/

namespace Heading

theorem text_numbered (i : Nat) : (numbered i).text = "stack #" ++ i.repr := rfl

theorem text_numbered_ne {i : Nat} {h : Heading} (hh : ∀ j, h ≠ numbered j) :
    (numbered i).text ≠ h.text := by
  rw [text_numbered, Ne, ← String.toList_inj, String.toList_append]
  cases h with
  | numbered j => exact absurd rfl (hh j)
  | _ => simp [text]

theorem text_numbered_inj {i j : Nat} (h : (numbered i).text = (numbered j).text) : i = j := by
  rw [text_numbered, text_numbered, String.append_right_inj] at h
  exact Nat.repr_inj.1 h

theorem text_injective {h k : Heading} (e : h.text = k.text) : h = k := by
  cases h with
  | numbered i =>
      cases k with
      | numbered j => rw [text_numbered_inj e]
      | _ => exact absurd e (text_numbered_ne (by simp))
  | _ =>
      cases k with
      | numbered j => exact absurd e.symm (text_numbered_ne (by simp))
      | _ => first | rfl | simp [text] at e

theorem not_mem_text {c : Char} (hc : Text.IsBreak c) (h : Heading) : c ∉ h.text.toList := by
  cases h with
  | numbered i =>
      have hi := hc.not_mem_toDigits i
      rcases hc with rfl | rfl <;> simp [text_numbered, hi]
  | _ => rcases hc with rfl | rfl <;> simp [text]

end Heading

namespace Finding

variable {f : Finding} {i : Nat}

theorem heading_eq_branch_iff : f.heading i = .branch ↔ f.isMismatch = true ∧ i = 0 := by
  unfold heading
  split_ifs <;> simp_all

theorem heading_eq_destination_iff : f.heading i = .destination ↔ f.isMismatch = true ∧ i = 1 := by
  unfold heading
  split_ifs <;> simp_all

end Finding

/-! ## Notes -/

namespace Exhibit

theorem not_mem_of_mem_lines {c : Char} (hc : Text.IsBreak c) {x : Exhibit} (hx : x.stack.Lacks c)
    {l : String} (h : l ∈ x.lines) : c ∉ l.toList := by
  rcases List.mem_cons.1 h with rfl | h
  · have hheading := Heading.not_mem_text hc x.heading
    rcases hc with rfl | rfl <;> simp [hheading]
  · exact Snapshot.not_mem_of_mem_blockLines hc hx h

theorem ne_empty_of_mem_lines {x : Exhibit} {l : String} (h : l ∈ x.lines) : l ≠ "" := by
  rcases List.mem_cons.1 h with rfl | h
  · simp
  · exact Snapshot.ne_empty_of_mem_blockLines h

/-- The lines of an exhibit are its note and one more line feed. -/
theorem unlines_lines (x : Exhibit) : Text.unlines x.lines = x.note ++ "\n" := by
  obtain ⟨start, htrim, hblock⟩ := x.stack.exists_trimEnd_block_eq
  have hlines : Text.unlines x.stack.blockLines = (start.push ']').push '\n' := hblock
  rw [lines, Text.unlines_cons, hlines, note, htrim, ← String.toList_inj]
  simp

/-- The stack in a note. -/
def readNote? (note : String) : Option Snapshot :=
  Snapshot.readBlock? (Text.readLines (note ++ "\n")).tail

theorem readNote?_note {x : Exhibit} (hx : x.stack.Lacks '\n') :
    readNote? x.note = some x.stack := by
  have hlines : ∀ l ∈ x.lines, '\n' ∉ l.toList :=
    fun _ => not_mem_of_mem_lines (.inl rfl) hx
  rw [readNote?, ← unlines_lines, Text.readLines_unlines hlines]
  exact x.stack.readBlock?_blockLines

end Exhibit

namespace Finding

theorem stack_mem_of_mem_exhibits {f : Finding} {x : Exhibit} (hx : x ∈ f.exhibits) :
    x.stack ∈ f.snapshots := by
  rw [← f.map_stack_exhibits]
  exact List.mem_map_of_mem hx

theorem map_readNote?_exhibits {f : Finding} (hf : ∀ s ∈ f.snapshots, s.Lacks '\n') :
    (f.exhibits.map Exhibit.note).map Exhibit.readNote? = f.snapshots.map some := by
  rw [← f.map_stack_exhibits, List.map_map, List.map_map]
  refine List.map_congr_left fun x hx => ?_
  rw [Function.comp_apply, Exhibit.readNote?_note (hf x.stack (stack_mem_of_mem_exhibits hx))]
  rfl

/-- The headings hang on nothing but the number of stacks and whether two of them do not fit. -/
theorem exhibits_congr {f g : Finding} (hsnapshots : f.snapshots = g.snapshots)
    (hmismatch : f.isMismatch = g.isMismatch) : f.exhibits = g.exhibits := by
  have hheading : f.heading = g.heading := by
    funext i
    rw [heading, heading, hsnapshots, hmismatch]
  rw [exhibits, exhibits, hheading, hsnapshots]

end Finding

end StackVerdict
