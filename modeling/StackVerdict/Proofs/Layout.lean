import StackVerdict.Proofs.Orientation
import StackVerdict.Proofs.Rows

/-!
# Both texts of a stack

The block of a stack and its text in one line each tell the stack.  The lines of the block can be
read one by one: the row of slot `i` is line `i + 1`, counted from zero, and a scan of it gives the
number and the whole name, so that names need only be free of line feeds (`block_eq_iff`).  In one
line the names stand between commas with a blank behind; where no name holds such a pair none can
arise at the end of a name either, because a comma and a blank do not overlap another such pair
(`oneLine_eq_iff`).
-/

namespace StackVerdict

theorem TypeName.toList_name_ne_nil (t : TypeName) : t.name.toList ≠ [] := by
  rw [Ne, String.toList_eq_nil_iff]
  exact t.name_ne

namespace Snapshot

variable {s t : Snapshot}

/-! ## The block -/

theorem readLines_block (hs : s.Lacks '\n') : Text.readLines s.block = s.blockLines :=
  Text.readLines_unlines fun _ => not_mem_of_mem_blockLines (.inl rfl) hs

theorem getElem?_blockLines {i : Nat} {u : TypeName} (h : s.get? i = some u) :
    s.blockLines[i + 1]? = some (row i u) := by
  have hslot : s.slots[i]? = some u := h
  have hrow : s.rows[i]? = some (row i u) := by
    rw [rows, List.getElem?_mapIdx, hslot]
    rfl
  have hi : i < s.rows.length := (List.getElem?_eq_some_iff.1 hrow).1
  have hempty : ¬ s.isEmpty = true := by
    intro he
    rw [List.isEmpty_iff.1 he] at hslot
    cases hslot
  rw [blockLines, if_neg hempty, List.getElem?_cons_succ, List.getElem?_append_left hi, hrow]

/-- Stacks without line feeds in their names have the same block exactly when they are the same.
The block is one line for the empty stack and otherwise a line for each slot between two more, and
the line of a slot gives its number and its name. -/
theorem block_eq_iff (hs : s.Lacks '\n') (ht : t.Lacks '\n') :
    (s.block = t.block ↔ s = t) ∧
    Text.unlines (Text.readLines s.block) = s.block ∧
    (Text.readLines s.block).length = (if s.isEmpty then 1 else s.height + 2) ∧
    ∀ i u, s.get? i = some u →
      ((Text.readLines s.block)[i + 1]?).bind scanRow? = some (i, u.name) := by
  rw [readLines_block hs]
  refine ⟨⟨fun h => ?_, congrArg block⟩, rfl, length_blockLines s, fun i u hu => ?_⟩
  · apply blockLines_inj.1
    rw [← readLines_block hs, h, readLines_block ht]
  · rw [getElem?_blockLines hu, Option.bind_some, scanRow?_row]

/-- The row of a slot far down is read with all digits of its number, and a name that begins like
the end of a number as a whole. -/
theorem block_eq_iff_far_down :
    let s : Snapshot := ⟨List.replicate 100 .int32 ++ [⟨"] 7] ", by decide⟩]⟩
    let t : Snapshot := ⟨List.replicate 101 .int32⟩
    (s.Lacks '\n' ∧ t.Lacks '\n') ∧ s.block ≠ t.block ∧
      (Text.readLines s.block).length = 103 ∧
      ((Text.readLines s.block)[101]?).bind scanRow? = some (100, "] 7] ") := by
  intro s t
  have ht : t.Lacks '\n' := by
    intro u hu
    rw [List.eq_of_mem_replicate hu]
    decide
  have hs : s.Lacks '\n' := by
    intro u hu
    rcases List.mem_append.1 hu with hu | hu
    · rw [List.eq_of_mem_replicate hu]
      decide
    · rw [List.mem_singleton.1 hu]
      decide
  obtain ⟨hiff, -, hlength, hslot⟩ := block_eq_iff hs ht
  refine ⟨⟨hs, ht⟩, fun h => ?_, hlength, hslot 100 ⟨"] 7] ", by decide⟩ rfl⟩
  have hbottom : s.get? 100 = t.get? 100 := by rw [hiff.1 h]
  exact absurd hbottom (by decide)

/-! ## The line -/

/-- No name in the stack holds what stands between two names. -/
def Separable (s : Snapshot) : Prop :=
  ∀ u ∈ s.slots, ¬ [',', ' '] <:+: u.name.toList

instance (s : Snapshot) : Decidable s.Separable :=
  inferInstanceAs (Decidable (∀ u ∈ s.slots, ¬ [',', ' '] <:+: u.name.toList))

/-- The names of the slots as lists of characters. -/
def letters (s : Snapshot) : List (List Char) :=
  (s.slots.map TypeName.name).map String.toList

theorem letters_inj : s.letters = t.letters ↔ s = t := by
  rw [letters, letters, List.map_inj_right fun _ _ => String.toList_inj.1, map_name_inj]

theorem toList_oneLine (s : Snapshot) :
    s.oneLine.toList = '[' :: ([',', ' '].intercalate s.letters ++ [']']) := by
  simp [oneLine, letters, Function.comp_def]

theorem Separable.of_mem_letters (hs : s.Separable) {cs : List Char} (h : cs ∈ s.letters) :
    cs ≠ [] ∧ ¬ [',', ' '] <:+: cs := by
  obtain ⟨n, hn, rfl⟩ := List.mem_map.1 h
  obtain ⟨u, hu, rfl⟩ := List.mem_map.1 hn
  exact ⟨u.toList_name_ne_nil, hs u hu⟩

theorem intercalate_letters_eq (h : s.oneLine = t.oneLine) :
    [',', ' '].intercalate s.letters = [',', ' '].intercalate t.letters := by
  have hline := congrArg String.toList h
  rw [toList_oneLine, toList_oneLine, List.cons.injEq, List.append_left_inj] at hline
  exact hline.2

/-- Stacks none of whose names holds a comma and a blank behind it have the same line exactly when
they are the same; the empty stack has a line of its own, because no name is empty. -/
theorem oneLine_eq_iff (hs : s.Separable) (ht : t.Separable) :
    (s.oneLine = t.oneLine ↔ s = t) ∧
    ∀ u : TypeName, empty.oneLine ≠ (ofTopDown [u]).oneLine := by
  refine ⟨⟨fun h => ?_, congrArg oneLine⟩, fun u h => ?_⟩
  · apply letters_inj.1
    apply Text.intercalate_sep_inj (by decide) _ _ (intercalate_letters_eq h)
    · exact fun _ => hs.of_mem_letters
    · exact fun _ => ht.of_mem_letters
  · exact Text.intercalate_cons_ne_nil u.toList_name_ne_nil [] (intercalate_letters_eq h).symm

/-- A comma at the end of a name and a blank at the beginning of the next do not run into what
stands between them. -/
theorem oneLine_eq_iff_at_ends :
    let s : Snapshot := ⟨[⟨"a,", by decide⟩, ⟨" b", by decide⟩]⟩
    let t : Snapshot := ⟨[⟨"a,", by decide⟩, ⟨"b", by decide⟩]⟩
    (s.Separable ∧ t.Separable) ∧ s.oneLine ≠ t.oneLine ∧
      empty.oneLine ≠ (ofTopDown [⟨",", by decide⟩]).oneLine := by
  intro s t
  have hs : s.Separable := by decide
  have ht : t.Separable := by decide
  obtain ⟨hiff, hempty⟩ := oneLine_eq_iff hs ht
  refine ⟨⟨hs, ht⟩, fun h => ?_, hempty _⟩
  exact absurd (hiff.1 h) (by decide)

-- A name that holds the pair reads as two names.
example : (ofTopDown [⟨"a, b", by decide⟩]).oneLine =
    (ofTopDown [⟨"a", by decide⟩, ⟨"b", by decide⟩]).oneLine := by decide

end Snapshot

end StackVerdict
