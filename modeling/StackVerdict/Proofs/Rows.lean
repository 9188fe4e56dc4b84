import StackVerdict.Proofs.Divergence
import StackVerdict.Proofs.Exhibit

/-!
# The rows of a block

A row of a block shows the number of a slot and the name in it.  A printed block gives its rows to a
reader who does not know the stack (`scanRows_blockLines`), and what can be said about the slots of
two stacks can be said about their rows (`partAt_numbered_iff`, `oneGoesOn_numbered_iff`).
-/

namespace StackVerdict

namespace Snapshot

/-- The number in a row and the name behind it.  A row is made of blanks, a bracket, blanks, the
digits of the number, a bracket, a blank and the name. -/
def scanRow? (line : String) : Option (Nat × String) :=
  match line.toList.dropWhile (· == ' ') with
  | '[' :: rest =>
      let numeral := rest.dropWhile (· == ' ')
      let digits := numeral.takeWhile Char.isDigit
      match numeral.dropWhile Char.isDigit with
      | ']' :: ' ' :: name =>
          if digits = [] then none else some (Nat.ofDigitChars 10 digits 0, String.ofList name)
      | _ => none
  | _ => none

/-- The rows among the lines of a block. -/
def scanRows (lines : List String) : List (Nat × String) :=
  lines.filterMap scanRow?

/-- A row gives its number and its whole name, also where the name holds brackets or blanks. -/
theorem scanRow?_row (i : Nat) (t : TypeName) : scanRow? (row i t) = some (i, t.name) := by
  have hrow : (row i t).toList.dropWhile (· == ' ') =
      '[' :: ((Text.column 2 i).toList ++ ']' :: ' ' :: t.name.toList) := by
    simp [row]
  have hbracket : ∀ c ∈ (']' :: ' ' :: t.name.toList).head?, c.isDigit = false := by
    simp
  unfold scanRow?
  simp only [hrow, Text.dropWhile_column_append, Text.takeWhile_toDigits_append hbracket,
    Text.dropWhile_toDigits_append hbracket, if_neg Nat.toDigits_ne_nil,
    Nat.ofDigitChars_ten_toDigits, String.ofList_toList]

/-- The slots with their numbers. -/
def numbered (l : List TypeName) : List (Nat × String) :=
  l.mapIdx fun i t => (i, t.name)

theorem scanRows_rows (s : Snapshot) : scanRows s.rows = numbered s.slots := by
  have hscan : (scanRow? ∘ fun p : TypeName × Nat => row p.2 p.1) =
      some ∘ fun p : TypeName × Nat => (p.2, p.1.name) := by
    funext p
    rw [Function.comp_apply, Function.comp_apply, scanRow?_row]
  rw [scanRows, rows, numbered, List.mapIdx_eq_zipIdx_map, List.mapIdx_eq_zipIdx_map,
    List.filterMap_map, hscan, List.filterMap_eq_map]

/-- The brackets around the rows are no rows. -/
theorem scanRows_blockLines (s : Snapshot) : scanRows s.blockLines = numbered s.slots := by
  have hopen : scanRow? "[" = none := by decide
  have hclose : scanRow? "]" = none := by decide
  have hempty : scanRow? "[]" = none := by decide
  have hrows := s.scanRows_rows
  unfold scanRows at hrows ⊢
  unfold blockLines
  split_ifs with h
  · simp [hempty, numbered, List.isEmpty_iff.1 h]
  · simp [hopen, hclose, hrows]

example : scanRows ["[", "    [ 0] ] a", "    [ 1]  ", "]"] = [(0, "] a"), (1, " ")] := by decide

theorem length_numbered (l : List TypeName) : (numbered l).length = l.length :=
  List.length_mapIdx

theorem length_scanRows_blockLines (s : Snapshot) : (scanRows s.blockLines).length = s.height := by
  rw [scanRows_blockLines, length_numbered]
  rfl

theorem getElem?_numbered_eq_some_iff {l : List TypeName} {i : Nat} {x : Nat × String} :
    (numbered l)[i]? = some x ↔ ∃ t, l[i]? = some t ∧ x = (i, t.name) := by
  rw [numbered, List.getElem?_mapIdx, Option.map_eq_some_iff]
  simp only [eq_comm]

theorem mem_numbered_iff {l : List TypeName} {i : Nat} {name : String} :
    (i, name) ∈ numbered l ↔ ∃ t, l[i]? = some t ∧ name = t.name := by
  rw [List.mem_iff_getElem?]
  simp only [getElem?_numbered_eq_some_iff]
  constructor
  · rintro ⟨j, t, ht, h⟩
    cases h
    exact ⟨t, ht, rfl⟩
  · rintro ⟨t, ht, rfl⟩
    exact ⟨i, t, ht, rfl⟩

theorem numbered_take (l : List TypeName) (n : Nat) :
    numbered (l.take n) = (numbered l).take n := by
  refine List.ext_getElem? fun i => ?_
  simp only [numbered, List.getElem?_mapIdx, List.getElem?_take]
  split_ifs <;> rfl

theorem numbered_inj {l m : List TypeName} : numbered l = numbered m ↔ l = m := by
  constructor
  · intro h
    refine List.ext_getElem? fun i => ?_
    have hslot := congrArg (·[i]?) h
    simp only [numbered, List.getElem?_mapIdx] at hslot
    exact Option.map_injective (fun t u htu => TypeName.ext (Prod.mk.inj htu).2) hslot
  · exact congrArg numbered

theorem partAt_numbered_iff {as bs : List TypeName} {i : Nat} {x y : Nat × String} :
    PartAt (numbered as) (numbered bs) i x y ↔
      ∃ a b, x = (i, a.name) ∧ y = (i, b.name) ∧ PartAt as bs i a b := by
  constructor
  · rintro ⟨hagree, hleft, hright, hne⟩
    obtain ⟨a, ha, rfl⟩ := getElem?_numbered_eq_some_iff.1 hleft
    obtain ⟨b, hb, rfl⟩ := getElem?_numbered_eq_some_iff.1 hright
    rw [← numbered_take, ← numbered_take, numbered_inj] at hagree
    exact ⟨a, b, rfl, rfl, hagree, ha, hb, fun h => hne (by rw [h])⟩
  · rintro ⟨a, b, rfl, rfl, hagree, ha, hb, hne⟩
    refine ⟨?_, getElem?_numbered_eq_some_iff.2 ⟨a, ha, rfl⟩,
      getElem?_numbered_eq_some_iff.2 ⟨b, hb, rfl⟩, ?_⟩
    · rw [← numbered_take, ← numbered_take, hagree]
    · intro h
      exact hne (TypeName.ext (Prod.mk.inj h).2)

-- A beginning of the rows is a beginning of the slots, because the numbers start at the top.
theorem numbered_prefix_iff {l m : List TypeName} : numbered l <+: numbered m ↔ l <+: m := by
  rw [List.prefix_iff_eq_take, List.prefix_iff_eq_take, length_numbered, ← numbered_take,
    numbered_inj]

theorem oneGoesOn_numbered_iff {as bs : List TypeName} :
    OneGoesOn (numbered as) (numbered bs) ↔ OneGoesOn as bs := by
  rw [OneGoesOn, OneGoesOn, numbered_prefix_iff, numbered_prefix_iff, Ne, Ne, numbered_inj]

theorem blockLines_inj {s t : Snapshot} : s.blockLines = t.blockLines ↔ s = t := by
  constructor
  · intro h
    have hread := congrArg readBlock? h
    rw [readBlock?_blockLines, readBlock?_blockLines] at hread
    exact Option.some.inj hread
  · exact congrArg blockLines

end Snapshot

end StackVerdict
