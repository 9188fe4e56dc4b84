import Mathlib.Data.List.Dedup
import StackVerdict.Proofs.CodePoints
import StackVerdict.Proofs.Drafts
import StackVerdict.Proofs.Orientation

/-!
# Sorting and counting names

A list of names can be sorted, collected in an ordered set, and counted by a hash set.  The ordered
set and the hash set have the members of the list once each, because the order, the hash and
equality tell the same names apart; the sorted list and the ordered set are fixed by their order.
So none of the three depends on how the list is arranged (`TypeName.collections_agree`).  Stacks are
counted by the names in their slots, whichever end these came in from.
-/

namespace StackVerdict

/-! ## Lists without repetitions -/

section

variable {α : Type} [DecidableEq α] {l m : List α}

theorem length_eq_length_dedup (hm : m.Nodup) (hmem : ∀ a, a ∈ m ↔ a ∈ l) :
    m.length = l.dedup.length := by
  apply List.Perm.length_eq
  apply (List.perm_ext_iff_of_nodup hm l.nodup_dedup).2
  intro a
  rw [hmem, List.mem_dedup]

/-- A hash set has as many members as the list that it is made of has different ones. -/
theorem size_ofList_eq_length_dedup [Hashable α] (l : List α) :
    (Std.HashSet.ofList l).size = l.dedup.length := by
  rw [← Std.HashSet.length_toList]
  apply length_eq_length_dedup
  · apply Std.HashSet.distinct_toList.imp
    intro a b h
    exact ne_of_beq_false h
  · intro a
    rw [Std.HashSet.mem_toList, Std.HashSet.mem_ofList, List.contains_iff_mem]

end

/-! ## Collections of names -/

namespace TypeName

variable {l m : List TypeName}

theorem countDistinct_eq (l : List TypeName) : countDistinct l = l.dedup.length :=
  size_ofList_eq_length_dedup l

theorem sorted_perm (l : List TypeName) : (sorted l).Perm l :=
  List.mergeSort_perm l _

theorem pairwise_sorted (l : List TypeName) :
    (sorted l).Pairwise fun a b => (compare a b).isLE := by
  apply List.pairwise_mergeSort
  · intro a b c
    exact Std.TransCmp.isLE_trans
  · intro a b
    rw [Bool.or_eq_true]
    exact isLE_total a b

theorem sorted_eq_of_perm (h : l.Perm m) : sorted l = sorted m := by
  apply List.Perm.eq_of_pairwise (fun a b _ _ => isLE_antisymm) (pairwise_sorted l)
    (pairwise_sorted m)
  exact (sorted_perm l).trans (h.trans (sorted_perm m).symm)

theorem pairwise_ordered (l : List TypeName) :
    (ordered l).Pairwise fun a b => compare a b = .lt :=
  Std.TreeSet.ordered_toList

theorem mem_ordered_iff {t : TypeName} : t ∈ ordered l ↔ t ∈ l := by
  rw [ordered, Std.TreeSet.mem_toList, Std.TreeSet.mem_ofList, List.contains_iff_mem]

theorem nodup_ordered (l : List TypeName) : (ordered l).Nodup := by
  apply (pairwise_ordered l).imp
  rintro a b h rfl
  have hself : compare a a = .eq := Std.ReflCmp.compare_self
  rw [hself] at h
  cases h

theorem length_ordered (l : List TypeName) : (ordered l).length = l.dedup.length :=
  length_eq_length_dedup (nodup_ordered l) fun _ => mem_ordered_iff

theorem ordered_eq_of_perm (h : l.Perm m) : ordered l = ordered m := by
  apply List.Perm.eq_of_pairwise _ (pairwise_ordered l) (pairwise_ordered m)
  · apply (List.perm_ext_iff_of_nodup (nodup_ordered l) (nodup_ordered m)).2
    intro t
    rw [mem_ordered_iff, mem_ordered_iff, h.mem_iff]
  · intro a b _ _ hab hba
    exact absurd hba (Std.OrientedCmp.not_lt_of_lt hab)

end TypeName

/-! ## Collections of stacks -/

namespace Snapshot

theorem countDistinct_eq (ss : List Snapshot) :
    countDistinct ss = (ss.map fun s => s.slots.map TypeName.name).dedup.length := by
  have hinj : Function.Injective fun s : Snapshot => s.slots.map TypeName.name :=
    fun _ _ => map_name_inj.1
  rw [List.dedup_map_of_injective hinj, List.length_map]
  exact size_ofList_eq_length_dedup ss

end Snapshot

namespace Listing

/-- The names of the slots, the top first. -/
def topFirst (k : Listing) : List String :=
  match k.order with
  | .topDown | .collected => k.names
  | .bottomUp | .captured => k.names.reverse

theorem map_name_of_read {k : Listing} {s : Snapshot} (h : k.read = .ok s) :
    s.slots.map TypeName.name = k.topFirst := by
  obtain ⟨ts, hts, hs⟩ := bind_eq_ok_iff.1 h
  obtain rfl := Except.ok.inj hs
  have hnames : ts.map TypeName.name = k.names := readNames_eq_ok_iff.1 hts
  unfold topFirst
  cases k.order with
  | topDown => exact hnames
  | bottomUp => rw [← hnames, ← List.map_reverse]; rfl
  | captured => rw [← hnames, ← List.map_reverse]; rfl
  | collected => rw [Snapshot.slots_collect, hnames]

theorem exists_mapM_read {ks : List Listing} (h : ∀ k ∈ ks, "" ∉ k.names) :
    ∃ ss, ks.mapM read = .ok ss ∧
      (ss.map fun s => s.slots.map TypeName.name) = ks.map topFirst := by
  induction ks with
  | nil => exact ⟨[], rfl, rfl⟩
  | cons k ks ih =>
      obtain ⟨hk, hks⟩ := List.forall_mem_cons.1 h
      obtain ⟨s, hs⟩ := exists_read_iff.2 hk
      obtain ⟨ss, hss, hnames⟩ := ih hks
      refine ⟨s :: ss, ?_, ?_⟩
      · rw [List.mapM_cons, hs, ok_bind, hss]
        rfl
      · rw [List.map_cons, List.map_cons, map_name_of_read hs, hnames]

end Listing

namespace TypeName

/-- The sorted list is the list in order, the ordered set has its members once each in order, and
counting by the hash counts the members of that set; all three are the same for any arrangement of
the list.  Counting stacks counts the different lists of names in their slots, the top first,
whichever way each stack came in. -/
theorem collections_agree (l : List TypeName) :
    ((sorted l).Perm l ∧ (sorted l).Pairwise fun a b => (compare a b).isLE) ∧
    ((ordered l).Pairwise (fun a b => compare a b = .lt) ∧ ∀ t, t ∈ ordered l ↔ t ∈ l) ∧
    (countDistinct l = (ordered l).length ∧ countDistinct l = l.dedup.length) ∧
    (∀ m, l.Perm m →
      sorted l = sorted m ∧ ordered l = ordered m ∧ countDistinct l = countDistinct m) ∧
    (∀ ss : List Snapshot,
      Snapshot.countDistinct ss = (ss.map fun s => s.slots.map TypeName.name).dedup.length) ∧
    ∀ ks : List Listing, (∀ k ∈ ks, "" ∉ k.names) →
      ∃ ss, ks.mapM Listing.read = .ok ss ∧
        Snapshot.countDistinct ss = (ks.map Listing.topFirst).dedup.length := by
  refine ⟨⟨sorted_perm l, pairwise_sorted l⟩, ⟨pairwise_ordered l, fun _ => mem_ordered_iff⟩,
    ⟨?_, countDistinct_eq l⟩, fun m h => ⟨sorted_eq_of_perm h, ordered_eq_of_perm h, ?_⟩,
    Snapshot.countDistinct_eq, fun ks hks => ?_⟩
  · rw [countDistinct_eq, length_ordered]
  · rw [countDistinct_eq, countDistinct_eq, h.dedup.length_eq]
  · obtain ⟨ss, hread, hnames⟩ := Listing.exists_mapM_read hks
    exact ⟨ss, hread, by rw [Snapshot.countDistinct_eq, hnames]⟩

/-- Names that are repeated and moved about, and two stacks that come in twice each from either
end. -/
theorem collections_agree_repeated :
    let l : List TypeName := [int64, int32, float, int32]
    let m : List TypeName := [int32, int32, int64, float]
    let ks : List Listing := [⟨.captured, ["a", "b"]⟩, ⟨.topDown, ["b", "a"]⟩,
      ⟨.bottomUp, ["b", "a"]⟩, ⟨.collected, ["a", "b"]⟩]
    (l.Perm m ∧ ∀ k ∈ ks, "" ∉ k.names) ∧
      sorted l = sorted m ∧ ordered l = ordered m ∧ countDistinct m = 3 ∧
      ∃ ss, ks.mapM Listing.read = .ok ss ∧ Snapshot.countDistinct ss = 2 := by
  intro l m ks
  have hperm : l.Perm m := by decide
  have hks : ∀ k ∈ ks, "" ∉ k.names := by decide
  obtain ⟨-, -, ⟨-, hcount⟩, hmoved, -, hread⟩ := collections_agree l
  obtain ⟨hsorted, hordered, hdistinct⟩ := hmoved m hperm
  obtain ⟨ss, hss, hstacks⟩ := hread ks hks
  refine ⟨⟨hperm, hks⟩, hsorted, hordered, ?_, ss, hss, ?_⟩
  · rw [← hdistinct, hcount]
    decide
  · rw [hstacks]
    decide

end TypeName

end StackVerdict
