import Mathlib.Data.List.Infix
import StackVerdict.Verdict.Divergence

/-!
# The first difference of two stacks

Two lists of slots agree down to a slot in which they hold different types, or one of them goes on
below the bottom of the other, or they are equal.  The search for the first difference gives each of
its three answers in one of these cases and in no other.  It does not matter whether the slots are
walked through together or paired off first and the heights compared then (`find_eq_find?_zip`).
Exchanging the stacks exchanges the two types, slots on top of both move the difference down, and
slots below both bottoms leave it where it is (`find_first_difference`).
-/

namespace StackVerdict

/-- Two lists agree before place `i`, and there one has `a` and the other has `b`. -/
structure PartAt {α : Type} (as bs : List α) (i : Nat) (a b : α) : Prop where
  agree : as.take i = bs.take i
  left : as[i]? = some a
  right : bs[i]? = some b
  ne : a ≠ b

/-- One of two lists is a proper beginning of the other. -/
def OneGoesOn {α : Type} (as bs : List α) : Prop :=
  (as <+: bs ∨ bs <+: as) ∧ as ≠ bs

section

variable {α : Type} {as bs : List α} {x y a b : α} {i : Nat}

theorem not_partAt_nil_left : ¬ PartAt [] bs i a b :=
  fun h => nomatch h.left

theorem not_partAt_nil_right : ¬ PartAt as [] i a b :=
  fun h => nomatch h.right

theorem partAt_cons_zero_iff : PartAt (x :: as) (y :: bs) 0 a b ↔ x = a ∧ y = b ∧ x ≠ y := by
  constructor
  · rintro ⟨-, ha, hb, hne⟩
    obtain rfl := Option.some.inj ha
    obtain rfl := Option.some.inj hb
    exact ⟨rfl, rfl, hne⟩
  · rintro ⟨rfl, rfl, hne⟩
    exact ⟨rfl, rfl, rfl, hne⟩

theorem partAt_cons_succ_iff :
    PartAt (x :: as) (y :: bs) (i + 1) a b ↔ x = y ∧ PartAt as bs i a b := by
  constructor
  · rintro ⟨hagree, ha, hb, hne⟩
    obtain ⟨hxy, hrest⟩ := List.cons.inj hagree
    exact ⟨hxy, hrest, ha, hb, hne⟩
  · rintro ⟨rfl, hrest, ha, hb, hne⟩
    exact ⟨by rw [List.take_succ_cons, List.take_succ_cons, hrest], ha, hb, hne⟩

theorem exists_partAt_cons_iff {p : α → α → Prop} :
    (∃ i a b, PartAt (x :: as) (y :: bs) i a b ∧ p a b) ↔
      x ≠ y ∧ p x y ∨ x = y ∧ ∃ i a b, PartAt as bs i a b ∧ p a b := by
  constructor
  · rintro ⟨i, a, b, h, hp⟩
    cases i with
    | zero =>
        obtain ⟨rfl, rfl, hne⟩ := partAt_cons_zero_iff.1 h
        exact .inl ⟨hne, hp⟩
    | succ i =>
        obtain ⟨hxy, hrest⟩ := partAt_cons_succ_iff.1 h
        exact .inr ⟨hxy, i, a, b, hrest, hp⟩
  · rintro (⟨hne, hp⟩ | ⟨hxy, i, a, b, hrest, hp⟩)
    · exact ⟨0, x, y, partAt_cons_zero_iff.2 ⟨rfl, rfl, hne⟩, hp⟩
    · exact ⟨i + 1, a, b, partAt_cons_succ_iff.2 ⟨hxy, hrest⟩, hp⟩

/-- The place of the first difference, slot by slot. -/
theorem partAt_iff :
    PartAt as bs i a b ↔
      i < as.length ∧ i < bs.length ∧ (∀ j < i, as[j]? = bs[j]?) ∧ as[i]? = some a ∧
        bs[i]? = some b ∧ a ≠ b := by
  constructor
  · rintro ⟨hagree, ha, hb, hne⟩
    refine ⟨(List.getElem?_eq_some_iff.1 ha).1, (List.getElem?_eq_some_iff.1 hb).1,
      fun j hj => ?_, ha, hb, hne⟩
    rw [← List.getElem?_take_of_lt hj, hagree, List.getElem?_take_of_lt hj]
  · rintro ⟨-, -, hagree, ha, hb, hne⟩
    refine ⟨?_, ha, hb, hne⟩
    apply List.ext_getElem?
    intro j
    rw [List.getElem?_take, List.getElem?_take]
    split_ifs with hj
    · exact hagree j hj
    · rfl

/-- What follows behind the two lists does not move the place. -/
theorem PartAt.append (h : PartAt as bs i a b) (cs ds : List α) :
    PartAt (as ++ cs) (bs ++ ds) i a b := by
  obtain ⟨hia, hib, hagree, ha, hb, hne⟩ := partAt_iff.1 h
  apply partAt_iff.2
  refine ⟨?_, ?_, fun j hj => ?_, ?_, ?_, hne⟩
  · rw [List.length_append]
    omega
  · rw [List.length_append]
    omega
  · rw [List.getElem?_append_left (by omega), List.getElem?_append_left (by omega), hagree j hj]
  · rw [List.getElem?_append_left hia, ha]
  · rw [List.getElem?_append_left hib, hb]

theorem oneGoesOn_cons_iff : OneGoesOn (x :: as) (y :: bs) ↔ x = y ∧ OneGoesOn as bs := by
  simp only [OneGoesOn, List.cons_prefix_cons, ne_eq, List.cons.injEq]
  tauto

end

namespace Divergence

theorem ofSlots_eq_slot_iff {n j : Nat} {as bs : List TypeName} {a b : TypeName} :
    ofSlots n as bs = .slot j a b ↔ ∃ i, j = n + i ∧ PartAt as bs i a b := by
  induction as generalizing bs n with
  | nil =>
      have hnone : ¬ ∃ i, j = n + i ∧ PartAt [] bs i a b :=
        fun ⟨_, _, h⟩ => not_partAt_nil_left h
      cases bs <;> simp [ofSlots, hnone]
  | cons x as ih =>
      cases bs with
      | nil =>
          have hnone : ¬ ∃ i, j = n + i ∧ PartAt (x :: as) [] i a b :=
            fun ⟨_, _, h⟩ => not_partAt_nil_right h
          simp [ofSlots, hnone]
      | cons y bs =>
          rw [ofSlots]
          split_ifs with hxy
          · rw [ih]
            constructor
            · rintro ⟨i, rfl, h⟩
              exact ⟨i + 1, by omega, partAt_cons_succ_iff.2 ⟨hxy, h⟩⟩
            · rintro ⟨i, rfl, h⟩
              cases i with
              | zero => exact absurd hxy (partAt_cons_zero_iff.1 h).2.2
              | succ i => exact ⟨i, by omega, (partAt_cons_succ_iff.1 h).2⟩
          · constructor
            · rintro ⟨⟩
              exact ⟨0, rfl, partAt_cons_zero_iff.2 ⟨rfl, rfl, hxy⟩⟩
            · rintro ⟨i, rfl, h⟩
              cases i with
              | zero =>
                  obtain ⟨rfl, rfl, -⟩ := partAt_cons_zero_iff.1 h
                  rfl
              | succ i => exact absurd (partAt_cons_succ_iff.1 h).1 hxy

theorem ofSlots_eq_height_iff {n : Nat} {as bs : List TypeName} :
    ofSlots n as bs = .height ↔ OneGoesOn as bs := by
  induction as generalizing bs n with
  | nil => cases bs <;> simp [ofSlots, OneGoesOn]
  | cons x as ih =>
      cases bs with
      | nil => simp [ofSlots, OneGoesOn]
      | cons y bs =>
          rw [ofSlots, oneGoesOn_cons_iff]
          split_ifs with hxy
          · simp [hxy, ih]
          · simp [hxy]

theorem ofSlots_eq_none_iff {n : Nat} {as bs : List TypeName} :
    ofSlots n as bs = .none ↔ as = bs := by
  induction as generalizing bs n with
  | nil => cases bs <;> simp [ofSlots]
  | cons x as ih =>
      cases bs with
      | nil => simp [ofSlots]
      | cons y bs =>
          rw [ofSlots, List.cons.injEq]
          split_ifs with hxy
          · simp [hxy, ih]
          · simp [hxy]

variable {s t : Snapshot}

theorem find_eq_slot_iff {i : Nat} {a b : TypeName} :
    find s t = .slot i a b ↔ PartAt s.slots t.slots i a b := by
  rw [find, ofSlots_eq_slot_iff]
  simp

theorem find_eq_height_iff : find s t = .height ↔ OneGoesOn s.slots t.slots :=
  ofSlots_eq_height_iff

theorem find_eq_none_iff : find s t = .none ↔ s = t := by
  rw [find, ofSlots_eq_none_iff, Snapshot.ext_iff]

/-! ## Laws of the search -/

/-- The difference with the two stacks exchanged. -/
def swap : Divergence → Divergence
  | none => none
  | height => height
  | slot index left right => slot index right left

/-- The difference with `n` more slots above it. -/
def shift (n : Nat) : Divergence → Divergence
  | none => none
  | height => height
  | slot index left right => slot (n + index) left right

theorem ofSlots_swap (n : Nat) (as bs : List TypeName) :
    ofSlots n bs as = (ofSlots n as bs).swap := by
  induction as generalizing bs n with
  | nil => cases bs <;> rfl
  | cons x as ih =>
      cases bs with
      | nil => rfl
      | cons y bs =>
          rw [ofSlots, ofSlots]
          by_cases hxy : x = y
          · rw [if_pos hxy.symm, if_pos hxy, ih]
          · rw [if_neg (Ne.symm hxy), if_neg hxy, swap]

/-- A search that counts from another number finds the same difference. -/
theorem ofSlots_add (n m : Nat) (as bs : List TypeName) :
    ofSlots (n + m) as bs = (ofSlots m as bs).shift n := by
  induction as generalizing bs m with
  | nil => cases bs <;> rfl
  | cons x as ih =>
      cases bs with
      | nil => rfl
      | cons y bs =>
          rw [ofSlots, ofSlots]
          split_ifs
          · rw [Nat.add_assoc, ih]
          · rfl

theorem ofSlots_append_left (n : Nat) (top as bs : List TypeName) :
    ofSlots n (top ++ as) (top ++ bs) = ofSlots (n + top.length) as bs := by
  induction top generalizing n with
  | nil => rfl
  | cons x top ih =>
      rw [List.cons_append, List.cons_append, ofSlots, if_pos rfl, ih, List.length_cons]
      congr 1
      omega

theorem ofSlots_eq_find?_zip (n : Nat) (as bs : List TypeName) :
    ofSlots n as bs =
      match ((as.zip bs).zipIdx n).find? fun p => p.1.1 ≠ p.1.2 with
      | some ((a, b), i) => slot i a b
      | .none => if as.length = bs.length then none else height := by
  induction as generalizing bs n with
  | nil => cases bs <;> simp [ofSlots]
  | cons x as ih =>
      cases bs with
      | nil => simp [ofSlots]
      | cons y bs =>
          rw [ofSlots, List.zip_cons_cons, List.zipIdx_cons, List.find?_cons]
          by_cases hxy : x = y
          · simp [hxy, ih]
          · simp [hxy]

/-- The slots of both stacks can be paired off, down to the bottom of the lower one; the heights
matter only where no pair differs. -/
theorem find_eq_find?_zip (s t : Snapshot) :
    find s t =
      match (s.slots.zip t.slots).zipIdx.find? fun p => p.1.1 ≠ p.1.2 with
      | some ((a, b), i) => slot i a b
      | .none => if s.height = t.height then none else height :=
  ofSlots_eq_find?_zip 0 s.slots t.slots

/-- The search finds the first difference.  A slot is found just where both stacks have it with
different types and agree above it, a difference of height just where one stack is a proper
beginning of the other, and nothing just where they are the same.  Exchanging the stacks exchanges
the types, the same slots on top of both move a slot that was found down by their number, and
whatever goes on below the bottoms leaves it in its place. -/
theorem find_first_difference (s t : Snapshot) :
    (∀ i a b, find s t = .slot i a b ↔
      i < s.height ∧ i < t.height ∧ (∀ j < i, s.get? j = t.get? j) ∧ s.get? i = some a ∧
        t.get? i = some b ∧ a ≠ b) ∧
    (find s t = .height ↔ (s.slots <+: t.slots ∨ t.slots <+: s.slots) ∧ s.slots ≠ t.slots) ∧
    (find s t = .none ↔ s = t) ∧
    find t s = (find s t).swap ∧
    (∀ top, find ⟨top ++ s.slots⟩ ⟨top ++ t.slots⟩ = (find s t).shift top.length) ∧
    ∀ i a b, find s t = .slot i a b →
      ∀ below below', find ⟨s.slots ++ below⟩ ⟨t.slots ++ below'⟩ = .slot i a b := by
  refine ⟨fun i a b => ?_, find_eq_height_iff, find_eq_none_iff, ofSlots_swap 0 _ _,
    fun top => ?_, fun i a b h below below' => ?_⟩
  · rw [find_eq_slot_iff, partAt_iff]
    rfl
  · show ofSlots 0 (top ++ s.slots) (top ++ t.slots) = (ofSlots 0 s.slots t.slots).shift top.length
    rw [ofSlots_append_left, ← ofSlots_add, Nat.zero_add, Nat.add_zero]
  · rw [find_eq_slot_iff] at h ⊢
    exact h.append below below'

/-- Two stacks that part at their second slot do so in either order, one slot further down under a
common top, and also where the one that was lower goes on below. -/
theorem find_first_difference_second_slot :
    let s : Snapshot := ⟨[.int32, .object]⟩
    let t : Snapshot := ⟨[.int32, .null, .float]⟩
    find s t = .slot 1 .object .null ∧ find t s = .slot 1 .null .object ∧
      find ⟨.int64 :: s.slots⟩ ⟨.int64 :: t.slots⟩ = .slot 2 .object .null ∧
      find ⟨s.slots ++ [.null, .float, .float]⟩ t = .slot 1 .object .null := by
  intro s t
  obtain ⟨hslot, -, -, hswap, hshift, hbelow⟩ := find_first_difference s t
  have h : find s t = .slot 1 .object .null := by
    apply (hslot 1 .object .null).2
    decide
  have hdown := hshift [.int64]
  have hunder := hbelow _ _ _ h [.null, .float, .float] []
  rw [h] at hswap hdown
  rw [List.append_nil] at hunder
  exact ⟨h, hswap, hdown, hunder⟩

end Divergence

end StackVerdict
