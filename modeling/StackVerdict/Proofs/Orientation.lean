import StackVerdict.Snapshot

/-!
# Which end of a snapshot is the top

Slots come into a snapshot from the top or from the bottom, and are looked at from either end.  All
ways in and out keep to one rule: slot `0` is the top, so a slot that is `i` places from the end of
a working stack is slot `i` of its picture (`get?_ofBottomUp`).  The slots alone tell a snapshot, by
whichever way they came in (`ext_get?_iff`).
-/

namespace StackVerdict

namespace Snapshot

variable {s t : Snapshot} {i : Nat}

/-! ## Ways in -/

theorem capture_eq_ofBottomUp (w : WorkingStack) : capture w = ofBottomUp w.values.toList := rfl

theorem ofTopDown_reverse (w : List TypeName) : ofTopDown w.reverse = ofBottomUp w := rfl

theorem collect_eq_ofTopDown (l : List TypeName) : collect l = ofTopDown l :=
  Snapshot.ext (slots_collect l)

/-! ## Ways out -/

theorem height_ofBottomUp (w : List TypeName) : (ofBottomUp w).height = w.length :=
  List.length_reverse

theorem bottomUp_ofBottomUp (w : List TypeName) : (ofBottomUp w).bottomUp = w :=
  List.reverse_reverse w

/-- Turning the slots around twice gives the snapshot back. -/
theorem ofBottomUp_bottomUp (s : Snapshot) : ofBottomUp s.bottomUp = s := by
  rw [ofBottomUp, bottomUp, List.reverse_reverse]

/-- The slot that is `i` places above the end of the list is slot `i`. -/
theorem get?_ofBottomUp {w : List TypeName} (h : i < w.length) :
    (ofBottomUp w).get? i = some w[w.length - 1 - i] := by
  show w.reverse[i]? = _
  rw [List.getElem?_reverse h]
  exact List.getElem?_eq_getElem (by omega)

theorem top?_ofBottomUp (w : List TypeName) : (ofBottomUp w).top? = w.getLast? := by
  show w.reverse[0]? = w.getLast?
  rw [← List.head?_eq_getElem?, List.head?_reverse]

theorem get_eq_error_iff {e : Misuse} :
    s.get i = .error e ↔ s.get? i = none ∧ e = .slotOutside i s.height := by
  unfold get
  cases s.get? i with
  | none => simp [eq_comm]
  | some t => simp

/-- A visit from the top puts what it makes of the bottom on the outside. -/
theorem foldl_ofBottomUp {α : Type} (f : α → TypeName → α) (a : α) (w : List TypeName) :
    (ofBottomUp w).foldl f a = w.foldr (fun t b => f b t) a :=
  List.foldl_reverse

theorem ext_get?_iff : s = t ↔ ∀ i, s.get? i = t.get? i := by
  rw [Snapshot.ext_iff, List.ext_getElem?_iff]
  rfl

theorem map_name_inj : s.slots.map TypeName.name = t.slots.map TypeName.name ↔ s = t := by
  rw [List.map_inj_right fun _ _ => TypeName.ext, Snapshot.ext_iff]

/-- Whichever end the slots come in from, the same snapshot is made of them.  The top is the last
value of a working stack and slot `i` the one `i` places below it, and reading a slot fails just
where there is none.  Visits go from the top to the bottom, what is listed can be put together
again, and snapshots with the same slots are the same. -/
theorem top_is_slot_zero (w : List TypeName) :
    let s := capture ⟨w.toArray⟩
    (ofBottomUp w = s ∧ ofTopDown w.reverse = s ∧ collect w.reverse = s) ∧
    (∀ i, (h : i < w.length) → s.get? i = some w[w.length - 1 - i]) ∧
    (∀ i, s.get? i = none ↔ w.length ≤ i) ∧
    (∀ i t, s.get i = .ok t ↔ s.get? i = some t) ∧
    (∀ i e, s.get i = .error e ↔ s.get? i = none ∧ e = .slotOutside i w.length) ∧
    s.top? = w.getLast? ∧
    (s.slots = w.reverse ∧ s.bottomUp = w ∧
      ∀ (α : Type) (f : α → TypeName → α) (a : α),
        s.foldl f a = w.foldr (fun t b => f b t) a) ∧
    (ofTopDown s.slots = s ∧ ofBottomUp s.bottomUp = s) ∧
    ∀ p q : Snapshot, p = q ↔ ∀ i, p.get? i = q.get? i := by
  intro s
  have hs : s = ofBottomUp w := capture_eq_ofBottomUp _
  have hheight : s.height = w.length := by
    rw [hs, height_ofBottomUp]
  refine ⟨⟨hs.symm, ?_, ?_⟩, fun i h => ?_, fun i => ?_, fun i t => get_eq_ok_iff, fun i e => ?_,
    ?_, ⟨?_, ?_, fun α f a => ?_⟩, ⟨rfl, s.ofBottomUp_bottomUp⟩, fun p q => ext_get?_iff⟩
  · rw [ofTopDown_reverse, hs]
  · rw [collect_eq_ofTopDown, ofTopDown_reverse, hs]
  · rw [hs, get?_ofBottomUp h]
  · rw [get?_eq_none_iff, hheight]
  · rw [get_eq_error_iff, hheight]
  · rw [hs, top?_ofBottomUp]
  · rw [hs]
    rfl
  · rw [hs, bottomUp_ofBottomUp]
  · rw [hs, foldl_ofBottomUp]

/-- The value pushed first is in the last slot, also where a value of the same type is on top. -/
theorem top_is_slot_zero_same_ends :
    let s := capture ⟨#[.int32, .float, .object, .int32]⟩
    s.top? = some .int32 ∧ s.get? 1 = some .object ∧ s.get? 3 = some .int32 ∧
      s.get 4 = .error (.slotOutside 4 4) ∧ s = collect [.int32, .object, .float, .int32] ∧
      s.bottomUp = [.int32, .float, .object, .int32] := by
  intro s
  obtain ⟨⟨-, -, hcollect⟩, hslot, hnone, -, herror, htop, ⟨-, hbottomUp, -⟩, -, -⟩ :=
    top_is_slot_zero [.int32, .float, .object, .int32]
  have hend : s.get? 4 = none := (hnone 4).2 (by decide)
  exact ⟨htop, hslot 1 (by decide), hslot 3 (by decide), (herror 4 _).2 ⟨hend, rfl⟩,
    hcollect.symm, hbottomUp⟩

end Snapshot

end StackVerdict
