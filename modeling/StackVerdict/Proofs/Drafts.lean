import StackVerdict.Proofs.Except
import StackVerdict.Verdict.Draft

/-!
# Drafts that cannot be read

Names are read just where none of them is empty (`readNames_eq_ok_iff`, `readNames_eq_error_iff`).
A draft cannot be read where one of its names is empty, or where it points at a slot outside its
stack and that is looked at; an empty name comes first, wherever it stands
(`Draft.read_eq_error_iff`).
-/

namespace StackVerdict

theorem TypeName.exists_ofString_iff {s : String} : (∃ t, ofString s = .ok t) ↔ s ≠ "" := by
  constructor
  · rintro ⟨t, ht⟩
    rw [← ofString_eq_ok_iff.1 ht]
    exact t.name_ne
  · intro h
    exact ⟨⟨s, h⟩, ofString_eq_ok_iff.2 rfl⟩

theorem readNames_cons (n : String) (ns : List String) :
    readNames (n :: ns) = do return (← TypeName.ofString n) :: (← readNames ns) := by
  rw [readNames, List.mapM_cons]

theorem readNames_eq_ok_iff {ns : List String} {ts : List TypeName} :
    readNames ns = .ok ts ↔ ts.map TypeName.name = ns := by
  induction ns generalizing ts with
  | nil => cases ts <;> simp [readNames, pure, Except.pure]
  | cons n ns ih =>
      simp only [readNames_cons, bind_eq_ok_iff, TypeName.ofString_eq_ok_iff, ih, pure, Except.pure,
        Except.ok.injEq]
      constructor
      · rintro ⟨t, rfl, us, rfl, rfl⟩
        rfl
      · intro h
        obtain ⟨t, us, rfl, ht, hus⟩ := List.map_eq_cons_iff.1 h
        exact ⟨t, ht, us, hus, rfl⟩

theorem readNames_eq_error_iff {ns : List String} {e : InputError} :
    readNames ns = .error e ↔ "" ∈ ns ∧ e = .emptyTypeName := by
  induction ns with
  | nil => simp [readNames, pure, Except.pure]
  | cons n ns ih =>
      simp only [readNames_cons, bind_eq_error_iff, TypeName.ofString_eq_error_iff, ih, pure,
        Except.pure, reduceCtorEq, and_false, exists_false, or_false, exists_and_right,
        TypeName.exists_ofString_iff, List.mem_cons]
      by_cases hn : n = "" <;> simp [hn, eq_comm]

namespace Listing

variable {l : Listing} {s : Snapshot} {e : InputError}

theorem read_eq_error_iff : l.read = .error e ↔ "" ∈ l.names ∧ e = .emptyTypeName := by
  rw [read, bind_eq_error_iff, readNames_eq_error_iff]
  simp [pure, Except.pure]

/-- A stack is as high as it has names, in whichever order they stand. -/
theorem height_of_read (h : l.read = .ok s) : s.height = l.names.length := by
  obtain ⟨ts, hts, hs⟩ := bind_eq_ok_iff.1 h
  obtain rfl := Except.ok.inj hs
  rw [← readNames_eq_ok_iff.1 hts, List.length_map]
  cases l.order <;>
    simp [Snapshot.height, Snapshot.ofTopDown, Snapshot.ofBottomUp, Snapshot.capture]

theorem exists_height_iff {p : Nat → Prop} :
    (∃ s, l.read = .ok s ∧ p s.height) ↔ "" ∉ l.names ∧ p l.names.length := by
  cases h : l.read with
  | error e => simp [(read_eq_error_iff.1 h).1]
  | ok s =>
      have hne : "" ∉ l.names := fun hmem => by
        simp [read_eq_error_iff.2 ⟨hmem, rfl⟩] at h
      simp [hne, height_of_read h]

theorem exists_read_iff : (∃ s, l.read = .ok s) ↔ "" ∉ l.names := by
  simpa using exists_height_iff (l := l) (p := fun _ => True)

end Listing

theorem Verdict.ofMismatch_eq_error_iff {expected : TypeName} {stack : Snapshot} {index : Nat}
    {e : InputError} :
    ofMismatch expected stack index = .error e ↔
      stack.height ≤ index ∧ e = .slotOutOfBounds index stack.height := by
  rw [ofMismatch, ← Nat.not_lt]
  by_cases h : index < stack.height <;> simp [h, eq_comm]

namespace Draft

/-- The names in a draft, in the order in which they are read. -/
def names : Draft → List String
  | success => []
  | underflow _ stack => stack.names
  | typeMismatch expected stack _ => expected :: stack.names
  | checkedMismatch expected stack _ => expected :: stack.names
  | stackMismatch branch destination => branch.names ++ destination.names
  | sizeFailure _ stack => stack.names

/-- What is wrong with the slot that a draft points at, where that is looked at. -/
def slotFault? : Draft → Option InputError
  | checkedMismatch _ stack index =>
      if stack.names.length ≤ index then some (.slotOutOfBounds index stack.names.length) else none
  | _ => none

/-- What is wrong with a draft; a name goes before the slot. -/
def fault? (d : Draft) : Option InputError :=
  if "" ∈ d.names then some .emptyTypeName else d.slotFault?

theorem fault?_eq_some_iff {d : Draft} {e : InputError} :
    d.fault? = some e ↔
      "" ∈ d.names ∧ e = .emptyTypeName ∨ "" ∉ d.names ∧ d.slotFault? = some e := by
  unfold fault?
  by_cases h : "" ∈ d.names <;> simp [h, eq_comm]

theorem slotFault?_checkedMismatch {expected : String} {stack : Listing} {index : Nat}
    {e : InputError} :
    (checkedMismatch expected stack index).slotFault? = some e ↔
      stack.names.length ≤ index ∧ e = .slotOutOfBounds index stack.names.length := by
  rw [slotFault?]
  by_cases h : stack.names.length ≤ index <;> simp [h, eq_comm]

/-- A draft cannot be read just where something is wrong with it, and that is what is reported. -/
theorem read_eq_error_iff {d : Draft} {e : InputError} : d.read = .error e ↔ d.fault? = some e := by
  rw [fault?_eq_some_iff]
  cases d with
  | success => simp [read, names, slotFault?, pure, Except.pure]
  | underflow needed stack =>
      rw [read, bind_eq_error_iff, Listing.read_eq_error_iff]
      simp [names, slotFault?, pure, Except.pure]
  | typeMismatch expected stack index =>
      by_cases hname : expected = ""
      · rw [read, TypeName.ofString_eq_error_iff.2 ⟨hname, rfl⟩, error_bind]
        simp [names, hname, eq_comm]
      · obtain ⟨t, ht⟩ := TypeName.exists_ofString_iff.2 hname
        rw [read, ht, ok_bind, bind_eq_error_iff, Listing.read_eq_error_iff]
        simp [names, slotFault?, Ne.symm hname, pure, Except.pure]
  | checkedMismatch expected stack index =>
      by_cases hname : expected = ""
      · rw [read, TypeName.ofString_eq_error_iff.2 ⟨hname, rfl⟩, error_bind]
        simp [names, hname, eq_comm]
      · obtain ⟨t, ht⟩ := TypeName.exists_ofString_iff.2 hname
        rw [read, ht, ok_bind]
        simp only [bind_eq_error_iff, Listing.read_eq_error_iff, Verdict.ofMismatch_eq_error_iff,
          Listing.exists_height_iff (p := fun n => n ≤ index ∧ e = .slotOutOfBounds index n),
          slotFault?_checkedMismatch]
        simp [names, Ne.symm hname]
  | stackMismatch branch destination =>
      cases hbranch : branch.read with
      | error e' =>
          obtain ⟨hmem, rfl⟩ := Listing.read_eq_error_iff.1 hbranch
          rw [read, hbranch, error_bind]
          simp [names, hmem, eq_comm]
      | ok s =>
          have hmem : "" ∉ branch.names := Listing.exists_read_iff.1 ⟨s, hbranch⟩
          rw [read, hbranch, ok_bind, bind_eq_error_iff, Listing.read_eq_error_iff]
          simp [names, hmem, slotFault?, pure, Except.pure]
  | sizeFailure needed stack =>
      rw [read, bind_eq_error_iff, Listing.read_eq_error_iff]
      simp [names, slotFault?, pure, Except.pure]

end Draft

end StackVerdict
