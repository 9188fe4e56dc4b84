/-!
# Bindings

Names bound to values.  Binding a name again replaces what it was bound to and touches no other
name.
-/

namespace StackVerdict

/-- Values by name. -/
structure Bindings (α : Type) where
  /-- The bindings, the latest first. -/
  entries : List (String × α)

namespace Bindings

variable {α : Type}

def empty : Bindings α := ⟨[]⟩

def bind (b : Bindings α) (name : String) (value : α) : Bindings α :=
  ⟨(name, value) :: b.entries⟩

def find? (b : Bindings α) (name : String) : Option α :=
  b.entries.lookup name

@[simp] theorem find?_empty (name : String) : (empty : Bindings α).find? name = none := rfl

@[simp] theorem find?_bind_self (b : Bindings α) (name : String) (value : α) :
    (b.bind name value).find? name = some value := by
  simp [bind, find?]

theorem find?_bind_of_ne {name other : String} (h : other ≠ name) (b : Bindings α) (value : α) :
    (b.bind name value).find? other = b.find? other := by
  simp [bind, find?, List.lookup_cons, beq_eq_false_iff_ne.2 h]

end Bindings

end StackVerdict
