import StackVerdict.Fault

/-!
# Names of types

A category of value that can occupy a stack slot is known by its display name alone: two categories
are the same when their names are.  The name is never empty.
-/

namespace StackVerdict

/-- The display name of a category of stack values. -/
@[ext] structure TypeName where
  name : String
  /-- A category is never nameless. -/
  name_ne : name ≠ ""
  deriving DecidableEq, Hashable

namespace TypeName

/-- The category with the given name, which must not be empty. -/
def ofString (s : String) : Except InputError TypeName :=
  if h : s = "" then .error .emptyTypeName else .ok ⟨s, h⟩

/-- The category with a name that is fixed in a program, where the empty name is a mistake of the
programmer. -/
def ofConstant (s : String) : Except Misuse TypeName :=
  if h : s = "" then .error .emptyConstant else .ok ⟨s, h⟩

theorem ofString_eq_ok_iff {s : String} {t : TypeName} : ofString s = .ok t ↔ t.name = s := by
  unfold ofString
  constructor
  · intro h
    split at h
    · cases h
    · cases h; rfl
  · rintro rfl
    simp [t.name_ne]

theorem ofString_eq_error_iff {s : String} {e : InputError} :
    ofString s = .error e ↔ s = "" ∧ e = .emptyTypeName := by
  unfold ofString
  split <;> simp_all [eq_comm]

@[simp] theorem ofString_name (t : TypeName) : ofString t.name = .ok t :=
  ofString_eq_ok_iff.2 rfl

/-! ## Well-known categories -/

def int32 : TypeName := ⟨"Int32", by decide⟩

def int64 : TypeName := ⟨"Int64", by decide⟩

/-- The integers as wide as an address. -/
def nativeInt : TypeName := ⟨"NativeInt", by decide⟩

def float : TypeName := ⟨"Float", by decide⟩

def object : TypeName := ⟨"Object", by decide⟩

def null : TypeName := ⟨"null", by decide⟩

/-- The pointers that the memory manager tracks. -/
def managedPointer : TypeName := ⟨"ManagedPointer", by decide⟩

/-- The pointers that the memory manager does not track. -/
def unmanagedPointer : TypeName := ⟨"UnmanagedPointer", by decide⟩

def wellKnown : List TypeName :=
  [int32, int64, nativeInt, float, object, null, managedPointer, unmanagedPointer]

end TypeName

end StackVerdict
