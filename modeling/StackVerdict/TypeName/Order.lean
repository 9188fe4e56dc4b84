import StackVerdict.TypeName
import Std.Data.HashSet
import Std.Data.TreeSet

/-!
# The order of type names

Names are compared byte by byte in UTF-8, a proper beginning of a name before the name.  A list of
names is sorted by this order with its repetitions, or collected into a set without them.
-/

namespace StackVerdict

namespace TypeName

/-- The UTF-8 bytes of the name. -/
def bytes (t : TypeName) : List UInt8 :=
  t.name.toList.flatMap String.utf8EncodeChar

instance : Ord TypeName where
  compare a b := compare a.bytes b.bytes

/-- The names in order, repetitions kept. -/
def sorted (l : List TypeName) : List TypeName :=
  l.mergeSort fun a b => (compare a b).isLE

/-- The names in order, each of them once. -/
def ordered (l : List TypeName) : List TypeName :=
  (Std.TreeSet.ofList l).toList

def countDistinct (l : List TypeName) : Nat :=
  (Std.HashSet.ofList l).size

end TypeName

end StackVerdict
