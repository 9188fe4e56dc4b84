import Mathlib.Algebra.GroupWithZero.Nat
import StackVerdict.Proofs.Divergence
import StackVerdict.TypeName.Order

/-!
# The order of code points

Names are compared byte by byte, and this compares them code point by code point.  The first byte
of a character in UTF-8 grows with the number of bytes that follow it, and the number of bytes with
the character; characters of as many bytes are written as numbers to the base 64, digit by digit
(`compare_utf8EncodeChar_append`).  So the names come in the lexicographic order of their code
points (`compare_codePoints`), which is a total order and tells any two names apart.
-/

namespace StackVerdict

/-! ## Lexicographic order -/

/-- One list of numbers comes before another: it has the smaller number at the first difference, or
it is a proper beginning of the other. -/
def Precedes (l m : List Nat) : Prop :=
  (∃ i x y, PartAt l m i x y ∧ x < y) ∨ l <+: m ∧ l ≠ m

theorem precedes_nil_iff {m : List Nat} : Precedes [] m ↔ m ≠ [] := by
  constructor
  · rintro (⟨i, x, y, h, -⟩ | ⟨-, hne⟩)
    · exact absurd h not_partAt_nil_left
    · exact hne.symm
  · intro hne
    exact .inr ⟨List.nil_prefix, hne.symm⟩

theorem not_precedes_nil {l : List Nat} : ¬ Precedes l [] := by
  rintro (⟨i, x, y, h, -⟩ | ⟨hbegins, hne⟩)
  · exact not_partAt_nil_right h
  · exact hne (List.prefix_nil.1 hbegins)

theorem precedes_cons_iff {x y : Nat} {l m : List Nat} :
    Precedes (x :: l) (y :: m) ↔ x < y ∨ x = y ∧ Precedes l m := by
  have hbegins : (x :: l <+: y :: m ∧ x :: l ≠ y :: m) ↔ x = y ∧ l <+: m ∧ l ≠ m := by
    rw [List.cons_prefix_cons, Ne, List.cons.injEq]
    tauto
  have hlt : x ≠ y ∧ x < y ↔ x < y := by omega
  rw [Precedes, Precedes, exists_partAt_cons_iff, hbegins, hlt, and_or_left, or_assoc]

theorem compare_eq_lt_iff_precedes {l m : List Nat} : compare l m = .lt ↔ Precedes l m := by
  induction l generalizing m with
  | nil => cases m <;> simp [precedes_nil_iff]
  | cons x l ih =>
      cases m with
      | nil => simp [not_precedes_nil]
      | cons y m =>
          rw [List.compare_cons_cons, precedes_cons_iff, ← ih, Ordering.then_eq_lt,
            Nat.compare_eq_lt, Nat.compare_eq_eq]

/-! ## Numbers digit by digit -/

namespace Text

theorem compare_ofNat {x y : Nat} (hx : x < 256) (hy : y < 256) :
    compare (UInt8.ofNat x) (UInt8.ofNat y) = compare x y := by
  rw [UInt8.compare_eq_toNat_compare_toNat, UInt8.toNat_ofNat_of_lt' hx,
    UInt8.toNat_ofNat_of_lt' hy]

theorem compare_add_right (a b k : Nat) : compare (a + k) (b + k) = compare a b := by
  rcases Nat.lt_trichotomy a b with h | rfl | h
  · rw [Nat.compare_eq_lt.2 h, Nat.compare_eq_lt.2 (by omega)]
  · rw [Nat.compare_eq_eq.2 rfl, Nat.compare_eq_eq.2 rfl]
  · rw [Nat.compare_eq_gt.2 h, Nat.compare_eq_gt.2 (by omega)]

/-- Numbers are compared by their quotients, and by their remainders where these are equal. -/
theorem compare_div_mod (a b k : Nat) :
    (compare (a / k) (b / k)).then (compare (a % k) (b % k)) = compare a b := by
  have ha := Nat.mod_add_div a k
  have hb := Nat.mod_add_div b k
  rcases Nat.lt_trichotomy (a / k) (b / k) with h | h | h
  · rw [Nat.compare_eq_lt.2 h, Nat.compare_eq_lt.2 (Nat.lt_of_div_lt_div h)]
    rfl
  · calc (compare (a / k) (b / k)).then (compare (a % k) (b % k))
      _ = compare (a % k) (b % k) := by
          rw [Nat.compare_eq_eq.2 h]
          rfl
      _ = compare (a % k + k * (a / k)) (b % k + k * (b / k)) := by
          rw [h, compare_add_right]
      _ = compare a b := by
          rw [ha, hb]
  · rw [Nat.compare_eq_gt.2 h, Nat.compare_eq_gt.2 (Nat.lt_of_div_lt_div h)]
    rfl

/-- The last `k` digits of `v` to the base 64, each in a byte of its own with the mark of a byte
that continues a character. -/
def tailBytes : Nat → Nat → List UInt8
  | 0, _ => []
  | k + 1, v => .ofNat (v / 64 ^ k % 64 + 0x80) :: tailBytes k v

theorem compare_tailBytes_append (k v w : Nat) (l m : List UInt8) :
    compare (tailBytes k v ++ l) (tailBytes k w ++ m) =
      (compare (v % 64 ^ k) (w % 64 ^ k)).then (compare l m) := by
  induction k with
  | zero => simp [tailBytes, Nat.mod_one]
  | succ k ih =>
      -- The first byte of the tail is the leading digit, and what is left of the number below it
      -- is written by the rest of the tail.
      have hdigit : compare (UInt8.ofNat (v / 64 ^ k % 64 + 0x80))
          (UInt8.ofNat (w / 64 ^ k % 64 + 0x80)) = compare (v / 64 ^ k % 64) (w / 64 ^ k % 64) := by
        rw [compare_ofNat (by omega) (by omega), compare_add_right]
      have hdiv : ∀ n : Nat, n % 64 ^ (k + 1) / 64 ^ k = n / 64 ^ k % 64 := fun n => by
        rw [Nat.pow_succ, Nat.mod_mul_right_div_self]
      have hmod : ∀ n : Nat, n % 64 ^ (k + 1) % 64 ^ k = n % 64 ^ k := fun n => by
        rw [Nat.pow_succ, Nat.mod_mul_right_mod]
      rw [tailBytes, tailBytes, List.cons_append, List.cons_append, List.compare_cons_cons, hdigit,
        ih, ← Ordering.then_assoc, ← compare_div_mod (v % 64 ^ (k + 1)) _ (64 ^ k), hdiv, hdiv,
        hmod, hmod]

/-! ## The bytes of a character -/

/-- How many bytes follow the first byte of the character with code point `v`. -/
def tailLength (v : Nat) : Nat :=
  if v ≤ 0x7F then 0 else if v ≤ 0x7FF then 1 else if v ≤ 0xFFFF then 2 else 3

/-- The mark of a first byte that `k` bytes follow. -/
def mark : Nat → Nat
  | 0 => 0
  | 1 => 0xC0
  | 2 => 0xE0
  | _ => 0xF0

/-- The first byte of the character with code point `v`: what its tail leaves of it, marked. -/
def firstByte (v : Nat) : Nat :=
  v / 64 ^ tailLength v + mark (tailLength v)

theorem toNat_lt (c : Char) : c.toNat < 0x110000 := by
  show c.val.toNat < 0x110000
  rcases c.valid with h | ⟨-, h⟩
  · omega
  · exact h

theorem utf8EncodeChar_eq (c : Char) :
    String.utf8EncodeChar c =
      .ofNat (firstByte c.toNat) :: tailBytes (tailLength c.toNat) c.toNat := by
  have hc := toNat_lt c
  have hval : c.val.toNat = c.toNat := rfl
  rw [String.utf8EncodeChar, hval]
  unfold firstByte tailLength
  split_ifs
  · simp [tailBytes, mark]
  · have hfirst : c.toNat / 64 % 32 = c.toNat / 64 := Nat.mod_eq_of_lt (by omega)
    simp [tailBytes, mark, hfirst]
  · have hfirst : c.toNat / 4096 % 16 = c.toNat / 4096 := Nat.mod_eq_of_lt (by omega)
    simp [tailBytes, mark, hfirst]
  · have hfirst : c.toNat / 262144 % 8 = c.toNat / 262144 := Nat.mod_eq_of_lt (by omega)
    simp [tailBytes, mark, hfirst]

theorem firstByte_lt_256 {v : Nat} (hv : v < 0x110000) : firstByte v < 256 := by
  unfold firstByte tailLength
  split_ifs <;> simp only [mark] <;> omega

theorem lt_of_tailLength_lt {v w : Nat} (h : tailLength v < tailLength w) : v < w := by
  unfold tailLength at h
  split_ifs at h <;> omega

-- Each mark is above all first bytes that have a smaller mark.
theorem firstByte_lt_firstByte {v w : Nat} (hv : v < 0x110000)
    (h : tailLength v < tailLength w) : firstByte v < firstByte w := by
  unfold firstByte
  unfold tailLength at h ⊢
  split_ifs at h ⊢ <;> simp only [mark] <;> omega

/-- Characters are told apart by their bytes just as by their code points, whatever follows. -/
theorem compare_utf8EncodeChar_append (c d : Char) (l m : List UInt8) :
    compare (String.utf8EncodeChar c ++ l) (String.utf8EncodeChar d ++ m) =
      (compare c.toNat d.toNat).then (compare l m) := by
  have hc := toNat_lt c
  have hd := toNat_lt d
  rw [utf8EncodeChar_eq, utf8EncodeChar_eq, List.cons_append, List.cons_append,
    List.compare_cons_cons, compare_ofNat (firstByte_lt_256 hc) (firstByte_lt_256 hd)]
  -- Tails of different lengths are told apart by the marks in front of them, which cancel where the
  -- lengths are equal.
  rcases Nat.lt_trichotomy (tailLength c.toNat) (tailLength d.toNat) with h | h | h
  · rw [Nat.compare_eq_lt.2 (firstByte_lt_firstByte hc h),
      Nat.compare_eq_lt.2 (lt_of_tailLength_lt h)]
    rfl
  · rw [firstByte, firstByte, h, compare_add_right, compare_tailBytes_append,
      ← Ordering.then_assoc, compare_div_mod]
  · rw [Nat.compare_eq_gt.2 (firstByte_lt_firstByte hd h),
      Nat.compare_eq_gt.2 (lt_of_tailLength_lt h)]
    rfl

theorem compare_flatMap_utf8EncodeChar (cs ds : List Char) :
    compare (cs.flatMap String.utf8EncodeChar) (ds.flatMap String.utf8EncodeChar) =
      compare (cs.map Char.toNat) (ds.map Char.toNat) := by
  induction cs generalizing ds with
  | nil =>
      cases ds with
      | nil => rfl
      | cons d ds =>
          rw [List.flatMap_cons, utf8EncodeChar_eq]
          rfl
  | cons c cs ih =>
      cases ds with
      | nil =>
          rw [List.flatMap_cons, utf8EncodeChar_eq]
          rfl
      | cons d ds =>
          rw [List.flatMap_cons, List.flatMap_cons, compare_utf8EncodeChar_append, ih,
            List.map_cons, List.map_cons, List.compare_cons_cons]

end Text

/-! ## Names -/

namespace TypeName

variable {t u : TypeName}

def codePoints (t : TypeName) : List Nat :=
  t.name.toList.map Char.toNat

theorem codePoints_inj : t.codePoints = u.codePoints ↔ t = u := by
  constructor
  · intro h
    have hchars := List.map_injective_iff.2 (fun _ _ => Char.toNat_inj.1) h
    exact TypeName.ext (String.toList_inj.1 hchars)
  · exact congrArg codePoints

theorem toList_toByteArray_name (t : TypeName) : t.name.toByteArray.data.toList = t.bytes := by
  have hbytes : t.name.toByteArray = t.bytes.toByteArray := by
    conv_lhs => rw [← String.ofList_toList (s := t.name), String.toByteArray_ofList]
    rfl
  rw [hbytes, List.data_toByteArray]

theorem compare_codePoints (t u : TypeName) :
    compare t u = compare t.codePoints u.codePoints :=
  Text.compare_flatMap_utf8EncodeChar t.name.toList u.name.toList

instance : Std.TransOrd TypeName where
  eq_swap {t u} := by
    rw [compare_codePoints, compare_codePoints]
    exact Std.OrientedCmp.eq_swap
  isLE_trans {t u v} := by
    simp only [compare_codePoints]
    exact Std.TransCmp.isLE_trans

instance : Std.LawfulEqOrd TypeName where
  compare_self {t} := by
    rw [compare_codePoints]
    exact Std.ReflCmp.compare_self
  eq_of_compare {t u} h := by
    rw [compare_codePoints] at h
    exact codePoints_inj.1 (Std.LawfulEqCmp.eq_of_compare h)

theorem compare_eq_lt_iff : compare t u = .lt ↔ Precedes t.codePoints u.codePoints := by
  rw [compare_codePoints, compare_eq_lt_iff_precedes]

theorem isLE_antisymm (h : (compare t u).isLE) (h' : (compare u t).isLE) : t = u :=
  Std.LawfulEqCmp.eq_of_compare (Std.OrientedCmp.isLE_antisymm h h')

theorem isLE_total (t u : TypeName) : (compare t u).isLE ∨ (compare u t).isLE := by
  have hswap : compare t u = (compare u t).swap := Std.OrientedCmp.eq_swap
  cases h : compare u t <;> simp [h, hswap]

/-- The bytes of two names are compared as their code points are: the smaller code point at the
first difference comes first, and so does a proper beginning.  Of any two names one comes first,
unless they are the same, and to come first goes on from one name to the next. -/
theorem compare_orders_codePoints (a b c : TypeName) :
    compare a b = compare a.name.toByteArray.data.toList b.name.toByteArray.data.toList ∧
    compare a b = compare a.codePoints b.codePoints ∧
    (compare a b = .lt ↔ Precedes a.codePoints b.codePoints) ∧
    (compare a b = .gt ↔ Precedes b.codePoints a.codePoints) ∧
    (compare a b = .eq ↔ a.name = b.name) ∧ ((a == b) = true ↔ a.name = b.name) ∧
    ((compare a b).isLE → (compare b a).isLE → a = b) ∧
    ((compare a b).isLE → (compare b c).isLE → (compare a c).isLE) ∧
    ((compare a b).isLE ∨ (compare b a).isLE) := by
  refine ⟨?_, compare_codePoints a b, compare_eq_lt_iff, ?_, ?_, ?_, isLE_antisymm,
    Std.TransCmp.isLE_trans, isLE_total a b⟩
  · rw [toList_toByteArray_name, toList_toByteArray_name]
    rfl
  · rw [Std.OrientedCmp.gt_iff_lt, compare_eq_lt_iff]
  · rw [Std.LawfulEqCmp.compare_eq_iff_eq, TypeName.ext_iff]
  · rw [beq_iff_eq, TypeName.ext_iff]

/-- A character that takes four bytes comes after one of three, also where the first of its two
units of sixteen bits is the smaller one. -/
theorem compare_orders_codePoints_far :
    let a : TypeName := ⟨"～", by decide⟩
    let b : TypeName := ⟨"😀", by decide⟩
    let c : TypeName := ⟨"😀!", by decide⟩
    compare a b = .lt ∧ compare b c = .lt ∧ (compare a c).isLE ∧ (a == b) = false := by
  have ha : codePoints ⟨"～", by decide⟩ = [0xFF5E] := by simp [codePoints]
  have hb : codePoints ⟨"😀", by decide⟩ = [0x1F600] := by simp [codePoints]
  have hc : codePoints ⟨"😀!", by decide⟩ = [0x1F600, 0x21] := by simp [codePoints]
  intro a b c
  obtain ⟨-, -, hab, -, -, heq, -, htrans, -⟩ := compare_orders_codePoints a b c
  obtain ⟨-, -, hbc, -⟩ := compare_orders_codePoints b c c
  have hfirst : compare a b = .lt := by
    rw [hab, ha, hb]
    exact .inl ⟨0, 0xFF5E, 0x1F600, ⟨rfl, rfl, rfl, by simp⟩, by simp⟩
  have hsecond : compare b c = .lt := by
    rw [hbc, hb, hc]
    exact .inr ⟨⟨[0x21], rfl⟩, by simp⟩
  refine ⟨hfirst, hsecond, htrans (by rw [hfirst]; rfl) (by rw [hsecond]; rfl), ?_⟩
  rw [Bool.eq_false_iff, Ne, heq]
  simp [a, b]

end TypeName

end StackVerdict
