import Mathlib.Data.List.Infix
import StackVerdict.Proofs.Reachable
import StackVerdict.Proofs.Text

/-!
# What a message tells

The message of a failed check is the label and a phrase about one complaint: how many values are
asked for, or which type is asked for and which is found, or nothing but that two stacks do not fit
(`Verdict.exists_complaint`).  The number of the slot and the rest of the stacks stay hidden.  A
phrase tells its complaint, provided that the name of the expected type does not hold the words
between the two types (`Complaint.phrase_inj`); and as a phrase starts with a blank, it can be told
from a label without blanks.  Therefore the message tells the complaint, and such a label
(`Verdict.message_eq_iff`).
-/

namespace StackVerdict

/-- What the message of a failed check is about. -/
inductive Complaint where
  /-- The instruction takes `needed` values. -/
  | lacks (needed : Nat)
  | mistyped (expected found : TypeName)
  /-- Two stacks do not fit. -/
  | unlike
  /-- The instruction needs a stack of height `needed`. -/
  | height (needed : Nat)
  deriving DecidableEq

/-- What is wrong, as far as the message tells it. -/
def Verdict.complaint? : Verdict → Option Complaint
  | success => none
  | underflow needed _ => some (.lacks needed)
  | typeMismatch expected stack index => (stack.get? index).map (.mistyped expected)
  | stackMismatch _ _ => some .unlike
  | sizeFailure needed _ => some (.height needed)

namespace Complaint

/-- The message behind the label. -/
def phrase : Complaint → String
  | lacks needed =>
      " expects " ++
        if needed = 1 then "a value on the stack, but it was empty"
        else needed.repr ++ " values on the stack"
  | mistyped expected found =>
      " expected " ++
        (article expected.name ++ (" " ++ (expected.name ++ ("; found " ++ found.name))))
  | unlike => " stack doesn't match destination"
  | height needed =>
      " expected the stack to " ++
        if needed = 0 then "be empty"
        else "have " ++ (needed.repr ++ if needed = 1 then " value" else " values")

theorem phrase_lacks (needed : Nat) : (lacks needed).phrase =
    " expects " ++
      if needed = 1 then "a value on the stack, but it was empty"
      else needed.repr ++ " values on the stack" := rfl

theorem phrase_mistyped (expected found : TypeName) : (mistyped expected found).phrase =
    " expected " ++
      (article expected.name ++ (" " ++ (expected.name ++ ("; found " ++ found.name)))) := rfl

theorem phrase_unlike : unlike.phrase = " stack doesn't match destination" := rfl

theorem phrase_height (needed : Nat) : (height needed).phrase =
    " expected the stack to " ++
      if needed = 0 then "be empty"
      else "have " ++ (needed.repr ++ if needed = 1 then " value" else " values") := rfl

/-- The name of the expected type does not hold the words in front of the type that is found. -/
def Plain : Complaint → Prop
  | mistyped expected _ => ¬ "; found ".toList <:+: expected.name.toList
  | _ => True

/-! ## A phrase tells its complaint -/

theorem head?_phrase (c : Complaint) : c.phrase.toList.head? = some ' ' := by
  cases c with
  | lacks needed => rw [phrase_lacks]; simp
  | mistyped expected found => rw [phrase_mistyped]; simp
  | unlike => rw [phrase_unlike]; simp
  | height needed => rw [phrase_height]; simp

theorem article_eq_or (word : String) : article word = "a" ∨ article word = "an" := by
  unfold article
  split
  · exact .inl rfl
  · split_ifs
    · exact .inr rfl
    · exact .inl rfl

/-- The words that a phrase about such a complaint opens with. -/
def opening : Complaint → String
  | lacks _ => " expects "
  | mistyped _ _ => " expected a"
  | unlike => " stack"
  | height _ => " expected the "

theorem opening_prefix_phrase (c : Complaint) : c.opening.toList <+: c.phrase.toList := by
  cases c with
  | lacks needed => rw [phrase_lacks, opening]; simp
  | mistyped expected found =>
      rw [phrase_mistyped, opening]
      rcases article_eq_or expected.name with h | h <;> rw [h] <;> simp
  | unlike => rw [phrase_unlike, opening]; simp
  | height needed => rw [phrase_height, opening]; simp

/-- No opening begins with another one. -/
theorem opening_eq_of_begins {c d : Complaint} (h : c.opening.toList <+: d.opening.toList) :
    c.opening = d.opening := by
  cases c <;> cases d <;> simp [opening] at h ⊢

theorem opening_eq {c d : Complaint} (h : c.phrase = d.phrase) : c.opening = d.opening := by
  have hc := c.opening_prefix_phrase
  rw [h] at hc
  rcases List.prefix_or_prefix_of_prefix hc d.opening_prefix_phrase with hbegins | hbegins
  · exact opening_eq_of_begins hbegins
  · exact (opening_eq_of_begins hbegins).symm

theorem lacks_phrase_inj {n m : Nat} (h : (lacks n).phrase = (lacks m).phrase) : n = m := by
  -- A numeral does not start with a letter.
  have hsingle (k : Nat) :
      "a value on the stack, but it was empty" ≠ k.repr ++ " values on the stack" := by
    intro heq
    obtain ⟨c, cs, hcs⟩ := List.exists_cons_of_ne_nil (Nat.toDigits_ne_nil (b := 10) (n := k))
    have hdigit : c.isDigit = true := Text.isDigit_of_mem_toDigits (n := k) (by simp [hcs])
    rw [← String.toList_inj, String.toList_append, Nat.toList_repr, hcs] at heq
    have hc : c = 'a' := by simpa using (congrArg List.head? heq).symm
    simp [hc] at hdigit
  rw [phrase_lacks, phrase_lacks, String.append_right_inj] at h
  by_cases hn : n = 1 <;> by_cases hm : m = 1
  · rw [hn, hm]
  · rw [if_pos hn, if_neg hm] at h
    exact absurd h (hsingle m)
  · rw [if_neg hn, if_pos hm] at h
    exact absurd h.symm (hsingle n)
  · rw [if_neg hn, if_neg hm, ← String.toList_inj] at h
    simp only [String.toList_append, Nat.toList_repr] at h
    exact (Text.toDigits_append_inj (by simp) (by simp) h).1

theorem height_phrase_inj {n m : Nat} (h : (height n).phrase = (height m).phrase) : n = m := by
  have hempty (s : String) : "be empty" ≠ "have " ++ s := by
    rw [Ne, ← String.toList_inj]
    simp
  rw [phrase_height, phrase_height, String.append_right_inj] at h
  by_cases hn : n = 0 <;> by_cases hm : m = 0
  · rw [hn, hm]
  · rw [if_pos hn, if_neg hm] at h
    exact absurd h (hempty _)
  · rw [if_neg hn, if_pos hm] at h
    exact absurd h.symm (hempty _)
  · rw [if_neg hn, if_neg hm, String.append_right_inj, ← String.toList_inj] at h
    simp only [String.toList_append, Nat.toList_repr] at h
    refine (Text.toDigits_append_inj ?_ ?_ h).1
    · split_ifs <;> simp
    · split_ifs <;> simp

theorem mistyped_phrase_inj {t u x y : TypeName} (ht : (mistyped t x).Plain)
    (hu : (mistyped u y).Plain) (h : (mistyped t x).phrase = (mistyped u y).phrase) :
    t = u ∧ x = y := by
  have harticle (s s' : String) : "a" ++ (" " ++ s) ≠ "an" ++ (" " ++ s') := by
    rw [Ne, ← String.toList_inj]
    simp
  have hsep : "; found ".toList = ';' :: " found ".toList := rfl
  have hmem : ';' ∉ " found ".toList := by decide
  rw [phrase_mistyped, phrase_mistyped, String.append_right_inj] at h
  have hnames : t.name ++ ("; found " ++ x.name) = u.name ++ ("; found " ++ y.name) := by
    rcases article_eq_or t.name with ht' | ht' <;> rcases article_eq_or u.name with hu' | hu' <;>
      rw [ht', hu'] at h
    · simpa only [String.append_right_inj] using h
    · exact absurd h (harticle _ _)
    · exact absurd h.symm (harticle _ _)
    · simpa only [String.append_right_inj] using h
  rw [← String.toList_inj] at hnames
  simp only [String.toList_append, hsep] at hnames
  obtain ⟨htu, hxy⟩ := Text.append_sep_inj hmem ht hu hnames
  exact ⟨TypeName.ext (String.toList_inj.1 htu), TypeName.ext (String.toList_inj.1 hxy)⟩

theorem phrase_inj {c d : Complaint} (hc : c.Plain) (hd : d.Plain) (h : c.phrase = d.phrase) :
    c = d := by
  have hopening := opening_eq h
  cases c with
  | lacks n =>
      cases d with
      | lacks m => rw [lacks_phrase_inj h]
      | _ => simp [opening] at hopening
  | mistyped t x =>
      cases d with
      | mistyped u y =>
          obtain ⟨rfl, rfl⟩ := mistyped_phrase_inj hc hd h
          rfl
      | _ => simp [opening] at hopening
  | unlike =>
      cases d with
      | unlike => rfl
      | _ => simp [opening] at hopening
  | height n =>
      cases d with
      | height m => rw [height_phrase_inj h]
      | _ => simp [opening] at hopening

/-- A label without blanks ends where the phrase begins. -/
theorem label_eq {c d : Complaint} {label label' : String} (hl : ' ' ∉ label.toList)
    (hl' : ' ' ∉ label'.toList) (h : label ++ c.phrase = label' ++ d.phrase) : label = label' := by
  obtain ⟨cs, hcs⟩ := List.head?_eq_some_iff.1 c.head?_phrase
  obtain ⟨ds, hds⟩ := List.head?_eq_some_iff.1 d.head?_phrase
  rw [← String.toList_inj, String.toList_append, String.toList_append, hcs, hds] at h
  rw [← List.singleton_infix_iff] at hl hl'
  exact String.toList_inj.1 (Text.append_sep_inj List.not_mem_nil hl hl' h).1

end Complaint

namespace Verdict

/-! ## The complaint of a verdict -/

theorem sentence_underflow (label : String) (needed : Nat) (stack : Snapshot) :
    (underflow needed stack).sentence label = .ok (label ++ (Complaint.lacks needed).phrase) := by
  rw [sentence, Complaint.phrase_lacks]
  by_cases h : needed = 1
  · rw [if_pos h, if_pos h]
    rfl
  · rw [if_neg h, if_neg h, ← String.append_assoc, ← String.append_assoc]
    rfl

theorem sentence_typeMismatch {label : String} {expected found : TypeName} {stack : Snapshot}
    {index : Nat} (h : stack.get? index = some found) :
    (typeMismatch expected stack index).sentence label =
      .ok (label ++ (Complaint.mistyped expected found).phrase) := by
  rw [sentence, Snapshot.get_eq_ok_iff.2 h, Complaint.phrase_mistyped]
  simp only [← String.append_assoc]
  rfl

theorem sentence_sizeFailure (label : String) (needed : Nat) (stack : Snapshot) :
    (sizeFailure needed stack).sentence label =
      .ok (label ++ (Complaint.height needed).phrase) := by
  rw [sentence, Complaint.phrase_height]
  by_cases h₀ : needed = 0
  · rw [if_pos h₀, if_pos h₀]
    rfl
  · by_cases h₁ : needed = 1
    · subst h₁
      rfl
    · have hwords : " expected the stack to have " = " expected the stack to " ++ "have " := rfl
      rw [if_neg h₀, if_neg h₀, if_neg h₁, if_neg h₁]
      show Except.ok (label ++ " expected the stack to have " ++ needed.repr ++ " values") = _
      simp only [hwords, String.append_assoc]

/-- A check that can be explained has a complaint, and its message is the label and the phrase. -/
theorem exists_complaint {v : Verdict} (h : v.Explainable) :
    ∃ c, v.complaint? = some c ∧ ∀ label, v.message label = .ok (label ++ c.phrase) := by
  cases v with
  | success => exact absurd h id
  | underflow needed stack =>
      exact ⟨_, rfl, fun label => message_eq_ok_iff.2 ⟨h, sentence_underflow label needed stack⟩⟩
  | typeMismatch expected stack index =>
      obtain ⟨found, hfound⟩ := h.get
      have hslot := Snapshot.get_eq_ok_iff.1 hfound
      exact ⟨.mistyped expected found, by rw [complaint?, hslot]; rfl,
        fun label => message_eq_ok_iff.2 ⟨h, sentence_typeMismatch hslot⟩⟩
  | stackMismatch branch destination =>
      exact ⟨_, rfl, fun label => message_eq_ok_iff.2 ⟨h, rfl⟩⟩
  | sizeFailure needed stack =>
      exact ⟨_, rfl, fun label => message_eq_ok_iff.2 ⟨h, sentence_sizeFailure label needed stack⟩⟩

/-- Checks that can be explained have the same message under the same label exactly when they are
of the same kind and ask for the same number of values, or expect and find the same type, whatever
else is in their stacks; provided that the expected types do not hold the words between the two
types of a message.  Of labels without a blank the message tells the label as well. -/
theorem message_eq_iff {v w : Verdict} (hv : v.Explainable) (hw : w.Explainable) :
    ((∀ c ∈ v.complaint?, c.Plain) → (∀ c ∈ w.complaint?, c.Plain) →
      ∀ label, ∃ m n, v.message label = .ok m ∧ w.message label = .ok n ∧
        (m = n ↔ v.complaint? = w.complaint?)) ∧
    ∀ label label', ' ' ∉ label.toList → ' ' ∉ label'.toList →
      ∃ m n, v.message label = .ok m ∧ w.message label' = .ok n ∧ (m = n → label = label') := by
  obtain ⟨c, hc, hcmessage⟩ := exists_complaint hv
  obtain ⟨d, hd, hdmessage⟩ := exists_complaint hw
  refine ⟨fun hv' hw' label => ⟨_, _, hcmessage label, hdmessage label, ?_⟩,
    fun label label' hl hl' =>
      ⟨_, _, hcmessage label, hdmessage label', Complaint.label_eq hl hl'⟩⟩
  rw [String.append_right_inj, hc, hd, Option.some.injEq]
  exact ⟨Complaint.phrase_inj (hv' c hc) (hw' d hd), congrArg _⟩

/-- The same type in another slot of another stack is hidden, and the label is not, also when the
name of the expected type holds almost the words between the two types. -/
theorem message_eq_iff_hidden_slot :
    let t : TypeName := ⟨"Int32; found", by decide⟩
    let v : Verdict := .typeMismatch t ⟨[.float]⟩ 0
    let w : Verdict := .typeMismatch t ⟨[.null, .float]⟩ 1
    (v.Explainable ∧ w.Explainable ∧ (∀ c ∈ v.complaint?, c.Plain) ∧ ∀ c ∈ w.complaint?, c.Plain) ∧
      v.message "Add" = w.message "Add" ∧ v.message "Add" ≠ w.message "Sub" := by
  intro t v w
  have hv : v.Explainable := by decide
  have hw : w.Explainable := by decide
  have hplain : (Complaint.mistyped t .float).Plain := by
    show ¬ "; found ".toList <:+: t.name.toList
    decide
  have hv' : ∀ c ∈ v.complaint?, c.Plain := by
    rintro c ⟨⟩
    exact hplain
  have hw' : ∀ c ∈ w.complaint?, c.Plain := by
    rintro c ⟨⟩
    exact hplain
  obtain ⟨hsame, hlabels⟩ := message_eq_iff hv hw
  refine ⟨⟨hv, hw, hv', hw'⟩, ?_, fun h => ?_⟩
  · obtain ⟨m, n, hm, hn, hiff⟩ := hsame hv' hw' "Add"
    rw [hm, hn, hiff.2 rfl]
  · obtain ⟨m, n, hm, hn, hlabel⟩ := hlabels "Add" "Sub" (by decide) (by decide)
    rw [hm, hn, Except.ok.injEq] at h
    exact absurd (hlabel h) (by decide)

end Verdict

end StackVerdict
