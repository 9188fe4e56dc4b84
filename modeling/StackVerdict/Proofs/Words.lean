import Mathlib.Data.List.TakeWhile
import StackVerdict.CommandLine.Vocabulary
import StackVerdict.CommandLine.Word

/-!
# How words are spelled

What a word looks like is what it is spelled like: the escape is `--` (`ofString_eq_escape_iff`), a
long option is two dashes and its name, with an equals sign in front of a value that is attached to
it (`ofString_eq_long_none_iff`, `ofString_eq_long_some_iff`), and a word without a place among the
options is the single dash or starts with no dash (`ofString_eq_plain_iff`).  The words of the
vocabulary are read as what they are spelled for, and no other words are.
-/

namespace StackVerdict.CommandLine

/-- A word that is not read as an option: the single dash, or one that starts with no dash. -/
def IsPlain (w : String) : Prop :=
  w = "-" ∨ w.toList.head? ≠ some '-'

instance : DecidablePred IsPlain := fun w =>
  inferInstanceAs (Decidable (w = "-" ∨ w.toList.head? ≠ some '-'))

namespace Word

theorem splitValue_of_not_mem {cs : List Char} (h : '=' ∉ cs) :
    splitValue cs = (String.ofList cs, none) := by
  have hne : ∀ c ∈ cs, decide (c ≠ '=') = true := fun c hc =>
    decide_eq_true fun heq => h (heq ▸ hc)
  rw [splitValue, List.takeWhile_eq_self_iff.2 hne, List.dropWhile_eq_nil_iff.2 hne]

theorem splitValue_append {name value : List Char} (h : '=' ∉ name) :
    splitValue (name ++ '=' :: value) = (String.ofList name, some (String.ofList value)) := by
  have hne : ∀ c ∈ name, decide (c ≠ '=') = true := fun c hc =>
    decide_eq_true fun heq => h (heq ▸ hc)
  rw [splitValue, List.takeWhile_append_of_pos hne, List.dropWhile_append_of_pos hne]
  simp

theorem splitValue_eq_none_iff {cs : List Char} {name : String} :
    splitValue cs = (name, none) ↔ cs = name.toList ∧ '=' ∉ name.toList := by
  constructor
  · intro h
    by_cases hcs : '=' ∈ cs
    · obtain ⟨init, rest, rfl, hinit⟩ := List.eq_append_cons_of_mem hcs
      simp [splitValue_append hinit] at h
    · obtain ⟨rfl, -⟩ := Prod.mk.inj ((splitValue_of_not_mem hcs).symm.trans h)
      simpa using hcs
  · rintro ⟨rfl, h⟩
    rw [splitValue_of_not_mem h, String.ofList_toList]

theorem splitValue_eq_some_iff {cs : List Char} {name value : String} :
    splitValue cs = (name, some value) ↔
      cs = name.toList ++ '=' :: value.toList ∧ '=' ∉ name.toList := by
  constructor
  · intro h
    by_cases hcs : '=' ∈ cs
    · obtain ⟨init, rest, rfl, hinit⟩ := List.eq_append_cons_of_mem hcs
      obtain ⟨rfl, hrest⟩ := Prod.mk.inj ((splitValue_append hinit).symm.trans h)
      obtain rfl := Option.some.inj hrest
      simpa using hinit
    · simp [splitValue_of_not_mem hcs] at h
  · rintro ⟨rfl, h⟩
    rw [splitValue_append h, String.ofList_toList, String.ofList_toList]

theorem ofString_eq_escape_iff {w : String} : ofString w = escape ↔ w = "--" := by
  have hlist : ofString w = escape ↔ w.toList = ['-', '-'] := by
    unfold ofString ofChars
    split <;> simp_all
  rw [hlist, ← String.toList_inj]
  rfl

theorem ofString_eq_long_iff {w name : String} {value : Option String} :
    ofString w = long name value ↔
      ∃ rest, w.toList = '-' :: '-' :: rest ∧ rest ≠ [] ∧ splitValue rest = (name, value) := by
  unfold ofString ofChars
  split <;> simp_all [Prod.ext_iff]

theorem ofString_eq_long_none_iff {w name : String} :
    ofString w = long name none ↔ w = "--" ++ name ∧ name ≠ "" ∧ '=' ∉ name.toList := by
  rw [ofString_eq_long_iff, ← String.toList_inj, String.toList_append]
  constructor
  · rintro ⟨rest, hw, hne, hsplit⟩
    obtain ⟨rfl, hname⟩ := splitValue_eq_none_iff.1 hsplit
    exact ⟨hw, by simpa using hne, hname⟩
  · rintro ⟨hw, hne, hname⟩
    exact ⟨name.toList, hw, by simpa using hne, splitValue_eq_none_iff.2 ⟨rfl, hname⟩⟩

theorem ofString_eq_long_some_iff {w name value : String} :
    ofString w = long name (some value) ↔
      w = "--" ++ name ++ "=" ++ value ∧ '=' ∉ name.toList := by
  have hspell : ("--" ++ name ++ "=" ++ value).toList =
      '-' :: '-' :: (name.toList ++ '=' :: value.toList) := by
    simp
  rw [ofString_eq_long_iff, ← String.toList_inj, hspell]
  constructor
  · rintro ⟨rest, hw, -, hsplit⟩
    obtain ⟨rfl, hname⟩ := splitValue_eq_some_iff.1 hsplit
    exact ⟨hw, hname⟩
  · rintro ⟨hw, hname⟩
    exact ⟨_, hw, by simp, splitValue_eq_some_iff.2 ⟨rfl, hname⟩⟩

theorem ofString_eq_plain_iff {w : String} : ofString w = plain ↔ IsPlain w := by
  have hlist : ofString w = plain ↔ w.toList = ['-'] ∨ w.toList.head? ≠ some '-' := by
    unfold ofString
    rcases w.toList with _ | ⟨c, _ | ⟨d, rest⟩⟩
    · simp [ofChars]
    · simp [ofChars, Classical.em]
    · by_cases hc : c = '-'
      · by_cases hd : d = '-'
        · cases rest <;> simp [ofChars, hc, hd]
        · simp [ofChars, hc, hd]
      · simp [ofChars, hc]
  rw [hlist, IsPlain, ← String.toList_inj]
  rfl

end Word

/-! ## The vocabulary -/

/-- A flag as it is written. -/
def Flag.word (f : Flag) : String := "--" ++ f.name

/-- An option as it is written. -/
def Opt.word (o : Opt) : String := "--" ++ o.name

theorem Flag.ofName?_eq_some_iff {s : String} {f : Flag} : ofName? s = some f ↔ s = f.name := by
  constructor
  · intro h
    rw [ofName?] at h
    have hname := List.find?_some h
    exact (beq_iff_eq.1 hname).symm
  · rintro rfl
    cases f <;> rfl

theorem Subcommand.ofName?_eq_some_iff {s : String} {c : Subcommand} :
    ofName? s = some c ↔ s = c.name := by
  constructor
  · intro h
    rw [ofName?] at h
    have hname := List.find?_some h
    exact (beq_iff_eq.1 hname).symm
  · rintro rfl
    cases c <;> rfl

theorem Subcommand.option?_eq_some_iff {c : Subcommand} {s : String} {o : Opt} :
    c.option? s = some o ↔ s = o.name ∧ o ∈ c.options := by
  constructor
  · intro h
    rw [option?] at h
    have hname := List.find?_some h
    exact ⟨(beq_iff_eq.1 hname).symm, List.mem_of_find?_eq_some h⟩
  · rintro ⟨rfl, ho⟩
    cases c <;> cases o <;> first | rfl | simp [options] at ho

theorem Flag.name_injective {f g : Flag} (h : f.name = g.name) : f = g := by
  have hf : ofName? f.name = some f := ofName?_eq_some_iff.2 rfl
  rw [h, ofName?_eq_some_iff.2 rfl] at hf
  exact (Option.some.inj hf).symm

theorem Flag.word_injective {f g : Flag} (h : f.word = g.word) : f = g := by
  rw [word, word, String.append_right_inj] at h
  exact name_injective h

theorem Subcommand.name_injective {c d : Subcommand} (h : c.name = d.name) : c = d := by
  have hc : ofName? c.name = some c := ofName?_eq_some_iff.2 rfl
  rw [h, ofName?_eq_some_iff.2 rfl] at hc
  exact (Option.some.inj hc).symm

theorem Opt.name_injective {o o' : Opt} (h : o.name = o'.name) : o = o' := by
  cases o <;> cases o' <;> first | rfl | simp [name] at h

theorem Flag.ofString_word (f : Flag) : Word.ofString f.word = .long f.name none :=
  Word.ofString_eq_long_none_iff.2 ⟨rfl, by cases f <;> decide, by cases f <;> decide⟩

theorem Opt.not_mem_name (o : Opt) : '=' ∉ o.name.toList := by
  cases o <;> decide

theorem Opt.ofString_word (o : Opt) : Word.ofString o.word = .long o.name none :=
  Word.ofString_eq_long_none_iff.2 ⟨rfl, by cases o <;> decide, o.not_mem_name⟩

theorem Opt.ofString_word_append (o : Opt) (value : String) :
    Word.ofString (o.word ++ "=" ++ value) = .long o.name (some value) :=
  Word.ofString_eq_long_some_iff.2 ⟨rfl, o.not_mem_name⟩

theorem Subcommand.isPlain_name (c : Subcommand) : IsPlain c.name := by
  cases c <;> decide

theorem Flag.word_ne_name (f : Flag) (c : Subcommand) : f.word ≠ c.name := by
  intro h
  have hlong := f.ofString_word
  rw [h, Word.ofString_eq_plain_iff.2 c.isPlain_name] at hlong
  cases hlong

end StackVerdict.CommandLine
