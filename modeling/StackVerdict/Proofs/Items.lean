import Mathlib.Data.List.Induction
import StackVerdict.CommandLine.Reader
import StackVerdict.Proofs.Except
import StackVerdict.Proofs.Text
import StackVerdict.Proofs.Words

/-!
# The items of a command line

What the words after a subcommand say is a list of items: values given to options, and labels.  The
relation `Tail` tells which words say which items, and the reader accepts just the words whose items
can be filled into its form one after the other (`Form.readTail_eq_ok_iff`); the option that waits
for its value, or whose value has not been looked at, counts as if its words were still to be read.
Items can be filled in when no place is filled in twice and what should be a number is one, and
then the form holds what the items say (`Form.enterAll_eq_ok_iff`).
-/

namespace StackVerdict.CommandLine

/-! ## Words that say items -/

/-- One thing that the words after a subcommand say. -/
inductive Item where
  | given (o : Opt) (value : String)
  | label (w : String)
  deriving DecidableEq

/-- The words after subcommand `c` say the items one after the other. -/
inductive Tail (c : Subcommand) : List String → List Item → Prop
  | nil : Tail c [] []
  | attached {o : Opt} {ws : List String} {items : List Item} (ho : o ∈ c.options) (v : String)
      (h : Tail c ws items) : Tail c ((o.word ++ "=" ++ v) :: ws) (.given o v :: items)
  | separate {o : Opt} {v : String} {ws : List String} {items : List Item} (ho : o ∈ c.options)
      (hv : IsPlain v) (h : Tail c ws items) :
      Tail c (o.word :: v :: ws) (.given o v :: items)
  | label {w : String} {ws : List String} {items : List Item} (hw : IsPlain w)
      (h : Tail c ws items) : Tail c (w :: ws) (.label w :: items)
  /-- Behind the escape every word is a label. -/
  | escape (ws : List String) : Tail c ("--" :: ws) (ws.map .label)

/-- All that words can say first: the value of an option, attached or separate, a label, or that
labels are all that follows. -/
theorem Tail.cons_cases {c : Subcommand} {w : String} {ws : List String} {items : List Item}
    (h : Tail c (w :: ws) items) :
    (∃ o v rest, Word.ofString w = .long (Opt.name o) (some v) ∧ items = .given o v :: rest ∧
      Tail c ws rest) ∨
    (∃ o v ws' rest, Word.ofString w = .long (Opt.name o) none ∧ ws = v :: ws' ∧
      items = .given o v :: rest ∧ Tail c ws' rest) ∨
    (∃ rest, Word.ofString w = .plain ∧ items = .label w :: rest ∧ Tail c ws rest) ∨
    Word.ofString w = .escape ∧ items = ws.map .label := by
  generalize hwords : w :: ws = words at h
  cases h with
  | nil => cases hwords
  | @attached o ws' rest ho v h =>
      obtain ⟨rfl, rfl⟩ := List.cons.inj hwords
      exact .inl ⟨o, v, rest, o.ofString_word_append v, rfl, h⟩
  | @separate o v ws' rest ho hv h =>
      obtain ⟨rfl, rfl⟩ := List.cons.inj hwords
      exact .inr (.inl ⟨o, v, ws', rest, o.ofString_word, rfl, rfl, h⟩)
  | @label w' ws' rest hw h =>
      obtain ⟨rfl, rfl⟩ := List.cons.inj hwords
      exact .inr (.inr (.inl ⟨rest, Word.ofString_eq_plain_iff.2 hw, rfl, h⟩))
  | escape ws' =>
      obtain ⟨rfl, rfl⟩ := List.cons.inj hwords
      exact .inr (.inr (.inr ⟨Word.ofString_eq_escape_iff.2 rfl, rfl⟩))

/-- The words say their items in one way only. -/
theorem Tail.deterministic {c : Subcommand} {ws : List String} {items items' : List Item}
    (h : Tail c ws items) (h' : Tail c ws items') : items = items' := by
  induction h generalizing items' with
  | nil => cases h'; rfl
  | @attached o ws rest ho v h ih =>
      obtain ⟨o', ho', more, rfl, hmore⟩ :
          ∃ o', o.name = Opt.name o' ∧ ∃ more, items' = .given o' v :: more ∧ Tail c ws more := by
        simpa [Opt.ofString_word_append] using h'.cons_cases
      rw [Opt.name_injective ho', ih hmore]
  | @separate o v ws rest ho hv h ih =>
      obtain ⟨o', ho', more, rfl, hmore⟩ :
          ∃ o', o.name = Opt.name o' ∧ ∃ more, items' = .given o' v :: more ∧ Tail c ws more := by
        simpa [Opt.ofString_word] using h'.cons_cases
      rw [Opt.name_injective ho', ih hmore]
  | @label w ws rest hw h ih =>
      obtain ⟨more, rfl, hmore⟩ : ∃ more, items' = .label w :: more ∧ Tail c ws more := by
        simpa [Word.ofString_eq_plain_iff.2 hw] using h'.cons_cases
      rw [ih hmore]
  | escape ws =>
      have hitems : items' = ws.map .label := by
        simpa [Word.ofString_eq_escape_iff.2 rfl] using h'.cons_cases
      exact hitems.symm

/-- An option that is pending is one of the subcommand, and its value is one that it may take. -/
structure Pending.Fits (c : Subcommand) (p : Pending) : Prop where
  option : p.option ∈ c.options
  value : ∀ v ∈ p.value, IsPlain v

/-- The words that were read when an option came to be pending. -/
def Pending.words (p : Pending) : List String :=
  p.option.word :: p.value.toList

namespace Form

variable {c : Subcommand} {f g : Form}

/-- The form with one more item filled in. -/
def enter (c : Subcommand) (f : Form) : Item → Except Refusal Form
  | .given o value => f.set c o value
  | .label w => if f.label.isSome then .error .unknownArgument else .ok { f with label := some w }

def enterAll (c : Subcommand) (f : Form) (items : List Item) : Except Refusal Form :=
  items.foldlM (enter c) f

theorem enterAll_cons_eq_ok_iff {i : Item} {items : List Item} :
    f.enterAll c (i :: items) = .ok g ↔
      ∃ f', f.enter c i = .ok f' ∧ f'.enterAll c items = .ok g := by
  rw [enterAll, List.foldlM_cons, bind_eq_ok_iff]
  rfl

theorem fill_eq_ok_iff {α : Type} {place : Option α} {value : Except Refusal α} {p : Option α} :
    fill place value = .ok p ↔ place = none ∧ ∃ a, value = .ok a ∧ p = some a := by
  cases place with
  | none =>
      rw [fill, map_eq_ok_iff]
      simp [eq_comm]
  | some a => simp [fill]

theorem label_of_set {o : Opt} {value : String} (h : f.set c o value = .ok g) :
    g.label = f.label := by
  unfold set at h
  cases o with
  | expected =>
      cases c <;> obtain ⟨p, -, rfl⟩ := map_eq_ok_iff.1 h <;> rfl
  | index => obtain ⟨p, -, rfl⟩ := map_eq_ok_iff.1 h; rfl
  | stack => obtain rfl := Except.ok.inj h; rfl
  | destination => obtain rfl := Except.ok.inj h; rfl

theorem label_of_settle {p : Option Pending} (h : f.settle c p = .ok g) : g.label = f.label := by
  rcases p with _ | ⟨o, _ | value⟩
  · rw [← Except.ok.inj h]
  · cases h
  · exact label_of_set h

theorem enter_label_eq_ok_iff {w : String} :
    f.enter c (.label w) = .ok g ↔ f.label = none ∧ g = { f with label := some w } := by
  unfold enter
  cases f.label with
  | none => simp [eq_comm]
  | some l => simp

/-! ## What is read is said by the words -/

theorem readEscaped_eq_ok_iff {p : Option Pending} {ws : List String} :
    f.readEscaped c p ws = .ok g ↔
      ∃ f', f.settle c p = .ok f' ∧ f'.enterAll c (ws.map .label) = .ok g := by
  induction ws generalizing f p with
  | nil =>
      rw [readEscaped, List.map_nil]
      simp [enterAll, pure, Except.pure]
  | cons w ws ih =>
      rw [readEscaped, List.map_cons]
      simp only [enterAll_cons_eq_ok_iff, enter_label_eq_ok_iff]
      cases hsettle : f.settle c p with
      | error e => split_ifs <;> simp
      | ok f' =>
          rw [← label_of_settle hsettle]
          cases hlabel : f'.label with
          | some l => simp [hlabel]
          | none => simp [hlabel, ih, settle]

/-- All that the reader can do with a word that does not stop it: begin the escape, let an option
wait, fill in an attached value, take the value that is waited for, or fill in the label. -/
theorem readTail_cons_eq_ok_iff {p : Option Pending} {w : String} {ws : List String} :
    f.readTail c p (w :: ws) = .ok g ↔
      (w = "--" ∧ f.readEscaped c p ws = .ok g) ∨
      (∃ o ∈ c.options, w = o.word ∧
        ∃ f', f.settle c p = .ok f' ∧ f'.readTail c (some ⟨o, none⟩) ws = .ok g) ∨
      (∃ o ∈ c.options, ∃ v, w = o.word ++ "=" ++ v ∧
        ∃ f', f.settle c p = .ok f' ∧ ∃ f'', f'.set c o v = .ok f'' ∧
          f''.readTail c none ws = .ok g) ∨
      (IsPlain w ∧ ∃ o, p = some ⟨o, none⟩ ∧ f.readTail c (some ⟨o, some w⟩) ws = .ok g) ∨
      (IsPlain w ∧ f.label = none ∧
        ∃ f', f.settle c p = .ok f' ∧ readTail c { f' with label := some w } none ws = .ok g) := by
  have hhelp : ∀ {x : Except Refusal Form}, x.bind (fun _ => .error .help) ≠ .ok g := by
    rintro (_ | _) <;> simp [Except.bind]
  constructor
  · intro h
    unfold readTail at h
    split at h
    · next hw => exact .inl ⟨Word.ofString_eq_escape_iff.1 hw, h⟩
    · next name value hw =>
      split at h
      · next o ho =>
        obtain ⟨rfl, hmem⟩ := Subcommand.option?_eq_some_iff.1 ho
        split at h
        · cases h
        · next f' hsettle =>
          exact .inr <| .inl
            ⟨o, hmem, (Word.ofString_eq_long_none_iff.1 hw).1, f', hsettle, h⟩
      · next o v ho =>
        obtain ⟨rfl, hmem⟩ := Subcommand.option?_eq_some_iff.1 ho
        split at h
        · cases h
        · next f' hsettle =>
          split at h
          · cases h
          · next f'' hset =>
            exact .inr <| .inr <| .inl
              ⟨o, hmem, v, (Word.ofString_eq_long_some_iff.1 hw).1, f', hsettle, f'', hset, h⟩
      · split_ifs at h
        exact absurd h hhelp
      · split_ifs at h
    · split_ifs at h
      exact absurd h hhelp
    · next hw =>
      have hplain := Word.ofString_eq_plain_iff.1 hw
      split at h
      · next o => exact .inr <| .inr <| .inr <| .inl ⟨hplain, o, rfl, h⟩
      · split_ifs at h with hlabel
        split at h
        · cases h
        · next f' hsettle =>
          exact .inr <| .inr <| .inr <| .inr
            ⟨hplain, by simpa using hlabel, f', hsettle, h⟩
  · rintro (⟨rfl, h⟩ | ⟨o, ho, rfl, f', hsettle, h⟩ | ⟨o, ho, v, rfl, f', hsettle, f'', hset, h⟩ |
      ⟨hw, o, rfl, h⟩ | ⟨hw, hlabel, f', hsettle, h⟩)
    · unfold readTail
      exact h
    · have hoption : c.option? o.name = some o := Subcommand.option?_eq_some_iff.2 ⟨rfl, ho⟩
      unfold readTail
      simp only [o.ofString_word, hoption, hsettle, h]
    · have hoption : c.option? o.name = some o := Subcommand.option?_eq_some_iff.2 ⟨rfl, ho⟩
      unfold readTail
      simp only [o.ofString_word_append, hoption, hsettle, hset, h]
    · unfold readTail
      simp only [Word.ofString_eq_plain_iff.2 hw, h]
    · unfold readTail
      rcases p with _ | ⟨o, _ | v⟩
      · simp [Word.ofString_eq_plain_iff.2 hw, hlabel, hsettle, h]
      · cases hsettle
      · simp [Word.ofString_eq_plain_iff.2 hw, hlabel, hsettle, h]

/-- An option that was settled stood in front of the words that are left, with its value. -/
theorem exists_tail_of_settle {p : Option Pending} (hp : ∀ q ∈ p, q.Fits c) {ws : List String}
    {items : List Item} {f' : Form} (hsettle : f.settle c p = .ok f') (htail : Tail c ws items)
    (henter : f'.enterAll c items = .ok g) :
    ∃ items', Tail c (p.toList.flatMap Pending.words ++ ws) items' ∧
      f.enterAll c items' = .ok g := by
  rcases p with _ | ⟨o, _ | v⟩
  · rw [Except.ok.inj hsettle]
    exact ⟨items, htail, henter⟩
  · cases hsettle
  · have hfits := hp _ rfl
    exact ⟨.given o v :: items, .separate hfits.option (hfits.value v rfl) htail,
      enterAll_cons_eq_ok_iff.2 ⟨f', hsettle, henter⟩⟩

/-- The words that are read, behind those of the option that is pending, say what is filled in. -/
theorem exists_tail_of_readTail {p : Option Pending} (hp : ∀ q ∈ p, q.Fits c) {ws : List String}
    (h : f.readTail c p ws = .ok g) :
    ∃ items, Tail c (p.toList.flatMap Pending.words ++ ws) items ∧ f.enterAll c items = .ok g := by
  have hnone : ∀ q ∈ (none : Option Pending), q.Fits c := by simp
  induction ws generalizing f p with
  | nil =>
      rw [readTail] at h
      exact exists_tail_of_settle hp h .nil rfl
  | cons w ws ih =>
      rcases readTail_cons_eq_ok_iff.1 h with ⟨rfl, hrest⟩ | ⟨o, ho, rfl, f', hsettle, hrest⟩ |
        ⟨o, ho, v, rfl, f', hsettle, f'', hset, hrest⟩ | ⟨hw, o, rfl, hrest⟩ |
        ⟨hw, hlabel, f', hsettle, hrest⟩
      · obtain ⟨f', hsettle, henter⟩ := readEscaped_eq_ok_iff.1 hrest
        exact exists_tail_of_settle hp hsettle (.escape ws) henter
      · have hwaits : ∀ q ∈ some (⟨o, none⟩ : Pending), q.Fits c := by
          rintro q ⟨⟩
          exact ⟨ho, by simp⟩
        obtain ⟨items, htail, henter⟩ := ih hwaits hrest
        exact exists_tail_of_settle hp hsettle htail henter
      · obtain ⟨items, htail, henter⟩ := ih hnone hrest
        exact exists_tail_of_settle hp hsettle (.attached ho v htail)
          (enterAll_cons_eq_ok_iff.2 ⟨f'', hset, henter⟩)
      · have hvalue : ∀ q ∈ some (⟨o, some w⟩ : Pending), q.Fits c := by
          rintro q ⟨⟩
          exact ⟨(hp _ rfl).option, by simpa using hw⟩
        exact ih hvalue hrest
      · obtain ⟨items, htail, henter⟩ := ih hnone hrest
        rw [← label_of_settle hsettle] at hlabel
        exact exists_tail_of_settle hp hsettle (.label hw htail)
          (enterAll_cons_eq_ok_iff.2 ⟨_, enter_label_eq_ok_iff.2 ⟨hlabel, rfl⟩, henter⟩)

/-- Words that say items are read behind an option that can be settled, if the items can be filled
in. -/
theorem readTail_of_tail {ws : List String} {items : List Item} (h : Tail c ws items)
    {p : Option Pending} {f' : Form} (hsettle : f.settle c p = .ok f')
    (henter : f'.enterAll c items = .ok g) : f.readTail c p ws = .ok g := by
  induction h generalizing f f' p with
  | nil =>
      obtain rfl : f' = g := Except.ok.inj henter
      rwa [readTail]
  | attached ho v _ ih =>
      obtain ⟨f'', hset, henter⟩ := enterAll_cons_eq_ok_iff.1 henter
      exact readTail_cons_eq_ok_iff.2 <| .inr <| .inr <| .inl
        ⟨_, ho, v, rfl, f', hsettle, f'', hset, ih rfl henter⟩
  | separate ho hv _ ih =>
      obtain ⟨f'', hset, henter⟩ := enterAll_cons_eq_ok_iff.1 henter
      have hvalue := readTail_cons_eq_ok_iff.2 <| .inr <| .inr <| .inr <| .inl
        ⟨hv, _, rfl, ih hset henter⟩
      exact readTail_cons_eq_ok_iff.2 <| .inr <| .inl ⟨_, ho, rfl, f', hsettle, hvalue⟩
  | label hw _ ih =>
      obtain ⟨f'', hset, henter⟩ := enterAll_cons_eq_ok_iff.1 henter
      obtain ⟨hlabel, rfl⟩ := enter_label_eq_ok_iff.1 hset
      rw [label_of_settle hsettle] at hlabel
      exact readTail_cons_eq_ok_iff.2 <| .inr <| .inr <| .inr <| .inr
        ⟨hw, hlabel, f', hsettle, ih rfl henter⟩
  | escape ws =>
      exact readTail_cons_eq_ok_iff.2 <| .inl
        ⟨rfl, readEscaped_eq_ok_iff.2 ⟨f', hsettle, henter⟩⟩

/-- The words after a subcommand are read just where they say items that can be filled in. -/
theorem readTail_eq_ok_iff {ws : List String} :
    f.readTail c none ws = .ok g ↔ ∃ items, Tail c ws items ∧ f.enterAll c items = .ok g := by
  constructor
  · exact exists_tail_of_readTail (by simp)
  · rintro ⟨items, htail, henter⟩
    exact readTail_of_tail htail rfl henter

end Form

/-! ## What the items say -/

/-- The label that an item gives, if it gives one. -/
def Item.label? : Item → Option String
  | given _ _ => none
  | label w => some w

/-- The value that an item gives to option `o`, if it gives one. -/
def Item.value? (o : Opt) : Item → Option String
  | given o' v => if o' = o then some v else none
  | label _ => none

/-- The labels among the items. -/
def labels (items : List Item) : List String :=
  items.filterMap Item.label?

/-- The values that the items give to option `o`. -/
def values (o : Opt) (items : List Item) : List String :=
  items.filterMap (Item.value? o)

/-- Whether an option of the subcommand takes a number. -/
def Subcommand.TakesCount (c : Subcommand) (o : Opt) : Prop :=
  o = .index ∨ o = .expected ∧ c ≠ .typeMismatch

/-- Items that can be filled in: no place is filled in twice, and what should be a number is
one. -/
structure Fillable (c : Subcommand) (items : List Item) : Prop where
  label : (labels items).length ≤ 1
  expected : (values .expected items).length ≤ 1
  index : (values .index items).length ≤ 1
  counts : ∀ o, c.TakesCount o → ∀ v ∈ values o items, Text.WritesCount v

section Concat

variable {c : Subcommand} {items : List Item}

@[simp] theorem labels_concat_label (items : List Item) (w : String) :
    labels (items ++ [.label w]) = labels items ++ [w] := by
  simp [labels, Item.label?]

@[simp] theorem labels_concat_given (items : List Item) (o : Opt) (v : String) :
    labels (items ++ [.given o v]) = labels items := by
  simp [labels, Item.label?]

@[simp] theorem values_concat_label (o : Opt) (items : List Item) (w : String) :
    values o (items ++ [.label w]) = values o items := by
  simp [values, Item.value?]

@[simp] theorem values_concat_given (o o' : Opt) (items : List Item) (v : String) :
    values o (items ++ [.given o' v]) = values o items ++ if o' = o then [v] else [] := by
  by_cases h : o' = o <;> simp [values, Item.value?, h]

theorem fillable_concat_label {w : String} :
    Fillable c (items ++ [.label w]) ↔ Fillable c items ∧ labels items = [] := by
  constructor
  · rintro ⟨hlabel, hexpected, hindex, hcounts⟩
    simp only [labels_concat_label, values_concat_label] at hlabel hexpected hindex hcounts
    have hnil : labels items = [] := by simpa using hlabel
    exact ⟨⟨by simp [hnil], hexpected, hindex, hcounts⟩, hnil⟩
  · rintro ⟨⟨-, hexpected, hindex, hcounts⟩, hnil⟩
    exact ⟨by simp [hnil], by simpa using hexpected, by simpa using hindex, by simpa using hcounts⟩

theorem fillable_concat_given {o : Opt} {v : String} :
    Fillable c (items ++ [.given o v]) ↔
      Fillable c items ∧ (o = .expected ∨ o = .index → values o items = []) ∧
        (c.TakesCount o → Text.WritesCount v) := by
  constructor
  · rintro ⟨hlabel, hexpected, hindex, hcounts⟩
    simp only [labels_concat_given, values_concat_given, List.length_append]
      at hlabel hexpected hindex hcounts
    refine ⟨⟨hlabel, by omega, by omega, fun o' ho' u hu =>
      hcounts o' ho' u (List.mem_append_left _ hu)⟩, ?_, fun ho => hcounts o ho v (by simp)⟩
    rintro (rfl | rfl)
    · simpa using hexpected
    · simpa using hindex
  · rintro ⟨⟨hlabel, hexpected, hindex, hcounts⟩, hnil, hv⟩
    refine ⟨by simpa using hlabel, ?_, ?_, fun o' ho' u hu => ?_⟩
    · by_cases ho : o = .expected
      · simp [ho, ho ▸ hnil (.inl ho)]
      · simpa [ho] using hexpected
    · by_cases ho : o = .index
      · simp [ho, ho ▸ hnil (.inr ho)]
      · simpa [ho] using hindex
    · rw [values_concat_given] at hu
      rcases List.mem_append.1 hu with hu | hu
      · exact hcounts o' ho' u hu
      · split_ifs at hu with heq
        · rw [List.mem_singleton.1 hu]
          exact hv (heq ▸ ho')
        · cases hu

end Concat

namespace Form

variable {c : Subcommand} {items : List Item} {g : Form}

/-- The form that the items are filled into. -/
def ofItems (c : Subcommand) (items : List Item) : Form where
  label := (labels items).head?
  needed :=
    if c = .typeMismatch then none else (values .expected items).head?.bind Text.readCount?
  expected := if c = .typeMismatch then (values .expected items).head? else none
  index := (values .index items).head?.bind Text.readCount?
  stack := (values .stack items).flatMap (Text.cut ',')
  destination := (values .destination items).flatMap (Text.cut ',')

theorem readCount_eq_ok_iff {v : String} {n : Nat} :
    readCount v = .ok n ↔ Text.readCount? v = some n := by
  unfold readCount
  split <;> simp_all

/-- Among numbers there is no first one just where there is none at all. -/
theorem head?_bind_readCount?_eq_none_iff {vs : List String}
    (hvs : ∀ v ∈ vs, Text.WritesCount v) : vs.head?.bind Text.readCount? = none ↔ vs = [] := by
  cases vs with
  | nil => simp
  | cons u us =>
      have hu := Text.readCount?_isSome_iff.2 (hvs u List.mem_cons_self)
      simp [Option.isSome_iff_ne_none.1 hu]

theorem fill_count_eq_ok_iff {vs : List String} (hvs : ∀ v ∈ vs, Text.WritesCount v) {v : String}
    {p : Option Nat} :
    fill (vs.head?.bind Text.readCount?) (readCount v) = .ok p ↔
      vs = [] ∧ Text.WritesCount v ∧ p = Text.readCount? v := by
  simp only [fill_eq_ok_iff, head?_bind_readCount?_eq_none_iff hvs, readCount_eq_ok_iff,
    ← Text.readCount?_isSome_iff, Option.isSome_iff_exists]
  refine and_congr_right fun _ => ⟨?_, ?_⟩
  · rintro ⟨n, hn, rfl⟩
    exact ⟨⟨n, hn⟩, hn.symm⟩
  · rintro ⟨⟨n, hn⟩, rfl⟩
    exact ⟨n, hn, hn⟩

theorem set_expected_of_ne {f : Form} (hc : c ≠ .typeMismatch) (v : String) :
    f.set c .expected v = (fill f.needed (readCount v)).map fun n => { f with needed := n } := by
  cases c with
  | typeMismatch => exact absurd rfl hc
  | _ => rfl

theorem set_expected_ofItems_eq_ok_iff {v : String} :
    (ofItems .typeMismatch items).set .typeMismatch .expected v = .ok g ↔
      values .expected items = [] ∧
        g = ofItems .typeMismatch (items ++ [.given .expected v]) := by
  have hplace : (ofItems .typeMismatch items).expected = (values .expected items).head? := rfl
  rw [set, map_eq_ok_iff, hplace]
  simp only [fill_eq_ok_iff, List.head?_eq_none_iff]
  constructor
  · rintro ⟨p, ⟨hnil, _, ⟨⟩, rfl⟩, rfl⟩
    exact ⟨hnil, by simp [ofItems, hnil]⟩
  · rintro ⟨hnil, rfl⟩
    exact ⟨some v, ⟨hnil, v, rfl, rfl⟩, by simp [ofItems, hnil]⟩

theorem set_needed_ofItems_eq_ok_iff (hc : c ≠ .typeMismatch)
    (h : ∀ v ∈ values .expected items, Text.WritesCount v) {v : String} :
    (ofItems c items).set c .expected v = .ok g ↔
      values .expected items = [] ∧ Text.WritesCount v ∧
        g = ofItems c (items ++ [.given .expected v]) := by
  have hplace : (ofItems c items).needed = (values .expected items).head?.bind Text.readCount? :=
    if_neg hc
  rw [set_expected_of_ne hc, map_eq_ok_iff, hplace]
  simp only [fill_count_eq_ok_iff h]
  constructor
  · rintro ⟨p, ⟨hnil, hv, rfl⟩, rfl⟩
    exact ⟨hnil, hv, by simp [ofItems, hnil, hc]⟩
  · rintro ⟨hnil, hv, rfl⟩
    exact ⟨_, ⟨hnil, hv, rfl⟩, by simp [ofItems, hnil, hc]⟩

theorem set_index_ofItems_eq_ok_iff (h : ∀ v ∈ values .index items, Text.WritesCount v)
    {v : String} :
    (ofItems c items).set c .index v = .ok g ↔
      values .index items = [] ∧ Text.WritesCount v ∧
        g = ofItems c (items ++ [.given .index v]) := by
  have hplace : (ofItems c items).index = (values .index items).head?.bind Text.readCount? := rfl
  rw [set, map_eq_ok_iff, hplace]
  simp only [fill_count_eq_ok_iff h]
  constructor
  · rintro ⟨p, ⟨hnil, hv, rfl⟩, rfl⟩
    exact ⟨hnil, hv, by simp [ofItems, hnil]⟩
  · rintro ⟨hnil, hv, rfl⟩
    exact ⟨_, ⟨hnil, hv, rfl⟩, by simp [ofItems, hnil]⟩

/-- A value can be filled in just where it has its place for itself and is a number if it should be
one. -/
theorem set_ofItems_eq_ok_iff (h : ∀ o, c.TakesCount o → ∀ v ∈ values o items, Text.WritesCount v)
    (o : Opt) (v : String) :
    (ofItems c items).set c o v = .ok g ↔
      ((o = .expected ∨ o = .index → values o items = []) ∧
        (c.TakesCount o → Text.WritesCount v)) ∧ g = ofItems c (items ++ [.given o v]) := by
  cases o with
  | expected =>
      by_cases hc : c = .typeMismatch
      · subst hc
        rw [set_expected_ofItems_eq_ok_iff]
        simp [Subcommand.TakesCount]
      · rw [set_needed_ofItems_eq_ok_iff hc (h _ (.inr ⟨rfl, hc⟩))]
        simp [Subcommand.TakesCount, hc, and_assoc]
  | index =>
      rw [set_index_ofItems_eq_ok_iff (h _ (.inl rfl))]
      simp [Subcommand.TakesCount, and_assoc]
  | stack => simp [set, ofItems, Subcommand.TakesCount, @eq_comm _ _ g]
  | destination => simp [set, ofItems, Subcommand.TakesCount, @eq_comm _ _ g]

/-- One step: an item is filled in just where it leaves the items fillable. -/
theorem enter_ofItems_eq_ok_iff (h : Fillable c items) (i : Item) :
    (ofItems c items).enter c i = .ok g ↔
      Fillable c (items ++ [i]) ∧ g = ofItems c (items ++ [i]) := by
  cases i with
  | label w =>
      have hplace : (ofItems c items).label = none ↔ labels items = [] := List.head?_eq_none_iff
      rw [enter_label_eq_ok_iff, fillable_concat_label, hplace]
      constructor
      · rintro ⟨hnil, rfl⟩
        exact ⟨⟨h, hnil⟩, by simp [ofItems, hnil]⟩
      · rintro ⟨⟨-, hnil⟩, rfl⟩
        exact ⟨hnil, by simp [ofItems, hnil]⟩
  | given o v =>
      rw [fillable_concat_given, enter, set_ofItems_eq_ok_iff h.counts]
      simp only [h, true_and]

/-- Items that can be filled in are, and the form then holds what they say. -/
theorem enterAll_eq_ok_iff :
    enterAll c {} items = .ok g ↔ Fillable c items ∧ g = ofItems c items := by
  induction items using List.reverseRecOn generalizing g with
  | nil =>
      have hfillable : Fillable c [] :=
        ⟨by simp [labels], by simp [values], by simp [values], by simp [values]⟩
      have hempty : ofItems c [] = {} := by simp [ofItems, labels, values]
      rw [hempty]
      simp [enterAll, hfillable, pure, Except.pure, eq_comm]
  | append_singleton items i ih =>
      have hstep : enterAll c {} (items ++ [i]) = .ok g ↔
          ∃ f, enterAll c {} items = .ok f ∧ f.enter c i = .ok g := by
        rw [enterAll, List.foldlM_append, bind_eq_ok_iff]
        simp [enterAll]
      rw [hstep]
      constructor
      · rintro ⟨f, hf, henter⟩
        obtain ⟨hfillable, rfl⟩ := ih.1 hf
        exact (enter_ofItems_eq_ok_iff hfillable i).1 henter
      · rintro ⟨hfillable, hg⟩
        have hinit : Fillable c items := by
          cases i with
          | given o v => exact (fillable_concat_given.1 hfillable).1
          | label w => exact (fillable_concat_label.1 hfillable).1
        exact ⟨_, ih.2 ⟨hinit, rfl⟩, (enter_ofItems_eq_ok_iff hinit i).2 ⟨hfillable, hg⟩⟩

end Form

end StackVerdict.CommandLine
