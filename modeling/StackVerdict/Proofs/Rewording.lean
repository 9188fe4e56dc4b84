import Mathlib.Logic.Relation
import StackVerdict.Proofs.Faults
import StackVerdict.Proofs.Modes

/-!
# Command lines worded differently

A command line without the escape is a list of flags, a subcommand and phrases (`Line`), and the
same can be said with the flags or the phrases in another order, with a value attached to its
option, or with a list of slots in more or fewer parts (`Reworded`).  None of this has a say in what
the items fill in: places that are filled in once do not tell where their item stood, and the lists
of slots are the pieces of their values one after the other (`Alike.ofItems_eq`).  So the rewording
is carried out as well, and with the same outcome (`execute_reworded`).
-/

namespace StackVerdict.CommandLine

/-! ## Items that say the same -/

/-- Whether an option lists the slots of a stack, so that it may be given again and goes on where it
stopped. -/
def Opt.ListsSlots (o : Opt) : Prop :=
  o = .stack ∨ o = .destination

/-- Items that give the same: the order tells nothing but the slots of a stack. -/
structure Alike (items items' : List Item) : Prop where
  label : (labels items).Perm (labels items')
  single : ∀ o, ¬ Opt.ListsSlots o → (values o items).Perm (values o items')
  slots : ∀ o, Opt.ListsSlots o → slotNames o items = slotNames o items'

section Alike

variable {c : Subcommand} {items items' : List Item}

theorem Alike.refl (items : List Item) : Alike items items :=
  ⟨.refl _, fun _ _ => .refl _, fun _ _ => rfl⟩

theorem Alike.symm (h : Alike items items') : Alike items' items :=
  ⟨h.label.symm, fun o ho => (h.single o ho).symm, fun o ho => (h.slots o ho).symm⟩

theorem Alike.of_perm (h : items.Perm items')
    (hslots : ∀ o, Opt.ListsSlots o → values o items = values o items') : Alike items items' := by
  refine ⟨h.filterMap _, fun o _ => h.filterMap _, fun o ho => ?_⟩
  rw [slotNames, slotNames, hslots o ho]

/-- A list of slots that is cut in two gives the same slots. -/
theorem Alike.cut (before after : List Item) {o : Opt} (ho : o.ListsSlots) (v w : String) :
    Alike (before ++ .given o (v ++ "," ++ w) :: after)
      (before ++ .given o v :: .given o w :: after) := by
  have hcut : Text.cut ',' (v ++ "," ++ w) = Text.cut ',' v ++ Text.cut ',' w :=
    Text.cut_append ',' v w
  refine ⟨?_, fun o' ho' => ?_, fun o' _ => ?_⟩
  · rw [labels, labels, List.filterMap_append, List.filterMap_append]
    exact .refl _
  · have hne : o ≠ o' := fun heq => ho' (heq ▸ ho)
    simp [values, Item.value?, hne]
  · by_cases heq : o = o'
    · simp [slotNames, values, Item.value?, heq, hcut]
    · simp [slotNames, values, Item.value?, heq]

theorem eq_of_perm_of_length_le_one {α : Type} {l l' : List α} (h : l.Perm l')
    (hl : l.length ≤ 1) : l = l' := by
  rcases l with _ | ⟨a, _ | ⟨b, l⟩⟩
  · rw [List.nil_perm.1 h]
  · rw [List.singleton_perm.1 h]
  · simp at hl

theorem Opt.not_listsSlots {o : Opt} (h : o = .expected ∨ o = .index) : ¬ o.ListsSlots := by
  rcases h with rfl | rfl <;> rintro (h | h) <;> cases h

theorem Alike.fillable (h : Alike items items') (hitems : Fillable c items) :
    Fillable c items' := by
  refine ⟨?_, ?_, ?_, fun o ho v hv => ?_⟩
  · rw [← h.label.length_eq]
    exact hitems.label
  · rw [← (h.single .expected (Opt.not_listsSlots (.inl rfl))).length_eq]
    exact hitems.expected
  · rw [← (h.single .index (Opt.not_listsSlots (.inr rfl))).length_eq]
    exact hitems.index
  · have hcount : o = .expected ∨ o = .index := ho.symm.imp_left And.left
    exact hitems.counts o ho v ((h.single o (Opt.not_listsSlots hcount)).mem_iff.2 hv)

/-- Such items fill in one and the same form. -/
theorem Alike.ofItems_eq (h : Alike items items') (hitems : Fillable c items) :
    Form.ofItems c items = Form.ofItems c items' := by
  -- Where at most one item may fill in a place, there is no order to be seen.
  have hlabel : labels items = labels items' := eq_of_perm_of_length_le_one h.label hitems.label
  have hexpected : values .expected items = values .expected items' :=
    eq_of_perm_of_length_le_one (h.single _ (Opt.not_listsSlots (.inl rfl))) hitems.expected
  have hindex : values .index items = values .index items' :=
    eq_of_perm_of_length_le_one (h.single _ (Opt.not_listsSlots (.inr rfl))) hitems.index
  have hstack : slotNames .stack items = slotNames .stack items' := h.slots _ (.inl rfl)
  have hdestination : slotNames .destination items = slotNames .destination items' :=
    h.slots _ (.inr rfl)
  unfold slotNames at hstack hdestination
  simp only [Form.ofItems, hlabel, hexpected, hindex, hstack, hdestination]

/-- Words that say such items say the same command. -/
theorem Says.congr {tail tail' : List String} {cmd : Command} (hcommand : Says c tail cmd)
    (h : Alike items items') (htail : Tail c tail items) (htail' : Tail c tail' items') :
    Says c tail' cmd := by
  obtain ⟨_, hitems, hcomplete, hcmd⟩ := hcommand
  obtain rfl := hitems.deterministic htail
  obtain ⟨hfillable, -⟩ := htail.complete_iff.1 hcomplete
  rw [h.ofItems_eq hfillable] at hcmd
  exact ⟨items', htail', htail'.complete_iff.2 ⟨h.fillable hfillable, cmd, hcmd⟩, hcmd⟩

end Alike

/-! ## Phrases -/

/-- The words for one item. -/
inductive Phrase where
  /-- An option with its value attached. -/
  | attached (o : Opt) (value : String)
  /-- An option with its value in the next word. -/
  | separate (o : Opt) (value : String)
  | label (w : String)
  deriving DecidableEq

namespace Phrase

def words : Phrase → List String
  | attached o v => [o.word ++ "=" ++ v]
  | separate o v => [o.word, v]
  | label w => [w]

/-- What a phrase says. -/
def item : Phrase → Item
  | attached o v => .given o v
  | separate o v => .given o v
  | label w => .label w

/-- Whether a phrase may follow subcommand `c` and is read as what it says. -/
def Fits (c : Subcommand) : Phrase → Prop
  | attached o _ => o ∈ c.options
  | separate o v => o ∈ c.options ∧ IsPlain v
  | label w => IsPlain w

instance (c : Subcommand) : DecidablePred (Fits c) := fun
  | attached o _ => inferInstanceAs (Decidable (o ∈ c.options))
  | separate o v => inferInstanceAs (Decidable (o ∈ c.options ∧ IsPlain v))
  | label w => inferInstanceAs (Decidable (IsPlain w))

variable {c : Subcommand}

theorem Fits.tail_append {p : Phrase} (hp : p.Fits c) {ws : List String} {items : List Item}
    (h : Tail c ws items) : Tail c (p.words ++ ws) (p.item :: items) := by
  cases p with
  | attached o v => exact .attached hp v h
  | separate o v => exact .separate hp.1 hp.2 h
  | label w => exact .label hp h

theorem tail_flatMap {ps : List Phrase} (hps : ∀ p ∈ ps, p.Fits c) :
    Tail c (ps.flatMap words) (ps.map item) := by
  induction ps with
  | nil => exact .nil
  | cons p ps ih =>
      obtain ⟨hp, hps⟩ := List.forall_mem_cons.1 hps
      exact hp.tail_append (ih hps)

end Phrase

/-- Without the escape the words after a subcommand are phrases. -/
theorem Tail.exists_phrases {c : Subcommand} {ws : List String} {items : List Item}
    (h : Tail c ws items) (hescape : "--" ∉ ws) :
    ∃ ps : List Phrase, (∀ p ∈ ps, p.Fits c) ∧ ps.flatMap Phrase.words = ws := by
  have hcons {p : Phrase} {ws : List String} (hp : p.Fits c)
      (ih : ∃ ps : List Phrase, (∀ p ∈ ps, p.Fits c) ∧ ps.flatMap Phrase.words = ws) :
      ∃ ps : List Phrase, (∀ p ∈ ps, p.Fits c) ∧ ps.flatMap Phrase.words = p.words ++ ws := by
    obtain ⟨ps, hps, rfl⟩ := ih
    exact ⟨p :: ps, List.forall_mem_cons.2 ⟨hp, hps⟩, rfl⟩
  induction h with
  | nil => exact ⟨[], by simp, rfl⟩
  | @attached o ws items ho v h ih =>
      have hws : "--" ∉ ws := List.not_mem_of_not_mem_cons hescape
      exact hcons (p := .attached o v) ho (ih hws)
  | @separate o v ws items ho hv h ih =>
      have hws : "--" ∉ ws :=
        List.not_mem_of_not_mem_cons (List.not_mem_of_not_mem_cons hescape)
      exact hcons (p := .separate o v) ⟨ho, hv⟩ (ih hws)
  | @label w ws items hw h ih =>
      have hws : "--" ∉ ws := List.not_mem_of_not_mem_cons hescape
      exact hcons (p := .label w) hw (ih hws)
  | escape ws => exact absurd List.mem_cons_self hescape

/-! ## Command lines without the escape -/

/-- A command line without the escape. -/
structure Line where
  flags : List Flag
  subcommand : Subcommand
  phrases : List Phrase

namespace Line

def words (l : Line) : List String :=
  l.flags.map Flag.word ++ l.subcommand.name :: l.phrases.flatMap Phrase.words

def items (l : Line) : List Item :=
  l.phrases.map Phrase.item

def Fits (l : Line) : Prop :=
  ∀ p ∈ l.phrases, p.Fits l.subcommand

instance : DecidablePred Fits := fun l =>
  inferInstanceAs (Decidable (∀ p ∈ l.phrases, p.Fits l.subcommand))

end Line

theorem Accepted.exists_line {ws : List String} (h : Accepted ws) (hescape : "--" ∉ ws) :
    ∃ l : Line, l.Fits ∧ l.words = ws := by
  obtain @⟨flags, c, tail, items, -, -, htail, -⟩ := h
  obtain ⟨ps, hps, rfl⟩ := htail.exists_phrases fun hmem =>
    hescape (List.mem_append_right _ (List.mem_cons_of_mem _ hmem))
  exact ⟨⟨flags, c, ps⟩, hps, rfl⟩

/-- One change of the wording. -/
inductive Reworded : Line → Line → Prop
  | flags {flags flags' : List Flag} {c : Subcommand} {ps : List Phrase}
      (h : flags.Perm flags') : Reworded ⟨flags, c, ps⟩ ⟨flags', c, ps⟩
  /-- The phrases are put in another order, in which the values of an option that lists slots still
  follow one another as they did. -/
  | phrases {flags : List Flag} {c : Subcommand} {ps qs : List Phrase} (h : ps.Perm qs)
      (hslots : ∀ o, Opt.ListsSlots o →
        values o (ps.map Phrase.item) = values o (qs.map Phrase.item)) :
      Reworded ⟨flags, c, ps⟩ ⟨flags, c, qs⟩
  | attach {flags : List Flag} {c : Subcommand} (before : List Phrase) (o : Opt) (v : String)
      (after : List Phrase) :
      Reworded ⟨flags, c, before ++ .separate o v :: after⟩
        ⟨flags, c, before ++ .attached o v :: after⟩
  | split {flags : List Flag} {c : Subcommand} (before : List Phrase) {o : Opt}
      (ho : o.ListsSlots) (v w : String) (after : List Phrase) :
      Reworded ⟨flags, c, before ++ .attached o (v ++ "," ++ w) :: after⟩
        ⟨flags, c, before ++ .attached o v :: .attached o w :: after⟩
  | merge {flags : List Flag} {c : Subcommand} (before : List Phrase) {o : Opt}
      (ho : o.ListsSlots) (v w : String) (after : List Phrase) :
      Reworded ⟨flags, c, before ++ .attached o v :: .attached o w :: after⟩
        ⟨flags, c, before ++ .attached o (v ++ "," ++ w) :: after⟩

namespace Reworded

variable {l l' : Line} {o : Outcome}

theorem subcommand_eq (h : Reworded l l') : l.subcommand = l'.subcommand := by
  cases h <;> rfl

theorem flags_perm (h : Reworded l l') : l.flags.Perm l'.flags := by
  cases h with
  | flags h => exact h
  | _ => exact .refl _

theorem fits (h : Reworded l l') (hl : l.Fits) : l'.Fits := by
  cases h with
  | flags h => exact hl
  | phrases h _ => exact fun p hp => hl p (h.mem_iff.2 hp)
  | attach before o v after =>
      simp only [Line.Fits, List.forall_mem_append, List.forall_mem_cons] at hl ⊢
      obtain ⟨hbefore, hp, hafter⟩ := hl
      exact ⟨hbefore, hp.1, hafter⟩
  | split before ho v w after =>
      simp only [Line.Fits, List.forall_mem_append, List.forall_mem_cons] at hl ⊢
      obtain ⟨hbefore, hp, hafter⟩ := hl
      exact ⟨hbefore, hp, hp, hafter⟩
  | merge before ho v w after =>
      simp only [Line.Fits, List.forall_mem_append, List.forall_mem_cons] at hl ⊢
      obtain ⟨hbefore, hp, -, hafter⟩ := hl
      exact ⟨hbefore, hp, hafter⟩

theorem alike (h : Reworded l l') : Alike l.items l'.items := by
  cases h with
  | flags _ => exact .refl _
  | phrases h hslots => exact .of_perm (h.map _) hslots
  | attach before o v after =>
      rw [Line.items, Line.items, List.map_append, List.map_append]
      exact .refl _
  | split before ho v w after =>
      rw [Line.items, Line.items, List.map_append, List.map_append]
      exact .cut _ _ ho v w
  | merge before ho v w after =>
      rw [Line.items, Line.items, List.map_append, List.map_append]
      exact (Alike.cut _ _ ho v w).symm

/-- One change: what was carried out still is, and with the same outcome. -/
theorem answer_eq (h : Reworded l l') (hl : l.Fits) (ho : execute l.words = .ok (.ran o)) :
    execute l'.words = .ok (.ran o) := by
  obtain ⟨hflags, -⟩ := execute_words_eq_ran_iff.1 ho
  have hmem (f : Flag) : f ∈ l.flags ↔ f ∈ l'.flags := h.flags_perm.mem_iff
  have hshown (f : Finding) : present l.flags f = present l'.flags f :=
    present_congr (hmem _) (hmem _) (fun _ => hmem _) f
  -- First the flags, under the old phrases; then what the phrases say.
  obtain ⟨hflags', cmd, hsays, hrun⟩ :=
    execute_words_eq_ran_iff.1 (execute_congr (hflags.perm h.flags_perm) hshown ho)
  have htail : Tail l.subcommand (l.phrases.flatMap Phrase.words) l.items := Phrase.tail_flatMap hl
  have htail' : Tail l.subcommand (l'.phrases.flatMap Phrase.words) l'.items := by
    rw [h.subcommand_eq]
    exact Phrase.tail_flatMap (h.fits hl)
  rw [Line.words, ← h.subcommand_eq]
  exact execute_words_eq_ran_iff.2 ⟨hflags', cmd, hsays.congr h.alike htail htail', hrun⟩

end Reworded

/-- Any number of changes. -/
theorem Line.answer_eq_of_reworded {l l' : Line} {o : Outcome}
    (h : Relation.ReflTransGen Reworded l l') (hl : l.Fits)
    (ho : execute l.words = .ok (.ran o)) : l'.Fits ∧ execute l'.words = .ok (.ran o) := by
  induction h with
  | refl => exact ⟨hl, ho⟩
  | tail _ h ih =>
      obtain ⟨hfits, hran⟩ := ih
      exact ⟨h.fits hfits, h.answer_eq hfits hran⟩

/-- A command line without the escape that is accepted is made of flags, a subcommand and phrases,
and however these are reworded it is accepted as well and answered alike. -/
theorem execute_reworded {ws : List String} (hws : Accepted ws) (hescape : "--" ∉ ws) :
    (∃ l : Line, l.Fits ∧ l.words = ws) ∧ ∃ o, execute ws = .ok (.ran o) ∧
      ∀ l l' : Line, l.Fits → l.words = ws → Relation.ReflTransGen Reworded l l' →
        Accepted l'.words ∧ execute l'.words = .ok (.ran o) := by
  obtain ⟨i, hread⟩ := Invocation.exists_read_iff.2 hws
  obtain ⟨o, hrun⟩ := Invocation.exists_outcome (Invocation.vetted_of_read hread)
  have ho : execute ws = .ok (.ran o) := execute_eq_ran_iff.2 ⟨i, hread, hrun⟩
  refine ⟨hws.exists_line hescape, o, ho, fun l l' hl hwords h => ?_⟩
  subst hwords
  obtain ⟨-, ho'⟩ := Line.answer_eq_of_reworded h hl ho
  obtain ⟨i', hread', -⟩ := execute_eq_ran_iff.1 ho'
  exact ⟨Invocation.exists_read_iff.1 ⟨i', hread'⟩, ho'⟩

/-- All changes one after the other: a value is attached, the list of slots is cut at its comma, the
phrases are mixed, the list is put together at the other comma, and the flags trade places. -/
theorem execute_reworded_other_comma :
    let ws := ["--trace", "--color", "type-mismatch", "--stack=A,B", "Add", "--expected=-",
      "--stack", "C", "--index=+2"]
    let ws' := ["--color", "--trace", "type-mismatch", "--index=+2", "--stack=A", "--expected=-",
      "--stack=B,C", "Add"]
    let o : Outcome := { exitCode := 0, stdout := "Add expected a -; found C\n", stderr := "" }
    Accepted ws ∧ "--" ∉ ws ∧ Accepted ws' ∧
      execute ws = .ok (.ran o) ∧ execute ws' = .ok (.ran o) := by
  intro ws ws' o
  let given : List Phrase := [.attached .stack "A,B", .label "Add", .attached .expected "-",
    .separate .stack "C", .attached .index "+2"]
  let attached : List Phrase := [.attached .stack "A,B", .label "Add", .attached .expected "-",
    .attached .stack "C", .attached .index "+2"]
  let cut : List Phrase := [.attached .stack "A", .attached .stack "B", .label "Add",
    .attached .expected "-", .attached .stack "C", .attached .index "+2"]
  let mixed : List Phrase := [.attached .index "+2", .attached .stack "A",
    .attached .expected "-", .attached .stack "B", .attached .stack "C", .label "Add"]
  let merged : List Phrase := [.attached .index "+2", .attached .stack "A",
    .attached .expected "-", .attached .stack "B,C", .label "Add"]
  let line (ps : List Phrase) : Line := ⟨[.trace, .color], .typeMismatch, ps⟩
  have hattach : Reworded (line given) (line attached) := .attach [_, _, _] .stack "C" [_]
  have hsplit : Reworded (line attached) (line cut) := .split [] (.inl rfl) "A" "B" [_, _, _, _]
  have hmix : Reworded (line cut) (line mixed) :=
    .phrases (by decide) (by rintro o (rfl | rfl) <;> rfl)
  have hmerge : Reworded (line mixed) (line merged) := .merge [_, _, _] (.inl rfl) "B" "C" [_]
  have hflags : Reworded (line merged) ⟨[.color, .trace], .typeMismatch, merged⟩ :=
    .flags (by decide)
  have ho : execute ws = .ok (.ran o) := by decide
  obtain ⟨i, hread, -⟩ := execute_eq_ran_iff.1 ho
  have hws : Accepted ws := Invocation.exists_read_iff.1 ⟨i, hread⟩
  have hescape : "--" ∉ ws := by decide
  have hfits : (line given).Fits := by decide
  obtain ⟨-, o', ho', hreworded⟩ := execute_reworded hws hescape
  obtain rfl : o = o' := Answer.ran.inj (Except.ok.inj (ho.symm.trans ho'))
  obtain ⟨hws', hsame⟩ := hreworded _ _ hfits rfl
    (.tail (.tail (.tail (.tail (.single hattach) hsplit) hmix) hmerge) hflags)
  exact ⟨hws, hescape, hws', ho, hsame⟩

end StackVerdict.CommandLine
