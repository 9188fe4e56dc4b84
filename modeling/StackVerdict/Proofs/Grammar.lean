import StackVerdict.Proofs.Items
import StackVerdict.Proofs.Run

/-!
# The grammar of command lines

A command line that is carried out is a list of different flags, a subcommand and words that say its
items, of which none is missing (`Accepted`).  The reader takes just these command lines, and all
others are refused (`execute_iff_accepted`).
-/

namespace StackVerdict.CommandLine

/-- The items that subcommand `c` needs: one label, its options as often as they must be there, and
a number where it takes one. -/
structure Complete (c : Subcommand) (items : List Item) : Prop where
  label : (labels items).length = 1
  expected : c ≠ .stackMismatch → (values .expected items).length = 1
  index : c = .typeMismatch → (values .index items).length = 1
  stack : c = .typeMismatch → values .stack items ≠ []
  counts : ∀ o, c.TakesCount o → ∀ v ∈ values o items, Text.WritesCount v

/-- The command lines that are carried out. -/
inductive Accepted : List String → Prop
  | intro {flags : List Flag} {c : Subcommand} {tail : List String} {items : List Item}
      (hflags : flags.Nodup) (hshown : ¬ (.dump ∈ flags ∧ .diagnostic ∈ flags))
      (htail : Tail c tail items) (hitems : Complete c items) :
      Accepted (flags.map Flag.word ++ c.name :: tail)

/-- Where the flags end the subcommand begins. -/
theorem flags_append_inj {flags flags' : List Flag} {c d : Subcommand} {tail tail' : List String}
    (h : flags.map Flag.word ++ c.name :: tail = flags'.map Flag.word ++ d.name :: tail') :
    flags = flags' ∧ c = d ∧ tail = tail' := by
  induction flags generalizing flags' with
  | nil =>
      cases flags' with
      | nil =>
          obtain ⟨hname, htail⟩ := List.cons.inj h
          exact ⟨rfl, Subcommand.name_injective hname, htail⟩
      | cons g flags' => exact absurd (List.cons.inj h).1.symm (g.word_ne_name c)
  | cons f flags ih =>
      cases flags' with
      | nil => exact absurd (List.cons.inj h).1 (f.word_ne_name d)
      | cons g flags' =>
          obtain ⟨hword, hrest⟩ := List.cons.inj h
          obtain ⟨rfl, hc, htail⟩ := ih hrest
          exact ⟨by rw [Flag.word_injective hword], hc, htail⟩

/-! ## Items that are complete -/

section Complete

variable {c : Subcommand} {items : List Item}

/-- The words after a subcommand give values to its own options only. -/
theorem Tail.values_eq_nil {ws : List String} (h : Tail c ws items) {o : Opt}
    (ho : o ∉ c.options) : values o items = [] := by
  have hother : ∀ {o' : Opt} (v : String) (items : List Item), o' ∈ c.options →
      values o (.given o' v :: items) = values o items := by
    intro o' v items ho'
    have hne : o' ≠ o := fun heq => ho (heq ▸ ho')
    simp [values, Item.value?, hne]
  induction h with
  | nil => rfl
  | attached ho' v _ ih => rw [hother v _ ho', ih]
  | separate ho' _ _ ih => rw [hother _ _ ho', ih]
  | label _ _ ih => exact ih
  | escape ws => simp [values, Item.value?]

theorem Form.exists_draft_iff {f : Form} :
    (∃ d, f.draft? c = some d) ↔
      (c = .underflow ∨ c = .stackSize → f.needed ≠ none) ∧
        (c = .typeMismatch → f.expected ≠ none ∧ f.index ≠ none ∧ f.stack ≠ []) := by
  obtain ⟨label, needed, expected, index, stack, destination⟩ := f
  cases c with
  | underflow => cases needed <;> simp [draft?]
  | typeMismatch =>
      rcases expected with _ | e
      · simp [draft?]
      · rcases index with _ | i
        · simp [draft?]
        · cases stack <;> simp [draft?]
  | stackMismatch => simp [draft?]
  | stackSize => cases needed <;> simp [draft?]

theorem Form.exists_command_iff {f : Form} :
    (∃ cmd, f.command c = .ok cmd) ↔ f.label ≠ none ∧ ∃ d, f.draft? c = some d := by
  rw [Option.ne_none_iff_exists']
  constructor
  · rintro ⟨cmd, h⟩
    obtain ⟨hlabel, hdraft⟩ := command_eq_ok_iff.1 h
    exact ⟨⟨_, hlabel⟩, _, hdraft⟩
  · rintro ⟨⟨label, hlabel⟩, d, hdraft⟩
    exact ⟨⟨label, d⟩, command_eq_ok_iff.2 ⟨hlabel, hdraft⟩⟩

/-- Nothing is missing where the items that must be there are there. -/
theorem Fillable.exists_command_iff (h : Fillable c items) :
    (∃ cmd, (Form.ofItems c items).command c = .ok cmd) ↔
      labels items ≠ [] ∧ (c ≠ .stackMismatch → values .expected items ≠ []) ∧
        (c = .typeMismatch → values .index items ≠ [] ∧ values .stack items ≠ []) := by
  have hlabel : (Form.ofItems c items).label = none ↔ labels items = [] := List.head?_eq_none_iff
  have hindex : (Form.ofItems c items).index = none ↔ values .index items = [] :=
    Form.head?_bind_readCount?_eq_none_iff (h.counts _ (.inl rfl))
  have hstack : (Form.ofItems c items).stack = [] ↔ values .stack items = [] := by
    show (values .stack items).flatMap (Text.cut ',') = [] ↔ _
    rw [List.flatMap_eq_nil_iff, List.eq_nil_iff_forall_not_mem]
    simp [Text.cut_ne_nil]
  simp only [Form.exists_command_iff, Form.exists_draft_iff, ne_eq, hlabel, hindex, hstack]
  by_cases hc : c = .typeMismatch
  · subst hc
    have hexpected : (Form.ofItems .typeMismatch items).expected = none ↔
        values .expected items = [] := List.head?_eq_none_iff
    simp [hexpected]
  · have hneeded : (Form.ofItems c items).needed = none ↔ values .expected items = [] := by
      show (if c = .typeMismatch then _ else _) = none ↔ _
      rw [if_neg hc]
      exact Form.head?_bind_readCount?_eq_none_iff (h.counts _ (.inr ⟨rfl, hc⟩))
    have hcases : c = .underflow ∨ c = .stackSize ↔ c ≠ .stackMismatch := by
      cases c <;> simp at hc ⊢
    simp [hc, hneeded, hcases]

/-- Items are complete just where they can be filled in and nothing is missing then. -/
theorem Tail.complete_iff {ws : List String} (h : Tail c ws items) :
    Complete c items ↔ Fillable c items ∧ ∃ cmd, (Form.ofItems c items).command c = .ok cmd := by
  constructor
  · rintro ⟨hlabel, hexpected, hindex, hstack, hcounts⟩
    -- An option that need not be there is not there at all: the subcommand does not have it.
    have hfillable : Fillable c items := by
      refine ⟨by omega, ?_, ?_, hcounts⟩
      · by_cases hc : c = .stackMismatch
        · have hoption : Opt.expected ∉ c.options := by rw [hc]; decide
          simp [h.values_eq_nil hoption]
        · exact (hexpected hc).le
      · by_cases hc : c = .typeMismatch
        · exact (hindex hc).le
        · have hoption : Opt.index ∉ c.options := by cases c <;> simp [Subcommand.options] at hc ⊢
          simp [h.values_eq_nil hoption]
    refine ⟨hfillable, hfillable.exists_command_iff.2 ⟨?_, fun hc => ?_, fun hc => ⟨?_, hstack hc⟩⟩⟩
    · exact List.ne_nil_of_length_pos (by omega)
    · exact List.ne_nil_of_length_pos (by rw [hexpected hc]; omega)
    · exact List.ne_nil_of_length_pos (by rw [hindex hc]; omega)
  · rintro ⟨hfillable, hcmd⟩
    obtain ⟨hlabel, hexpected, hrest⟩ := hfillable.exists_command_iff.1 hcmd
    have hone : ∀ {l : List String}, l.length ≤ 1 → l ≠ [] → l.length = 1 := by
      intro l hle hne
      have := List.length_pos_iff.2 hne
      omega
    exact ⟨hone hfillable.label hlabel, fun hc => hone hfillable.expected (hexpected hc),
      fun hc => hone hfillable.index (hrest hc).1, fun hc => (hrest hc).2, hfillable.counts⟩

end Complete

/-! ## Reading a command line -/

namespace Invocation

variable {flags : List Flag} {i : Invocation}

theorem ofTail_eq_ok_iff {c : Subcommand} {ws : List String} :
    ofTail flags c ws = .ok i ↔
      ¬ (.dump ∈ flags ∧ .diagnostic ∈ flags) ∧ i.flags = flags ∧
        ∃ items, Tail c ws items ∧ Fillable c items ∧
          (Form.ofItems c items).command c = .ok i.command := by
  unfold ofTail
  simp only [bind_eq_ok_iff, Form.readTail_eq_ok_iff, Form.enterAll_eq_ok_iff]
  constructor
  · rintro ⟨_, ⟨items, htail, hfillable, rfl⟩, cmd, hcmd, hi⟩
    split_ifs at hi with hshown
    obtain rfl := Except.ok.inj hi
    exact ⟨hshown, rfl, items, htail, hfillable, hcmd⟩
  · rintro ⟨hshown, rfl, items, htail, hfillable, hcmd⟩
    exact ⟨_, ⟨items, htail, hfillable, rfl⟩, _, hcmd, if_neg hshown⟩

/-- A word in front of the tail is a flag that was not yet given, or the subcommand. -/
theorem readFrom_cons_eq_ok_iff {w : String} {ws : List String} :
    readFrom flags (w :: ws) = .ok i ↔
      (∃ f, w = f.word ∧ f ∉ flags ∧ readFrom (flags ++ [f]) ws = .ok i) ∨
      (∃ c, w = Subcommand.name c ∧ ofTail flags c ws = .ok i) := by
  constructor
  · intro h
    unfold readFrom at h
    split at h
    · cases h
    · next name value hw =>
      split at h
      · next f hf =>
        obtain rfl := Flag.ofName?_eq_some_iff.1 hf
        split_ifs at h with hmem
        exact .inl ⟨f, (Word.ofString_eq_long_none_iff.1 hw).1, hmem, h⟩
      · cases h
      · split_ifs at h
      · split_ifs at h
    · split_ifs at h
    · split_ifs at h with hhelp
      split at h
      · next c hc => exact .inr ⟨c, Subcommand.ofName?_eq_some_iff.1 hc, h⟩
      · cases h
  · rintro (⟨f, rfl, hmem, h⟩ | ⟨c, rfl, h⟩)
    · unfold readFrom
      simp only [f.ofString_word, Flag.ofName?_eq_some_iff.2 rfl, if_neg hmem, h]
    · have hhelp : c.name ≠ "help" := by cases c <;> decide
      unfold readFrom
      simp only [Word.ofString_eq_plain_iff.2 c.isPlain_name, if_neg hhelp,
        Subcommand.ofName?_eq_some_iff.2 rfl, h]

/-- Flags that were not yet given are read one after the other, up to the subcommand. -/
theorem readFrom_eq_ok_iff {ws : List String} :
    readFrom flags ws = .ok i ↔
      ∃ more c tail, ws = more.map Flag.word ++ Subcommand.name c :: tail ∧ more.Nodup ∧
        (∀ f ∈ more, f ∉ flags) ∧ ofTail (flags ++ more) c tail = .ok i := by
  induction ws generalizing flags with
  | nil => simp [readFrom]
  | cons w ws ih =>
      rw [readFrom_cons_eq_ok_iff]
      constructor
      · rintro (⟨f, rfl, hmem, h⟩ | ⟨c, rfl, h⟩)
        · obtain ⟨more, c, tail, rfl, hnodup, hdisjoint, hread⟩ := ih.1 h
          have hf : f ∉ more := fun hmore => hdisjoint f hmore (by simp)
          refine ⟨f :: more, c, tail, rfl, List.nodup_cons.2 ⟨hf, hnodup⟩, ?_, by simpa using hread⟩
          intro g hg
          rcases List.mem_cons.1 hg with rfl | hg
          · exact hmem
          · exact fun hgflags => hdisjoint g hg (List.mem_append_left _ hgflags)
        · exact ⟨[], c, ws, rfl, List.nodup_nil, by simp, by simpa using h⟩
      · rintro ⟨_ | ⟨f, more⟩, c, tail, hws, hnodup, hdisjoint, hread⟩
        · obtain ⟨rfl, rfl⟩ := List.cons.inj hws
          exact .inr ⟨c, rfl, by simpa using hread⟩
        · obtain ⟨rfl, rfl⟩ := List.cons.inj hws
          obtain ⟨hf, hnodup⟩ := List.nodup_cons.1 hnodup
          refine .inl ⟨f, rfl, hdisjoint f List.mem_cons_self,
            ih.2 ⟨more, c, tail, rfl, hnodup, ?_, by simpa using hread⟩⟩
          intro g hg hgflags
          rcases List.mem_append.1 hgflags with hgflags | hgflags
          · exact hdisjoint g (List.mem_cons_of_mem _ hg) hgflags
          · exact hf (List.mem_singleton.1 hgflags ▸ hg)

theorem read_eq_ok_iff {ws : List String} :
    read ws = .ok i ↔
      ∃ c tail items, ws = i.flags.map Flag.word ++ Subcommand.name c :: tail ∧ i.flags.Nodup ∧
        ¬ (.dump ∈ i.flags ∧ .diagnostic ∈ i.flags) ∧ Tail c tail items ∧ Complete c items ∧
        (Form.ofItems c items).command c = .ok i.command := by
  rw [read, readFrom_eq_ok_iff]
  constructor
  · rintro ⟨flags, c, tail, rfl, hnodup, -, hread⟩
    obtain ⟨hshown, hflags, items, htail, hfillable, hcmd⟩ := ofTail_eq_ok_iff.1 hread
    obtain rfl : i.flags = flags := hflags
    exact ⟨c, tail, items, rfl, hnodup, hshown, htail,
      htail.complete_iff.2 ⟨hfillable, _, hcmd⟩, hcmd⟩
  · rintro ⟨c, tail, items, rfl, hnodup, hshown, htail, hcomplete, hcmd⟩
    exact ⟨i.flags, c, tail, rfl, hnodup, by simp, ofTail_eq_ok_iff.2
      ⟨hshown, rfl, items, htail, (htail.complete_iff.1 hcomplete).1, hcmd⟩⟩

theorem exists_read_iff {ws : List String} : (∃ i, read ws = .ok i) ↔ Accepted ws := by
  constructor
  · rintro ⟨i, hread⟩
    obtain ⟨c, tail, items, rfl, hnodup, hshown, htail, hcomplete, -⟩ := read_eq_ok_iff.1 hread
    exact .intro hnodup hshown htail hcomplete
  · rintro ⟨hflags, hshown, htail, hitems⟩
    obtain ⟨-, cmd, hcmd⟩ := htail.complete_iff.1 hitems
    exact ⟨⟨_, cmd⟩, read_eq_ok_iff.2 ⟨_, _, _, rfl, hflags, hshown, htail, hitems, hcmd⟩⟩

/-- The slot of a command that is read is looked at. -/
theorem vetted_of_read {ws : List String} (h : read ws = .ok i) : i.command.draft.Vetted := by
  obtain ⟨c, tail, items, -, -, -, -, -, hcmd⟩ := read_eq_ok_iff.1 h
  exact Form.vetted_of_draft? (Form.command_eq_ok_iff.1 hcmd).2

end Invocation

/-! ## What is carried out -/

theorem execute_eq_ran_iff {ws : List String} {o : Outcome} :
    execute ws = .ok (.ran o) ↔ ∃ i, Invocation.read ws = .ok i ∧ i.run = .ok o := by
  unfold execute
  cases Invocation.read ws with
  | error why => simp
  | ok i => simp [bind_eq_ok_iff, pure, Except.pure]

theorem execute_eq_refused_iff {ws : List String} {why : Refusal} :
    execute ws = .ok (.refused why) ↔ Invocation.read ws = .error why := by
  unfold execute
  cases Invocation.read ws with
  | error why => simp
  | ok i => simp [bind_eq_ok_iff, pure, Except.pure]

/-- The command lines of the grammar are carried out, and all others are refused. -/
theorem execute_iff_accepted (ws : List String) :
    ((∃ o, execute ws = .ok (.ran o)) ↔ Accepted ws) ∧
      ((∃ why, execute ws = .ok (.refused why)) ↔ ¬ Accepted ws) := by
  simp only [execute_eq_ran_iff, execute_eq_refused_iff, ← Invocation.exists_read_iff]
  cases hread : Invocation.read ws with
  | error why => simp
  | ok i =>
      obtain ⟨o, ho⟩ := Invocation.exists_outcome (Invocation.vetted_of_read hread)
      simp [ho]

/-- The largest number that is read, and the one above it. -/
example :
    execute ["underflow", "Add", "--expected=18446744073709551615"] = .ok (.ran
      { exitCode := 0, stdout := "Add expects 18446744073709551615 values on the stack\n",
        stderr := "" }) ∧
    execute ["underflow", "Add", "--expected=18446744073709551616"] =
      .ok (.refused .invalidCount) := by
  decide

end StackVerdict.CommandLine
