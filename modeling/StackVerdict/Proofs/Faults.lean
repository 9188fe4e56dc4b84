import StackVerdict.Proofs.Drafts
import StackVerdict.Proofs.Grammar

/-!
# Command lines with a fault

The draft of a command holds the names that the items give, those of repeated lists one after the
other (`names_of_draft?`), and points at the slot that they give (`slotFault?_of_draft?`).  So the
items tell whether there is a fault, and which: an empty name, or a slot outside the stack.  A
command line that is accepted is carried out either way: a fault is reported, and without one the
finding is shown (`execute_reports`).
-/

namespace StackVerdict.CommandLine

/-- The names of slots that the items list for option `o`. -/
def slotNames (o : Opt) (items : List Item) : List String :=
  (values o items).flatMap (Text.cut ',')

/-- The names of types that the items of subcommand `c` give, in the order of their reading. -/
def typeNames (c : Subcommand) (items : List Item) : List String :=
  (if c = .typeMismatch then values .expected items else []) ++
    (slotNames .stack items ++ slotNames .destination items)

/-- The items of a type mismatch point at slot `i`, and their stack is not that high. -/
structure PointsOutside (c : Subcommand) (items : List Item) (i : Nat) : Prop where
  mismatch : c = .typeMismatch
  index : ∃ v ∈ values .index items, Text.readCount? v = some i
  height : (slotNames .stack items).length ≤ i

/-- What is wrong with the names and the slot that the items give. -/
def Faulty (c : Subcommand) (items : List Item) : Prop :=
  "" ∈ typeNames c items ∨ ∃ i, PointsOutside c items i

section Draft

variable {c : Subcommand} {items : List Item} {tail : List String} {d : Draft}

/-- The draft of a type mismatch, whose items are given once each but for the lists. -/
theorem exists_of_draft?_typeMismatch (hitems : Complete .typeMismatch items)
    (h : (Form.ofItems .typeMismatch items).draft? .typeMismatch = some d) :
    ∃ expected v index, values .expected items = [expected] ∧ values .index items = [v] ∧
      Text.readCount? v = some index ∧
      d = .checkedMismatch expected (.ofNames (slotNames .stack items)) index := by
  obtain ⟨expected, hexpected⟩ := List.length_eq_one_iff.1 (hitems.expected (by decide))
  obtain ⟨v, hv⟩ := List.length_eq_one_iff.1 (hitems.index rfl)
  have hform : Form.ofItems .typeMismatch items =
      { label := (labels items).head?, expected, index := Text.readCount? v,
        stack := slotNames .stack items, destination := slotNames .destination items } := by
    simp [Form.ofItems, hexpected, hv, slotNames]
  rw [hform, Form.draft?] at h
  split at h
  · next e index name names he hindex hstack =>
    obtain rfl := Option.some.inj he
    obtain rfl := Option.some.inj h
    exact ⟨expected, v, index, hexpected, hv, hindex, by rw [← hstack]⟩
  · cases h

/-- A draft holds the names that the items give. -/
theorem names_of_draft? (htail : Tail c tail items) (hitems : Complete c items)
    (h : (Form.ofItems c items).draft? c = some d) : d.names = typeNames c items := by
  cases c with
  | underflow =>
      have hdestination : values .destination items = [] := htail.values_eq_nil (by decide)
      obtain ⟨n, -, rfl⟩ := Option.map_eq_some_iff.1 h
      simp [Draft.names, Listing.ofNames, typeNames, slotNames, Form.ofItems, hdestination]
  | typeMismatch =>
      have hdestination : values .destination items = [] := htail.values_eq_nil (by decide)
      obtain ⟨expected, v, index, hexpected, -, -, rfl⟩ := exists_of_draft?_typeMismatch hitems h
      simp [Draft.names, Listing.ofNames, typeNames, hexpected, slotNames, hdestination]
  | stackMismatch =>
      obtain rfl := Option.some.inj h
      simp [Draft.names, Listing.ofNames, typeNames, slotNames, Form.ofItems]
  | stackSize =>
      have hdestination : values .destination items = [] := htail.values_eq_nil (by decide)
      obtain ⟨n, -, rfl⟩ := Option.map_eq_some_iff.1 h
      simp [Draft.names, Listing.ofNames, typeNames, slotNames, Form.ofItems, hdestination]

/-- A draft points at the slot that the items give. -/
theorem slotFault?_of_draft? (hitems : Complete c items)
    (h : (Form.ofItems c items).draft? c = some d) {e : InputError} :
    d.slotFault? = some e ↔
      ∃ i, PointsOutside c items i ∧ e = .slotOutOfBounds i (slotNames .stack items).length := by
  by_cases hc : c = .typeMismatch
  · subst hc
    obtain ⟨expected, v, index, -, hv, hindex, rfl⟩ := exists_of_draft?_typeMismatch hitems h
    rw [Draft.slotFault?_checkedMismatch]
    constructor
    · rintro ⟨hheight, rfl⟩
      exact ⟨index, ⟨rfl, ⟨v, by simp [hv], hindex⟩, hheight⟩, rfl⟩
    · rintro ⟨i, ⟨-, ⟨u, hu, hi⟩, hheight⟩, rfl⟩
      rw [hv, List.mem_singleton] at hu
      rw [hu, hindex, Option.some.injEq] at hi
      subst hi
      exact ⟨hheight, rfl⟩
  · have hnone : d.slotFault? = none := by
      cases c with
      | typeMismatch => exact absurd rfl hc
      | stackMismatch =>
          obtain rfl := Option.some.inj h
          rfl
      | _ =>
          obtain ⟨n, -, rfl⟩ := Option.map_eq_some_iff.1 h
          rfl
    rw [hnone]
    constructor
    · intro hnot
      cases hnot
    · rintro ⟨i, hi, -⟩
      exact absurd hi.mismatch hc

end Draft

/-! ## What is reported -/

theorem report_slotOutOfBounds (index height : Nat) :
    (InputError.slotOutOfBounds index height).report =
      "Error: slot " ++ index.repr ++ " is out of bounds for stack of " ++ height.repr ++
        " value(s)\n" := by
  have hstart : "Error: slot " = "Error: " ++ "slot " := rfl
  have hend : " value(s)\n" = " value(s)" ++ "\n" := rfl
  show "Error: " ++ ("slot " ++ index.repr ++ " is out of bounds for stack of " ++ height.repr ++
    " value(s)") ++ "\n" = _
  simp only [hstart, hend, String.append_assoc]

section Report

variable {c : Subcommand} {tail : List String} {items : List Item}

/-- The draft cannot be read just where the items have a fault, and an empty name goes before a slot
outside the stack. -/
theorem read_draft_eq_error_iff (htail : Tail c tail items) (hitems : Complete c items) {d : Draft}
    (h : (Form.ofItems c items).draft? c = some d) {e : InputError} :
    d.read = .error e ↔
      "" ∈ typeNames c items ∧ e = .emptyTypeName ∨
      "" ∉ typeNames c items ∧
        ∃ i, PointsOutside c items i ∧ e = .slotOutOfBounds i (slotNames .stack items).length := by
  rw [Draft.read_eq_error_iff, Draft.fault?_eq_some_iff, names_of_draft? htail hitems h,
    slotFault?_of_draft? hitems h]

theorem exists_read_draft_eq_error_iff (htail : Tail c tail items) (hitems : Complete c items)
    {d : Draft} (h : (Form.ofItems c items).draft? c = some d) :
    (∃ e, d.read = .error e) ↔ Faulty c items := by
  simp only [read_draft_eq_error_iff htail hitems h, Faulty]
  constructor
  · rintro ⟨e, ⟨hname, -⟩ | ⟨-, i, hi, -⟩⟩
    · exact .inl hname
    · exact .inr ⟨i, hi⟩
  · intro hfault
    by_cases hname : "" ∈ typeNames c items
    · exact ⟨_, .inl ⟨hname, rfl⟩⟩
    · obtain ⟨i, hi⟩ := hfault.resolve_left hname
      exact ⟨_, .inr ⟨hname, i, hi, rfl⟩⟩

/-- A command line that is read is carried out, whatever its flags are: its exit code is 1 and
nothing is shown where a name is empty or the slot is outside the stack, and 0 otherwise.  An empty
name is reported also where the slot is outside as well. -/
theorem execute_reports {ws : List String} {i : Invocation} (hread : Invocation.read ws = .ok i) :
    ∃ c tail items, ws = i.flags.map Flag.word ++ Subcommand.name c :: tail ∧ Tail c tail items ∧
      Complete c items ∧ ∃ o, execute ws = .ok (.ran o) ∧
      (o.exitCode = 1 ∧ o.stdout = "" ↔ Faulty c items) ∧
      (o.exitCode = 0 ∧ o.stderr = "" ↔ ¬ Faulty c items) ∧
      ("" ∈ typeNames c items →
        o.stderr = "Error: invalid type name\n\nCaused by:\n" ++
          "    type descriptor must have a non-empty display name\n") ∧
      ∀ n, "" ∉ typeNames c items → PointsOutside c items n →
        o.stderr = "Error: slot " ++ n.repr ++ " is out of bounds for stack of " ++
          (slotNames .stack items).length.repr ++ " value(s)\n" := by
  obtain ⟨c, tail, items, hwords, -, -, htail, hitems, hcmd⟩ := Invocation.read_eq_ok_iff.1 hread
  have hdraft := (Form.command_eq_ok_iff.1 hcmd).2
  have herror := fun e => read_draft_eq_error_iff htail hitems hdraft (e := e)
  have hfaulty := exists_read_draft_eq_error_iff htail hitems hdraft
  refine ⟨c, tail, items, hwords, htail, hitems, ?_⟩
  cases hv : i.command.draft.read with
  | error e =>
      have hfault : Faulty c items := hfaulty.1 ⟨e, hv⟩
      refine ⟨_, execute_eq_ran_iff.2 ⟨i, hread, Invocation.run_of_error hv⟩, by simp [hfault],
        by simp [hfault], fun hname => ?_, fun n hname hn => ?_⟩
      · have hempty := (herror _).2 (.inl ⟨hname, rfl⟩)
        rw [hv] at hempty
        obtain rfl := Except.error.inj hempty
        rfl
      · have hslot := (herror _).2 (.inr ⟨hname, n, hn, rfl⟩)
        rw [hv] at hslot
        obtain rfl := Except.error.inj hslot
        exact report_slotOutOfBounds n _
  | ok v =>
      have hexplainable := (Invocation.vetted_of_read hread).explainable hv
      obtain ⟨f, s, -, -, hrun⟩ := Invocation.exists_run hv hexplainable
      have hfault : ¬ Faulty c items := by
        rw [← hfaulty, hv]
        rintro ⟨e, ⟨⟩⟩
      refine ⟨_, execute_eq_ran_iff.2 ⟨i, hread, hrun⟩, by simp [hfault], by simp [hfault],
        fun hname => absurd (.inl hname) hfault, fun n _ hn => absurd (.inr ⟨n, hn⟩) hfault⟩

/-- Lists that are given twice go on where they stopped, and the empty name at the end of one of
them is reported although the slot is outside as well; without that name the slot is. -/
theorem execute_reports_empty_piece :
    let ws (list : String) := [Flag.dump.word, "type-mismatch", "--stack=" ++ list, "Add",
      "--expected", "Int32", "--stack", "Float", "--index=+3"]
    (∃ i, Invocation.read (ws "A,") = .ok i) ∧ (∃ i, Invocation.read (ws "A,B") = .ok i) ∧
    (∃ o, execute (ws "A,") = .ok (.ran o) ∧ o.exitCode = 1 ∧ o.stdout = "" ∧
      o.stderr = "Error: invalid type name\n\nCaused by:\n" ++
        "    type descriptor must have a non-empty display name\n") ∧
    ∃ o, execute (ws "A,B") = .ok (.ran o) ∧ o.exitCode = 1 ∧ o.stdout = "" ∧
      o.stderr = "Error: slot 3 is out of bounds for stack of 3 value(s)\n" := by
  intro ws
  let items (list : String) : List Item := [.given .stack list, .label "Add",
    .given .expected "Int32", .given .stack "Float", .given .index "+3"]
  have htail (list : String) : Tail .typeMismatch (ws list).tail.tail (items list) := by
    refine .attached (o := .stack) (by decide) list <| .label (by decide) ?_
    refine .separate (o := .expected) (by decide) (by decide) ?_
    exact .separate (o := .stack) (by decide) (by decide) <|
      .attached (o := .index) (by decide) "+3" .nil
  have hitems (list : String) : Complete .typeMismatch (items list) := by
    refine ⟨rfl, fun _ => rfl, fun _ => rfl, fun _ => List.cons_ne_nil _ _, fun o ho v hv => ?_⟩
    obtain rfl | ⟨rfl, hc⟩ := ho
    · rw [List.mem_singleton.1 hv, ← Text.readCount?_isSome_iff]
      decide
    · exact absurd rfl hc
  have hflags : [Flag.dump].Nodup := by decide
  have hread (list : String) : ∃ i, Invocation.read (ws list) = .ok i :=
    Invocation.exists_read_iff.2 (.intro hflags (by decide) (htail list) (hitems list))
  have hsame {i : Invocation} {list : String} {c : Subcommand} {tail : List String}
      {items' : List Item} (hwords : ws list = i.flags.map Flag.word ++ c.name :: tail)
      (h : Tail c tail items') : c = .typeMismatch ∧ items' = items list := by
    obtain ⟨-, rfl, rfl⟩ : [Flag.dump] = i.flags ∧ .typeMismatch = c ∧ (ws list).tail.tail = tail :=
      flags_append_inj hwords
    exact ⟨rfl, h.deterministic (htail list)⟩
  refine ⟨hread _, hread _, ?_, ?_⟩
  · obtain ⟨i, hi⟩ := hread "A,"
    obtain ⟨c, tail, items', hwords, ht, -, o, ho, hexit, -, hname, -⟩ := execute_reports hi
    obtain ⟨rfl, rfl⟩ := hsame hwords ht
    have hempty : "" ∈ typeNames .typeMismatch (items "A,") := by decide
    obtain ⟨hcode, hout⟩ := hexit.2 (.inl hempty)
    exact ⟨o, ho, hcode, hout, hname hempty⟩
  · obtain ⟨i, hi⟩ := hread "A,B"
    obtain ⟨c, tail, items', hwords, ht, -, o, ho, hexit, -, -, hslot⟩ := execute_reports hi
    obtain ⟨rfl, rfl⟩ := hsame hwords ht
    have houtside : PointsOutside .typeMismatch (items "A,B") 3 :=
      ⟨rfl, ⟨"+3", by decide, by decide⟩, by decide⟩
    obtain ⟨hcode, hout⟩ := hexit.2 (.inr ⟨3, houtside⟩)
    refine ⟨o, ho, hcode, hout, ?_⟩
    rw [hslot 3 (by decide) houtside]
    decide

end Report

end StackVerdict.CommandLine
