import StackVerdict.Proofs.Drafts
import StackVerdict.Proofs.Grammar

/-!
# Asking for a given check

Every failed check can be asked for on the command line, provided that its number is not too large
and no name in its stacks has a comma (`Verdict.Expressible`).  Its words (`Verdict.words`) are read
as a draft of it (`Verdict.read_words`), and the draft is read as the check itself
(`Verdict.Explainable.read_draft`).  So the words are answered with what is to be said about the
check, whatever its label is (`Verdict.execute_words`).
-/

namespace StackVerdict

open CommandLine

/-! ## What is written for a stack -/

namespace Snapshot

def names (s : Snapshot) : List String :=
  s.slots.map TypeName.name

/-- The values that list the slots on the command line; an empty stack is left out. -/
def written (s : Snapshot) : List String :=
  if s.isEmpty then [] else [Text.join ',' s.names]

theorem flatMap_cut_written {s : Snapshot} (h : ∀ n ∈ s.names, ',' ∉ n.toList) :
    s.written.flatMap (Text.cut ',') = s.names := by
  unfold written
  by_cases hs : s.slots = []
  · simp [isEmpty, names, hs]
  · have hnames : s.names ≠ [] := by simpa [names] using hs
    have hcut := Text.cut_join h hnames
    simpa [isEmpty, hs] using hcut

end Snapshot

theorem Listing.read_ofNames_names (s : Snapshot) : (ofNames s.names).read = .ok s := by
  have hread : readNames s.names = .ok s.slots := readNames_eq_ok_iff.2 rfl
  rw [ofNames, read, hread, ok_bind]
  rfl

/-! ## Options with their values attached -/

namespace CommandLine

variable {c : Subcommand} {os : List Opt}

theorem Tail.append_attached {o : Opt} (ho : o ∈ c.options) (vs : List String) {ws : List String}
    {items : List Item} (h : Tail c ws items) :
    Tail c ((vs.map fun w => o.word ++ "=" ++ w) ++ ws) (vs.map (.given o) ++ items) := by
  induction vs with
  | nil => exact h
  | cons w vs ih => exact .attached ho w ih

theorem Tail.flatMap_attached (label : String) (g : Opt → List String) (hos : os ⊆ c.options) :
    Tail c ((os.flatMap fun o => (g o).map fun w => o.word ++ "=" ++ w) ++ ["--", label])
      ((os.flatMap fun o => (g o).map (.given o)) ++ [.label label]) := by
  induction os with
  | nil => exact .escape [label]
  | cons o os ih =>
      obtain ⟨ho, hos⟩ := List.cons_subset.1 hos
      rw [List.flatMap_cons, List.flatMap_cons, List.append_assoc, List.append_assoc]
      exact append_attached ho (g o) (ih hos)

theorem values_map_given (o o' : Opt) (vs : List String) :
    values o (vs.map (.given o')) = if o' = o then vs else [] := by
  by_cases h : o' = o <;> simp [values, List.filterMap_map, Function.comp_def, Item.value?, h]

theorem values_flatMap_given (o : Opt) (g : Opt → List String) (hos : os.Nodup) :
    values o (os.flatMap fun o => (g o).map (.given o)) = if o ∈ os then g o else [] := by
  induction os with
  | nil => simp [values]
  | cons o' os ih =>
      obtain ⟨hnot, hos⟩ := List.nodup_cons.1 hos
      have happend : values o ((o' :: os).flatMap fun o => (g o).map (.given o)) =
          values o ((g o').map (.given o')) ++
            values o (os.flatMap fun o => (g o).map (.given o)) := by
        simp [values]
      rw [happend, values_map_given, ih hos]
      by_cases h : o' = o
      · subst h
        simp [hnot]
      · simp [h, Ne.symm h]

end CommandLine

namespace Verdict

variable {v : Verdict} {c : Subcommand}

/-! ## The draft of a check -/

/-- The draft that is read as the verdict. -/
def draft : Verdict → Draft
  | success => .success
  | underflow needed stack => .underflow needed (.ofNames stack.names)
  | typeMismatch expected stack index =>
      .checkedMismatch expected.name (.ofNames stack.names) index
  | stackMismatch branch destination =>
      .stackMismatch (.ofNames branch.names) (.ofNames destination.names)
  | sizeFailure needed stack => .sizeFailure needed (.ofNames stack.names)

theorem Explainable.read_draft (h : v.Explainable) : v.draft.read = .ok v := by
  cases v with
  | success => exact absurd h id
  | underflow needed stack => rw [draft, Draft.read, Listing.read_ofNames_names]; rfl
  | typeMismatch expected stack index =>
      rw [draft, Draft.read, TypeName.ofString_name, Listing.read_ofNames_names]
      exact ofMismatch_eq_ok_iff.2 ⟨h, rfl⟩
  | stackMismatch branch destination =>
      rw [draft, Draft.read, Listing.read_ofNames_names, Listing.read_ofNames_names]; rfl
  | sizeFailure needed stack => rw [draft, Draft.read, Listing.read_ofNames_names]; rfl

/-! ## The words that ask for a check -/

/-- The number of a check: how many values are needed, or which slot has a wrong type. -/
def number? : Verdict → Option Nat
  | underflow needed _ => some needed
  | typeMismatch _ _ index => some index
  | sizeFailure needed _ => some needed
  | _ => none

structure Expressible (v : Verdict) : Prop where
  explainable : v.Explainable
  inRange : ∀ n ∈ v.number?, n ≤ Text.maxCount
  noComma : ∀ s ∈ v.snapshots, ∀ n ∈ s.names, ',' ∉ n.toList

/-- The subcommand that is about such checks. -/
def subcommand? : Verdict → Option Subcommand
  | success => none
  | underflow .. => some .underflow
  | typeMismatch .. => some .typeMismatch
  | stackMismatch .. => some .stackMismatch
  | sizeFailure .. => some .stackSize

/-- The values that describe a check, by the options that they are given to. -/
def valuesOf (o : Opt) : Verdict → List String
  | success => []
  | underflow needed stack | sizeFailure needed stack =>
      match o with
      | .expected => [needed.repr]
      | .stack => stack.written
      | _ => []
  | typeMismatch expected stack index =>
      match o with
      | .expected => [expected.name]
      | .index => [index.repr]
      | .stack => stack.written
      | .destination => []
  | stackMismatch branch destination =>
      match o with
      | .stack => branch.written
      | .destination => destination.written
      | _ => []

/-- The words after the subcommand: every option with its value attached, then the label behind the
escape. -/
def tailWords (c : Subcommand) (label : String) (v : Verdict) : List String :=
  (c.options.flatMap fun o => (v.valuesOf o).map fun w => o.word ++ "=" ++ w) ++ ["--", label]

/-- What the words after the subcommand say. -/
def items (c : Subcommand) (label : String) (v : Verdict) : List Item :=
  (c.options.flatMap fun o => (v.valuesOf o).map (.given o)) ++ [.label label]

/-- The command line that asks to explain a check at the instruction `label`. -/
def words (label : String) (v : Verdict) : List String :=
  match v.subcommand? with
  | none => []
  | some c => c.name :: v.tailWords c label

section Items

variable {label : String}

theorem tail_items (v : Verdict) (c : Subcommand) (label : String) :
    Tail c (v.tailWords c label) (v.items c label) :=
  Tail.flatMap_attached label v.valuesOf (List.Subset.refl c.options)

theorem labels_items : labels (v.items c label) = [label] := by
  have hnil : labels (c.options.flatMap fun o => (v.valuesOf o).map (.given o)) = [] := by
    simp [labels, List.filterMap_flatMap, Item.label?]
  rw [items, labels_concat_label, hnil]
  rfl

theorem values_items (hc : v.subcommand? = some c) (o : Opt) :
    values o (v.items c label) = v.valuesOf o := by
  have hnodup : c.options.Nodup := by cases c <;> decide
  rw [items, values_concat_label, values_flatMap_given o _ hnodup]
  by_cases ho : o ∈ c.options
  · rw [if_pos ho]
  · rw [if_neg ho]
    -- A check is not described by an option that its subcommand does not have.
    cases v with
    | success => rfl
    | _ => cases hc; cases o <;> first | rfl | exact absurd (by decide) ho

theorem Explainable.names_ne_nil {expected : TypeName} {stack : Snapshot} {index : Nat}
    (h : (typeMismatch expected stack index).Explainable) : stack.names ≠ [] := by
  have hindex : index < stack.slots.length := h
  have hslots := List.ne_nil_of_length_pos (Nat.zero_lt_of_lt hindex)
  simpa [Snapshot.names] using hslots

/-- What is given to an option that takes a number is the number of the check. -/
theorem exists_number_of_mem (hc : v.subcommand? = some c) {o : Opt} (ho : c.TakesCount o)
    {w : String} (hw : w ∈ v.valuesOf o) : ∃ n ∈ v.number?, w = n.repr := by
  rcases ho with rfl | ⟨rfl, hne⟩
  · cases v with
    | typeMismatch expected stack index => exact ⟨index, rfl, List.mem_singleton.1 hw⟩
    | _ => cases hw
  · cases v with
    | underflow needed stack => exact ⟨needed, rfl, List.mem_singleton.1 hw⟩
    | sizeFailure needed stack => exact ⟨needed, rfl, List.mem_singleton.1 hw⟩
    | typeMismatch expected stack index => exact absurd (Option.some.inj hc).symm hne
    | _ => cases hw

theorem complete_items (hv : v.Expressible) (hc : v.subcommand? = some c) :
    Complete c (v.items c label) where
  label := by rw [labels_items]; rfl
  expected hne := by
    rw [values_items hc]
    cases v <;> cases hc <;> first | rfl | exact absurd rfl hne
  index hmismatch := by
    rw [values_items hc]
    cases v <;> cases hc <;> first | rfl | cases hmismatch
  stack hmismatch := by
    rw [values_items hc]
    cases v <;> cases hc <;> cases hmismatch
    show Snapshot.written _ ≠ []
    have hne := hv.explainable.names_ne_nil
    simpa [Snapshot.written, Snapshot.isEmpty, Snapshot.names] using hne
  counts o ho := by
    rw [values_items hc]
    intro w hw
    obtain ⟨n, hn, rfl⟩ := exists_number_of_mem hc ho hw
    exact Text.writesCount_repr (hv.inRange n hn)

theorem draft_items (hv : v.Expressible) (hc : v.subcommand? = some c) :
    (Form.ofItems c (v.items c label)).draft? c = some v.draft := by
  have hstack : ∀ s ∈ v.snapshots, s.written.flatMap (Text.cut ',') = s.names := fun s hs =>
    Snapshot.flatMap_cut_written (hv.noComma s hs)
  have hnumber : ∀ n ∈ v.number?, Text.readCount? n.repr = some n := fun n hn =>
    Text.readCount?_repr (hv.inRange n hn)
  simp only [Form.ofItems, values_items hc]
  cases v with
  | success => cases hc
  | underflow needed stack =>
      cases hc
      simp [valuesOf, Form.draft?, draft, hnumber needed rfl, hstack stack List.mem_cons_self]
  | typeMismatch expected stack index =>
      cases hc
      obtain ⟨name, names, hnames⟩ := List.exists_cons_of_ne_nil hv.explainable.names_ne_nil
      simp [valuesOf, Form.draft?, draft, hnumber index rfl, hstack stack List.mem_cons_self,
        hnames]
  | stackMismatch branch destination =>
      cases hc
      simp [valuesOf, Form.draft?, draft, hstack branch List.mem_cons_self,
        hstack destination (by simp [snapshots])]
  | sizeFailure needed stack =>
      cases hc
      simp [valuesOf, Form.draft?, draft, hnumber needed rfl, hstack stack List.mem_cons_self]

end Items

/-! ## What the words are answered with -/

theorem Explainable.exists_subcommand (h : v.Explainable) : ∃ c, v.subcommand? = some c := by
  cases v with
  | success => exact absurd h id
  | _ => exact ⟨_, rfl⟩

/-- The words are read as the draft of the check they ask for, whatever the label is. -/
theorem read_words (hv : v.Expressible) (label : String) {flags : List Flag}
    (hflags : flags.Nodup) (hshown : ¬ (.dump ∈ flags ∧ .diagnostic ∈ flags)) :
    Invocation.read (flags.map Flag.word ++ v.words label) = .ok ⟨flags, label, v.draft⟩ := by
  obtain ⟨c, hc⟩ := hv.explainable.exists_subcommand
  have hwords : v.words label = c.name :: v.tailWords c label := by rw [words, hc]
  have hlabel : (Form.ofItems c (v.items c label)).label = some label := by
    show (labels (v.items c label)).head? = some label
    rw [labels_items]
    rfl
  rw [hwords, Invocation.read_eq_ok_iff]
  exact ⟨c, _, _, rfl, hflags, hshown, v.tail_items c label, complete_items hv hc,
    Form.command_eq_ok_iff.2 ⟨hlabel, draft_items hv hc⟩⟩

/-- So they are answered with the finding that explains it, as the flags ask for it. -/
theorem exists_execute_words (hv : v.Expressible) (label : String) (flags : List Flag)
    (hflags : flags.Nodup) (hshown : ¬ (.dump ∈ flags ∧ .diagnostic ∈ flags)) :
    ∃ f s, Finding.ofVerdict label v = .ok f ∧ present flags f = .ok s ∧
      execute (flags.map Flag.word ++ v.words label) =
        .ok (.ran { exitCode := 0, stdout := s, stderr := "" }) := by
  obtain ⟨f, s, hf, hs, hrun⟩ :=
    Invocation.exists_run (i := ⟨flags, label, v.draft⟩) hv.explainable.read_draft hv.explainable
  exact ⟨f, s, hf, hs, execute_eq_ran_iff.2 ⟨_, read_words hv label hflags hshown, hrun⟩⟩

/-- A check that can be asked for is answered with its message, with its dump or with its
diagnostic, under every label. -/
theorem execute_words (hv : v.Expressible) (label : String) :
    ∃ f m, Finding.ofVerdict label v = .ok f ∧ v.message label = .ok m ∧
      execute (v.words label) = .ok (.ran { exitCode := 0, stdout := m ++ "\n", stderr := "" }) ∧
      (∃ s, f.dump = .ok s ∧
        execute (Flag.dump.word :: v.words label) =
          .ok (.ran { exitCode := 0, stdout := s, stderr := "" })) ∧
      ∃ s, f.emitPlain = .ok s ∧
        execute (Flag.diagnostic.word :: v.words label) =
          .ok (.ran { exitCode := 0, stdout := s, stderr := "" }) := by
  obtain ⟨f, s, hf, hs, hbrief⟩ := exists_execute_words hv label [] (by simp) (by simp)
  obtain ⟨g, d, hg, hd, hdump⟩ := exists_execute_words hv label [.dump] (by simp) (by simp)
  obtain ⟨h, e, hh, he, hemit⟩ := exists_execute_words hv label [.diagnostic] (by simp) (by simp)
  obtain rfl : f = g := Except.ok.inj (hf.symm.trans hg)
  obtain rfl : f = h := Except.ok.inj (hf.symm.trans hh)
  obtain ⟨m, hm, rfl⟩ := Finding.ofVerdict_eq_ok_iff.1 hf
  obtain rfl : m ++ "\n" = s := Except.ok.inj hs
  exact ⟨_, m, hf, hm, hbrief, ⟨d, hd, hdump⟩, e, he, hemit⟩

/-- A label and a type that look like options are taken for what they are. -/
theorem execute_words_leading_dash :
    let v : Verdict := .typeMismatch ⟨"-a,b=c", by decide⟩ ⟨[.int32, .null]⟩ 1
    v.Expressible ∧
      v.words "-h" = ["type-mismatch", "--expected=-a,b=c", "--index=1", "--stack=Int32,null",
        "--", "-h"] ∧
      execute (v.words "-h") = .ok (.ran
        { exitCode := 0, stdout := "-h expected a -a,b=c; found null\n", stderr := "" }) := by
  intro v
  have hv : v.Expressible := ⟨by decide, by rintro n ⟨⟩; decide, by decide⟩
  obtain ⟨f, m, -, hm, hbrief, -, -⟩ := execute_words hv "-h"
  have hmessage : v.message "-h" = .ok "-h expected a -a,b=c; found null" := by decide
  obtain rfl := Except.ok.inj (hm.symm.trans hmessage)
  exact ⟨hv, by decide, hbrief⟩

end Verdict

end StackVerdict
