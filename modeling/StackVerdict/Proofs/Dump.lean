import StackVerdict.Finding.Dump
import StackVerdict.Proofs.Exhibit

/-!
# Reading dumps back

Behind its message a dump has one section for each stack and one for the instructions, with an empty
line in front of each.  No line of a section is empty, so a dump can be cut into its sections at the
empty lines (`splitOn_sections`), and the heading of a section tells what is in it.  Therefore a
dump without further line feeds tells the message, the stacks, the instructions and whether the
finding stems from two stacks that do not fit (`read?_unlines_dumpLines`), and nothing else
(`dump_congr`).
-/

namespace StackVerdict

namespace Finding

/-- No line feed in the message, in a name of a stack or in an instruction. -/
structure Unbroken (f : Finding) : Prop where
  message : '\n' ∉ f.message.toList
  names : ∀ s ∈ f.snapshots, s.Lacks '\n'
  instructions : ∀ i ∈ f.instructions, '\n' ∉ i.toList

instance (f : Finding) : Decidable f.Unbroken :=
  decidable_of_iff
    ('\n' ∉ f.message.toList ∧ (∀ s ∈ f.snapshots, s.Lacks '\n') ∧
      ∀ i ∈ f.instructions, '\n' ∉ i.toList)
    ⟨fun ⟨h₁, h₂, h₃⟩ => ⟨h₁, h₂, h₃⟩, fun ⟨h₁, h₂, h₃⟩ => ⟨h₁, h₂, h₃⟩⟩

/-! ## Sections -/

/-- The section of the instructions, if there are any. -/
def listingSection (f : Finding) : List (List String) :=
  if f.instructions.isEmpty then []
  else ["instructions:" :: f.instructions.mapIdx instructionLine]

/-- The sections of the dump. -/
def sections (f : Finding) : List (List String) :=
  f.exhibits.map Exhibit.lines ++ f.listingSection

theorem dumpLines_eq (f : Finding) : f.dumpLines = f.message :: f.sections.flatMap ("" :: ·) := by
  have hlisting : f.listing = f.listingSection.flatMap ("" :: ·) := by
    unfold listing listingSection
    split_ifs <;> simp
  rw [dumpLines, sections, List.flatMap_append, hlisting, List.flatMap_map]
  rfl

theorem of_mem_sections {f : Finding} {l : String} {ls : List String} (hls : ls ∈ f.sections)
    (hl : l ∈ ls) :
    (∃ x ∈ f.exhibits, l ∈ x.lines) ∨ l = "instructions:" ∨
      ∃ i, ∃ text ∈ f.instructions, l = instructionLine i text := by
  rcases List.mem_append.1 hls with hls | hls
  · obtain ⟨x, hx, rfl⟩ := List.mem_map.1 hls
    exact Or.inl ⟨x, hx, hl⟩
  · unfold listingSection at hls
    split_ifs at hls
    · simp at hls
    · rw [List.mem_singleton.1 hls] at hl
      rcases List.mem_cons.1 hl with rfl | hl
      · exact Or.inr (Or.inl rfl)
      · obtain ⟨i, hi, rfl⟩ := List.mem_mapIdx.1 hl
        exact Or.inr (Or.inr ⟨i, _, List.getElem_mem hi, rfl⟩)

theorem ne_empty_of_mem_sections {f : Finding} {l : String} {ls : List String}
    (hls : ls ∈ f.sections) (hl : l ∈ ls) : l ≠ "" := by
  rcases of_mem_sections hls hl with ⟨x, -, hx⟩ | rfl | ⟨i, text, -, rfl⟩
  · exact Exhibit.ne_empty_of_mem_lines hx
  · simp
  · simp [instructionLine]

theorem not_mem_of_mem_sectionLines {f : Finding} (hnames : ∀ s ∈ f.snapshots, s.Lacks '\n')
    (hinstructions : ∀ i ∈ f.instructions, '\n' ∉ i.toList) {l : String}
    (hl : l ∈ f.sections.flatMap ("" :: ·)) : '\n' ∉ l.toList := by
  obtain ⟨ls, hls, hl⟩ := List.mem_flatMap.1 hl
  rcases List.mem_cons.1 hl with rfl | hl
  · simp
  · rcases of_mem_sections hls hl with ⟨x, hx, hl⟩ | rfl | ⟨i, text, htext, rfl⟩
    · exact Exhibit.not_mem_of_mem_lines (.inl rfl) (hnames _ (stack_mem_of_mem_exhibits hx)) hl
    · simp
    · have hcolumn := Text.IsBreak.not_mem_column (.inl rfl : Text.IsBreak '\n') 5 i
      simp [instructionLine, hcolumn, hinstructions text htext]

theorem not_mem_of_mem_dumpLines {f : Finding} (hf : f.Unbroken) {l : String}
    (hl : l ∈ f.dumpLines) : '\n' ∉ l.toList := by
  rw [dumpLines_eq] at hl
  rcases List.mem_cons.1 hl with rfl | hl
  · exact hf.message
  · exact not_mem_of_mem_sectionLines hf.names hf.instructions hl

theorem splitOn_sections (f : Finding) :
    (f.sections.flatMap ("" :: ·)).splitOn "" = [] :: f.sections :=
  Text.splitOn_flatMap_cons fun _ hls hl => ne_empty_of_mem_sections hls hl rfl

end Finding

/-! ## The reader -/

/-- What a dump tells. -/
structure Dump where
  message : String
  snapshots : List Snapshot
  instructions : List String
  /-- Whether the first stack is headed as the one at a branch. -/
  isMismatch : Bool
  deriving DecidableEq

namespace Dump

/-- The stack in a section. -/
def readStack? : List String → Option Snapshot
  | [] => none
  | heading :: lines =>
      if heading = "instructions:" then none else Snapshot.readBlock? lines

/-- The instruction in the line with the given number. -/
def readInstruction? (i : Nat) (line : String) : Option String :=
  Text.after? (Text.column 5 i ++ ": ") line

/-- The instructions in a section. -/
def readListing? : List String → Option (List String)
  | [] => none
  | heading :: lines =>
      if heading = "instructions:" then Text.readNumbered readInstruction? lines else none

/-- Reads a dump. -/
def read? (s : String) : Option Dump :=
  match Text.readLines s with
  | [] => none
  | message :: lines =>
      let sections := (lines.splitOn "").tail
      some
        { message
          snapshots := sections.filterMap readStack?
          instructions := (sections.filterMap readListing?).flatten
          isMismatch := sections.head?.bind List.head? == some "stack at branch:" }

theorem heading_ne_instructions (h : Heading) : h.text ++ ":" ≠ "instructions:" := by
  rw [Ne, ← String.toList_inj]
  cases h with
  | numbered i => simp [Heading.text_numbered]
  | _ => simp [Heading.text]

theorem heading_eq_branch_iff (h : Heading) : h.text ++ ":" = "stack at branch:" ↔ h = .branch := by
  have hbranch : "stack at branch:" = Heading.branch.text ++ ":" := rfl
  rw [hbranch, String.append_left_inj]
  exact ⟨Heading.text_injective, congrArg Heading.text⟩

theorem readStack?_lines (x : Exhibit) : readStack? x.lines = some x.stack := by
  rw [Exhibit.lines, readStack?, if_neg (heading_ne_instructions x.heading)]
  exact x.stack.readBlock?_blockLines

theorem readListing?_lines (x : Exhibit) : readListing? x.lines = none := by
  rw [Exhibit.lines, readListing?, if_neg (heading_ne_instructions x.heading)]

theorem readInstruction?_instructionLine (i : Nat) (text : String) :
    readInstruction? i (Finding.instructionLine i text) = some text :=
  Text.after?_append _ _

theorem filterMap_readStack? (f : Finding) : f.sections.filterMap readStack? = f.snapshots := by
  have hlisting : f.listingSection.filterMap readStack? = [] := by
    unfold Finding.listingSection
    split_ifs <;> simp [readStack?]
  have hstacks : readStack? ∘ Exhibit.lines = some ∘ Exhibit.stack :=
    funext readStack?_lines
  rw [Finding.sections, List.filterMap_append, hlisting, List.append_nil, List.filterMap_map,
    hstacks, List.filterMap_eq_map]
  exact f.map_stack_exhibits

theorem filterMap_readListing? (f : Finding) :
    (f.sections.filterMap readListing?).flatten = f.instructions := by
  have hstacks : (f.exhibits.map Exhibit.lines).filterMap readListing? = [] := by
    simp [readListing?_lines]
  rw [Finding.sections, List.filterMap_append, hstacks, List.nil_append]
  unfold Finding.listingSection
  split_ifs with h
  · simp [List.isEmpty_iff.1 h]
  · simp [readListing?, Text.readNumbered_mapIdx readInstruction?_instructionLine]

/-- The first stack is headed as the one at a branch just where the finding stems from two stacks
that do not fit. -/
theorem head?_sections {f : Finding} (hf : f.hasSnapshots = true) :
    (f.sections.head?.bind List.head? == some "stack at branch:") = f.isMismatch := by
  obtain ⟨s, ss, hss⟩ : ∃ s ss, f.snapshots = s :: ss :=
    List.exists_cons_of_ne_nil (Finding.hasSnapshots_eq_true_iff.1 hf)
  have hhead : f.sections.head?.bind List.head? = some ((f.heading 0).text ++ ":") := by
    simp [Finding.sections, Finding.exhibits, hss, Exhibit.lines]
  rw [hhead, Bool.eq_iff_iff, beq_iff_eq, Option.some.injEq, heading_eq_branch_iff,
    Finding.heading_eq_branch_iff, and_iff_left rfl]

/-- What the dump of a finding tells. -/
def ofFinding (f : Finding) : Dump :=
  ⟨f.message, f.snapshots, f.instructions, f.isMismatch⟩

theorem read?_unlines_dumpLines {f : Finding} (hf : f.hasSnapshots = true) (hbreak : f.Unbroken) :
    read? (Text.unlines f.dumpLines) = some (ofFinding f) := by
  rw [read?, Text.readLines_unlines fun _ => Finding.not_mem_of_mem_dumpLines hbreak,
    Finding.dumpLines_eq]
  simp only [Finding.splitOn_sections, List.tail_cons, filterMap_readStack?, filterMap_readListing?,
    head?_sections hf]
  rfl

/-- The sections of a dump that starts with the given message. -/
def sections? (message s : String) : Option (List (List String)) :=
  (Text.after? (message ++ "\n") s).map fun rest => ((Text.readLines rest).splitOn "").tail

/-- The sections are found behind any message, also behind one of several lines. -/
theorem sections?_unlines_dumpLines {f : Finding} (hnames : ∀ s ∈ f.snapshots, s.Lacks '\n')
    (hinstructions : ∀ i ∈ f.instructions, '\n' ∉ i.toList) :
    sections? f.message (Text.unlines f.dumpLines) = some f.sections := by
  have hlines := Text.readLines_unlines fun _ =>
    Finding.not_mem_of_mem_sectionLines hnames hinstructions
  rw [Finding.dumpLines_eq, Text.unlines_cons, sections?, Text.after?_append, Option.map_some,
    hlines, Finding.splitOn_sections, List.tail_cons]

end Dump

namespace Finding

theorem dump_congr {f g : Finding} (h : Dump.ofFinding f = Dump.ofFinding g) : f.dump = g.dump := by
  obtain ⟨hmessage, hsnapshots, hinstructions, hmismatch⟩ := Dump.mk.inj h
  rw [dump, dump, dumpLines, dumpLines, listing, listing, hasSnapshots, hasSnapshots,
    exhibits_congr hsnapshots hmismatch, hmessage, hsnapshots, hinstructions]

theorem dump_eq_ok {f : Finding} (hf : f.hasSnapshots = true) :
    f.dump = .ok (Text.unlines f.dumpLines) := by
  rw [dump, if_pos hf]

/-- Findings that hold a stack and no line feed have the same dump exactly when they have the same
message, the same stacks and the same instructions and both or neither stem from two stacks that do
not fit; the dump can be read. -/
theorem dump_eq_iff {f g : Finding} (hf : f.hasSnapshots = true) (hg : g.hasSnapshots = true)
    (hf' : f.Unbroken) (hg' : g.Unbroken) :
    (f.dump = g.dump ↔
      f.message = g.message ∧ f.snapshots = g.snapshots ∧ f.instructions = g.instructions ∧
        f.isMismatch = g.isMismatch) ∧
    ∃ s, f.dump = .ok s ∧
      Dump.read? s = some ⟨f.message, f.snapshots, f.instructions, f.isMismatch⟩ := by
  have hread := Dump.read?_unlines_dumpLines hf hf'
  refine ⟨⟨fun h => ?_, fun ⟨h₁, h₂, h₃, h₄⟩ => ?_⟩, _, dump_eq_ok hf, hread⟩
  · have htext : Text.unlines f.dumpLines = Text.unlines g.dumpLines := by
      simpa [dump_eq_ok hf, dump_eq_ok hg] using h
    rw [htext, Dump.read?_unlines_dumpLines hg hg', Option.some.injEq] at hread
    obtain ⟨h₁, h₂, h₃, h₄⟩ := Dump.mk.inj hread
    exact ⟨h₁.symm, h₂.symm, h₃.symm, h₄.symm⟩
  · exact dump_congr (by rw [Dump.ofFinding, Dump.ofFinding, h₁, h₂, h₃, h₄])

/-- Names and instructions that look like the layout of a dump do not mislead its reader. -/
theorem dump_eq_iff_layout_names :
    let f := (ofMessage "").attachAll
      [.snapshots [⟨[⟨"]", by decide⟩, ⟨"[ 0] A", by decide⟩]⟩, .empty], .instructions ["stack:"]]
    let g := (ofMessage "").attachAll
      [.snapshots [⟨[⟨"]", by decide⟩]⟩, ⟨[⟨"[ 0] A", by decide⟩]⟩], .instructions ["stack:"]]
    (f.hasSnapshots = true ∧ g.hasSnapshots = true ∧ f.Unbroken ∧ g.Unbroken) ∧
      f.dump ≠ g.dump ∧
      ∃ s, f.dump = .ok s ∧
        Dump.read? s = some ⟨f.message, f.snapshots, f.instructions, f.isMismatch⟩ := by
  intro f g
  have hf : f.hasSnapshots = true := rfl
  have hg : g.hasSnapshots = true := rfl
  have hf' : f.Unbroken := by decide
  have hg' : g.Unbroken := by decide
  obtain ⟨hiff, hread⟩ := dump_eq_iff hf hg hf' hg'
  refine ⟨⟨hf, hg, hf', hg'⟩, fun h => ?_, hread⟩
  exact absurd (hiff.1 h).2.1 (by decide)

end Finding

end StackVerdict
