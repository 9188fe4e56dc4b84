import StackVerdict.Emission
import StackVerdict.Proofs.Notes

/-!
# Reading emitted text back

Without colour an emitted diagnostic is a list of lines: the header, the lines of every note, and
one empty line (`emit_eq_unlines`).  The first line of a note is marked by a bullet and its further
lines by three blanks, so the lines are put together to notes from the last one to the first
(`readNotes_noteLines`).  A note that is intact loses nothing when it is laid out line by line, and
the notes of a finding are intact when no name holds a carriage return (`intact_of_mem_notes`).
Therefore the text tells the message and the notes (`emit_eq_iff`).
-/

namespace StackVerdict

theorem Charset.bullet_eq (charset : Charset) : charset.bullet = "=" := by
  cases charset <;> rfl

namespace Diagnostic

/-! ## The lines of a diagnostic -/

/-- The lines of a note as they are laid out. -/
def noteLines (note : String) : List String :=
  match Text.lines note with
  | [] => []
  | line :: further => (" = " ++ line) :: further.map ("   " ++ ·)

/-- The lines of a diagnostic as they are laid out, with the empty line at its end. -/
def allLines (d : Diagnostic) : List String :=
  ("error: " ++ d.message) :: (d.notes.flatMap noteLines ++ [""])

theorem join_write_noteLayout (charset : Charset) (note : String) :
    String.join ((noteLayout charset note).map (Piece.write false)) =
      Text.unlines (noteLines note) := by
  have hfurther : ∀ ls : List String,
      String.join ((ls.map furtherLine).map (Piece.write false)) =
        Text.unlines (ls.map ("   " ++ ·)) := by
    intro ls
    rw [Text.unlines, List.map_map, List.map_map]
    rfl
  unfold noteLayout noteLines
  cases Text.lines note with
  | nil => simp
  | cons line further =>
      dsimp only
      rw [List.map_append, String.join_append, hfurther, Text.unlines_cons, ← String.toList_inj]
      simp [firstLine, Piece.write, charset.bullet_eq]

theorem emit_eq_unlines (charset : Charset) (d : Diagnostic) :
    d.emit { detail := .rich, charset, color := false } = Text.unlines d.allLines := by
  have hnotes : String.join ((d.notes.flatMap (noteLayout charset)).map (Piece.write false)) =
      Text.unlines (d.notes.flatMap noteLines) := by
    induction d.notes with
    | nil => simp
    | cons note notes ih =>
        rw [List.flatMap_cons, List.map_append, String.join_append, ih, join_write_noteLayout,
          List.flatMap_cons, Text.unlines_append]
  have hheader : String.join (d.header.map (Piece.write false)) =
      "error: " ++ d.message ++ "\n" := by
    rw [← String.toList_inj]
    simp [header, Piece.write]
  simp only [emit, layout, List.map_append, String.join_append, hheader, hnotes]
  rw [allLines, Text.unlines_cons, Text.unlines_append, ← String.toList_inj]
  simp [Piece.write]

/-- A diagnostic that can be read back line by line. -/
structure Legible (d : Diagnostic) : Prop where
  message : '\n' ∉ d.message.toList
  notes : ∀ n ∈ d.notes, Text.Intact n

theorem not_mem_of_mem_noteLines {note l : String} (hl : l ∈ noteLines note) : '\n' ∉ l.toList := by
  unfold noteLines at hl
  cases h : Text.lines note with
  | nil => simp [h] at hl
  | cons line further =>
      have hlines : ∀ m ∈ line :: further, '\n' ∉ m.toList := by
        intro m hm
        rw [← h] at hm
        exact (Text.of_mem_lines hm).1
      rw [h] at hl
      rcases List.mem_cons.1 hl with rfl | hl
      · simpa using hlines line List.mem_cons_self
      · obtain ⟨m, hm, rfl⟩ := List.mem_map.1 hl
        simpa using hlines m (List.mem_cons_of_mem _ hm)

theorem Legible.not_mem_of_mem_allLines {d : Diagnostic} (hd : d.Legible) {l : String}
    (hl : l ∈ d.allLines) : '\n' ∉ l.toList := by
  rcases List.mem_cons.1 hl with rfl | hl
  · simpa using hd.message
  · rcases List.mem_append.1 hl with hl | hl
    · obtain ⟨note, -, hl⟩ := List.mem_flatMap.1 hl
      exact not_mem_of_mem_noteLines hl
    · rw [List.mem_singleton.1 hl]
      simp

/-! ## The reader -/

/-- Takes one more line in front of the lines of a note that goes on and of the notes behind it. -/
def gather (line : String) : List String × List String → List String × List String
  | (pending, notes) =>
      match Text.after? " = " line with
      | some first => ([], Text.join '\n' (first :: pending) :: notes)
      | none => ((Text.after? "   " line).getD "" :: pending, notes)

/-- The notes in the lines between the header and the empty line. -/
def readNotes (lines : List String) : List String :=
  (lines.foldr gather ([], [])).2

/-- Reads a diagnostic. -/
def read? (s : String) : Option Diagnostic :=
  match Text.readLines s with
  | [] => none
  | header :: lines =>
      (Text.after? "error: " header).map fun message => ⟨message, readNotes lines.dropLast⟩

theorem foldr_gather_further (further notes : List String) :
    (further.map ("   " ++ ·)).foldr gather ([], notes) = (further, notes) := by
  induction further with
  | nil => rfl
  | cons line further ih =>
      have hbullet : Text.after? " = " ("   " ++ line) = none := by
        simp [Text.after?, List.dropPrefix?]
      rw [List.map_cons, List.foldr_cons, ih, gather, hbullet, Text.after?_append]
      rfl

theorem foldr_gather_noteLines {note : String} (hnote : Text.Intact note) (notes : List String) :
    (noteLines note).foldr gather ([], notes) = ([], note :: notes) := by
  obtain ⟨line, further, hlines⟩ := List.exists_cons_of_ne_nil hnote.lines_ne_nil
  have hjoin : Text.join '\n' (line :: further) = note := by
    rw [← hlines, hnote.join_lines]
  rw [noteLines, hlines]
  simp only [List.foldr_cons, foldr_gather_further, gather, Text.after?_append, hjoin]

theorem readNotes_noteLines {notes : List String} (h : ∀ n ∈ notes, Text.Intact n) :
    readNotes (notes.flatMap noteLines) = notes := by
  -- No line is pending once the first line of a note has been met.
  have hfold : (notes.flatMap noteLines).foldr gather ([], []) = ([], notes) := by
    induction notes with
    | nil => rfl
    | cons note notes ih =>
        rw [List.flatMap_cons, List.foldr_append, ih fun n hn => h n (List.mem_cons_of_mem _ hn)]
        exact foldr_gather_noteLines (h note List.mem_cons_self) notes
  rw [readNotes, hfold]

theorem Legible.read?_unlines {d : Diagnostic} (hd : d.Legible) :
    read? (Text.unlines d.allLines) = some d := by
  rw [read?, Text.readLines_unlines fun _ => hd.not_mem_of_mem_allLines, allLines]
  simp [readNotes_noteLines hd.notes]

end Diagnostic

/-! ## Notes are intact -/

namespace Divergence

/-- The types at which two lists of slots part are in the two lists. -/
theorem mem_of_ofSlots_eq_slot {i j : Nat} {as bs : List TypeName} {a b : TypeName}
    (h : ofSlots i as bs = slot j a b) : a ∈ as ∧ b ∈ bs := by
  induction as generalizing i bs with
  | nil => cases bs <;> cases h
  | cons a' as ih =>
      cases bs with
      | nil => cases h
      | cons b' bs =>
          rw [ofSlots] at h
          split_ifs at h with heq
          · obtain ⟨ha, hb⟩ := ih h
            exact ⟨List.mem_cons_of_mem _ ha, List.mem_cons_of_mem _ hb⟩
          · cases h
            exact ⟨List.mem_cons_self, List.mem_cons_self⟩

end Divergence

namespace Remark

/-- No name in the remark holds the character. -/
def Lacks (c : Char) : Remark → Prop
  | holds _ found => c ∉ found.name.toList
  | requires expected => c ∉ expected.name.toList
  | diverge _ branch destination => c ∉ branch.name.toList ∧ c ∉ destination.name.toList
  | _ => True

/-- No remark ends in a line feed, whatever its names are. -/
theorem closed_text (r : Remark) : Text.Closed r.text := by
  cases r with
  | takes needed held =>
      rw [text_takes]
      exact .append _ <| .append _ <| .append _ <| Text.closed_ofList (by simp)
  | pushEarlier =>
      rw [text_pushEarlier]
      exact .append _ <| Text.closed_ofList (by simp)
  | holds index found =>
      rw [text_holds]
      exact .append _ <| .append _ <| Text.closed_ofList (by simp)
  | requires expected =>
      rw [text_requires]
      exact .append _ <| .append _ <| Text.closed_ofList (by simp)
  | heights branch destination =>
      rw [text_heights]
      exact .append _ <| .append _ <| .append _ <| Text.closed_ofList (by simp)
  | diverge index branch destination =>
      rw [text_diverge]
      exact .append _ <| .append _ <| Text.closed_ofList (by simp)
  | identical =>
      rw [text_identical]
      exact .append _ <| Text.closed_ofList (by simp)
  | leaveSame =>
      rw [text_leaveSame]
      exact .append _ <| Text.closed_ofList (by simp)
  | requiresExactly needed held =>
      rw [text_requiresExactly]
      exact .append _ <| .append _ <| .append _ <| Text.closed_repr held

theorem not_mem_text {r : Remark} (h : r.Lacks '\r') : '\r' ∉ r.text.toList := by
  have hliteral : ∀ {cs : List Char}, '\r' ∉ cs → '\r' ∉ (String.ofList cs).toList := by
    intro cs hcs
    rwa [String.toList_ofList]
  have hnumeral : ∀ n : Nat, '\r' ∉ n.repr.toList := Text.IsBreak.not_mem_repr (.inr rfl)
  have hnote : '\r' ∉ "note: ".toList := hliteral (by simp)
  have hhelp : '\r' ∉ "help: ".toList := hliteral (by simp)
  open Text in
  cases r with
  | takes needed held =>
      rw [text_takes]
      simp only [String.append_assoc]
      exact not_mem_append hnote <| not_mem_append (hliteral (by simp)) <|
        not_mem_append (hnumeral needed) <| not_mem_append (hliteral (by simp)) <|
        not_mem_append (hliteral (by simp)) <| not_mem_append (hnumeral held) (hliteral (by simp))
  | pushEarlier =>
      rw [text_pushEarlier]
      exact not_mem_append hhelp (hliteral (by simp))
  | holds index found =>
      rw [text_holds]
      simp only [String.append_assoc]
      exact not_mem_append hnote <| not_mem_append (hliteral (by simp)) <|
        not_mem_append (hnumeral index) <| not_mem_append (hliteral (by simp)) <|
        not_mem_append h (hliteral (by simp))
  | requires expected =>
      rw [text_requires]
      simp only [String.append_assoc]
      exact not_mem_append hnote <| not_mem_append (hliteral (by simp)) <|
        not_mem_append h (hliteral (by simp))
  | heights branch destination =>
      rw [text_heights]
      simp only [String.append_assoc]
      exact not_mem_append hnote <| not_mem_append (hliteral (by simp)) <|
        not_mem_append (hnumeral branch) <| not_mem_append (hliteral (by simp)) <|
        not_mem_append (hliteral (by simp)) <|
        not_mem_append (hnumeral destination) (hliteral (by simp))
  | diverge index branch destination =>
      rw [text_diverge]
      simp only [String.append_assoc]
      exact not_mem_append hnote <| not_mem_append (hliteral (by simp)) <|
        not_mem_append (hnumeral index) <| not_mem_append (hliteral (by simp)) <|
        not_mem_append h.1 <| not_mem_append (hliteral (by simp)) <|
        not_mem_append h.2 (hliteral (by simp))
  | identical =>
      rw [text_identical]
      exact not_mem_append hnote (hliteral (by simp))
  | leaveSame =>
      rw [text_leaveSame]
      exact not_mem_append hhelp (hliteral (by simp))
  | requiresExactly needed held =>
      rw [text_requiresExactly]
      simp only [String.append_assoc]
      exact not_mem_append hnote <| not_mem_append (hliteral (by simp)) <|
        not_mem_append (hnumeral needed) <| not_mem_append (hliteral (by simp)) <|
        not_mem_append (hliteral (by simp)) (hnumeral held)

theorem intact_text {r : Remark} (h : r.Lacks '\r') : Text.Intact r.text :=
  r.closed_text.intact (not_mem_text h)

end Remark

namespace Verdict

/-- The type that a check asks for, if it asks for one. -/
def expected? : Verdict → Option TypeName
  | typeMismatch expected _ _ => some expected
  | _ => none

theorem lacks_of_mem_remarks {c : Char} {v : Verdict} {rs : List Remark} (h : v.remarks = .ok rs)
    (hs : ∀ s ∈ v.snapshots, s.Lacks c) (he : ∀ t ∈ v.expected?, c ∉ t.name.toList) {r : Remark}
    (hr : r ∈ rs) : r.Lacks c := by
  cases v with
  | success => cases h
  | underflow needed stack =>
      obtain rfl := Except.ok.inj h
      rcases List.mem_pair.1 hr with rfl | rfl <;> trivial
  | typeMismatch expected stack index =>
      obtain ⟨found, hfound, rfl⟩ := remarks_typeMismatch.1 h
      rcases List.mem_pair.1 hr with rfl | rfl
      · have hmem : found ∈ stack.slots :=
          List.mem_of_getElem? (Snapshot.get_eq_ok_iff.1 hfound)
        exact hs stack List.mem_cons_self found hmem
      · exact he expected rfl
  | stackMismatch branch destination =>
      obtain rfl := Except.ok.inj h
      rcases List.mem_pair.1 hr with rfl | rfl
      · cases hd : Divergence.find branch destination with
        | none => trivial
        | height => trivial
        | slot index left right =>
            obtain ⟨hleft, hright⟩ := Divergence.mem_of_ofSlots_eq_slot hd
            exact ⟨hs branch (by simp [snapshots]) left hleft,
              hs destination (by simp [snapshots]) right hright⟩
      · trivial
  | sizeFailure needed stack =>
      obtain rfl := Except.ok.inj h
      rw [List.mem_singleton.1 hr]
      trivial

end Verdict

/-- No note on a stack ends in a line feed: a bracket is at its end. -/
theorem Exhibit.closed_note (x : Exhibit) : Text.Closed x.note := by
  obtain ⟨start, hblock, -⟩ := x.stack.exists_trimEnd_block_eq
  have hlast : x.note.toList.getLast? = some ']' := by
    simp [note, hblock, List.getLast?_cons]
  exact ⟨by simp [note], by simp [hlast]⟩

theorem Exhibit.intact_note {x : Exhibit} (hx : x.stack.Lacks '\r') : Text.Intact x.note := by
  refine x.closed_note.intact fun h => ?_
  have hlines : '\r' ∉ (Text.unlines x.lines).toList :=
    Text.not_mem_unlines (by decide) fun _ => not_mem_of_mem_lines (.inr rfl) hx
  rw [unlines_lines] at hlines
  exact hlines (by simp [h])

/-! ## The text of a finding -/

namespace Finding

/-- No name in the finding holds the character. -/
structure Lacks (c : Char) (f : Finding) : Prop where
  snapshots : ∀ s ∈ f.snapshots, s.Lacks c
  expected : ∀ t ∈ f.verdict.bind Verdict.expected?, c ∉ t.name.toList

theorem intact_of_mem_notes {o : Origin} {l : List Attachment} {f : Finding} (h : Sound o l f)
    (hf : f.Lacks '\r') {ns : List String} (hns : f.notes = .ok ns) {n : String} (hn : n ∈ ns) :
    Text.Intact n := by
  obtain ⟨rs, hrs⟩ := h.remarks
  rw [notes_eq_ok hrs] at hns
  obtain rfl := Except.ok.inj hns
  rcases List.mem_append.1 hn with hn | hn
  · obtain ⟨r, hr, rfl⟩ := List.mem_map.1 hn
    refine Remark.intact_text ?_
    cases hv : f.verdict with
    | none =>
        rw [remarks_of_no_verdict hv] at hrs
        obtain rfl := Except.ok.inj hrs
        cases hr
    | some v =>
        rw [remarks_of_verdict hv] at hrs
        refine Verdict.lacks_of_mem_remarks hrs (fun s hs => hf.snapshots s ?_) (fun t ht => ?_) hr
        · rw [h.snapshots_eq hv]
          exact List.mem_append_left _ hs
        · exact hf.expected t (by rwa [hv])
  · obtain ⟨x, hx, rfl⟩ := List.mem_map.1 hn
    exact Exhibit.intact_note (hf.snapshots _ (stack_mem_of_mem_exhibits hx))

/-- Reachable findings without a line feed in the message and without a carriage return in a name
are emitted as the same text exactly when they have the same message and the same notes. -/
theorem emit_eq_iff {o o' : Origin} {l l' : List Attachment} {f g : Finding}
    (hf : Reachable o l f) (hg : Reachable o' l' g) (hfmessage : '\n' ∉ f.message.toList)
    (hgmessage : '\n' ∉ g.message.toList) (hf' : f.Lacks '\r') (hg' : g.Lacks '\r') :
    ∃ s t d e, f.emitPlain = .ok s ∧ g.emitPlain = .ok t ∧ f.diagnostic = .ok d ∧
      g.diagnostic = .ok e ∧ (s = t ↔ f.message = g.message ∧ d.notes = e.notes) := by
  obtain ⟨ns, hns⟩ := hf.sound.notes
  obtain ⟨ms, hms⟩ := hg.sound.notes
  have hflegible : Diagnostic.Legible ⟨f.message, ns⟩ :=
    ⟨hfmessage, fun n hn => intact_of_mem_notes hf.sound hf' hns hn⟩
  have hglegible : Diagnostic.Legible ⟨g.message, ms⟩ :=
    ⟨hgmessage, fun n hn => intact_of_mem_notes hg.sound hg' hms hn⟩
  refine ⟨_, _, _, _, emitPlain_eq_ok hns, emitPlain_eq_ok hms, diagnostic_eq_ok hns,
    diagnostic_eq_ok hms, fun h => ?_, fun ⟨hmessage, hnotes⟩ => ?_⟩
  · rw [Diagnostic.emit_eq_unlines, Diagnostic.emit_eq_unlines] at h
    have hread := hflegible.read?_unlines
    rw [h, hglegible.read?_unlines] at hread
    exact Diagnostic.mk.inj (Option.some.inj hread).symm
  · rw [hmessage, show ns = ms from hnotes]

/-- A name that imitates a further note is not taken for one. -/
theorem emit_eq_iff_imitated_note :
    let t : TypeName := ⟨"Int32\n   ]\n = stack #1:\n   []", by decide⟩
    let f := (ofMessage "stacks differ").attach (.snapshots [⟨[t]⟩])
    let g := (ofMessage "stacks differ").attach (.snapshots [⟨[.int32]⟩, .empty])
    ∃ s u, f.emitPlain = .ok s ∧ g.emitPlain = .ok u ∧ s ≠ u := by
  intro t f g
  have hf : Reachable (.custom "stacks differ") [.snapshots [⟨[t]⟩]] f :=
    Reachable.attached (.made rfl) _
  have hg : Reachable (.custom "stacks differ") [.snapshots [⟨[.int32]⟩, .empty]] g :=
    Reachable.attached (.made rfl) _
  have hf' : f.Lacks '\r' := ⟨by decide, by decide⟩
  have hg' : g.Lacks '\r' := ⟨by decide, by decide⟩
  obtain ⟨s, u, d, e, hs, hu, hd, he, hiff⟩ :=
    emit_eq_iff hf hg (by decide) (by decide) hf' hg'
  refine ⟨s, u, hs, hu, fun h => ?_⟩
  obtain rfl := Except.ok.inj ((diagnostic_eq_ok (notes_eq_ok rfl)).symm.trans hd)
  obtain rfl := Except.ok.inj ((diagnostic_eq_ok (notes_eq_ok rfl)).symm.trans he)
  have hlength := congrArg List.length (hiff.1 h).2
  cases hlength

end Finding

end StackVerdict
