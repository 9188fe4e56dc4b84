import Mathlib.Data.List.TakeWhile
import StackVerdict.Proofs.Emission

/-!
# The same text in every appearance

A diagnostic can be emitted with more or less detail, drawn with either set of characters, and with
or without colour.  The details go on where the shorter ones stop, the sets of characters make no
difference, and colour puts nothing but terminal codes between the pieces: a text that holds no
escape character of its own is read back by leaving the codes out (`Text.dropCodes_join_write`).
Every note goes on behind its last line feed (`Finding.closed_of_mem_notes`), so a note takes one
line more than it has line feeds, and the lines of the whole can be counted
(`Diagnostic.count_emit`).
-/

namespace StackVerdict

/-! ## Terminal codes -/

namespace Text

/-- What follows the terminal code that a text begins with: an escape character, a bracket and all
up to the next `m`. -/
def afterCode? : List Char → Option (List Char)
  | '\x1b' :: '[' :: cs =>
      match cs.dropWhile (· ≠ 'm') with
      | [] => none
      | _ :: rest => some rest
  | _ => none

theorem length_lt_of_afterCode? {cs rest : List Char} (h : afterCode? cs = some rest) :
    rest.length < cs.length := by
  unfold afterCode? at h
  split at h
  · next cs =>
    have hle : (cs.dropWhile (· ≠ 'm')).length ≤ cs.length := List.length_dropWhile_le _ _
    split at h
    · cases h
    · next heq =>
      rw [heq, Option.some.inj h, List.length_cons] at hle
      rw [List.length_cons, List.length_cons]
      omega
  · cases h

/-- The text without its terminal codes. -/
def dropCodes : List Char → List Char
  | [] => []
  | c :: cs =>
      match _h : afterCode? (c :: cs) with
      | some rest => dropCodes rest
      | none => c :: dropCodes cs
termination_by cs => cs.length
decreasing_by
  · exact length_lt_of_afterCode? _h
  · exact Nat.lt_succ_self _

theorem dropCodes_of_afterCode? {cs rest : List Char} (h : afterCode? cs = some rest) :
    dropCodes cs = dropCodes rest := by
  cases cs with
  | nil => cases h
  | cons c cs =>
      rw [dropCodes]
      split
      · next heq => rw [Option.some.inj (heq.symm.trans h)]
      · next heq => cases heq.symm.trans h

theorem dropCodes_cons {c : Char} (hc : c ≠ '\x1b') (cs : List Char) :
    dropCodes (c :: cs) = c :: dropCodes cs := by
  have hnone : afterCode? (c :: cs) = none := by
    unfold afterCode?
    split
    · next heq => exact absurd (List.cons.inj heq).1 hc
    · rfl
  rw [dropCodes]
  split
  · next heq => cases heq.symm.trans hnone
  · rfl

theorem dropCodes_append {s : List Char} (hs : '\x1b' ∉ s) (t : List Char) :
    dropCodes (s ++ t) = s ++ dropCodes t := by
  induction s with
  | nil => rfl
  | cons c s ih =>
      have hc : c ≠ '\x1b' := fun heq => hs (heq ▸ List.mem_cons_self)
      have hrest : '\x1b' ∉ s := fun hmem => hs (List.mem_cons_of_mem _ hmem)
      rw [List.cons_append, dropCodes_cons hc, ih hrest, List.cons_append]

theorem dropCodes_escape_append (c : TerminalCode) (t : List Char) :
    dropCodes (c.escape.toList ++ t) = dropCodes t := by
  apply dropCodes_of_afterCode?
  cases c <;> simp [TerminalCode.escape, afterCode?]

end Text

/-- No text in the piece holds an escape character. -/
def Piece.Plain : Piece → Prop
  | text s => '\x1b' ∉ s.toList
  | code _ => True

/-- Without its terminal codes a coloured layout is the one without colour. -/
theorem Text.dropCodes_join_write {ps : List Piece} (h : ∀ p ∈ ps, p.Plain) :
    Text.dropCodes (String.join (ps.map (Piece.write true))).toList =
      (String.join (ps.map (Piece.write false))).toList := by
  induction ps with
  | nil => simp [Text.dropCodes]
  | cons p ps ih =>
      have hrest := ih fun q hq => h q (List.mem_cons_of_mem _ hq)
      rw [List.map_cons, List.map_cons, String.join_cons, String.join_cons, String.toList_append,
        String.toList_append]
      cases p with
      | text s =>
          have hs : '\x1b' ∉ s.toList := h (.text s) List.mem_cons_self
          show Text.dropCodes (s.toList ++ _) = s.toList ++ _
          rw [Text.dropCodes_append hs, hrest]
      | code c =>
          show Text.dropCodes (c.escape.toList ++ _) = "".toList ++ _
          rw [Text.dropCodes_escape_append, hrest]
          rfl

/-! ## The pieces of a layout -/

namespace Diagnostic

theorem plain_of_mem_noteLayout {charset : Charset} {note : String} (h : '\x1b' ∉ note.toList)
    {p : Piece} (hp : p ∈ noteLayout charset note) : p.Plain := by
  have hline : ∀ {l : String}, l ∈ Text.lines note → '\x1b' ∉ l.toList :=
    fun hl hmem => h ((Text.of_mem_lines hl).2 hmem)
  unfold noteLayout at hp
  cases hlines : Text.lines note with
  | nil => simp [hlines] at hp
  | cons line further =>
      rw [hlines] at hp hline
      rcases List.mem_append.1 hp with hp | hp
      · have hfirst := hline List.mem_cons_self
        simp only [firstLine, charset.bullet_eq, List.mem_cons, List.not_mem_nil, or_false] at hp
        rcases hp with rfl | rfl | rfl | rfl | rfl | rfl <;> simp [Piece.Plain, hfirst]
      · obtain ⟨l, hl, rfl⟩ := List.mem_map.1 hp
        have hfurther := hline (List.mem_cons_of_mem _ hl)
        simp [furtherLine, Piece.Plain, hfurther]

theorem plain_of_mem_header {d : Diagnostic} (h : '\x1b' ∉ d.message.toList) {p : Piece}
    (hp : p ∈ d.header) : p.Plain := by
  simp only [header, List.mem_cons, List.not_mem_nil, or_false] at hp
  rcases hp with rfl | rfl | rfl | rfl | rfl | rfl | rfl | rfl | rfl <;> simp [Piece.Plain, h]

theorem plain_of_mem_layout {d : Diagnostic} (hmessage : '\x1b' ∉ d.message.toList)
    (hnotes : ∀ n ∈ d.notes, '\x1b' ∉ n.toList) {a : Appearance} {p : Piece}
    (hp : p ∈ d.layout a) : p.Plain := by
  have hnote : ∀ q ∈ d.notes.flatMap (noteLayout a.charset), q.Plain := by
    intro q hq
    obtain ⟨n, hn, hq⟩ := List.mem_flatMap.1 hq
    exact plain_of_mem_noteLayout (hnotes n hn) hq
  unfold layout at hp
  cases hdetail : a.detail with
  | rich =>
      simp only [hdetail, List.mem_append, List.mem_singleton] at hp
      rcases hp with (hp | hp) | rfl
      · exact plain_of_mem_header hmessage hp
      · exact hnote p hp
      · simp [Piece.Plain]
  | medium =>
      simp only [hdetail, List.mem_append] at hp
      rcases hp with hp | hp
      · exact plain_of_mem_header hmessage hp
      · exact hnote p hp
  | short =>
      simp only [hdetail] at hp
      exact plain_of_mem_header hmessage hp

/-! ## Details and characters -/

section Emit

variable (d : Diagnostic) (detail : Detail) (charset charset' : Charset) (color : Bool)

theorem emit_rich :
    d.emit ⟨.rich, charset, color⟩ = d.emit ⟨.medium, charset, color⟩ ++ "\n" := by
  simp only [emit, layout, List.map_append, String.join_append, List.map_cons, List.map_nil]
  rfl

theorem exists_emit_medium :
    ∃ rest, d.emit ⟨.medium, charset, color⟩ = d.emit ⟨.short, charset, color⟩ ++ rest := by
  simp only [emit, layout, List.map_append, String.join_append]
  exact ⟨_, rfl⟩

theorem emit_charset :
    d.emit ⟨detail, charset, color⟩ = d.emit ⟨detail, charset', color⟩ := by
  have hfirst : firstLine charset = firstLine charset' := by
    funext line
    rw [firstLine, firstLine, charset.bullet_eq, charset'.bullet_eq]
  have hnote : noteLayout charset = noteLayout charset' := by
    funext note
    rw [noteLayout, noteLayout, hfirst]
  rw [emit, emit, layout, layout, hnote]

end Emit

/-! ## Line feeds -/

/-- A note takes one line more than it has line feeds. -/
theorem count_unlines_noteLines {note : String} (h : Text.Closed note) :
    (Text.unlines (noteLines note)).toList.count '\n' = 1 + note.toList.count '\n' := by
  have hline : ∀ l ∈ noteLines note, l.toList.count '\n' + 1 = 1 := by
    intro l hl
    rw [List.count_eq_zero_of_not_mem (not_mem_of_mem_noteLines hl)]
  have hlength : (noteLines note).length = (Text.lines note).length := by
    unfold noteLines
    cases Text.lines note <;> simp
  rw [Text.count_unlines, List.map_congr_left hline, List.map_const', List.sum_replicate_nat,
    hlength, h.length_lines]
  simp [Nat.add_comm]

theorem count_unlines_notes {notes : List String} (h : ∀ n ∈ notes, Text.Closed n) :
    (Text.unlines (notes.flatMap noteLines)).toList.count '\n' =
      (notes.map fun n => 1 + n.toList.count '\n').sum := by
  induction notes with
  | nil => simp
  | cons note notes ih =>
      rw [List.flatMap_cons, Text.unlines_append, String.toList_append, List.count_append,
        count_unlines_noteLines (h note List.mem_cons_self),
        ih fun n hn => h n (List.mem_cons_of_mem _ hn), List.map_cons, List.sum_cons]

theorem count_emit {d : Diagnostic} (h : ∀ n ∈ d.notes, Text.Closed n) (charset : Charset) :
    (d.emit ⟨.rich, charset, false⟩).toList.count '\n' =
      2 + d.message.toList.count '\n' + (d.notes.map fun n => 1 + n.toList.count '\n').sum := by
  have hheader : ("error: " ++ d.message).toList.count '\n' = d.message.toList.count '\n' := by
    simp
  rw [emit_eq_unlines, allLines, Text.unlines_cons, Text.unlines_append, Text.unlines_cons]
  simp only [String.toList_append, List.count_append, count_unlines_notes h] at hheader ⊢
  rw [hheader]
  simp
  omega

end Diagnostic

/-! ## Findings -/

namespace Finding

/-- Something follows the last line feed of every note, whatever the names are. -/
theorem closed_of_mem_notes {f : Finding} {ns : List String} (hns : f.notes = .ok ns) {n : String}
    (hn : n ∈ ns) : Text.Closed n := by
  obtain ⟨rs, hrs, -⟩ := bind_eq_ok_iff.1 hns
  rw [notes_eq_ok hrs] at hns
  obtain rfl := Except.ok.inj hns
  rcases List.mem_append.1 hn with hn | hn
  · obtain ⟨r, -, rfl⟩ := List.mem_map.1 hn
    exact r.closed_text
  · obtain ⟨x, -, rfl⟩ := List.mem_map.1 hn
    exact x.closed_note

/-- A reachable finding is emitted as the same text in every appearance.  The short text begins the
one of medium detail, and the rich one has a line feed more; the characters do not matter; the
default is rich and without colour, and has two line feeds beside those of the message, those of
the notes and one for each note.  Where message and notes have no escape character, the coloured
text less its terminal codes is the one without colour. -/
theorem Reachable.emit_appearances {o : Origin} {l : List Attachment} {f : Finding}
    (h : Reachable o l f) :
    ∃ d, f.diagnostic = .ok d ∧ d.message = f.message ∧ (∀ a, f.emit a = .ok (d.emit a)) ∧
      (∀ charset color,
        (d.emit ⟨.short, charset, color⟩).toList <+: (d.emit ⟨.medium, charset, color⟩).toList ∧
          d.emit ⟨.rich, charset, color⟩ = d.emit ⟨.medium, charset, color⟩ ++ "\n") ∧
      (∀ detail charset charset' color,
        d.emit ⟨detail, charset, color⟩ = d.emit ⟨detail, charset', color⟩) ∧
      (∀ charset, f.emitPlain = f.emit ⟨.rich, charset, false⟩ ∧
        (d.emit ⟨.rich, charset, false⟩).toList.count '\n' =
          2 + d.message.toList.count '\n' +
            (d.notes.map fun n => 1 + n.toList.count '\n').sum) ∧
      ('\x1b' ∉ d.message.toList → (∀ n ∈ d.notes, '\x1b' ∉ n.toList) →
        ∀ detail charset, Text.dropCodes (d.emit ⟨detail, charset, true⟩).toList =
          (d.emit ⟨detail, charset, false⟩).toList) := by
  obtain ⟨ns, hns⟩ := h.sound.notes
  let d : Diagnostic := ⟨f.message, ns⟩
  have hemit : ∀ a, f.emit a = .ok (d.emit a) := emit_eq_ok hns
  have hclosed : ∀ n ∈ d.notes, Text.Closed n := fun n hn => closed_of_mem_notes hns hn
  refine ⟨d, diagnostic_eq_ok hns, rfl, hemit, fun charset color => ⟨?_, d.emit_rich charset color⟩,
    d.emit_charset, fun charset => ⟨?_, Diagnostic.count_emit hclosed charset⟩,
    fun hmessage hnotes detail charset => ?_⟩
  · obtain ⟨rest, hrest⟩ := d.exists_emit_medium charset color
    rw [hrest, String.toList_append]
    exact List.prefix_append _ _
  · rw [emitPlain, hemit, hemit, d.emit_charset .rich .boxDrawing charset false]
  · apply Text.dropCodes_join_write
    intro p hp
    exact Diagnostic.plain_of_mem_layout hmessage hnotes hp

/-- A line feed in the message and a name that ends in a return and a line feed are counted, and the
colour of the note can be left out again. -/
theorem Reachable.emit_appearances_returns :
    let s : Snapshot := ⟨[⟨"x\r\n", by decide⟩]⟩
    let f := (ofMessage "a\nb").attach (.snapshots [s])
    Reachable (.custom "a\nb") [.snapshots [s]] f ∧
    ∃ d, f.diagnostic = .ok d ∧ d.notes = ["stack:\n[\n    [ 0] x\r\n\n]"] ∧
      (d.emit ⟨.rich, .ascii, false⟩).toList.count '\n' = 2 + 1 + (1 + 4) ∧
      Text.dropCodes (d.emit ⟨.medium, .boxDrawing, true⟩).toList =
        (d.emit ⟨.medium, .boxDrawing, false⟩).toList := by
  intro s f
  have hreach : Reachable (.custom "a\nb") [.snapshots [s]] f := Reachable.attached (.made rfl) _
  obtain ⟨d, hd, hmessage, -, -, -, hcount, hcodes⟩ := hreach.emit_appearances
  have hnotes : d.notes = ["stack:\n[\n    [ 0] x\r\n\n]"] := by
    obtain rfl := Except.ok.inj ((diagnostic_eq_ok (notes_eq_ok rfl)).symm.trans hd)
    decide
  refine ⟨hreach, d, hd, hnotes, ?_, ?_⟩
  · rw [(hcount .ascii).2, hmessage, hnotes]
    decide
  · apply hcodes
    · rw [hmessage]
      decide
    · rw [hnotes]
      decide

end Finding

end StackVerdict
