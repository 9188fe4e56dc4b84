import Mathlib.Algebra.GroupWithZero.Nat
import Mathlib.Data.List.Basic
import StackVerdict.Text.Cut
import StackVerdict.Text.Numeral

/-!
# Reading text back

What is put together from lines, fixed beginnings and numerals can be taken apart again.  A text of
lines without line feeds gives back its lines (`readLines_unlines`), a text behind a fixed beginning
gives back the rest (`after?_append`), words that do not occur in what is in front of them give back
both sides (`append_sep_inj`, `quoted_sep_inj_iff`) and all pieces that they stand between
(`intercalate_sep_inj`), and a numeral in front of something that is no digit gives back the number
and what follows it (`toDigits_append_inj`).  A text is *closed* when something follows its last
line feed, so that it has one line more than line feeds (`Closed.length_lines`), and *intact* when
moreover its lines, joined again, are the text (`Intact.join_lines`).
-/

namespace StackVerdict.Text

/-! ## Fixed beginnings -/

/-- What follows `start` in a text that begins with it. -/
def after? (start s : String) : Option String :=
  (s.toList.dropPrefix? start.toList).map String.ofList

@[simp] theorem after?_append (start rest : String) : after? start (start ++ rest) = some rest := by
  have h : (start.toList ++ rest.toList).dropPrefix? start.toList = some rest.toList :=
    List.dropPrefix?_append_of_beq _ (by simp)
  rw [after?, String.toList_append, h]
  simp

/-- Texts differ if neither of the words that they begin with begins the other. -/
theorem append_ne_append {p q s t : String} (hp : ¬ p.toList <+: q.toList)
    (hq : ¬ q.toList <+: p.toList) : p ++ s ≠ q ++ t := by
  intro h
  rw [← String.toList_inj, String.toList_append, String.toList_append] at h
  have hbegins : q.toList <+: p.toList ++ s.toList := by
    rw [h]
    exact List.prefix_append _ _
  rcases List.prefix_or_prefix_of_prefix (List.prefix_append _ _) hbegins with hpq | hqp
  · exact hp hpq
  · exact hq hqp

/-! ## Lines that end in a line feed -/

/-- The lines of a text in which every line ends in a line feed. -/
def readLines (s : String) : List String :=
  (cut '\n' s).dropLast

theorem unlines_eq_join (ls : List String) : unlines ls = join '\n' (ls ++ [""]) := by
  induction ls with
  | nil => simp [join]
  | cons l ls ih =>
      obtain ⟨m, ms, hms⟩ : ∃ m ms, ls ++ [""] = m :: ms := List.exists_cons_of_ne_nil (by simp)
      rw [unlines_cons, ih, List.cons_append, hms, join, join, String.intercalate_cons_cons]
      rfl

theorem readLines_unlines {ls : List String} (h : ∀ l ∈ ls, '\n' ∉ l.toList) :
    readLines (unlines ls) = ls := by
  have hpieces : ∀ p ∈ ls ++ [""], '\n' ∉ p.toList := by
    intro p hp
    rcases List.mem_append.1 hp with hp | hp
    · exact h p hp
    · rw [List.mem_singleton.1 hp]
      simp
  rw [readLines, unlines_eq_join, cut_join hpieces (by simp), List.dropLast_concat]

theorem not_mem_unlines {c : Char} (hc : c ≠ '\n') {ls : List String}
    (h : ∀ l ∈ ls, c ∉ l.toList) : c ∉ (unlines ls).toList := by
  induction ls with
  | nil => simp
  | cons l ls ih =>
      have hl := h l List.mem_cons_self
      have hls := ih fun m hm => h m (List.mem_cons_of_mem _ hm)
      simp [hc, hl, hls]

/-- Every line brings one more line feed than it has itself. -/
theorem count_unlines (ls : List String) :
    (unlines ls).toList.count '\n' = (ls.map fun l => l.toList.count '\n' + 1).sum := by
  induction ls with
  | nil => simp
  | cons l ls ih =>
      rw [unlines_cons, String.toList_append, String.toList_append, List.count_append,
        List.count_append, ih, List.map_cons, List.sum_cons]
      rfl

/-! ## Pieces of a cut -/

theorem length_splitOn {α : Type} [DecidableEq α] (a : α) (xs : List α) :
    (xs.splitOn a).length = xs.count a + 1 := by
  induction xs with
  | nil => simp
  | cons x xs ih =>
      rw [List.splitOn_cons_eq_if_modifyHead, List.count_cons]
      split_ifs
      · rw [List.length_cons, ih]
      · rw [List.length_modifyHead, ih, Nat.add_zero]

/-- A piece between two separators has no separator, and nothing that is not in the whole. -/
theorem of_mem_splitOn {α : Type} [DecidableEq α] {a : α} {xs p : List α}
    (hp : p ∈ xs.splitOn a) : a ∉ p ∧ p ⊆ xs := by
  induction xs generalizing p with
  | nil =>
      rw [List.splitOn_nil, List.mem_singleton] at hp
      simp [hp]
  | cons x xs ih =>
      rw [List.splitOn_cons_eq_if_modifyHead] at hp
      split_ifs at hp with hx
      · rcases List.mem_cons.1 hp with rfl | hp
        · simp
        · exact ⟨(ih hp).1, List.subset_cons_of_subset x (ih hp).2⟩
      · obtain ⟨q, qs, hq⟩ := List.exists_cons_of_ne_nil (List.splitOn_ne_nil a xs)
        rw [hq, List.modifyHead_cons] at hp
        rcases List.mem_cons.1 hp with rfl | hp
        · obtain ⟨hnot, hsub⟩ := ih (p := q) (by simp [hq])
          refine ⟨?_, List.cons_subset_cons x hsub⟩
          rintro (_ | ⟨_, hmem⟩)
          · simp at hx
          · exact hnot hmem
        · obtain ⟨hnot, hsub⟩ := ih (p := p) (by simp [hq, hp])
          exact ⟨hnot, List.subset_cons_of_subset x hsub⟩

/-- What stands around a separator is cut by itself. -/
theorem cut_append (sep : Char) (s t : String) :
    cut sep (s ++ String.singleton sep ++ t) = cut sep s ++ cut sep t := by
  have hlist : (s ++ String.singleton sep ++ t).toList = s.toList ++ sep :: t.toList := by simp
  rw [cut, hlist, List.splitOn_append_cons_of_beq _ _ (beq_self_eq_true sep), List.map_append]
  rfl

/-- A text whose last piece is empty is empty or ends in the separator. -/
theorem last_cut_ne_empty {s : String} (hne : s ≠ "") (hlast : s.toList.getLast? ≠ some '\n') :
    (cut '\n' s).getLast? ≠ some "" := by
  intro h
  obtain ⟨ls, hls⟩ : ∃ ls, cut '\n' s = ls ++ [""] := List.getLast?_eq_some_iff.1 h
  have hs : s = unlines ls := by
    rw [unlines_eq_join, ← hls, join_cut]
  rcases List.eq_nil_or_concat ls with rfl | ⟨init, l, rfl⟩
  · exact hne (by simpa using hs)
  · rw [List.concat_eq_append, unlines_append] at hs
    exact hlast (by simp [hs])

/-! ## Words between two texts -/

/-- What stands in front of a mark begins with a part that has no mark in it. -/
theorem exists_eq_append_of_append_eq {α : Type} {c : α} {cs d s t : List α} (hc : c ∉ cs)
    (h : cs ++ s = d ++ c :: t) : ∃ e, d = cs ++ e ∧ s = e ++ c :: t := by
  rcases List.append_eq_append_iff.1 h with ⟨e, hd, hs⟩ | ⟨e, hcs, he⟩
  · exact ⟨e, hd, hs⟩
  · cases e with
    | nil => exact ⟨[], by simp [hcs], by simpa using he.symm⟩
    | cons y e =>
        obtain rfl : c = y := (List.cons.inj he).1
        exact absurd (by simp [hcs]) hc

/-- Of two separators `c :: cs` one is not begun inside the other, because `c` is only at their
beginning: a part in front of the second is empty or holds the first. -/
theorem eq_nil_or_of_sep_append {α : Type} {c : α} {cs d s t : List α} (hc : c ∉ cs)
    (h : c :: cs ++ s = d ++ (c :: cs ++ t)) :
    d = [] ∨ ∃ e, d = c :: cs ++ e ∧ s = e ++ (c :: cs ++ t) := by
  cases d with
  | nil => exact .inl rfl
  | cons x d =>
      obtain rfl : c = x := (List.cons.inj h).1
      obtain ⟨e, rfl, he⟩ := exists_eq_append_of_append_eq hc (List.cons.inj h).2
      exact .inr ⟨e, rfl, he⟩

/-- Behind a part without the separator `c :: cs` the first separator comes at once. -/
theorem eq_nil_of_sep_append {α : Type} {c : α} {cs a d s t : List α} (hc : c ∉ cs)
    (hd : ¬ c :: cs <:+: a ++ d) (h : c :: cs ++ s = d ++ (c :: cs ++ t)) : d = [] := by
  rcases eq_nil_or_of_sep_append hc h with hnil | ⟨e, rfl, -⟩
  · exact hnil
  · exact absurd ⟨a, e, by simp⟩ hd

theorem append_sep_inj {α : Type} {c : α} {cs a b s t : List α} (hc : c ∉ cs)
    (ha : ¬ c :: cs <:+: a) (hb : ¬ c :: cs <:+: b)
    (h : a ++ (c :: cs ++ s) = b ++ (c :: cs ++ t)) : a = b ∧ s = t := by
  rcases List.append_eq_append_iff.1 h with ⟨d, rfl, hd⟩ | ⟨d, rfl, hd⟩
  · obtain rfl := eq_nil_of_sep_append hc hb hd
    exact ⟨by simp, List.append_cancel_left hd⟩
  · obtain rfl := eq_nil_of_sep_append hc ha hd
    exact ⟨by simp, (List.append_cancel_left hd).symm⟩

/-- Two words around a separator that has a quote at either end are told from all others, if no
separator begins in the first word or ends in the second. -/
theorem append_quoted_sep_inj {α : Type} {c : α} {cs a b s t : List α} (hc : c ∉ cs)
    (ha : ¬ c :: cs ++ [c] <:+: a ++ [c]) (hs : ¬ c :: cs ++ [c] <:+: c :: s)
    (h : a ++ (c :: cs ++ c :: s) = b ++ (c :: cs ++ c :: t)) : a = b ∧ s = t := by
  rcases List.append_eq_append_iff.1 h with ⟨d, rfl, hd⟩ | ⟨d, rfl, hd⟩
  · rcases eq_nil_or_of_sep_append hc hd with rfl | ⟨e, -, he⟩
    · exact ⟨by simp, by simpa using hd⟩
    · exact absurd ⟨e, t, by simp [he]⟩ hs
  · rcases eq_nil_or_of_sep_append hc hd with rfl | ⟨e, rfl, he⟩
    · exact ⟨by simp, by simpa using hd.symm⟩
    · cases e with
      | nil => exact absurd ⟨b, [], by simp⟩ ha
      | cons y e =>
          obtain rfl : c = y := (List.cons.inj he).1
          exact absurd ⟨b, e ++ [c], by simp⟩ ha

/-- There is no other way to take such words and the separator apart just when no separator begins
in the first word or ends in the second. -/
theorem quoted_sep_inj_iff {α : Type} {c : α} {cs a s : List α} (hc : c ∉ cs) :
    (∀ b t, a ++ (c :: cs ++ c :: s) = b ++ (c :: cs ++ c :: t) → a = b ∧ s = t) ↔
      ¬ c :: cs ++ [c] <:+: a ++ [c] ∧ ¬ c :: cs ++ [c] <:+: c :: s := by
  refine ⟨fun h => ⟨?_, ?_⟩, fun ⟨ha, hs⟩ b t => append_quoted_sep_inj hc ha hs⟩
  · rintro ⟨p, q, hpq⟩
    have hread : a ++ (c :: cs ++ c :: s) = p ++ (c :: cs ++ c :: (q ++ (cs ++ c :: s))) := by
      calc a ++ (c :: cs ++ c :: s) = a ++ [c] ++ (cs ++ c :: s) := by simp
        _ = p ++ (c :: cs ++ c :: (q ++ (cs ++ c :: s))) := by simp [← hpq]
    obtain ⟨rfl, -⟩ := h _ _ hread
    simpa using congrArg List.length hpq
  · rintro ⟨p, q, hpq⟩
    have hread : a ++ (c :: cs ++ c :: s) = a ++ (c :: cs ++ p) ++ (c :: cs ++ c :: q) := by
      simp [← hpq]
    have hlength := congrArg List.length (h _ _ hread).1
    simp at hlength

theorem sep_infix_intercalate {α : Type} (sep a b : List α) (ls : List (List α)) :
    sep <:+: sep.intercalate (a :: b :: ls) := by
  rw [List.intercalate_cons_cons]
  exact List.infix_append a sep _

theorem intercalate_cons_ne_nil {α : Type} {sep a : List α} (ha : a ≠ []) (ls : List (List α)) :
    sep.intercalate (a :: ls) ≠ [] := by
  cases ls with
  | nil => rwa [List.intercalate_singleton]
  | cons b ls => simp [List.intercalate_cons_cons, ha]

/-- Pieces between separators are told apart if none of them is empty or holds the separator. -/
theorem intercalate_sep_inj {α : Type} {c : α} {cs : List α} {as bs : List (List α)} (hc : c ∉ cs)
    (ha : ∀ a ∈ as, a ≠ [] ∧ ¬ c :: cs <:+: a) (hb : ∀ b ∈ bs, b ≠ [] ∧ ¬ c :: cs <:+: b)
    (h : (c :: cs).intercalate as = (c :: cs).intercalate bs) : as = bs := by
  induction as generalizing bs with
  | nil =>
      cases bs with
      | nil => rfl
      | cons b bs => exact absurd h.symm (intercalate_cons_ne_nil (hb b List.mem_cons_self).1 bs)
  | cons a as ih =>
      obtain ⟨⟨hne, hnot⟩, has⟩ := List.forall_mem_cons.1 ha
      cases bs with
      | nil => exact absurd h (intercalate_cons_ne_nil hne as)
      | cons b bs =>
          obtain ⟨⟨-, hnot'⟩, hbs⟩ := List.forall_mem_cons.1 hb
          cases as with
          | nil =>
              rw [List.intercalate_singleton] at h
              cases bs with
              | nil => rw [h, List.intercalate_singleton]
              | cons b' bs =>
                  rw [h] at hnot
                  exact absurd (sep_infix_intercalate ..) hnot
          | cons a' as =>
              cases bs with
              | nil =>
                  rw [List.intercalate_singleton] at h
                  rw [← h] at hnot'
                  exact absurd (sep_infix_intercalate ..) hnot'
              | cons b' bs =>
                  -- The first separator on either side ends the first piece.
                  rw [List.intercalate_cons_cons, List.intercalate_cons_cons, List.append_assoc,
                    List.append_assoc] at h
                  obtain ⟨rfl, hrest⟩ := append_sep_inj hc hnot hnot' h
                  rw [ih has hbs hrest]

/-! ## Sections and numbered lines -/

/-- Sections behind a separator each are read back if none of them holds the separator. -/
theorem splitOn_flatMap_cons {α : Type} [DecidableEq α] {a : α} {ls : List (List α)}
    (h : ∀ l ∈ ls, a ∉ l) : (ls.flatMap (a :: ·)).splitOn a = [] :: ls := by
  have hjoin : ∀ (l : List α) (ls : List (List α)),
      l ++ ls.flatMap (a :: ·) = [a].intercalate (l :: ls) := by
    intro l ls
    induction ls generalizing l with
    | nil => simp
    | cons m ls ih =>
        rw [List.flatMap_cons, List.cons_append, ih m, List.intercalate_cons_cons,
          List.append_assoc]
        rfl
  have hsections : ∀ l ∈ [] :: ls, a ∉ l := by
    intro l hl
    rcases List.mem_cons.1 hl with rfl | hl
    · exact List.not_mem_nil
    · exact h l hl
  rw [← List.splitOn_intercalate a hsections (by simp), ← hjoin]
  rfl

/-- What stands in lines of which each is read with its number. -/
def readNumbered {α : Type} (read : Nat → String → Option α) (ls : List String) :
    Option (List α) :=
  (ls.mapIdx read).mapM id

theorem readNumbered_mapIdx {α : Type} {read : Nat → String → Option α} {write : Nat → α → String}
    (h : ∀ i a, read i (write i a) = some a) (l : List α) :
    readNumbered read (l.mapIdx write) = some l := by
  have hread : (l.mapIdx write).mapIdx read = l.map some := by
    rw [List.mapIdx_mapIdx]
    refine List.ext_getElem (by simp) fun i _ _ => ?_
    rw [List.getElem_mapIdx, List.getElem_map]
    exact h i _
  rw [readNumbered, hread, List.mapM_map]
  simpa using List.mapM_pure (m := Option) (l := l) (f := id)

/-! ## Lines of a text -/

theorem not_mem_append {c : Char} {s t : String} (hs : c ∉ s.toList) (ht : c ∉ t.toList) :
    c ∉ (s ++ t).toList := by
  rw [String.toList_append]
  exact List.not_mem_append hs ht

theorem dropReturn_subset (s : List Char) : dropReturn s ⊆ s := by
  unfold dropReturn
  split_ifs
  · exact List.dropLast_subset s
  · exact List.Subset.refl s

/-- The lines are the pieces between line feeds: those that a line feed ends, without the return
before it, and the last one unless it is empty. -/
theorem exists_lines_eq (s : String) :
    ∃ init last, s.toList.splitOn '\n' = init ++ [last] ∧
      lines s = (init.map dropReturn ++ if last = [] then [] else [last]).map String.ofList := by
  obtain ⟨init, last, hpieces⟩ : ∃ init last, s.toList.splitOn '\n' = init ++ [last] := by
    rcases List.eq_nil_or_concat (s.toList.splitOn '\n') with hnil | ⟨init, last, hconcat⟩
    · exact absurd hnil (List.splitOn_ne_nil _ _)
    · exact ⟨init, last, by rw [hconcat, List.concat_eq_append]⟩
  exact ⟨init, last, hpieces, by simp [lines, hpieces]⟩

/-- A line has no line feed, and nothing that is not in the text. -/
theorem of_mem_lines {s l : String} (hl : l ∈ lines s) :
    '\n' ∉ l.toList ∧ l.toList ⊆ s.toList := by
  obtain ⟨init, last, hpieces, hlines⟩ := exists_lines_eq s
  have hpiece : ∃ p ∈ s.toList.splitOn '\n', l.toList ⊆ p := by
    rw [hlines] at hl
    obtain ⟨cs, hcs, rfl⟩ := List.mem_map.1 hl
    rw [hpieces, String.toList_ofList]
    rcases List.mem_append.1 hcs with hcs | hcs
    · obtain ⟨p, hp, rfl⟩ := List.mem_map.1 hcs
      exact ⟨p, List.mem_append_left _ hp, dropReturn_subset p⟩
    · split_ifs at hcs
      · cases hcs
      · exact ⟨cs, List.mem_append_right _ hcs, List.Subset.refl cs⟩
  obtain ⟨p, hp, hsub⟩ := hpiece
  obtain ⟨hnot, hall⟩ := of_mem_splitOn hp
  exact ⟨fun h => hnot (hsub h), List.Subset.trans hsub hall⟩

/-- A text in which something follows the last line feed. -/
structure Closed (s : String) : Prop where
  ne_empty : s ≠ ""
  last : s.toList.getLast? ≠ some '\n'

theorem closed_ofList {cs : List Char} (hlast : ∃ c ∈ cs.getLast?, c ≠ '\n') :
    Closed (String.ofList cs) := by
  obtain ⟨c, hc, hfeed⟩ := hlast
  refine ⟨?_, ?_⟩
  · rw [Ne, ← String.toList_inj, String.toList_ofList]
    rintro rfl
    cases hc
  · rw [String.toList_ofList, Option.mem_def.1 hc]
    exact fun h => hfeed (Option.some.inj h)

theorem Closed.append {t : String} (s : String) (ht : Closed t) : Closed (s ++ t) := by
  refine ⟨by simp [ht.ne_empty], ?_⟩
  have hne : t.toList ≠ [] := by
    rw [Ne, String.toList_eq_nil_iff]
    exact ht.ne_empty
  rw [String.toList_append, List.getLast?_append_of_ne_nil _ hne]
  exact ht.last

/-- Each piece of such a text is a line, without the return at its end but for the last one. -/
theorem Closed.exists_lines_eq {s : String} (h : Closed s) :
    ∃ init last, s.toList.splitOn '\n' = init ++ [last] ∧
      lines s = (init.map dropReturn ++ [last]).map String.ofList := by
  obtain ⟨init, last, hpieces, hlines⟩ := Text.exists_lines_eq s
  have hlast : last ≠ [] := by
    rintro rfl
    exact last_cut_ne_empty h.ne_empty h.last (by simp [cut, hpieces])
  rw [if_neg hlast] at hlines
  exact ⟨init, last, hpieces, hlines⟩

/-- The lines of such a text are ended by its line feeds, and by its end. -/
theorem Closed.length_lines {s : String} (h : Closed s) :
    (lines s).length = s.toList.count '\n' + 1 := by
  obtain ⟨init, last, hpieces, hlines⟩ := h.exists_lines_eq
  rw [hlines, ← length_splitOn, hpieces]
  simp

/-! ## Intact texts -/

/-- A text that its lines give back: it is not empty, does not end in a line feed, and has no
carriage return. -/
structure Intact (s : String) : Prop where
  ne_empty : s ≠ ""
  last : s.toList.getLast? ≠ some '\n'
  noReturn : '\r' ∉ s.toList

theorem Intact.closed {s : String} (h : Intact s) : Closed s := ⟨h.ne_empty, h.last⟩

theorem Closed.intact {s : String} (h : Closed s) (hreturn : '\r' ∉ s.toList) : Intact s :=
  ⟨h.ne_empty, h.last, hreturn⟩

theorem dropReturn_of_not_mem {s : List Char} (h : '\r' ∉ s) : dropReturn s = s := by
  unfold dropReturn
  split_ifs with hlast
  · exact absurd (List.mem_of_getLast? hlast) h
  · rfl

theorem Intact.lines_eq {s : String} (h : Intact s) : lines s = cut '\n' s := by
  obtain ⟨init, last, hpieces, hlines⟩ := h.closed.exists_lines_eq
  have hinit : init.map dropReturn = init := by
    conv_rhs => rw [← List.map_id init]
    refine List.map_congr_left fun p hp => dropReturn_of_not_mem fun hr => h.noReturn ?_
    have hmem : p ∈ s.toList.splitOn '\n' := by
      rw [hpieces]
      exact List.mem_append_left _ hp
    exact (of_mem_splitOn hmem).2 hr
  rw [hlines, cut, hpieces, hinit]

theorem Intact.join_lines {s : String} (h : Intact s) : join '\n' (lines s) = s := by
  rw [h.lines_eq, join_cut]

theorem Intact.lines_ne_nil {s : String} (h : Intact s) : lines s ≠ [] := by
  rw [h.lines_eq]
  exact cut_ne_nil '\n' s

/-! ## Numerals -/

theorem isDigit_of_mem_toDigits {n : Nat} {c : Char} (h : c ∈ Nat.toDigits 10 n) :
    c.isDigit = true :=
  Nat.isDigit_of_mem_toDigits (by decide) (by decide) h

theorem takeWhile_toDigits_append {n : Nat} {rest : List Char}
    (h : ∀ c ∈ rest.head?, c.isDigit = false) :
    (Nat.toDigits 10 n ++ rest).takeWhile Char.isDigit = Nat.toDigits 10 n := by
  rw [List.takeWhile_append_of_pos fun c hc => isDigit_of_mem_toDigits hc]
  cases rest with
  | nil => simp
  | cons c rest => simp [h c rfl]

theorem dropWhile_toDigits_append {n : Nat} {rest : List Char}
    (h : ∀ c ∈ rest.head?, c.isDigit = false) :
    (Nat.toDigits 10 n ++ rest).dropWhile Char.isDigit = rest := by
  rw [List.dropWhile_append_of_pos fun c hc => isDigit_of_mem_toDigits hc]
  cases rest with
  | nil => rfl
  | cons c rest => simp [h c rfl]

/-- A numeral ends where no digit follows, so it can be told from what follows. -/
theorem toDigits_append_inj {n m : Nat} {s t : List Char} (hs : ∀ c ∈ s.head?, c.isDigit = false)
    (ht : ∀ c ∈ t.head?, c.isDigit = false)
    (h : Nat.toDigits 10 n ++ s = Nat.toDigits 10 m ++ t) : n = m ∧ s = t := by
  have hdigits : Nat.toDigits 10 n = Nat.toDigits 10 m := by
    rw [← takeWhile_toDigits_append hs, h, takeWhile_toDigits_append ht]
  have hnm : n = m := by
    rw [← Nat.ofDigitChars_ten_toDigits (n := n), hdigits, Nat.ofDigitChars_ten_toDigits]
  rw [hdigits] at h
  exact ⟨hnm, List.append_cancel_left h⟩

/-- Numerals in front of the same word are told apart, unless the word starts with a digit. -/
theorem repr_append_inj {n m : Nat} {sep s t : String} {c : Char} {cs : List Char}
    (hsep : sep.toList = c :: cs) (hc : c.isDigit = false)
    (h : n.repr ++ (sep ++ s) = m.repr ++ (sep ++ t)) : n = m := by
  rw [← String.toList_inj] at h
  simp only [String.toList_append, Nat.toList_repr, hsep] at h
  exact (toDigits_append_inj (by simpa using hc) (by simpa using hc) h).1

theorem of_mem_column {c : Char} {width n : Nat} (h : c ∈ (column width n).toList) :
    c = ' ' ∨ c.isDigit = true := by
  rw [toList_column, List.leftpad] at h
  rcases List.mem_append.1 h with h | h
  · exact Or.inl (List.eq_of_mem_replicate h)
  · exact Or.inr (isDigit_of_mem_toDigits h)

/-- Behind the blanks in front of a numeral in its column stands the numeral. -/
theorem dropWhile_column_append (width n : Nat) (rest : List Char) :
    ((column width n).toList ++ rest).dropWhile (· == ' ') = Nat.toDigits 10 n ++ rest := by
  obtain ⟨c, cs, hcs⟩ := List.exists_cons_of_ne_nil (Nat.toDigits_ne_nil (b := 10) (n := n))
  have hdigit : c.isDigit = true := isDigit_of_mem_toDigits (n := n) (by simp [hcs])
  have hblank : (c == ' ') = false := by
    rw [beq_eq_false_iff_ne]
    rintro rfl
    simp at hdigit
  rw [toList_column, List.leftpad, List.append_assoc,
    List.dropWhile_append_of_pos fun d hd => by simp [List.eq_of_mem_replicate hd], hcs,
    List.cons_append, List.dropWhile_cons_of_neg (by simp [hblank])]

/-- A text that writes a number: one or more ASCII digits, behind one plus sign or none, whose value
is not above `maxCount`. -/
def WritesCount (s : String) : Prop :=
  ∃ digits, (s.toList = digits ∨ s.toList = '+' :: digits) ∧ digits ≠ [] ∧
    (∀ c ∈ digits, c.isDigit = true) ∧ Nat.ofDigitChars 10 digits 0 ≤ maxCount

theorem unsigned_of_isDigit {digits : List Char} (h : ∀ c ∈ digits, c.isDigit = true) :
    unsigned digits = digits := by
  unfold unsigned
  split
  · next rest => exact absurd (h '+' List.mem_cons_self) (by decide)
  · rfl

theorem eq_unsigned_or (cs : List Char) : cs = unsigned cs ∨ cs = '+' :: unsigned cs := by
  unfold unsigned
  split
  · exact .inr rfl
  · exact .inl rfl

theorem readCount?_isSome_iff {s : String} : (readCount? s).isSome ↔ WritesCount s := by
  unfold readCount?
  dsimp only
  constructor
  · intro h
    split_ifs at h with hdigits
    · obtain ⟨hne, hall, hmax⟩ := hdigits
      exact ⟨_, eq_unsigned_or _, hne, by simpa using hall, hmax⟩
    · cases h
  · rintro ⟨digits, hs, hne, hall, hmax⟩
    have hunsigned : unsigned s.toList = digits := by
      rcases hs with hs | hs
      · rw [hs, unsigned_of_isDigit hall]
      · rw [hs, unsigned]
    rw [hunsigned, if_pos ⟨hne, by simpa using hall, hmax⟩]
    rfl

theorem writesCount_repr {n : Nat} (h : n ≤ maxCount) : WritesCount n.repr := by
  rw [← readCount?_isSome_iff, readCount?_repr h]
  rfl

/-! ## Breaks -/

/-- The characters that the lines of a text end in. -/
def IsBreak (c : Char) : Prop := c = '\n' ∨ c = '\r'

theorem IsBreak.not_mem_toDigits {c : Char} (hc : IsBreak c) (n : Nat) :
    c ∉ Nat.toDigits 10 n := by
  intro h
  have hdigit := isDigit_of_mem_toDigits h
  rcases hc with rfl | rfl <;> simp at hdigit

theorem IsBreak.not_mem_column {c : Char} (hc : IsBreak c) (width n : Nat) :
    c ∉ (column width n).toList := by
  intro h
  rcases of_mem_column h with hblank | hdigit
  · rcases hc with rfl | rfl <;> simp at hblank
  · rcases hc with rfl | rfl <;> simp at hdigit

theorem IsBreak.not_mem_repr {c : Char} (hc : IsBreak c) (n : Nat) : c ∉ n.repr.toList := by
  rw [Nat.toList_repr]
  exact hc.not_mem_toDigits n

theorem closed_repr (n : Nat) : Closed n.repr := by
  refine ⟨?_, fun h => ?_⟩
  · rw [Ne, ← String.toList_eq_nil_iff, Nat.toList_repr]
    exact Nat.toDigits_ne_nil
  · exact IsBreak.not_mem_repr (.inl rfl) n (List.mem_of_getLast? h)

end StackVerdict.Text
