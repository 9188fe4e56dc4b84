import StackVerdict.Proofs.Exhibit
import StackVerdict.Proofs.Reachable

/-!
# Which stack stands under which heading

A heading is chosen from the place of its stack alone, so it names the right stack because the
stacks of the failed check stay in front, however many are attached behind them.  Two places of one
finding never have the same heading (`Finding.heading_inj`).  The headings of the two ends of a
branch belong to the two stacks that do not fit, and to no others (`Finding.Reachable.headings`).
-/

namespace StackVerdict

namespace Finding

variable {f : Finding} {i j n : Nat}

theorem isMismatch_iff : f.isMismatch = true ↔ ∃ a b, f.verdict = some (.stackMismatch a b) := by
  unfold isMismatch
  rcases f.verdict with _ | v
  · simp
  · cases v <;> simp [Verdict.kind]

/-! ## The heading of a place -/

theorem length_of_heading_eq_sole (h : f.heading i = .sole) : f.snapshots.length = 1 := by
  unfold heading at h
  split_ifs at h with _ _ hlength
  simpa using hlength

theorem eq_of_heading_eq_numbered (h : f.heading i = .numbered n) : i = n := by
  unfold heading at h
  split_ifs at h
  exact Heading.numbered.inj h

/-- The stack that needs no number is the only one, and every number is that of one place. -/
theorem heading_inj (hi : i < f.snapshots.length) (hj : j < f.snapshots.length)
    (h : f.heading i = f.heading j) : i = j := by
  cases hheading : f.heading j with
  | branch =>
      have hbranch := heading_eq_branch_iff.1 (h.trans hheading)
      rw [hbranch.2, (heading_eq_branch_iff.1 hheading).2]
  | destination =>
      have hdestination := heading_eq_destination_iff.1 (h.trans hheading)
      rw [hdestination.2, (heading_eq_destination_iff.1 hheading).2]
  | sole =>
      have hlength := length_of_heading_eq_sole hheading
      omega
  | numbered n =>
      rw [eq_of_heading_eq_numbered (h.trans hheading), eq_of_heading_eq_numbered hheading]

theorem nodup_headings (f : Finding) : (f.exhibits.map fun x => x.heading.text).Nodup := by
  apply List.pairwise_iff_getElem.2
  intro i j hi hj hij h
  rw [List.length_map, length_exhibits] at hi hj
  simp only [exhibits, List.getElem_map, List.getElem_mapIdx] at h
  have heq := heading_inj hi hj (Heading.text_injective h)
  omega

end Finding

/-! ## The stacks under their headings -/

/-- Stacks under the numbers from `n` on. -/
def Exhibit.numberedFrom (n : Nat) (l : List Snapshot) : List Exhibit :=
  l.mapIdx fun i s => ⟨.numbered (n + i), s⟩

theorem Exhibit.map_stack_numberedFrom (n : Nat) (l : List Snapshot) :
    (numberedFrom n l).map stack = l := by
  apply List.ext_getElem <;> simp [numberedFrom]

theorem Exhibit.heading_text_ne_of_mem_numberedFrom {n : Nat} {l : List Snapshot} {x : Exhibit}
    (hx : x ∈ numberedFrom n l) :
    x.heading.text ≠ "stack at branch" ∧ x.heading.text ≠ "stack at destination" := by
  obtain ⟨i, hi, rfl⟩ := List.mem_mapIdx.1 hx
  constructor
  · exact Heading.text_numbered_ne (h := .branch) (by simp)
  · exact Heading.text_numbered_ne (h := .destination) (by simp)

theorem Verdict.Explainable.exists_snapshots_eq {v : Verdict} (h : v.Explainable)
    (hkind : v.kind ≠ .stackMismatch) : ∃ s, v.snapshots = [s] := by
  cases v with
  | success => exact absurd h id
  | stackMismatch branch destination => exact absurd rfl hkind
  | _ => exact ⟨_, rfl⟩

namespace Finding

variable {f : Finding}

/-- Two stacks that do not fit, and those behind them. -/
theorem exhibits_of_mismatch {a b : Snapshot} {rest : List Snapshot} (hf : f.isMismatch = true)
    (h : f.snapshots = a :: b :: rest) :
    f.exhibits = ⟨.branch, a⟩ :: ⟨.destination, b⟩ :: Exhibit.numberedFrom 2 rest := by
  rw [exhibits, h]
  simp [heading, hf, h, Exhibit.numberedFrom, Nat.add_comm 2]

/-- A stack that stands first for another reason, and those behind it. -/
theorem exhibits_of_not_mismatch {s : Snapshot} {rest : List Snapshot} (hf : f.isMismatch = false)
    (h : f.snapshots = s :: rest) :
    f.exhibits =
      ⟨if rest = [] then .sole else .numbered 0, s⟩ :: Exhibit.numberedFrom 1 rest := by
  rw [exhibits, h]
  cases rest with
  | nil => simp [heading, hf, h, Exhibit.numberedFrom]
  | cons t rest => simp [heading, hf, h, Exhibit.numberedFrom, Nat.add_comm 1]

theorem isMismatch_of_mem_exhibits {x : Exhibit} (hx : x ∈ f.exhibits)
    (h : x.heading = .branch ∨ x.heading = .destination) : f.isMismatch = true := by
  obtain ⟨i, hi, rfl⟩ := List.mem_mapIdx.1 hx
  rcases h with h | h
  · exact (heading_eq_branch_iff.1 h).1
  · exact (heading_eq_destination_iff.1 h).1

/-- Every stack of a finding stands under one heading, in order, and no heading stands twice.  The
two stacks of a check that do not fit are headed as those at a branch and at its destination, and
nothing that is attached is; the stack of any other check has no number while it is alone, and
number 0 from then on. -/
theorem Reachable.headings {o : Origin} {l : List Attachment} (h : Reachable o l f) :
    f.exhibits.map Exhibit.stack = f.snapshots ∧
    (f.exhibits.map fun x => x.heading.text).Nodup ∧
    (∀ a b, f.verdict = some (.stackMismatch a b) →
      ∃ x y rest, f.exhibits = x :: y :: rest ∧
        x.heading.text = "stack at branch" ∧ x.stack = a ∧
        y.heading.text = "stack at destination" ∧ y.stack = b ∧
        rest.map Exhibit.stack = Attachment.allSnapshots l ∧
        ∀ z ∈ rest,
          z.heading.text ≠ "stack at branch" ∧ z.heading.text ≠ "stack at destination") ∧
    (∀ v, f.verdict = some v → v.kind ≠ .stackMismatch →
      ∃ x rest, f.exhibits = x :: rest ∧ v.snapshots = [x.stack] ∧
        rest.map Exhibit.stack = Attachment.allSnapshots l ∧
        x.heading.text = if Attachment.allSnapshots l = [] then "stack" else "stack #0") ∧
    ∀ x ∈ f.exhibits,
      x.heading.text = "stack at branch" ∨ x.heading.text = "stack at destination" →
        ∃ a b, f.verdict = some (.stackMismatch a b) := by
  have hs := h.sound
  refine ⟨f.map_stack_exhibits, f.nodup_headings, fun a b hv => ?_, fun v hv hkind => ?_,
    fun x hx htext => ?_⟩
  · have hsnapshots : f.snapshots = a :: b :: Attachment.allSnapshots l := hs.snapshots_eq hv
    exact ⟨_, _, _, exhibits_of_mismatch (isMismatch_iff.2 ⟨a, b, hv⟩) hsnapshots, rfl, rfl, rfl,
      rfl, Exhibit.map_stack_numberedFrom _ _,
      fun z hz => Exhibit.heading_text_ne_of_mem_numberedFrom hz⟩
  · obtain ⟨s, hstack⟩ := (hs.explainable v (hs.verdict.symm.trans hv)).exists_snapshots_eq hkind
    have hsnapshots := hs.snapshots_eq hv
    rw [hstack, List.singleton_append] at hsnapshots
    have hmismatch : f.isMismatch = false := by
      rw [isMismatch, hv]
      simpa using hkind
    refine ⟨_, _, exhibits_of_not_mismatch hmismatch hsnapshots, hstack,
      Exhibit.map_stack_numberedFrom _ _, ?_⟩
    split_ifs
    · rfl
    · rfl
  · apply isMismatch_iff.1
    apply isMismatch_of_mem_exhibits hx
    exact htext.imp (fun h => Heading.text_injective (k := .branch) h)
      fun h => Heading.text_injective (k := .destination) h

/-- Stacks that are attached do not take the headings of the branch, also where they are equal to
the stack at the branch. -/
theorem Reachable.headings_equal_stacks :
    let s : Snapshot := ⟨[.int32]⟩
    let v : Verdict := .stackMismatch s .empty
    let l : List Attachment := [.snapshots [s], .instructions ["Br"], .snapshots [s]]
    ∃ f, Reachable (.check "Br" v) l f ∧ (f.exhibits.map fun x => x.heading.text).Nodup ∧
      ∃ x y rest, f.exhibits = x :: y :: rest ∧ x.heading.text = "stack at branch" ∧
        x.stack = s ∧ y.heading.text = "stack at destination" ∧ y.stack = .empty ∧
        rest.map Exhibit.stack = [s, s] ∧
        ∀ z ∈ rest,
          z.heading.text ≠ "stack at branch" ∧ z.heading.text ≠ "stack at destination" := by
  intro s v l
  obtain ⟨g, hg⟩ : ∃ g, ofOrigin (.check "Br" v) = .ok g := ⟨_, rfl⟩
  have hreach := (((Reachable.made hg).attached (.snapshots [s])).attached
    (.instructions ["Br"])).attached (.snapshots [s])
  obtain ⟨-, hnodup, hmismatch, -, -⟩ := hreach.headings
  exact ⟨_, hreach, hnodup, hmismatch s .empty hreach.sound.verdict⟩

end Finding

end StackVerdict
