import FormatSettings.Proofs.Toml.Verbatim.Failing
import FormatSettings.Proofs.Toml.Verbatim.UnifyingLines

namespace FormatSettings.Toml.Verbatim

inductive LinesSay : List Line → List Statement → Prop
  | nil : LinesSay [] []
  | cons {line : Line} {lines : List Line} {s : Statement} {ss : List Statement}
      (h : LineSays line s) (hrest : LinesSay lines ss) : LinesSay (line :: lines) (s.said ++ ss)

theorem readLines_nil (fuel : Nat) : readLines fuel [] = [] := by
  cases fuel with
  | zero => rfl
  | succ fuel => rfl

theorem linesSay_readLines {fuel : Nat} {cs us : List Char} {ss : List Statement} (hus : Unifies cs us)
    (hfuel : us.length ≤ fuel) (h : readLines? (splitLines us) = some ss)
    (hwhole : ∀ line ∈ readLines fuel cs, line.IsWhole) :
    LinesSay (readLines fuel cs) (ss.flatMap Statement.said) := by
  have hempty {ss : List Statement} (h : readLines? (splitLines []) = some ss) (fuel : Nat) :
      LinesSay (readLines fuel []) (ss.flatMap Statement.said) := by
    cases h
    rw [readLines_nil]
    exact .nil
  induction fuel generalizing cs us ss with
  | zero =>
    obtain rfl := List.length_eq_zero_iff.mp (Nat.le_zero.mp hfuel)
    obtain rfl := hus.eq_nil_left
    exact hempty h 0
  | succ fuel ih =>
    cases cs with
    | nil =>
      obtain rfl := hus.eq_nil
      exact hempty h _
    | cons c cs =>
      cases hread : readLine (c :: cs) with
      | mk line rest =>
      have hlines : readLines (fuel + 1) (c :: cs) = line :: readLines fuel rest := by
        rw [readLines, hread]
        exact List.cons_ne_nil c cs
      rw [hlines] at hwhole ⊢
      have hfirst := hwhole line List.mem_cons_self
      have hothers := fun l hl => hwhole l (List.mem_cons_of_mem _ hl)
      have hreturn := hus.noReturn
      have hagrees {front behind : List Char} {s : Statement} (hall : us = front ++ behind)
          (hs : readLine? front = some s) (hparted : Parted front behind) :
          Unifies rest behind ∧ LineSays line s := by
        rw [hall] at hus
        obtain ⟨other, left, hagain, hbecomes, hleft⟩ := readLine_unified hus hparted hs hread hfirst
        obtain ⟨rfl, hsaid⟩ := readLine_agrees hs hparted hagain hbecomes.isWhole
        exact ⟨hleft, hbecomes.lineSays hsaid⟩
      cases hsplit : splitFrom .start us with
      | mk front lines =>
      rw [splitLines, hsplit] at h
      obtain ⟨s, hs, h⟩ := Option.bind_eq_some_iff.mp h
      obtain ⟨more, hmore, heq⟩ := Option.map_eq_some_iff.mp h
      subst heq
      rcases runsOn_of_splitFrom hsplit with ⟨rfl, rfl, -⟩ | ⟨behind, hall, rfl, hrun⟩
      · obtain ⟨hrest, hsaid⟩ := hagrees (List.append_nil us).symm hs ⟨.inl rfl, hreturn⟩
        obtain rfl := hrest.eq_nil_left
        cases hmore
        rw [readLines_nil]
        exact .cons hsaid .nil
      · have hlast := hrun.getLast?
        obtain ⟨hrest, hsaid⟩ := hagrees hall hs
          ⟨.inr hlast, fun hmem => hreturn (hall ▸ List.mem_append_left _ hmem)⟩
        have hlength : 0 < front.length := List.length_pos_of_mem (List.mem_of_getLast? hlast)
        rw [hall, List.length_append] at hfuel
        exact .cons hsaid (ih hrest (by omega) hmore hothers)

theorem isWhole_of_ofLines {lines : List Line} (hfault : (Sections.ofLines lines).fault? = none)
    (hsections : ∀ s ∈ (Sections.ofLines lines).sections, s.IsWhole) :
    ∀ line ∈ lines, line.IsWhole := by
  induction lines with
  | nil => exact List.forall_mem_nil _
  | cons line lines ih =>
    change ((Sections.ofLines lines).put line).fault? = none at hfault
    change ∀ s ∈ ((Sections.ofLines lines).put line).sections, s.IsWhole at hsections
    intro l hl
    rcases List.mem_cons.mp hl with rfl | hl
    · cases l with
      | entry e => trivial
      | header isItem keys margin? => exact (hsections _ List.mem_cons_self).2
      | fault f => cases hfault
    · refine ih ?_ ?_ l hl
      · cases line with
        | entry e => exact hfault
        | header isItem keys margin? => exact (hsections _ List.mem_cons_self).1
        | fault f => cases hfault
      · cases line with
        | entry e => exact hsections
        | header isItem keys margin? => exact fun s hs => hsections s (List.mem_cons_of_mem _ hs)
        | fault f => cases hfault

namespace Section

/-- The section that the other reader makes of the lines of this one. -/
def plain (s : Section) : Toml.Section :=
  ⟨s.isItem, s.path, pairsOf s.lines⟩

structure IsSound (s : Section) : Prop where
  keys : AreWritten s.keys
  margin : ∃ margin, s.margin? = some margin ∧ KeptHeader margin
  lines : ∀ e ∈ s.lines, IsLine e

end Section

theorem ofStatements_said (s : Statement) (ss : List Statement) :
    Document.ofStatements (s.said ++ ss) = (Document.ofStatements ss).addStatement s := by
  cases s <;> rfl

theorem ofLines_of_linesSay {lines : List Line} {ss : List Statement} (h : LinesSay lines ss) :
    (∀ e ∈ (Sections.ofLines lines).lines, IsLine e) ∧
      (∀ s ∈ (Sections.ofLines lines).sections, s.IsSound) ∧
      Document.ofStatements ss = ⟨pairsOf (Sections.ofLines lines).lines,
        (Sections.ofLines lines).sections.map Section.plain⟩ := by
  induction h with
  | nil => exact ⟨List.forall_mem_nil _, List.forall_mem_nil _, rfl⟩
  | @cons line lines s ss h _ ih =>
    obtain ⟨hlines, hsections, hss⟩ := ih
    rw [show Sections.ofLines (line :: lines) = (Sections.ofLines lines).put line from rfl,
      ofStatements_said, hss]
    cases h with
    | nothing h hpairs =>
      refine ⟨List.forall_mem_cons.mpr ⟨h, hlines⟩, hsections, ?_⟩
      simp only [Document.addStatement, Sections.put, pairsOf, hpairs, List.nil_append]
    | pair h hpairs =>
      refine ⟨List.forall_mem_cons.mpr ⟨h, hlines⟩, hsections, ?_⟩
      simp only [Document.addStatement, Sections.put, pairsOf, hpairs, List.singleton_append]
    | header hkeys hmargin =>
      refine ⟨List.forall_mem_nil _, List.forall_mem_cons.mpr ⟨?_, hsections⟩, rfl⟩
      exact ⟨hkeys, ⟨_, rfl, hmargin⟩, hlines⟩

end FormatSettings.Toml.Verbatim
