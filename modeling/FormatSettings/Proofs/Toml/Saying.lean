import FormatSettings.Proofs.Toml.Row
import Mathlib.Data.List.Induction

namespace FormatSettings.Toml

def RunsOn (isOpen : Bool) (mode : Mode) (cs : List Char) : Prop :=
  ∀ rest, (isOpen = true → rest = []) →
    splitFrom mode (cs ++ rest) = (cs, if isOpen then [] else splitLines rest)

theorem runsOn_append {isOpen : Bool} {mode : Mode} {front cs : List Char} (h : '\n' ∉ front) :
    RunsOn isOpen mode (front ++ cs) ↔ RunsOn isOpen (front.foldl Mode.step mode) cs := by
  have hfront : ∀ c ∈ front, c ≠ '\n' := fun c hc heq => h (heq ▸ hc)
  have hsplit (rest : List Char) := splitFrom_append hfront mode (cs ++ rest)
  constructor
  · intro hrun rest hrest
    have hline := hrun rest hrest
    rw [List.append_assoc, hsplit, Prod.mk.injEq] at hline
    exact Prod.ext (List.append_cancel_left hline.1) hline.2
  · intro hrun rest hrest
    rw [List.append_assoc, hsplit, hrun rest hrest]

theorem getLast?_splitFrom {mode : Mode} {cs line next : List Char} {lines : List (List Char)}
    (h : splitFrom mode cs = (line, next :: lines)) : line.getLast? = some '\n' := by
  induction cs generalizing mode line with
  | nil =>
    rw [splitFrom] at h
    cases h
  | cons c cs ih =>
    rw [splitFrom] at h
    by_cases hends : (c == '\n' && mode.ends) = true
    · rw [if_pos hends] at h
      rw [Bool.and_eq_true, beq_iff_eq] at hends
      cases h
      rw [hends.1]
      rfl
    · rw [if_neg hends] at h
      cases hrest : splitFrom (mode.step c) cs with
      | mk rest more =>
        rw [hrest] at h
        cases h
        rw [List.getLast?_cons, ih hrest]
        rfl

theorem RunsOn.getLast? {mode : Mode} {cs : List Char} (h : RunsOn false mode cs) :
    cs.getLast? = some '\n' := by
  have hline := h [] nofun
  rw [List.append_nil] at hline
  exact getLast?_splitFrom hline

theorem runsOn_of_splitFrom {mode : Mode} {cs line : List Char} {lines : List (List Char)}
    (h : splitFrom mode cs = (line, lines)) :
    (lines = [] ∧ cs = line ∧ RunsOn true mode line) ∨
      ∃ more, cs = line ++ more ∧ lines = splitLines more ∧ RunsOn false mode line := by
  induction cs generalizing mode line with
  | nil =>
    rw [splitFrom] at h
    cases h
    refine Or.inl ⟨rfl, rfl, ?_⟩
    intro rest hrest
    rw [hrest rfl]
    rfl
  | cons c cs ih =>
    rw [splitFrom] at h
    -- A line break ends the line unless the reader is inside brackets or a long string.
    by_cases hends : (c == '\n' && mode.ends) = true
    · rw [if_pos hends] at h
      cases h
      refine Or.inr ⟨cs, rfl, rfl, ?_⟩
      intro rest _
      rw [List.singleton_append, splitFrom, if_pos hends]
      rfl
    · rw [if_neg hends] at h
      cases hrest : splitFrom (mode.step c) cs with
      | mk tail more =>
        rw [hrest] at h
        cases h
        have hstep (isOpen : Bool) (hrun : RunsOn isOpen (mode.step c) tail) :
            RunsOn isOpen mode (c :: tail) := by
          intro rest hopen
          rw [List.cons_append, splitFrom, if_neg hends, hrun rest hopen]
        rcases ih hrest with ⟨hmore, hcs, hrun⟩ | ⟨after, hcs, hlines, hrun⟩
        · exact Or.inl ⟨hmore, congrArg (c :: ·) hcs, hstep true hrun⟩
        · exact Or.inr ⟨after, congrArg (c :: ·) hcs, hlines, hstep false hrun⟩

def Statement.said : Statement → List Statement
  | .nothing => []
  | s => [s]

def statements? (cs : List Char) : Option (List Statement) :=
  (readLines? (splitLines cs)).map (·.flatMap Statement.said)

theorem ofStatements_flatMap_said (ss : List Statement) :
    Document.ofStatements (ss.flatMap Statement.said) = Document.ofStatements ss := by
  induction ss with
  | nil => rfl
  | cons s ss ih =>
    have hcons : Document.ofStatements (s :: ss) = (Document.ofStatements ss).addStatement s := rfl
    rw [List.flatMap_cons, hcons, ← ih]
    cases s with
    | nothing => rfl
    | header isItem path => rfl
    | pair path v => rfl

theorem readDocument?_eq (cs : List Char) :
    readDocument? cs = (statements? cs).map Document.ofStatements := by
  rw [readDocument?, statements?, Option.map_map]
  congr 1
  funext ss
  exact (ofStatements_flatMap_said ss).symm

theorem statements?_nil : statements? [] = some [] := rfl

/-- A text ends with a line that has no break yet. -/
def opens (cs : List Char) : Bool :=
  (cs.reverse.dropWhile (· == ' ')).head?.any (· != '\n')

theorem opens_append (cs more : List Char) :
    opens (cs ++ more) = opens more ∨ (∀ c ∈ more, c = ' ') ∧ opens (cs ++ more) = opens cs := by
  by_cases hspaces : ∀ c ∈ more, c = ' '
  · right
    refine ⟨hspaces, ?_⟩
    have hall : ∀ c ∈ more.reverse, (c == ' ') = true := fun c hc => by
      rw [beq_iff_eq]
      exact hspaces c (List.mem_reverse.mp hc)
    rw [opens, List.reverse_append, List.dropWhile_append_of_pos hall]
    rfl
  · left
    have hne : more.reverse.dropWhile (· == ' ') ≠ [] := by
      intro hnil
      apply hspaces
      intro c hc
      exact beq_iff_eq.mp (List.dropWhile_eq_nil_iff.mp hnil c (List.mem_reverse.mpr hc))
    rw [opens, opens, List.reverse_append, List.dropWhile_append, List.isEmpty_eq_false_iff.mpr hne,
      if_neg Bool.false_ne_true]
    obtain ⟨c, rest, hcons⟩ := List.exists_cons_of_ne_nil hne
    rw [hcons]
    rfl

theorem opens_append_break (cs : List Char) : opens (cs ++ ['\n']) = false := by
  simp [opens]

/-- What may stand behind a text: anything, or a break if its last line has none yet. -/
def Follows (cs rest : List Char) : Prop :=
  opens cs = true → rest = [] ∨ rest.head? = some '\n'

theorem follows_of_closed {cs : List Char} (h : opens cs = false) (rest : List Char) :
    Follows cs rest := by
  intro hopen
  rw [h] at hopen
  cases hopen

theorem Follows.behind (front : List Char) {cs rest : List Char} (h : Follows (front ++ cs) rest) :
    Follows cs rest := by
  intro hopen
  apply h
  rcases opens_append front cs with hsame | ⟨hspaces, -⟩
  · rw [hsame, hopen]
  · rw [opens, List.dropWhile_eq_nil_iff.mpr fun c hc =>
      beq_iff_eq.mpr (hspaces c (List.mem_reverse.mp hc))] at hopen
    cases hopen

theorem Follows.append {cs more rest : List Char} (h : Follows cs more) (hrest : Follows (cs ++ more) rest) :
    Follows cs (more ++ rest) := by
  intro hopen
  rcases h hopen with rfl | hbreak
  · rw [List.append_nil] at hrest
    exact hrest hopen
  · rw [List.head?_append, hbreak]
    exact .inr rfl

/-- What a text says wherever it stands. Its lines end with line feeds alone. -/
structure Says (cs : List Char) (ss : List Statement) : Prop where
  reads : ∀ rest, Follows cs rest → statements? (cs ++ rest) = (statements? rest).map (ss ++ ·)
  noReturn : '\r' ∉ cs

theorem splitFrom_of_broken {mode : Mode} {cs : List Char} {lines : List (List Char)}
    (h : splitFrom mode (cs ++ ['\n']) = (cs ++ ['\n'], lines)) : splitFrom mode cs = (cs, []) := by
  induction cs generalizing mode with
  | nil => rfl
  | cons c cs ih =>
    rw [List.cons_append, splitFrom] at h
    rw [splitFrom]
    split at h
    · have hnil := (List.cons.inj (Prod.mk.inj h).1).2
      simp at hnil
    · next hends =>
      rw [if_neg hends]
      have hrest : splitFrom (mode.step c) (cs ++ ['\n']) = (cs ++ ['\n'], lines) :=
        Prod.ext (List.cons.inj (Prod.mk.inj h).1).2 (Prod.mk.inj h).2
      rw [ih hrest]

def Mode.quote? : Mode → Option Char
  | .plain _ => none
  | .comment _ => none
  | .opened quote _ => some quote
  | .twice quote _ => some quote
  | .single quote _ _ => some quote
  | .multi quote _ _ _ => some quote
  | .closed quote _ _ => some quote

def Mode.IsQuoted (mode : Mode) : Prop :=
  ∀ quote, mode.quote? = some quote → isQuote quote = true

theorem Mode.IsQuoted.step {mode : Mode} (h : mode.IsQuoted) (c : Char) : (mode.step c).IsQuoted := by
  have hplain (depth : Nat) : (Mode.stepPlain depth c).IsQuoted := by
    unfold Mode.stepPlain
    split
    · nofun
    · split
      · next hquote =>
        rintro quote ⟨⟩
        exact hquote
      · split
        · nofun
        · split <;> nofun
  have hsame {other : Mode} (hother : other.quote? = mode.quote?) : other.IsQuoted := by
    intro quote hquote
    exact h quote (hother ▸ hquote)
  cases mode with
  | plain depth => exact hplain depth
  | comment depth =>
    rw [Mode.step]
    split <;> nofun
  | opened quote depth =>
    rw [Mode.step]
    split
    · exact hsame rfl
    · next hne =>
      rw [Mode.stepSingle, if_neg hne]
      exact hsame rfl
  | twice quote depth =>
    rw [Mode.step]
    split
    · exact hsame rfl
    · exact hplain depth
  | single quote depth isEscaped =>
    simp only [Mode.step, Mode.stepSingle]
    split
    · exact hsame rfl
    · split
      · nofun
      · exact hsame rfl
  | multi quote depth quotes isEscaped =>
    simp only [Mode.step, Mode.stepMulti]
    split
    · exact hsame rfl
    · split
      · split
        · exact hsame rfl
        · exact hsame rfl
      · exact hsame rfl
  | closed quote depth more =>
    rw [Mode.step]
    split
    · exact hsame rfl
    · exact hplain depth

theorem ends_step {mode : Mode} (hquoted : mode.IsQuoted) (h : mode.ends = false) {c : Char}
    (hc : c = '\n' ∨ c = ' ') : (mode.step c).ends = false := by
  have hplain (depth : Nat) : Mode.stepPlain depth c = .plain depth := by
    rcases hc with rfl | rfl <;> rfl
  cases mode with
  | plain depth =>
    rw [Mode.step, hplain]
    exact h
  | comment depth =>
    rw [Mode.step]
    split <;> exact h
  | opened quote depth => cases h
  | twice quote depth =>
    rw [Mode.step]
    split
    · rfl
    · rw [hplain]
      exact h
  | single quote depth isEscaped => cases h
  | multi quote depth quotes isEscaped =>
    have hne : c ≠ quote := by
      rintro rfl
      have hquote := hquoted c rfl
      rcases hc with rfl | rfl <;> cases hquote
    simp only [Mode.step, Mode.stepMulti, beq_false_of_ne hne]
    split <;> rfl
  | closed quote depth more =>
    rw [Mode.step]
    split
    · exact h
    · rw [hplain]
      exact h

theorem splitFrom_behind {mode : Mode} {front cs line : List Char} {lines : List (List Char)}
    (h : splitFrom mode (front ++ cs) = (front ++ line, lines)) (hne : line ≠ []) :
    splitFrom (front.foldl Mode.step mode) cs = (line, lines) := by
  induction front generalizing mode with
  | nil => exact h
  | cons c front ih =>
    rw [List.cons_append, splitFrom] at h
    split at h
    · have hnil := (List.cons.inj (Prod.mk.inj h).1).2
      exact absurd (List.append_eq_nil_iff.mp hnil.symm).2 hne
    · exact ih (Prod.ext (List.cons.inj (Prod.mk.inj h).1).2 (Prod.mk.inj h).2)

theorem Mode.IsQuoted.foldl {mode : Mode} (h : mode.IsQuoted) (cs : List Char) :
    (cs.foldl Mode.step mode).IsQuoted := by
  induction cs generalizing mode with
  | nil => exact h
  | cons c cs ih => exact ih (h.step c)

theorem splitFrom_spaces {mode : Mode} (hquoted : mode.IsQuoted) (h : mode.ends = false)
    {spaces : List Char} (hspaces : ∀ c ∈ spaces, c = ' ') :
    splitFrom mode (spaces ++ ['\n']) = (spaces ++ ['\n'], []) := by
  induction spaces generalizing mode with
  | nil =>
    rw [List.nil_append, splitFrom, h, Bool.and_false, if_neg Bool.false_ne_true]
    rfl
  | cons c spaces ih =>
    have hc := hspaces c List.mem_cons_self
    have hnext := ends_step hquoted h (c := c) (.inr hc)
    rw [List.cons_append, splitFrom, h, Bool.and_false, if_neg Bool.false_ne_true,
      ih (hquoted.step c) hnext fun d hd => hspaces d (List.mem_cons_of_mem _ hd)]

theorem exists_last (cs : List Char) :
    (∀ c ∈ cs, c = ' ') ∨ ∃ front c spaces, cs = front ++ c :: spaces ∧ (∀ d ∈ spaces, d = ' ') ∧
      opens cs = (c != '\n') := by
  induction cs using List.reverseRecOn with
  | nil => exact .inl (List.forall_mem_nil _)
  | append_singleton cs c ih =>
    by_cases hc : c = ' '
    · subst hc
      have hsame : opens (cs ++ [' ']) = opens cs := by simp [opens]
      rcases ih with hspaces | ⟨front, d, spaces, rfl, hspaces, hopens⟩
      · exact .inl fun d hd => (List.mem_append.mp hd).elim (hspaces d) List.mem_singleton.mp
      · refine .inr ⟨front, d, spaces ++ [' '], by simp, ?_, hsame.trans hopens⟩
        exact fun d hd => (List.mem_append.mp hd).elim (hspaces d) List.mem_singleton.mp
    · exact .inr ⟨cs, c, [], rfl, List.forall_mem_nil _, by simp [opens, hc]⟩

theorem opens_of_broken {cs : List Char} (h : RunsOn false .start (cs ++ ['\n'])) :
    opens cs = true ∨ ∀ c ∈ cs, c = ' ' := by
  rcases exists_last cs with hspaces | ⟨front, c, spaces, rfl, hspaces, hopens⟩
  · exact .inr hspaces
  · left
    rw [hopens, bne_iff_ne]
    rintro rfl
    -- A break that ends no line stands inside brackets or a long string, and so does the last one.
    have hline := h [] nofun
    rw [List.append_nil, List.append_assoc, List.cons_append] at hline
    have hbehind := splitFrom_behind hline (List.cons_ne_nil _ _)
    have hstart : Mode.start.IsQuoted := nofun
    have hquoted := hstart.foldl front
    generalize front.foldl Mode.step .start = mode at hbehind hquoted
    rw [splitFrom] at hbehind
    split at hbehind
    · have hnil := (List.cons.inj (Prod.mk.inj hbehind).1).2
      simp at hnil
    · next hends =>
      have hnever : mode.ends = false := by simpa using hends
      rw [splitFrom_spaces (hquoted.step _) (ends_step hquoted hnever (.inl rfl)) hspaces] at hbehind
      cases (Prod.mk.inj hbehind).2

namespace Says

variable {cs more : List Char} {ss ts : List Statement}

theorem nil : Says [] [] where
  reads := fun rest _ => by
    cases h : statements? rest with
    | none => rw [List.nil_append, h]; rfl
    | some ss => rw [List.nil_append, h]; rfl
  noReturn := List.not_mem_nil

theorem append (h : Says cs ss) (hmore : Says more ts) (hfollows : Follows cs more) :
    Says (cs ++ more) (ss ++ ts) where
  reads := fun rest hrest => by
    rw [List.append_assoc, h.reads _ (hfollows.append hrest), hmore.reads rest hrest.behind,
      Option.map_map]
    congr 1
    funext us
    exact (List.append_assoc ss ts us).symm
  noReturn := fun hmem => (List.mem_append.mp hmem).elim h.noReturn hmore.noReturn

theorem line {s : Statement} (hrun : RunsOn false .start cs) (hline : readLine? cs = some s)
    (hreturn : '\r' ∉ cs) : Says cs s.said where
  reads := by
    intro rest _
    have hsplit := hrun rest nofun
    have hlines : splitLines (cs ++ rest) = cs :: splitLines rest := by
      rw [splitLines, hsplit]
      rfl
    rw [statements?, hlines, readLines?, hline, Option.bind_some, statements?, Option.map_map,
      Option.map_map]
    rfl
  noReturn := hreturn

theorem statements? (h : Says cs ss) : statements? cs = some ss := by
  have hreads := h.reads [] fun _ => .inl rfl
  rw [List.append_nil, statements?_nil, Option.map_some, List.append_nil] at hreads
  exact hreads

theorem breakLine : Says ['\n'] [] :=
  .line (s := .nothing) (fun _ _ => rfl) rfl (by decide)

end Says

end FormatSettings.Toml
