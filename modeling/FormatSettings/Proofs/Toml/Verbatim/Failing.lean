import FormatSettings.Proofs.Report
import FormatSettings.Proofs.Toml.Verbatim.Gather
import FormatSettings.Toml.Nest

namespace FormatSettings

/-- A fault of putting entries together. -/
inductive Failure.IsOfMerging : Failure → Prop
  | repeated (name : String) : IsOfMerging (.repeatedKey name)
  | redefined : IsOfMerging .redefinedTable
  | scattered (v : Value) : IsOfMerging (.missingMember v)

/-- A fault of a document, as opposed to one of the path that it is nested under. -/
inductive Failure.IsOfDocument : Failure → Prop
  | invalid : IsOfDocument .invalidDocument
  | merging {f : Failure} (h : f.IsOfMerging) : IsOfDocument f

namespace Toml.Verbatim

theorem failsOnly_addApart (entries : List Entry) (e : Entry) :
    FailsOnly Failure.IsOfMerging (addApart entries e) := by
  unfold addApart
  split
  · exact .ok _
  · exact .ok _
  · exact .error (.repeated _)

mutual

theorem failsOnly_add (fuel : Nat) (isChecked : Bool) (entries : List Entry) (e : Entry) :
    FailsOnly Failure.IsOfMerging (add fuel isChecked entries e) := by
  cases fuel with
  | zero =>
    rw [add]
    exact .ok _
  | succ fuel =>
    rw [add.eq_def]
    dsimp only
    split
    · exact .ok _
    · split
      · exact .ok _
      · split
        · split
          · split
            · exact .bind (failsOnly_checkPlaces fuel _ _) fun _ _ => .ok _
            · exact .ok _
          · exact .bind (.foldlM (fun _ _ => failsOnly_addWithin fuel _ _ _) _ _) fun _ _ => .ok _
        · split
          · exact .error .redefined
          · split
            · exact .ok _
            · exact .error (.repeated _)
    · split
      · exact .ok _
      · exact .error (.repeated _)
    · exact .ok _
    · exact .error (.repeated _)

theorem failsOnly_addWithin (fuel : Nat) (spaces : List Char) (entries : List Entry) (e : Entry) :
    FailsOnly Failure.IsOfMerging (addWithin fuel spaces entries e) := by
  cases fuel with
  | zero =>
    rw [addWithin]
    exact .ok _
  | succ fuel =>
    rw [addWithin]
    refine .bind (failsOnly_add fuel true entries e) fun grown _ => ?_
    split
    · exact .ok _
    · refine .bind (failsOnly_checkJoined fuel _ grown) fun _ _ => ?_
      split
      · exact .ok _
      · split
        · exact .error (.scattered _)
        · split
          · exact .ok _
          · exact .ok _

theorem failsOnly_checkPlaces (fuel : Nat) (name : String) (entries : List Entry) :
    FailsOnly Failure.IsOfMerging (checkPlaces fuel name entries) := by
  cases fuel with
  | zero =>
    rw [checkPlaces]
    exact .ok _
  | succ fuel =>
    rw [checkPlaces]
    split
    · exact .bind (.foldlM (failsOnly_add fuel false) _ _) fun joined _ => failsOnly_checkAll fuel joined
    · exact .ok _

theorem failsOnly_checkAll (fuel : Nat) (entries : List Entry) :
    FailsOnly Failure.IsOfMerging (checkAll fuel entries) := by
  cases fuel with
  | zero =>
    rw [checkAll]
    exact .ok _
  | succ fuel =>
    rw [checkAll]
    induction names entries with
    | nil => exact .ok _
    | cons name rest ih =>
      rw [List.forM_eq_forM, List.forM_cons]
      exact .bind (failsOnly_checkPlaces fuel name entries) fun _ _ => ih

theorem failsOnly_checkJoined (fuel : Nat) (name : String) (entries : List Entry) :
    FailsOnly Failure.IsOfMerging (checkJoined fuel name entries) := by
  cases fuel with
  | zero =>
    rw [checkJoined]
    exact .ok _
  | succ fuel =>
    rw [checkJoined]
    split
    · exact .bind (.foldlM failsOnly_addApart _ _) fun joined _ => failsOnly_checkAll fuel joined
    · exact .ok _

end

theorem heightOf_le_iff {entries : List Entry} {n : Nat} :
    heightOf entries ≤ n ↔ ∀ e ∈ entries, e.height ≤ n := by
  induction entries with
  | nil => simp [heightOf]
  | cons e entries ih => rw [heightOf, Nat.max_le, ih, List.forall_mem_cons]

theorem heightOf_gathered {name : String} {entries : List Entry} (h : gathered name entries ≠ []) :
    heightOf (gathered name entries) < heightOf entries := by
  have hbelow : ∀ e ∈ gathered name entries, e.height < heightOf entries := by
    intro e he
    obtain ⟨t, ht, he⟩ := List.mem_flatMap.mp he
    have hheight := heightOf_le_iff.mp (Nat.le_refl (heightOf entries)) t ht
    split at he
    · split at he
      · have hinner := heightOf_le_iff.mp (Nat.le_refl (heightOf _)) e he
        rw [Entry.height] at hheight
        omega
      · cases he
    · cases he
  obtain ⟨e, he⟩ := List.exists_mem_of_ne_nil _ h
  have hpositive := hbelow e he
  have hall : heightOf (gathered name entries) ≤ heightOf entries - 1 :=
    heightOf_le_iff.mpr fun d hd => Nat.le_sub_one_of_lt (hbelow d hd)
  omega

theorem mem_names {name : String} {entries : List Entry} : name ∈ names entries ↔ name ∈ keyNames entries :=
  List.mem_eraseDups

theorem exists_lastNamed? {name : String} {entries : List Entry} (h : name ∈ keyNames entries) :
    ∃ e, lastNamed? name entries = some e := by
  obtain ⟨e, he, hname⟩ := List.mem_filterMap.mp h
  obtain ⟨key, hkey, rfl⟩ := Option.map_eq_some_iff.mp hname
  rw [← Option.isSome_iff_exists, lastNamed?, List.find?_isSome]
  exact ⟨e, List.mem_reverse.mpr he, named_key hkey⟩

theorem failsOnly_entryNamed (limit : Nat) {fuel : Nat} {name : String} {entries : List Entry}
    (hfuel : heightOf entries < fuel) (hname : name ∈ keyNames entries) :
    FailsOnly Failure.IsOfMerging (entryNamed limit fuel name entries) := by
  induction fuel generalizing name entries with
  | zero => cases hfuel
  | succ fuel ih =>
    rw [entryNamed]
    split
    · refine .bind (failsOnly_checkJoined limit name entries) fun _ _ => ?_
      refine .bind (.mapM fun inner hinner => ?_) fun _ _ => .ok _
      have hmem := mem_names.mp hinner
      have hne : gathered name entries ≠ [] := by
        intro hnil
        rw [hnil] at hmem
        cases hmem
      have hheight := heightOf_gathered hne
      exact ih (by omega) hmem
    · obtain ⟨e, he⟩ := exists_lastNamed? hname
      rw [he]
      exact .ok _

theorem failsOnly_topEntries (limit : Nat) (entries : List Entry) :
    FailsOnly Failure.IsOfMerging (topEntries limit entries) :=
  .mapM fun _ hname => failsOnly_entryNamed limit (Nat.lt_succ_self _) (mem_names.mp hname)

theorem failsOnly_expect {α : Type} (a? : Option α) :
    FailsOnly Failure.IsOfDocument (expect a?) := by
  cases a? with
  | none => exact .error .invalid
  | some a => exact .ok a

mutual

theorem failsOnly_readWritten (fuel : Nat) (cs : List Char) :
    FailsOnly Failure.IsOfDocument (readWritten fuel cs) := by
  unfold readWritten
  split
  · split
    · exact .bind (failsOnly_expect _) fun _ _ => .ok _
    · split
      · exact .bind (failsOnly_expect _) fun _ _ => .ok _
      · split
        · exact .bind (failsOnly_expect _) fun _ _ => .ok _
        · split
          · exact .bind (failsOnly_skipItems _ _) fun _ _ => .ok _
          · split
            · exact .bind (failsOnly_skipPairs _ _ _) fun _ _ => .ok _
            · exact .bind (failsOnly_expect _) fun _ _ => .ok _
  · exact .error .invalid

theorem failsOnly_skipItems (fuel : Nat) (cs : List Char) :
    FailsOnly Failure.IsOfDocument (skipItems fuel cs) := by
  unfold skipItems
  split
  · exact .error .invalid
  · refine .bind (failsOnly_expect _) fun _ _ => ?_
    split
    · exact .ok _
    · refine .bind (failsOnly_readWritten _ _) fun _ _ => ?_
      refine .bind (failsOnly_expect _) fun _ _ => ?_
      split
      · exact .ok _
      · exact failsOnly_skipItems _ _
      · exact .error .invalid

theorem failsOnly_skipPairs (fuel : Nat) (entries : List Entry) (cs : List Char) :
    FailsOnly Failure.IsOfDocument (skipPairs fuel entries cs) := by
  unfold skipPairs
  split
  · exact .error .invalid
  · refine .bind (failsOnly_expect _) fun _ _ => ?_
    split
    · exact .ok _
    · refine .bind (failsOnly_expect _) fun _ _ => ?_
      refine .bind (failsOnly_expect _) fun _ _ => ?_
      refine .bind (failsOnly_readWritten _ _) fun _ _ => ?_
      refine .bind (failsOnly_expect _) fun _ _ => ?_
      refine .bind ((failsOnly_add _ _ _ _).mono fun _ => .merging) fun _ _ => ?_
      refine .bind (failsOnly_expect _) fun _ _ => ?_
      split
      · exact .ok _
      · exact failsOnly_skipPairs _ _ _
      · exact .error .invalid

end

theorem failsOnly_readPair (cs : List Char) : FailsOnly Failure.IsOfDocument (readPair cs) := by
  refine .bind (failsOnly_expect _) fun _ _ => ?_
  refine .bind (failsOnly_expect _) fun _ _ => ?_
  refine .bind (failsOnly_readWritten _ _) fun _ _ => ?_
  refine .bind (failsOnly_expect _) fun _ _ => ?_
  exact .bind (failsOnly_expect _) fun _ _ => .ok _

def Line.StopsByDocument (line : Line) : Prop :=
  ∀ f, line = .fault f → f.IsOfDocument

theorem Line.stopsByDocument_fault {f : Failure} (h : f.IsOfDocument) :
    (Line.fault f).StopsByDocument := by
  rintro _ ⟨⟩
  exact h

theorem stopsByDocument_readHeader (indent cs : List Char) :
    (readHeader indent cs).1.StopsByDocument := by
  unfold readHeader
  dsimp only
  split
  · exact Line.stopsByDocument_fault .invalid
  · split
    · rintro _ ⟨⟩
    · rintro _ ⟨⟩

theorem stopsByDocument_readLine (cs : List Char) : (readLine cs).1.StopsByDocument := by
  unfold readLine
  dsimp only
  split
  · nofun
  · nofun
  · exact stopsByDocument_readHeader _ _
  · split
    · split
      · nofun
      · exact Line.stopsByDocument_fault .invalid
    · split
      · nofun
      · next failure hpair => exact Line.stopsByDocument_fault (failsOnly_readPair cs failure hpair)

theorem stopsByDocument_readLines (fuel : Nat) (cs : List Char) :
    ∀ line ∈ readLines fuel cs, line.StopsByDocument := by
  induction fuel generalizing cs with
  | zero => exact List.forall_mem_nil _
  | succ fuel ih =>
    cases cs with
    | nil => exact List.forall_mem_nil _
    | cons c cs =>
      intro line hline
      rw [readLines, List.mem_cons] at hline
      · rcases hline with rfl | hline
        · exact stopsByDocument_readLine _
        · exact ih _ line hline
      · exact List.cons_ne_nil c cs

def Section.StopsByDocument (s : Section) : Prop :=
  ∀ f, s.fault? = some f → f.IsOfDocument

theorem stopsByDocument_ofLines {lines : List Line} (h : ∀ line ∈ lines, line.StopsByDocument) :
    (∀ f, (Sections.ofLines lines).fault? = some f → f.IsOfDocument) ∧
      ∀ s ∈ (Sections.ofLines lines).sections, s.StopsByDocument := by
  induction lines with
  | nil => exact ⟨nofun, List.forall_mem_nil _⟩
  | cons line lines ih =>
    obtain ⟨hfault, hsections⟩ := ih fun l hl => h l (List.mem_cons_of_mem _ hl)
    change (∀ f, ((Sections.ofLines lines).put line).fault? = some f → f.IsOfDocument) ∧
      ∀ s ∈ ((Sections.ofLines lines).put line).sections, s.StopsByDocument
    cases line with
    | entry e => exact ⟨hfault, hsections⟩
    | header isItem keys margin? =>
      refine ⟨nofun, ?_⟩
      intro s hs
      rcases List.mem_cons.mp hs with rfl | hs
      · exact hfault
      · exact hsections s hs
    | fault failure =>
      refine ⟨?_, hsections⟩
      rintro _ ⟨⟩
      exact h _ List.mem_cons_self failure rfl

theorem failsOnly_checkFault {fault? : Option Failure}
    (h : ∀ f, fault? = some f → f.IsOfDocument) :
    FailsOnly Failure.IsOfDocument (checkFault fault?) := by
  cases fault? with
  | none => exact .ok _
  | some f => exact .error (h f rfl)

theorem failsOnly_addLoosely (limit : Nat) (entries : List Entry) (e : Entry) :
    FailsOnly Failure.IsOfMerging (addLoosely limit entries e) := by
  refine .bind (failsOnly_add limit false entries e) fun grown _ => ?_
  split
  · exact .bind (failsOnly_checkJoined limit _ grown) fun _ _ => .ok _
  · exact .ok _

theorem failsOnly_addOnTop (limit : Nat) (entries : List Entry) (e : Entry) :
    FailsOnly Failure.IsOfDocument (addOnTop limit entries e) := by
  unfold addOnTop
  cases add limit true entries e with
  | error f => exact .error .invalid
  | ok grown => exact .ok _

theorem failsOnly_addLine {add : List Entry → Entry → Except Failure (List Entry)}
    (h : ∀ entries e, FailsOnly Failure.IsOfDocument (add entries e)) (entries : List Entry)
    (e : Entry) : FailsOnly Failure.IsOfDocument (addLine add entries e) := by
  unfold addLine
  split
  · exact .ok _
  · exact h _ _

def Section.IsWhole (s : Section) : Prop :=
  s.fault? = none ∧ s.margin?.isSome = true

def Passes (sections left : List Section) : Prop :=
  ∃ taken, sections = taken ++ left ∧ ∀ s ∈ taken, s.IsWhole

namespace Passes

variable {sections middle left : List Section}

theorem refl (sections : List Section) : Passes sections sections :=
  ⟨[], rfl, List.forall_mem_nil _⟩

theorem trans (h : Passes sections middle) (hleft : Passes middle left) : Passes sections left := by
  obtain ⟨taken, rfl, htaken⟩ := h
  obtain ⟨more, rfl, hmore⟩ := hleft
  refine ⟨taken ++ more, (List.append_assoc _ _ _).symm, ?_⟩
  intro s hs
  exact (List.mem_append.mp hs).elim (htaken s) (hmore s)

theorem cons {s : Section} (hs : s.IsWhole) (h : Passes sections left) : Passes (s :: sections) left := by
  obtain ⟨taken, rfl, htaken⟩ := h
  refine ⟨s :: taken, rfl, ?_⟩
  intro t ht
  rcases List.mem_cons.mp ht with rfl | ht
  · exact hs
  · exact htaken t ht

theorem suffix (h : Passes sections left) : left <:+ sections := by
  obtain ⟨taken, rfl, -⟩ := h
  exact List.suffix_append taken left

end Passes

def Continues {α : Type} (rest : List Section) (x : Except Failure (α × List Section)) : Prop :=
  FailsOnly Failure.IsOfDocument x ∧ ∀ a left, x = .ok (a, left) → Passes rest left

namespace Continues

variable {α β : Type} {rest : List Section}

theorem ok (a : α) : Continues rest (.ok (a, rest)) := by
  refine ⟨.ok _, ?_⟩
  rintro _ _ ⟨⟩
  exact .refl rest

theorem error {f : Failure} (h : f.IsOfDocument) :
    Continues rest (.error f : Except Failure (α × List Section)) :=
  ⟨.error h, nofun⟩

theorem bind {x : Except Failure (α × List Section)}
    {f : α × List Section → Except Failure (β × List Section)} (hx : Continues rest x)
    (hf : ∀ a left, left <:+ rest → Continues left (f (a, left))) : Continues rest (x >>= f) := by
  refine ⟨.bind hx.1 fun a ha => (hf a.1 a.2 (hx.2 _ _ ha).suffix).1, ?_⟩
  intro b left hb
  obtain ⟨⟨a, middle⟩, ha, hb⟩ := Except.bind_eq_ok.mp hb
  have hmiddle := hx.2 a middle ha
  exact hmiddle.trans ((hf a middle hmiddle.suffix).2 b left hb)

theorem first {x : Except Failure α} {f : α → Except Failure (β × List Section)}
    (hx : FailsOnly Failure.IsOfDocument x) (hf : ∀ a, Continues rest (f a)) :
    Continues rest (x >>= f) := by
  refine ⟨.bind hx fun a _ => (hf a).1, ?_⟩
  intro b left hb
  obtain ⟨a, _, hb⟩ := Except.bind_eq_ok.mp hb
  exact (hf a).2 b left hb

theorem cons {s : Section} {x : Except Failure (α × List Section)} (h : Continues rest x)
    (hs : ∀ a, x = .ok a → s.IsWhole) : Continues (s :: rest) x :=
  ⟨h.1, fun a left ha => .cons (hs (a, left) ha) (h.2 a left ha)⟩

end Continues

theorem fault?_of_readBody {limit fuel : Nat} {outer : List (List String)} {s : Section}
    {rest left : List Section} {entries : List Entry}
    (h : s.readBody limit fuel outer rest = .ok (entries, left)) : s.fault? = none := by
  cases fuel with
  | zero => cases h
  | succ fuel =>
    rw [Section.readBody] at h
    obtain ⟨_, _, h⟩ := Except.bind_eq_ok.mp h
    obtain ⟨_, hfault, _⟩ := Except.bind_eq_ok.mp h
    cases hs : s.fault? with
    | none => rfl
    | some f =>
      rw [hs] at hfault
      cases hfault

mutual

theorem continues_readBody (limit fuel : Nat) (outer : List (List String)) {s : Section}
    {rest : List Section} (h : ∀ t ∈ s :: rest, t.StopsByDocument) :
    Continues rest (s.readBody limit fuel outer rest) := by
  cases fuel with
  | zero =>
    rw [Section.readBody]
    exact .error .invalid
  | succ fuel =>
    rw [Section.readBody]
    refine .first (.foldlM (failsOnly_addLine fun _ _ =>
      (failsOnly_addLoosely limit _ _).mono fun _ => .merging) _ _) fun entries => ?_
    refine .first (failsOnly_checkFault (h s List.mem_cons_self)) fun _ => ?_
    have hrest : ∀ t ∈ rest, t.StopsByDocument := fun t ht => h t (List.mem_cons_of_mem _ ht)
    refine .bind (continues_readBelow limit fuel outer s.path entries hrest) fun entries left _ => ?_
    exact .first ((failsOnly_checkAll limit entries).mono fun _ => .merging) fun _ => .ok _

theorem continues_readBelow (limit fuel : Nat) (outer : List (List String)) (path : List String)
    (entries : List Entry) {rest : List Section} (h : ∀ t ∈ rest, t.StopsByDocument) :
    Continues rest (readBelow limit fuel outer path entries rest) := by
  cases fuel with
  | zero =>
    rw [readBelow_zero]
    exact .ok _
  | succ fuel =>
    cases rest with
    | nil =>
      rw [readBelow_nil]
      exact .ok _
    | cons s rest =>
      rw [readBelow]
      split
      · refine .bind (continues_read limit fuel outer path h) fun e left hleft => ?_
        refine .first ((failsOnly_addLoosely limit entries e).mono fun _ => .merging) fun grown => ?_
        exact continues_readBelow limit fuel outer path grown fun t ht => h t (hleft.subset ht)
      · exact .ok _

theorem continues_read (limit fuel : Nat) (outer : List (List String)) (parent : List String)
    {s : Section} {rest : List Section} (h : ∀ t ∈ s :: rest, t.StopsByDocument) :
    Continues (s :: rest) (s.read limit fuel outer parent rest) := by
  unfold Section.read
  split
  · next _ _ fuel margin hmargin =>
    refine .cons (.bind (continues_readBody limit fuel outer h) fun entries left hleft => ?_) ?_
    · have hrest : ∀ t ∈ left, t.StopsByDocument :=
        fun t ht => h t (List.mem_cons_of_mem _ (hleft.subset ht))
      dsimp only
      split
      · split
        · exact .bind (continues_readItems limit fuel _ _ hrest) fun _ _ _ => .ok _
        · exact .ok _
      · exact .ok _
      · exact .ok _
    · intro a ha
      obtain ⟨_, hbody, _⟩ := Except.bind_eq_ok.mp ha
      exact ⟨fault?_of_readBody hbody, Option.isSome_of_eq_some hmargin⟩
  · exact .error .invalid

theorem continues_readItems (limit fuel : Nat) (outer : List (List String)) (path : List String)
    {rest : List Section} (h : ∀ t ∈ rest, t.StopsByDocument) :
    Continues rest (readItems limit fuel outer path rest) := by
  cases fuel with
  | zero =>
    rw [readItems]
    · exact .ok _
    · exact fun _ _ _ hfuel => absurd hfuel (Nat.succ_ne_zero _).symm
  | succ fuel =>
    cases rest with
    | nil =>
      rw [readItems]
      · exact .ok _
      · exact fun _ _ _ _ hrest => absurd hrest (List.cons_ne_nil _ _).symm
    | cons s rest =>
      rw [readItems]
      split
      · split
        · next margin hmargin =>
          refine .cons (.bind (continues_readBody limit fuel outer h) fun entries left hleft => ?_) ?_
          · have hrest : ∀ t ∈ left, t.StopsByDocument :=
              fun t ht => h t (List.mem_cons_of_mem _ (hleft.subset ht))
            exact .bind (continues_readItems limit fuel outer path hrest) fun _ _ _ => .ok _
          · intro a ha
            obtain ⟨_, hbody, _⟩ := Except.bind_eq_ok.mp ha
            exact ⟨fault?_of_readBody hbody, Option.isSome_of_eq_some hmargin⟩
        · exact .error .invalid
      · exact .ok _

end

theorem failsOnly_readSections (limit fuel : Nat) (entries : List Entry) {rest : List Section}
    (h : ∀ t ∈ rest, t.StopsByDocument) :
    FailsOnly Failure.IsOfDocument (readSections limit fuel entries rest) := by
  induction fuel generalizing entries rest with
  | zero =>
    rw [readSections]
    exact .error .invalid
  | succ fuel ih =>
    cases rest with
    | nil =>
      rw [readSections]
      · exact .ok _
      · exact Nat.succ_ne_zero _
    | cons s rest =>
      have hread := continues_read limit (4 * (rest.length + 2)) [] [] h
      rw [readSections]
      refine .bind hread.1 fun read hok => ?_
      refine .bind (failsOnly_addOnTop limit entries read.1) fun grown _ => ?_
      have hleft := (hread.2 read.1 read.2 hok).suffix
      exact ih grown fun t ht => h t (hleft.subset ht)

theorem isWhole_of_readSections {limit fuel : Nat} {entries grown : List Entry}
    {rest : List Section} (hstops : ∀ t ∈ rest, t.StopsByDocument)
    (h : readSections limit fuel entries rest = .ok grown) : ∀ s ∈ rest, s.IsWhole := by
  induction fuel generalizing entries rest with
  | zero => cases h
  | succ fuel ih =>
    cases rest with
    | nil => exact List.forall_mem_nil _
    | cons s rest =>
      rw [readSections] at h
      obtain ⟨⟨e, left⟩, hread, h⟩ := Except.bind_eq_ok.mp h
      obtain ⟨_, _, h⟩ := Except.bind_eq_ok.mp h
      have hpasses := (continues_read limit _ [] [] hstops).2 e left hread
      have hleft := ih (fun t ht => hstops t (hpasses.suffix.subset ht)) h
      obtain ⟨taken, hall, htaken⟩ := hpasses
      rw [hall]
      intro t ht
      exact (List.mem_append.mp ht).elim (htaken t) (hleft t)

theorem failsOnly_read (cs : List Char) : FailsOnly Failure.IsOfDocument (read cs) := by
  obtain ⟨hfault, hsections⟩ := stopsByDocument_ofLines (stopsByDocument_readLines cs.length cs)
  refine .bind (.foldlM (failsOnly_addLine (failsOnly_addOnTop _)) _ _) fun entries _ => ?_
  refine .bind (failsOnly_checkFault hfault) fun _ _ => ?_
  exact failsOnly_readSections _ _ entries hsections

end Toml.Verbatim

theorem Toml.failsOnly_nestChars (path : List String) (cs : List Char) :
    FailsOnly Failure.IsOfDocument (nestChars path cs) := by
  refine .bind (Verbatim.failsOnly_read cs) fun entries _ => ?_
  refine .bind ?_ fun _ _ => .ok _
  exact (Verbatim.failsOnly_topEntries _ entries).mono fun _ => .merging

theorem Toml.nest_refuses_path_iff (doc path : String) :
    (∃ fault, nest doc path = .error (.value fault)) ↔ pathParts path.toList = [] := by
  unfold nest
  dsimp only
  by_cases hpath : pathParts path.toList = []
  · simp [hpath]
  · have hnest := (failsOnly_nestChars ((pathParts path.toList).map String.ofList) doc.toList).map
      (f := String.ofList)
    rw [if_neg (by simpa using hpath)]
    refine iff_of_false ?_ hpath
    rintro ⟨fault, hfault⟩
    cases hnest _ hfault with
    | merging h => cases h

theorem Toml.nest_eq {path : String} (hpath : pathParts path.toList ≠ []) (doc : String) :
    nest doc path =
      (nestChars ((pathParts path.toList).map String.ofList) doc.toList).map String.ofList := by
  rw [nest, if_neg (by simpa using hpath)]

theorem Toml.nest_invalid_iff {path : String} (hpath : pathParts path.toList ≠ []) (doc : String) :
    nest doc path = .error .invalidDocument ↔
      Verbatim.read doc.toList = .error .invalidDocument := by
  rw [nest_eq hpath, nestChars]
  cases Verbatim.read doc.toList with
  | error f => simp [bind, Except.bind, Except.map]
  | ok entries =>
    refine iff_of_false (fun h => ?_) nofun
    have hmerging := (Verbatim.failsOnly_topEntries (Verbatim.nestingLimit doc.toList) entries).bind
      (fun parts _ => .ok (Verbatim.writeEntries .document [] (Verbatim.behindPath
        ((pathParts path.toList).map String.ofList) (parts.foldl Verbatim.place []))))
    cases hmerging.map (f := String.ofList) _ h

end FormatSettings
