import FormatSettings.Proofs.Toml.Levels
import FormatSettings.Proofs.Toml.Verbatim.Growing

namespace FormatSettings.Toml.Verbatim

theorem named_of_ops {e : Entry} {op : Op} {name : String} (h : op ∈ e.ops)
    (hhead : op.path.head? = some name) : e.named name = true := by
  obtain ⟨key, hkey, hname⟩ := head?_of_ops h
  rw [hname, Option.some.injEq] at hhead
  rw [← hhead]
  exact named_key hkey

theorem path_ne_nil_of_opsOf {es : List Entry} {op : Op} (h : op ∈ opsOf es) : op.path ≠ [] := by
  obtain ⟨e, _, hop⟩ := List.mem_flatMap.mp h
  obtain ⟨key, _, hname⟩ := head?_of_ops hop
  rintro hnil
  rw [hnil] at hname
  cases hname

theorem path_ne_nil_of_sectionsOf {es : List Entry} {s : Toml.Section} (h : s ∈ sectionsOf es) :
    s.path ≠ [] := by
  rw [sectionsOf_eq, List.mem_flatMap] at h
  obtain ⟨e, _, hs⟩ := h
  obtain ⟨_, _, _, hpath⟩ := exists_cons_of_sections hs
  simp [hpath]

theorem runAt_not_named {e : Entry} {name : String} (h : e.named name = false) (s : Shape) :
    runAt name e.ops s = some s := by
  refine runAt_other (fun op hop hhead => ?_) s
  rw [named_of_ops hop hhead] at h
  cases h

theorem opsOf_cons (e : Entry) (es : List Entry) : opsOf (e :: es) = e.ops ++ opsOf es :=
  List.flatMap_cons

theorem opsOf_append (es fs : List Entry) : opsOf (es ++ fs) = opsOf es ++ opsOf fs :=
  List.flatMap_append

theorem IsLine.inner {key : Key} {head : Head} {inner : List Entry} (h : IsLine (.table key head inner)) :
    ∃ e, inner = [e] ∧ IsLine e ∧ ∃ path v, path ≠ [] ∧ e.pairs = [(path, v)] := by
  generalize htable : Entry.table key head inner = e at h
  cases h with
  | blank => cases htable
  | note => cases htable
  | pair hkeys hindent hfront hblanks hvalue hbroken hflag he =>
    rcases cases_of_ofPath he with ⟨_, -, rfl⟩ | ⟨first, next, more, e', hall, he', rfl⟩
    · cases htable
    · cases htable
      subst hall
      have hrest : AreWritten (next :: more) :=
        ⟨List.cons_ne_nil _ _, fun k hk => hkeys.spelled k (List.mem_cons_of_mem _ hk),
          fun k hk => hkeys.plain k (List.mem_cons_of_mem _ hk)⟩
      refine ⟨e', rfl, .pair hrest hindent hfront hblanks hvalue hbroken hflag he', _, _, ?_,
        pairs_ofPath (fun k hk => (hrest.plain k hk).2) he'⟩
      simp

theorem Entry.IsSound.inner {key : Key} {head : Head} {inner : List Entry}
    (h : (Entry.table key head inner).IsSound) : ∀ e ∈ inner, e.IsSound := by
  cases h with
  | line h =>
    obtain ⟨e, rfl, he, -⟩ := h.inner
    exact List.forall_mem_singleton.mpr (.line he)
  | table _ _ _ _ _ _ hentries => exact hentries

theorem isSound_of_gathered {name : String} {es : List Entry} (h : ∀ e ∈ es, e.IsSound) :
    ∀ e ∈ gathered name es, e.IsSound := by
  intro e he
  obtain ⟨t, ht, he⟩ := List.mem_flatMap.mp he
  have hsound := h t ht
  split at he
  · split at he
    · exact hsound.inner e he
    · cases he
  · cases he

theorem pairs_of_headless {e : Entry} (h : e.IsSound) (hheader : e.needsHeader = false) :
    e.pairs = [] := by
  cases h with
  | line h =>
    rcases h.isBlank_or_needsHeader with hblank | hneeds
    · cases e with
      | blank => rfl
      | _ => cases hblank
    · rw [hheader] at hneeds
      cases hneeds
  | table _ hplain => simp [Entry.pairs, hplain]
  | tables => rfl

theorem pairsOf_of_headless {es : List Entry} (h : ∀ e ∈ es, e.IsSound)
    (hheader : es.any Entry.needsHeader = false) : pairsOf es = [] := by
  rw [pairsOf_eq, List.flatMap_eq_nil_iff]
  intro e he
  rw [List.any_eq_false] at hheader
  exact pairs_of_headless (h e he) (by simpa using hheader e he)

theorem runAt_header (name : String) (pairs : List (List String × Value))
    (ops : List Op) (s : Shape) :
    runAt name (.block ⟨false, [name], pairs⟩ :: ops) s = (s.openTable pairs).bind (runAt name ops) := by
  rw [runAt]
  exact if_pos rfl

theorem runAt_sections {es : List Entry} (hne : sectionsOf es ≠ []) (name : String) (s : Shape) :
    runAt name (((sectionsOf es).map (Section.below [name])).map Op.block) s =
      s.inside (runOps ((sectionsOf es).map Op.block)) :=
  runAt_below hne (fun _ ht => path_ne_nil_of_sectionsOf ht) name s

theorem assign_ne_absent {v : Value} {path : List String} {s t : Shape} (h : s.assign v path = some t) :
    t ≠ .absent := by
  rintro rfl
  cases path with
  | nil => cases s <;> simp [Shape.assign] at h
  | cons key path =>
    cases s with
    | table definition f => cases definition <;> simp [Shape.assign] at h
    | _ => simp [Shape.assign] at h

theorem inside_ne_absent {change : Shapes → Option Shapes} {s t : Shape} (h : s.inside change = some t) :
    t ≠ .absent := by
  rintro rfl
  cases s <;> simp [Shape.inside] at h

theorem openTable_ne_absent {pairs : List (List String × Value)} {s t : Shape}
    (h : s.openTable pairs = some t) : t ≠ .absent := by
  rintro rfl
  cases s with
  | table definition f => cases definition <;> simp [Shape.openTable] at h
  | _ => simp [Shape.openTable] at h

/-- What a table at a key makes of a table there, its entries make of the entries there. -/
theorem contents_of_table {key : Key} {head : Head} {inner : List Entry} {s t : Shape}
    (h : (Entry.table key head inner).IsSound) (hs : s.IsTable)
    (hrun : runAt key.name (Entry.table key head inner).ops s = some t) :
    t.IsTable ∧ t ≠ .absent ∧ runOps (opsOf inner) s.contents = some t.contents := by
  rw [Entry.ops] at hrun
  cases h with
  | line h =>
    have hsections := h.sections
    obtain ⟨e, rfl, he, path, v, hpath, hpairs⟩ := h.inner
    have hdotted : key.isDotted = true := by
      rcases h.kind with hno | ⟨_, _, heq, hdotted⟩
      · cases hno
      · cases heq
        exact hdotted
    have hall : (Entry.table key head [e]).pairs = [(key.name :: path, v)] := by
      rw [Entry.pairs, if_pos hdotted, pairsOf, pairsOf, hpairs]
      rfl
    have hops : opsOf [e] = [(path, v)].map Op.ofPair := by
      simp [opsOf, Entry.ops, hpairs, he.sections]
    rw [hall, hsections] at hrun
    have hassign : s.assign v path = some t := by
      simpa [runAt, Op.ofPair, Op.path, Op.act] using hrun
    obtain ⟨ht, hcontents⟩ := assign_eq_some hs hpath hassign
    refine ⟨ht, assign_ne_absent hassign, ?_⟩
    rw [hops, runOps_pairs, Shapes.assignAll, hcontents]
    rfl
  | table _ hplain _ _ hfirst hne hinner =>
    rw [Entry.sections, hplain, if_neg Bool.false_ne_true] at hne
    rw [Entry.pairs, Entry.sections, hplain, if_neg Bool.false_ne_true, if_neg Bool.false_ne_true,
      List.map_nil, List.nil_append] at hrun
    rw [hfirst.opsOf]
    split at hrun
    · next hheadless =>
      rw [if_pos hheadless, ne_eq, List.map_eq_nil_iff] at hne
      rw [Bool.and_eq_true, Bool.not_eq_true'] at hheadless
      rw [runAt_sections hne] at hrun
      obtain ⟨ht, hcontents⟩ := inside_eq_some hs hrun
      refine ⟨ht, inside_ne_absent hrun, ?_⟩
      rwa [pairsOf_of_headless hinner hheadless.2]
    · rw [List.map_cons, runAt_header] at hrun
      obtain ⟨u, hopen, hrun⟩ := Option.bind_eq_some_iff.mp hrun
      obtain ⟨hu, hcontents⟩ := openTable_eq_some hs hopen
      rw [runOps_append, runOps_pairs, hcontents, Option.bind_some]
      by_cases hnone : sectionsOf inner = []
      · rw [hnone] at hrun ⊢
        cases hrun
        exact ⟨hu, openTable_ne_absent hopen, rfl⟩
      · rw [runAt_sections hnone] at hrun
        obtain ⟨ht, hmore⟩ := inside_eq_some hu hrun
        exact ⟨ht, inside_ne_absent hrun, hmore⟩

theorem contents_of_gathered {name : String} {es : List Entry} {s t : Shape}
    (hes : ∀ e ∈ es, e.IsSound) (htables : ∀ e ∈ es, e.named name = true → e.IsTable) (hs : s.IsTable)
    (hrun : runAt name (opsOf es) s = some t) :
    t.IsTable ∧ ((s ≠ .absent ∨ ∃ e ∈ es, e.named name = true) → t ≠ .absent) ∧
      runOps (opsOf (gathered name es)) s.contents = some t.contents := by
  induction es generalizing s with
  | nil =>
    cases hrun
    refine ⟨hs, ?_, rfl⟩
    rintro (hne | ⟨_, hmem, -⟩)
    · exact hne
    · cases hmem
  | cons e es ih =>
    rw [List.forall_mem_cons] at hes htables
    rw [opsOf_cons, runAt_append] at hrun
    obtain ⟨u, hu, hbehind⟩ := Option.bind_eq_some_iff.mp hrun
    have hgathered : gathered name (e :: es) = gathered name [e] ++ gathered name es := by
      simp [gathered]
    rw [hgathered, opsOf_append, runOps_append]
    cases hnamed : e.named name with
    | true =>
      obtain ⟨key, head, inner, rfl⟩ := htables.1 hnamed
      obtain rfl : key.name = name := by simpa [Entry.named, Entry.key?] using hnamed
      obtain ⟨huTable, hne, hcontents⟩ := contents_of_table hes.1 hs hu
      obtain ⟨ht, hkept, hmore⟩ := ih hes.2 htables.2 huTable hbehind
      have hinner : gathered key.name [.table key head inner] = inner := by simp [gathered]
      refine ⟨ht, fun _ => hkept (.inl hne), ?_⟩
      rw [hinner, hcontents]
      exact hmore
    | false =>
      rw [runAt_not_named hnamed, Option.some.injEq] at hu
      subst hu
      obtain ⟨ht, hkept, hmore⟩ := ih hes.2 htables.2 hs hbehind
      have hinner : gathered name [e] = [] := by
        cases e <;> simp_all [gathered, Entry.named, Entry.key?]
      refine ⟨ht, ?_, ?_⟩
      · rintro (hne | ⟨d, hd, hname⟩)
        · exact hkept (.inl hne)
        · rcases List.mem_cons.mp hd with rfl | hd
          · rw [hnamed] at hname
            cases hname
          · exact hkept (.inr ⟨d, hd, hname⟩)
      · rw [hinner]
        exact hmore

theorem isTable_of_run {name : String} {e : Entry} {definition : Definition} {f : Shapes} {t : Shape}
    (he : e.IsSound) (hnamed : e.named name = true)
    (hrun : runAt name e.ops (.table definition f) = some t) : e.IsTable := by
  cases e with
  | blank => cases hnamed
  | note => cases hnamed
  | value key margin form text =>
    obtain rfl : key.name = name := by simpa [Entry.named, Entry.key?] using hnamed
    simp [Entry.ops, Entry.pairs, Entry.sections, Op.ofPair, runAt, Op.path, Op.act, Shape.assign] at hrun
  | table key head inner => exact ⟨key, head, inner, rfl⟩
  | tables key margin items =>
    obtain rfl : key.name = name := by simpa [Entry.named, Entry.key?] using hnamed
    obtain ⟨⟨head, inner⟩, rest, rfl⟩ := List.exists_cons_of_ne_nil he.of_tables.2.2.1
    simp [Entry.ops, Entry.pairs, Entry.sections, itemsSections, itemSections, runAt, Op.path, Op.act,
      Shape.openWith, Section.change, Shape.openItem] at hrun

theorem isTable_of_scattered {name : String} {es : List Entry} {t : Shape}
    (hes : ∀ e ∈ es, e.IsSound) (hspread : Spread es) (hscattered : isScattered name es = true)
    (hrun : runAt name (opsOf es) .absent = some t) : ∀ e ∈ es, e.named name = true → e.IsTable := by
  intro e he hnamed
  obtain ⟨front, back, rfl⟩ := List.append_of_mem he
  obtain ⟨hfront, hback, hbefore⟩ := List.pairwise_append.mp hspread
  by_cases hlater : ∃ next ∈ back, next.named name = true
  · obtain ⟨next, hnext, hname⟩ := hlater
    exact (List.pairwise_cons.mp hback).1 next hnext name hnamed hname
  · -- The last place of a name stands behind a table, and only a table can stand there.
    have hearlier : ∃ d ∈ front, d.named name = true := by
      have hnone : back.filter (·.named name) = [] :=
        List.filter_eq_nil_iff.mpr fun d hd hname => hlater ⟨d, hd, hname⟩
      rw [isScattered, decide_eq_true_eq, List.filter_append, List.filter_cons, if_pos hnamed, hnone,
        List.length_append] at hscattered
      have hpositive : 0 < (front.filter (·.named name)).length := by
        rw [List.length_singleton] at hscattered
        omega
      obtain ⟨d, hd⟩ := List.exists_mem_of_length_pos hpositive
      exact ⟨d, List.mem_filter.mp hd⟩
    rw [opsOf_append, opsOf_cons, runAt_append] at hrun
    obtain ⟨u, hu, hrun⟩ := Option.bind_eq_some_iff.mp hrun
    rw [runAt_append] at hrun
    obtain ⟨w, hw, -⟩ := Option.bind_eq_some_iff.mp hrun
    obtain ⟨huTable, hne, -⟩ := contents_of_gathered
      (fun d hd => hes d (List.mem_append_left _ hd))
      (fun d hd hname => hbefore d hd e List.mem_cons_self name hname hnamed) (.inl rfl) hu
    obtain ⟨definition, htable⟩ := huTable.eq_table (hne (.inr hearlier))
    rw [htable] at hw
    exact isTable_of_run (hes e he) hnamed hw

end FormatSettings.Toml.Verbatim
