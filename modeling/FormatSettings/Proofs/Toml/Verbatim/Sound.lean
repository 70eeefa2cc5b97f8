import FormatSettings.Proofs.Toml.Verbatim.Telling

namespace FormatSettings.Toml.Verbatim

/-- No pair stands behind a table. -/
def LinesFirst (entries : List Entry) : Prop :=
  entries.Pairwise fun e next => e.sections = [] ∨ next.pairs = []

def IsItem (item : Head × List Entry) : Prop :=
  item.1.isItem = true ∧ item.1.isPassed = false ∧ KeptHeader item.1.margin ∧ LinesFirst item.2

/-- An entry that can be written: a line, or tables whose pairs stand before the tables below them. -/
inductive Entry.IsSound : Entry → Prop
  | line {e : Entry} (h : IsLine e) : e.IsSound
  | table {key : Key} {head : Head} {entries : List Entry} (hkey : Spells key.text key.name)
      (hplain : key.isDotted = false) (hmargin : KeptHeader head.margin) (hhead : head.isItem = false)
      (hfirst : LinesFirst entries) (hne : (Entry.table key head entries).sections ≠ [])
      (hentries : ∀ e ∈ entries, e.IsSound) : (Entry.table key head entries).IsSound
  | tables {key : Key} {margin : Margin} {items : List (Head × List Entry)}
      (hkey : Spells key.text key.name) (hplain : key.isDotted = false) (hne : items ≠ [])
      (hitems : ∀ item ∈ items, IsItem item) (hentries : ∀ item ∈ items, ∀ e ∈ item.2, e.IsSound) :
      (Entry.tables key margin items).IsSound

theorem exists_cons_of_pairs {e : Entry} {pair : List String × Value} (h : pair ∈ e.pairs) :
    ∃ key path, e.key? = some key ∧ pair.1 = key.name :: path := by
  cases e with
  | blank => cases h
  | note => cases h
  | value key margin form text =>
    rw [Entry.pairs, List.mem_singleton] at h
    subst h
    exact ⟨key, [], rfl, rfl⟩
  | table key head entries =>
    rw [Entry.pairs] at h
    split at h
    · obtain ⟨inner, _, rfl⟩ := List.mem_map.mp h
      exact ⟨key, inner.1, rfl, rfl⟩
    · cases h
  | tables => cases h

theorem exists_cons_of_sections {e : Entry} {s : Toml.Section} (h : s ∈ e.sections) :
    ∃ key path, e.key? = some key ∧ s.path = key.name :: path := by
  cases e with
  | blank => cases h
  | note => cases h
  | value => cases h
  | table key head entries =>
    refine ⟨key, s.path.tail, rfl, ?_⟩
    have hbelow (hmem : s ∈ (sectionsOf entries).map (Section.below [key.name])) :
        s.path = key.name :: s.path.tail := by
      obtain ⟨inner, _, rfl⟩ := List.mem_map.mp hmem
      rfl
    rw [Entry.sections] at h
    split at h
    · cases h
    · split at h
      · exact hbelow h
      · rcases List.mem_cons.mp h with rfl | h
        · rfl
        · exact hbelow h
  | tables key margin items =>
    refine ⟨key, s.path.tail, rfl, ?_⟩
    rw [Entry.sections, itemsSections_eq, List.mem_flatMap] at h
    obtain ⟨⟨head, entries⟩, _, h⟩ := h
    rw [itemSections] at h
    rcases List.mem_cons.mp h with rfl | h
    · rfl
    · obtain ⟨inner, _, rfl⟩ := List.mem_map.mp h
      rfl

theorem path_of_sections {e : Entry} {key : Key} (hkey : e.key? = some key) {s : Toml.Section}
    (h : s ∈ e.sections) : ∃ path, s.path = key.name :: path := by
  obtain ⟨other, path, hother, hpath⟩ := exists_cons_of_sections h
  rw [hkey, Option.some.injEq] at hother
  exact ⟨path, hother ▸ hpath⟩

theorem head?_of_ops {e : Entry} {op : Op} (h : op ∈ e.ops) :
    ∃ key, e.key? = some key ∧ op.path.head? = some key.name := by
  rw [Entry.ops, List.mem_append, List.mem_map, List.mem_map] at h
  rcases h with ⟨pair, hpair, rfl⟩ | ⟨s, hs, rfl⟩
  · obtain ⟨key, path, hkey, hpath⟩ := exists_cons_of_pairs hpair
    exact ⟨key, hkey, by rw [Op.ofPair, Op.path, hpath]; rfl⟩
  · obtain ⟨key, path, hkey, hpath⟩ := exists_cons_of_sections hs
    exact ⟨key, hkey, by rw [Op.path, hpath]; rfl⟩

namespace IsLine

variable {e : Entry}

theorem kind (h : IsLine e) : e.holdsTables = false ∨ ∃ key inner,
    e = .table key Head.passed inner ∧ key.isDotted = true := by
  cases h with
  | blank => exact .inl rfl
  | note => exact .inl rfl
  | pair _ _ _ _ _ _ _ he =>
    rcases cases_of_ofPath he with ⟨key, -, rfl⟩ | ⟨key, _, _, inner, -, -, rfl⟩
    · exact .inl rfl
    · exact .inr ⟨_, _, rfl, rfl⟩

theorem isBlank_or_needsHeader (h : IsLine e) : e.isBlank = true ∨ e.needsHeader = true := by
  rcases h.kind with hplain | ⟨key, inner, rfl, hdotted⟩
  · cases hblank : e.isBlank with
    | true => exact .inl rfl
    | false => simp [Entry.needsHeader, hplain, hblank]
  · simp [Entry.needsHeader, Entry.key?, hdotted]

theorem sections (h : IsLine e) : e.sections = [] := by
  rcases h.kind with hplain | ⟨key, inner, rfl, hdotted⟩
  · cases e with
    | table => cases hplain
    | tables => cases hplain
    | _ => rfl
  · rw [Entry.sections, if_pos hdotted]

end IsLine

namespace LinesFirst

variable {es front back : List Entry} {e x y : Entry}

theorem opsOf (h : LinesFirst es) :
    Verbatim.opsOf es = (pairsOf es).map Op.ofPair ++ (sectionsOf es).map Op.block := by
  induction es with
  | nil => rfl
  | cons e es ih =>
    obtain ⟨hfirst, hrest⟩ := List.pairwise_cons.mp h
    have hops := ih hrest
    rw [Verbatim.opsOf] at hops
    rw [Verbatim.opsOf, List.flatMap_cons, hops, Entry.ops, pairsOf, sectionsOf]
    by_cases hnone : e.sections = []
    · simp [hnone]
    · have hpairs : pairsOf es = [] := by
        rw [pairsOf_eq, List.flatMap_eq_nil_iff]
        exact fun next hnext => (hfirst next hnext).resolve_left hnone
      simp [hpairs]

theorem concat (h : LinesFirst es) (he : e.pairs = []) : LinesFirst (es ++ [e]) := by
  refine List.pairwise_append.mpr ⟨h, List.pairwise_singleton _ _, ?_⟩
  intro first _ next hnext
  rw [List.mem_singleton.mp hnext]
  exact .inr he

theorem of_lines (h : ∀ e ∈ es, IsLine e) : LinesFirst es :=
  List.pairwise_iff_forall_sublist.mpr fun hsub =>
    .inl (h _ (hsub.subset List.mem_cons_self)).sections

theorem replace (h : LinesFirst (front ++ x :: back)) (hpairs : y.pairs = x.pairs)
    (hsections : x.sections ≠ []) : LinesFirst (front ++ y :: back) := by
  simp only [LinesFirst, List.pairwise_append, List.pairwise_cons, List.mem_cons] at h ⊢
  refine ⟨h.1, ⟨fun next hnext => .inr ((h.2.1.1 next hnext).resolve_left hsections), h.2.1.2⟩, ?_⟩
  rintro first hfirst next (rfl | hnext)
  · rw [hpairs]
    exact h.2.2 first hfirst x (.inl rfl)
  · exact h.2.2 first hfirst next (.inr hnext)

end LinesFirst

namespace Entry.IsSound

theorem of_table {key : Key} {head : Head} {entries : List Entry}
    (h : (Entry.table key head entries).IsSound) (hplain : key.isDotted = false) :
    Spells key.text key.name ∧ KeptHeader head.margin ∧ head.isItem = false ∧ LinesFirst entries ∧
      (Entry.table key head entries).sections ≠ [] ∧ ∀ e ∈ entries, e.IsSound := by
  cases h with
  | line h =>
    rcases h.kind with hno | ⟨_, _, heq, hdotted⟩
    · cases hno
    · cases heq
      rw [hplain] at hdotted
      cases hdotted
  | table hkey _ hmargin hhead hfirst hne hentries => exact ⟨hkey, hmargin, hhead, hfirst, hne, hentries⟩

theorem of_tables {key : Key} {margin : Margin} {items : List (Head × List Entry)}
    (h : (Entry.tables key margin items).IsSound) :
    Spells key.text key.name ∧ key.isDotted = false ∧ items ≠ [] ∧ (∀ item ∈ items, IsItem item) ∧
      ∀ item ∈ items, ∀ e ∈ item.2, e.IsSound := by
  cases h with
  | line h =>
    rcases h.kind with hno | ⟨_, _, heq, _⟩
    · cases hno
    · cases heq
  | tables hkey hplain hne hitems hentries => exact ⟨hkey, hplain, hne, hitems, hentries⟩

end Entry.IsSound

end FormatSettings.Toml.Verbatim
