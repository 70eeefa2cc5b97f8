import FormatSettings.Proofs.Toml.Verbatim.Growing
import FormatSettings.Proofs.Toml.Verbatim.Sections

/-!
A kept document is read as lines and tables that write the pairs and the sections of the document.
-/

namespace FormatSettings.Toml

/-- The header of an item within an array of tables, if the first table that it passes below another
header has the name of that array. -/
def Section.comesBack (all : List Section) (s : Section) : Bool :=
  s.isItem && all.any (fun array => array.isItem && array.path == s.path.take 1) &&
    all.any fun above => above.path.isPrefixOf s.path &&
      (s.path.drop above.path.length).dropLast.head? == s.path.head?

@[simp] theorem Section.below_below (names more : List String) (s : Section) :
    (s.below more).below names = s.below (names ++ more) := by
  rw [Section.below, Section.below, Section.below, List.append_assoc]

namespace Verbatim

theorem IsLine.of_blank {text : List Char} (h : IsLine (.blank text)) :
    ∀ c ∈ unifyBreaks text, IsSpace c := by
  generalize hblank : Entry.blank text = e at h
  cases h with
  | blank h =>
    cases hblank
    exact h
  | note => cases hblank
  | pair _ _ _ _ _ _ _ he =>
    rcases cases_of_ofPath he with ⟨_, -, rfl⟩ | ⟨_, _, _, _, -, -, rfl⟩ <;> cases hblank

theorem IsLine.blank_append {before text : List Char} (hbefore : IsLine (.blank before))
    (h : IsLine (.blank text)) : IsLine (.blank (before ++ text)) := by
  have hspaces := hbefore.of_blank
  have hunified : IsUnified before := by
    intro hmem
    rcases hspaces _ hmem with hblank | hbreak
    · cases hblank
    · cases hbreak
  refine .blank ?_
  rw [unifyBreaks_append hunified]
  exact List.forall_mem_append.mpr ⟨hspaces, h.of_blank⟩

theorem add_line {isChecked : Bool} {fuel : Nat} {es grown : List Entry} {e : Entry} (he : IsLine e)
    (h : add (fuel + 1) isChecked es e = .ok grown) : grown = es ++ [e] ∧
      ∀ name x, e.named name = true → lastNamed? name es = some x → x.IsTable := by
  have hnamed {key : Key} {name : String} (hkey : e.key? = some key) (h : e.named name = true) :
      key.name = name := by
    rwa [Entry.named, hkey, Option.any_some, beq_iff_eq] at h
  rcases he.kind with hplain | ⟨key, inner, rfl, hdotted⟩
  · obtain ⟨hgrown, hnone⟩ := add_plain hplain h
    refine ⟨hgrown, fun name x hname hx => ?_⟩
    cases hkey : e.key? with
    | none =>
      rw [Entry.named, hkey] at hname
      cases hname
    | some key =>
      rw [← hnamed hkey hname, hnone key hkey] at hx
      cases hx
  · rcases add_table rfl h with ⟨hgrown, htable⟩ | ⟨_, _, _, _, _, _, hkey, -⟩
    · refine ⟨hgrown, fun name x hname hx => htable x ?_⟩
      rwa [hnamed rfl hname]
    · rw [hdotted] at hkey
      cases hkey

theorem add_of_addLoosely {limit : Nat} {entries grown : List Entry} {e : Entry}
    (h : addLoosely limit entries e = .ok grown) : add limit false entries e = .ok grown := by
  obtain ⟨added, hadd, h⟩ := Except.bind_eq_ok.mp h
  split at h
  · obtain ⟨_, _, h⟩ := Except.bind_eq_ok.mp h
    cases h
    exact hadd
  · cases h
    exact hadd

theorem add_of_addOnTop {limit : Nat} {entries grown : List Entry} {e : Entry}
    (h : addOnTop limit entries e = .ok grown) : add limit true entries e = .ok grown := by
  unfold addOnTop at h
  cases hadd : add limit true entries e with
  | error f =>
    rw [hadd] at h
    cases h
  | ok added =>
    rw [hadd] at h
    cases h
    rfl

theorem lines_of_foldlM {addEntry : List Entry → Entry → Except Failure (List Entry)}
    {es lines grown : List Entry}
    (hadd : ∀ {e es grown}, IsLine e → addEntry es e = .ok grown → grown = es ++ [e] ∧
      ∀ name x, e.named name = true → lastNamed? name es = some x → x.IsTable)
    (hes : ∀ e ∈ es, IsLine e) (hspread : Spread es) (hlines : ∀ e ∈ lines, IsLine e)
    (h : lines.foldlM (addLine addEntry) es = .ok grown) :
    (∀ e ∈ grown, IsLine e) ∧ Spread grown ∧ pairsOf grown = pairsOf es ++ pairsOf lines := by
  induction lines generalizing es with
  | nil =>
    cases h
    exact ⟨hes, hspread, (List.append_nil _).symm⟩
  | cons e lines ih =>
    obtain ⟨he, hrest⟩ := List.forall_mem_cons.mp hlines
    rw [List.foldlM_cons] at h
    obtain ⟨next, hnext, h⟩ := Except.bind_eq_ok.mp h
    unfold addLine at hnext
    split at hnext
    · next text before hlast =>
      cases hnext
      obtain ⟨front, rfl⟩ := List.getLast?_eq_some_iff.mp hlast
      rw [List.dropLast_concat] at h
      rw [List.forall_mem_append, List.forall_mem_singleton] at hes
      have hjoined := ih (List.forall_mem_append.mpr ⟨hes.1,
        List.forall_mem_singleton.mpr (hes.2.blank_append he)⟩) (hspread.replace nofun nofun) hrest h
      simpa [pairsOf_eq, Entry.pairs] using hjoined
    · obtain ⟨rfl, hnamed⟩ := hadd he hnext
      have hadded := ih (List.forall_mem_append.mpr ⟨hes, List.forall_mem_singleton.mpr he⟩)
        (hspread.concat hnamed) hrest h
      simpa [pairsOf_eq] using hadded

/-- An entry that leads to the tables of sections. -/
structure LeadsTo (limit : Nat) (e : Entry) (sections : List Toml.Section) : Prop where
  sound : e.IsSound
  leads : Leads limit e
  sections : e.sections = sections

theorem leadsTo_passed {limit : Nat} {key : Key} {margin : Margin} {e : Entry}
    {sections : List Toml.Section} (hkey : Spells key.text key.name) (hplain : key.isDotted = false)
    (hmargin : KeptHeader margin) (h : LeadsTo limit e sections) :
    LeadsTo (limit + 2) (.table key ⟨margin, none, false, true⟩ [e])
      (sections.map (Section.below [key.name])) := by
  have hsections : (Entry.table key ⟨margin, none, false, true⟩ [e]).sections =
      sections.map (Section.below [key.name]) := by
    simp [Entry.sections, hplain, h.leads.plain.2.1, sectionsOf, h.sections]
  refine ⟨.table hkey hplain hmargin rfl (List.pairwise_singleton _ _) ?_ ?_, .passed hplain rfl h.leads,
    hsections⟩
  · rw [hsections, ← h.sections]
    simpa using h.leads.sections_ne_nil h.sound
  · exact List.forall_mem_singleton.mpr h.sound

theorem leadsTo_chain {s : Section} {margin : Margin} {entries : List Entry} (hmargin : KeptHeader margin)
    (hentries : ∀ e ∈ entries, e.IsSound) (hfirst : LinesFirst entries) {keys : List Key}
    (hne : keys ≠ []) (hkeys : ∀ key ∈ keys, Spells key.text key.name ∧ key.isDotted = false)
    (limit : Nat) (hlimit : 2 * keys.length ≤ limit) :
    LeadsTo limit (s.chain margin entries keys) (⟨s.isItem, keys.map (·.name), pairsOf entries⟩ ::
      (sectionsOf entries).map (Section.below (keys.map (·.name)))) := by
  induction keys generalizing limit with
  | nil => exact absurd rfl hne
  | cons key keys ih =>
    obtain ⟨⟨hspells, hplain⟩, hrest⟩ := List.forall_mem_cons.mp hkeys
    rw [List.length_cons] at hlimit
    obtain ⟨limit, rfl⟩ : ∃ n, limit = n + 2 := ⟨limit - 2, by omega⟩
    cases keys with
    | nil =>
      rw [Section.chain]
      cases hitem : s.isItem with
      | false =>
        have hhead : s.head margin = ⟨margin, some s.pathText, false, false⟩ := by
          rw [Section.head, hitem]
        have hsections : (Entry.table key (s.head margin) entries).sections =
            ⟨false, [key.name], pairsOf entries⟩ ::
              (sectionsOf entries).map (Section.below [key.name]) := by
          simp [Entry.sections, hplain, hhead]
        refine ⟨.table hspells hplain (by rwa [hhead]) (by rw [hhead]) hfirst ?_ hentries,
          .headed hplain (by rw [hhead]), hsections⟩
        rw [hsections]
        exact List.cons_ne_nil _ _
      | true =>
        have hhead : s.head margin = ⟨margin, some s.pathText, true, false⟩ := by
          rw [Section.head, hitem]
        have hsections : (Entry.tables key {} [(s.head margin, entries)]).sections =
            ⟨true, [key.name], pairsOf entries⟩ ::
              (sectionsOf entries).map (Section.below [key.name]) := by
          simp [Entry.sections, itemsSections, itemSections]
        refine ⟨.tables hspells hplain (List.cons_ne_nil _ _) ?_ ?_, .items hplain, hsections⟩
        · exact List.forall_mem_singleton.mpr ⟨by rw [hhead], by rw [hhead], by rwa [hhead], hfirst⟩
        · exact List.forall_mem_singleton.mpr hentries
    | cons next keys =>
      have hinner := ih (List.cons_ne_nil _ _) hrest limit (by omega)
      have hall := leadsTo_passed hspells hplain hmargin hinner
      rw [List.map_cons, List.map_map] at hall
      rw [Section.chain]
      · exact hall
      · exact List.cons_ne_nil _ _

theorem isBelow_iff {path : List String} {s : Section} :
    s.isBelow path = true ↔ ∃ keys, s.path = path ++ keys ∧ keys ≠ [] := by
  rw [Section.isBelow, Bool.and_eq_true, List.isPrefixOf_iff_prefix, bne_iff_ne]
  constructor
  · rintro ⟨⟨keys, hkeys⟩, hne⟩
    refine ⟨keys, hkeys.symm, ?_⟩
    rintro rfl
    rw [List.append_nil] at hkeys
    exact hne hkeys
  · rintro ⟨keys, hkeys, hne⟩
    refine ⟨⟨keys, hkeys.symm⟩, fun heq => hne ?_⟩
    rw [hkeys] at heq
    simpa using heq

/-- A section of a document that can be read below the tables that are open. -/
structure Section.IsReadable (all : List Toml.Section) (limit : Nat) (s : Section) : Prop where
  sound : s.IsSound
  short : 2 * s.keys.length ≤ limit
  known : s.plain ∈ all
  stays : s.plain.comesBack all = false

/-- Where sections are read: the items around it, and the header that it stands below. -/
structure Stands (all : List Toml.Section) (outer : List (List String)) (path : List String) : Prop where
  around : ∀ p ∈ outer, p <+: path ∧ ∃ t ∈ all, t.isItem = true ∧ t.path = p
  header : outer = [] ∨ ∃ t ∈ all, t.path = path

namespace Stands

variable {all : List Toml.Section} {outer : List (List String)} {path : List String} {limit : Nat}
  {s : Section}

theorem top (all : List Toml.Section) : Stands all [] [] :=
  ⟨List.forall_mem_nil _, .inl rfl⟩

theorem below (h : Stands all outer path) (hs : s.IsReadable all limit) (hpath : path <+: s.path) :
    Stands all outer s.path :=
  ⟨fun p hp => ⟨(h.around p hp).1.trans hpath, (h.around p hp).2⟩, .inr ⟨_, hs.known, rfl⟩⟩

theorem within (h : Stands all outer s.path) (hs : s.IsReadable all limit) (hitem : s.isItem = true) :
    Stands all (s.path :: outer) s.path :=
  ⟨List.forall_mem_cons.mpr ⟨⟨List.prefix_rfl, _, hs.known, hitem, rfl⟩, h.around⟩,
    .inr ⟨_, hs.known, rfl⟩⟩

end Stands

/-- What is read below a path takes up the sections that its entries write. -/
def TakesUp (path : List String) (rest left : List Section) (before after : List Toml.Section) : Prop :=
  ∃ used, rest = used ++ left ∧
    Rearranged (before.map (Section.below path) ++ used.map Section.plain)
      (after.map (Section.below path))

namespace TakesUp

variable {path : List String} {rest middle left : List Section} {before between after : List Toml.Section}

theorem refl (path : List String) (rest : List Section) (before : List Toml.Section) :
    TakesUp path rest rest before before :=
  ⟨[], rfl, by rw [List.map_nil, List.append_nil]; exact .refl _⟩

theorem trans (h : TakesUp path rest middle before between) (hmore : TakesUp path middle left between after) :
    TakesUp path rest left before after := by
  obtain ⟨used, rfl, hused⟩ := h
  obtain ⟨more, rfl, hmore⟩ := hmore
  refine ⟨used ++ more, (List.append_assoc _ _ _).symm, ?_⟩
  rw [List.map_append, ← List.append_assoc]
  exact (hused.append_right _).trans hmore

theorem append (h : TakesUp path rest middle [] before) (hmore : TakesUp path middle left [] after) :
    TakesUp path rest left [] (before ++ after) := by
  obtain ⟨used, rfl, hused⟩ := h
  obtain ⟨more, rfl, hmore⟩ := hmore
  refine ⟨used ++ more, (List.append_assoc _ _ _).symm, ?_⟩
  rw [List.map_append, List.map_append]
  exact (hused.append_right _).trans (hmore.append_left _)

theorem grow (h : TakesUp path rest left [] between)
    (hgrown : Rearranged (before ++ between) after) : TakesUp path rest left before after := by
  obtain ⟨used, rfl, hused⟩ := h
  refine ⟨used, rfl, ?_⟩
  have hall := hgrown.map_below path
  rw [List.map_append] at hall
  exact (hused.append_left _).trans hall

theorem header {s : Section} {parent names : List String} {entries : List Entry}
    (h : TakesUp s.path rest left [] (sectionsOf entries)) (hpairs : pairsOf entries = pairsOf s.lines)
    (hpath : s.path = parent ++ names) : TakesUp parent (s :: rest) left []
      (⟨s.isItem, names, pairsOf entries⟩ :: (sectionsOf entries).map (Section.below names)) := by
  obtain ⟨used, rfl, hused⟩ := h
  refine ⟨s :: used, rfl, ?_⟩
  have hfirst : s.plain = Section.below parent ⟨s.isItem, names, pairsOf entries⟩ := by
    rw [Section.plain, Section.below, hpairs, hpath]
  have hrest : ((sectionsOf entries).map (Section.below names)).map (Section.below parent) =
      (sectionsOf entries).map (Section.below s.path) := by
    simp [hpath]
  rw [List.map_cons, List.map_cons, hrest, ← hfirst]
  exact .cons _ hused

end TakesUp

theorem isReadable_of_used {all : List Toml.Section} {limit : Nat} {path : List String}
    {rest left : List Section} {before after : List Toml.Section} (h : TakesUp path rest left before after)
    (hrest : ∀ t ∈ rest, t.IsReadable all limit) : ∀ t ∈ left, t.IsReadable all limit := by
  obtain ⟨used, rfl, -⟩ := h
  exact fun t ht => hrest t (List.mem_append_right used ht)

theorem contains_of_comesBack {all : List Toml.Section} {s : Section} {outer : List (List String)}
    {parent : List String} {key : Key} {keys : List Key} (houter : Stands all outer parent)
    (hne : keys ≠ []) (hpath : s.path = parent ++ (key :: keys).map (·.name))
    (hstays : s.plain.comesBack all = false) : (s.isItem && outer.contains [key.name]) = false := by
  rw [Bool.and_eq_false_iff, or_iff_not_imp_left]
  intro hitem
  rw [Bool.eq_false_iff]
  intro hcontains
  have hmem := List.contains_iff_mem.mp hcontains
  obtain ⟨⟨more, rfl⟩, array, harray, hisItem, harrayPath⟩ := houter.around _ hmem
  obtain ⟨above, habove, habovePath⟩ := houter.header.resolve_left (List.ne_nil_of_mem hmem)
  obtain ⟨next, keys, rfl⟩ := List.exists_cons_of_ne_nil hne
  apply absurd hstays
  rw [Section.comesBack, Bool.not_eq_false, Bool.and_eq_true, Bool.and_eq_true, List.any_eq_true,
    List.any_eq_true]
  refine ⟨⟨Bool.of_not_eq_false hitem, array, harray, ?_⟩, above, habove, ?_⟩
  · simp [Section.plain, hisItem, harrayPath, hpath]
  · simp [Section.plain, habovePath, hpath]

/-- The entries below a header: its own lines before the tables of other sections. -/
structure ReadsBody (s : Section) (rest left : List Section) (entries : List Entry) : Prop where
  sound : ∀ e ∈ entries, e.IsSound
  first : LinesFirst entries
  pairs : pairsOf entries = pairsOf s.lines
  takes : TakesUp s.path rest left [] (sectionsOf entries)

theorem isItem_of_readsBody {s : Section} {rest left : List Section} {entries : List Entry}
    {margin : Margin} (h : ReadsBody s rest left entries) (hmargin : KeptHeader margin)
    (hitem : s.isItem = true) : IsItem (s.head margin, entries) :=
  ⟨hitem, rfl, hmargin, h.first⟩

mutual

theorem readsBody_of_readBody {all : List Toml.Section} (limit fuel : Nat) {outer : List (List String)}
    {s : Section} {rest left : List Section} {entries : List Entry} (hs : ∀ t ∈ s :: rest, t.IsReadable all limit)
    (houter : Stands all outer s.path)
    (h : s.readBody limit fuel outer rest = .ok (entries, left)) : ReadsBody s rest left entries := by
  match fuel with
  | 0 => cases h
  | fuel + 1 =>
    obtain ⟨hfirst, hothers⟩ := List.forall_mem_cons.mp hs
    have hlength := List.length_pos_iff.mpr hfirst.sound.keys.nonempty
    have hshort := hfirst.short
    obtain ⟨limit, rfl⟩ : ∃ n, limit = n + 1 := ⟨limit - 1, by omega⟩
    rw [Section.readBody] at h
    obtain ⟨own, hown, h⟩ := Except.bind_eq_ok.mp h
    obtain ⟨_, _, h⟩ := Except.bind_eq_ok.mp h
    obtain ⟨⟨grown, after⟩, hbelow, h⟩ := Except.bind_eq_ok.mp h
    obtain ⟨_, _, h⟩ := Except.bind_eq_ok.mp h
    cases h
    obtain ⟨hlines, -, hpairs⟩ := lines_of_foldlM (fun he h => add_line he (add_of_addLoosely h))
      (List.forall_mem_nil _) .nil hfirst.sound.lines hown
    have hsections : sectionsOf own = [] := by
      rw [sectionsOf_eq, List.flatMap_eq_nil_iff]
      exact fun e he => (hlines e he).sections
    obtain ⟨hsound, hfirstLines, hsame, htakes⟩ := takesUp_readBelow (limit + 1) fuel hothers houter
      (fun e he => .line (hlines e he)) (.of_lines hlines) hbelow
    rw [hsections] at htakes
    exact ⟨hsound, hfirstLines, hsame.trans hpairs, htakes⟩

theorem takesUp_readBelow {all : List Toml.Section} (limit fuel : Nat) {outer : List (List String)}
    {path : List String} {es grown : List Entry} {rest left : List Section} (hs : ∀ t ∈ rest, t.IsReadable all limit)
    (houter : Stands all outer path) (hes : ∀ e ∈ es, e.IsSound) (hfirst : LinesFirst es)
    (h : readBelow limit fuel outer path es rest = .ok (grown, left)) :
    (∀ e ∈ grown, e.IsSound) ∧ LinesFirst grown ∧ pairsOf grown = pairsOf es ∧
      TakesUp path rest left (sectionsOf es) (sectionsOf grown) := by
  match fuel, rest with
  | 0, rest =>
    rw [readBelow_zero] at h
    cases h
    exact ⟨hes, hfirst, rfl, .refl _ _ _⟩
  | fuel + 1, [] =>
    rw [readBelow_nil] at h
    cases h
    exact ⟨hes, hfirst, rfl, .refl _ _ _⟩
  | fuel + 1, s :: rest =>
    rw [readBelow] at h
    split at h
    · next hbelow =>
      obtain ⟨⟨e, after⟩, hread, h⟩ := Except.bind_eq_ok.mp h
      obtain ⟨added, hadd, h⟩ := Except.bind_eq_ok.mp h
      obtain ⟨he, hleads, htakes⟩ := takesUp_read limit fuel hs houter hbelow hread
      have hgrows := (grows_add hleads hes hfirst he (add_of_addLoosely hadd)).1
      obtain ⟨hsound, hlines, hpairs, hmore⟩ := takesUp_readBelow limit fuel
        (isReadable_of_used htakes hs) houter hgrows.sound hgrows.first h
      exact ⟨hsound, hlines, hpairs.trans hgrows.pairs, (htakes.grow hgrows.sections).trans hmore⟩
    · cases h
      exact ⟨hes, hfirst, rfl, .refl _ _ _⟩

theorem takesUp_read {all : List Toml.Section} (limit fuel : Nat) {outer : List (List String)}
    {parent : List String} {s : Section} {rest left : List Section} {e : Entry} (hs : ∀ t ∈ s :: rest, t.IsReadable all limit)
    (houter : Stands all outer parent) (hbelow : s.isBelow parent = true)
    (h : s.read limit fuel outer parent rest = .ok (e, left)) :
    e.IsSound ∧ Leads limit e ∧ TakesUp parent (s :: rest) left [] e.sections := by
  obtain ⟨names, hpath, hnames⟩ := isBelow_iff.mp hbelow
  have hparent : parent <+: s.path := ⟨names, hpath.symm⟩
  have hreadable := hs s List.mem_cons_self
  unfold Section.read at h
  split at h
  · next fuel margin hsome =>
    obtain ⟨kept, hkept, hmargin⟩ := hreadable.sound.margin
    rw [hsome, Option.some.injEq] at hkept
    subst hkept
    obtain ⟨⟨entries, after⟩, hread, h⟩ := Except.bind_eq_ok.mp h
    have hbody := readsBody_of_readBody limit fuel hs (houter.below hreadable hparent) hread
    have hmem : ∀ key ∈ s.keys.drop parent.length, Spells key.text key.name ∧ key.isDotted = false :=
      fun key hkey => ⟨hreadable.sound.keys.spelled key (List.mem_of_mem_drop hkey),
        (hreadable.sound.keys.plain key (List.mem_of_mem_drop hkey)).2⟩
    have hlength : (s.keys.drop parent.length).length ≤ s.keys.length := by simp
    have hdropped : (s.keys.drop parent.length).map (·.name) = names := by
      rw [List.map_drop, show s.keys.map (·.name) = parent ++ names from hpath, List.drop_left]
    have hshort := hreadable.short
    have htakes := hbody.takes.header hbody.pairs hpath
    -- How many keys lead from the parent to the section decides on the tables in between.
    cases hkeys : s.keys.drop parent.length with
    | nil =>
      rw [hkeys] at hdropped
      exact absurd hdropped.symm hnames
    | cons key keys =>
      rw [hkeys] at h hmem hlength hdropped
      subst hdropped
      obtain ⟨⟨hspells, hplain⟩, hrest⟩ := List.forall_mem_cons.mp hmem
      rw [List.length_cons] at hlength
      cases keys with
      | nil =>
        dsimp only at h
        split at h
        · next hitem =>
          obtain ⟨⟨items, behind⟩, hitems, h⟩ := Except.bind_eq_ok.mp h
          cases h
          have hfirst := isItem_of_readsBody hbody hmargin hitem
          have hinside := (houter.below hreadable hparent).within hreadable hitem
          rw [show s.path = parent ++ [key.name] from hpath] at hitems hinside
          obtain ⟨hheads, hentries, hmore⟩ := takesUp_readItems limit fuel
            (isReadable_of_used htakes hs) hinside hitems
          obtain ⟨limit, rfl⟩ : ∃ n, limit = n + 1 := ⟨limit - 1, by omega⟩
          rw [hitem] at htakes
          refine ⟨.tables hspells hplain (List.cons_ne_nil _ _) (List.forall_mem_cons.mpr ⟨hfirst, hheads⟩)
            (List.forall_mem_cons.mpr ⟨hbody.sound, hentries⟩), .items hplain, htakes.append hmore⟩
        · next hitem =>
          cases h
          have hchain := leadsTo_chain (s := s) hmargin hbody.sound hbody.first (List.cons_ne_nil key [])
            hmem limit (by simp; omega)
          rw [Section.chain, if_neg hitem] at hchain
          refine ⟨hchain.sound, hchain.leads, ?_⟩
          rw [hchain.sections]
          exact htakes
      | cons next keys =>
        dsimp only at h
        rw [contains_of_comesBack houter (List.cons_ne_nil _ _) hpath hreadable.stays] at h
        cases h
        obtain ⟨limit, rfl⟩ : ∃ n, limit = n + 2 := ⟨limit - 2, by omega⟩
        have hchain := leadsTo_chain (s := s) hmargin hbody.sound hbody.first (List.cons_ne_nil next keys)
          hrest limit (by omega)
        have hmoved : KeptHeader { margin with indent := [] } := ⟨.inl .nil, hmargin.closes, hmargin.broken⟩
        have hall := leadsTo_passed hspells hplain hmoved hchain
        refine ⟨hall.sound, hall.leads, ?_⟩
        rw [hall.sections, List.map_cons, List.map_map]
        exact htakes
  · cases h

theorem takesUp_readItems {all : List Toml.Section} (limit fuel : Nat) {outer : List (List String)}
    {parent : List String} {name : String} {rest left : List Section} {items : List (Head × List Entry)}
    (hs : ∀ t ∈ rest, t.IsReadable all limit) (houter : Stands all outer (parent ++ [name]))
    (h : readItems limit fuel outer (parent ++ [name]) rest = .ok (items, left)) :
    (∀ item ∈ items, IsItem item) ∧ (∀ item ∈ items, ∀ e ∈ item.2, e.IsSound) ∧
      TakesUp parent rest left [] (itemsSections name items) := by
  have hstay : TakesUp parent rest rest [] (itemsSections name []) := .refl _ _ _
  match fuel, rest with
  | 0, rest =>
    rw [readItems] at h
    · cases h
      exact ⟨List.forall_mem_nil _, List.forall_mem_nil _, hstay⟩
    · exact fun _ _ _ hfuel => absurd hfuel (Nat.succ_ne_zero _).symm
  | fuel + 1, [] =>
    rw [readItems] at h
    · cases h
      exact ⟨List.forall_mem_nil _, List.forall_mem_nil _, hstay⟩
    · exact fun _ _ _ _ hrest => absurd hrest (List.cons_ne_nil _ _).symm
  | fuel + 1, s :: rest =>
    rw [readItems] at h
    split at h
    · next hsame =>
      rw [Bool.and_eq_true, beq_iff_eq] at hsame
      obtain ⟨hitem, hpath⟩ := hsame
      obtain ⟨margin, hsome, hmargin⟩ := (hs s List.mem_cons_self).sound.margin
      rw [hsome] at h
      obtain ⟨⟨entries, after⟩, hread, h⟩ := Except.bind_eq_ok.mp h
      obtain ⟨⟨more, behind⟩, hmore, h⟩ := Except.bind_eq_ok.mp h
      cases h
      have hbody := readsBody_of_readBody limit fuel hs (hpath ▸ houter) hread
      have htakes := hbody.takes.header hbody.pairs hpath
      obtain ⟨hitems, hentries, hrest⟩ := takesUp_readItems limit fuel
        (isReadable_of_used htakes hs) houter hmore
      rw [hitem] at htakes
      exact ⟨List.forall_mem_cons.mpr ⟨isItem_of_readsBody hbody hmargin hitem, hitems⟩,
        List.forall_mem_cons.mpr ⟨hbody.sound, hentries⟩, htakes.append hrest⟩
    · cases h
      exact ⟨List.forall_mem_nil _, List.forall_mem_nil _, hstay⟩

end

theorem length_le_of_readPath? {fuel : Nat} {cs rest : List Char} {path : List String}
    (h : readPath? fuel cs = some (path, rest)) : path.length ≤ fuel := by
  induction fuel generalizing cs path with
  | zero => cases h
  | succ fuel ih =>
    obtain ⟨⟨name, after⟩, _, h⟩ := Option.bind_eq_some_iff.mp h
    dsimp only at h
    split at h
    · obtain ⟨⟨more, _⟩, hmore, h⟩ := Option.map_eq_some_iff.mp h
      cases h
      exact Nat.succ_le_succ (ih hmore)
    · cases h
      exact Nat.succ_le_succ (Nat.zero_le fuel)

theorem length_le_of_readHeader? {isItem : Bool} {cs : List Char} {s : Statement}
    (h : readHeader? isItem cs = some s) :
    ∃ path, s = .header isItem path ∧ path.length ≤ cs.length + 1 := by
  obtain ⟨path, _, rfl, hpath, -⟩ := readHeader?_eq_some h
  exact ⟨path, rfl, length_le_of_readPath? hpath⟩

theorem length_le_of_readLine? {line : List Char} {isItem : Bool} {path : List String}
    (h : readLine? line = some (.header isItem path)) : path.length ≤ line.length + 1 := by
  have hdrop : (line.dropWhile isLineBlank).length ≤ line.length := List.length_dropWhile_le _ _
  rw [readLine?] at h
  split at h
  · cases h
  · split at h
    · next rest heq =>
      rw [heq, List.length_cons, List.length_cons] at hdrop
      obtain ⟨_, ⟨⟩, hlength⟩ := length_le_of_readHeader? h
      omega
    · next rest _ heq =>
      rw [heq, List.length_cons] at hdrop
      obtain ⟨_, ⟨⟩, hlength⟩ := length_le_of_readHeader? h
      omega
    · obtain ⟨_, _, _, _, heq, -⟩ := readPair?_eq_some h
      cases heq

theorem length_le_of_splitFrom {mode : Mode} {cs line : List Char} {lines : List (List Char)}
    (h : splitFrom mode cs = (line, lines)) : ∀ l ∈ line :: lines, l.length ≤ cs.length := by
  induction cs generalizing mode line lines with
  | nil =>
    cases h
    simp
  | cons c cs ih =>
    rw [splitFrom] at h
    split at h
    · cases h
      intro l hl
      rcases List.mem_cons.mp hl with rfl | hl
      · simp
      · exact Nat.le_succ_of_le (ih rfl l hl)
    · cases h
      have hrest := @ih (mode.step c) _ _ rfl
      intro l hl
      rcases List.mem_cons.mp hl with rfl | hl
      · exact Nat.succ_le_succ (hrest _ List.mem_cons_self)
      · exact Nat.le_succ_of_le (hrest l (List.mem_cons_of_mem _ hl))

theorem exists_line_of_readLines? {lines : List (List Char)} {ss : List Statement} {s : Statement}
    (h : readLines? lines = some ss) (hs : s ∈ ss) : ∃ line ∈ lines, readLine? line = some s := by
  induction lines generalizing ss with
  | nil =>
    cases h
    cases hs
  | cons line lines ih =>
    obtain ⟨t, ht, h⟩ := Option.bind_eq_some_iff.mp h
    obtain ⟨more, hmore, rfl⟩ := Option.map_eq_some_iff.mp h
    rcases List.mem_cons.mp hs with rfl | hs
    · exact ⟨line, List.mem_cons_self, ht⟩
    · obtain ⟨l, hl, hread⟩ := ih hmore hs
      exact ⟨l, List.mem_cons_of_mem _ hl, hread⟩

theorem length_le_of_readLines? {cs : List Char} {ss : List Statement} {isItem : Bool}
    {path : List String} (h : readLines? (splitLines cs) = some ss)
    (hheader : .header isItem path ∈ ss) : path.length ≤ cs.length + 1 := by
  obtain ⟨line, hline, hread⟩ := exists_line_of_readLines? h hheader
  have hlength := length_le_of_splitFrom rfl line hline
  have hpath := length_le_of_readLine? hread
  omega

theorem header_of_sections {ss : List Statement} {s : Toml.Section}
    (h : s ∈ (Document.ofStatements ss).sections) : .header s.isItem s.path ∈ ss := by
  induction ss with
  | nil => cases h
  | cons first ss ih =>
    have hcons : Document.ofStatements (first :: ss) = (Document.ofStatements ss).addStatement first := rfl
    rw [hcons] at h
    cases first with
    | nothing => exact List.mem_cons_of_mem _ (ih h)
    | pair path v => exact List.mem_cons_of_mem _ (ih h)
    | header isItem path =>
      rcases List.mem_cons.mp h with rfl | h
      · exact List.mem_cons_self
      · exact List.mem_cons_of_mem _ (ih h)

theorem spread_add {limit : Nat} {isChecked : Bool} {es grown : List Entry} {e : Entry}
    (hleads : Leads limit e) (he : e.IsSound) (hspread : Spread es)
    (h : add limit isChecked es e = .ok grown) : Spread grown := by
  have hconcat {key : Key} (hkey : e.key? = some key)
      (hlast : ∀ x, lastNamed? key.name es = some x → x.IsTable) : Spread (es ++ [e]) := by
    refine hspread.concat fun name x hname hx => hlast x ?_
    rw [Entry.named, hkey, Option.any_some, beq_iff_eq] at hname
    rwa [hname]
  have htable {key : Key} {head : Head} {inner : List Entry} {fuel : Nat}
      (heq : e = .table key head inner) (hitem : head.isItem = false)
      (hadd : add (fuel + 1) isChecked es (.table key head inner) = .ok grown) : Spread grown := by
    rcases add_table hitem hadd with ⟨rfl, hlast⟩ | ⟨last, _, _, more, hlast, -, -, -, -, rfl⟩
    · rw [← heq]
      exact hconcat (heq ▸ rfl) hlast
    · obtain ⟨-, front, back, rfl, -, hreplace⟩ := exists_of_lastNamed? hlast
      rw [hreplace]
      exact hspread.replace (fun _ hname => hname) fun _ => ⟨_, _, _, rfl⟩
  cases hleads with
  | headed hplain => exact htable rfl (he.of_table hplain).2.2.1 h
  | passed hplain => exact htable rfl (he.of_table hplain).2.2.1 h
  | items =>
    rcases add_tables h with ⟨rfl, hnone⟩ | ⟨_, _, _, hlast, rfl⟩
    · refine hconcat rfl fun x hx => ?_
      rw [hnone] at hx
      cases hx
    · obtain ⟨-, front, back, rfl, -, hreplace⟩ := exists_of_lastNamed? hlast
      rw [hreplace]
      refine hspread.replace (fun _ hname => hname) ?_
      rintro ⟨_, _, _, heq⟩
      cases heq

/-- Entries that stand for the pairs and the sections of a document. -/
structure StandsFor (entries : List Entry) (d : Document) : Prop where
  sound : ∀ e ∈ entries, e.IsSound
  first : LinesFirst entries
  spread : Spread entries
  pairs : pairsOf entries = d.pairs
  sections : Rearranged d.sections (sectionsOf entries)

theorem standsFor_of_readSections (all : List Toml.Section) {limit fuel : Nat} {d : Document}
    {es grown : List Entry} {rest : List Section} (hes : StandsFor es d) (hs : ∀ t ∈ rest, t.IsReadable all limit)
    (h : readSections limit fuel es rest = .ok grown) :
    StandsFor grown ⟨d.pairs, d.sections ++ rest.map Section.plain⟩ := by
  induction fuel generalizing d es rest with
  | zero => cases h
  | succ fuel ih =>
    cases rest with
    | nil =>
      rw [readSections] at h
      · cases h
        simpa using hes
      · exact Nat.succ_ne_zero _
    | cons s rest =>
      rw [readSections] at h
      obtain ⟨⟨e, left⟩, hread, h⟩ := Except.bind_eq_ok.mp h
      obtain ⟨added, hadd, h⟩ := Except.bind_eq_ok.mp h
      have hbelow : s.isBelow [] = true := by
        refine isBelow_iff.mpr ⟨s.path, rfl, ?_⟩
        simpa [Section.path] using (hs s List.mem_cons_self).sound.keys.nonempty
      obtain ⟨he, hleads, htakes⟩ :=
        takesUp_read limit _ hs (.top _) hbelow hread
      have hgrows := (grows_add hleads hes.sound hes.first he (add_of_addOnTop hadd)).1
      have hspread := spread_add hleads he hes.spread (add_of_addOnTop hadd)
      obtain ⟨used, hused, hsections⟩ := htakes
      have hnone : e.sections.map (Section.below []) = e.sections := List.map_id _
      rw [List.map_nil, List.nil_append, hnone] at hsections
      have hgrown : StandsFor added ⟨d.pairs, d.sections ++ used.map Section.plain⟩ :=
        ⟨hgrows.sound, hgrows.first, hspread, hgrows.pairs.trans hes.pairs,
          (hes.sections.append_right _).trans ((hsections.append_left _).trans hgrows.sections)⟩
      have hall := ih hgrown (fun t ht => hs t (hused ▸ List.mem_append_right used ht)) h
      rwa [List.append_assoc, ← List.map_append, ← hused] at hall

theorem isWhole_of_read {cs : List Char} {entries : List Entry} (h : read cs = .ok entries) :
    ∀ line ∈ readLines cs.length cs, line.IsWhole := by
  obtain ⟨_, _, h⟩ := Except.bind_eq_ok.mp h
  obtain ⟨_, hfault, h⟩ := Except.bind_eq_ok.mp h
  obtain ⟨-, hstops⟩ := stopsByDocument_ofLines (stopsByDocument_readLines cs.length cs)
  refine isWhole_of_ofLines ?_ (isWhole_of_readSections hstops h)
  cases hsections : (Sections.ofLines (readLines cs.length cs)).fault? with
  | none => rfl
  | some f =>
    rw [hsections] at hfault
    cases hfault

theorem standsFor_of_read {cs : List Char} {entries : List Entry} {ss : List Statement}
    (hlines : LinesSay (readLines cs.length cs) ss)
    (hshort : ∀ isItem path, .header isItem path ∈ ss → path.length ≤ cs.length + 1)
    (hstays : ∀ s ∈ (Document.ofStatements ss).sections,
      s.comesBack (Document.ofStatements ss).sections = false)
    (h : read cs = .ok entries) : StandsFor entries (Document.ofStatements ss) := by
  obtain ⟨own, hown, h⟩ := Except.bind_eq_ok.mp h
  obtain ⟨_, _, h⟩ := Except.bind_eq_ok.mp h
  obtain ⟨hsound, hsections, hss⟩ := ofLines_of_linesSay hlines
  generalize Sections.ofLines (readLines cs.length cs) = sections at *
  have hlimit : nestingLimit cs = 4 * cs.length + 3 + 1 := rfl
  rw [hlimit] at hown
  obtain ⟨hkept, hspread, hpairs⟩ := lines_of_foldlM (fun he h => add_line he (add_of_addOnTop h))
    (List.forall_mem_nil _) .nil hsound hown
  have hnone : sectionsOf own = [] := by
    rw [sectionsOf_eq, List.flatMap_eq_nil_iff]
    exact fun e he => (hkept e he).sections
  have hes : StandsFor own ⟨pairsOf sections.lines, []⟩ := by
    refine ⟨fun e he => .line (hkept e he), .of_lines hkept, hspread, hpairs, ?_⟩
    rw [hnone]
    exact .nil
  rw [hss]
  refine standsFor_of_readSections (Document.ofStatements ss).sections hes (fun t ht => ?_) h
  have hmem : t.plain ∈ (Document.ofStatements ss).sections := by
    rw [hss]
    exact List.mem_map_of_mem ht
  have hlength := hshort _ _ (header_of_sections hmem)
  rw [show t.plain.path = t.keys.map (·.name) from rfl, List.length_map] at hlength
  exact ⟨hsections t ht, by rw [nestingLimit]; omega, hmem, hstays _ hmem⟩

end Verbatim

end FormatSettings.Toml
