import FormatSettings.Proofs.Toml.Verbatim.Gather
import FormatSettings.Proofs.Toml.Verbatim.Sound

namespace FormatSettings.Toml.Verbatim

theorem replaceFirst_eq {name : String} {front back : List Entry} {x : Entry}
    (hfront : ∀ e ∈ front, e.named name = false) (hx : x.named name = true) (y : Entry) :
    replaceFirst name y (front ++ x :: back) = front ++ y :: back := by
  induction front with
  | nil => simp [replaceFirst, hx]
  | cons e front ih =>
    have hrest := ih fun d hd => hfront d (List.mem_cons_of_mem e hd)
    simp [replaceFirst, hfront e List.mem_cons_self, hrest]

theorem exists_of_lastNamed? {name : String} {entries : List Entry} {x : Entry}
    (h : lastNamed? name entries = some x) :
    x.named name = true ∧ ∃ front back, entries = front ++ x :: back ∧
      (∀ e ∈ back, e.named name = false) ∧
      ∀ y, replaceLast name y entries = front ++ y :: back := by
  rw [lastNamed?, List.find?_eq_some_iff_append] at h
  obtain ⟨hx, front, back, hall, hfront⟩ := h
  have hentries : entries = back.reverse ++ x :: front.reverse := by
    rw [← List.reverse_reverse entries, hall]
    simp
  have hnone : ∀ e ∈ front, e.named name = false := fun e he => by simpa using hfront e he
  refine ⟨hx, back.reverse, front.reverse, hentries, fun e he => hnone e (List.mem_reverse.mp he), ?_⟩
  intro y
  rw [replaceLast, hall, replaceFirst_eq hnone hx]
  simp

theorem named_of_lastNamed? {name : String} {entries : List Entry} {x : Entry}
    (h : lastNamed? name entries = some x) : x.named name = true ∧ x ∈ entries :=
  ⟨List.find?_some h, List.mem_reverse.mp (List.mem_of_find?_eq_some h)⟩

theorem lastNamed?_mid {name : String} {back : List Entry} {x : Entry} (hx : x.named name = true)
    (hback : ∀ e ∈ back, e.named name = false) (front : List Entry) :
    lastNamed? name (front ++ x :: back) = some x := by
  rw [lastNamed?, List.find?_eq_some_iff_append]
  exact ⟨hx, back.reverse, front.reverse, by simp, fun e he => by simp [hback e (List.mem_reverse.mp he)]⟩

theorem blanks_spaces (margin : Margin) : Blanks margin.spaces := by
  intro c hc
  have hspace := List.mem_takeWhile_imp (p := (· == ' ')) hc
  rw [beq_iff_eq.mp hspace]
  rfl

/-- Entries to which tables have been added that write further sections. -/
structure Grows (es : List Entry) (more : List Toml.Section) (grown : List Entry) : Prop where
  sound : ∀ e ∈ grown, e.IsSound
  first : LinesFirst grown
  pairs : pairsOf grown = pairsOf es
  headers : grown.any Entry.needsHeader = es.any Entry.needsHeader
  sections : Rearranged (sectionsOf es ++ more) (sectionsOf grown)

theorem diverge_of_named {e : Entry} {name : String} {s : Toml.Section} (he : e.named name = false)
    (hs : s ∈ e.sections) (path : List String) : Diverge s.path (name :: path) := by
  obtain ⟨key, tail, hkey, hpath⟩ := exists_cons_of_sections hs
  rw [Entry.named, hkey, Option.any_some, beq_eq_false_iff_ne] at he
  rw [hpath]
  exact .inl he

namespace Grows

variable {es grown front back : List Entry} {more : List Toml.Section} {e x y : Entry} {name : String}

theorem concat (hes : ∀ d ∈ es, d.IsSound) (hfirst : LinesFirst es) (he : e.IsSound)
    (hpairs : e.pairs = []) (hheader : e.needsHeader = false) : Grows es e.sections (es ++ [e]) where
  sound := List.forall_mem_append.mpr ⟨hes, List.forall_mem_singleton.mpr he⟩
  first := hfirst.concat hpairs
  pairs := by simp [pairsOf_eq, hpairs]
  headers := by simp [hheader]
  sections := by
    rw [sectionsOf_append, sectionsOf, sectionsOf, List.append_nil]
    exact .refl _

theorem trans {es' : List Entry} {added : List Toml.Section} (h : Grows es more grown)
    (hmore : Grows grown added es') : Grows es (more ++ added) es' where
  sound := hmore.sound
  first := hmore.first
  pairs := hmore.pairs.trans h.pairs
  headers := hmore.headers.trans h.headers
  sections := by
    rw [← List.append_assoc]
    exact (h.sections.append_right added).trans hmore.sections

theorem replace (hes : ∀ d ∈ front ++ x :: back, d.IsSound) (hfirst : LinesFirst (front ++ x :: back))
    (hx : x.sections ≠ []) (hy : y.IsSound) (hpairs : y.pairs = x.pairs)
    (hheader : y.needsHeader = x.needsHeader) (hback : ∀ e ∈ back, e.named name = false)
    (hmore : ∀ s ∈ more, ∃ path, s.path = name :: path)
    (hsections : Rearranged (x.sections ++ more) y.sections) :
    Grows (front ++ x :: back) more (front ++ y :: back) where
  sound := by
    rw [List.forall_mem_append, List.forall_mem_cons] at hes ⊢
    exact ⟨hes.1, hy, hes.2.2⟩
  first := hfirst.replace hpairs hx
  pairs := by simp [pairsOf_eq, hpairs]
  headers := by simp [hheader]
  sections := by
    rw [sectionsOf_append, sectionsOf_append, sectionsOf, sectionsOf]
    -- The entries behind have other names, so the new sections may stand before theirs.
    have hcomm : Rearranged (sectionsOf back ++ more) (more ++ sectionsOf back) := by
      refine .comm fun t ht s hs => ?_
      rw [sectionsOf_eq, List.mem_flatMap] at ht
      obtain ⟨next, hnext, ht⟩ := ht
      obtain ⟨path, hpath⟩ := hmore s hs
      rw [hpath]
      exact diverge_of_named (hback next hnext) ht path
    have hall := (hcomm.append_left x.sections).trans
      (by rw [← List.append_assoc]; exact hsections.append_right (sectionsOf back))
    rw [← List.append_assoc] at hall
    have hfront := hall.append_left (sectionsOf front)
    rwa [← List.append_assoc] at hfront

end Grows

def Entry.IsTable (e : Entry) : Prop :=
  ∃ key head inner, e = .table key head inner

/-- Only tables are named again further on. -/
def Spread (entries : List Entry) : Prop :=
  entries.Pairwise fun e next => ∀ name, e.named name = true → next.named name = true → e.IsTable

theorem Spread.concat {es : List Entry} {e : Entry} (h : Spread es)
    (he : ∀ name x, e.named name = true → lastNamed? name es = some x → x.IsTable) :
    Spread (es ++ [e]) := by
  refine List.pairwise_append.mpr ⟨h, List.pairwise_singleton _ _, ?_⟩
  intro first hfirst next hnext name hnamed hlast
  rw [List.mem_singleton.mp hnext] at hlast
  obtain ⟨x, hx⟩ : ∃ x, lastNamed? name es = some x := by
    rw [← Option.isSome_iff_exists, lastNamed?, List.find?_isSome]
    exact ⟨first, List.mem_reverse.mpr hfirst, hnamed⟩
  have htable := he name x hlast hx
  obtain ⟨hxNamed, front, back, rfl, hback, -⟩ := exists_of_lastNamed? hx
  rcases List.mem_append.mp hfirst with hfront | hbehind
  · exact (List.pairwise_append.mp h).2.2 first hfront x List.mem_cons_self name hnamed hxNamed
  · rcases List.mem_cons.mp hbehind with rfl | hbehind
    · exact htable
    · rw [hback first hbehind] at hnamed
      cases hnamed

theorem Spread.replace {front back : List Entry} {x y : Entry} (h : Spread (front ++ x :: back))
    (hnamed : ∀ name, y.named name = true → x.named name = true) (htable : x.IsTable → y.IsTable) :
    Spread (front ++ y :: back) := by
  simp only [Spread, List.pairwise_append, List.pairwise_cons, List.mem_cons] at h ⊢
  refine ⟨h.1, ⟨fun next hnext name hy hname => ?_, h.2.1.2⟩, ?_⟩
  · exact htable (h.2.1.1 next hnext name (hnamed name hy) hname)
  · rintro first hfirst next (rfl | hnext) name hname hnext'
    · exact h.2.2 first hfirst x (.inl rfl) name hname (hnamed name hnext')
    · exact h.2.2 first hfirst next (.inr hnext) name hname hnext'

theorem add_table {fuel : Nat} {isChecked : Bool} {entries inner grown : List Entry} {key : Key}
    {head : Head} (hitem : head.isItem = false)
    (h : add (fuel + 1) isChecked entries (.table key head inner) = .ok grown) :
    (grown = entries ++ [.table key head inner] ∧
        ∀ x, lastNamed? key.name entries = some x → x.IsTable) ∨
      ∃ last lastHead lastInner more, lastNamed? key.name entries = some (.table last lastHead lastInner) ∧
        head.isPassed = true ∧ key.isDotted = false ∧ last.isDotted = false ∧
        inner.foldlM (addWithin fuel lastHead.margin.spaces) lastInner = .ok more ∧
        grown = replaceLast key.name (.table last lastHead more) entries := by
  rw [add.eq_def] at h
  dsimp only [Entry.key?, Option.bind] at h
  split at h
  · next hnone =>
    cases h
    rw [hnone]
    exact .inl ⟨rfl, fun x hx => by cases hx⟩
  · next last lastHead lastInner heq hlast =>
    cases heq
    have htable : ∀ x, lastNamed? key.name entries = some x → x.IsTable := by
      intro x hx
      rw [hlast, Option.some.injEq] at hx
      exact ⟨last, lastHead, lastInner, hx.symm⟩
    rw [hitem, if_neg Bool.false_ne_true] at h
    split at h
    · next hpassed =>
      rw [Bool.and_eq_true] at hpassed
      split at h
      · split at h
        · obtain ⟨_, _, h⟩ := Except.bind_eq_ok.mp h
          cases h
          exact .inl ⟨rfl, htable⟩
        · cases h
          exact .inl ⟨rfl, htable⟩
      · next hplain =>
        simp only [Bool.or_eq_true, bne_iff_ne, ne_eq, not_or, Bool.not_eq_true, not_not] at hplain
        obtain ⟨more, hmore, h⟩ := Except.bind_eq_ok.mp h
        cases h
        exact .inr ⟨_, _, _, more, hlast, hpassed.1, hplain.1.1, hplain.1.2, hmore, rfl⟩
    · split at h
      · cases h
      · split at h
        · cases h
          exact .inl ⟨rfl, htable⟩
        · cases h
  · next heq _ =>
    cases heq
    rw [hitem, if_neg Bool.false_ne_true] at h
    cases h
  · next heq _ => cases heq
  · cases h

theorem add_tables {fuel : Nat} {isChecked : Bool} {entries grown : List Entry} {key : Key}
    {margin : Margin} {items : List (Head × List Entry)}
    (h : add (fuel + 1) isChecked entries (.tables key margin items) = .ok grown) :
    (grown = entries ++ [.tables key margin items] ∧ lastNamed? key.name entries = none) ∨
      ∃ last lastMargin lastItems, lastNamed? key.name entries = some (.tables last lastMargin lastItems) ∧
        grown = replaceLast key.name (.tables last lastMargin (lastItems ++ items)) entries := by
  rw [add.eq_def] at h
  dsimp only [Entry.key?, Option.bind] at h
  split at h
  · next hnone =>
    cases h
    exact .inl ⟨rfl, hnone⟩
  · next heq _ => cases heq
  · next heq _ => cases heq
  · next last lastMargin lastItems heq hlast =>
    cases heq
    cases h
    exact .inr ⟨last, lastMargin, lastItems, hlast, rfl⟩
  · cases h

theorem add_plain {fuel : Nat} {isChecked : Bool} {entries grown : List Entry} {e : Entry}
    (hplain : e.holdsTables = false) (h : add (fuel + 1) isChecked entries e = .ok grown) :
    grown = entries ++ [e] ∧ ∀ key, e.key? = some key → lastNamed? key.name entries = none := by
  rw [add.eq_def] at h
  dsimp only at h
  split at h
  · next hnone =>
    cases h
    refine ⟨rfl, fun key hkey => ?_⟩
    rwa [hkey] at hnone
  · cases hplain
  · cases hplain
  · cases hplain
  · cases h

/-- Tables without headers of their own that lead to a table that has one. -/
inductive Leads : Nat → Entry → Prop
  | headed {fuel : Nat} {key : Key} {head : Head} {entries : List Entry}
      (hplain : key.isDotted = false) (h : head.isPassed = false) :
      Leads (fuel + 1) (.table key head entries)
  | items {fuel : Nat} {key : Key} {margin : Margin} {items : List (Head × List Entry)}
      (hplain : key.isDotted = false) : Leads (fuel + 1) (.tables key margin items)
  | passed {fuel : Nat} {key : Key} {head : Head} {e : Entry} (hplain : key.isDotted = false)
      (h : head.isPassed = true) (he : Leads fuel e) : Leads (fuel + 2) (.table key head [e])

theorem Leads.plain {fuel : Nat} {e : Entry} (h : Leads fuel e) :
    e.pairs = [] ∧ e.needsHeader = false ∧ ∃ key, e.key? = some key := by
  have htable {key : Key} (hplain : key.isDotted = false) (head : Head) (entries : List Entry) :
      (Entry.table key head entries).pairs = [] ∧
        (Entry.table key head entries).needsHeader = false := by
    simp [Entry.pairs, Entry.needsHeader, Entry.key?, Entry.holdsTables, hplain]
  cases h with
  | headed hplain => exact ⟨(htable hplain _ _).1, (htable hplain _ _).2, _, rfl⟩
  | items hplain =>
    refine ⟨rfl, ?_, _, rfl⟩
    simp [Entry.needsHeader, Entry.key?, Entry.holdsTables, hplain]
  | passed hplain => exact ⟨(htable hplain _ _).1, (htable hplain _ _).2, _, rfl⟩

theorem add_within {fuel : Nat} {spaces : List Char} {entries grown : List Entry} {e : Entry}
    (h : addWithin (fuel + 1) spaces entries e = .ok grown) :
    ∃ added, add fuel true entries e = .ok added ∧ (grown = added ∨ ∃ key last, e.key? = some key ∧
      lastNamed? key.name added = some last ∧
      grown = replaceLast key.name (last.shift spaces) added) := by
  rw [addWithin] at h
  obtain ⟨added, hadd, h⟩ := Except.bind_eq_ok.mp h
  refine ⟨added, hadd, ?_⟩
  split at h
  · cases h
    exact .inl rfl
  · next key hkey =>
    obtain ⟨_, _, h⟩ := Except.bind_eq_ok.mp h
    split at h
    · cases h
      exact .inl rfl
    · split at h
      · cases h
      · split at h
        · next last hlast =>
          cases h
          exact .inr ⟨key, last, hkey, hlast, rfl⟩
        · cases h
          exact .inl rfl

theorem sections_of_grows {key : Key} (head : Head) {inner grown : List Entry}
    {more : List Toml.Section} (hplain : key.isDotted = false) (h : Grows inner more grown) :
    Rearranged ((Entry.table key head inner).sections ++ more.map (Section.below [key.name]))
      (Entry.table key head grown).sections := by
  have hbelow := h.sections.map_below [key.name]
  rw [List.map_append] at hbelow
  simp only [Entry.sections, hplain, h.headers, h.pairs]
  cases head.isPassed && !inner.any Entry.needsHeader with
  | true => exact hbelow
  | false => exact .cons _ hbelow

theorem IsLead.shift {margin : Margin} {spaces : List Char} (h : IsLead margin.indent)
    (hspaces : Blanks spaces) : IsLead (margin.shift spaces).indent := by
  have hblanks {indent : List Char} (hindent : Blanks indent) :
      Blanks (indent.takeWhile (· != ' ') ++ spaces ++ indent.dropWhile (· != ' ')) := by
    have hall := List.takeWhile_append_dropWhile (p := (· != ' ')) (l := indent)
    intro c hc
    rw [List.mem_append, List.mem_append] at hc
    rcases hc with (hc | hc) | hc
    · exact hindent c (hall ▸ List.mem_append_left _ hc)
    · exact hspaces c hc
    · exact hindent c (hall ▸ List.mem_append_right _ hc)
  rcases h with hindent | ⟨blanks, hindent, hbreak⟩
  · exact .inl (hblanks hindent)
  · refine .inr ⟨_, hblanks hindent, ?_⟩
    rw [Margin.shift, hbreak]
    rfl

theorem pairs_shift (spaces : List Char) (e : Entry) : (e.shift spaces).pairs = e.pairs := by
  cases e <;> rfl

theorem sections_shift (spaces : List Char) (e : Entry) : (e.shift spaces).sections = e.sections := by
  cases e <;> rfl

theorem needsHeader_shift (spaces : List Char) (e : Entry) :
    (e.shift spaces).needsHeader = e.needsHeader := by
  cases e <;> rfl

theorem named_shift (spaces : List Char) (e : Entry) (name : String) :
    (e.shift spaces).named name = e.named name := by
  cases e <;> rfl

theorem Entry.IsSound.shift {e : Entry} {spaces : List Char} (h : e.IsSound) (hne : e.sections ≠ [])
    (hspaces : Blanks spaces) : (e.shift spaces).IsSound := by
  have hsections := sections_shift spaces e
  cases h with
  | line h => exact absurd h.sections hne
  | table hkey hplain hmargin hhead hfirst _ hentries =>
    rw [← hsections] at hne
    exact .table hkey hplain ⟨hmargin.lead.shift hspaces, hmargin.closes, hmargin.broken⟩ hhead hfirst hne
      hentries
  | tables hkey hplain hitems hinner hentries => exact .tables hkey hplain hitems hinner hentries

theorem itemsSections_ne_nil {items : List (Head × List Entry)} (h : items ≠ []) (name : String) :
    itemsSections name items ≠ [] := by
  obtain ⟨⟨head, entries⟩, rest, rfl⟩ := List.exists_cons_of_ne_nil h
  exact List.cons_ne_nil _ _

theorem Leads.sections_ne_nil {fuel : Nat} {e : Entry} (h : Leads fuel e) (he : e.IsSound) :
    e.sections ≠ [] := by
  cases h with
  | headed hplain => exact (he.of_table hplain).2.2.2.2.1
  | items => exact itemsSections_ne_nil he.of_tables.2.2.1 _
  | passed hplain => exact (he.of_table hplain).2.2.2.2.1

theorem grows_concat {fuel : Nat} {es : List Entry} {e : Entry} (hleads : Leads fuel e)
    (hes : ∀ d ∈ es, d.IsSound) (hfirst : LinesFirst es) (he : e.IsSound) :
    Grows es e.sections (es ++ [e]) ∧
      ∀ key x, e.key? = some key → lastNamed? key.name (es ++ [e]) = some x → x.sections ≠ [] := by
  obtain ⟨hpairs, hheader, -⟩ := hleads.plain
  refine ⟨.concat hes hfirst he hpairs hheader, fun key x hkey hx => ?_⟩
  rw [lastNamed?_mid (named_key hkey) (List.forall_mem_nil _), Option.some.injEq] at hx
  rw [← hx]
  exact hleads.sections_ne_nil he

theorem grows_replace {es : List Entry} {more : List Toml.Section} {x y : Entry} {name : String}
    (hes : ∀ d ∈ es, d.IsSound) (hfirst : LinesFirst es) (hlast : lastNamed? name es = some x)
    (hx : x.sections ≠ []) (hy : y.IsSound) (hysections : y.sections ≠ []) (hpairs : y.pairs = x.pairs)
    (hheader : y.needsHeader = x.needsHeader) (hnamed : y.named name = true)
    (hmore : ∀ s ∈ more, ∃ path, s.path = name :: path)
    (hsections : Rearranged (x.sections ++ more) y.sections) :
    Grows es more (replaceLast name y es) ∧
      ∀ z, lastNamed? name (replaceLast name y es) = some z → z.sections ≠ [] := by
  obtain ⟨-, front, back, rfl, hback, hreplace⟩ := exists_of_lastNamed? hlast
  rw [hreplace]
  refine ⟨.replace hes hfirst hx hy hpairs hheader hback hmore hsections, fun z hz => ?_⟩
  rw [lastNamed?_mid hnamed hback, Option.some.injEq] at hz
  rwa [← hz]

theorem grows_within {es added grown : List Entry} {e : Entry} {spaces : List Char}
    (h : Grows es e.sections added)
    (hlast : ∀ key x, e.key? = some key → lastNamed? key.name added = some x → x.sections ≠ [])
    (hgrown : grown = added ∨ ∃ key last, e.key? = some key ∧ lastNamed? key.name added = some last ∧
      grown = replaceLast key.name (last.shift spaces) added) (hspaces : Blanks spaces) :
    Grows es e.sections grown := by
  rcases hgrown with rfl | ⟨key, last, hkey, hnamed, rfl⟩
  · exact h
  · have hne := hlast key last hkey hnamed
    obtain ⟨hname, hmem⟩ := named_of_lastNamed? hnamed
    have hsound := h.sound _ hmem
    have hsame := sections_shift spaces last
    have hmoved : Rearranged (last.sections ++ []) (last.shift spaces).sections := by
      rw [hsame, List.append_nil]
      exact .refl _
    have hshift := (grows_replace h.sound h.first hnamed hne (hsound.shift hne hspaces) (hsame ▸ hne)
      (pairs_shift spaces last) (needsHeader_shift spaces last)
      ((named_shift spaces last key.name).trans hname) (List.forall_mem_nil _) hmoved).1
    have hgrows := h.trans hshift
    rwa [List.append_nil] at hgrows

/-- Further items of an array of tables go behind those that it has. -/
theorem grows_tables {es : List Entry} {key last : Key} {margin lastMargin : Margin}
    {items lastItems : List (Head × List Entry)} (hes : ∀ d ∈ es, d.IsSound) (hfirst : LinesFirst es)
    (he : (Entry.tables key margin items).IsSound)
    (hlast : lastNamed? key.name es = some (.tables last lastMargin lastItems)) :
    Grows es (Entry.tables key margin items).sections
        (replaceLast key.name (.tables last lastMargin (lastItems ++ items)) es) ∧
      ∀ x, lastNamed? key.name (replaceLast key.name (.tables last lastMargin (lastItems ++ items)) es) =
        some x → x.sections ≠ [] := by
  obtain ⟨hnamed, hmem⟩ := named_of_lastNamed? hlast
  have hname : last.name = key.name := by simpa [Entry.named, Entry.key?] using hnamed
  obtain ⟨hspells, hlastPlain, hne, hheads, hinner⟩ := (hes _ hmem).of_tables
  obtain ⟨-, -, -, hmoreHeads, hmoreInner⟩ := he.of_tables
  have hgrown : (Entry.tables last lastMargin (lastItems ++ items)).IsSound :=
    .tables hspells hlastPlain (by simp [hne]) (List.forall_mem_append.mpr ⟨hheads, hmoreHeads⟩)
      (List.forall_mem_append.mpr ⟨hinner, hmoreInner⟩)
  have hsections : (Entry.tables last lastMargin (lastItems ++ items)).sections =
      (Entry.tables last lastMargin lastItems).sections ++ (Entry.tables key margin items).sections := by
    rw [Entry.sections, itemsSections_append, Entry.sections, Entry.sections, hname]
  have hall : Rearranged ((Entry.tables last lastMargin lastItems).sections ++
      (Entry.tables key margin items).sections)
      (Entry.tables last lastMargin (lastItems ++ items)).sections := by
    rw [hsections]
    exact .refl _
  exact grows_replace hes hfirst hlast (itemsSections_ne_nil hne _) hgrown
    (itemsSections_ne_nil (by simp [hne]) _) rfl rfl hnamed (fun _ hs => path_of_sections rfl hs) hall

/-- What a passed table holds goes into the table of its name. -/
theorem grows_table {es lastInner more : List Entry} {e : Entry} {key last : Key} {head lastHead : Head}
    (hes : ∀ d ∈ es, d.IsSound) (hfirst : LinesFirst es)
    (hlast : lastNamed? key.name es = some (.table last lastHead lastInner))
    (hlastPlain : last.isDotted = false) (hgrows : Grows lastInner e.sections more)
    (heSections : (Entry.table key head [e]).sections = e.sections.map (Section.below [key.name])) :
    Grows es (Entry.table key head [e]).sections
        (replaceLast key.name (.table last lastHead more) es) ∧
      ∀ x, lastNamed? key.name (replaceLast key.name (.table last lastHead more) es) = some x →
        x.sections ≠ [] := by
  obtain ⟨hnamed, hmem⟩ := named_of_lastNamed? hlast
  have hname : last.name = key.name := by simpa [Entry.named, Entry.key?] using hnamed
  obtain ⟨hspells, hmargin, hlastItem, -, hne, -⟩ := (hes _ hmem).of_table hlastPlain
  have hsections := sections_of_grows lastHead hlastPlain hgrows
  rw [hname, ← heSections] at hsections
  obtain ⟨s, hs⟩ := List.exists_mem_of_ne_nil _ hne
  have hgrownNe := List.ne_nil_of_mem ((hsections.mem_iff s).mp (List.mem_append_left _ hs))
  have hgrown : (Entry.table last lastHead more).IsSound :=
    .table hspells hlastPlain hmargin hlastItem hgrows.first hgrownNe hgrows.sound
  exact grows_replace hes hfirst hlast hne hgrown hgrownNe (by simp [Entry.pairs, hlastPlain]) rfl hnamed
    (fun _ hs => path_of_sections rfl hs) hsections

theorem grows_add {fuel : Nat} {e : Entry} (hleads : Leads fuel e) {isChecked : Bool}
    {es grown : List Entry} (hes : ∀ d ∈ es, d.IsSound) (hfirst : LinesFirst es) (he : e.IsSound)
    (h : add fuel isChecked es e = .ok grown) :
    Grows es e.sections grown ∧
      ∀ key x, e.key? = some key → lastNamed? key.name grown = some x → x.sections ≠ [] := by
  induction hleads generalizing isChecked es grown with
  | @headed fuel key head entries hplain hhead =>
    have hitem := (he.of_table hplain).2.2.1
    rcases add_table hitem h with ⟨rfl, -⟩ | ⟨_, _, _, _, _, hpassed, -⟩
    · have hleads : Leads (fuel + 1) (.table key head entries) := .headed hplain hhead
      exact grows_concat hleads hes hfirst he
    · rw [hhead] at hpassed
      cases hpassed
  | @items fuel key margin items hplain =>
    rcases add_tables h with ⟨rfl, -⟩ | ⟨last, lastMargin, lastItems, hlast, rfl⟩
    · have hleads : Leads (fuel + 1) (.tables key margin items) := .items hplain
      exact grows_concat hleads hes hfirst he
    · obtain ⟨hgrows, hlastOfGrown⟩ := grows_tables hes hfirst he hlast
      refine ⟨hgrows, fun other x hkey hx => ?_⟩
      cases hkey
      exact hlastOfGrown x hx
  | @passed fuel key head e hplain hhead hleads ih =>
    obtain ⟨-, -, hitem, -, -, hinner⟩ := he.of_table hplain
    rcases add_table hitem h with ⟨rfl, -⟩ |
      ⟨last, lastHead, lastInner, more, hlast, -, -, hlastPlain, hmore, rfl⟩
    · have hpassed : Leads (fuel + 2) (.table key head [e]) := .passed hplain hhead hleads
      exact grows_concat hpassed hes hfirst he
    · obtain ⟨-, -, -, hlastFirst, -, hlastInner⟩ := (hes _ (named_of_lastNamed? hlast).2).of_table hlastPlain
      rw [List.foldlM_cons] at hmore
      obtain ⟨_, hwithin, hmore⟩ := Except.bind_eq_ok.mp hmore
      cases hmore
      obtain ⟨added, hadd, hmoved⟩ := add_within hwithin
      have hinside := ih hlastInner hlastFirst (hinner e List.mem_cons_self) hadd
      have hwhole := grows_within hinside.1 hinside.2 hmoved (blanks_spaces _)
      have heSections : (Entry.table key head [e]).sections =
          e.sections.map (Section.below [key.name]) := by
        simp [Entry.sections, hplain, hhead, hleads.plain.2.1, sectionsOf]
      obtain ⟨hgrows, hlastOfGrown⟩ := grows_table hes hfirst hlast hlastPlain hwhole heSections
      refine ⟨hgrows, fun other x hkey hx => ?_⟩
      cases hkey
      exact hlastOfGrown x hx

end FormatSettings.Toml.Verbatim
