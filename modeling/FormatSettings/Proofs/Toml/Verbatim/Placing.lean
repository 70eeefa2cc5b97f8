import FormatSettings.Proofs.Toml.Verbatim.Sound
import FormatSettings.Toml.Verbatim.Moved

/-!
Entries that are moved write what they wrote before, and stay sound.
-/

namespace FormatSettings.Toml.Verbatim

theorem forgetEach_eq (all es : List Entry) : forgetEach all es =
    es.map fun e => if e.key?.any fun key => isScattered key.name all then e else e.forgetPaths := by
  induction es with
  | nil => rfl
  | cons e es ih => rw [forgetEach, ih, List.map_cons]

theorem forgetItems_eq (items : List (Head × List Entry)) : forgetItems items = items.map forgetItem := by
  induction items with
  | nil => rfl
  | cons item items ih => rw [forgetItems, ih, List.map_cons]

theorem needsHeader_forgetPaths (e : Entry) : e.forgetPaths.needsHeader = e.needsHeader := by
  cases e <;> rfl

theorem key?_forgetPaths (e : Entry) : e.forgetPaths.key? = e.key? := by
  cases e <;> rfl

theorem any_needsHeader_forgetEach (all es : List Entry) :
    (forgetEach all es).any Entry.needsHeader = es.any Entry.needsHeader := by
  rw [forgetEach_eq, List.any_map]
  congr 1
  funext e
  rw [Function.comp_apply]
  split
  · rfl
  · exact needsHeader_forgetPaths e

mutual

theorem pairs_forgetPaths (e : Entry) : e.forgetPaths.pairs = e.pairs := by
  match e with
  | .blank _ => rfl
  | .note _ => rfl
  | .value _ _ _ _ => rfl
  | .table key head entries => rw [Entry.forgetPaths, Entry.pairs, Entry.pairs, pairsOf_forgetEach]
  | .tables _ _ _ => rfl

theorem pairsOf_forgetEach (all es : List Entry) : pairsOf (forgetEach all es) = pairsOf es := by
  match es with
  | [] => rfl
  | e :: es =>
    rw [forgetEach, pairsOf, pairsOf, pairsOf_forgetEach all es]
    split
    · rfl
    · rw [pairs_forgetPaths e]

end

mutual

theorem sections_forgetPaths (e : Entry) : e.forgetPaths.sections = e.sections := by
  match e with
  | .blank _ => rfl
  | .note _ => rfl
  | .value _ _ _ _ => rfl
  | .table key head entries =>
    rw [Entry.forgetPaths, Entry.sections, Entry.sections, any_needsHeader_forgetEach,
      pairsOf_forgetEach, sectionsOf_forgetEach entries entries]
  | .tables key margin items =>
    rw [Entry.forgetPaths, Entry.sections, Entry.sections, itemsSections_forgetItems key.name items]

theorem sectionsOf_forgetEach (all es : List Entry) : sectionsOf (forgetEach all es) = sectionsOf es := by
  match es with
  | [] => rfl
  | e :: es =>
    rw [forgetEach, sectionsOf, sectionsOf, sectionsOf_forgetEach all es]
    split
    · rfl
    · rw [sections_forgetPaths e]

theorem itemsSections_forgetItems (name : String) (items : List (Head × List Entry)) :
    itemsSections name (forgetItems items) = itemsSections name items := by
  match items with
  | [] => rfl
  | item :: items =>
    rw [forgetItems, itemsSections, itemsSections, itemsSections_forgetItems name items,
      itemSections_forgetItem name item]

theorem itemSections_forgetItem (name : String) (item : Head × List Entry) :
    itemSections name (forgetItem item) = itemSections name item := by
  match item with
  | (head, entries) =>
    rw [forgetItem, itemSections, itemSections, pairsOf_forgetEach, sectionsOf_forgetEach entries entries]

end

theorem forgetPaths_ofPath {separator text : List Char} {margin : Margin} {form : Form}
    {keys : List Key} {e : Entry} (he : Entry.ofPath (separateLast separator keys)
      (fun key => .value key margin form text) = some e) : e.forgetPaths = e := by
  induction keys generalizing e with
  | nil => cases he
  | cons key keys ih =>
    rcases cases_of_ofPath he with ⟨_, -, rfl⟩ | ⟨_, _, _, inner, hkeys, hinner, rfl⟩
    · rfl
    · cases hkeys
      rw [Entry.forgetPaths, forgetEach, ih hinner, ite_self, forgetEach]
      rfl

theorem IsLine.forgetPaths {e : Entry} (h : IsLine e) : e.forgetPaths = e := by
  cases h with
  | blank => rfl
  | note => rfl
  | pair _ _ _ _ _ _ _ he => exact forgetPaths_ofPath he

theorem LinesFirst.forgetEach {es : List Entry} (h : LinesFirst es) (all : List Entry) :
    LinesFirst (Verbatim.forgetEach all es) := by
  rw [forgetEach_eq, LinesFirst, List.pairwise_map]
  refine h.imp fun {e next} hfirst => ?_
  have hsections : (if e.key?.any fun key => isScattered key.name all then e else e.forgetPaths).sections =
      e.sections := by
    split
    · rfl
    · exact sections_forgetPaths e
  have hpairs : (if next.key?.any fun key => isScattered key.name all then next
      else next.forgetPaths).pairs = next.pairs := by
    split
    · rfl
    · exact pairs_forgetPaths next
  rwa [hsections, hpairs]

theorem forall_forgetEach {p : Entry → Prop} {all es : List Entry} (h : ∀ e ∈ es, p e)
    (hforget : ∀ e ∈ es, p e.forgetPaths) : ∀ e ∈ forgetEach all es, p e := by
  rw [forgetEach_eq]
  intro e he
  obtain ⟨d, hd, rfl⟩ := List.mem_map.mp he
  split
  · exact h d hd
  · exact hforget d hd

theorem Entry.IsSound.forgetPaths {e : Entry} (h : e.IsSound) : e.forgetPaths.IsSound := by
  have hsections := sections_forgetPaths e
  induction h with
  | line h =>
    rw [h.forgetPaths]
    exact .line h
  | table hkey hplain hmargin hhead hfirst hne hentries ih =>
    rw [← hsections] at hne
    rw [Entry.forgetPaths] at hne ⊢
    exact .table hkey hplain hmargin hhead (hfirst.forgetEach _) hne
      (forall_forgetEach hentries fun e he => ih e he (sections_forgetPaths e))
  | @tables key margin items hkey hplain hne hitems hentries ih =>
    rw [Entry.forgetPaths, forgetItems_eq]
    refine .tables hkey hplain (by simpa using hne) (fun item hitem => ?_) (fun item hitem => ?_)
    · obtain ⟨⟨head, entries⟩, hmem, rfl⟩ := List.mem_map.mp hitem
      obtain ⟨hisItem, hheaded, hmargin, hfirst⟩ := hitems _ hmem
      exact ⟨hisItem, hheaded, hmargin, hfirst.forgetEach _⟩
    · obtain ⟨⟨head, entries⟩, hmem, rfl⟩ := List.mem_map.mp hitem
      exact forall_forgetEach (hentries _ hmem) fun e he => ih _ hmem e he (sections_forgetPaths e)

theorem IsLine.breakAfter {key : Key} {margin : Margin} {form : Form} {text : List Char}
    (h : IsLine (.value key margin form text)) :
    IsLine (.value key margin.withBreakAfter form text) ∧
      (Entry.value key margin.withBreakAfter form text).pairs =
        (Entry.value key margin form text).pairs := by
  cases hbreaks : margin.breaksAfter with
  | true =>
    rw [Margin.withBreakAfter, hbreaks]
    exact ⟨h, rfl⟩
  | false =>
    generalize hvalue : Entry.value key margin form text = e at h
    cases h with
    | blank => cases hvalue
    | note => cases hvalue
    | pair hkeys hindent hfront hblanks hfinishes hbroken hflag he =>
      rcases cases_of_ofPath he with ⟨first, rfl, rfl⟩ | ⟨_, _, _, _, _, _, rfl⟩
      · cases hvalue
        have hbroken := hbroken hbreaks
        have hclosed : margin.withBreakAfter = { margin with ending := margin.ending ++ ['\n'] } := by
          rw [Margin.withBreakAfter, hbreaks]
          rfl
        have hclose : unifyBreaks (text ++ margin.withBreakAfter.close) =
            unifyBreaks (text ++ margin.close) ++ ['\n'] := by
          have hall : text ++ margin.withBreakAfter.close = text ++ margin.close ++ ['\n'] := by
            simp [hclosed, Margin.close]
          rw [hall, unifyBreaks_append hfinishes.noReturn]
          rfl
        rw [← hclose] at hbroken
        rw [hclosed] at hbroken ⊢
        have hindented : Blanks { margin with ending := margin.ending ++ ['\n'] }.indent := hindent
        refine ⟨.pair hkeys hindented hfront hblanks hbroken (fun hopen => ?_) hflag rfl, ?_⟩
        · simp [Margin.breaksAfter] at hopen
        · rw [Entry.pairs, Entry.pairs, valueOf_finishes hbroken, valueOf_finishes hfinishes]
      · cases hvalue

/-- The name of an entry, and what it does. -/
def Entry.gist (e : Entry) : Option String × List Op :=
  (e.key?.map (·.name), e.ops)

theorem gist_forgetPaths (e : Entry) : e.forgetPaths.gist = e.gist := by
  rw [Entry.gist, Entry.gist, Entry.ops, Entry.ops, key?_forgetPaths, pairs_forgetPaths,
    sections_forgetPaths]

theorem gist_breakBefore {e : Entry} (h : e.holdsTables = true) : e.breakBefore.gist = e.gist := by
  cases e with
  | table => rfl
  | tables => rfl
  | _ => cases h

theorem gist_partFrom (e before : Entry) : (e.partFrom before).gist = e.gist := by
  unfold Entry.partFrom
  split
  · split <;> rfl
  · split <;> rfl
  · rfl

theorem KeptHeader.withBreakBefore {margin : Margin} (h : KeptHeader margin) :
    KeptHeader margin.withBreakBefore := by
  unfold Margin.withBreakBefore
  split
  · exact h
  · next hbreak =>
    refine ⟨.inr ⟨margin.indent, ?_, rfl⟩, h.closes, h.broken⟩
    rcases h.lead with hblanks | ⟨blanks, -, heq⟩
    · exact hblanks
    · rw [Margin.breaksBefore, heq] at hbreak
      exact absurd (by simp) hbreak

/-- An entry under a key of its own. -/
structure Entry.IsPart (e : Entry) : Prop where
  sound : e.IsSound
  plain : e.key?.any (·.isDotted) = false

namespace Entry.IsPart

theorem breakAfter {e : Entry} (h : e.IsPart) (hvalue : e.holdsTables = false) :
    e.breakAfter.IsPart ∧ e.breakAfter.holdsTables = false ∧ e.breakAfter.gist = e.gist := by
  cases e with
  | value key margin form text =>
    cases h.sound with
    | line hline =>
      obtain ⟨hbroken, hpairs⟩ := hline.breakAfter
      refine ⟨⟨.line hbroken, h.plain⟩, rfl, ?_⟩
      rw [Entry.gist, Entry.gist, Entry.breakAfter, Entry.ops, Entry.ops, hpairs]
      rfl
  | blank => exact ⟨h, rfl, rfl⟩
  | note => exact ⟨h, rfl, rfl⟩
  | table => cases hvalue
  | tables => cases hvalue

theorem of_table {key : Key} {head : Head} {entries : List Entry} (h : (Entry.table key head entries).IsPart)
    {margin : Margin} (hmargin : KeptHeader head.margin → KeptHeader margin) :
    (Entry.table key { head with margin := margin } entries).IsPart := by
  have hplain : key.isDotted = false := by simpa [Entry.key?] using h.plain
  obtain ⟨hkey, hkept, hhead, hfirst, hne, hentries⟩ := h.sound.of_table hplain
  exact ⟨.table hkey hplain (hmargin hkept) hhead hfirst hne hentries, h.plain⟩

theorem breakBefore {e : Entry} (h : e.IsPart) (htables : e.holdsTables = true) :
    e.breakBefore.IsPart ∧ e.breakBefore.holdsTables = true := by
  cases e with
  | table key head entries => exact ⟨h.of_table KeptHeader.withBreakBefore, rfl⟩
  | tables key margin items =>
    obtain ⟨hkey, hplain, hne, hitems, hentries⟩ := h.sound.of_tables
    exact ⟨⟨.tables hkey hplain hne hitems hentries, h.plain⟩, rfl⟩
  | _ => cases htables

theorem forgetPaths {e : Entry} (h : e.IsPart) : e.forgetPaths.IsPart where
  sound := h.sound.forgetPaths
  plain := by
    rw [key?_forgetPaths]
    exact h.plain

theorem partFrom {e : Entry} (h : e.IsPart) (before : Entry) : (e.partFrom before).IsPart := by
  unfold Entry.partFrom
  split
  · split
    · exact h.of_table fun hmargin => ⟨.inr ⟨[], .nil, rfl⟩, hmargin.closes, hmargin.broken⟩
    · exact h
  · next key margin head entries items =>
    split
    · exact h
    · obtain ⟨hkey, hplain, -, hitems, hentries⟩ := h.sound.of_tables
      rw [List.forall_mem_cons] at hitems hentries
      obtain ⟨⟨hisItem, hheaded, hmargin, hfirst⟩, hmore⟩ := hitems
      refine ⟨.tables hkey hplain (List.cons_ne_nil _ _) (List.forall_mem_cons.mpr ⟨?_, hmore⟩)
        (List.forall_mem_cons.mpr hentries), h.plain⟩
      exact ⟨hisItem, hheaded, hmargin.withBreakBefore, hfirst⟩
  · exact h

end Entry.IsPart

theorem holdsTables_forgetPaths (e : Entry) : e.forgetPaths.holdsTables = e.holdsTables := by
  cases e <;> rfl

theorem holdsTables_partFrom (e before : Entry) : (e.partFrom before).holdsTables = e.holdsTables := by
  unfold Entry.partFrom
  split
  · split <;> rfl
  · split <;> rfl
  · rfl

/-- Entries that stand below a header, with values before tables. -/
def IsPlaced (entries : List Entry) : Prop :=
  ∃ values tables, entries = values ++ tables ∧
    (∀ e ∈ values, e.IsPart ∧ e.holdsTables = false) ∧ ∀ e ∈ tables, e.IsPart ∧ e.holdsTables = true

theorem placeValue_append {values tables : List Entry} (hvalues : ∀ e ∈ values, e.holdsTables = false)
    (htables : ∀ e ∈ tables, e.holdsTables = true) (e : Entry) :
    placeValue (values ++ tables) e = values.dropLast ++ values.getLast?.toList.map Entry.breakAfter ++
      e :: (tables.head?.toList.map Entry.breakBefore ++ tables.tail) := by
  have hpass : ∀ d ∈ values, (!d.holdsTables) = true := fun d hd => by
    rw [hvalues d hd]
    rfl
  have htake : tables.takeWhile (!·.holdsTables) = [] := by
    cases tables with
    | nil => rfl
    | cons next after => simp [htables next List.mem_cons_self]
  have hdrop : tables.dropWhile (!·.holdsTables) = tables := by
    cases tables with
    | nil => rfl
    | cons next after => simp [htables next List.mem_cons_self]
  rw [placeValue, List.takeWhile_append_of_pos hpass, List.dropWhile_append_of_pos hpass, htake, hdrop,
    List.append_nil]
  rcases List.eq_nil_or_concat values with rfl | ⟨front, last, rfl⟩
  · cases tables <;> rfl
  · cases tables <;> simp

theorem placeValue_parts {values tables : List Entry}
    (hvalues : ∀ e ∈ values, e.IsPart ∧ e.holdsTables = false)
    (htables : ∀ e ∈ tables, e.IsPart ∧ e.holdsTables = true) (e : Entry) :
    ∃ vs ts, placeValue (values ++ tables) e = vs ++ e :: ts ∧
      (∀ d ∈ vs, d.IsPart ∧ d.holdsTables = false) ∧ (∀ d ∈ ts, d.IsPart ∧ d.holdsTables = true) ∧
      vs.map Entry.gist = values.map Entry.gist ∧ ts.map Entry.gist = tables.map Entry.gist := by
  have hplaced := placeValue_append (fun d hd => (hvalues d hd).2) (fun d hd => (htables d hd).2) e
  -- The value before it and the table behind it get the breaks that part them from it.
  generalize hvs : values.dropLast ++ values.getLast?.toList.map Entry.breakAfter = vs at hplaced
  generalize hts : tables.head?.toList.map Entry.breakBefore ++ tables.tail = ts at hplaced
  have hvalue : (∀ d ∈ vs, d.IsPart ∧ d.holdsTables = false) ∧
      vs.map Entry.gist = values.map Entry.gist := by
    subst hvs
    rcases List.eq_nil_or_concat values with rfl | ⟨front, last, rfl⟩
    · exact ⟨hvalues, rfl⟩
    · rw [List.concat_eq_append, List.forall_mem_append, List.forall_mem_singleton] at hvalues
      obtain ⟨hpart, hholds, hgist⟩ := hvalues.2.1.breakAfter hvalues.2.2
      have heq : (front.concat last).dropLast ++ (front.concat last).getLast?.toList.map Entry.breakAfter =
          front ++ [last.breakAfter] := by simp
      rw [heq, List.concat_eq_append]
      exact ⟨List.forall_mem_append.mpr ⟨hvalues.1, List.forall_mem_singleton.mpr ⟨hpart, hholds⟩⟩,
        by simp [hgist]⟩
  have htable : (∀ d ∈ ts, d.IsPart ∧ d.holdsTables = true) ∧
      ts.map Entry.gist = tables.map Entry.gist := by
    subst hts
    cases tables with
    | nil => exact ⟨htables, rfl⟩
    | cons next after =>
      rw [List.forall_mem_cons] at htables
      obtain ⟨hpart, hholds⟩ := htables.1.1.breakBefore htables.1.2
      refine ⟨List.forall_mem_cons.mpr ⟨⟨hpart, hholds⟩, htables.2⟩, ?_⟩
      exact congrArg (· :: after.map Entry.gist) (gist_breakBefore htables.1.2)
  exact ⟨vs, ts, hplaced, hvalue.1, htable.1, hvalue.2, htable.2⟩

theorem place_last {done : List Entry} {e : Entry} (he : e.IsPart)
    (h : e.holdsTables = true ∨ done = []) : ∃ last, place done e = done ++ [last] ∧ last.IsPart ∧
      last.holdsTables = e.holdsTables ∧ last.gist = e.gist := by
  cases hlast : done.getLast? with
  | none =>
    rw [List.getLast?_eq_none_iff.mp hlast]
    cases e with
    | table => exact ⟨_, rfl, he.forgetPaths, rfl, gist_forgetPaths _⟩
    | _ => exact ⟨_, rfl, he, rfl, rfl⟩
  | some last =>
    have hholds : e.holdsTables = true := by
      refine h.resolve_right ?_
      rintro rfl
      cases hlast
    have hplace : place done e = done ++ [e.forgetPaths.partFrom last] := by
      rw [place.eq_def, hlast]
      cases e with
      | table => rfl
      | tables => rfl
      | _ => cases hholds
    exact ⟨_, hplace, he.forgetPaths.partFrom last, (holdsTables_partFrom _ _).trans
      (holdsTables_forgetPaths e), (gist_partFrom _ _).trans (gist_forgetPaths e)⟩

theorem isPlaced_place {done : List Entry} {e : Entry} (hdone : IsPlaced done) (he : e.IsPart) :
    IsPlaced (place done e) ∧ ((place done e).map Entry.gist).Perm ((done ++ [e]).map Entry.gist) := by
  obtain ⟨values, tables, rfl, hvalues, htables⟩ := hdone
  by_cases hlast : e.holdsTables = true ∨ values ++ tables = []
  · obtain ⟨last, heq, hpart, hholds, hgist⟩ := place_last he hlast
    rw [heq]
    refine ⟨?_, by simp [hgist]⟩
    cases hkind : e.holdsTables with
    | true =>
      rw [hkind] at hholds
      refine ⟨values, tables ++ [last], List.append_assoc _ _ _, hvalues, ?_⟩
      exact List.forall_mem_append.mpr ⟨htables, List.forall_mem_singleton.mpr ⟨hpart, hholds⟩⟩
    | false =>
      rw [hkind] at hlast hholds
      obtain hnil := hlast.resolve_left Bool.false_ne_true
      rw [hnil]
      exact ⟨[last], [], rfl, List.forall_mem_singleton.mpr ⟨hpart, hholds⟩, List.forall_mem_nil _⟩
  · rw [not_or, Bool.not_eq_true] at hlast
    obtain ⟨hvalue, hne⟩ := hlast
    have hplace : place (values ++ tables) e = placeValue (values ++ tables) e := by
      cases hlast : (values ++ tables).getLast? with
      | none => exact absurd (List.getLast?_eq_none_iff.mp hlast) hne
      | some last =>
        rw [place.eq_def, hlast]
        cases e with
        | table => cases hvalue
        | tables => cases hvalue
        | _ => rfl
    obtain ⟨vs, ts, heq, hvs, hts, hvsGist, htsGist⟩ := placeValue_parts hvalues htables e
    rw [hplace, heq]
    refine ⟨⟨vs ++ [e], ts, by simp, ?_, hts⟩, ?_⟩
    · exact List.forall_mem_append.mpr ⟨hvs, List.forall_mem_singleton.mpr ⟨he, hvalue⟩⟩
    · simp only [List.map_append, List.map_cons, List.map_nil, hvsGist, htsGist, List.append_assoc]
      exact (List.perm_append_singleton _ _).symm.append_left _

theorem isPlaced_foldl {parts done : List Entry} (hdone : IsPlaced done)
    (hparts : ∀ e ∈ parts, e.IsPart) : IsPlaced (parts.foldl place done) ∧
      ((parts.foldl place done).map Entry.gist).Perm ((done ++ parts).map Entry.gist) := by
  induction parts generalizing done with
  | nil => exact ⟨hdone, by rw [List.append_nil, List.foldl_nil]⟩
  | cons e parts ih =>
    rw [List.forall_mem_cons] at hparts
    obtain ⟨hplaced, hperm⟩ := isPlaced_place hdone hparts.1
    obtain ⟨hall, hmore⟩ := ih hplaced hparts.2
    refine ⟨hall, hmore.trans ?_⟩
    rw [← List.singleton_append, ← List.append_assoc, List.map_append, List.map_append]
    exact hperm.append_right _

theorem Entry.IsPart.sections_of_value {e : Entry} (h : e.holdsTables = false) : e.sections = [] := by
  cases e with
  | table => cases h
  | tables => cases h
  | _ => rfl

theorem Entry.IsPart.pairs_of_table {e : Entry} (he : e.IsPart) (h : e.holdsTables = true) :
    e.pairs = [] ∧ e.needsHeader = false := by
  have hplain := he.plain
  cases e with
  | table key head entries =>
    have hkey : key.isDotted = false := by simpa [Entry.key?] using hplain
    simp [Entry.pairs, Entry.needsHeader, Entry.key?, Entry.holdsTables, hkey]
  | tables key margin items =>
    have hkey : key.isDotted = false := by simpa [Entry.key?] using hplain
    simp [Entry.pairs, Entry.needsHeader, Entry.key?, Entry.holdsTables, hkey]
  | _ => cases h

namespace IsPlaced

variable {entries : List Entry}

theorem sound (h : IsPlaced entries) : ∀ e ∈ entries, e.IsSound := by
  obtain ⟨values, tables, rfl, hvalues, htables⟩ := h
  exact List.forall_mem_append.mpr
    ⟨fun e he => (hvalues e he).1.sound, fun e he => (htables e he).1.sound⟩

theorem first (h : IsPlaced entries) : LinesFirst entries := by
  obtain ⟨values, tables, rfl, hvalues, htables⟩ := h
  refine List.pairwise_append.mpr ⟨?_, ?_, ?_⟩
  · exact List.pairwise_of_forall_mem_list fun e he _ _ =>
      .inl (Entry.IsPart.sections_of_value (hvalues e he).2)
  · exact List.pairwise_of_forall_mem_list fun _ _ e he =>
      .inr ((htables e he).1.pairs_of_table (htables e he).2).1
  · exact fun e he _ _ => .inl (Entry.IsPart.sections_of_value (hvalues e he).2)

end IsPlaced

end FormatSettings.Toml.Verbatim
