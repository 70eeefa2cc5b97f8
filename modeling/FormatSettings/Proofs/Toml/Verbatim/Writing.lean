import FormatSettings.Proofs.Toml.Nesting
import FormatSettings.Proofs.Toml.Verbatim.Joining

namespace FormatSettings.Toml

def Section.statements (names : List String) (s : Section) : List Statement :=
  .header s.isItem (names ++ s.path) :: pairStatements s.pairs

namespace Verbatim

/-- A line without a break does not run into the text behind it. -/
def endsBefore (done text : List Char) : Bool :=
  !opens (unifyBreaks done) || match unifyBreaks text with
    | [] => true
    | c :: _ => c == '\n'

mutual

/-- An entry written at a place keeps what it says: its tables have the headers of that place, and none of
its lines run together. -/
def Entry.lasts (p : Place) : Entry → Bool
  | .table key head entries =>
    let path := p.tablePath (head.isPassed && key.isDotted) ++ key.text
    head.path?.isNone && allLast (.table key.isDotted path) (head.opening key path entries) entries
  | .tables key _ items => itemsLast (p.arrayPath ++ key.text) items
  | _ => true

def allLast (p : Place) (done : List Char) : List Entry → Bool
  | [] => true
  | e :: rest =>
    let text := writeEntry p done e
    endsBefore done text && e.lasts p && allLast p (done ++ text) rest

def itemsLast (path : List Char) : List (Head × List Entry) → Bool
  | [] => true
  | item :: rest =>
    endsBefore (writeItem path item) (writeItems path rest) && itemLasts path item && itemsLast path rest

def itemLasts (path : List Char) : Head × List Entry → Bool
  | (head, entries) =>
    allLast (.item path) (if head.isPassed then [] else head.itemLine path) entries

end

def Entry.statements (names : List String) (e : Entry) : List Statement :=
  pairStatements e.pairs ++ e.sections.flatMap (Section.statements names)

theorem LinesFirst.statements {es : List Entry} (h : LinesFirst es) (names : List String) :
    es.flatMap (Entry.statements names) =
      pairStatements (pairsOf es) ++ (sectionsOf es).flatMap (Section.statements names) := by
  induction es with
  | nil => rfl
  | cons e es ih =>
    obtain ⟨hfirst, hrest⟩ := List.pairwise_cons.mp h
    rw [List.flatMap_cons, ih hrest, Entry.statements, pairsOf, sectionsOf, List.flatMap_append]
    by_cases hnone : e.sections = []
    · simp [hnone, pairStatements]
    · have hpairs : pairsOf es = [] := by
        rw [pairsOf_eq, List.flatMap_eq_nil_iff]
        exact fun next hnext => (hfirst next hnext).resolve_left hnone
      simp [hpairs, pairStatements]

theorem follows_of_endsBefore {done text : List Char} (h : endsBefore done text = true) :
    Follows (unifyBreaks done) (unifyBreaks text) := by
  intro hopen
  rw [endsBefore, hopen] at h
  cases htext : unifyBreaks text with
  | nil => exact .inl rfl
  | cons c rest =>
    rw [htext] at h
    exact .inr (by simpa using h)

theorem says_append {done text : List Char} {ss ts : List Statement} (hdone : Says (unifyBreaks done) ss)
    (htext : Says (unifyBreaks text) ts) (h : endsBefore done text = true) :
    Says (unifyBreaks (done ++ text)) (ss ++ ts) := by
  rw [unifyBreaks_append hdone.noReturn]
  exact hdone.append htext (follows_of_endsBefore h)

theorem headerGap_cases (p : Place) (done : List Char) (margin : Margin) :
    p.headerGap done margin = [] ∨ p.headerGap done margin = ['\n'] := by
  unfold Place.headerGap
  split
  · exact .inl rfl
  · split
    · exact .inl rfl
    · split
      · exact .inl rfl
      · exact .inr rfl

theorem says_gap {gap text : List Char} {ss : List Statement} (hgap : gap = [] ∨ gap = ['\n'])
    (h : Says (unifyBreaks text) ss) : Says (unifyBreaks (gap ++ text)) ss := by
  rcases hgap with rfl | rfl
  · exact h
  · exact Says.breakLine.append h (follows_of_closed rfl _)

theorem spells_append_blanks {text blanks : List Char} {name : String} (h : Spells text name)
    (hblanks : Blanks blanks) : Spells (text ++ blanks) name := by
  obtain ⟨before, core, after, rfl, hbefore, hafter, hcore⟩ := h
  refine ⟨before, core, after ++ blanks, by simp, hbefore, ?_, hcore⟩
  intro c hc
  exact (List.mem_append.mp hc).elim (hafter c) (hblanks c)

/-- The last key takes up the blanks behind it. -/
theorem exists_keys_append {keys : List Key} (hkeys : AreSpelled keys) (hne : keys ≠ [])
    {blanks : List Char} (hblanks : Blanks blanks) : ∃ more : List Key, AreSpelled more ∧ more ≠ [] ∧
      more.map (·.name) = keys.map (·.name) ∧ pathChars more = pathChars keys ++ blanks := by
  rcases List.eq_nil_or_concat keys with rfl | ⟨front, last, rfl⟩
  · exact absurd rfl hne
  · rw [List.concat_eq_append] at hkeys ⊢
    refine ⟨front ++ [{ last with text := last.text ++ blanks }], ?_, by simp, by simp, ?_⟩
    · intro key hkey
      rcases List.mem_append.mp hkey with hkey | hkey
      · exact hkeys key (List.mem_append_left _ hkey)
      · rw [List.mem_singleton.mp hkey]
        exact spells_append_blanks (hkeys last (by simp)) hblanks
    · by_cases hfront : front = []
      · simp [hfront, pathChars_singleton]
      · rw [pathChars_append hfront, pathChars_append hfront]
        simp

theorem writeEntry_ofPath {separator text : List Char} {margin : Margin} {form : Form}
    {keys : List Key} {e : Entry} (he : Entry.ofPath (separateLast separator keys)
      (fun key => .value key margin form text) = some e) {p : Place} {front : List Char}
    (hvalue : p.valuePath = front) (htable : p.tablePath true = front) (done : List Char) :
    writeEntry p done e = (if e.holdsTables then p.headerGap done {} else []) ++
      (margin.indent ++ (front ++ pathChars keys) ++ separator ++ (text ++ margin.close)) := by
  -- Each key but the last one opens a dotted table, which writes its key and a dot.
  induction keys generalizing e p front done with
  | nil => cases he
  | cons key keys ih =>
    rcases cases_of_ofPath he with ⟨key, hkeys, rfl⟩ | ⟨key, next, more, inner, hkeys, hinner, rfl⟩
    · cases hkeys
      simp [writeEntry, hvalue, pathChars_singleton, Entry.holdsTables]
    · cases hkeys
      have hnext := ih hinner (p := .table true (front ++ key.text))
        (show _ = front ++ key.text ++ ['.'] from rfl) rfl []
      have hopening : Head.passed.opening { key with isDotted := true } (front ++ key.text) [inner] =
          [] := rfl
      rw [headerGap_nil, ite_self, List.nil_append] at hnext
      have hwritten : writeEntry p done (.table { key with isDotted := true } Head.passed [inner]) =
          p.headerGap done {} ++ writeEntry (.table true (front ++ key.text)) [] inner := by
        rw [writeEntry]
        simp only [Head.passed, Option.getD_none, Bool.and_self, htable]
        change _ ++ writeEntries (.table true (front ++ key.text))
          (Head.passed.opening { key with isDotted := true } (front ++ key.text) [inner]) [inner] = _
        rw [hopening, writeEntries, writeEntries, List.nil_append]
      rw [hwritten, hnext, pathChars_cons key (List.cons_ne_nil _ _)]
      simp [Entry.holdsTables]

theorem says_spaces {cs : List Char} (h : ∀ c ∈ cs, IsSpace c) : Says cs [] := by
  induction cs with
  | nil => exact Says.nil
  | cons c cs ih =>
    have hcs := ih fun d hd => h d (List.mem_cons_of_mem _ hd)
    rcases h c List.mem_cons_self with hblank | rfl
    · have hblanks : Blanks [c] := fun d hd => List.mem_singleton.mp hd ▸ hblank
      refine ⟨fun rest hrest => ?_, ?_⟩
      · rw [List.cons_append, ← List.singleton_append, statements?_blanks hblanks]
        exact hcs.reads rest (Follows.behind [c] hrest)
      · exact List.not_mem_cons_of_ne_of_not_mem (ne_of_isLineBlank hblank rfl).symm hcs.noReturn
    · exact Says.breakLine.append hcs (follows_of_closed rfl _)

theorem IsLine.says_written {e : Entry} (h : IsLine e) {p : Place} (hvalue : p.valuePath = [])
    (htable : p.tablePath true = []) (done : List Char) (names : List String) :
    Says (unifyBreaks (writeEntry p done e)) (e.statements names) := by
  have hsections := h.sections
  cases h with
  | blank hspaces =>
    rw [writeEntry]
    exact says_spaces hspaces
  | note hsaid =>
    rw [writeEntry]
    exact hsaid
  | @pair keys front blanks text margin form v e hkeys hindent hfront hblanks hfinishes _ _ he =>
    have hgap : (if e.holdsTables then p.headerGap done {} else []) = [] ∨
        (if e.holdsTables then p.headerGap done {} else []) = ['\n'] := by
      split
      · exact headerGap_cases p done {}
      · exact .inl rfl
    rw [writeEntry_ofPath he hvalue htable done]
    refine says_gap hgap ?_
    obtain ⟨more, hmore, hne, hnames, hchars⟩ := exists_keys_append hkeys.spelled hkeys.nonempty hfront
    have hsaid := says_pair hindent hmore hne hblanks hfinishes
    have hline : margin.indent ++ ([] ++ pathChars keys) ++ (front ++ '=' :: blanks) ++
        (text ++ margin.close) =
        (margin.indent ++ pathChars more ++ '=' :: blanks) ++ (text ++ margin.close) := by
      rw [hchars]
      simp
    have hplain : '\r' ∉ margin.indent ++ pathChars more ++ '=' :: blanks := by
      simp [hindent.not_mem (c := '\r') rfl, hmore.not_mem (c := '\r') (by decide),
        hblanks.not_mem (c := '\r') rfl]
    have hstatements : e.statements names = [.pair (keys.map (·.name)) v] := by
      rw [Entry.statements, hsections, pairs_ofPath (fun key hkey => (hkeys.plain key hkey).2) he,
        valueOf_finishes hfinishes]
      rfl
    rw [hline, unifyBreaks_append (isUnified_of_no_return hplain), unifyBreaks_of_no_return hplain,
      hstatements, ← hnames]
    exact hsaid

theorem says_headerLine {head : Head} (h : KeptHeader head.margin) {keys : List Key}
    (hkeys : AreSpelled keys) (hne : keys ≠ []) (entries : List Entry) :
    Says (unifyBreaks (head.line (pathChars keys) entries))
      [.header head.isItem (keys.map (·.name))] := by
  obtain ⟨brk, hbrk, hline⟩ : ∃ brk : List Char, Closes (unifyBreaks (head.margin.close ++ brk)) ∧
      head.line (pathChars keys) entries =
        head.margin.indent ++ (bracketed head.isItem (pathChars keys) ++ (head.margin.close ++ brk)) := by
    cases hmissing : (!head.margin.breaksAfter && entries.any fun e => e.key?.isSome) with
    | false =>
      refine ⟨[], by simpa using h.closes, ?_⟩
      cases hitem : head.isItem <;> simp [Head.line, hmissing, hitem, bracketed, opening, closing]
    | true =>
      rw [Bool.and_eq_true, Bool.not_eq_true'] at hmissing
      refine ⟨['\n'], ?_, ?_⟩
      · rw [unifyBreaks_append h.closes.noReturn]
        exact h.broken hmissing.1
      · cases hitem : head.isItem <;> simp [Head.line, hmissing.1, hmissing.2, hitem, bracketed, opening,
          closing]
  have hplain (indent : List Char) (hindent : Blanks indent) :
      '\r' ∉ indent ++ bracketed head.isItem (pathChars keys) := by
    cases head.isItem <;> simp [bracketed, opening, closing, hindent.not_mem (c := '\r') rfl,
      hkeys.not_mem (c := '\r') (by decide)]
  have hsaid {indent : List Char} (hindent : Blanks indent) : Says (unifyBreaks (indent ++
      (bracketed head.isItem (pathChars keys) ++ (head.margin.close ++ brk))))
      [.header head.isItem (keys.map (·.name))] := by
    rw [← List.append_assoc, unifyBreaks_append (isUnified_of_no_return (hplain indent hindent)),
      unifyBreaks_of_no_return (hplain indent hindent)]
    exact says_header hindent hkeys hne hbrk
  rw [hline]
  rcases h.lead with hindent | ⟨blanks, hindent, hlead⟩
  · exact hsaid hindent
  · rw [hlead, List.cons_append, ← List.singleton_append]
    exact says_gap (.inr rfl) (hsaid hindent)

theorem itemLine_eq {head : Head} (h : head.isItem = true) (path : List Char) :
    head.itemLine path = head.line path [] := by
  simp [Head.itemLine, Head.line, h]

def Place.IsUnder (p : Place) (keys : List Key) : Prop :=
  p = .table false (pathChars keys) ∨ p = .item (pathChars keys)

theorem says_entries {names : List String} {p : Place} {es : List Entry} {done : List Char}
    {ss : List Statement} (h : ∀ e ∈ es, ∀ done, e.lasts p = true →
      Says (unifyBreaks (writeEntry p done e)) (e.statements names))
    (hdone : Says (unifyBreaks done) ss) (hlast : allLast p done es = true) :
    Says (unifyBreaks (writeEntries p done es)) (ss ++ es.flatMap (Entry.statements names)) := by
  induction es generalizing done ss with
  | nil => simpa [writeEntries] using hdone
  | cons e es ih =>
    rw [allLast, Bool.and_eq_true, Bool.and_eq_true] at hlast
    obtain ⟨⟨hends, hfirst⟩, hrest⟩ := hlast
    have hnext := says_append hdone (h e List.mem_cons_self done hfirst) hends
    have hall := ih (fun d hd => h d (List.mem_cons_of_mem _ hd)) hnext hrest
    rwa [writeEntries, List.flatMap_cons, ← List.append_assoc]

theorem statements_below (names : List String) (name : String) (sections : List Toml.Section) :
    (sections.map (Section.below [name])).flatMap (Section.statements names) =
      sections.flatMap (Section.statements (names ++ [name])) := by
  rw [List.flatMap_map]
  congr 1
  funext s
  simp [Section.statements, Section.below]

theorem says_table {above : List Key} {key : Key} {head : Head} {entries : List Entry}
    (hspelled : AreSpelled (above ++ [key])) (hplain : key.isDotted = false)
    (hmargin : KeptHeader head.margin) (hitem : head.isItem = false) (hfirst : LinesFirst entries)
    (hsound : ∀ e ∈ entries, e.IsSound) {p : Place}
    (hentries : ∀ e ∈ entries, ∀ done, e.lasts (.table false (pathChars (above ++ [key]))) = true →
      Says (unifyBreaks (writeEntry (.table false (pathChars (above ++ [key]))) done e))
        (e.statements ((above ++ [key]).map (·.name))))
    (hpath : ∀ isPassed, p.tablePath (isPassed && false) ++ key.text = pathChars (above ++ [key]))
    (hlasts : (Entry.table key head entries).lasts p = true) (done : List Char) :
    Says (unifyBreaks (writeEntry p done (.table key head entries)))
      ((Entry.table key head entries).statements (above.map (·.name))) := by
  rw [Entry.lasts, hplain, hpath, Bool.and_eq_true, Option.isNone_iff_eq_none] at hlasts
  obtain ⟨hnone, hlasts⟩ := hlasts
  rw [writeEntry, hplain, hnone, Option.getD_none, hpath]
  refine says_gap (headerGap_cases p done head.margin) ?_
  have hnames : (above ++ [key]).map (·.name) = above.map (·.name) ++ [key.name] := by
    rw [List.map_append, List.map_singleton]
  rw [Entry.statements, Entry.pairs, Entry.sections, hplain, if_neg Bool.false_ne_true,
    if_neg Bool.false_ne_true]
  simp only [pairStatements, List.map_nil, List.nil_append]
  by_cases hheadless : (head.isPassed && !entries.any Entry.needsHeader) = true
  · -- Without a header there are no pairs, only the sections of the tables below.
    rw [if_pos hheadless, statements_below, ← hnames]
    rw [Bool.and_eq_true, Bool.not_eq_true'] at hheadless
    have hopening : head.opening key (pathChars (above ++ [key])) entries = [] ∨
        head.opening key (pathChars (above ++ [key])) entries = ['\n'] := by
      rw [Head.opening, hheadless.1, hheadless.2, Bool.and_false]
      simp only [Bool.not_true, Bool.or_self, Bool.false_eq_true, ↓reduceIte]
      split
      · exact .inr rfl
      · exact .inl rfl
    have hdone : Says (unifyBreaks (head.opening key (pathChars (above ++ [key])) entries)) [] := by
      rcases hopening with hopen | hopen
      · rw [hopen]
        exact Says.nil
      · rw [hopen]
        exact Says.breakLine
    have hall := says_entries hentries hdone hlasts
    rwa [hfirst.statements, pairsOf_of_headless hsound hheadless.2] at hall
  · rw [if_neg hheadless, List.flatMap_cons, statements_below, ← hnames]
    have hopening : head.opening key (pathChars (above ++ [key])) entries =
        head.line (pathChars (above ++ [key])) entries := by
      have hheaded : (!head.isPassed || entries.any Entry.needsHeader) = true := by
        simpa [imp_iff_not_or] using hheadless
      rw [Head.opening, hplain, Bool.not_false, Bool.true_and]
      exact if_pos hheaded
    have hdone : Says (unifyBreaks (head.opening key (pathChars (above ++ [key])) entries))
        [.header false ((above ++ [key]).map (·.name))] := by
      rw [hopening, ← hitem]
      exact says_headerLine hmargin hspelled (by simp) entries
    have hall := says_entries hentries hdone hlasts
    rw [hfirst.statements] at hall
    simpa [Section.statements, hnames] using hall

theorem says_item {path : List Key} (hspelled : AreSpelled path) (hne : path ≠ [])
    {item : Head × List Entry} (hitem : IsItem item)
    (hentries : ∀ e ∈ item.2, ∀ done, e.lasts (.item (pathChars path)) = true →
      Says (unifyBreaks (writeEntry (.item (pathChars path)) done e))
        (e.statements (path.map (·.name))))
    (hlasts : itemLasts (pathChars path) item = true) :
    Says (unifyBreaks (writeItem (pathChars path) item))
      (.header true (path.map (·.name)) :: pairStatements (pairsOf item.2) ++
        (sectionsOf item.2).flatMap (Section.statements (path.map (·.name)))) := by
  obtain ⟨head, entries⟩ := item
  obtain ⟨htrue, hopened, hmargin, hfirst⟩ := hitem
  dsimp only at htrue hopened hmargin hfirst hentries ⊢
  rw [itemLasts, hopened, if_neg Bool.false_ne_true, itemLine_eq htrue] at hlasts
  rw [writeItem, hopened, if_neg Bool.false_ne_true, itemLine_eq htrue]
  have hdone := says_headerLine hmargin hspelled hne []
  rw [htrue] at hdone
  have hall := says_entries hentries hdone hlasts
  rwa [hfirst.statements] at hall

theorem says_items {path : List Char} {names : List String} {name : String}
    {items : List (Head × List Entry)}
    (h : ∀ item ∈ items, itemLasts path item = true → Says (unifyBreaks (writeItem path item))
      ((itemSections name item).flatMap (Section.statements names)))
    (hlasts : itemsLast path items = true) :
    Says (unifyBreaks (writeItems path items))
      ((itemsSections name items).flatMap (Section.statements names)) := by
  induction items with
  | nil => exact Says.nil
  | cons item items ih =>
    rw [itemsLast, Bool.and_eq_true, Bool.and_eq_true] at hlasts
    obtain ⟨⟨hends, hfirst⟩, hrest⟩ := hlasts
    have hnext := ih (fun i hi => h i (List.mem_cons_of_mem _ hi)) hrest
    rw [writeItems, itemsSections, List.flatMap_append]
    exact says_append (h item List.mem_cons_self hfirst) hnext hends

theorem Entry.IsSound.says_written {e : Entry} (h : e.IsSound) {above : List Key} (habove : AreSpelled above)
    (hne : above ≠ []) {p : Place} (hp : p.IsUnder above) (hlasts : e.lasts p = true)
    (done : List Char) :
    Says (unifyBreaks (writeEntry p done e)) (e.statements (above.map (·.name))) := by
  have hspelled {above : List Key} (habove : AreSpelled above) {key : Key}
      (hkey : Spells key.text key.name) : AreSpelled (above ++ [key]) := by
    intro k hk
    rcases List.mem_append.mp hk with hk | hk
    · exact habove k hk
    · exact List.mem_singleton.mp hk ▸ hkey
  induction h generalizing above p done with
  | line h =>
    refine h.says_written ?_ ?_ done _
    · rcases hp with rfl | rfl <;> rfl
    · rcases hp with rfl | rfl <;> rfl
  | table hkey hplain hmargin hitem hfirst _ hentries ih =>
    have hinner := hspelled habove hkey
    refine says_table hinner hplain hmargin hitem hfirst hentries
      (fun e he done hlast => ih e he hinner (by simp) (.inl rfl) hlast done) ?_ hlasts done
    intro isPassed
    rw [pathChars_append hne]
    rcases hp with rfl | rfl <;> simp [Place.tablePath]
  | @tables key margin items hkey hplain _ hitems _ ih =>
    have hinner := hspelled habove hkey
    have hpath : p.arrayPath ++ key.text = pathChars (above ++ [key]) := by
      rw [pathChars_append hne]
      rcases hp with rfl | rfl <;> simp [Place.arrayPath]
    have hlast : itemsLast (p.arrayPath ++ key.text) items = true := hlasts
    rw [hpath] at hlast
    rw [writeEntry, hpath]
    refine says_gap (headerGap_cases p done margin) (says_items (fun item hitem hlast => ?_) hlast)
    have hsaid := says_item hinner (by simp) (hitems item hitem)
      (fun e he done hlast => ih item hitem e he hinner (by simp) (.inr rfl) hlast done) hlast
    rw [List.map_append, List.map_singleton] at hsaid
    rw [itemSections, List.flatMap_cons, statements_below]
    exact hsaid

end Verbatim

end FormatSettings.Toml
