import FormatSettings.Proofs.Toml.Verbatim.Joining
import FormatSettings.Proofs.Toml.Verbatim.Placing

/-!
The entries of a document as they stand in another table mean what they meant at the top.
-/

namespace FormatSettings.Toml.Verbatim

theorem runAt_none {es : List Entry} {name : String} (h : ∀ e ∈ es, e.named name = false) (s : Shape) :
    runAt name (opsOf es) s = some s := by
  refine runAt_other (fun op hop hhead => ?_) s
  obtain ⟨e, he, hop⟩ := List.mem_flatMap.mp hop
  have hnamed := named_of_ops hop hhead
  rw [h e he] at hnamed
  cases hnamed

theorem runAt_single {front back : List Entry} {e : Entry} {name : String}
    (hfront : ∀ d ∈ front, d.named name = false) (hback : ∀ d ∈ back, d.named name = false)
    (s : Shape) : runAt name (opsOf (front ++ e :: back)) s = runAt name e.ops s := by
  rw [opsOf_append, opsOf_cons, runAt_append, runAt_none hfront, Option.bind_some, runAt_append]
  cases runAt name e.ops s with
  | none => rfl
  | some t => exact runAt_none hback t

theorem runAt_of_nodup {es : List Entry} {e : Entry} {name : String} (hnodup : (keyNames es).Nodup)
    (he : e ∈ es) (hnamed : e.named name = true) (s : Shape) :
    runAt name (opsOf es) s = runAt name e.ops s := by
  obtain ⟨front, back, rfl⟩ := List.append_of_mem he
  obtain ⟨key, hkey, rfl⟩ : ∃ key, e.key? = some key ∧ key.name = name := by
    simpa [Entry.named, Option.any_eq_true] using hnamed
  rw [keyNames_append, keyNames_cons, hkey] at hnodup
  obtain ⟨-, hbehind, hapart⟩ := List.nodup_append.mp hnodup
  refine runAt_single (named_eq_false fun hmem => ?_)
    (named_eq_false (List.nodup_cons.mp hbehind).1) s
  exact hapart _ hmem _ List.mem_cons_self rfl

theorem keyNames_eq_gist (es : List Entry) : keyNames es = (es.map Entry.gist).filterMap (·.1) := by
  rw [List.filterMap_map]
  rfl

theorem runAt_perm {es fs : List Entry} (h : (es.map Entry.gist).Perm (fs.map Entry.gist))
    (hnodup : (keyNames fs).Nodup) (name : String) (s : Shape) :
    runAt name (opsOf es) s = runAt name (opsOf fs) s := by
  have hsame (e f : Entry) (hgist : e.gist = f.gist) : e.named name = f.named name ∧ e.ops = f.ops := by
    obtain ⟨hkey, hops⟩ := Prod.mk.inj hgist
    have hnamed (e : Entry) : e.named name = (e.key?.map (·.name)).any (· == name) := by
      cases hkey : e.key? <;> simp [Entry.named, hkey]
    rw [hnamed, hnamed, hkey]
    exact ⟨rfl, hops⟩
  have hperm : (keyNames es).Nodup := by
    rw [keyNames_eq_gist] at hnodup ⊢
    exact (h.filterMap _).nodup_iff.mpr hnodup
  by_cases hmem : ∃ f ∈ fs, f.named name = true
  · obtain ⟨f, hf, hnamed⟩ := hmem
    obtain ⟨e, he, hgist⟩ := List.mem_map.mp (h.mem_iff.mpr (List.mem_map_of_mem hf))
    obtain ⟨hname, hops⟩ := hsame e f hgist
    rw [runAt_of_nodup hnodup hf hnamed, runAt_of_nodup hperm he (hname.trans hnamed), hops]
  · have hnone : ∀ f ∈ fs, f.named name = false := fun f hf => by
      rw [Bool.eq_false_iff]
      exact fun hnamed => hmem ⟨f, hf, hnamed⟩
    rw [runAt_none hnone, runAt_none]
    intro e he
    obtain ⟨f, hf, hgist⟩ := List.mem_map.mp (h.mem_iff.mp (List.mem_map_of_mem he))
    rw [(hsame e f hgist.symm).1]
    exact hnone f hf

theorem runAt_table {key : Key} {head : Head} {inner : List Entry} {f : Shapes}
    (hplain : key.isDotted = false) (hinner : ∀ e ∈ inner, e.IsSound) (hfirst : LinesFirst inner)
    (hne : (Entry.table key head inner).sections ≠ [])
    (hrun : runOps (opsOf inner) Shapes.none = some f) :
    ∃ definition, runAt key.name (Entry.table key head inner).ops .absent =
      some (.table definition f) := by
  rw [hfirst.opsOf, runOps_append, runOps_pairs] at hrun
  rw [Entry.ops, Entry.pairs, Entry.sections, hplain, if_neg Bool.false_ne_true,
    if_neg Bool.false_ne_true, List.map_nil, List.nil_append]
  rw [Entry.sections, hplain, if_neg Bool.false_ne_true] at hne
  split
  · next hheadless =>
    rw [if_pos hheadless, ne_eq, List.map_eq_nil_iff] at hne
    rw [Bool.and_eq_true, Bool.not_eq_true'] at hheadless
    rw [pairsOf_of_headless hinner hheadless.2] at hrun
    rw [runAt_sections hne]
    exact ⟨.passed, congrArg (Option.map (Shape.table .passed)) hrun⟩
  · obtain ⟨g, hg, hrun⟩ := Option.bind_eq_some_iff.mp hrun
    have hopen : Shape.openTable (pairsOf inner) .absent = some (.table .headed g) :=
      congrArg (Option.map (Shape.table .headed)) hg
    rw [List.map_cons, runAt_header, hopen, Option.bind_some]
    by_cases hnone : sectionsOf inner = []
    · rw [hnone] at hrun ⊢
      cases hrun
      exact ⟨.headed, rfl⟩
    · rw [runAt_sections hnone]
      exact ⟨.headed, congrArg (Option.map (Shape.table .headed)) hrun⟩

/-- An entry under a name that means what stood there before. -/
structure Moves (name : String) (s : Shape) (e : Entry) : Prop where
  part : e.IsPart
  key : e.key? = some (.ofName name)
  shape : ∃ t, runAt name e.ops .absent = some t ∧ t.meaning? = s.meaning?

theorem moves_table {name : String} {head : Head} {inner : List Entry} {s : Shape} {f : Shapes}
    (hhead : head.isItem = false) (hmargin : KeptHeader head.margin) (hs : s.IsTable) (hne : s ≠ .absent)
    (hinner : ∀ e ∈ inner, e.IsSound) (hfirst : LinesFirst inner)
    (hsections : (Entry.table (.ofName name) head inner).sections ≠ [])
    (hrun : runOps (opsOf inner) Shapes.none = some f)
    (hsame : ∀ key, (f key).meaning? = (s.contents key).meaning?) :
    Moves name s (.table (.ofName name) head inner) := by
  obtain ⟨definition, hall⟩ := runAt_table rfl hinner hfirst hsections hrun
  refine ⟨⟨.table (spells_ofName name) rfl hmargin hhead hfirst hsections hinner, rfl⟩, rfl, _, hall, ?_⟩
  obtain ⟨_, htable⟩ := hs.eq_table hne
  rw [htable, Shape.meaning?, Shape.meaning?]
  congr 2
  funext key
  exact hsame key

theorem finishes_flag (b : Bool) : Finishes (flagChars b ++ ['\n']) (.bool b) := by
  cases b with
  | true => exact ⟨⟨1, ['\n'], rfl, rfl⟩, by decide⟩
  | false => exact ⟨⟨1, ['\n'], rfl, rfl⟩, by decide⟩

theorem isLine_named {name : String} {margin : Margin} {form : Form} {text : List Char} {v : Value}
    (hindent : Blanks margin.indent) (hvalue : Finishes (unifyBreaks (text ++ margin.close)) v)
    (hbroken : margin.breaksAfter = false →
      Finishes (unifyBreaks (text ++ margin.close) ++ ['\n']) v)
    (hflag : form = .flag → IsFlag text v) : IsLine (.value (.ofName name) margin form text) := by
  have hblanks : Blanks [' '] := fun c hc => List.mem_singleton.mp hc ▸ rfl
  have hkeys : AreWritten [⟨name, (Key.ofName name).text, [], false⟩] :=
    areWritten_cons (spells_ofName name) ⟨rfl, rfl⟩ (.inl rfl)
  exact .pair hkeys hindent hblanks hblanks hvalue hbroken hflag rfl

theorem moves_value {key : Key} {margin : Margin} {form : Form} {text : List Char} {s : Shape}
    (h : IsLine (.value key margin form text))
    (hrun : runAt key.name (Entry.value key margin form text).ops .absent = some s) :
    Moves key.name s ((Entry.value key margin form text).moved key.name) := by
  generalize hentry : Entry.value key margin form text = e at h
  cases h with
  | blank => cases hentry
  | note => cases hentry
  | @pair _ _ _ _ _ _ v _ _ hindent _ _ hvalue hbroken hflag he =>
    rcases cases_of_ofPath he with ⟨first, rfl, rfl⟩ | ⟨_, _, _, _, _, _, rfl⟩
    · cases hentry
      have hops {kept : Margin} (hkept : Finishes (unifyBreaks (text ++ kept.close)) v) :
          (Entry.value (.ofName first.name) kept form text).ops = [.pair [first.name] v] := by
        simp [Entry.ops, Entry.pairs, Entry.sections, valueOf_finishes hkept, Op.ofPair, Key.ofName]
      have hsame : runAt first.name [.pair [first.name] v] .absent = some s := by
        simpa [Entry.ops, Entry.pairs, Entry.sections, valueOf_finishes hvalue, Op.ofPair] using hrun
      rw [Entry.moved]
      split
      · next hform =>
        -- A flag is written again, without what stood around it.
        have hisFlag := hflag (beq_iff_eq.mp hform)
        obtain ⟨b, htext, hb⟩ := hisFlag
        have hfinishes : Finishes (unifyBreaks (text ++ ({} : Margin).close)) v := by
          rw [htext, hb]
          have hflagged := finishes_flag b
          rwa [← unifyBreaks_of_no_return hflagged.noReturn] at hflagged
        have hopen : ({} : Margin).breaksAfter = false →
            Finishes (unifyBreaks (text ++ ({} : Margin).close) ++ ['\n']) v :=
          fun hopen => absurd hopen (by decide)
        refine ⟨⟨.line (isLine_named .nil hfinishes hopen hflag), rfl⟩, rfl, s, ?_, rfl⟩
        rw [hops hfinishes]
        exact hsame
      · refine ⟨⟨.line (isLine_named hindent hvalue hbroken hflag), rfl⟩, rfl, s, ?_, rfl⟩
        rw [hops hvalue]
        exact hsame
    · cases hentry

theorem keptHeader_empty : KeptHeader {} :=
  ⟨.inl .nil, ⟨rfl, by decide⟩, nofun⟩

theorem moves_moved {e : Entry} {key : Key} {s : Shape} (he : e.IsSound) (hkey : e.key? = some key)
    (hrun : runAt key.name e.ops .absent = some s) : Moves key.name s (e.moved key.name) := by
  cases e with
  | blank => cases hkey
  | note => cases hkey
  | value first margin form text =>
    cases hkey
    cases he with
    | line h => exact moves_value h hrun
  | tables first margin items =>
    cases hkey
    obtain ⟨-, -, hne, hitems, hentries⟩ := he.of_tables
    exact ⟨⟨.tables (spells_ofName key.name) rfl hne hitems hentries, rfl⟩, rfl, s, hrun, rfl⟩
  | table first head inner =>
    cases hkey
    cases he with
    | line h =>
      obtain ⟨hs, hne, hcontents⟩ := contents_of_table (.line h) (.inl rfl) hrun
      have hhead : head = Head.passed := by
        rcases h.kind with hno | ⟨_, _, heq, _⟩
        · cases hno
        · cases heq
          rfl
      obtain ⟨d, rfl, hd, path, v, -, hpairs⟩ := h.inner
      have hheader : d.needsHeader = true := by
        rcases hd.isBlank_or_needsHeader with hblank | hneeds
        · cases d with
          | blank => cases hpairs
          | _ => cases hblank
        · exact hneeds
      have hsections : (Entry.table (.ofName key.name) head [d]).sections ≠ [] := by
        simp [Entry.sections, Key.ofName, hheader]
      rw [hhead] at hsections ⊢
      exact moves_table rfl keptHeader_empty hs hne (List.forall_mem_singleton.mpr (.line hd))
        (List.pairwise_singleton _ _) hsections hcontents fun _ => rfl
    | table _ hplain hmargin hhead hfirst hne hentries =>
      have hsections : (Entry.table (.ofName key.name) head inner).sections =
          (Entry.table key head inner).sections := by
        rw [Entry.sections, Entry.sections, hplain]
        rfl
      have hops : (Entry.table (.ofName key.name) head inner).ops = (Entry.table key head inner).ops := by
        rw [Entry.ops, Entry.ops, hsections, Entry.pairs, Entry.pairs, hplain]
        rfl
      refine ⟨⟨.table (spells_ofName key.name) rfl hmargin hhead hfirst (hsections ▸ hne) hentries, rfl⟩, rfl,
        s, ?_, rfl⟩
      rw [← hrun]
      exact congrArg (runAt key.name · .absent) hops

theorem spread_of_addApart {es more joined : List Entry} (hes : Spread es)
    (h : more.foldlM addApart es = .ok joined) : joined = es ++ more ∧ Spread joined := by
  induction more generalizing es with
  | nil =>
    cases h
    exact ⟨(List.append_nil _).symm, hes⟩
  | cons e more ih =>
    rw [List.foldlM_cons] at h
    obtain ⟨next, hnext, h⟩ := Except.bind_eq_ok.mp h
    have hlast {x : Entry} {name : String} (hname : e.named name = true)
        (hx : lastNamed? name es = some x) : (e.key?.bind fun key => lastNamed? key.name es) = some x := by
      obtain ⟨key, hkey, rfl⟩ : ∃ key, e.key? = some key ∧ key.name = name := by
        simpa [Entry.named, Option.any_eq_true] using hname
      rw [hkey, Option.bind_some, hx]
    have hadded : next = es ++ [e] ∧
        ∀ name x, e.named name = true → lastNamed? name es = some x → x.IsTable := by
      unfold addApart at hnext
      split at hnext
      · next hnone =>
        cases hnext
        refine ⟨rfl, fun name x hname hx => ?_⟩
        rw [hlast hname hx] at hnone
        cases hnone
      · next key head inner htable =>
        cases hnext
        refine ⟨rfl, fun name x hname hx => ?_⟩
        rw [hlast hname hx, Option.some.injEq] at htable
        exact ⟨key, head, inner, htable⟩
      · cases hnext
    obtain ⟨rfl, htables⟩ := hadded
    obtain ⟨rfl, hspread⟩ := ih (hes.concat htables) h
    exact ⟨by simp, hspread⟩

theorem spread_of_checkJoined {limit : Nat} {name : String} {es : List Entry}
    (hscattered : isScattered name es = true) (h : checkJoined (limit + 1) name es = .ok ()) :
    Spread (gathered name es) := by
  rw [checkJoined, if_pos hscattered] at h
  obtain ⟨joined, hjoined, -⟩ := Except.bind_eq_ok.mp h
  obtain ⟨rfl, hspread⟩ := spread_of_addApart .nil hjoined
  exact hspread

theorem forall₂_of_mapM {α β ε : Type} {r : α → β → Prop} {f : α → Except ε β} {as : List α}
    {bs : List β} (h : as.mapM f = .ok bs) (hr : ∀ a ∈ as, ∀ b, f a = .ok b → r a b) :
    List.Forall₂ r as bs := by
  induction as generalizing bs with
  | nil =>
    cases h
    exact .nil
  | cons a as ih =>
    rw [List.mapM_cons] at h
    obtain ⟨b, hb, h⟩ := Except.bind_eq_ok.mp h
    obtain ⟨rest, hrest, h⟩ := Except.bind_eq_ok.mp h
    cases h
    rw [List.forall_mem_cons] at hr
    exact .cons (hr.1 b hb) (ih hrest hr.2)

section Parts

variable {names : List String} {parts body : List Entry} {f : Shapes}

theorem keyNames_of_parts (h : List.Forall₂ (fun name e => Moves name (f name) e) names parts) :
    keyNames parts = names := by
  induction h with
  | nil => rfl
  | cons hmoves _ ih => rw [keyNames_cons, hmoves.key, ih]; rfl

theorem exists_part (h : List.Forall₂ (fun name e => Moves name (f name) e) names parts) {name : String}
    (hname : name ∈ names) : ∃ e ∈ parts, Moves name (f name) e := by
  induction h with
  | nil => cases hname
  | @cons first e _ _ hmoves _ ih =>
    rcases List.mem_cons.mp hname with rfl | hname
    · exact ⟨e, List.mem_cons_self, hmoves⟩
    · obtain ⟨d, hd, hmovesRest⟩ := ih hname
      exact ⟨d, List.mem_cons_of_mem _ hd, hmovesRest⟩

theorem isPart_of_parts (h : List.Forall₂ (fun name e => Moves name (f name) e) names parts) :
    ∀ e ∈ parts, e.IsPart := by
  induction h with
  | nil => exact List.forall_mem_nil _
  | cons hmoves _ ih => exact List.forall_mem_cons.mpr ⟨hmoves.part, ih⟩

theorem runOps_of_parts (hparts : List.Forall₂ (fun name e => Moves name (f name) e) names parts)
    (hnodup : names.Nodup) (hothers : ∀ name, name ∉ names → f name = .absent)
    (hbody : (body.map Entry.gist).Perm (parts.map Entry.gist)) :
    ∃ g, runOps (opsOf body) Shapes.none = some g ∧ ∀ name, (g name).meaning? = (f name).meaning? := by
  have hnames := keyNames_of_parts hparts
  rw [← hnames] at hnodup
  have hat (name : String) : ∃ t, runAt name (opsOf body) .absent = some t ∧
      t.meaning? = (f name).meaning? := by
    rw [runAt_perm hbody hnodup]
    by_cases hname : name ∈ names
    · obtain ⟨e, he, hmoves⟩ := exists_part hparts hname
      have hnamed : e.named name = true := named_key hmoves.key
      rw [runAt_of_nodup hnodup he hnamed]
      exact hmoves.shape
    · refine ⟨.absent, runAt_none (named_eq_false (hnames ▸ hname)) _, ?_⟩
      rw [hothers name hname]
  choose g hg using hat
  refine ⟨g, ?_, fun name => (hg name).2⟩
  rw [runOps_eq_some_iff fun _ hop => path_ne_nil_of_opsOf hop]
  exact fun name => (hg name).1

end Parts

theorem Entry.IsPart.sections_ne_nil {e : Entry} (h : e.IsPart) (htables : e.holdsTables = true) :
    e.sections ≠ [] := by
  cases e with
  | table key head inner =>
    have hplain : key.isDotted = false := by simpa [Entry.key?] using h.plain
    exact (h.sound.of_table hplain).2.2.2.2.1
  | tables key margin items => exact itemsSections_ne_nil h.sound.of_tables.2.2.1 _
  | _ => cases htables

theorem moves_joined {name : String} {s : Shape} {body : List Entry} {f : Shapes}
    (hs : s.IsTable) (hne : s ≠ .absent) (hbody : IsPlaced body)
    (hrun : runOps (opsOf body) Shapes.none = some f)
    (hsame : ∀ key, (f key).meaning? = (s.contents key).meaning?) :
    Moves name s (.table (.ofName name)
      { Head.opened with isPassed := !body.isEmpty && body.all Entry.holdsTables } body) := by
  refine moves_table rfl keptHeader_empty hs hne hbody.sound hbody.first ?_ hrun hsame
  rw [Entry.sections, if_neg (by simp [Key.ofName])]
  split
  · next hpassed =>
    simp only [Bool.and_eq_true, Bool.not_eq_true', List.all_eq_true] at hpassed
    obtain ⟨e, rest, rfl⟩ := List.exists_cons_of_ne_nil (List.isEmpty_eq_false_iff.mp hpassed.1.1)
    have htables := hpassed.1.2 e List.mem_cons_self
    have hpart : e.IsPart := by
      obtain ⟨values, tables, heq, hvalues, hkept⟩ := hbody
      rcases List.mem_append.mp (heq ▸ List.mem_cons_self (a := e) (l := rest)) with hmem | hmem
      · exact (hvalues e hmem).1
      · exact (hkept e hmem).1
    simp [sectionsOf, hpart.sections_ne_nil htables]
  · exact List.cons_ne_nil _ _

theorem nodup_eraseDups (names : List String) : names.eraseDups.Nodup := by
  match names with
  | [] => exact .nil
  | name :: rest =>
    have hshorter := List.length_filter_le (fun other => !other == name) rest
    rw [List.eraseDups_cons, List.nodup_cons]
    refine ⟨fun hmem => ?_, nodup_eraseDups _⟩
    simp [List.mem_eraseDups] at hmem
termination_by names.length

theorem mem_keyNames_iff {name : String} {es : List Entry} :
    name ∈ keyNames es ↔ ∃ e ∈ es, e.named name = true := by
  simp [keyNames, Entry.named, Option.any_eq_true]

theorem perm_of_partition (p : Entry → Bool) (es : List Entry) :
    ((es.partition p).2 ++ (es.partition p).1).Perm es := by
  rw [List.partition_eq_filter_filter]
  exact List.perm_append_comm.trans (List.filter_append_perm p es)

/-- Parts that stand for all names of entries mean together what the entries mean. -/
theorem runOps_of_moves {es parts body : List Entry} {f : Shapes}
    (hrun : runOps (opsOf es) Shapes.none = some f)
    (hparts : List.Forall₂ (fun name e => Moves name (f name) e) (names es) parts)
    (hbody : (body.map Entry.gist).Perm (parts.map Entry.gist)) :
    ∃ g, runOps (opsOf body) Shapes.none = some g ∧ ∀ name, (g name).meaning? = (f name).meaning? := by
  refine runOps_of_parts hparts (nodup_eraseDups _) (fun name hname => ?_) hbody
  have hat := runOps_singles (fun _ hop => path_ne_nil_of_opsOf hop) hrun name
  rw [runAt_none (named_eq_false fun hmem => hname (List.mem_eraseDups.mpr hmem)),
    Option.some.injEq] at hat
  exact hat.symm

theorem isPlaced_nil : IsPlaced [] :=
  ⟨[], [], rfl, List.forall_mem_nil _, List.forall_mem_nil _⟩

theorem moves_entryNamed (limit : Nat) {fuel : Nat} {name : String} {es : List Entry} {e : Entry} {s : Shape}
    (hes : ∀ e ∈ es, e.IsSound) (hspread : Spread es) (hname : name ∈ keyNames es)
    (hrun : runAt name (opsOf es) .absent = some s)
    (h : entryNamed (limit + 1) fuel name es = .ok e) : Moves name s e := by
  induction fuel generalizing name es e s with
  | zero => cases h
  | succ fuel ih =>
    rw [entryNamed] at h
    split at h
    · next hscattered =>
      obtain ⟨_, hcheck, h⟩ := Except.bind_eq_ok.mp h
      obtain ⟨parts, hmapped, h⟩ := Except.bind_eq_ok.mp h
      cases h
      have htables := isTable_of_scattered hes hspread hscattered hrun
      obtain ⟨hs, hne, hcontents⟩ := contents_of_gathered hes htables (.inl rfl) hrun
      have hparts : List.Forall₂ (fun inner e => Moves inner (s.contents inner) e)
          (names (gathered name es)) parts := by
        refine forall₂_of_mapM hmapped fun inner hinner e he => ?_
        have hat := runOps_singles (fun _ hop => path_ne_nil_of_opsOf hop) hcontents inner
        exact ih (isSound_of_gathered hes) (spread_of_checkJoined hscattered hcheck)
          (List.mem_eraseDups.mp hinner) hat he
      have hall := perm_of_partition Entry.isNested parts
      obtain ⟨hplaced, hperm⟩ := isPlaced_foldl isPlaced_nil
        fun d hd => isPart_of_parts hparts d (hall.mem_iff.mp hd)
      obtain ⟨g, hg, hsame⟩ := runOps_of_moves hcontents hparts (hperm.trans (hall.map _))
      exact moves_joined hs (hne (.inr (mem_keyNames_iff.mp hname))) hplaced hg hsame
    · next hsingle =>
      split at h
      · next d hlast =>
        cases h
        obtain ⟨hnamed, front, back, rfl, hback, -⟩ := exists_of_lastNamed? hlast
        have hfront : ∀ d ∈ front, d.named name = false := by
          intro d hd
          rw [Bool.eq_false_iff]
          intro hname
          have hpositive : 0 < (front.filter (·.named name)).length :=
            List.length_pos_of_mem (List.mem_filter.mpr ⟨hd, hname⟩)
          rw [isScattered, decide_eq_true_eq, List.filter_append, List.filter_cons, if_pos hnamed,
            List.length_append, List.length_cons] at hsingle
          omega
        rw [runAt_single hfront hback] at hrun
        obtain ⟨key, hkey, rfl⟩ : ∃ key, d.key? = some key ∧ key.name = name := by
          simpa [Entry.named, Option.any_eq_true] using hnamed
        exact moves_moved (hes d (List.mem_append_right front List.mem_cons_self)) hkey hrun
      · cases h

/-- The entries of a document, put one after the other, mean what the document means. -/
theorem runOps_of_topEntries {limit : Nat} {es parts : List Entry} {f : Shapes}
    (hes : ∀ e ∈ es, e.IsSound) (hspread : Spread es) (hrun : runOps (opsOf es) Shapes.none = some f)
    (h : topEntries (limit + 1) es = .ok parts) : IsPlaced (parts.foldl place []) ∧
      ∃ g, runOps (opsOf (parts.foldl place [])) Shapes.none = some g ∧
        ∀ name, (g name).meaning? = (f name).meaning? := by
  have hparts : List.Forall₂ (fun name e => Moves name (f name) e) (names es) parts := by
    refine forall₂_of_mapM h fun name hname e he => ?_
    have hat := runOps_singles (fun _ hop => path_ne_nil_of_opsOf hop) hrun name
    exact moves_entryNamed limit hes hspread (List.mem_eraseDups.mp hname) hat he
  obtain ⟨hplaced, hperm⟩ := isPlaced_foldl isPlaced_nil (isPart_of_parts hparts)
  exact ⟨hplaced, runOps_of_moves hrun hparts hperm⟩

end FormatSettings.Toml.Verbatim
