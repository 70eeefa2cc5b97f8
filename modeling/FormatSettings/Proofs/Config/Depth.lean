import FormatSettings.Proofs.Config.Layering

/-!
How deeply the values are nested that the records of loading show. None of them is deeper than the document
it comes from.
-/

namespace FormatSettings

namespace Value

theorem depthOfItems_le_iff {vs : List Value} {k : Nat} :
    depthOfItems vs ≤ k ↔ ∀ v ∈ vs, v.depth ≤ k := by
  induction vs with
  | nil => simp [depthOfItems]
  | cons v vs ih => rw [depthOfItems, Nat.max_le, ih, List.forall_mem_cons]

theorem depthOfEntries_le_iff {entries : Table} {k : Nat} :
    depthOfEntries entries ≤ k ↔ ∀ e ∈ entries, e.2.depth ≤ k := by
  induction entries with
  | nil => simp [depthOfEntries]
  | cons e entries ih => rw [depthOfEntries, Nat.max_le, ih, List.forall_mem_cons]

theorem depth_ofOption {α : Type} {wrap : α → Value} {k : Nat} (h : ∀ a, (wrap a).depth ≤ k)
    (a? : Option α) : (ofOption wrap a?).depth ≤ k := by
  cases a? with
  | none => exact Nat.zero_le _
  | some a => exact h a

theorem depth_orElse {v w : Value} {k : Nat} (hv : v.depth ≤ k) (hw : w.depth ≤ k) :
    (v.orElse w).depth ≤ k := by
  unfold orElse
  split
  · exact hw
  · exact hv

end Value

namespace Table

theorem depth_of_mem {t : Table} {e : String × Value} (h : e ∈ t) :
    e.2.depth ≤ (Value.table t).depth := by
  rw [Value.depth]
  exact Nat.le_succ_of_le (Value.depthOfEntries_le_iff.mp (Nat.le_refl _) e h)

theorem depth_of_lookup {t : Table} {key : String} {v : Value} (h : t.lookup key = some v) :
    v.depth ≤ (Value.table t).depth :=
  depth_of_mem (mem_of_lookup h)

theorem depth_valueOf (t : Table) (key : String) : (t.valueOf key).depth ≤ (Value.table t).depth := by
  rw [valueOf]
  cases h : t.lookup key with
  | none => simp [Value.depth]
  | some v => exact depth_of_lookup h

theorem depth_tableAt (t : Table) (key : String) :
    (Value.table (t.tableAt key)).depth ≤ (Value.table t).depth := by
  have hvalue := t.depth_valueOf key
  unfold tableAt
  split
  · next entries h =>
    rw [h] at hvalue
    exact hvalue
  · simp [Value.depth, Value.depthOfEntries]

theorem depth_of_mem_listAt {t : Table} {key : String} {v : Value} (h : v ∈ t.listAt key) :
    v.depth ≤ (Value.table t).depth := by
  have hvalue := t.depth_valueOf key
  unfold listAt at h
  split at h
  · next vs hvs =>
    rw [hvs, Value.depth] at hvalue
    exact Nat.le_trans (Value.depthOfItems_le_iff.mp (Nat.le_refl _) v h) (Nat.le_of_succ_le hvalue)
  · cases h

end Table

namespace Report

variable {α β : Type} {k : Nat}

def ShowsWithin (k : Nat) (r : Report α) : Prop :=
  ∀ n ∈ r.notices, n.message.depth ≤ k

namespace ShowsWithin

theorem of_nil {r : Report α} (h : r.notices = []) : r.ShowsWithin k := by
  rw [ShowsWithin, h]
  nofun

theorem pure (a : α) : (Pure.pure a : Report α).ShowsWithin k :=
  .of_nil rfl

theorem fail (e : Failure) : (Report.fail e : Report α).ShowsWithin k :=
  .of_nil rfl

theorem ofExcept (e : Except Failure α) : (Report.ofExcept e).ShowsWithin k :=
  .of_nil rfl

theorem note {severity : Severity} {message : Message} (h : message.depth ≤ k) :
    (Report.note severity message).ShowsWithin k := by
  intro n hn
  rw [List.mem_singleton.mp hn]
  exact h

theorem bind {r : Report α} {f : α → Report β} (hr : r.ShowsWithin k)
    (hf : ∀ a, r.outcome = .ok a → (f a).ShowsWithin k) : (r >>= f).ShowsWithin k := by
  change (r.bind f).ShowsWithin k
  unfold Report.bind
  cases h : r.outcome with
  | error e => exact hr
  | ok a =>
    intro n hn
    rcases List.mem_append.mp hn with hn | hn
    · exact hr n hn
    · exact hf a h n hn

end ShowsWithin

end Report

open Report

variable {k : Nat} {t : Table}

theorem Fix.showsWithin_selected {vs : List Value} (h : ∀ v ∈ vs, v.depth ≤ k) (source : String) :
    (selected source vs).ShowsWithin k := by
  induction vs with
  | nil => exact .pure _
  | cons v vs ih =>
    obtain ⟨hv, hvs⟩ := List.forall_mem_cons.mp h
    refine .bind (.ofExcept _) fun token _ => ?_
    split
    · exact .bind (ih hvs) fun _ _ => .pure _
    · exact .bind (.note hv) fun _ _ => ih hvs

theorem Profile.showsWithin_ofToken {v : Value} (h : v.depth ≤ k) (source : String) :
    (ofToken v source).ShowsWithin k := by
  unfold ofToken
  split
  · exact .pure _
  · split
    · exact .fail _
    · exact .pure _
    · exact .bind (.note h) fun _ _ => .pure _

theorem LineEnding.showsWithin_ofToken {v : Value} (h : v.depth ≤ k) (source : String) :
    (ofToken v source).ShowsWithin k := by
  unfold ofToken
  split
  · exact .pure _
  · split
    · exact .pure _
    · exact .bind (.note h) fun _ _ => .pure _

namespace Table

theorem showsWithin_readFlag (h : (Value.table t).depth ≤ k) (key : String) :
    (t.readFlag key).ShowsWithin k := by
  unfold readFlag
  split
  · exact .pure _
  · exact .pure _
  · exact .bind (.note (Nat.le_trans (t.depth_valueOf key) h)) fun _ _ => .pure _

theorem showsWithin_readInt (h : (Value.table t).depth ≤ k) (key : String) :
    (t.readInt key).ShowsWithin k := by
  unfold readInt
  split
  · exact .pure _
  · exact .pure _
  · exact .bind (.note (Nat.le_trans (t.depth_valueOf key) h)) fun _ _ => .pure _

theorem showsWithin_readStyleFlag (h : (Value.table t).depth ≤ k) (key : String) :
    (t.readStyleFlag key).ShowsWithin k := by
  unfold readStyleFlag
  split
  · exact .pure _
  · exact .pure _
  · next v _ hv => exact .bind (.note (Nat.le_trans (depth_of_lookup hv) h)) fun _ _ => .pure _

end Table

namespace Draft

theorem showsWithin_readProfile (h : (Value.table t).depth ≤ k) (source : String) :
    (readProfile t source).ShowsWithin k := by
  unfold readProfile
  split
  · exact .pure _
  · next v hv =>
    have hdepth := Nat.le_trans (Table.depth_of_lookup hv) h
    exact .bind (Profile.showsWithin_ofToken hdepth source) fun _ _ => .pure _

theorem showsWithin_readLineEnding (h : (Value.table t).depth ≤ k) (source : String) :
    (readLineEnding t source).ShowsWithin k := by
  have hdepth := Nat.le_trans (t.depth_valueOf Key.lineEnding) h
  unfold readLineEnding
  simp only
  split
  · exact .bind (LineEnding.showsWithin_ofToken hdepth source) fun _ _ => .pure _
  · split
    · exact .pure _
    · exact .bind (.note hdepth) fun _ _ => .pure _

theorem showsWithin_readFixes (h : (Value.table t).depth ≤ k) (source : String) :
    (readFixes t source).ShowsWithin k := by
  unfold readFixes
  split
  · refine .bind (.bind (Fix.showsWithin_selected ?_ source) fun _ _ => .pure _) fun _ _ => .pure _
    exact fun v hv => Nat.le_trans (Table.depth_of_mem_listAt hv) h
  · exact .pure _

theorem showsWithin_ofTable (h : (Value.table t).depth ≤ k) (file : Option String) :
    (ofTable t file).ShowsWithin k := by
  have section_ (name : String) : (Value.table (t.tableAt name)).depth ≤ k :=
    Nat.le_trans (t.depth_tableAt name) h
  have int (name key : String) : ((t.tableAt name).readInt key).ShowsWithin k :=
    Table.showsWithin_readInt (section_ name) key
  have flag (key : String) : ((t.tableAt Key.style).readStyleFlag key).ShowsWithin k :=
    Table.showsWithin_readStyleFlag (section_ Key.style) key
  have widths : (Widths.Draft.ofTable (t.tableAt Key.indent)).ShowsWithin k :=
    .bind (int _ _) fun _ _ => .bind (int _ _) fun _ _ => .bind (int _ _) fun _ _ =>
      .bind (int _ _) fun _ _ => .pure _
  have style : (Style.Draft.ofTable (t.tableAt Key.style)).ShowsWithin k :=
    .bind (flag _) fun _ _ => .bind (flag _) fun _ _ => .bind (flag _) fun _ _ =>
      .bind (flag _) fun _ _ => .bind (flag _) fun _ _ => .pure _
  refine .bind (.note (section_ _)) fun _ _ => .bind (.note (section_ _)) fun _ _ =>
    .bind (.note (section_ _)) fun _ _ => ?_
  refine .bind widths fun _ _ => .bind style fun _ _ => ?_
  refine .bind (showsWithin_readProfile (section_ _) _) fun _ _ => ?_
  refine .bind (int _ _) fun _ _ => .bind (int _ _) fun _ _ => ?_
  refine .bind (Table.showsWithin_readFlag (section_ _) _) fun _ _ => ?_
  refine .bind (showsWithin_readLineEnding (section_ _) _) fun _ _ => ?_
  exact .bind (showsWithin_readFixes (section_ _) _) fun _ _ => .pure _

end Draft

namespace Config

theorem Reads.depth_sources {t : Table} {e : Draft} (h : Reads t e) : ∀ v ∈ e.sources, v.depth ≤ 0 := by
  obtain ⟨file, h⟩ := h
  rw [Draft.outcome_ofTable] at h
  cases hp : (t.tableAt Key.formatting).readableProfile? with
  | error fault =>
    rw [hp] at h
    cases h
  | ok profile =>
    rw [hp] at h
    cases h
    intro v hv
    obtain ⟨name, -, rfl⟩ := List.mem_map.mp hv
    exact Nat.le_refl 0

theorem sources_foldl_merge (layers : List Draft) (e : Draft) :
    (layers.foldl Draft.merge e).sources = e.sources ++ layers.flatMap (·.sources) := by
  induction layers generalizing e with
  | nil => exact (List.append_nil _).symm
  | cons layer rest ih =>
    rw [List.foldl_cons, ih, List.flatMap_cons, ← List.append_assoc]
    rfl

theorem depth_sources_of_reads {layers : List Table} {drafts : List Draft}
    (h : List.Forall₂ Reads layers drafts) : ∀ v ∈ drafts.flatMap (·.sources), v.depth ≤ 0 := by
  induction h with
  | nil => nofun
  | cons hread _ ih =>
    rw [List.flatMap_cons, List.forall_mem_append]
    exact ⟨hread.depth_sources, ih⟩

variable [Host] {d : Disk}

theorem showsWithin_load (d : Disk) (p : Path) : (load d p).ShowsWithin k := by
  unfold load
  split
  · exact .fail _
  · split
    · exact .bind (.note (Nat.zero_le _)) fun _ _ => .pure _
    · split
      · exact .fail _
      · split
        · exact .pure _
        · exact .bind (.note (Nat.zero_le _)) fun _ _ => .pure _
        · exact .fail _

theorem showsWithin_discover (d : Disk) (start : Path) : (discover d start).ShowsWithin k := by
  have hfile (directory : List String) : (fileIn d directory).ShowsWithin k := by
    refine .bind (.ofExcept _) fun own _ => ?_
    split
    · exact .pure _
    · refine .bind (.ofExcept _) fun shared _ => ?_
      split
      · exact .bind (showsWithin_load _ _) fun _ _ => .pure _
      · exact .pure _
  have hfirst (directories : List (List String)) : (firstIn d directories).ShowsWithin k := by
    induction directories with
    | nil => exact .pure _
    | cons directory rest ih =>
      refine .bind (hfile directory) fun found _ => ?_
      cases found with
      | none => exact ih
      | some p => exact .bind (.note (Nat.zero_le _)) fun _ _ => .pure _
  have hsearch : (Report.ofExcept (d.resolve start) >>= fun place =>
      Report.ofExcept (startDirectory d place) >>= fun directory =>
        firstIn d (upward directory)).ShowsWithin k :=
    .bind (.ofExcept _) fun _ _ => .bind (.ofExcept _) fun _ _ => hfirst _
  unfold discover
  split
  · exact .bind (.fail _) fun _ _ => hsearch
  · exact hsearch

/-- No document on a disk is nested more deeply than so. -/
def DocumentsWithin (d : Disk) (k : Nat) : Prop :=
  ∀ p t, document? d p = some t → (Value.table t).depth ≤ k

theorem DocumentsWithin.depth_of_load (h : DocumentsWithin d k) (hk : 0 < k) {p : Path} {t : Table}
    (ht : (load d p).outcome = .ok t) : (Value.table t).depth ≤ k := by
  rw [load_eq_ok ht]
  cases hdocument : document? d p with
  | none => exact hk
  | some t => exact h p t hdocument

theorem showsWithin_loadDraft (h : DocumentsWithin d k) (hk : 0 < k) (p : Path) :
    (loadDraft d p).ShowsWithin k := by
  refine .bind (.note (Nat.zero_le _)) fun _ _ => .bind (showsWithin_load d p) fun t ht => ?_
  have hdepth := h.depth_of_load hk ht
  have hown : (Value.table (ownTable t)).depth ≤ k :=
    Nat.le_trans (Table.depth_tableAt _ _) (Nat.le_trans (t.depth_tableAt _) hdepth)
  split
  · simp only
    split
    · exact .bind (.note (Nat.zero_le _)) fun _ _ => .pure _
    · exact .bind (Draft.showsWithin_ofTable hown _) fun _ _ => .pure _
  · exact .bind (Draft.showsWithin_ofTable hdepth _) fun _ _ => .pure _

theorem showsWithin_loadAll (h : DocumentsWithin d k) (hk : 0 < k) (files : List Path) :
    (loadAll d files).ShowsWithin k := by
  induction files with
  | nil => exact .pure _
  | cons p rest ih =>
    exact .bind (showsWithin_loadDraft h hk p) fun _ _ => .bind ih fun _ _ => .pure _

theorem showsWithin_loadMerged (h : DocumentsWithin d k) (hk : 0 < k) (start : Path)
    (noDiscovery : Bool) (extra : List Path) :
    (loadMerged d start noDiscovery extra).ShowsWithin k := by
  have hextra := showsWithin_loadAll h hk extra
  have hfound : (discoveredLayers d start).ShowsWithin k := by
    refine .bind (showsWithin_discover d start) fun found _ => ?_
    cases found with
    | none => exact .pure _
    | some p => exact showsWithin_loadAll h hk [p]
  cases noDiscovery with
  | true => exact .bind (.pure _) fun _ _ => .bind hextra fun _ _ => .pure _
  | false => exact .bind hfound fun _ _ => .bind hextra fun _ _ => .pure _

theorem depth_sources_loadMerged {start : Path} {noDiscovery : Bool} {extra : List Path} {e : Draft}
    (h : (loadMerged d start noDiscovery extra).outcome = .ok e) : ∀ v ∈ e.sources, v.depth ≤ 0 := by
  obtain ⟨file?, found, more, -, hfound, hmore, rfl⟩ := loadMerged_parts h
  rw [mergeAll, sources_foldl_merge]
  exact depth_sources_of_reads (List.rel_append (loadAll_eq_ok hfound) (loadAll_eq_ok hmore))

end Config

end FormatSettings
