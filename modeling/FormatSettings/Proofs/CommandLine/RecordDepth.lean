import FormatSettings.Proofs.CommandLine.Showing
import FormatSettings.Proofs.Config.Depth

namespace FormatSettings

open Report (ShowsWithin)

variable {k : Nat}

theorem Value.depth_of_mem_elements {v w : Value} {vs : List Value} (h : v.elements? = some vs)
    (hw : w ∈ vs) : w.depth ≤ v.depth := by
  have hitems : w.depth ≤ depthOfItems vs + 1 :=
    Nat.le_succ_of_le (depthOfItems_le_iff.mp (Nat.le_refl _) w hw)
  unfold elements? at h
  split at h
  · cases h
    exact hitems
  · cases h
    exact hitems
  · cases h
    exact hitems
  · cases h
    obtain ⟨e, -, rfl⟩ := List.mem_map.mp hw
    exact Nat.zero_le _
  · obtain ⟨s, -, rfl⟩ := Option.map_eq_some_iff.mp h
    obtain ⟨c, -, rfl⟩ := List.mem_map.mp hw
    exact Nat.zero_le _

theorem Table.mem_of_mem_arranged {keys : List String} {t : Table} {e : String × Value}
    (h : e ∈ arranged keys t) : e ∈ t := by
  obtain ⟨key, -, he⟩ := List.mem_filterMap.mp h
  obtain ⟨v, hv, rfl⟩ := Option.map_eq_some_iff.mp he
  exact mem_of_lookup hv

namespace Draft

structure Within (d : Draft) (k : Nat) : Prop where
  profile : d.profile.depth ≤ k
  settings : ∀ v ∈ d.settings, v.depth ≤ k
  fixes : ∀ v ∈ (d.fixes.getD .empty).others, v.depth ≤ k
  sources : ∀ v ∈ d.sources, v.depth ≤ k

end Draft

theorem FixSet.depth_toValue {s : FixSet} (h : ∀ v ∈ s.others, v.depth ≤ k) (isFrozen : Bool) :
    (s.toValue isFrozen).depth ≤ k + 1 := by
  rw [toValue, Value.depth, Nat.add_le_add_iff_right, Value.depthOfItems_le_iff]
  intro v hv
  rcases List.mem_append.mp hv with hv | hv
  · obtain ⟨f, -, rfl⟩ := List.mem_map.mp hv
    exact Nat.zero_le _
  · exact h v hv

theorem Widths.Draft.depth_toValue {d : Draft} (h : ∀ v ∈ d.values, v.depth ≤ k) :
    d.toValue.depth ≤ k + 1 := by
  rw [toValue, Value.depth, Nat.add_le_add_iff_right, Value.depthOfEntries_le_iff]
  intro e he
  exact h e.2 (List.mem_map_of_mem he)

theorem Style.Draft.depth_toValue {d : Draft} (h : ∀ v ∈ d.values, v.depth ≤ k) :
    d.toValue.depth ≤ k + 1 := by
  rw [toValue, Value.depth, Nat.add_le_add_iff_right, Value.depthOfEntries_le_iff]
  intro e he
  exact h e.2 (List.mem_map_of_mem he)

theorem Options.depth_toValue {o : Options} (h : ∀ v ∈ o.fixes.others, v.depth ≤ k) :
    o.toValue.depth ≤ k + 2 := by
  have hline : o.lineEndingValue.depth ≤ 0 := by
    refine Value.depth_ofOption (fun n => ?_) _
    unfold Newline.toValue
    split <;> exact Nat.zero_le _
  have hfixes := o.fixes.depth_toValue h true
  rw [toValue, Value.depth, Nat.add_le_add_iff_right, Value.depthOfEntries_le_iff]
  simp only [List.forall_mem_cons, List.not_mem_nil, false_implies, implies_true, and_true,
    Value.depth]
  omega

namespace Draft

variable {d : Draft} {args : Table}

theorem Within.depth_style (h : d.Within k) : d.style.toValue.depth ≤ k + 1 :=
  Style.Draft.depth_toValue fun v hv => h.settings v (by simp [Draft.settings, hv])

theorem Within.depth_toValue (h : d.Within k) : d.toValue.depth ≤ k + 2 := by
  have hwidths : d.widths.toValue.depth ≤ k + 1 :=
    Widths.Draft.depth_toValue fun v hv => h.settings v (by simp [Draft.settings, hv])
  have hstyle := h.depth_style
  have hfixes : (Value.ofOption (FixSet.toValue · false) d.fixes).depth ≤ k + 1 := by
    have hothers := h.fixes
    cases hd : d.fixes with
    | none => exact Nat.zero_le _
    | some s =>
      rw [hd] at hothers
      exact s.depth_toValue hothers false
  have hsources := Value.depthOfItems_le_iff.mpr h.sources
  have hsettings := h.settings
  have hprofile := h.profile
  simp only [Draft.settings, List.forall_mem_cons] at hsettings
  rw [toValue, Value.depth, Nat.add_le_add_iff_right, Value.depthOfEntries_le_iff, toTable]
  simp only [List.forall_mem_cons, List.not_mem_nil, false_implies, implies_true, and_true,
    Value.depth]
  omega

theorem showsWithin_steps (h : (Value.table args).depth ≤ k) :
    ∀ step ∈ steps args, ∀ d, (step d).ShowsWithin k := by
  have hvalue (key : String) : (args.valueOf key).depth ≤ k := Nat.le_trans (args.depth_valueOf key) h
  have set (key : String) (f : Value → Step) (d : Draft)
      (hf : ∀ v : Value, v.depth ≤ k → (f v d).ShowsWithin k) : (ifSet args key f d).ShowsWithin k := by
    unfold ifSet
    simp only
    split
    · exact .pure _
    · exact hf _ (hvalue key)
  simp only [steps, scalarSteps, List.cons_append, List.nil_append, List.forall_mem_cons,
    List.not_mem_nil, false_implies, implies_true, and_true]
  refine ⟨fun d => set _ _ d fun v hv => ?_, fun d => set _ _ d fun v hv => .pure _,
    fun d => set _ _ d fun v hv => .pure _, fun d => set _ _ d fun v hv => ?_,
    fun d => set _ _ d fun v hv => .pure _, fun d => ?_, fun d => .pure _⟩
  · exact .bind (Profile.showsWithin_ofToken hv _) fun _ _ => .pure _
  · exact .bind (LineEnding.showsWithin_ofToken hv _) fun _ _ => .pure _
  · unfold fixesStep addFixes
    simp only
    split
    · split
      · exact .fail _
      · next vs hvs =>
        refine .bind (Fix.showsWithin_selected (fun v hv => ?_) _) fun _ _ => .pure _
        exact Nat.le_trans (Value.depth_of_mem_elements hvs (List.mem_of_mem_filter hv)) (hvalue _)
    · exact .pure _

theorem showsWithin_runSteps {steps : List Step} (h : ∀ step ∈ steps, ∀ d, (step d).ShowsWithin k)
    (d : Draft) : (runSteps d steps).2.ShowsWithin k := by
  induction steps generalizing d with
  | nil => exact .pure _
  | cons step rest ih =>
    obtain ⟨hstep, hrest⟩ := List.forall_mem_cons.mp h
    unfold runSteps
    simp only
    split
    · exact hstep d
    · intro n hn
      rcases List.mem_append.mp hn with hn | hn
      · exact hstep d n hn
      · exact ih hrest _ n hn

theorem showsWithin_applyArguments (hargs : (Value.table args).depth ≤ k)
    (hlast : ∀ e, (d.applyArguments args).outcome = .ok e → e.toValue.depth ≤ k) :
    (d.applyArguments args).ShowsWithin k := by
  have hsteps := showsWithin_runSteps (showsWithin_steps hargs)
    { d with sources := d.sources ++ [argumentLayer] }
  -- The draft that is left is shown only after all steps.
  refine .bind (.bind (.note hargs) fun _ _ => .bind hsteps fun _ hok => .note ?_) fun _ _ => .pure _
  refine hlast _ (Report.bind_outcome_eq_ok.mpr ⟨(), ?_, rfl⟩)
  exact Report.bind_outcome_eq_ok.mpr ⟨(), rfl, Report.bind_outcome_eq_ok.mpr ⟨(), hok, rfl⟩⟩

theorem Within.showsWithin_freeze (h : d.Within k) : d.freeze.ShowsWithin (k + 2) := by
  have hbase : d.baseStyle.ShowsWithin (k + 2) := by
    unfold baseStyle styleOf Style.forProfile
    split
    · exact .pure _
    · split
      · exact .pure _
      · exact .pure _
      · exact .bind (.note (Nat.le_trans h.profile (by omega))) fun _ _ => .pure _
  refine .bind hbase fun _ _ => .bind (.ofExcept _) fun _ _ => .bind (.ofExcept _) fun _ _ => ?_
  refine .bind (.note (Nat.le_trans h.depth_style (by omega))) fun _ _ => ?_
  refine .bind (.ofExcept _) fun _ _ => .bind (.ofExcept _) fun o ho => ?_
  have hfixes := Except.ok.inj (Options.ofValues_eq_ok_iff.mp ho).2.2.2.2.2.2
  exact .bind (.note (Options.depth_toValue (hfixes ▸ h.fixes))) fun _ _ => .pure _

end Draft

namespace CommandLine.Given

open Config

variable {g : Given} {layers : List Table} {sources : List Value}

theorem depth_profileOption (p? : Option Profile) : (Value.ofOption .profile p?).depth ≤ 0 :=
  Value.depth_ofOption (fun _ => Nat.le_refl 0) p?

theorem depth_scalarArgument (g : Given) {o : ConfigOption} (hfix : o ≠ .fix) (hconfig : o ≠ .config) :
    (g.argument o).depth ≤ 0 := by
  have text {α : Type} (show_ : α → String) (a? : Option α) :
      (Value.ofOption (fun a => .text (show_ a)) a?).depth ≤ 0 :=
    Value.depth_ofOption (fun _ => Nat.le_refl 0) a?
  have bool (b? : Option Bool) : (Value.ofOption .bool b?).depth ≤ 0 :=
    Value.depth_ofOption (fun _ => Nat.le_refl 0) b?
  have int (i? : Option Int) : (Value.ofOption .int i?).depth ≤ 0 :=
    Value.depth_ofOption (fun _ => Nat.le_refl 0) i?
  cases o with
  | profile => exact depth_profileOption _
  | lineEnding => exact text _ _
  | spaces | tabs => exact bool _
  | fix => exact absurd rfl hfix
  | config => exact absurd rfl hconfig
  | noConfig | pyproject | help => exact Nat.le_refl 0
  | _ => exact int _

theorem depth_argument (g : Given) (o : ConfigOption) : (g.argument o).depth ≤ 1 := by
  have items {α : Type} (wrap : α → Value) (h : ∀ a, (wrap a).depth ≤ 0) (as : List α) :
      Value.depthOfItems (as.map wrap) + 1 ≤ 0 + 1 := by
    rw [Nat.add_le_add_iff_right, Value.depthOfItems_le_iff, List.forall_mem_map]
    exact fun a _ => h a
  by_cases hfix : o = .fix
  · subst hfix
    exact items .fix (fun _ => Nat.le_refl 0) _
  · by_cases hconfig : o = .config
    · subst hconfig
      exact items .text (fun _ => Nat.le_refl 0) _
    · exact Nat.le_succ_of_le (g.depth_scalarArgument hfix hconfig)

theorem depth_arguments (g : Given) : (Value.table g.arguments).depth ≤ 2 := by
  have h : ∀ e ∈ g.arguments, e.2.depth ≤ 1 := by
    intro e he
    have hmem := Table.mem_of_mem_arranged he
    simp only [List.mem_cons, List.not_mem_nil, or_false] at hmem
    rcases hmem with rfl | rfl | rfl | rfl | rfl | rfl | rfl | rfl | rfl | rfl | rfl | rfl | rfl
    exacts [g.depth_argument .profile, g.depth_argument .indent, g.depth_argument .pageWidth,
      g.depth_argument .lineEnding, g.depth_argument .spaces, g.depth_argument .fix,
      g.depth_argument .blockIndent, g.depth_argument .cascadeIndent,
      g.depth_argument .expressionIndent, g.depth_argument .constructorInitializerIndent,
      g.depth_argument .config, g.depth_argument .noConfig, g.depth_argument .pyproject]
  rw [Value.depth]
  exact Nat.succ_le_succ (Value.depthOfEntries_le_iff.mpr h)

theorem depth_arguments_orElse {o : ConfigOption} {key : String} (hkey : o.key? = some key)
    (hfix : o ≠ .fix) (hconfig : o ≠ .config) {v : Value} (hv : v.depth ≤ 0) :
    ((g.arguments.valueOf key).orElse v).depth ≤ 0 := by
  rw [valueOf_arguments hkey]
  exact Value.depth_orElse (g.depth_scalarArgument hfix hconfig) hv

theorem within_draftOver (layers : List Table) (profile : Option Profile) {fixes : Option FixSet}
    (hsources : ∀ v ∈ sources, v.depth ≤ 0) (hothers : (fixes.getD .empty).others = []) :
    (g.draftOver layers sources profile fixes).Within 0 where
  profile := depth_profileOption _
  settings := by
    have int (name key : String) : (Value.ofOption .int (lastOf layers (intIn? name key))).depth ≤ 0 :=
      Value.depth_ofOption (fun _ => Nat.le_refl 0) _
    have flag (name key : String) :
        (Value.ofOption .bool (lastOf layers (flagIn? name key))).depth ≤ 0 :=
      Value.depth_ofOption (fun _ => Nat.le_refl 0) _
    have number {o : ConfigOption} {key : String} (hkey : o.key? = some key)
        (hinteger : isIntegerOption o = true) (name inFile : String) := by
      have hfix : o ≠ .fix := by
        rintro rfl
        cases hinteger
      have hconfig : o ≠ .config := by
        rintro rfl
        cases hinteger
      exact depth_arguments_orElse (g := g) hkey hfix hconfig (int name inFile)
    simp only [Draft.settings, Widths.Draft.values, Style.Draft.values, List.cons_append,
      List.nil_append, List.forall_mem_cons, List.not_mem_nil, false_implies, implies_true, and_true]
    refine ⟨number (o := .indent) rfl rfl _ _, number (o := .pageWidth) rfl rfl _ _, ?_,
      depth_arguments_orElse (o := .spaces) rfl (by decide) (by decide) (flag _ _),
      number (o := .blockIndent) rfl rfl _ _, number (o := .cascadeIndent) rfl rfl _ _,
      number (o := .expressionIndent) rfl rfl _ _,
      number (o := .constructorInitializerIndent) rfl rfl _ _, flag _ _, flag _ _, flag _ _,
      flag _ _, flag _ _⟩
    change (Draft.lineEndingAfter g.arguments (lastDraft layers sources).lineEnding).depth ≤ 0
    rw [lineEndingAfter_arguments]
    exact Value.depth_ofOption (fun _ => Nat.le_refl 0) _
  fixes := by
    change ∀ v ∈ (fixes.getD .empty).others, _
    rw [hothers]
    exact List.forall_mem_nil _
  sources := by
    intro v hv
    rcases List.mem_append.mp hv with hv | hv
    · exact hsources v hv
    · rw [List.mem_singleton.mp hv]
      exact Nat.le_refl 0

end CommandLine.Given

namespace CommandLine

open Config

variable [Host]

theorem showsWithin_options {g : Given} {d : Disk} (hdocuments : DocumentsWithin d k) (hk : 2 ≤ k) :
    (g.request.options d).ShowsWithin k := by
  refine .bind (.ofExcept _) fun profile hprofile => .bind (.ofExcept _) fun fixes hfixes => ?_
  obtain ⟨rfl, -⟩ := Given.profile?_of_validate hprofile
  obtain ⟨rfl, -⟩ := Given.fixes_of_validate hfixes
  refine .bind (showsWithin_loadMerged hdocuments (by omega) _ _ _) fun merged hmerged => ?_
  have hsources := depth_sources_loadMerged hmerged
  obtain ⟨files, sources, -, rfl⟩ := loadMerged_eq_ok hmerged
  obtain ⟨fixes, happly, hothers⟩ := g.applyArguments_lastDraft (layersOf d files) sources
  have hwithin := g.within_draftOver (layersOf d files) (g.profileOver (layersOf d files)) hsources hothers
  have hlayers : (Request.layersText (g.draftOver _ sources _ fixes)).depth ≤ 0 + 1 :=
    Nat.succ_le_succ (Value.depthOfItems_le_iff.mpr hwithin.sources)
  refine .bind (Draft.showsWithin_applyArguments (Nat.le_trans g.depth_arguments hk) ?_) ?_
  · intro e he
    cases happly.symm.trans he
    exact Nat.le_trans hwithin.depth_toValue hk
  · intro e he
    cases happly.symm.trans he
    refine .bind (.note (Nat.le_trans hlayers (by omega))) fun _ _ => ?_
    exact fun n hn => Nat.le_trans (hwithin.showsWithin_freeze n hn) hk

end CommandLine

end FormatSettings
