import FormatSettings.Proofs.Draft.Merging
import FormatSettings.Proofs.Table

namespace FormatSettings

theorem Value.elements_ne_nil {v : Value} {vs : List Value} (h : v.holds = true)
    (hvs : v.elements? = some vs) : vs ≠ [] := by
  rintro rfl
  cases v with
  | list vs => cases hvs; cases h
  | tuple vs => cases hvs; cases h
  | set isFrozen vs => cases hvs; cases h
  | table entries =>
    cases List.map_eq_nil_iff.mp (Option.some.inj hvs)
    cases h
  | text s =>
    have hs : s.toList = [] := List.map_eq_nil_iff.mp (Option.some.inj hvs)
    simp [holds, String.toList_eq_nil_iff.mp hs] at h
  | fix f => cases f <;> cases hvs
  | lineEnding e => cases e <;> cases hvs
  | _ => cases hvs

/-- The fix is one of the values, or a value that is no fix selects it by its text. -/
def Fix.IsAmong (f : Fix) (vs : List Value) : Prop :=
  .fix f ∈ vs ∨ ∃ v ∈ vs, Draft.isFix v = false ∧ parse? v.tokenText = some f

theorem Fix.isAmong_append (f : Fix) (vs ws : List Value) :
    f.IsAmong (vs ++ ws) ↔ f.IsAmong vs ∨ f.IsAmong ws := by
  simp only [IsAmong, List.mem_append, or_and_right, exists_or]
  exact or_or_or_comm

namespace Draft

theorem mem_givenFixes {vs : List Value} {f : Fix} : f ∈ givenFixes vs ↔ .fix f ∈ vs := by
  rw [givenFixes, List.mem_filterMap]
  constructor
  · rintro ⟨v, hv, hf⟩
    cases v with
    | fix g =>
      cases hf
      exact hv
    | _ => cases hf
  · intro hf
    exact ⟨_, hf, rfl⟩

theorem has_addedFixes {vs : List Value} {f : Fix} : (addedFixes vs).has f = true ↔ f.IsAmong vs := by
  change List.contains _ f = true ↔ _
  rw [List.contains_iff_mem, List.mem_append, mem_givenFixes, List.mem_filterMap]
  simp only [Fix.IsAmong, List.mem_filter, Bool.not_eq_true', and_assoc]

theorem addedFixes_eq {vs : List Value} {t : FixSet} (ht : t.others = [])
    (h : ∀ f : Fix, t.has f = true ↔ f.IsAmong vs) : addedFixes vs = t := by
  obtain ⟨has, others⟩ := t
  cases ht
  change FixSet.mk (addedFixes vs).has [] = _
  congr 1
  funext f
  rw [Bool.eq_iff_iff, has_addedFixes, h]

def withFixes (before : Option FixSet) (vs : List Value) : Option FixSet :=
  if vs.isEmpty then before else some ((before.getD .empty).union (addedFixes vs))

theorem withFixes_append (before : Option FixSet) (vs ws : List Value) :
    withFixes (withFixes before vs) ws = withFixes before (vs ++ ws) := by
  cases vs with
  | nil => rfl
  | cons v vs =>
    cases ws with
    | nil => rw [List.append_nil, withFixes, List.isEmpty_nil, if_pos rfl]
    | cons w ws =>
      have hadded : addedFixes (v :: vs ++ w :: ws) =
          ⟨fun f => (addedFixes (v :: vs)).has f || (addedFixes (w :: ws)).has f, []⟩ := by
        apply addedFixes_eq rfl
        intro f
        rw [Bool.or_eq_true_iff, has_addedFixes, has_addedFixes, Fix.isAmong_append]
      change some (FixSet.union (FixSet.union _ _) _) = some (FixSet.union _ _)
      rw [FixSet.union_union rfl rfl, hadded]

theorem withFixes_congr {vs ws : List Value} (h : ∀ v, v ∈ vs ↔ v ∈ ws) (before : Option FixSet) :
    withFixes before vs = withFixes before ws := by
  have hempty : vs.isEmpty = ws.isEmpty := by
    rw [Bool.eq_iff_iff, List.isEmpty_iff, List.isEmpty_iff]
    simp only [List.eq_nil_iff_forall_not_mem, h]
  have hadded : addedFixes vs = addedFixes ws := by
    apply addedFixes_eq rfl
    intro f
    rw [has_addedFixes]
    simp only [Fix.IsAmong, h]
  rw [withFixes, withFixes, hempty, hadded]

theorem exists_withFixes {vs : List Value} (h : vs ≠ []) (before : Option FixSet) :
    ∃ s, withFixes before vs = some s ∧ s.others = (before.getD .empty).others ∧
      ∀ f : Fix, s.holds f = true ↔ (before.getD .empty).holds f = true ∨ f.IsAmong vs := by
  refine ⟨_, if_neg (by simpa using h), ?_, ?_⟩
  · rw [FixSet.union_eq rfl]
  · intro f
    rw [FixSet.holds_union rfl, Bool.or_eq_true_iff, has_addedFixes]

end Draft

namespace Table

variable {x y z : Table}

def fixTokens? (t : Table) : Option (List Value) :=
  let v := t.valueOf Key.fixes
  if v.holds then v.elements? else some []

/-- The arguments `z` hold what `y` holds and else what `x` holds, and the fixes of both. -/
structure IsOverlay (x y z : Table) : Prop where
  values : ∀ key, key ≠ Key.fixes → z.valueOf key = (y.valueOf key).orElse (x.valueOf key)
  fixes : ∃ xs ys zs, x.fixTokens? = some xs ∧ y.fixTokens? = some ys ∧ z.fixTokens? = some zs ∧
    ∀ v, v ∈ zs ↔ v ∈ xs ++ ys

def overlay (x y : Table) : Table :=
  (Key.fixes, .list (x.fixTokens?.getD [] ++ y.fixTokens?.getD [])) ::
    (x ++ y).map fun e => (e.1, (y.valueOf e.1).orElse (x.valueOf e.1))

theorem valueOf_overlay {key : String} (h : key ≠ Key.fixes) (x y : Table) :
    (x.overlay y).valueOf key = (y.valueOf key).orElse (x.valueOf key) := by
  rw [valueOf, overlay, List.lookup_cons, beq_false_of_ne h]
  change (List.lookup key ((x ++ y).map _)).getD Value.null = _
  rw [lookup_map_entries fun key _ => (y.valueOf key).orElse (x.valueOf key)]
  cases hlookup : List.lookup key (x ++ y) with
  | some v => rfl
  | none =>
    rw [List.lookup_append, Option.or_eq_none_iff] at hlookup
    rw [valueOf, valueOf, hlookup.1, hlookup.2]
    rfl

theorem fixTokens?_overlay (x y : Table) :
    (x.overlay y).fixTokens? = some (x.fixTokens?.getD [] ++ y.fixTokens?.getD []) := by
  have hvalue : (x.overlay y).valueOf Key.fixes =
      .list (x.fixTokens?.getD [] ++ y.fixTokens?.getD []) := rfl
  rw [fixTokens?, hvalue]
  cases x.fixTokens?.getD [] ++ y.fixTokens?.getD [] <;> rfl

theorem isOverlay_self {xs : List Value} (hx : x.fixTokens? = some xs) : x.IsOverlay x x where
  values key _ := (Value.orElse_self _).symm
  fixes := by
    refine ⟨xs, xs, xs, hx, hx, hx, ?_⟩
    intro v
    rw [List.mem_append, or_self]

theorem isOverlay_overlay {xs ys : List Value} (hx : x.fixTokens? = some xs)
    (hy : y.fixTokens? = some ys) : x.IsOverlay y (x.overlay y) where
  values _ h := valueOf_overlay h x y
  fixes := by
    refine ⟨xs, ys, xs ++ ys, hx, hy, ?_, fun _ => Iff.rfl⟩
    rw [fixTokens?_overlay, hx, hy]
    rfl

end Table

namespace Draft

variable {x y z : Table}

theorem fixesAfter_eq_ok_iff {args : Table} {before after : Option FixSet} :
    fixesAfter args before = .ok after ↔
      ∃ vs, args.fixTokens? = some vs ∧ Value.areWritable vs = true ∧ withFixes before vs = after := by
  unfold fixesAfter Table.fixTokens?
  cases hholds : (args.valueOf Key.fixes).holds with
  | false => simp [hholds, withFixes, Value.areWritable]
  | true =>
    cases hvs : (args.valueOf Key.fixes).elements? with
    | none => simp [hholds, hvs]
    | some vs =>
      cases hwritable : Value.areWritable vs with
      | true => simp [hholds, hvs, hwritable, withFixes, Value.elements_ne_nil hholds hvs]
      | false => simp [hholds, hvs, hwritable]

theorem profileAfter_orElse {before p q : Value}
    (h : z.valueOf Key.profile = (y.valueOf Key.profile).orElse (x.valueOf Key.profile))
    (hx : profileAfter x before = .ok p) (hy : profileAfter y p = .ok q) :
    profileAfter z before = .ok q := by
  unfold profileAfter at hy ⊢
  rw [h]
  cases hnull : (y.valueOf Key.profile).isNull with
  | true =>
    simp only [hnull, ↓reduceIte, Except.ok.injEq] at hy
    rw [Value.orElse_of_isNull hnull, ← hy]
    exact hx
  | false =>
    rw [Value.orElse_of_not_isNull hnull]
    simpa only [hnull, Bool.false_eq_true, ↓reduceIte] using hy

theorem lineEndingAfter_orElse
    (h : z.valueOf Key.lineEnding = (y.valueOf Key.lineEnding).orElse (x.valueOf Key.lineEnding))
    (before : Value) : lineEndingAfter z before = lineEndingAfter y (lineEndingAfter x before) := by
  unfold lineEndingAfter
  rw [h]
  cases hnull : (y.valueOf Key.lineEnding).isNull with
  | true => simp only [Value.orElse_of_isNull hnull, hnull, ↓reduceIte]
  | false => simp only [Value.orElse_of_not_isNull hnull, hnull, Bool.false_eq_true, ↓reduceIte]

theorem widthArguments_merge (h : x.IsOverlay y z) :
    widthArguments z = (widthArguments x).merge (widthArguments y) := by
  rw [widthArguments, h.values _ (by decide), h.values _ (by decide), h.values _ (by decide),
    h.values _ (by decide)]
  rfl

theorem patched_patched (h : x.IsOverlay y z) (d : Draft) (p q : Value) (f g : Option FixSet) :
    (d.patched x p f).patched y q g =
      { d.patched z q g with sources := (d.patched z q g).sources ++ [argumentLayer] } := by
  have hline := lineEndingAfter_orElse (h.values Key.lineEnding (by decide)) d.lineEnding
  simp only [patched, h.values Key.indent (by decide), h.values Key.pageWidth (by decide),
    h.values Key.insertSpaces (by decide), hline, widthArguments_merge h, Value.orElse_assoc,
    Widths.Draft.merge_assoc]

theorem applyArguments_overlay (h : x.IsOverlay y z) {b mid last : Draft}
    (hx : (b.applyArguments x).outcome = .ok mid) (hy : (mid.applyArguments y).outcome = .ok last) :
    ∃ once, (b.applyArguments z).outcome = .ok once ∧
      last = { once with sources := once.sources ++ [argumentLayer] } := by
  obtain ⟨p, f, hp, hf, rfl⟩ := applyArguments_eq_ok hx
  obtain ⟨q, g, hq, hg, rfl⟩ := applyArguments_eq_ok hy
  obtain ⟨xs, ys, zs, hxs, hys, hzs, hmem⟩ := h.fixes
  -- The profile and the fixes are read anew; every other field follows from the values.
  have hprofile : profileAfter z b.profile = .ok q :=
    profileAfter_orElse (h.values _ (by decide)) hp hq
  have hfixes : fixesAfter z b.fixes = .ok g := by
    obtain ⟨_, hxs', hxwritable, rfl⟩ := fixesAfter_eq_ok_iff.mp hf
    obtain ⟨_, hys', hywritable, rfl⟩ := fixesAfter_eq_ok_iff.mp hg
    cases hxs.symm.trans hxs'
    cases hys.symm.trans hys'
    rw [Value.areWritable_iff] at hxwritable hywritable
    have hwritable : ∀ v ∈ zs, v.isWritable = true := by
      intro v hv
      rcases List.mem_append.mp ((hmem v).mp hv) with hx | hy
      · exact hxwritable v hx
      · exact hywritable v hy
    refine fixesAfter_eq_ok_iff.mpr ⟨zs, hzs, Value.areWritable_iff.mpr hwritable, ?_⟩
    change _ = withFixes (withFixes b.fixes xs) ys
    rw [withFixes_append]
    exact withFixes_congr hmem b.fixes
  refine ⟨b.patched z q g, ?_, patched_patched h b p q f g⟩
  rw [outcome_applyArguments, hprofile, hfixes]
  rfl

theorem exists_fixTokens {b mid : Draft} (h : (b.applyArguments x).outcome = .ok mid) :
    ∃ xs, x.fixTokens? = some xs ∧ Value.areWritable xs = true := by
  obtain ⟨_, _, -, hf, -⟩ := applyArguments_eq_ok h
  obtain ⟨xs, hxs, hwritable, -⟩ := fixesAfter_eq_ok_iff.mp hf
  exact ⟨xs, hxs, hwritable⟩

theorem exists_applyArguments {b mid : Draft} (h : (b.applyArguments x).outcome = .ok mid)
    (d : Draft) : ∃ e, (d.applyArguments x).outcome = .ok e := by
  obtain ⟨p, _, hp, -, -⟩ := applyArguments_eq_ok h
  obtain ⟨xs, hxs, hwritable⟩ := exists_fixTokens h
  have hprofile : ∃ q, profileAfter x d.profile = .ok q := by
    unfold profileAfter at hp ⊢
    cases hnull : (x.valueOf Key.profile).isNull with
    | true => exact ⟨d.profile, by simp only [hnull, ↓reduceIte]⟩
    | false => exact ⟨p, by simpa only [hnull, Bool.false_eq_true, ↓reduceIte] using hp⟩
  obtain ⟨q, hq⟩ := hprofile
  refine ⟨d.patched x q (withFixes d.fixes xs), ?_⟩
  rw [outcome_applyArguments, hq, fixesAfter_eq_ok_iff.mpr ⟨xs, hxs, hwritable, rfl⟩]
  rfl

theorem applyArguments_again {b mid : Draft} (h : (b.applyArguments x).outcome = .ok mid) :
    (mid.applyArguments x).outcome = .ok { mid with sources := mid.sources ++ [argumentLayer] } := by
  -- Arguments are an overlay of themselves, since it does not count how often a fix is given.
  obtain ⟨xs, hxs, -⟩ := exists_fixTokens h
  obtain ⟨last, hlast⟩ := exists_applyArguments h mid
  obtain ⟨once, honce, rfl⟩ := applyArguments_overlay (Table.isOverlay_self hxs) h hlast
  cases h.symm.trans honce
  exact hlast

/-- What arguments make of a draft: a field whose argument is missing or null is kept, any other value
is put in, and fixes are added to those that are there. -/
structure IsPatched (args : Table) (before after : Draft) : Prop where
  profile_kept : args.valueOf Key.profile = .null → after.profile = before.profile
  profile_set : args.valueOf Key.profile ≠ .null → ∃ p,
    (Profile.ofToken (args.valueOf Key.profile) argumentSource).outcome = .ok p ∧
      after.profile = .profile p
  indent : after.indent = (args.valueOf Key.indent).orElse before.indent
  pageWidth : after.pageWidth = (args.valueOf Key.pageWidth).orElse before.pageWidth
  lineEnding_kept : args.valueOf Key.lineEnding = .null → after.lineEnding = before.lineEnding
  lineEnding_set : args.valueOf Key.lineEnding ≠ .null → after.lineEnding =
    Value.ofOption (fun e => .text e.newline) (LineEnding.selected? (args.valueOf Key.lineEnding))
  insertSpaces : after.insertSpaces = (args.valueOf Key.insertSpaces).orElse before.insertSpaces
  block : after.widths.block = (args.valueOf Key.blockIndent).orElse before.widths.block
  cascade : after.widths.cascade = (args.valueOf Key.cascadeIndent).orElse before.widths.cascade
  expression :
    after.widths.expression = (args.valueOf Key.expressionIndent).orElse before.widths.expression
  constructorInitializer : after.widths.constructorInitializer =
    (args.valueOf Key.constructorInitializerIndent).orElse before.widths.constructorInitializer
  style : after.style = before.style
  fixes_kept : args.fixTokens? = some [] → after.fixes = before.fixes
  fixes_added : ∀ vs, args.fixTokens? = some vs → vs ≠ [] → ∃ s, after.fixes = some s ∧
    s.others = (before.fixes.getD .empty).others ∧
    ∀ f : Fix, s.holds f = true ↔ (before.fixes.getD .empty).holds f = true ∨ f.IsAmong vs
  sources : after.sources = before.sources ++ [argumentLayer]

theorem isPatched_of_applyArguments {b mid : Draft} (h : (b.applyArguments x).outcome = .ok mid) :
    IsPatched x b mid := by
  obtain ⟨p, f, hp, hf, rfl⟩ := applyArguments_eq_ok h
  obtain ⟨xs, hxs, -, rfl⟩ := fixesAfter_eq_ok_iff.mp hf
  refine { indent := rfl, pageWidth := rfl, insertSpaces := rfl, block := rfl, cascade := rfl,
           expression := rfl, constructorInitializer := rfl, style := rfl, sources := rfl,
           profile_kept := ?_, profile_set := ?_, lineEnding_kept := ?_, lineEnding_set := ?_,
           fixes_kept := ?_, fixes_added := ?_ }
  · intro hnull
    rw [profileAfter, hnull] at hp
    cases hp
    rfl
  · intro hset
    have hset := Value.isNull_eq_false hset
    simp only [profileAfter, hset, Bool.false_eq_true, ↓reduceIte] at hp
    cases hprofile : (Profile.ofToken (x.valueOf Key.profile) argumentSource).outcome with
    | error e =>
      rw [hprofile] at hp
      cases hp
    | ok q =>
      rw [hprofile] at hp
      cases hp
      exact ⟨q, rfl, rfl⟩
  · intro hnull
    rw [patched, lineEndingAfter, hnull]
    rfl
  · intro hset
    have hset := Value.isNull_eq_false hset
    simp only [patched, lineEndingAfter, hset, Bool.false_eq_true, ↓reduceIte]
  · intro hempty
    cases hxs.symm.trans hempty
    rfl
  · intro vs hvs hne
    cases hxs.symm.trans hvs
    exact exists_withFixes hne b.fixes

/-- Arguments laid over a draft one after the other come to the later ones laid over the earlier ones,
but for the sources. -/
theorem applied_arguments_compose (b : Draft) (x y : Table) (mid last : Draft)
    (hx : (b.applyArguments x).outcome = .ok mid)
    (hy : (mid.applyArguments y).outcome = .ok last) :
    x.IsOverlay y (x.overlay y) ∧
      (∀ z, x.IsOverlay y z → ∃ once, (b.applyArguments z).outcome = .ok once ∧
        last = { once with sources := once.sources ++ [argumentLayer] }) ∧
      (mid.applyArguments x).outcome =
        .ok { mid with sources := mid.sources ++ [argumentLayer] } ∧
      IsPatched x b mid := by
  obtain ⟨xs, hxs, -⟩ := exists_fixTokens hx
  obtain ⟨ys, hys, -⟩ := exists_fixTokens hy
  refine ⟨Table.isOverlay_overlay hxs hys, ?_, applyArguments_again hx,
    isPatched_of_applyArguments hx⟩
  intro z hz
  exact applyArguments_overlay hz hx hy

def inheritedDraft : Draft where
  profile := .profile .expanded
  indent := .int 2
  fixes := some (.ofFixes [.optionalNew])

def earlierArguments : Table :=
  [(Key.indent, .int 0), (Key.insertSpaces, .bool false),
   (Key.fixes, .list [.fix .docComments, .text "optional-const", .text "none"])]

def laterArguments : Table :=
  [(Key.indent, .null), (Key.profile, .profile .dartStyle), (Key.lineEnding, .text "unix"),
   (Key.blockIndent, .int 3), (Key.fixes, .list [.text "doc-comments"])]

theorem earlier_and_later_arguments_compose :
    ∃ mid last once, (inheritedDraft.applyArguments earlierArguments).outcome = .ok mid ∧
      (mid.applyArguments laterArguments).outcome = .ok last ∧
      (inheritedDraft.applyArguments (earlierArguments.overlay laterArguments)).outcome = .ok once ∧
      last = { once with sources := once.sources ++ [argumentLayer] } ∧
      mid.indent = .int 0 ∧ mid.insertSpaces = .bool false := by
  obtain ⟨mid, hx⟩ : ∃ mid, (inheritedDraft.applyArguments earlierArguments).outcome = .ok mid :=
    ⟨_, (outcome_applyArguments _ _).trans rfl⟩
  obtain ⟨last, hy⟩ : ∃ last, (mid.applyArguments laterArguments).outcome = .ok last :=
    ⟨_, (outcome_applyArguments _ _).trans rfl⟩
  obtain ⟨hoverlay, hcompose, -, hpatched⟩ :=
    applied_arguments_compose inheritedDraft earlierArguments laterArguments mid last hx hy
  obtain ⟨once, honce, hlast⟩ := hcompose _ hoverlay
  exact ⟨mid, last, once, hx, hy, honce, hlast, hpatched.indent, hpatched.insertSpaces⟩

end Draft

end FormatSettings
