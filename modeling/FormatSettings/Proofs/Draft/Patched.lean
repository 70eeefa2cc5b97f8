import FormatSettings.Draft.Arguments
import FormatSettings.Proofs.Fix.Tokens

namespace FormatSettings

namespace Value

@[simp] theorem isNull_null : null.isNull = true := rfl

@[simp] theorem isNull_text (s : String) : (text s).isNull = false := rfl

theorem isNull_iff {v : Value} : v.isNull = true ↔ v = .null := by
  cases v <;> simp [isNull]

theorem isNull_eq_false {v : Value} (h : v ≠ .null) : v.isNull = false :=
  Bool.eq_false_iff.mpr fun hnull => h (isNull_iff.mp hnull)

@[simp] theorem orElse_null (v : Value) : null.orElse v = v := rfl

theorem orElse_of_isNull {v : Value} (h : v.isNull = true) (w : Value) : v.orElse w = w := by
  simp [orElse, h]

theorem orElse_of_not_isNull {v : Value} (h : v.isNull = false) (w : Value) :
    v.orElse w = v := by
  simp [orElse, h]

theorem isNull_orElse (v w : Value) : (v.orElse w).isNull = (v.isNull && w.isNull) := by
  cases h : v.isNull with
  | true => rw [orElse_of_isNull h, Bool.true_and]
  | false => rw [orElse_of_not_isNull h, h, Bool.false_and]

theorem orElse_null_right (v : Value) : v.orElse .null = v := by
  cases v <;> rfl

theorem orElse_assoc (u v w : Value) : (u.orElse v).orElse w = u.orElse (v.orElse w) := by
  cases h : u.isNull with
  | true => rw [orElse_of_isNull h, orElse_of_isNull h]
  | false => rw [orElse_of_not_isNull h, orElse_of_not_isNull h, orElse_of_not_isNull h]

theorem orElse_self (v : Value) : v.orElse v = v :=
  ite_self v

end Value

def LineEnding.selected? (v : Value) : Option LineEnding :=
  (ofNewlineValue? v).or (ofNameValue? v)

theorem LineEnding.ofToken_eq {v : Value} (h : v ≠ .null) (source : String) :
    ofToken v source = match selected? v with
      | some e => pure (some e)
      | none => ⟨[⟨.warning, unknownText v source⟩], .ok none⟩ := by
  unfold ofToken
  split
  · exact absurd rfl h
  · rfl

theorem LineEnding.outcome_ofToken (v : Value) (source : String) :
    (ofToken v source).outcome = .ok (selected? v) := by
  by_cases h : v = .null
  · rw [h]
    rfl
  · rw [ofToken_eq h]
    cases selected? v <;> rfl

theorem LineEnding.selected?_token (e : LineEnding) : selected? (.text e.token) = some e := by
  cases e <;> decide +kernel

namespace Draft

def profileAfter (args : Table) (before : Value) : Except Failure Value :=
  let v := args.valueOf Key.profile
  if v.isNull then .ok before
  else (Profile.ofToken v argumentSource).outcome.map .profile

def lineEndingAfter (args : Table) (before : Value) : Value :=
  let v := args.valueOf Key.lineEnding
  if v.isNull then before
  else Value.ofOption (fun e => .text e.newline) (LineEnding.selected? v)

def addedFixes (vs : List Value) : FixSet :=
  FixSet.ofFixes (givenFixes vs ++ (vs.filter (!isFix ·)).filterMap fun v => Fix.parse? v.tokenText)

theorem addedFixes_texts (tokens : List String) :
    addedFixes (tokens.map .text) = FixSet.ofFixes (tokens.filterMap Fix.parse?) := by
  have hgiven : givenFixes (tokens.map .text) = [] := by
    simp [givenFixes, List.filterMap_map]
  have htokens : (tokens.map Value.text).filter (!isFix ·) = tokens.map .text := by
    simp [isFix]
  rw [addedFixes, hgiven, htokens, List.nil_append, Fix.filterMap_tokenText]

theorem addedFixes_fixes (fixes : List Fix) :
    addedFixes (fixes.map .fix) = FixSet.ofFixes fixes := by
  have hgiven : givenFixes (fixes.map .fix) = fixes := by
    rw [givenFixes, List.filterMap_map]
    exact List.filterMap_some
  have htokens : (fixes.map Value.fix).filter (!isFix ·) = [] := by
    simp [isFix]
  rw [addedFixes, hgiven, htokens, List.filterMap_nil, List.append_nil]

theorem areWritable_filter_isFix (vs : List Value) :
    Value.areWritable (vs.filter (!isFix ·)) = Value.areWritable vs := by
  rw [Bool.eq_iff_iff, Value.areWritable_iff, Value.areWritable_iff]
  constructor
  · intro h v hv
    cases v with
    | fix f => rfl
    | _ => exact h _ (List.mem_filter.mpr ⟨hv, rfl⟩)
  · intro h v hv
    exact h v (List.mem_filter.mp hv).1

def fixesAfter (args : Table) (before : Option FixSet) : Except Failure (Option FixSet) :=
  let v := args.valueOf Key.fixes
  if v.holds then
    match v.elements? with
    | none => .error (.call (.notIterable v))
    | some vs =>
      if Value.areWritable vs then
        .ok (some ((before.getD .empty).union (addedFixes vs)))
      else .error (.value .integerTooLong)
  else .ok before

def patched (d : Draft) (args : Table) (profile : Value) (fixes : Option FixSet) : Draft where
  profile := profile
  indent := (args.valueOf Key.indent).orElse d.indent
  pageWidth := (args.valueOf Key.pageWidth).orElse d.pageWidth
  lineEnding := lineEndingAfter args d.lineEnding
  insertSpaces := (args.valueOf Key.insertSpaces).orElse d.insertSpaces
  fixes := fixes
  widths := d.widths.merge (widthArguments args)
  style := d.style
  sources := d.sources ++ [argumentLayer]

theorem outcome_runSteps (steps : List Step) (d : Draft) :
    ((runSteps d steps).2 >>= fun _ => pure (runSteps d steps).1 : Report Draft).outcome =
      steps.foldlM (fun d step => (step d).outcome) d := by
  induction steps generalizing d with
  | nil => rfl
  | cons step rest ih =>
    rw [List.foldlM_cons]
    cases h : (step d).outcome with
    | error e =>
      simp only [runSteps, h]
      rfl
    | ok d' =>
      have hrest := ih d'
      simp only [Report.outcome_bind] at hrest ⊢
      simp only [runSteps, h]
      exact hrest

theorem outcome_applyArguments_eq_foldlM (d : Draft) (args : Table) :
    (d.applyArguments args).outcome =
      (steps args).foldlM (fun d step => (step d).outcome)
        { d with sources := d.sources ++ [argumentLayer] } := by
  rw [← outcome_runSteps]
  unfold applyArguments patch patchBy
  simp only [Report.outcome_bind, Report.outcome_debug]
  cases (runSteps { d with sources := d.sources ++ [argumentLayer] } (steps args)).2.outcome with
  | error e => rfl
  | ok u => rfl

theorem outcome_setProfile (args : Table) (d : Draft) :
    (ifSet args Key.profile setProfile d).outcome =
      (profileAfter args d.profile).map fun p => { d with profile := p } := by
  unfold ifSet profileAfter
  cases h : (args.valueOf Key.profile).isNull with
  | true =>
    simp only [h, ↓reduceIte]
    rfl
  | false =>
    simp only [h, Bool.false_eq_true, ↓reduceIte, setProfile, Report.outcome_bind]
    cases (Profile.ofToken (args.valueOf Key.profile) argumentSource).outcome with
    | error e => rfl
    | ok p => rfl

theorem outcome_setLineEnding (args : Table) (d : Draft) :
    (ifSet args Key.lineEnding setLineEnding d).outcome =
      .ok { d with lineEnding := lineEndingAfter args d.lineEnding } := by
  unfold ifSet lineEndingAfter
  cases h : (args.valueOf Key.lineEnding).isNull with
  | true =>
    simp only [h, ↓reduceIte]
    rfl
  | false =>
    simp only [h, Bool.false_eq_true, ↓reduceIte, setLineEnding, Report.outcome_bind,
      LineEnding.outcome_ofToken]
    rfl

theorem outcome_setField (args : Table) (key : String) (get : Draft → Value)
    (set : Value → Draft → Draft) (d : Draft) (hd : set (get d) d = d) :
    (ifSet args key (fun v d => pure (set v d)) d).outcome =
      .ok (set ((args.valueOf key).orElse (get d)) d) := by
  unfold ifSet Value.orElse
  cases h : (args.valueOf key).isNull with
  | true => simp [h, hd]
  | false => simp [h]

theorem outcome_fixesStep (args : Table) (d : Draft) :
    (fixesStep args d).outcome =
      (fixesAfter args d.fixes).map fun f => { d with fixes := f } := by
  unfold fixesStep fixesAfter
  cases h : (args.valueOf Key.fixes).holds with
  | false =>
    simp only [h, Bool.false_eq_true, ↓reduceIte]
    rfl
  | true =>
    simp only [h, ↓reduceIte, addFixes]
    cases (args.valueOf Key.fixes).elements? with
    | none => rfl
    | some vs =>
      simp only [Report.outcome_bind, Fix.outcome_selected, areWritable_filter_isFix]
      cases Value.areWritable vs <;> rfl

theorem outcome_applyArguments (d : Draft) (args : Table) :
    (d.applyArguments args).outcome = (do
      let profile ← profileAfter args d.profile
      let fixes ← fixesAfter args d.fixes
      return d.patched args profile fixes) := by
  have indent := outcome_setField args Key.indent (·.indent) (fun v d => { d with indent := v })
  have pageWidth :=
    outcome_setField args Key.pageWidth (·.pageWidth) (fun v d => { d with pageWidth := v })
  have insertSpaces :=
    outcome_setField args Key.insertSpaces (·.insertSpaces)
      (fun v d => { d with insertSpaces := v })
  rw [outcome_applyArguments_eq_foldlM, steps, scalarSteps]
  simp only [List.cons_append, List.nil_append, List.foldlM_cons, List.foldlM_nil,
    outcome_setProfile]
  -- Of all steps only those of the profile and of the fixes can fail.
  cases profileAfter args d.profile with
  | error e => rfl
  | ok p =>
    change ((ifSet args Key.indent _ _).outcome >>= _) = (fixesAfter args d.fixes >>= _)
    rw [indent _ rfl]
    change ((ifSet args Key.pageWidth _ _).outcome >>= _) = _
    rw [pageWidth _ rfl]
    change ((ifSet args Key.lineEnding _ _).outcome >>= _) = _
    rw [outcome_setLineEnding]
    change ((ifSet args Key.insertSpaces _ _).outcome >>= _) = _
    rw [insertSpaces _ rfl]
    change ((fixesStep args _).outcome >>= _) = _
    rw [outcome_fixesStep]
    cases fixesAfter args d.fixes with
    | error e => rfl
    | ok f => rfl

theorem applyArguments_eq_ok {d e : Draft} {args : Table}
    (h : (d.applyArguments args).outcome = .ok e) :
    ∃ profile fixes, profileAfter args d.profile = .ok profile ∧
      fixesAfter args d.fixes = .ok fixes ∧ e = d.patched args profile fixes := by
  rw [outcome_applyArguments] at h
  obtain ⟨profile, hp, h⟩ := Except.bind_eq_ok.mp h
  obtain ⟨fixes, hf, h⟩ := Except.bind_eq_ok.mp h
  cases h
  exact ⟨profile, fixes, hp, hf, rfl⟩

end Draft

end FormatSettings
