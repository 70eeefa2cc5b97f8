import FormatSettings.Proofs.Draft.Patched

namespace FormatSettings

theorem LineEnding.selected?_null : selected? .null = none := rfl

namespace Draft

inductive Field
  | profile
  | indent
  | pageWidth
  | lineEnding
  | insertSpaces
  | fixes
  | block
  | cascade
  | expression
  | constructorInitializer
  | bracesOnBlockLike
  | bracesOnCollectionLiterals
  | bracesOnEnum
  | tryClauseOnNewline
  | ifElseOnNewline
  deriving DecidableEq

def isSet (d : Draft) : Field → Bool
  | .profile => !d.profile.isNull
  | .indent => !d.indent.isNull
  | .pageWidth => !d.pageWidth.isNull
  | .lineEnding => !d.lineEnding.isNull
  | .insertSpaces => !d.insertSpaces.isNull
  | .fixes => d.fixes.isSome
  | .block => !d.widths.block.isNull
  | .cascade => !d.widths.cascade.isNull
  | .expression => !d.widths.expression.isNull
  | .constructorInitializer => !d.widths.constructorInitializer.isNull
  | .bracesOnBlockLike => !d.style.bracesOnBlockLike.isNull
  | .bracesOnCollectionLiterals => !d.style.bracesOnCollectionLiterals.isNull
  | .bracesOnEnum => !d.style.bracesOnEnum.isNull
  | .tryClauseOnNewline => !d.style.tryClauseOnNewline.isNull
  | .ifElseOnNewline => !d.style.ifElseOnNewline.isNull

inductive Layer
  | draft (upper : Draft)
  | arguments (args : Table)

def Layer.over (d : Draft) : Layer → Report Draft
  | .draft upper => pure (d.merge upper)
  | .arguments args => d.applyArguments args

def withLayers (d : Draft) : List Layer → Report Draft
  | [] => pure d
  | l :: layers => do withLayers (← l.over d) layers

def Layer.givesLineEnding : Layer → Bool
  | .draft upper => upper.isSet .lineEnding
  | .arguments args => (LineEnding.selected? (args.valueOf Key.lineEnding)).isSome

def Layer.clearsLineEnding : Layer → Bool
  | .draft _ => false
  | .arguments args =>
    !(args.valueOf Key.lineEnding).isNull &&
      (LineEnding.selected? (args.valueOf Key.lineEnding)).isNone

/-- Every token that names no line ending is followed by a layer that gives one. -/
def RestoresLineEnding : List Layer → Prop
  | [] => True
  | l :: layers =>
    (l.clearsLineEnding = true → ∃ m ∈ layers, m.givesLineEnding = true) ∧
      RestoresLineEnding layers

theorem isSet_merge (lower upper : Draft) (f : Field) :
    (lower.merge upper).isSet f = (upper.isSet f || lower.isSet f) := by
  cases f <;>
    simp only [isSet, merge, Widths.Draft.merge, Style.Draft.merge, Value.isNull_orElse,
      Bool.not_and, Option.isSome_or]

theorem profileAfter_isNull {args : Table} {before after : Value}
    (h : profileAfter args before = .ok after) (hb : before.isNull = false) :
    after.isNull = false := by
  unfold profileAfter at h
  simp only at h
  split at h
  · cases h
    exact hb
  · cases hp : (Profile.ofToken (args.valueOf Key.profile) argumentSource).outcome with
    | error e =>
      rw [hp] at h
      cases h
    | ok p =>
      rw [hp] at h
      cases h
      rfl

theorem fixesAfter_isSome {args : Table} {before after : Option FixSet}
    (h : fixesAfter args before = .ok after) (hb : before.isSome = true) :
    after.isSome = true := by
  unfold fixesAfter at h
  simp only at h
  split at h
  · split at h
    · cases h
    · split at h
      · cases h
        rfl
      · cases h
  · cases h
    exact hb

theorem isSet_applyArguments {d e : Draft} {args : Table}
    (h : (d.applyArguments args).outcome = .ok e) {f : Field} (hf : f ≠ .lineEnding)
    (hd : d.isSet f = true) : e.isSet f = true := by
  obtain ⟨profile, fixes, hprofile, hfixes, rfl⟩ := applyArguments_eq_ok h
  cases f with
  | profile =>
    have hset := profileAfter_isNull hprofile (by simpa [isSet] using hd)
    simp [isSet, patched, hset]
  | fixes => exact fixesAfter_isSome hfixes hd
  | lineEnding => exact absurd rfl hf
  | _ =>
    simp only [isSet, patched, Widths.Draft.merge, Value.isNull_orElse] at hd ⊢
    simp_all

theorem lineEndingAfter_isNull (args : Table) (before : Value) :
    (lineEndingAfter args before).isNull =
      (!(Layer.arguments args).givesLineEnding &&
        (before.isNull || (Layer.arguments args).clearsLineEnding)) := by
  unfold lineEndingAfter Layer.givesLineEnding Layer.clearsLineEnding
  cases hv : (args.valueOf Key.lineEnding).isNull with
  | true =>
    have hnull := Value.isNull_iff.mp hv
    simp [hnull, LineEnding.selected?_null]
  | false =>
    cases hs : LineEnding.selected? (args.valueOf Key.lineEnding) with
    | none => simp [hv, hs, Value.ofOption]
    | some e => simp [hv, hs, Value.ofOption]

theorem isSet_lineEnding_over {d e : Draft} {l : Layer} (h : (l.over d).outcome = .ok e) :
    e.isSet .lineEnding = (l.givesLineEnding || (d.isSet .lineEnding && !l.clearsLineEnding)) := by
  cases l with
  | draft upper =>
    cases h
    rw [isSet_merge]
    simp [Layer.givesLineEnding, Layer.clearsLineEnding]
  | arguments args =>
    obtain ⟨profile, fixes, _, _, rfl⟩ := applyArguments_eq_ok h
    simp only [isSet, patched, lineEndingAfter_isNull, Bool.not_and, Bool.not_not, Bool.not_or]

theorem isSet_over {d e : Draft} {l : Layer} (h : (l.over d).outcome = .ok e) {f : Field}
    (hf : f ≠ .lineEnding) (hd : d.isSet f = true) : e.isSet f = true := by
  cases l with
  | draft upper =>
    cases h
    rw [isSet_merge, hd, Bool.or_true]
  | arguments args => exact isSet_applyArguments h hf hd

theorem givesLineEnding_not_clears {l : Layer} (h : l.givesLineEnding = true) :
    l.clearsLineEnding = false := by
  cases l with
  | draft upper => rfl
  | arguments args =>
    have hsome : (LineEnding.selected? (args.valueOf Key.lineEnding)).isNone = false :=
      Option.isNone_eq_false_iff.mpr h
    rw [Layer.clearsLineEnding, hsome, Bool.and_false]

theorem isSet_withLayers {layers : List Layer} {d e : Draft}
    (h : (d.withLayers layers).outcome = .ok e) {f : Field} (hf : f ≠ .lineEnding)
    (hd : d.isSet f = true) : e.isSet f = true := by
  induction layers generalizing d with
  | nil =>
    cases h
    exact hd
  | cons l layers ih =>
    obtain ⟨d', hl, h⟩ := Report.bind_outcome_eq_ok.mp h
    exact ih h (isSet_over hl hf hd)

theorem isSet_lineEnding_withLayers {layers : List Layer} {d e : Draft}
    (h : (d.withLayers layers).outcome = .ok e) :
    e.isSet .lineEnding = true ↔
      (d.isSet .lineEnding = true ∨ ∃ m ∈ layers, m.givesLineEnding = true) ∧
        RestoresLineEnding layers := by
  induction layers generalizing d with
  | nil =>
    cases h
    simp [RestoresLineEnding]
  | cons l layers ih =>
    obtain ⟨d', hl, h⟩ := Report.bind_outcome_eq_ok.mp h
    have hstep := isSet_lineEnding_over hl
    -- The rest of the layers only depends on whether the first one leaves a line ending.
    rw [ih h, hstep]
    simp only [RestoresLineEnding, List.mem_cons, exists_eq_or_imp]
    cases hg : l.givesLineEnding with
    | true =>
      have hc := givesLineEnding_not_clears hg
      simp [hc]
    | false =>
      cases hc : l.clearsLineEnding with
      | true =>
        simp only [Bool.not_true, Bool.and_false, Bool.or_false, Bool.false_eq_true, false_or,
          forall_const]
        constructor
        · rintro ⟨hm, hr⟩
          exact ⟨Or.inr hm, hm, hr⟩
        · rintro ⟨_, hm, hr⟩
          exact ⟨hm, hr⟩
      | false => simp

/-- No layer resets a setting, except that a token which names no line ending takes the line ending
away; it is there in the end if and only if a later layer gives one again each time. -/
theorem explicit_settings_persist (layers : List Layer) (d e : Draft)
    (h : (d.withLayers layers).outcome = .ok e) :
    (∀ f, f ≠ Field.lineEnding → d.isSet f = true → e.isSet f = true) ∧
      (d.isSet .lineEnding = true → (e.isSet .lineEnding = true ↔ RestoresLineEnding layers)) := by
  constructor
  · intro f hf hd
    exact isSet_withLayers h hf hd
  · intro hd
    rw [isSet_lineEnding_withLayers h]
    simp [hd]

def unknownToken : Table := [(Key.lineEnding, .text "unix")]

theorem over_unknownToken (d : Draft) :
    (Layer.over d (.arguments unknownToken)).outcome =
      .ok (d.patched unknownToken d.profile d.fixes) := by
  change (d.applyArguments unknownToken).outcome = _
  rw [outcome_applyArguments]
  rfl

theorem explicit_settings_persist_replaced :
    let d : Draft := { lineEnding := .text "\n", indent := .int 0 }
    ∃ e, (d.withLayers
        [.arguments unknownToken, .draft { lineEnding := .text "\r\n" }]).outcome = .ok e ∧
      e.isSet .indent = true ∧ e.isSet .lineEnding = true := by
  intro d
  have h : (d.withLayers
      [.arguments unknownToken, .draft { lineEnding := .text "\r\n" }]).outcome = _ :=
    Report.bind_outcome_eq_ok.mpr ⟨_, over_unknownToken d, rfl⟩
  obtain ⟨hrest, hline⟩ := explicit_settings_persist _ _ _ h
  refine ⟨_, h, hrest .indent (by decide) rfl, (hline rfl).mpr ⟨?_, ?_, trivial⟩⟩
  · intro _
    exact ⟨_, List.mem_singleton.mpr rfl, rfl⟩
  · intro hclears
    cases hclears

theorem unknown_token_resets_line_ending :
    let d : Draft := { lineEnding := .text "\n" }
    ∃ e, (d.withLayers [.arguments unknownToken]).outcome = .ok e ∧
      d.isSet .lineEnding = true ∧ e.isSet .lineEnding = false := by
  intro d
  have hgives : (Layer.arguments unknownToken).givesLineEnding = false := by decide +kernel
  have hclears : (Layer.arguments unknownToken).clearsLineEnding = true := by decide +kernel
  have hover := over_unknownToken d
  refine ⟨_, Report.bind_outcome_eq_ok.mpr ⟨_, hover, rfl⟩, rfl, ?_⟩
  rw [isSet_lineEnding_over hover, hgives, hclears, Bool.not_true, Bool.and_false, Bool.or_false]

end Draft

end FormatSettings
