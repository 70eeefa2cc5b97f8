import FormatSettings.Proofs.Options.Given

namespace FormatSettings

namespace Widths

variable {t u : Table}

def resolved (t : Table) : Except Failure Widths :=
  ofValues ((t.valueOf Key.block).orElse (.int default.block))
    ((t.valueOf Key.cascade).orElse (.int default.cascade))
    ((t.valueOf Key.expression).orElse (.int default.expression))
    ((t.valueOf Key.constructorInitializer).orElse (.int default.constructorInitializer))

theorem optional_named (t : Table) :
    optional ⟨[], t⟩ = Arguments.checkNames parameters [] t >>= fun _ => resolved t := by
  rw [optional, draftOfArguments, Arguments.bind_named]
  cases Arguments.checkNames parameters [] t <;> rfl

theorem total_named (t : Table) :
    total ⟨[], t⟩ = Arguments.checkNames parameters [] t >>= fun _ => resolved t := by
  rw [total, draftOfArguments, Arguments.bind_named]
  cases Arguments.checkNames parameters [] t with
  | error f => rfl
  | ok _ =>
    change ofValues ((t.valueOr Key.block (.int default.block)).orElse (.int default.block))
      ((t.valueOr Key.cascade (.int default.cascade)).orElse (.int default.cascade))
      ((t.valueOr Key.expression (.int default.expression)).orElse (.int default.expression))
      ((t.valueOr Key.constructorInitializer (.int default.constructorInitializer)).orElse
        (.int default.constructorInitializer)) = resolved t
    rw [Table.orElse_valueOr, Table.orElse_valueOr, Table.orElse_valueOr, Table.orElse_valueOr]
    rfl

theorem ofArguments_named (h : ∀ e ∈ t, e.2.isNull = false) :
    ofArguments ⟨[], t⟩ = Arguments.checkNames parameters [] t >>= fun _ => resolved t := by
  have hvalue (name : String) (v : Value) : t.valueOr name v = (t.valueOf name).orElse v :=
    Table.valueOr_of_not_null (fun w hw => h _ hw) v
  rw [ofArguments, Arguments.bind_named]
  cases Arguments.checkNames parameters [] t with
  | error f => rfl
  | ok _ =>
    change ofValues (t.valueOr Key.block _) (t.valueOr Key.cascade _) (t.valueOr Key.expression _)
      (t.valueOr Key.constructorInitializer _) = resolved t
    rw [hvalue, hvalue, hvalue, hvalue]
    rfl

theorem optional_of_givesSame (h : Arguments.GivesSame parameters t u) :
    optional ⟨[], u⟩ = optional ⟨[], t⟩ := by
  have hresolved : resolved u = resolved t := by
    rw [resolved, ← h.values Key.block (by decide), ← h.values Key.cascade (by decide),
      ← h.values Key.expression (by decide), ← h.values Key.constructorInitializer (by decide)]
    rfl
  rw [optional_named, optional_named, hresolved, h.checkNames_eq]

end Widths

namespace Options

variable {t u : Table}

theorem fixSet_valueOr (t : Table) :
    (t.valueOr Key.fixes (.set true [])).fixSet = (t.valueOf Key.fixes).fixSet := by
  rw [Table.valueOr, Table.valueOf]
  cases t.lookup Key.fixes <;> rfl

theorem resolved_explicitDefaults (t : Table) :
    resolved (t ++ explicitDefaults) .default = resolved t .default := by
  have hindent : explicitDefaults.valueOf Key.indent = .int default.indent := rfl
  have hpage : explicitDefaults.valueOf Key.pageWidth = .int default.pageWidth := rfl
  have hspaces : explicitDefaults.valueOf Key.insertSpaces = .bool default.insertSpaces := rfl
  have hwidths : explicitDefaults.valueOf Key.widths = .widths default.widths := rfl
  have hstyle : explicitDefaults.valueOf Key.style = .style .default := rfl
  have hfixes : explicitDefaults.valueOf Key.fixes = .set true [] := rfl
  have hline : t.valueOr Key.lineEnding (explicitDefaults.valueOf Key.lineEnding) =
      t.valueOf Key.lineEnding := rfl
  simp only [resolved, Table.valueOf_append, hindent, hpage, hspaces, hwidths, hstyle, hfixes, hline,
    Table.orElse_valueOr, fixSet_valueOr]

theorem GivesBundles.append_explicitDefaults (h : GivesBundles t) :
    GivesBundles (t ++ explicitDefaults) := by
  have hvalue (name : String) : (t ++ explicitDefaults).valueOf name = t.valueOf name ∨
      (t ++ explicitDefaults).valueOf name = explicitDefaults.valueOf name := by
    rw [Table.valueOf_append]
    exact Table.valueOr_eq_or t name _
  constructor
  · rcases hvalue Key.widths with hsame | hdefault
    · rw [hsame]
      exact h.widths
    · exact Or.inr ⟨default.widths, hdefault⟩
  · rcases hvalue Key.style with hsame | hdefault
    · rw [hsame]
      exact h.style
    · exact Or.inr ⟨default.style, hdefault⟩
  · rcases hvalue Key.fixes with hsame | hdefault
    · rw [hsame]
      exact h.fixes
    · refine Or.inr ⟨[], ?_, nofun⟩
      rw [hdefault]
      rfl

theorem outcome_total (h : GivesBundles t) : (total ⟨[], t⟩).outcome = (optional ⟨[], t⟩).outcome := by
  rw [outcome_optional h, total, Arguments.bindNamed_named]
  cases Arguments.checkNames parameters [] t with
  | error f => rfl
  | ok _ =>
    change (ofNullable (t ++ explicitDefaults)).outcome = resolved t .default
    rw [outcome_ofNullable h.append_explicitDefaults, resolved_explicitDefaults]

theorem ofArguments_named (h : ∀ e ∈ t, e.1 ≠ Key.lineEnding → e.2.isNull = false) :
    ofArguments ⟨[], t⟩ =
      Arguments.checkNames parameters [] t >>= fun _ => resolved t .default := by
  have hvalue {name : String} (hname : name ≠ Key.lineEnding) (v : Value) :
      t.valueOr name v = (t.valueOf name).orElse v :=
    Table.valueOr_of_not_null (fun w hw => h _ hw hname) v
  have hfixes : FixSet.ofValue? (t.valueOr Key.fixes (.set true [])) = (t.valueOf Key.fixes).fixSet := by
    rw [← fixSet_valueOr, hvalue (by decide)]
    rw [Value.fixSet, Value.orElse]
    cases hnull : (t.valueOf Key.fixes).isNull with
    | true => rfl
    | false =>
      rw [if_neg (by simp), hnull]
      rfl
  rw [ofArguments, Arguments.bind_named]
  cases Arguments.checkNames parameters [] t with
  | error f => rfl
  | ok _ =>
    change ofValues (t.valueOr Key.indent _) (t.valueOr Key.pageWidth _) (t.valueOf Key.lineEnding)
      (t.valueOr Key.insertSpaces _) (t.valueOr Key.widths _) (t.valueOr Key.style _)
      (FixSet.ofValue? _) = resolved t .default
    rw [hvalue (by decide), hvalue (by decide), hvalue (by decide), hvalue (by decide),
      hvalue (by decide), hfixes]
    rfl

theorem resolved_of_givesSame (h : Arguments.GivesSame parameters t u) (base : Style) :
    resolved u base = resolved t base := by
  rw [resolved, ← h.values Key.indent (by decide), ← h.values Key.pageWidth (by decide),
    ← h.values Key.lineEnding (by decide), ← h.values Key.insertSpaces (by decide),
    ← h.values Key.widths (by decide), ← h.values Key.style (by decide),
    ← h.values Key.fixes (by decide)]
  rfl

theorem GivesBundles.of_givesSame (h : GivesBundles t) (hsame : Arguments.GivesSame parameters t u) :
    GivesBundles u where
  widths := hsame.values Key.widths (by decide) ▸ h.widths
  style := hsame.values Key.style (by decide) ▸ h.style
  fixes := hsame.values Key.fixes (by decide) ▸ h.fixes

theorem optional_of_givesSame (h : GivesBundles t) (hsame : Arguments.GivesSame parameters t u) :
    (optional ⟨[], u⟩).outcome = (optional ⟨[], t⟩).outcome := by
  rw [outcome_optional h, outcome_optional (h.of_givesSame hsame), resolved_of_givesSame hsame,
    hsame.checkNames_eq]

/-- Widths and options come out the same however they are built from arguments by name: with explicit
defaults or null for a default, with null or nothing in the place of a parameter, and, if no null is
given where it is no value, by giving all of them. -/
theorem construction_modes_agree (t : Table) :
    (Widths.total ⟨[], t⟩ = Widths.optional ⟨[], t⟩ ∧
      (∀ u, Arguments.GivesSame Widths.parameters t u →
        Widths.total ⟨[], u⟩ = Widths.total ⟨[], t⟩ ∧
          Widths.optional ⟨[], u⟩ = Widths.optional ⟨[], t⟩) ∧
      ((∀ e ∈ t, e.2.isNull = false) → Widths.ofArguments ⟨[], t⟩ = Widths.optional ⟨[], t⟩)) ∧
    (GivesBundles t →
      (total ⟨[], t⟩).outcome = (optional ⟨[], t⟩).outcome ∧
      (∀ u, Arguments.GivesSame parameters t u →
        (total ⟨[], u⟩).outcome = (total ⟨[], t⟩).outcome ∧
          (optional ⟨[], u⟩).outcome = (optional ⟨[], t⟩).outcome) ∧
      ((∀ e ∈ t, e.1 ≠ Key.lineEnding → e.2.isNull = false) →
        ofArguments ⟨[], t⟩ = (optional ⟨[], t⟩).outcome)) := by
  constructor
  · have htotal (u : Table) : Widths.total ⟨[], u⟩ = Widths.optional ⟨[], u⟩ := by
      rw [Widths.total_named, Widths.optional_named]
    refine ⟨htotal t, fun u hsame => ?_, fun hnull => ?_⟩
    · rw [htotal, htotal, Widths.optional_of_givesSame hsame]
      exact ⟨rfl, rfl⟩
    · rw [Widths.ofArguments_named hnull, Widths.optional_named]
  · intro h
    refine ⟨outcome_total h, fun u hsame => ?_, fun hnull => ?_⟩
    · rw [outcome_total h, outcome_total (h.of_givesSame hsame), optional_of_givesSame h hsame]
      exact ⟨rfl, rfl⟩
    · rw [ofArguments_named hnull, outcome_optional h]

def mixedWidths : Table :=
  [(Key.cascade, .int 0), (Key.expression, .bool true), (Key.block, .int 8)]

def refusedArguments : Table :=
  [(Key.insertSpaces, .int 0), (Key.fixes, .list [.text "new", .fix .optionalNew, .fix .optionalNew]),
   (Key.lineEnding, .null), (Key.widths, .widths { block := 8 }), (Key.pageWidth, .int 0)]

theorem construction_modes_agree_refused :
    (Widths.ofArguments ⟨[], mixedWidths⟩ =
        .error (.option (.notInteger Key.expression (.bool true))) ∧
      Widths.total ⟨[], (Key.constructorInitializer, .null) :: mixedWidths⟩ =
        .error (.option (.notInteger Key.expression (.bool true)))) ∧
    (ofArguments ⟨[], refusedArguments⟩ = .error (.option (.pageWidthTooSmall 0)) ∧
      (total ⟨[], (Key.style, .null) :: refusedArguments⟩).outcome =
        .error (.option (.pageWidthTooSmall 0))) := by
  have hwidth : Arguments.GivesSame Widths.parameters mixedWidths
      ((Key.constructorInitializer, .null) :: mixedWidths) :=
    Arguments.givesSame_null (by decide) rfl
  have hstyle : Arguments.GivesSame parameters refusedArguments
      ((Key.style, .null) :: refusedArguments) :=
    Arguments.givesSame_null (by decide) rfl
  have hgives : GivesBundles refusedArguments := {
    widths := .inr ⟨_, rfl⟩
    style := .inl rfl
    fixes := .inr ⟨_, rfl, by decide⟩ }
  have hnulls : ∀ e ∈ refusedArguments, e.1 ≠ Key.lineEnding → e.2.isNull = false := by
    simp [refusedArguments, Value.isNull]
  have hmixed : Widths.ofArguments ⟨[], mixedWidths⟩ =
      .error (.option (.notInteger Key.expression (.bool true))) := rfl
  have hwritable : (Value.int 0).isWritable = true := by decide +kernel
  have hrefused : ofArguments ⟨[], refusedArguments⟩ = .error (.option (.pageWidthTooSmall 0)) :=
    congrArg Except.error (if_pos hwritable)
  obtain ⟨hwidthsTotal, hwidthsSame, hwidthsAll⟩ := (construction_modes_agree mixedWidths).1
  obtain ⟨htotal, hsame, hall⟩ := (construction_modes_agree refusedArguments).2 hgives
  constructor
  · refine ⟨hmixed, ?_⟩
    rw [(hwidthsSame _ hwidth).1, hwidthsTotal, ← hwidthsAll (by simp [mixedWidths, Value.isNull]),
      hmixed]
  · refine ⟨hrefused, ?_⟩
    rw [(hsame _ hstyle).1, htotal, ← hall hnulls, hrefused]

end Options

end FormatSettings
