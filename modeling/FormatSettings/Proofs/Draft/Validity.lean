import FormatSettings.Proofs.Draft.Freezing

namespace FormatSettings

namespace Value

def IsIntFrom (least : Int) (v : Value) : Prop :=
  v = .null ∨ ∃ i, v = .int i ∧ least ≤ i

def IsFlag (v : Value) : Prop :=
  v = .null ∨ ∃ b, v = .bool b

def IsNewline (v : Value) : Prop :=
  v = .null ∨ ∃ e : LineEnding, v.asText? = some e.newline

theorem isIntFrom_iff {v : Value} {least missing : Nat} (h : least ≤ missing) :
    v.IsIntFrom least ↔
      ∃ n : Nat, v.orElse (.int (.ofNat missing)) = .int (.ofNat n) ∧ least ≤ n := by
  constructor
  · rintro (rfl | ⟨i, rfl, hi⟩)
    · exact ⟨missing, rfl, h⟩
    · obtain ⟨n, rfl⟩ := Int.eq_ofNat_of_zero_le (a := i) (by omega)
      exact ⟨n, rfl, by omega⟩
  · rintro ⟨n, hn, hle⟩
    by_cases hv : v.isNull = true
    · exact .inl (isNull_iff.mp hv)
    · rw [orElse_of_not_isNull (by simpa using hv)] at hn
      exact .inr ⟨n, hn, by omega⟩

theorem isFlag_iff (v : Value) (missing : Bool) :
    v.IsFlag ↔ ∃ b, v.orElse (.bool missing) = .bool b := by
  constructor
  · rintro (rfl | ⟨b, rfl⟩)
    · exact ⟨missing, rfl⟩
    · exact ⟨b, rfl⟩
  · rintro ⟨b, hb⟩
    by_cases hv : v.isNull = true
    · exact .inl (isNull_iff.mp hv)
    · rw [orElse_of_not_isNull (by simpa using hv)] at hb
      exact .inr ⟨b, hb⟩

end Value

theorem LineEnding.ofNewline?_eq_some_iff {s : String} {e : LineEnding} :
    ofNewline? s = some e ↔ s = e.newline := by
  constructor
  · intro h
    have hfound := List.find?_some h
    exact (beq_iff_eq.mp hfound).symm
  · rintro rfl
    exact e.ofNewline?_newline

theorem LineEnding.newline_ne_key (e : LineEnding) (f : Fix) : e.newline ≠ f.key := by
  cases e <;> cases f <;> decide

namespace Options

theorem checkLineEnding_eq_ok_iff {v : Value} {l : Option Newline} :
    checkLineEnding v = .ok l ↔ Value.ofOption Newline.toValue l = v := by
  constructor
  · intro h
    unfold checkLineEnding at h
    split at h
    · cases h
      rfl
    · cases h
      rfl
    · split at h
      · next e he =>
        cases h
        obtain ⟨s, hs, hnewline⟩ := Option.bind_eq_some_iff.mp he
        rw [LineEnding.ofNewline?_eq_some_iff] at hnewline
        -- Members of closed sets that stand for text compare as it, but no fix is a sequence.
        cases v with
        | text t =>
          cases hs
          exact congrArg Value.text hnewline.symm
        | fix f =>
          cases hs
          exact absurd hnewline.symm (e.newline_ne_key f)
        | lineEnding e' => simp_all
        | _ => cases hs
      · cases h
  · rintro rfl
    rcases l with _ | ⟨e, named⟩
    · rfl
    · cases named with
      | true => rfl
      | false => exact checkLineEnding_newline (some e)

theorem checkLineEnding_eq_ok {v : Value} {l : Option Newline} (h : checkLineEnding v = .ok l) :
    v.IsNewline ∧ l.map (·.ending.newline) = v.asText? := by
  cases checkLineEnding_eq_ok_iff.mp h
  rcases l with _ | ⟨e, named⟩
  · exact ⟨.inl rfl, rfl⟩
  · cases named with
    | true => exact ⟨.inr ⟨e, rfl⟩, rfl⟩
    | false => exact ⟨.inr ⟨e, rfl⟩, rfl⟩

theorem checkLineEnding_of_isNewline {v : Value} (h : v.IsNewline) :
    ∃ l, checkLineEnding v = .ok l := by
  rcases h with rfl | ⟨e, he⟩
  · exact ⟨none, rfl⟩
  · unfold checkLineEnding
    split
    · exact ⟨_, rfl⟩
    · exact ⟨_, rfl⟩
    · rw [he, Option.bind_some, e.ofNewline?_newline]
      exact ⟨_, rfl⟩

theorem checkLineEnding_of_not_isNewline {v : Value} (h : ¬ v.IsNewline) :
    checkLineEnding v = .error (.ofOption (.unknownLineEnding v)) := by
  cases hv : checkLineEnding v with
  | ok l => exact absurd (checkLineEnding_eq_ok hv).1 h
  | error e =>
    unfold checkLineEnding at hv
    split at hv
    · cases hv
    · cases hv
    · split at hv
      · cases hv
      · rw [← Except.error.inj hv]

end Options

namespace Widths.Draft

def values (d : Draft) : List Value :=
  [d.block, d.cascade, d.expression, d.constructorInitializer]

theorem valid_iff {d : Draft} {base : Widths} :
    (∀ v ∈ d.values, v.IsIntFrom 0) ↔ ∃ w : Widths, base.thaw.merge d = w.thaw := by
  have number (v : Value) (missing : Nat) :
      v.IsIntFrom 0 ↔ ∃ n : Nat, v.orElse (.int missing) = .int n := by
    have h := Value.isIntFrom_iff (v := v) (Nat.zero_le missing)
    simpa using h
  simp only [values, List.forall_mem_cons, List.not_mem_nil, false_implies, implies_true, and_true,
    number d.block base.block, number d.cascade base.cascade, number d.expression base.expression,
    number d.constructorInitializer base.constructorInitializer]
  constructor
  · rintro ⟨⟨b, hb⟩, ⟨c, hc⟩, ⟨e, he⟩, ⟨i, hi⟩⟩
    exact ⟨⟨b, c, e, i⟩, by simp only [merge, thaw, hb, hc, he, hi]⟩
  · rintro ⟨w, hw⟩
    simp only [merge, thaw, Draft.mk.injEq] at hw
    exact ⟨⟨_, hw.1⟩, ⟨_, hw.2.1⟩, ⟨_, hw.2.2.1⟩, ⟨_, hw.2.2.2⟩⟩

end Widths.Draft

namespace Style.Draft

def values (d : Draft) : List Value :=
  [d.bracesOnBlockLike, d.bracesOnCollectionLiterals, d.bracesOnEnum, d.tryClauseOnNewline,
   d.ifElseOnNewline]

theorem valid_iff {d : Draft} {base : Style} :
    (∀ v ∈ d.values, v.IsFlag) ↔ ∃ s : Style, base.thaw.merge d = s.thaw := by
  simp only [values, List.forall_mem_cons, List.not_mem_nil, false_implies, implies_true, and_true,
    Value.isFlag_iff d.bracesOnBlockLike base.bracesOnBlockLike,
    Value.isFlag_iff d.bracesOnCollectionLiterals base.bracesOnCollectionLiterals,
    Value.isFlag_iff d.bracesOnEnum base.bracesOnEnum,
    Value.isFlag_iff d.tryClauseOnNewline base.tryClauseOnNewline,
    Value.isFlag_iff d.ifElseOnNewline base.ifElseOnNewline]
  constructor
  · rintro ⟨⟨b, hb⟩, ⟨c, hc⟩, ⟨e, he⟩, ⟨t, ht⟩, ⟨i, hi⟩⟩
    exact ⟨⟨b, c, e, t, i⟩, by simp only [merge, thaw, hb, hc, he, ht, hi]⟩
  · rintro ⟨s, hs⟩
    simp only [merge, thaw, Draft.mk.injEq] at hs
    exact ⟨⟨_, hs.1⟩, ⟨_, hs.2.1⟩, ⟨_, hs.2.2.1⟩, ⟨_, hs.2.2.2.1⟩, ⟨_, hs.2.2.2.2⟩⟩

end Style.Draft

namespace Draft

def settings (d : Draft) : List Value :=
  d.indent :: d.pageWidth :: d.lineEnding :: d.insertSpaces :: (d.widths.values ++ d.style.values)

/-- Each setting is not set, or of the right kind and in range. -/
structure IsValid (d : Draft) : Prop where
  indent : d.indent.IsIntFrom 0
  pageWidth : d.pageWidth.IsIntFrom 1
  lineEnding : d.lineEnding.IsNewline
  insertSpaces : d.insertSpaces.IsFlag
  widths : ∀ v ∈ d.widths.values, v.IsIntFrom 0
  style : ∀ v ∈ d.style.values, v.IsFlag

variable {d : Draft} {profile : Option Profile}

theorem labelOf_ofOption (profile : Option Profile) :
    ∃ label, labelOf (Value.ofOption .profile profile) = .ok label := by
  cases profile <;> exact ⟨_, rfl⟩

theorem outcome_baseStyle (h : d.profile = Value.ofOption .profile profile) :
    d.baseStyle.outcome = .ok (Style.under profile) := by
  rw [baseStyle, h, outcome_styleOf]

theorem freeze_of_isValid (h : d.profile = Value.ofOption .profile profile) (hd : d.IsValid) :
    ∃ o, d.freeze.outcome = .ok o := by
  obtain ⟨i, hi, -⟩ := (Value.isIntFrom_iff (Nat.zero_le Options.default.indent)).mp hd.indent
  obtain ⟨p, hp, hpos⟩ := (Value.isIntFrom_iff Options.default.pageWidth_pos).mp hd.pageWidth
  obtain ⟨l, hl⟩ := Options.checkLineEnding_of_isNewline hd.lineEnding
  obtain ⟨b, hb⟩ := (Value.isFlag_iff _ Options.default.insertSpaces).mp hd.insertSpaces
  obtain ⟨w, hw⟩ := Widths.Draft.valid_iff.mp hd.widths
  obtain ⟨s, hs⟩ := Style.Draft.valid_iff.mp hd.style
  refine ⟨⟨i, p, l, d.fixes.getD .empty, w, b, s, hpos⟩, freeze_eq_ok_iff.mpr ?_⟩
  exact ⟨⟨_, outcome_baseStyle h, hs⟩, h ▸ labelOf_ofOption profile, hw, hi, hp, hl, hb, rfl⟩

end Draft

def Failure.IsOption (f : Failure) : Prop :=
  ∃ fault, f = .option fault

namespace Value

/-- A failure that refuses a value. Where the value cannot be written, so cannot the message about it. -/
def Refused (v : Value) (f : Failure) : Prop :=
  ∃ fault : OptionFault, fault.value = v ∧ f = .ofOption fault

variable {v : Value} {f : Failure}

theorem Refused.cases (h : v.Refused f) :
    v.isWritable = true ∧ f.IsOption ∨ v.isWritable = false ∧ f = .value .integerTooLong := by
  obtain ⟨fault, rfl, rfl⟩ := h
  cases hv : fault.value.isWritable with
  | true => exact .inl ⟨rfl, fault, if_pos hv⟩
  | false => exact .inr ⟨rfl, if_neg (by simp [hv])⟩

theorem Refused.isOption (h : v.Refused f) (hv : v.isWritable = true) : f.IsOption := by
  rcases h.cases with ⟨-, hf⟩ | ⟨hnot, -⟩
  · exact hf
  · cases hv.symm.trans hnot

end Value

theorem failsOnly_checkWidth (name : String) (v : Value) : FailsOnly v.Refused (checkWidth name v) := by
  unfold checkWidth
  split
  · exact .ok _
  · exact .error ⟨_, rfl, rfl⟩
  · exact .error ⟨_, rfl, rfl⟩

theorem failsOnly_checkStyleFlag (name : String) (v : Value) :
    FailsOnly v.Refused (checkStyleFlag name v) := by
  unfold checkStyleFlag
  split
  · exact .ok _
  · exact .error ⟨_, rfl, rfl⟩

theorem failsOnly_orElse {α : Type} {check : Value → Except Failure α} {v base : Value} {a : α}
    (hcheck : FailsOnly v.Refused (check v)) (hbase : check base = .ok a) :
    FailsOnly v.Refused (check (v.orElse base)) := by
  cases h : v.isNull with
  | true =>
    rw [Value.orElse_of_isNull h, hbase]
    exact .ok _
  | false =>
    rw [Value.orElse_of_not_isNull h]
    exact hcheck

/-- A failure that refuses one of several values. -/
def RefusesAny (vs : List Value) (f : Failure) : Prop :=
  ∃ v ∈ vs, v.Refused f

section

variable {vs : List Value} {v : Value} {f : Failure}

theorem RefusesAny.mono {us : List Value} (h : RefusesAny vs f) (hvs : vs ⊆ us) :
    RefusesAny us f := by
  obtain ⟨v, hv, hf⟩ := h
  exact ⟨v, hvs hv, hf⟩

theorem RefusesAny.isOption (h : RefusesAny vs f) (hvs : ∀ v ∈ vs, v.isWritable = true) :
    f.IsOption := by
  obtain ⟨v, hv, hf⟩ := h
  exact hf.isOption (hvs v hv)

theorem RefusesAny.cases (h : RefusesAny vs f) :
    f.IsOption ∨ f = .value .integerTooLong ∧ ∃ v ∈ vs, v.isWritable = false := by
  obtain ⟨v, hv, hf⟩ := h
  rcases hf.cases with ⟨-, hoption⟩ | ⟨hlong, rfl⟩
  · exact .inl hoption
  · exact .inr ⟨rfl, v, hv, hlong⟩

theorem FailsOnly.refusesAny {α : Type} {x : Except Failure α} (h : FailsOnly v.Refused x)
    (hv : v ∈ vs) : FailsOnly (RefusesAny vs) x :=
  h.mono fun _ hf => ⟨v, hv, hf⟩

end

theorem Widths.Draft.failsOnly_resolve (d : Draft) (base : Widths) :
    FailsOnly (RefusesAny d.values) (d.resolve base) := by
  have width {name : String} {v : Value} {n : Nat} (hv : v ∈ d.values) :
      FailsOnly (RefusesAny d.values) (checkWidth name (v.orElse (.int n))) :=
    (failsOnly_orElse (failsOnly_checkWidth name v) rfl).refusesAny hv
  refine .bind (width (by simp [values])) fun _ _ => ?_
  refine .bind (width (by simp [values])) fun _ _ => ?_
  refine .bind (width (by simp [values])) fun _ _ => ?_
  exact .bind (width (by simp [values])) fun _ _ => .ok _

theorem Style.Draft.failsOnly_resolve (d : Draft) (base : Style) :
    FailsOnly (RefusesAny d.values) (d.resolve base) := by
  have flag {name : String} {v : Value} {b : Bool} (hv : v ∈ d.values) :
      FailsOnly (RefusesAny d.values) (checkStyleFlag name (v.orElse (.bool b))) :=
    (failsOnly_orElse (failsOnly_checkStyleFlag name v) rfl).refusesAny hv
  refine .bind (flag (by simp [values])) fun _ _ => ?_
  refine .bind (flag (by simp [values])) fun _ _ => ?_
  refine .bind (flag (by simp [values])) fun _ _ => ?_
  refine .bind (flag (by simp [values])) fun _ _ => ?_
  exact .bind (flag (by simp [values])) fun _ _ => .ok _

namespace Options

theorem failsOnly_checkPageWidth (v : Value) : FailsOnly v.Refused (checkPageWidth v) := by
  refine .bind (failsOnly_checkWidth _ v) fun n hn => ?_
  cases checkWidth_eq_ok_iff.mp hn
  by_cases hpos : 0 < n
  · rw [dif_pos hpos]
    exact .ok _
  · rw [dif_neg hpos]
    exact .error ⟨_, rfl, rfl⟩

theorem failsOnly_checkLineEnding (v : Value) : FailsOnly v.Refused (checkLineEnding v) := by
  by_cases h : v.IsNewline
  · obtain ⟨l, hl⟩ := checkLineEnding_of_isNewline h
    rw [hl]
    exact .ok _
  · rw [checkLineEnding_of_not_isNewline h]
    exact .error ⟨_, rfl, rfl⟩

theorem failsOnly_checkInsertSpaces (v : Value) : FailsOnly v.Refused (checkInsertSpaces v) := by
  unfold checkInsertSpaces
  split
  · exact .ok _
  · exact .error ⟨_, rfl, rfl⟩

theorem failsOnly_ofValues {vs : List Value} {indent pageWidth lineEnding insertSpaces : Value}
    (hindent : FailsOnly (RefusesAny vs) (checkWidth Key.indent indent))
    (hpage : FailsOnly (RefusesAny vs) (checkPageWidth pageWidth))
    (hline : FailsOnly (RefusesAny vs) (checkLineEnding lineEnding))
    (hspaces : FailsOnly (RefusesAny vs) (checkInsertSpaces insertSpaces)) (w : Widths) (s : Style)
    (fixes : FixSet) : FailsOnly (RefusesAny vs)
      (ofValues indent pageWidth lineEnding insertSpaces (.widths w) (.style s) (.ok fixes)) := by
  refine .bind hindent fun _ _ => ?_
  refine .bind hpage fun _ _ => ?_
  refine .bind hline fun _ _ => ?_
  refine .bind hspaces fun _ _ => ?_
  exact .ok _

theorem checkPageWidth_of_pos (o : Options) :
    checkPageWidth (.int o.pageWidth) = .ok ⟨o.pageWidth, o.pageWidth_pos⟩ :=
  checkPageWidth_eq_ok_iff.mpr rfl

end Options

namespace Draft

variable {d : Draft} {profile : Option Profile}

theorem failsOnly_freeze (h : d.profile = Value.ofOption .profile profile) :
    FailsOnly (RefusesAny d.settings) d.freeze.outcome := by
  obtain ⟨label, hlabel⟩ := labelOf_ofOption profile
  rw [outcome_freeze, outcome_baseStyle h, h, hlabel]
  refine .bind (.ok _) fun base _ => .bind ?_ fun s _ => .bind (.ok _) fun _ _ => .bind ?_ fun w _ => ?_
  · exact (d.style.failsOnly_resolve base).mono fun _ hf => hf.mono fun v hv => by simp [settings, hv]
  · exact (d.widths.failsOnly_resolve _).mono fun _ hf => hf.mono fun v hv => by simp [settings, hv]
  · apply Options.failsOnly_ofValues
    · exact (failsOnly_orElse (failsOnly_checkWidth _ _) rfl).refusesAny (by simp [settings])
    · exact (failsOnly_orElse (Options.failsOnly_checkPageWidth _)
        Options.default.checkPageWidth_of_pos).refusesAny (by simp [settings])
    · exact (Options.failsOnly_checkLineEnding _).refusesAny (by simp [settings])
    · exact (failsOnly_orElse (Options.failsOnly_checkInsertSpaces _) rfl).refusesAny
        (by simp [settings])

end Draft

end FormatSettings
