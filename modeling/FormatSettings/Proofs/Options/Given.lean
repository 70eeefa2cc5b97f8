import FormatSettings.Options.Arguments
import FormatSettings.Proofs.Draft.Records
import FormatSettings.Proofs.Draft.Validity
import FormatSettings.Proofs.Table

namespace FormatSettings

inductive Value.GivesWidths : Value → Widths.Draft → Prop
  | null : GivesWidths .null {}
  | widths (w : Widths) : GivesWidths (.widths w) w.thaw

inductive Value.GivesStyle : Value → Style.Draft → Prop
  | null : GivesStyle .null {}
  | style (s : Style) : GivesStyle (.style s) s.thaw

inductive Value.GivesFixes : Value → Option FixSet → Prop
  | null : GivesFixes .null none
  | elements {v : Value} {vs : List Value} {s : FixSet} (yields : v.elements? = some vs)
      (gathers : FixSet.ofValues? vs = .ok s) : GivesFixes v (some s)

/-- A draft that holds the values of arguments, and asks for no profile. -/
structure Draft.HoldsArguments (d : Draft) (t : Table) : Prop where
  profile : d.profile = .null
  indent : d.indent = t.valueOf Key.indent
  pageWidth : d.pageWidth = t.valueOf Key.pageWidth
  lineEnding : d.lineEnding = t.valueOf Key.lineEnding
  insertSpaces : d.insertSpaces = t.valueOf Key.insertSpaces
  fixes : (t.valueOf Key.fixes).GivesFixes d.fixes
  widths : (t.valueOf Key.widths).GivesWidths d.widths
  style : (t.valueOf Key.style).GivesStyle d.style

namespace Value

variable {v : Value}

theorem GivesWidths.bundleArgument {d : Widths.Draft} (h : v.GivesWidths d) :
    Options.bundleArgument ({} : Widths.Draft).toValue v = .ok d.toValue := by
  cases h <;> rfl

theorem GivesStyle.bundleArgument {d : Style.Draft} (h : v.GivesStyle d) :
    Options.bundleArgument ({} : Style.Draft).toValue v = .ok d.toValue := by
  cases h <;> rfl

theorem not_isNull_of_elements {vs : List Value} (h : v.elements? = some vs) : v.isNull = false := by
  cases v with
  | null => cases h
  | _ => rfl

theorem fixSet_of_elements {vs : List Value} (h : v.elements? = some vs) :
    v.fixSet = FixSet.ofValues? vs := by
  rw [fixSet, not_isNull_of_elements h, FixSet.ofValue?, h]
  rfl

theorem GivesFixes.fixSet {fixes : Option FixSet} (h : v.GivesFixes fixes) :
    v.fixSet = .ok (fixes.getD .empty) := by
  cases h with
  | null => rfl
  | elements yields gathers => rw [fixSet_of_elements yields, gathers, Option.getD_some]

theorem GivesFixes.fixesArgument {fixes : Option FixSet} (h : v.GivesFixes fixes) :
    Options.fixesArgument v = .ok fixes := by
  cases h with
  | null => rfl
  | elements yields gathers =>
    rw [Options.fixesArgument, not_isNull_of_elements yields, FixSet.ofValue?, yields]
    simp only [gathers]
    rfl

theorem GivesFixes.isBuilt {fixes : Option FixSet} (h : v.GivesFixes fixes) {s : FixSet}
    (hs : fixes = some s) : s.IsBuilt := by
  cases h with
  | null => cases hs
  | elements yields gathers =>
    cases hs
    exact FixSet.isBuilt_insertAll? FixSet.isBuilt_empty gathers

theorem GivesWidths.freeze {d : Widths.Draft} (h : v.GivesWidths d) :
    ∃ w, d.freeze = .ok w ∧ v.orElse (.widths Options.default.widths) = .widths w := by
  cases h with
  | null => exact ⟨_, rfl, rfl⟩
  | widths w => exact ⟨w, rfl, rfl⟩

theorem GivesStyle.resolve {d : Style.Draft} (h : v.GivesStyle d) (base : Style) :
    ∃ s, d.resolve base = .ok s ∧ v.orElse (.style base) = .style s := by
  cases h with
  | null => exact ⟨base, rfl, rfl⟩
  | style s => exact ⟨s, rfl, rfl⟩

end Value

namespace Options

/-- The bundles of arguments are of their kinds or null, and the fixes can be gathered in a set. -/
structure GivesBundles (t : Table) : Prop where
  widths : t.valueOf Key.widths = .null ∨ ∃ w, t.valueOf Key.widths = .widths w
  style : t.valueOf Key.style = .null ∨ ∃ s, t.valueOf Key.style = .style s
  fixes : t.valueOf Key.fixes = .null ∨
    ∃ vs, (t.valueOf Key.fixes).elements? = some vs ∧ ∀ v ∈ vs, v.isHashable = true

def resolved (t : Table) (base : Style) : Except Failure Options :=
  ofValues ((t.valueOf Key.indent).orElse (.int default.indent))
    ((t.valueOf Key.pageWidth).orElse (.int default.pageWidth)) (t.valueOf Key.lineEnding)
    ((t.valueOf Key.insertSpaces).orElse (.bool default.insertSpaces))
    ((t.valueOf Key.widths).orElse (.widths default.widths))
    ((t.valueOf Key.style).orElse (.style base)) (t.valueOf Key.fixes).fixSet

theorem GivesBundles.exists_holdsArguments {t : Table} (h : GivesBundles t) :
    ∃ d : Draft, d.HoldsArguments t ∧ d.sources = [] := by
  have hwidths : ∃ d, (t.valueOf Key.widths).GivesWidths d := by
    rcases h.widths with hnull | ⟨w, hw⟩
    · rw [hnull]
      exact ⟨_, .null⟩
    · rw [hw]
      exact ⟨_, .widths w⟩
  have hstyle : ∃ d, (t.valueOf Key.style).GivesStyle d := by
    rcases h.style with hnull | ⟨s, hs⟩
    · rw [hnull]
      exact ⟨_, .null⟩
    · rw [hs]
      exact ⟨_, .style s⟩
  have hfixes : ∃ fixes, (t.valueOf Key.fixes).GivesFixes fixes := by
    rcases h.fixes with hnull | ⟨vs, hvs, hhash⟩
    · rw [hnull]
      exact ⟨_, .null⟩
    · obtain ⟨s, hs⟩ := FixSet.insertAll?_of_hashable hhash .empty
      exact ⟨_, .elements hvs hs⟩
  obtain ⟨widths, hwidths⟩ := hwidths
  obtain ⟨style, hstyle⟩ := hstyle
  obtain ⟨fixes, hfixes⟩ := hfixes
  exact ⟨⟨.null, t.valueOf Key.indent, t.valueOf Key.pageWidth, t.valueOf Key.lineEnding,
    t.valueOf Key.insertSpaces, fixes, widths, style, []⟩,
    ⟨rfl, rfl, rfl, rfl, rfl, hfixes, hwidths, hstyle⟩, rfl⟩

end Options

namespace Draft.HoldsArguments

variable {d : Draft} {t : Table}

theorem hasBuiltFixes (h : d.HoldsArguments t) : d.HasBuiltFixes :=
  fun _ hs => h.fixes.isBuilt hs

theorem outcome_freeze (h : d.HoldsArguments t) (profile : Option Profile) :
    ({ d with profile := Value.ofOption .profile profile } : Draft).freeze.outcome =
      Options.resolved t (Style.under profile) := by
  obtain ⟨label, hlabel⟩ := labelOf_ofOption profile
  obtain ⟨widths, hwidths, hwidthsValue⟩ := h.widths.freeze
  obtain ⟨style, hstyle, hstyleValue⟩ := h.style.resolve (Style.under profile)
  rw [Draft.outcome_freeze, outcome_baseStyle rfl, hlabel, hwidths, Options.resolved, hwidthsValue,
    hstyleValue, h.fixes.fixSet, h.indent, h.pageWidth, h.lineEnding, h.insertSpaces]
  change (d.style.resolve (Style.under profile) >>= _) = _
  rw [hstyle]
  rfl

theorem outcome_freeze_default (h : d.HoldsArguments t) :
    d.freeze.outcome = Options.resolved t .default := by
  have hprofile : { d with profile := Value.ofOption .profile none } = d := by
    have hnull := h.profile
    cases d
    cases hnull
    rfl
  rw [← hprofile]
  exact h.outcome_freeze none

end Draft.HoldsArguments

namespace Options

theorem outcome_ofNullable {t : Table} (h : GivesBundles t) :
    (ofNullable t).outcome = resolved t .default := by
  obtain ⟨d, hd, hsources⟩ := h.exists_holdsArguments
  have htable : ({
        indent := t.valueOf Key.indent
        pageWidth := t.valueOf Key.pageWidth
        lineEnding := t.valueOf Key.lineEnding
        insertSpaces := t.valueOf Key.insertSpaces
        fixes := d.fixes } : Draft).tableWith
      [(Key.widths, d.widths.toValue), (Key.style, d.style.toValue)] = d.toTable := by
    rw [Draft.toTable, hd.profile, hd.indent, hd.pageWidth, hd.lineEnding, hd.insertSpaces, hsources]
    rfl
  rw [ofNullable, hd.fixes.fixesArgument, hd.widths.bundleArgument, hd.style.bundleArgument]
  change (Value.freezeOptions (Draft.tableWith _ _)).outcome = _
  rw [htable, Draft.freezeOptions_toTable hd.hasBuiltFixes, hd.outcome_freeze_default]

theorem outcome_optional {t : Table} (h : GivesBundles t) :
    (optional ⟨[], t⟩).outcome =
      Arguments.checkNames parameters [] t >>= fun _ => resolved t .default := by
  rw [optional, Arguments.bindNamed_named]
  cases Arguments.checkNames parameters [] t with
  | error f => rfl
  | ok _ => exact outcome_ofNullable h

end Options

end FormatSettings
