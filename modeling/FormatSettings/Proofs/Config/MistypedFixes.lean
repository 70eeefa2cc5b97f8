import FormatSettings.Proofs.Config.Keys

namespace FormatSettings

def Value.isList : Value → Bool
  | .list _ => true
  | _ => false

namespace Table

def sectionWithoutFixes (name : String) : Value → Value
  | .table entries =>
    .table (if name = Key.formatting then without entries Key.fixes else entries)
  | v => v

def withoutFixes (t : Table) : Table :=
  t.map fun e => (e.1, sectionWithoutFixes e.1 e.2)

theorem withoutFixes_eq (t : Table) : t.withoutFixes = t.withoutEntry .fixes := by
  apply List.map_congr_left
  rintro ⟨name, v⟩ -
  cases v <;> rfl

end Table

namespace Draft

variable {t : Table} {v : Value}

theorem listAt_mistyped (h : (t.tableAt Key.formatting).lookup Key.fixes = some v)
    (hlist : v.isList = false) : (t.tableAt Key.formatting).listAt Key.fixes = [] := by
  rw [Table.listAt, Table.valueOf, h, Option.getD_some]
  cases v with
  | list vs => cases hlist
  | _ => rfl

theorem listAt_withoutFixes (t : Table) :
    ((t.withoutEntry .fixes).tableAt Key.formatting).listAt Key.fixes = [] := by
  have hnone : ((t.withoutEntry .fixes).tableAt Key.formatting).lookup Key.fixes = none :=
    t.entryOf_withoutEntry .fixes
  rw [Table.listAt, Table.valueOf, hnone]
  rfl

theorem read_fixes_mistyped (h : (t.tableAt Key.formatting).lookup Key.fixes = some v)
    (hlist : v.isList = false) (source : String) :
    Field.fixes.read source (t.tableAt Key.formatting) = pure (.inr (some .empty)) := by
  rw [Field.read, readFixes, Table.hasKey, h, listAt_mistyped h hlist]
  rfl

theorem read_fixes_absent (t : Table) (source : String) :
    Field.fixes.read source ((t.withoutEntry .fixes).tableAt Key.formatting) = pure (.inr none) := by
  have hnone : ((t.withoutEntry .fixes).tableAt Key.formatting).lookup Key.fixes = none :=
    t.entryOf_withoutEntry .fixes
  rw [Field.read, readFixes, Table.hasKey, hnone]
  rfl

theorem warnings_ofTable_mistyped (file : Option String)
    (h : (t.tableAt Key.formatting).lookup Key.fixes = some v) (hlist : v.isList = false) :
    (ofTable t file).warnings = (ofTable t.withoutFixes file).warnings := by
  have hprofile : Field.fixes ≠ .profile := nofun
  rw [Table.withoutFixes_eq, warnings_ofTable, warnings_ofTable, fieldsRead_withoutEntry hprofile]
  apply List.flatMap_congr
  intro g _
  by_cases hg : g = .fixes
  · rw [hg, warningsOn, warningsOn, Field.sectionName, read_fixes_mistyped h hlist, read_fixes_absent]
    rfl
  · exact (warningsOn_withoutEntry t _ hg).symm

theorem outcome_ofTable_mistyped (file : Option String)
    (h : (t.tableAt Key.formatting).lookup Key.fixes = some v) (hlist : v.isList = false) :
    (ofTable t file).outcome =
      (ofTable t.withoutFixes file).outcome.map fun d => { d with fixes := some .empty } := by
  have hothers {g : Field} (hg : g ≠ .fixes) : t.entryOf g = (t.withoutEntry .fixes).entryOf g :=
    (t.entryOf_withoutEntry_of_ne hg).symm
  have hreadable : (t.tableAt Key.formatting).hasReadableFixes =
      ((t.withoutEntry .fixes).tableAt Key.formatting).hasReadableFixes := by
    rw [Table.hasReadableFixes, Table.hasReadableFixes, listAt_mistyped h hlist, listAt_withoutFixes]
  rw [Table.withoutFixes_eq]
  have hprofile : Field.profile ≠ .fixes := by decide
  apply outcome_ofTable_map (Table.readableProfile?_congr (hothers hprofile) hreadable)
  intro d e hd he
  have hsources : d.sources = e.sources := sources_congr hd he
  refine ext_setting (fun g => ?_) hsources
  by_cases hg : g = .fixes
  · subst hg
    have hread := read_ofTable hd .fixes
    rw [Field.sectionName, read_fixes_mistyped h hlist] at hread
    exact (Except.ok.inj hread).symm
  · rw [setting_congr hd he (hothers hg)]
    exact (setting_withFieldOf_of_ne e { fixes := some .empty } hg).symm

/-- Fixes of the wrong kind are not ignored: the table sets what it sets without them, and no fixes
besides; no warning is logged for them. Laid over a draft, they keep its fixes only if these are the
empty set. -/
theorem mistyped_fixes_clear_lower (b : Draft) (t : Table) (file : Option String) (v : Value)
    (h : (t.tableAt Key.formatting).lookup Key.fixes = some v) (hlist : v.isList = false) :
    (ofTable t file).outcome =
        (ofTable t.withoutFixes file).outcome.map (fun d => { d with fixes := some .empty }) ∧
      (ofTable t file).warnings = (ofTable t.withoutFixes file).warnings ∧
      ∀ d, (ofTable t file).outcome = .ok d → (b.merge d).fixes = some .empty ∧
        ((b.merge d).fixes = b.fixes ↔ b.fixes = some .empty) := by
  have houtcome := outcome_ofTable_mistyped file h hlist
  refine ⟨houtcome, warnings_ofTable_mistyped file h hlist, ?_⟩
  intro d hd
  have hmerged : (b.merge d).fixes = some .empty := by
    rw [houtcome] at hd
    cases hrest : (ofTable t.withoutFixes file).outcome with
    | error e =>
      rw [hrest] at hd
      cases hd
    | ok d' =>
      rw [hrest] at hd
      cases hd
      rfl
  exact ⟨hmerged, by rw [hmerged, eq_comm]⟩

def bareToken : Table :=
  [(Key.formatting, .table [(Key.fixes, .text "doc-comments")])]

theorem bareToken_clears_lower :
    (ofTable bareToken none).outcome = .ok { fixes := some .empty } ∧
      (ofTable bareToken none).warnings = [] ∧
      (merge { fixes := some (.ofFixes [.optionalNew]), indent := .int 4 }
        { fixes := some .empty }) = { fixes := some .empty, indent := .int 4 } := by
  obtain ⟨houtcome, hwarnings, hmerged⟩ := mistyped_fixes_clear_lower
    { fixes := some (.ofFixes [.optionalNew]), indent := .int 4 } bareToken none
    (.text "doc-comments") rfl rfl
  have hdraft : (ofTable bareToken none).outcome = .ok { fixes := some .empty } := by
    rw [houtcome]
    rfl
  have hfixes := (hmerged _ hdraft).1
  refine ⟨hdraft, hwarnings, ?_⟩
  rw [← hfixes]
  rfl

theorem bareToken_drops_optionalNew :
    ∃ d, (ofTable bareToken none).outcome = .ok d ∧
      (merge { fixes := some (.ofFixes [.optionalNew]) } d).fixes ≠
        some (.ofFixes [.optionalNew]) ∧
      (ofTable bareToken none).warnings = [] := by
  refine ⟨ofSettings bareToken none none, rfl, ?_, rfl⟩
  intro h
  have hfixes := FixSet.mk.inj (Option.some.inj h)
  have hnew : false = true := congrFun hfixes.1 .optionalNew
  cases hnew

end Draft

end FormatSettings
