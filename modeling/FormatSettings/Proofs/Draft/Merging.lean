import FormatSettings.Config.Layers
import FormatSettings.Proofs.Draft.Records

namespace FormatSettings

namespace Widths.Draft

theorem merge_assoc (a b c : Draft) : (a.merge b).merge c = a.merge (b.merge c) := by
  simp only [merge, Value.orElse_assoc]

theorem merge_self (a : Draft) : a.merge a = a := by
  simp only [merge, Value.orElse_self]

end Widths.Draft

namespace Style.Draft

theorem merge_assoc (a b c : Draft) : (a.merge b).merge c = a.merge (b.merge c) := by
  simp only [merge, Value.orElse_assoc]

theorem merge_self (a : Draft) : a.merge a = a := by
  simp only [merge, Value.orElse_self]

end Style.Draft

namespace Draft

theorem merge_assoc (a b c : Draft) : (a.merge b).merge c = a.merge (b.merge c) := by
  simp only [merge, Value.orElse_assoc, Option.or_assoc, Widths.Draft.merge_assoc,
    Style.Draft.merge_assoc, List.append_assoc]

theorem merge_empty_right (a : Draft) : a.merge {} = a := by
  rw [merge, List.append_nil]
  rfl

theorem merge_self (a : Draft) : a.merge a = { a with sources := a.sources ++ a.sources } := by
  simp only [merge, Value.orElse_self, Option.or_self, Widths.Draft.merge_self,
    Style.Draft.merge_self]

theorem merge_withSources (a b : Draft) (sources : List Value) :
    a.merge { b with sources := sources } =
      { a.merge b with sources := a.sources ++ sources } := rfl

def lastSet (layers : List Draft) (setting : Draft → Value) : Value :=
  ((layers.map setting).reverse.find? (!·.isNull)).getD .null

def lastSettings (layers : List Draft) : Draft where
  profile := lastSet layers (·.profile)
  indent := lastSet layers (·.indent)
  pageWidth := lastSet layers (·.pageWidth)
  lineEnding := lastSet layers (·.lineEnding)
  insertSpaces := lastSet layers (·.insertSpaces)
  fixes := layers.reverse.findSome? (·.fixes)
  widths :=
    { block := lastSet layers (·.widths.block)
      cascade := lastSet layers (·.widths.cascade)
      expression := lastSet layers (·.widths.expression)
      constructorInitializer := lastSet layers (·.widths.constructorInitializer) }
  style :=
    { bracesOnBlockLike := lastSet layers (·.style.bracesOnBlockLike)
      bracesOnCollectionLiterals := lastSet layers (·.style.bracesOnCollectionLiterals)
      bracesOnEnum := lastSet layers (·.style.bracesOnEnum)
      tryClauseOnNewline := lastSet layers (·.style.tryClauseOnNewline)
      ifElseOnNewline := lastSet layers (·.style.ifElseOnNewline) }
  sources := layers.flatMap (·.sources)

theorem lastSet_cons (d : Draft) (layers : List Draft) (setting : Draft → Value) :
    lastSet (d :: layers) setting = (lastSet layers setting).orElse (setting d) := by
  rw [lastSet, List.map_cons, List.reverse_cons, List.find?_append, lastSet]
  cases h : (layers.map setting).reverse.find? (!·.isNull) with
  | some v =>
    have hset : v.isNull = false := by simpa using List.find?_some h
    exact (Value.orElse_of_not_isNull hset _).symm
  | none =>
    cases hd : (setting d).isNull with
    | true => simp [Value.isNull_iff.mp hd]
    | false => simp [hd]

theorem lastSettings_cons (d : Draft) (layers : List Draft) :
    lastSettings (d :: layers) = d.merge (lastSettings layers) := by
  have hfixes : (d :: layers).reverse.findSome? (·.fixes) =
      (layers.reverse.findSome? (·.fixes)).or d.fixes := by
    rw [List.reverse_cons, List.findSome?_append, List.findSome?_singleton]
  simp only [lastSettings, lastSet_cons, hfixes, List.flatMap_cons]
  rfl

theorem foldl_merge (layers : List Draft) (d : Draft) :
    layers.foldl merge d = lastSettings (d :: layers) := by
  rw [lastSettings_cons]
  induction layers generalizing d with
  | nil => exact (merge_empty_right d).symm
  | cons e layers ih => rw [List.foldl_cons, ih, merge_assoc, lastSettings_cons]

/-- Merging is associative with the empty draft as its unit, and a layer merged twice in a row differs
only in the sources. A fold of layers takes each setting from the last of them that sets it. -/
theorem merged_layers_take_last_settings :
    (∀ a b c : Draft, (a.merge b).merge c = a.merge (b.merge c)) ∧
      (∀ a : Draft, Draft.merge {} a = a ∧ a.merge {} = a) ∧
      (∀ a b : Draft, (a.merge b).merge b =
        { a.merge b with sources := a.sources ++ (b.sources ++ b.sources) }) ∧
      (∀ (d : Draft) (layers : List Draft), layers.foldl merge d = lastSettings (d :: layers)) ∧
      ∀ layers : List Draft, Config.mergeAll layers = lastSettings layers := by
  refine ⟨merge_assoc, fun a => ⟨merge_empty_left a, merge_empty_right a⟩, ?_, ?_, ?_⟩
  · intro a b
    rw [merge_assoc, merge_self, merge_withSources]
  · intro d layers
    exact foldl_merge layers d
  · intro layers
    rw [Config.mergeAll, foldl_merge, lastSettings_cons, merge_empty_left]

end Draft

end FormatSettings
