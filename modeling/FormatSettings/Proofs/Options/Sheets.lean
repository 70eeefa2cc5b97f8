import FormatSettings.Options
import FormatSettings.Proofs.Toml.Sheet

/-!
Options are exported as three sheets: the settings of the formatting section, the indent widths and
the style flags.
-/

namespace FormatSettings

open Toml

def Fix.word (f : Fix) : Word :=
  ⟨f.key, by cases f <;> decide +kernel⟩

def LineEnding.word (e : LineEnding) : Word :=
  ⟨e.token, by cases e <;> decide +kernel⟩

def Widths.sheet (w : Widths)
    (h : ∀ n ∈ [w.block, w.cascade, w.expression, w.constructorInitializer],
      Text.withinDigitLimit (.ofNat n) = true) : Sheet where
  name := { text := Key.indent }
  pairs :=
    [({ text := Key.block }, .number w.block (h _ (by simp))),
     ({ text := Key.cascade }, .number w.cascade (h _ (by simp))),
     ({ text := Key.expression }, .number w.expression (h _ (by simp))),
     ({ text := Key.constructorInitializer }, .number w.constructorInitializer (h _ (by simp)))]
  nodup :=
    show [Key.block, Key.cascade, Key.expression, Key.constructorInitializer].Nodup by decide +kernel

def Style.sheet (s : Style) : Sheet where
  name := { text := Key.style }
  pairs :=
    [({ text := Key.bracesOnBlockLike }, .flag s.bracesOnBlockLike),
     ({ text := Key.bracesOnCollectionLiterals }, .flag s.bracesOnCollectionLiterals),
     ({ text := Key.bracesOnEnum }, .flag s.bracesOnEnum),
     ({ text := Key.tryClauseOnNewline }, .flag s.tryClauseOnNewline),
     ({ text := Key.ifElseOnNewline }, .flag s.ifElseOnNewline)]
  nodup :=
    show [Key.bracesOnBlockLike, Key.bracesOnCollectionLiterals, Key.bracesOnEnum,
      Key.tryClauseOnNewline, Key.ifElseOnNewline].Nodup by decide +kernel

namespace Options

def numbers (o : Options) : List Nat :=
  [o.indent, o.pageWidth, o.widths.block, o.widths.cascade, o.widths.expression,
   o.widths.constructorInitializer]

/-- Options that can be saved: their fixes are all known, and no number has too many digits. -/
structure Storable (o : Options) : Prop where
  others : o.fixes.others = []
  numbers : ∀ n ∈ o.numbers, Text.withinDigitLimit (.ofNat n) = true

def lineEndingPairs (n? : Option Newline) : List (Word × Datum) :=
  n?.toList.map fun n => ({ text := Key.lineEnding }, .word n.ending.word)

def formattingSheet (o : Options) (h : o.Storable) : Sheet where
  name := { text := Key.formatting }
  pairs :=
    [({ text := Key.indent }, .number o.indent (h.numbers _ (by simp [numbers]))),
     ({ text := Key.pageWidth }, .number o.pageWidth (h.numbers _ (by simp [numbers]))),
     ({ text := Key.insertSpaces }, .flag o.insertSpaces),
     ({ text := Key.fixes }, .words (o.fixes.fixes.map Fix.word))] ++ lineEndingPairs o.lineEnding
  nodup := by
    cases o.lineEnding with
    | none =>
      change [Key.indent, Key.pageWidth, Key.insertSpaces, Key.fixes].Nodup
      decide +kernel
    | some n =>
      change [Key.indent, Key.pageWidth, Key.insertSpaces, Key.fixes, Key.lineEnding].Nodup
      decide +kernel

def widthsSheet (o : Options) (h : o.Storable) : Sheet :=
  o.widths.sheet fun n hn => h.numbers n (List.mem_cons_of_mem _ (List.mem_cons_of_mem _ hn))

def sheets (o : Options) (h : o.Storable) : List Sheet :=
  [o.formattingSheet h, o.widthsSheet h, o.style.sheet]

theorem nodup_sheets (o : Options) (h : o.Storable) :
    ((o.sheets h).map fun s => s.name.text).Nodup := by
  change [Key.formatting, Key.indent, Key.style].Nodup
  decide +kernel

theorem toTable_eq_sheets (o : Options) (h : o.Storable) :
    o.toTable = .ok (sheetTable (o.sheets h)) := by
  have hkeys : o.fixes.keys? = .ok (o.fixes.fixes.map Fix.key) := by
    rw [FixSet.keys?, h.others]
  have hfixes : (Datum.words (o.fixes.fixes.map Fix.word)).value =
      .list ((o.fixes.fixes.map Fix.key).map .text) := by
    simp [Datum.value, Fix.word]
  have hformatting : o.formattingTable = .ok (o.formattingSheet h).table := by
    have htable : (o.formattingSheet h).table =
        [(Key.indent, .int o.indent), (Key.pageWidth, .int o.pageWidth),
         (Key.insertSpaces, .bool o.insertSpaces),
         (Key.fixes, (Datum.words (o.fixes.fixes.map Fix.word)).value)] ++
          (lineEndingPairs o.lineEnding).map fun e => (e.1.text, e.2.value) := rfl
    rw [formattingTable, hkeys, htable, hfixes]
    cases o.lineEnding with
    | none => rfl
    | some n => rfl
  rw [toTable, hformatting]
  rfl

end Options

end FormatSettings
