import FormatSettings.Proofs.FixSet
import FormatSettings.Proofs.Text.Folding

namespace FormatSettings.Fix

def words (f : Fix) : List String :=
  f.key :: f.name :: f.aliases

def IsSpelled (f : Fix) (token : String) : Prop :=
  ∃ word ∈ f.words, Text.Spells token word

variable {token spelling : String} {f g : Fix} {order : List Fix}

theorem isPlain_of_mem_words : ∀ word ∈ f.words, Text.IsPlain word.toList := by
  cases f <;> decide +kernel

theorem mem_spellings_iff : Text.foldToken token ∈ f.spellings ↔ f.IsSpelled token :=
  Text.mem_map_foldToken_iff isPlain_of_mem_words

theorem eq_of_mem_spellings (hf : spelling ∈ f.spellings) (hg : spelling ∈ g.spellings) : f = g := by
  have hall : ∀ f ∈ all, ∀ g ∈ all, ∀ spelling ∈ f.spellings, spelling ∈ g.spellings → f = g := by
    decide +kernel
  exact hall f (FixSet.mem_all f) g (FixSet.mem_all g) spelling hf hg

theorem IsSpelled.unique (hf : f.IsSpelled token) (hg : g.IsSpelled token) : f = g :=
  eq_of_mem_spellings (mem_spellings_iff.mpr hf) (mem_spellings_iff.mpr hg)

theorem find?_eq_some_iff (horder : ∀ f, f ∈ order) :
    order.find? (·.spellings.contains spelling) = some f ↔ spelling ∈ f.spellings := by
  constructor
  · intro h
    have hcontains := List.find?_some h
    exact List.contains_iff_mem.mp hcontains
  · intro h
    cases hfind : order.find? (·.spellings.contains spelling) with
    | none =>
      have hnot := List.find?_eq_none.mp hfind f (horder f)
      exact absurd (List.contains_iff_mem.mpr h) hnot
    | some g =>
      have hcontains := List.find?_some hfind
      rw [eq_of_mem_spellings (List.contains_iff_mem.mp hcontains) h]

theorem parse?_eq_some_iff : parse? token = some f ↔ f.IsSpelled token := by
  rw [parse?, find?_eq_some_iff FixSet.mem_all, mem_spellings_iff]

theorem parse?_eq_none (h : ∃ c ∈ Text.strip token.toList, 128 ≤ c.toNat) : parse? token = none := by
  obtain ⟨c, hc, hbeyond⟩ := h
  apply Option.eq_none_iff_forall_ne_some.mpr
  intro f hf
  obtain ⟨word, hword, hspells⟩ := parse?_eq_some_iff.mp hf
  have hascii := hspells.ascii (isPlain_of_mem_words word hword) c hc
  omega

/-- A token selects the fix of which it spells the key, the name or an alias, up to the case of letters,
the separators and the blanks around it, and otherwise none; a character beyond ASCII spells nothing. No
token spells two fixes, so none is selected by its place among them. -/
theorem parse_selects_spelled (token : String) :
    (∀ f, parse? token = some f ↔ IsSpelled f token) ∧
      ((∃ c ∈ Text.strip token.toList, 128 ≤ c.toNat) → parse? token = none) ∧
      (∀ f g, IsSpelled f token → IsSpelled g token → f = g) ∧
      ∀ order : List Fix, (∀ f, f ∈ order) →
        order.find? (fun f => f.spellings.contains (Text.foldToken token)) = parse? token := by
  refine ⟨fun f => parse?_eq_some_iff, parse?_eq_none, fun f g => IsSpelled.unique, ?_⟩
  intro order horder
  apply Option.ext
  intro f
  rw [parse?, find?_eq_some_iff horder, find?_eq_some_iff FixSet.mem_all]

theorem parse_selects_mixed_name :
    parse? "\u3000Optional neW\n" = some .optionalNew ∧ parse? "doc-comment\u017f" = none ∧
      [singleCascadeStatements, optionalNew, docComments, functionTypedefs, optionalConst,
        namedDefaultSeparator].find? (fun f => f.spellings.contains (Text.foldToken "New")) =
          some .optionalNew := by
  refine ⟨?_, ?_, ?_⟩
  · obtain ⟨hiff, -⟩ := parse_selects_spelled "\u3000Optional neW\n"
    exact (hiff .optionalNew).mpr ⟨"OPTIONAL_NEW", by decide, by decide +kernel⟩
  · obtain ⟨-, hbeyond, -⟩ := parse_selects_spelled "doc-comment\u017f"
    exact hbeyond ⟨'\u017f', by decide +kernel, by decide⟩
  · obtain ⟨hiff, -, -, horder⟩ := parse_selects_spelled "New"
    rw [horder _ fun f => by cases f <;> decide]
    exact (hiff .optionalNew).mpr ⟨"new", by decide, by decide +kernel⟩

end FormatSettings.Fix
