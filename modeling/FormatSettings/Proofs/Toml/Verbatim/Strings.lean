import FormatSettings.Proofs.Toml.ValueText
import FormatSettings.Proofs.Toml.Verbatim.Keys

namespace FormatSettings.Toml.Verbatim

structure Parted (cs more : List Char) : Prop where
  breaks : more = [] ∨ cs.getLast? = some '\n'
  noReturn : '\r' ∉ cs

theorem dropWhile_append_of_ne_nil {p : Char → Bool} {cs more : List Char}
    (h : cs.dropWhile p ≠ []) : (cs ++ more).dropWhile p = cs.dropWhile p ++ more := by
  rw [List.dropWhile_append, if_neg (by simpa using h)]

namespace Parted

variable {cs more : List Char}

theorem suffix (front : List Char) (h : Parted (front ++ cs) more) (hne : cs ≠ []) :
    Parted cs more where
  breaks := by
    refine h.breaks.imp_right fun hlast => ?_
    rwa [List.getLast?_append, List.getLast?_eq_some_getLast hne, Option.some_or,
      ← List.getLast?_eq_some_getLast hne] at hlast
  noReturn := fun hmem => h.noReturn (List.mem_append_right _ hmem)

theorem of_suffix {tail : List Char} (h : Parted cs more) (htail : tail <:+ cs) (hne : tail ≠ []) :
    Parted tail more := by
  obtain ⟨front, rfl⟩ := htail
  exact h.suffix front hne

theorem tail {c : Char} (h : Parted (c :: cs) more) (hne : cs ≠ []) : Parted cs more :=
  h.suffix [c] hne

theorem dropWhile_ne_nil (h : Parted cs more) {p : Char → Bool} (hp : p '\n' = false) :
    more = [] ∨ cs.dropWhile p ≠ [] := by
  refine h.breaks.imp_right fun hlast hdrop => ?_
  have hbreak := List.dropWhile_eq_nil_iff.mp hdrop '\n' (List.mem_of_getLast? hlast)
  rw [hp] at hbreak
  cases hbreak

theorem dropWhile (h : Parted cs more) {p : Char → Bool} (hp : p '\n' = false) :
    (cs ++ more).dropWhile p = cs.dropWhile p ++ more := by
  rcases h.dropWhile_ne_nil hp with rfl | hne
  · rw [List.append_nil, List.append_nil]
  · exact dropWhile_append_of_ne_nil hne

theorem takeWhile (h : Parted cs more) {p : Char → Bool} (hp : p '\n' = false) :
    (cs ++ more).takeWhile p = cs.takeWhile p := by
  have hboth : (cs ++ more).takeWhile p ++ (cs.dropWhile p ++ more) =
      cs.takeWhile p ++ (cs.dropWhile p ++ more) := by
    rw [← h.dropWhile hp, List.takeWhile_append_dropWhile, h.dropWhile hp, ← List.append_assoc,
      List.takeWhile_append_dropWhile]
  exact List.append_cancel_right hboth

theorem closing? (h : Parted cs more) {quote : Char} (hquote : quote ≠ '\n') :
    closing? quote (cs ++ more) =
      (closing? quote cs).map fun (quotes, rest) => (quotes, rest ++ more) := by
  have htake := h.takeWhile (p := (· == quote)) (by simpa using hquote.symm)
  have hlength := (List.takeWhile_prefix (· == quote) (l := cs)).length_le
  unfold Toml.closing?
  rw [htake]
  dsimp only
  split
  · rfl
  · rw [Option.map_some, List.drop_append_of_le_length (by omega)]

end Parted

theorem isLineSpace_of_isLineBlank {c : Char} (h : isLineBlank c = true) : isLineSpace c = true := by
  rw [isLineSpace, h]
  rfl

theorem skipBlankLines_eq {cs : List Char} (h : '\r' ∉ cs) :
    skipBlankLines cs = cs.dropWhile isLineSpace := by
  fun_induction skipBlankLines cs with
  | case1 rest ih => exact absurd List.mem_cons_self h
  | case2 c rest _ hspace ih =>
    have hc : isLineSpace c = true := by
      rw [isLineSpace, hspace, Bool.true_or]
    rw [List.dropWhile_cons, if_pos hc]
    exact ih fun hmem => h (List.mem_cons_of_mem _ hmem)
  | case3 c rest _ hspace =>
    have hreturn : c ≠ '\r' := fun heq => h (heq ▸ List.mem_cons_self)
    have hc : isLineSpace c = false := by
      rw [isLineSpace, Bool.or_eq_false_iff]
      exact ⟨by simpa using hspace, by simpa using hreturn⟩
    rw [List.dropWhile_cons, hc]
    rfl
  | case4 => rfl

theorem skipFold?_of_skipLineEnd? {cs more rest : List Char} (h : skipLineEnd? cs = some rest)
    (hreturn : '\r' ∉ cs) (hne : rest ≠ []) : skipFold? (cs ++ more) = some (rest ++ more) := by
  have hall := List.takeWhile_append_dropWhile (p := isLineBlank) (l := cs)
  have hblank : ∀ c ∈ cs.takeWhile isLineBlank, isLineSpace c = true :=
    fun c hc => isLineSpace_of_isLineBlank (blanks_takeWhile cs c hc)
  -- Without carriage returns the break is a line feed, and both readers drop the same.
  unfold skipLineEnd? at h
  split at h
  · next after hdrop =>
    rw [hdrop] at hall
    have hafter : '\r' ∉ after := by
      intro hmem
      apply hreturn
      rw [← hall]
      exact List.mem_append_right _ (List.mem_cons_of_mem _ hmem)
    rw [skipBlankLines_eq hafter, Option.some.injEq] at h
    subst h
    have hbreak : isLineSpace '\n' = true := rfl
    have hcontains : ((cs ++ more).takeWhile isLineSpace).contains '\n' = true := by
      rw [← hall, List.append_assoc, List.takeWhile_append_of_pos hblank, List.cons_append,
        List.takeWhile_cons, if_pos hbreak]
      simp
    have hskip : (cs ++ more).dropWhile isLineSpace = after.dropWhile isLineSpace ++ more := by
      rw [← hall, List.append_assoc, List.dropWhile_append_of_pos hblank, List.cons_append,
        List.dropWhile_cons, if_pos hbreak, dropWhile_append_of_ne_nil hne]
    rw [skipFold?, if_pos hcontains, hskip]
  · next after hdrop =>
    rw [hdrop] at hall
    refine absurd ?_ hreturn
    rw [← hall]
    simp
  · cases h

theorem skipFold?_of_escape {e : List Char} {c : Char} (he : IsEscape e c) (rest : List Char) :
    skipFold? (e ++ rest) = none := by
  cases e with
  | nil => exact absurd rfl he.nonempty
  | cons d e =>
    have hspace : isLineSpace d = false := by
      rw [Bool.eq_false_iff]
      intro hspace
      have hread := he.reads []
      simp only [isLineSpace, isLineBlank, Bool.or_eq_true, beq_iff_eq] at hspace
      rcases hspace with ((rfl | rfl) | rfl) | rfl
      all_goals cases hread
    rw [skipFold?, List.cons_append, List.takeWhile_cons, hspace]
    rfl

theorem skipLines?_basic {fuel keptFuel : Nat} {cs more text rest left : List Char}
    (h : readBasicLines? fuel cs = some (text, rest)) (hparted : Parted cs more)
    (hkept : skipLines? '"' keptFuel (cs ++ more) = some left) : left = rest ++ more := by
  induction fuel generalizing keptFuel cs text with
  | zero => cases h
  | succ fuel ih =>
    cases cs with
    | nil => cases h
    | cons c cs =>
      cases keptFuel with
      | zero => cases hkept
      | succ keptFuel =>
        have hclosing := hparted.closing? (by decide : '"' ≠ '\n')
        have hnext {tail text' : List Char} (htail : readBasicLines? fuel tail = some (text', rest))
            (hsuffix : tail <:+ cs) : Parted tail more :=
          hparted.of_suffix (hsuffix.trans (List.suffix_cons c cs))
            (takesWithin_of_readBasicLines? htail).takes.ne_nil
        rw [readBasicLines?] at h
        rw [List.cons_append] at hkept hclosing
        rw [skipLines?, hclosing] at hkept
        split at h
        · next quotes after hclose =>
          cases h
          rw [hclose] at hkept
          cases hkept
          rfl
        · next hclose =>
          rw [hclose, Option.map_none] at hkept
          dsimp only at hkept
          -- A backslash stands before the end of a line or an escape, which both tell apart.
          by_cases hslash : c = '\\'
          · subst hslash
            rw [if_pos (by decide)] at h hkept
            split at h
            · next after hfold =>
              have hafter := (takesWithin_of_readBasicLines? h).takes.ne_nil
              have hreturn : '\r' ∉ cs := fun hmem => hparted.noReturn (List.mem_cons_of_mem _ hmem)
              rw [skipFold?_of_skipLineEnd? hfold hreturn hafter] at hkept
              exact ih h (hnext h (suffix_of_skipLineEnd? hfold)) hkept
            · obtain ⟨⟨d, after⟩, hescape, h⟩ := Option.bind_eq_some_iff.mp h
              obtain ⟨⟨tail, last⟩, htail, heq⟩ := Option.map_eq_some_iff.mp h
              cases heq
              obtain ⟨e, rfl, he⟩ := isEscape_of_readEscape? hescape
              rw [List.append_assoc, skipFold?_of_escape he, he.keeps] at hkept
              exact ih htail (hnext htail (List.suffix_append e after)) hkept
          · rw [if_neg (by simpa using hslash)] at h hkept
            split at h
            · obtain ⟨⟨tail, last⟩, htail, heq⟩ := Option.map_eq_some_iff.mp h
              cases heq
              split at hkept
              · cases hkept
              · exact ih htail (hnext htail List.suffix_rfl) hkept
            · cases h

theorem skipLines?_literal {keptFuel : Nat} {cs more text rest left : List Char}
    (h : readLiteralLines? cs = some (text, rest)) (hparted : Parted cs more)
    (hkept : skipLines? '\x27' keptFuel (cs ++ more) = some left) : left = rest ++ more := by
  induction cs generalizing keptFuel text with
  | nil => cases h
  | cons c cs ih =>
    cases keptFuel with
    | zero => cases hkept
    | succ keptFuel =>
      have hclosing := hparted.closing? (by decide : '\x27' ≠ '\n')
      rw [readLiteralLines?] at h
      rw [List.cons_append] at hkept hclosing
      rw [skipLines?, hclosing] at hkept
      split at h
      · next quotes after hclose =>
        cases h
        rw [hclose] at hkept
        cases hkept
        rfl
      · next hclose =>
        rw [hclose, Option.map_none] at hkept
        dsimp only at hkept
        rw [if_neg (by simp)] at hkept
        split at h
        · obtain ⟨⟨tail, last⟩, htail, heq⟩ := Option.map_eq_some_iff.mp h
          cases heq
          have hne := (takesWithin_of_readLiteralLines? htail).takes.ne_nil
          split at hkept
          · cases hkept
          · exact ih htail (hparted.tail hne) hkept
        · cases h

theorem skipLines?_lineEnd {quote c : Char} (hquote : c ≠ quote) (hc : c = '\r' ∨ c = '\n')
    {fuel : Nat} {cs : List Char} :
    skipLines? quote (fuel + 1) (c :: cs) = skipLines? quote fuel cs := by
  have hclose : closing? quote (c :: cs) = none := by simp [closing?, hquote]
  rw [skipLines?, hclose]
  rcases hc with rfl | rfl <;> rfl

theorem skipLines?_break {quote : Char} (hquote : quote ≠ '\n') {fuel : Nat} {cs left : List Char}
    (h : skipLines? quote fuel ('\n' :: cs) = some left) :
    ∃ fuel, skipLines? quote fuel cs = some left := by
  cases fuel with
  | zero => cases h
  | succ fuel =>
    rw [skipLines?_lineEnd hquote.symm (.inr rfl)] at h
    exact ⟨fuel, h⟩

theorem skipLines?_skipFirstBreak {quote : Char} (hquote : quote ≠ '\n') {fuel : Nat}
    {inner more left : List Char} (hreturn : '\r' ∉ inner)
    (h : skipLines? quote fuel (inner ++ more) = some left) :
    ∃ fuel, skipLines? quote fuel (skipFirstBreak inner ++ more) = some left := by
  unfold skipFirstBreak
  split
  · exact skipLines?_break hquote h
  · exact absurd List.mem_cons_self hreturn
  · exact ⟨fuel, h⟩

theorem skipString?_line {quote : Char} (hquote : isQuote quote = true)
    {body more text rest left : List Char} (hbody : StringBody quote body text)
    (hparted : Parted (quote :: (body ++ rest)) more)
    (hthree : ∀ after, body ++ rest ≠ quote :: quote :: after)
    (h : skipString? (quote :: (body ++ rest ++ more)) = some left) : left = rest ++ more := by
  have hcontrol := isControl_of_isQuote hquote
  have hne : quote ≠ '\n' := by
    rintro rfl
    cases hquote
  have hread {fuel : Nat} {read : List Char × List Char}
      (hread : readText? quote fuel (body ++ rest ++ more) = some read) : read.2 = rest ++ more := by
    rw [List.append_assoc] at hread
    rw [hbody.readText? hcontrol hread]
  generalize hall : body ++ rest ++ more = all at h hread
  unfold skipString? at h
  split at h
  · next a b c after heq =>
    cases heq
    -- Three quotes would open a string on several lines, which the other reader has excluded.
    by_cases hsame : (quote == b && b == c) = true
    · exfalso
      rw [Bool.and_eq_true, beq_iff_eq, beq_iff_eq] at hsame
      obtain ⟨rfl, rfl⟩ := hsame
      cases hbody with
      | close =>
        cases rest with
        | nil =>
          rcases hparted.breaks with rfl | hlast
          · cases hall
          · exact hne (Option.some.inj hlast)
        | cons d rest =>
          cases hall
          exact hthree rest rfl
      | escape hdouble he _ =>
        rw [hdouble] at hall
        exact absurd (List.cons.inj hall).1 (by decide)
      | char hfirst => exact hfirst (List.cons.inj hall).1
    · rw [if_neg hsame] at h
      obtain ⟨read, hsome, rfl⟩ := Option.map_eq_some_iff.mp h
      exact hread hsome
  · next a after _ heq =>
    cases heq
    obtain ⟨read, hsome, rfl⟩ := Option.map_eq_some_iff.mp h
    exact hread hsome
  · next heq => cases heq

theorem skipString?_agrees {cs more text rest left : List Char}
    (h : readString? cs = some (text, rest)) (hparted : Parted cs more)
    (hkept : skipString? (cs ++ more) = some left) : left = rest ++ more := by
  have hinner (quotes inner : List Char) : skipFirstBreak inner <:+ quotes ++ inner :=
    (skipFirstBreak_suffix inner).trans (List.suffix_append quotes inner)
  unfold readString? at h
  split at h
  · next inner =>
    have hreturn : '\r' ∉ inner := fun hmem =>
      hparted.noReturn (List.mem_append_right ['"', '"', '"'] hmem)
    obtain ⟨fuel, hkept⟩ := skipLines?_skipFirstBreak (by decide) hreturn hkept
    refine skipLines?_basic h (hparted.of_suffix (hinner ['"', '"', '"'] inner) ?_) hkept
    exact (takesWithin_of_readBasicLines? h).takes.ne_nil
  · next inner =>
    have hreturn : '\r' ∉ inner := fun hmem =>
      hparted.noReturn (List.mem_append_right ['\x27', '\x27', '\x27'] hmem)
    obtain ⟨fuel, hkept⟩ := skipLines?_skipFirstBreak (by decide) hreturn hkept
    refine skipLines?_literal h (hparted.of_suffix (hinner ['\x27', '\x27', '\x27'] inner) ?_) hkept
    exact (takesWithin_of_readLiteralLines? h).takes.ne_nil
  · next inner hthree =>
    obtain ⟨body, rfl, hbody⟩ := stringBody_of_readBasic? h
    exact skipString?_line rfl hbody hparted (fun after heq => hthree after heq) hkept
  · next inner hthree =>
    obtain ⟨body, rfl, hbody⟩ := stringBody_of_readLiteral? h
    exact skipString?_line rfl hbody hparted (fun after heq => hthree after heq) hkept
  · cases h

end FormatSettings.Toml.Verbatim
