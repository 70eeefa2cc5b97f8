import FormatSettings.Proofs.Toml.ValueText
import FormatSettings.Proofs.Toml.Saying

namespace FormatSettings.Toml

/-- A text that no line ends within, wherever it starts in this mode. -/
def Passes (mode : Mode) (body : List Char) (next : Mode) : Prop :=
  ∀ more, splitFrom mode (body ++ more) = (body ++ (splitFrom next more).1, (splitFrom next more).2)

namespace Passes

variable {mode middle next : Mode} {body more : List Char}

theorem nil : Passes mode [] mode := fun _ => rfl

theorem append (h : Passes mode body middle) (hmore : Passes middle more next) :
    Passes mode (body ++ more) next := by
  intro rest
  rw [List.append_assoc, h, hmore, List.append_assoc]

theorem char {c : Char} (h : c ≠ '\n' ∨ mode.ends = false) : Passes mode [c] (mode.step c) := by
  intro rest
  have hstay : (c == '\n' && mode.ends) = false := by
    rcases h with hc | hends
    · rw [beq_false_of_ne hc, Bool.false_and]
    · rw [hends, Bool.and_false]
  rw [List.singleton_append, splitFrom, hstay, if_neg Bool.false_ne_true]
  rfl

theorem foldl (h : '\n' ∉ body) : Passes mode body (body.foldl Mode.step mode) := by
  intro rest
  exact splitFrom_append (fun c hc heq => h (heq ▸ hc)) mode rest

/-- A mode that stays as it is and in which no line ends. -/
theorem stay (hends : mode.ends = false) (h : ∀ c ∈ body, mode.step c = mode) :
    Passes mode body mode := by
  induction body with
  | nil => exact .nil
  | cons c body ih =>
    have hfirst : Passes mode [c] (mode.step c) := .char (.inr hends)
    rw [h c List.mem_cons_self] at hfirst
    exact hfirst.append (ih fun d hd => h d (List.mem_cons_of_mem _ hd))

end Passes

/-- From `cs` to `rest` no line ends, and all strings and brackets opened in between are closed. -/
def Crosses (mode : Mode) (depth : Nat) (cs rest : List Char) : Prop :=
  ∃ body next, cs = body ++ rest ∧ Passes mode body next ∧ next.Settled depth

theorem Passes.crosses {mode middle : Mode} {depth : Nat} {front cs rest : List Char}
    (h : Passes mode front middle) (hcs : Crosses middle depth cs rest) :
    Crosses mode depth (front ++ cs) rest := by
  obtain ⟨body, next, rfl, hbody, hnext⟩ := hcs
  exact ⟨front ++ body, next, (List.append_assoc _ _ _).symm, h.append hbody, hnext⟩

theorem closing?_eq_some {quote : Char} {cs quotes rest : List Char}
    (h : closing? quote cs = some (quotes, rest)) :
    ∃ n, quotes = List.replicate n quote ∧ cs = List.replicate (n + 3) quote ++ rest ∧ n ≤ 2 := by
  have hall := List.takeWhile_append_dropWhile (p := (· == quote)) (l := cs)
  have hfront : cs.takeWhile (· == quote) =
      List.replicate (cs.takeWhile (· == quote)).length quote :=
    List.eq_replicate_of_mem fun c hc =>
      beq_iff_eq.mp (List.mem_takeWhile_imp (p := (· == quote)) hc)
  unfold closing? at h
  dsimp only at h
  generalize (cs.takeWhile (· == quote)).length = count at h hfront
  split at h
  · cases h
  · next hcount =>
    cases h
    refine ⟨min (count - 3) 2, rfl, ?_, Nat.min_le_right _ _⟩
    obtain ⟨behind, hbehind⟩ : ∃ k, count = min (count - 3) 2 + 3 + k :=
      ⟨count - (min (count - 3) 2 + 3), by omega⟩
    generalize min (count - 3) 2 + 3 = taken at hbehind ⊢
    subst hbehind
    rw [hfront, ← List.replicate_append_replicate, List.append_assoc] at hall
    rw [← hall, List.drop_left' List.length_replicate]

theorem takeWhile_broken {p : Char → Bool} (hp : p '\n' = false) (cs : List Char) :
    (cs ++ ['\n']).takeWhile p = cs.takeWhile p ∧
      (cs ++ ['\n']).dropWhile p = cs.dropWhile p ++ ['\n'] := by
  induction cs with
  | nil => simp [hp]
  | cons c cs ih =>
    rw [List.cons_append, List.takeWhile_cons, List.takeWhile_cons, List.dropWhile_cons,
      List.dropWhile_cons, ih.1, ih.2]
    cases p c <;> exact ⟨rfl, rfl⟩

theorem closing?_broken {quote : Char} (hquote : quote ≠ '\n') (cs : List Char) :
    closing? quote (cs ++ ['\n']) =
      (closing? quote cs).map fun (quotes, rest) => (quotes, rest ++ ['\n']) := by
  have htake := (takeWhile_broken (p := (· == quote)) (by simpa using hquote.symm) cs).1
  have hlength := (List.takeWhile_prefix (· == quote) (l := cs)).length_le
  unfold closing?
  rw [htake]
  dsimp only
  split
  · rfl
  · rw [Option.map_some, List.drop_append_of_le_length (by omega)]

section Multi

variable {quote : Char} {depth : Nat}

theorem crosses_closing {cs quotes rest : List Char} (hquote : isQuote quote = true)
    (h : closing? quote cs = some (quotes, rest)) : Crosses (.multi quote depth 0 false) depth cs rest := by
  obtain ⟨n, -, rfl, hn⟩ := closing?_eq_some h
  have hfeed : '\n' ∉ List.replicate (n + 3) quote := by
    intro hmem
    rw [← List.eq_of_mem_replicate hmem] at hquote
    cases hquote
  refine ⟨List.replicate (n + 3) quote, _, rfl, .foldl hfeed, .inr ⟨quote, hquote, .inr ⟨2 - n, ?_⟩⟩⟩
  -- Three quotes close the string, and up to two more count as its own.
  obtain rfl | rfl | rfl : n = 0 ∨ n = 1 ∨ n = 2 := by omega
  · simp [List.replicate, Mode.step, Mode.stepMulti]
  · simp [List.replicate, Mode.step, Mode.stepMulti]
  · simp [List.replicate, Mode.step, Mode.stepMulti]

theorem passes_multi {body : List Char} (h : ∀ c ∈ body, c ≠ quote ∧ (quote = '"' → c ≠ '\\')) :
    Passes (.multi quote depth 0 false) body (.multi quote depth 0 false) := by
  refine .stay rfl fun c hc => ?_
  obtain ⟨hne, hslash⟩ := h c hc
  have hescape : (quote == '"' && c == '\\') = false := by
    rw [Bool.and_eq_false_imp, beq_iff_eq]
    exact fun hdouble => beq_false_of_ne (hslash hdouble)
  simp [Mode.step, Mode.stepMulti, hne, hescape]

theorem passes_escaped {c : Char} {body : List Char} (met : Nat) (h : ∀ c ∈ body, c ≠ '"' ∧ c ≠ '\\') :
    Passes (.multi '"' depth met false) ('\\' :: c :: body) (.multi '"' depth 0 false) := by
  have hslash : Passes (.multi '"' depth met false) ['\\'] (.multi '"' depth 0 true) := .char (.inr rfl)
  have hchar : Passes (.multi '"' depth 0 true) [c] (.multi '"' depth 0 false) := .char (.inr rfl)
  exact (hslash.append hchar).append (passes_multi fun d hd => ⟨(h d hd).1, fun _ => (h d hd).2⟩)

/-- Quotes met one after the other: fewer than three, or they would close the string. -/
def Few (quote : Char) (met : Nat) (cs : List Char) : Prop :=
  met = 0 ∨ met + (cs.takeWhile (· == quote)).length < 3

theorem few_of_char (depth : Nat) {c : Char} {cs : List Char} {met : Nat} (hfew : Few quote met (c :: cs))
    (h : closing? quote (c :: cs) = none) (hquote : isQuote quote = true)
    (hslash : quote = '"' → c ≠ '\\') :
    ∃ next, Passes (.multi quote depth met false) [c] (.multi quote depth next false) ∧
      Few quote next cs := by
  have hpass : Passes (.multi quote depth met false) [c] _ := .char (.inr rfl)
  by_cases hc : c = quote
  · subst hc
    have hcount : met + (cs.takeWhile (· == c)).length + 1 < 3 := by
      rcases hfew with rfl | hfew
      · unfold closing? at h
        dsimp only at h
        split at h
        · next hlt => simpa [Nat.add_comm] using hlt
        · cases h
      · simpa [Nat.add_assoc] using hfew
    have hstep : Mode.step (.multi c depth met false) c = .multi c depth (met + 1) false := by
      have hmet : met ≠ 2 := by omega
      simp [Mode.step, Mode.stepMulti, hmet]
    rw [hstep] at hpass
    exact ⟨met + 1, hpass, .inr (by omega)⟩
  · have hescape : (quote == '"' && c == '\\') = false := by
      rw [Bool.and_eq_false_imp, beq_iff_eq]
      exact fun hdouble => beq_false_of_ne (hslash hdouble)
    have hstep : Mode.step (.multi quote depth met false) c = .multi quote depth 0 false := by
      simp [Mode.step, Mode.stepMulti, hc, hescape]
    rw [hstep] at hpass
    exact ⟨0, hpass, .inl rfl⟩

end Multi

def IsSpace (c : Char) : Prop :=
  isLineBlank c = true ∨ c = '\n'

theorem IsSpace.plain {c : Char} (h : IsSpace c) : c ≠ '"' ∧ c ≠ '\\' := by
  rcases h with hblank | rfl
  · exact ⟨ne_of_isLineBlank hblank rfl, ne_of_isLineBlank hblank rfl⟩
  · decide

theorem skipBlankLines_broken {cs : List Char} (hreturn : '\r' ∉ cs) :
    (∃ body, cs = body ++ skipBlankLines cs ∧ ∀ c ∈ body, IsSpace c) ∧
      (skipBlankLines cs ≠ [] → skipBlankLines (cs ++ ['\n']) = skipBlankLines cs ++ ['\n']) := by
  fun_induction skipBlankLines cs with
  | case1 => exact absurd List.mem_cons_self hreturn
  | case2 c rest _ hspace ih =>
    obtain ⟨⟨body, hrest, hbody⟩, hbroken⟩ := ih fun hmem => hreturn (List.mem_cons_of_mem _ hmem)
    rw [Bool.or_eq_true, beq_iff_eq] at hspace
    refine ⟨⟨c :: body, by rw [List.cons_append, ← hrest], ?_⟩, fun hne => ?_⟩
    · simp only [List.mem_cons, forall_eq_or_imp]
      exact ⟨hspace, hbody⟩
    · rw [List.cons_append, skipBlankLines, if_pos (by rwa [Bool.or_eq_true, beq_iff_eq]), hbroken hne]
      exact fun _ heq _ => hreturn (heq ▸ List.mem_cons_self)
  | case3 c rest _ hspace =>
    refine ⟨⟨[], rfl, List.forall_mem_nil _⟩, fun _ => ?_⟩
    rw [List.cons_append, skipBlankLines, if_neg hspace]
    exact fun _ heq _ => hreturn (heq ▸ List.mem_cons_self)
  | case4 => exact ⟨⟨[], rfl, List.forall_mem_nil _⟩, fun hne => absurd rfl hne⟩

theorem skipLineEnd?_broken {cs rest : List Char} (hreturn : '\r' ∉ cs)
    (h : skipLineEnd? cs = some rest) :
    (∃ c body, cs = c :: body ++ rest ∧ ∀ c ∈ body, IsSpace c) ∧
      (rest ≠ [] → skipLineEnd? (cs ++ ['\n']) = some (rest ++ ['\n'])) := by
  have hall := List.takeWhile_append_dropWhile (p := isLineBlank) (l := cs)
  have hblanks := blanks_takeWhile cs
  have hdrop := (takeWhile_broken (p := isLineBlank) rfl cs).2
  unfold skipLineEnd? at h ⊢
  rw [hdrop]
  split at h
  · next behind heq =>
    cases h
    rw [heq] at hall ⊢
    have hbehind : '\r' ∉ behind := by
      intro hmem
      rw [← hall] at hreturn
      simp [hmem] at hreturn
    obtain ⟨⟨body, hbody, hspaces⟩, hbroken⟩ := skipBlankLines_broken hbehind
    refine ⟨?_, fun hne => ?_⟩
    · have hline : ∀ c ∈ cs.takeWhile isLineBlank ++ '\n' :: body, IsSpace c := by
        intro c hc
        rcases List.mem_append.mp hc with hc | hc
        · exact .inl (hblanks c hc)
        · rcases List.mem_cons.mp hc with rfl | hc
          · exact .inr rfl
          · exact hspaces c hc
      have hcs : cs = (cs.takeWhile isLineBlank ++ '\n' :: body) ++ skipBlankLines behind := by
        rw [List.append_assoc, List.cons_append, ← hbody, hall]
      obtain ⟨c, tail, hcons⟩ := List.exists_cons_of_ne_nil
        (show cs.takeWhile isLineBlank ++ '\n' :: body ≠ [] by simp)
      rw [hcons] at hline hcs
      exact ⟨c, tail, hcs, fun d hd => hline d (List.mem_cons_of_mem _ hd)⟩
    · simp only [List.cons_append]
      rw [hbroken hne]
  · next behind heq =>
    rw [heq] at hall
    exact absurd (hall ▸ List.mem_append_right _ List.mem_cons_self) hreturn
  · cases h

theorem skipLineEnd?_of_escape {e : List Char} {c : Char} (he : IsEscape e c) (rest : List Char) :
    skipLineEnd? (e ++ rest) = none := by
  cases e with
  | nil => exact absurd rfl he.nonempty
  | cons d e =>
    have hfeed {d : Char} (hd : d ∈ [' ', '\t', '\n', '\r']) : readEscape? (d :: e ++ []) ≠ some (c, []) := by
      simp only [List.mem_cons, List.not_mem_nil, or_false] at hd
      rcases hd with rfl | rfl | rfl | rfl
      all_goals exact fun hread => nomatch hread
    have hother : d ∉ [' ', '\t', '\n', '\r'] := fun hd => hfeed hd (he.reads [])
    simp only [List.mem_cons, List.not_mem_nil, or_false, not_or] at hother
    obtain ⟨hspace, htab, hbreak, hreturn⟩ := hother
    have hblank : isLineBlank d = false := by simp [isLineBlank, hspace, htab]
    rw [skipLineEnd?, List.cons_append, List.dropWhile_cons, hblank, if_neg Bool.false_ne_true]
    split
    · next heq => exact absurd (List.cons.inj heq).1 hbreak
    · next heq => exact absurd (List.cons.inj heq).1 hreturn
    · rfl

theorem mayStandInLines_of_ne {c : Char} (h : c ≠ '\r') (cs more : List Char) :
    mayStandInLines c more = mayStandInLines c cs := by
  rw [mayStandInLines, mayStandInLines, beq_false_of_ne h, Bool.false_and, Bool.false_and]

/-- A string of several lines is read up to the same place if a break is put at the end of the text. -/
def ReadsOn {α : Type} (read : List Char → Option (α × List Char)) (mode : Mode) (depth : Nat)
    (cs : List Char) (a : α) (rest : List Char) : Prop :=
  Crosses mode depth cs rest ∧ read (cs ++ ['\n']) = some (a, rest ++ ['\n'])

theorem met_of_closing? {quote : Char} {cs quotes rest : List Char} {met : Nat} (hfew : Few quote met cs)
    (h : closing? quote cs = some (quotes, rest)) : met = 0 := by
  rcases hfew with hmet | hfew
  · exact hmet
  · obtain ⟨n, -, rfl, -⟩ := closing?_eq_some h
    have hquotes : ∀ c ∈ List.replicate (n + 3) quote, (c == quote) = true :=
      fun c hc => beq_iff_eq.mpr (List.eq_of_mem_replicate hc)
    rw [List.takeWhile_append_of_pos hquotes, List.length_append, List.length_replicate] at hfew
    omega

theorem readBasicLines?_on {fuel more : Nat} {cs text rest : List Char} {met : Nat} (depth : Nat)
    (hreturn : '\r' ∉ cs) (hfew : Few '"' met cs) (h : readBasicLines? fuel cs = some (text, rest))
    (hmore : fuel ≤ more) :
    ReadsOn (readBasicLines? more) (.multi '"' depth met false) depth cs text rest := by
  induction fuel generalizing more cs text met with
  | zero => cases h
  | succ fuel ih =>
    obtain ⟨more, rfl⟩ : ∃ k, more = k + 1 := ⟨more - 1, by omega⟩
    cases cs with
    | nil => cases h
    | cons c cs =>
      have hbehind (front : List Char) {tail : List Char} (heq : c :: cs = front ++ tail) : '\r' ∉ tail := by
        intro hmem
        rw [heq] at hreturn
        simp [hmem] at hreturn
      have hcs : '\r' ∉ cs := hbehind [c] rfl
      have hclosing := @closing?_broken '"' (by decide) (c :: cs)
      have hle : fuel ≤ more := Nat.le_of_succ_le_succ hmore
      rw [List.cons_append] at hclosing
      unfold ReadsOn
      rw [readBasicLines?] at h
      rw [List.cons_append, readBasicLines?]
      split at h
      · next hclose =>
        cases h
        rw [met_of_closing? hfew hclose, hclosing, hclose]
        exact ⟨crosses_closing rfl hclose, rfl⟩
      · next hclose =>
        rw [hclosing, hclose, Option.map_none]
        dsimp only
        split at h
        · next hslash =>
          rw [beq_iff_eq] at hslash
          subst hslash
          rw [if_pos (beq_self_eq_true '\\')]
          split at h
          · next after hfold =>
            obtain ⟨⟨d, body, rfl, hspaces⟩, hbroken⟩ := skipLineEnd?_broken hcs hfold
            have hafter : '\r' ∉ after := hbehind ('\\' :: d :: body) rfl
            obtain ⟨hcross, hread⟩ := ih hafter (.inl rfl) h hle
            have hne : after ≠ [] := (takesWithin_of_readBasicLines? h).takes.ne_nil
            rw [hbroken hne]
            exact ⟨(passes_escaped met fun c hc => (hspaces c hc).plain).crosses hcross, hread⟩
          · obtain ⟨⟨d, after⟩, hescape, h⟩ := Option.bind_eq_some_iff.mp h
            obtain ⟨⟨tail, last⟩, htail, heq⟩ := Option.map_eq_some_iff.mp h
            cases heq
            obtain ⟨e, rfl, he⟩ := isEscape_of_readEscape? hescape
            have hafter : '\r' ∉ after := hbehind ('\\' :: e) rfl
            obtain ⟨hcross, hread⟩ := ih hafter (.inl rfl) htail hle
            rw [List.append_assoc, skipLineEnd?_of_escape he, he.reads, Option.bind_some, hread]
            refine ⟨?_, rfl⟩
            obtain ⟨x, xs, rfl⟩ := List.exists_cons_of_ne_nil he.nonempty
            exact (passes_escaped met he.plain).crosses hcross
        · next hslash =>
          rw [beq_iff_eq] at hslash
          split at h
          · next hstands =>
            obtain ⟨⟨tail, last⟩, htail, heq⟩ := Option.map_eq_some_iff.mp h
            cases heq
            have hc : c ≠ '\r' := fun heq => hreturn (heq ▸ List.mem_cons_self)
            obtain ⟨next, hpass, hnext⟩ := few_of_char depth hfew hclose rfl fun _ => hslash
            obtain ⟨hcross, hread⟩ := ih hcs hnext htail hle
            rw [if_neg (by simpa using hslash), mayStandInLines_of_ne hc cs, if_pos hstands, hread]
            exact ⟨hpass.crosses hcross, rfl⟩
          · cases h

theorem readLiteralLines?_on {cs text rest : List Char} {met : Nat} (depth : Nat) (hreturn : '\r' ∉ cs)
    (hfew : Few '\x27' met cs) (h : readLiteralLines? cs = some (text, rest)) :
    ReadsOn readLiteralLines? (.multi '\x27' depth met false) depth cs text rest := by
  induction cs generalizing text met with
  | nil => cases h
  | cons c cs ih =>
    have hclosing := @closing?_broken '\x27' (by decide) (c :: cs)
    rw [List.cons_append] at hclosing
    unfold ReadsOn
    rw [readLiteralLines?] at h
    rw [List.cons_append, readLiteralLines?]
    split at h
    · next hclose =>
      cases h
      rw [met_of_closing? hfew hclose, hclosing, hclose]
      exact ⟨crosses_closing rfl hclose, rfl⟩
    · next hclose =>
      rw [hclosing, hclose, Option.map_none]
      dsimp only
      split at h
      · next hstands =>
        obtain ⟨⟨tail, last⟩, htail, heq⟩ := Option.map_eq_some_iff.mp h
        cases heq
        have hc : c ≠ '\r' := fun heq => hreturn (heq ▸ List.mem_cons_self)
        obtain ⟨next, hpass, hnext⟩ := few_of_char depth hfew hclose rfl
          fun hquote => absurd hquote (by decide)
        obtain ⟨hcross, hread⟩ := ih (fun hmem => hreturn (List.mem_cons_of_mem _ hmem)) hnext htail
        rw [mayStandInLines_of_ne hc cs, if_pos hstands, hread]
        exact ⟨hpass.crosses hcross, rfl⟩
      · cases h

theorem passes_quotes {quote : Char} (hquote : isQuote quote = true) (depth : Nat) :
    Passes (.plain depth) [quote, quote, quote] (.multi quote depth 0 false) := by
  have hbreak : '\n' ∉ [quote, quote, quote] := by
    rcases isQuote_iff.mp hquote with rfl | rfl <;> decide
  have hpass : Passes (.plain depth) _ _ := .foldl hbreak
  rcases isQuote_iff.mp hquote with rfl | rfl
  · exact hpass
  · exact hpass

theorem skipFirstBreak_on {quote : Char} (hquote : isQuote quote = true) (depth : Nat) {cs : List Char}
    (hreturn : '\r' ∉ cs) :
    ∃ front, cs = front ++ skipFirstBreak cs ∧
      Passes (.multi quote depth 0 false) front (.multi quote depth 0 false) ∧
      (skipFirstBreak cs ≠ [] → skipFirstBreak (cs ++ ['\n']) = skipFirstBreak cs ++ ['\n']) := by
  unfold skipFirstBreak
  split
  · next rest =>
    refine ⟨['\n'], rfl, passes_multi fun c hc => ?_, fun _ => rfl⟩
    obtain rfl := List.mem_singleton.mp hc
    refine ⟨?_, fun _ => by decide⟩
    rcases isQuote_iff.mp hquote with rfl | rfl <;> decide
  · exact absurd List.mem_cons_self hreturn
  · next hbreak hpair =>
    refine ⟨[], rfl, .nil, fun hne => ?_⟩
    obtain ⟨c, tail, rfl⟩ := List.exists_cons_of_ne_nil hne
    rw [List.cons_append]
    split
    · next heq => exact absurd (congrArg (· :: tail) (List.cons.inj heq).1) (hbreak tail)
    · next heq => exact absurd ((List.cons.inj heq).1 ▸ List.mem_cons_self) hreturn
    · rfl

theorem eq_of_broken {quote : Char} (hquote : quote ≠ '\n') {cs rest : List Char}
    (h : cs ++ ['\n'] = quote :: quote :: rest) : ∃ tail, cs = quote :: quote :: tail := by
  match cs, h with
  | [], h => exact absurd (List.cons.inj h).1.symm hquote
  | [c], h => exact absurd (List.cons.inj (List.cons.inj h).2).1.symm hquote
  | c :: d :: cs, h =>
    obtain ⟨rfl, h⟩ := List.cons.inj h
    obtain ⟨rfl, -⟩ := List.cons.inj h
    exact ⟨cs, rfl⟩

theorem StringBody.on {quote : Char} (hquote : isQuote quote = true) {body text : List Char}
    (h : StringBody quote body text) (depth : Nat) (rest : List Char) :
    Crosses (.plain depth) depth (quote :: (body ++ rest)) rest := by
  have hnone : '\n' ∉ body := h.not_mem (isControl_of_isQuote hquote) (by decide)
  have hbreak : '\n' ∉ quote :: body := by
    rcases isQuote_iff.mp hquote with rfl | rfl <;> simp [hnone]
  exact ⟨quote :: body, _, rfl, .foldl hbreak, h.settled hquote depth⟩

theorem readString?_basic {cs : List Char} (h : ∀ rest, cs ≠ '"' :: '"' :: rest) :
    readString? ('"' :: cs) = readBasic? (cs.length + 1) cs := by
  unfold readString?
  split
  · next heq => exact absurd (List.cons.inj heq).2 (h _)
  · next heq => exact absurd (List.cons.inj heq).1 (by decide)
  · next heq => rw [(List.cons.inj heq).2]
  · next heq => exact absurd (List.cons.inj heq).1 (by decide)
  · next _ _ hnone _ => exact absurd rfl (hnone _)

theorem readString?_literal {cs : List Char} (h : ∀ rest, cs ≠ '\x27' :: '\x27' :: rest) :
    readString? ('\x27' :: cs) = readLiteral? cs := by
  unfold readString?
  split
  · next heq => exact absurd (List.cons.inj heq).1 (by decide)
  · next heq => exact absurd (List.cons.inj heq).2 (h _)
  · next heq => exact absurd (List.cons.inj heq).1 (by decide)
  · next heq => rw [(List.cons.inj heq).2]
  · next hnone => exact absurd rfl (hnone _)

/-- Three quotes and the break behind them open a string of several lines. -/
theorem ReadsOn.opened {quote : Char} (hquote : isQuote quote = true) {depth : Nat}
    {inner text rest : List Char} {read : List Char → Option (List Char × List Char)}
    (hreturn : '\r' ∉ inner) (hne : skipFirstBreak inner ≠ [])
    (h : '\r' ∉ skipFirstBreak inner →
      ReadsOn read (.multi quote depth 0 false) depth (skipFirstBreak inner) text rest) :
    Crosses (.plain depth) depth (quote :: quote :: quote :: inner) rest ∧
      skipFirstBreak (inner ++ ['\n']) = skipFirstBreak inner ++ ['\n'] ∧
      read (skipFirstBreak inner ++ ['\n']) = some (text, rest ++ ['\n']) := by
  obtain ⟨front, hfront, hpass, hbroken⟩ := skipFirstBreak_on hquote depth hreturn
  obtain ⟨hcross, hread⟩ := h fun hmem => hreturn (by
    rw [hfront]
    exact List.mem_append_right front hmem)
  have hall := ((passes_quotes hquote depth).append hpass).crosses hcross
  rw [List.append_assoc, ← hfront] at hall
  exact ⟨hall, hbroken hne, hread⟩

theorem readString?_on {cs text rest : List Char} (depth : Nat) (hreturn : '\r' ∉ cs)
    (h : readString? cs = some (text, rest)) :
    ReadsOn readString? (.plain depth) depth cs text rest := by
  have hbehind (front : List Char) {tail : List Char} (heq : cs = front ++ tail) : '\r' ∉ tail := by
    intro hmem
    rw [heq] at hreturn
    simp [hmem] at hreturn
  unfold readString? at h
  split at h
  · next inner =>
    have hquote : isQuote '"' = true := rfl
    have hlines := ReadsOn.opened hquote (hbehind ['"', '"', '"'] rfl)
      (takesWithin_of_readBasicLines? h).takes.ne_nil fun hbody =>
        readBasicLines?_on depth hbody (.inl rfl) h (Nat.le_succ ((skipFirstBreak inner).length + 1))
    obtain ⟨hcross, hbroken, hread⟩ := hlines
    refine ⟨hcross, ?_⟩
    change readBasicLines? ((skipFirstBreak (inner ++ ['\n'])).length + 1)
      (skipFirstBreak (inner ++ ['\n'])) = _
    rw [hbroken, List.length_append]
    exact hread
  · next inner =>
    have hquote : isQuote '\x27' = true := rfl
    have hlines := ReadsOn.opened hquote (hbehind ['\x27', '\x27', '\x27'] rfl)
      (takesWithin_of_readLiteralLines? h).takes.ne_nil fun hbody =>
        readLiteralLines?_on depth hbody (.inl rfl) h
    obtain ⟨hcross, hbroken, hread⟩ := hlines
    refine ⟨hcross, ?_⟩
    change readLiteralLines? (skipFirstBreak (inner ++ ['\n'])) = _
    rw [hbroken, hread]
  · next inner hthree =>
    obtain ⟨body, rfl, hbody⟩ := stringBody_of_readBasic? h
    refine ⟨hbody.on rfl depth rest, ?_⟩
    have hsingle : ∀ more, body ++ rest ++ ['\n'] ≠ '"' :: '"' :: more := fun more heq => by
      obtain ⟨tail, htail⟩ := eq_of_broken (by decide) heq
      exact hthree tail htail
    rw [List.cons_append, readString?_basic hsingle, List.append_assoc]
    exact hbody.readBasic? (by rw [List.length_append]; omega) _
  · next inner hthree =>
    obtain ⟨body, rfl, hbody⟩ := stringBody_of_readLiteral? h
    refine ⟨hbody.on rfl depth rest, ?_⟩
    have hsingle : ∀ more, body ++ rest ++ ['\n'] ≠ '\x27' :: '\x27' :: more := fun more heq => by
      obtain ⟨tail, htail⟩ := eq_of_broken (by decide) heq
      exact hthree tail htail
    rw [List.cons_append, readString?_literal hsingle, List.append_assoc]
    exact hbody.readLiteral? _
  · cases h

end FormatSettings.Toml
