import FormatSettings.Proofs.Toml.ValueCrossing

namespace FormatSettings.Toml

structure Closes (cs : List Char) : Prop where
  ends : isLineEnd false cs = true
  noReturn : '\r' ∉ cs

structure Finishes (cs : List Char) (v : Value) : Prop where
  reads : ∃ fuel rest, readValue? fuel cs = some (v, rest) ∧ isLineEnd false rest = true
  noReturn : '\r' ∉ cs

theorem isLineEnd_blanks {front : List Char} (h : Blanks front) (cs : List Char) :
    isLineEnd false (front ++ cs) = isLineEnd false cs := by
  induction front with
  | nil => rfl
  | cons c front ih =>
    have hblank := h c List.mem_cons_self
    have hrest := ih fun d hd => h d (List.mem_cons_of_mem _ hd)
    rw [List.cons_append, isLineEnd, if_pos hblank, hrest]
    · exact fun heq _ => ne_of_isLineBlank hblank rfl heq
    · exact fun heq _ => ne_of_isLineBlank hblank rfl heq

theorem statements?_blanks {front : List Char} (h : Blanks front) (cs : List Char) :
    statements? (front ++ cs) = statements? cs := by
  have hsplit : splitFrom .start (front ++ cs) =
      (front ++ (splitFrom .start cs).1, (splitFrom .start cs).2) := by
    rw [splitFrom_append fun c hc heq => h.not_mem rfl (heq ▸ hc), Mode.start,
      foldl_step_of_inert h.isInert]
  have hline (line : List Char) : readLine? (front ++ line) = readLine? line := by
    rw [readLine?, isLineEnd_blanks h, h.dropWhile]
    rfl
  rw [statements?, statements?, splitLines, splitLines, hsplit]
  dsimp only
  rw [readLines?, readLines?, hline]

theorem says_unbroken {cs : List Char} {s : Statement} (hline : readLine? cs = some s)
    (hbroken : readLine? (cs ++ ['\n']) = some s) (hrun : RunsOn false .start (cs ++ ['\n']))
    (hreturn : '\r' ∉ cs) : Says cs s.said where
  reads := by
    intro rest hrest
    have hreturn' : '\r' ∉ cs ++ ['\n'] := by simp [hreturn]
    have hall := Says.line hrun hbroken hreturn'
    rcases opens_of_broken hrun with hopen | hspaces
    · rcases hrest hopen with rfl | hbreak
      · have hsplit : splitLines cs = [cs] := by
          have hwhole := hrun [] nofun
          rw [List.append_nil] at hwhole
          rw [splitLines, splitFrom_of_broken hwhole]
        rw [List.append_nil, statements?_nil, statements?, hsplit, readLines?, hline]
        rfl
      · obtain ⟨tail, rfl⟩ := List.head?_eq_some_iff.mp hbreak
        have hblank := Says.breakLine.reads tail (follows_of_closed (opens_append_break []) _)
        have hbehind := hall.reads tail (follows_of_closed (opens_append_break cs) _)
        rw [List.append_assoc] at hbehind
        rw [← List.singleton_append, hbehind, hblank, Option.map_map]
        rfl
    · have hnothing : readLine? cs = some .nothing := by
        have hend := isLineEnd_blanks (blanks_of_spaces hspaces) []
        rw [List.append_nil] at hend
        rw [readLine?, hend]
        rfl
      rw [hnothing, Option.some.injEq] at hline
      subst hline
      rw [statements?_blanks (blanks_of_spaces hspaces)]
      cases statements? rest <;> rfl
  noReturn := hreturn

theorem runsOn_break {mode : Mode} {cs : List Char} (hbreak : '\n' ∉ cs)
    (h : (cs.foldl Mode.step mode).ends = true) : RunsOn false mode (cs ++ ['\n']) := by
  rw [runsOn_append hbreak]
  intro rest _
  rw [List.singleton_append, splitFrom, h]
  rfl

theorem isLineEnd_broken {inComment : Bool} {cs : List Char} (h : isLineEnd inComment cs = true)
    (hbreak : '\n' ∉ cs) :
    isLineEnd inComment (cs ++ ['\n']) = true ∧
      (cs.foldl Mode.step (if inComment then .comment 0 else .plain 0)).ends = true := by
  fun_induction isLineEnd inComment cs with
  | case1 inComment => cases inComment <;> exact ⟨rfl, rfl⟩
  | case2 => exact absurd List.mem_cons_self hbreak
  | case3 => exact absurd (List.mem_cons_of_mem _ List.mem_cons_self) hbreak
  | case4 c rest _ _ ih =>
    rw [Bool.and_eq_true, Bool.not_eq_true'] at h
    obtain ⟨hend, hmode⟩ := ih h.2 fun hmem => hbreak (List.mem_cons_of_mem _ hmem)
    have hfeed : c ≠ '\n' := fun heq => hbreak (heq ▸ List.mem_cons_self)
    have hreturn : c ≠ '\r' := by
      rintro rfl
      cases h.1
    constructor
    · rw [List.cons_append, isLineEnd, h.1, hend]
      · rfl
      · exact fun heq _ => hfeed heq
      · exact fun heq _ => hreturn heq
    · have hstep : Mode.step (.comment 0) c = .comment 0 := by simp [Mode.step, hfeed]
      rw [if_pos rfl] at hmode ⊢
      rwa [List.foldl_cons, hstep]
  | case5 c rest _ _ hblank ih =>
    obtain ⟨hend, hmode⟩ := ih h fun hmem => hbreak (List.mem_cons_of_mem _ hmem)
    have hblanks : Blanks [c] := fun d hd => List.mem_singleton.mp hd ▸ hblank
    have hline := isLineEnd_blanks hblanks (rest ++ ['\n'])
    constructor
    · rw [List.cons_append]
      exact hline.trans hend
    · have hstep : Mode.step (.plain 0) c = .plain 0 := hblanks.isInert c List.mem_cons_self 0
      rw [if_neg Bool.false_ne_true] at hmode ⊢
      rwa [List.foldl_cons, hstep]
  | case6 c rest _ _ hblank ih =>
    rw [Bool.and_eq_true, beq_iff_eq] at h
    obtain ⟨rfl, h⟩ := h
    obtain ⟨hend, hmode⟩ := ih h fun hmem => hbreak (List.mem_cons_of_mem _ hmem)
    constructor
    · rw [List.cons_append, isLineEnd, hend]
      · rfl
      · exact fun heq _ => absurd heq (by decide)
      · exact fun heq _ => absurd heq (by decide)
    · exact hmode

theorem eq_concat_of_isLineEnd {inComment : Bool} {cs : List Char} (h : isLineEnd inComment cs = true)
    (hreturn : '\r' ∉ cs) (hbreak : '\n' ∈ cs) :
    ∃ front, cs = front ++ ['\n'] ∧ '\n' ∉ front ∧ isLineEnd inComment front = true := by
  fun_induction isLineEnd inComment cs with
  | case1 => cases hbreak
  | case2 inComment => exact ⟨[], rfl, List.not_mem_nil, by rw [isLineEnd]⟩
  | case3 => exact absurd List.mem_cons_self hreturn
  | case4 c rest _ _ ih =>
    rw [Bool.and_eq_true, Bool.not_eq_true'] at h
    have hfeed : c ≠ '\n' := by
      rintro rfl
      cases h.1
    obtain ⟨front, rfl, hfront, hend⟩ := ih h.2 (fun hmem => hreturn (List.mem_cons_of_mem _ hmem))
      ((List.mem_cons.mp hbreak).resolve_left hfeed.symm)
    refine ⟨c :: front, rfl, ?_, ?_⟩
    · simp [hfeed.symm, hfront]
    · rw [isLineEnd, h.1, hend]
      · rfl
      · exact fun heq _ => hfeed heq
      · rintro rfl _
        cases h.1
  | case5 c rest _ _ hblank ih =>
    have hfeed : c ≠ '\n' := ne_of_isLineBlank hblank rfl
    obtain ⟨front, rfl, hfront, hend⟩ := ih h (fun hmem => hreturn (List.mem_cons_of_mem _ hmem))
      ((List.mem_cons.mp hbreak).resolve_left hfeed.symm)
    have hblanks : Blanks [c] := fun d hd => List.mem_singleton.mp hd ▸ hblank
    refine ⟨c :: front, rfl, ?_, (isLineEnd_blanks hblanks front).trans hend⟩
    simp [hfeed.symm, hfront]
  | case6 c rest _ _ hblank ih =>
    rw [Bool.and_eq_true, beq_iff_eq] at h
    obtain ⟨rfl, h⟩ := h
    obtain ⟨front, rfl, hfront, hend⟩ := ih h (fun hmem => hreturn (List.mem_cons_of_mem _ hmem))
      ((List.mem_cons.mp hbreak).resolve_left (by decide))
    refine ⟨'#' :: front, rfl, by simp [hfront], ?_⟩
    rw [isLineEnd, hend]
    · rfl
    · exact fun heq _ => absurd heq (by decide)
    · exact fun heq _ => absurd heq (by decide)

theorem ends_of_settled {mode : Mode} {cs : List Char} (hmode : mode.Settled 0)
    (h : isLineEnd false cs = true) (hbreak : '\n' ∉ cs) : (cs.foldl Mode.step mode).ends = true := by
  have hplain := (isLineEnd_broken h hbreak).2
  rw [if_neg Bool.false_ne_true] at hplain
  cases cs with
  | nil => exact hmode.ends
  | cons c cs =>
    have hquote : isQuote c = false := by
      rw [Bool.eq_false_iff]
      intro hquote
      rcases isQuote_iff.mp hquote with rfl | rfl
      · cases h
      · cases h
    rw [List.foldl_cons] at hplain ⊢
    rwa [hmode.step hquote]

theorem says_line {front rest : List Char} {next : Mode} {s : Statement}
    (hpass : Passes .start front next) (hnext : next.Settled 0) (hend : isLineEnd false rest = true)
    (hreturn : '\r' ∉ front ++ rest) (hline : readLine? (front ++ rest) = some s)
    (hbroken : isLineEnd false (rest ++ ['\n']) = true → readLine? (front ++ rest ++ ['\n']) = some s) :
    Says (front ++ rest) s.said := by
  have hruns {tail : List Char} (hend : isLineEnd false tail = true) (hbreak : '\n' ∉ tail) :
      RunsOn false .start (front ++ tail ++ ['\n']) := by
    intro more _
    have htail := runsOn_break hbreak (ends_of_settled hnext hend hbreak) more nofun
    rw [List.append_assoc, List.append_assoc front, hpass, ← List.append_assoc tail, htail,
      List.append_assoc]
  by_cases hbreak : '\n' ∈ rest
  · have hrest : '\r' ∉ rest := fun hmem => hreturn (List.mem_append_right _ hmem)
    obtain ⟨tail, rfl, htail, hends⟩ := eq_concat_of_isLineEnd hend hrest hbreak
    have hrun := hruns hends htail
    rw [List.append_assoc] at hrun
    exact Says.line hrun hline hreturn
  · exact says_unbroken hline (hbroken (isLineEnd_broken hend hbreak).1) (hruns hend hbreak) hreturn

theorem says_nothing {cs : List Char} (h : isLineEnd false cs = true) (hreturn : '\r' ∉ cs) :
    Says cs [] := by
  have hline {cs : List Char} (h : isLineEnd false cs = true) : readLine? cs = some .nothing := by
    rw [readLine?, if_pos h]
  have hpass : Passes .start [] .start := .nil
  exact says_line (s := .nothing) hpass (.inl rfl) h hreturn (hline h) hline

theorem isLineEnd_key {c : Char} (h : isBareKeyChar c = true ∨ isQuote c = true) (cs : List Char) :
    isLineEnd false (c :: cs) = false := by
  rw [isLineEnd, isLineBlank_of_startsKey h, if_neg Bool.false_ne_true,
    beq_false_of_ne (ne_of_startsKey h (d := '#') rfl rfl), Bool.false_and]
  · exact fun heq _ => absurd heq (ne_of_startsKey h rfl rfl)
  · exact fun heq _ => absurd heq (ne_of_startsKey h rfl rfl)

theorem dropWhile_key {c : Char} (h : isBareKeyChar c = true ∨ isQuote c = true) (cs : List Char) :
    (c :: cs).dropWhile isLineBlank = c :: cs := by
  rw [List.dropWhile_cons, isLineBlank_of_startsKey h]
  rfl

theorem pathChars_eq {keys : List Verbatim.Key} (h : AreSpelled keys) (hne : keys ≠ [])
    (cs : List Char) :
    ∃ blanks c tail, Blanks blanks ∧ pathChars keys ++ cs = blanks ++ c :: tail ∧
      (isBareKeyChar c = true ∨ isQuote c = true) := by
  cases keys with
  | nil => exact absurd rfl hne
  | cons key keys =>
    obtain ⟨before, core, after, htext, hbefore, -, hcore⟩ := h key List.mem_cons_self
    obtain ⟨c, tail, rfl, hc⟩ := hcore.eq_cons
    cases keys with
    | nil =>
      refine ⟨before, c, tail ++ after ++ cs, hbefore, ?_, hc⟩
      rw [pathChars_singleton, htext]
      simp
    | cons next keys =>
      refine ⟨before, c, tail ++ after ++ '.' :: pathChars (next :: keys) ++ cs, hbefore, ?_, hc⟩
      rw [pathChars_cons key (List.cons_ne_nil _ _), htext]
      simp

theorem readPath?_line {keys : List Verbatim.Key} (h : AreSpelled keys) (hne : keys ≠ []) {c : Char}
    (hc : c = '=' ∨ c = ']') {rest line : List Char}
    (hline : (pathChars keys ++ c :: rest).dropWhile isLineBlank = line.dropWhile isLineBlank) :
    readPath? (line.length + 1) (line.dropWhile isLineBlank) =
      some (keys.map (·.name), c :: rest) := by
  have hread := h.readPath? hne hc rest
  rw [hline] at hread
  have hlength := length_dropWhile_le isLineBlank line
  exact readPath?_fuel hread (by omega)

theorem readPair?_finishes {keys : List Verbatim.Key} {blanks cs : List Char} {v : Value}
    (hkeys : AreSpelled keys) (hne : keys ≠ []) (hblanks : Blanks blanks)
    (hreads : ∃ fuel rest, readValue? fuel cs = some (v, rest) ∧ isLineEnd false rest = true)
    {line : List Char} (hline : line.dropWhile isLineBlank = line)
    (heq : (pathChars keys ++ '=' :: (blanks ++ cs)).dropWhile isLineBlank = line) :
    readPair? line = some (.pair (keys.map (·.name)) v) := by
  obtain ⟨fuel, rest, hvalue, hend⟩ := hreads
  have hpath := readPath?_line hkeys hne (.inl rfl) (heq.trans hline.symm)
  have hagain : readValue? ((blanks ++ cs).length + 1) cs = some (v, rest) :=
    (readValue?_freely fuel cs v rest hvalue).2 _ (by rw [List.length_append]; omega)
  rw [hline] at hpath
  have hdrop : (blanks ++ cs).dropWhile isLineBlank = cs := by
    rw [hblanks.dropWhile, dropWhile_of_readValue? hvalue]
  rw [readPair?, hpath, Option.bind_some]
  simp only [hdrop, hagain, Option.bind_some, hend, ↓reduceIte]

def opening (isItem : Bool) : List Char :=
  if isItem then ['[', '['] else ['[']

def closing (isItem : Bool) : List Char :=
  if isItem then [']', ']'] else [']']

def bracketed (isItem : Bool) (path : List Char) : List Char :=
  opening isItem ++ path ++ closing isItem

theorem readHeader?_closes {isItem : Bool} {keys : List Verbatim.Key} {cs : List Char}
    (hkeys : AreSpelled keys) (hne : keys ≠ []) (hend : isLineEnd false cs = true) :
    readHeader? isItem (pathChars keys ++ (closing isItem ++ cs)) =
      some (.header isItem (keys.map (·.name))) := by
  cases isItem with
  | false =>
    change readHeader? false (pathChars keys ++ ']' :: cs) = _
    rw [readHeader?, readPath?_line hkeys hne (.inr rfl) rfl, Option.bind_some]
    exact if_pos hend
  | true =>
    change readHeader? true (pathChars keys ++ ']' :: ']' :: cs) = _
    rw [readHeader?, readPath?_line hkeys hne (.inr rfl) rfl, Option.bind_some]
    exact if_pos hend

theorem readPair?_eq_some {cs : List Char} {s : Statement} (h : readPair? cs = some s) :
    ∃ path v after rest, s = .pair path v ∧
      readPath? (cs.length + 1) cs = some (path, '=' :: after) ∧
      readValue? (after.length + 1) (after.dropWhile isLineBlank) = some (v, rest) ∧
      isLineEnd false rest = true := by
  obtain ⟨⟨path, equals⟩, hpath, h⟩ := Option.bind_eq_some_iff.mp h
  dsimp only at h
  split at h
  · next _ after =>
    obtain ⟨⟨v, rest⟩, hvalue, h⟩ := Option.bind_eq_some_iff.mp h
    dsimp only at h
    split at h
    · next hend =>
      cases h
      exact ⟨path, v, after, rest, rfl, hpath, hvalue, hend⟩
    · cases h
  · cases h

theorem readHeader?_eq_some {isItem : Bool} {cs : List Char} {s : Statement}
    (h : readHeader? isItem cs = some s) :
    ∃ path rest, s = .header isItem path ∧
      readPath? (cs.length + 1) (cs.dropWhile isLineBlank) = some (path, closing isItem ++ rest) ∧
      isLineEnd false rest = true := by
  obtain ⟨⟨path, close⟩, hpath, h⟩ := Option.bind_eq_some_iff.mp h
  dsimp only at h
  split at h
  · next rest _ =>
    split at h
    · next hend =>
      cases h
      exact ⟨path, rest, rfl, hpath, hend⟩
    · cases h
  · next rest _ =>
    split at h
    · next hend =>
      cases h
      exact ⟨path, rest, rfl, hpath, hend⟩
    · cases h
  · cases h

theorem passes_pair {indent blanks : List Char} {keys : List Verbatim.Key} (hindent : Blanks indent)
    (hkeys : AreSpelled keys) (hblanks : Blanks blanks) :
    Passes .start (indent ++ pathChars keys ++ '=' :: blanks) (.plain 0) := by
  have hbreak : '\n' ∉ indent ++ pathChars keys ++ '=' :: blanks := by
    simp [hindent.not_mem (c := '\n') rfl, hkeys.not_mem (c := '\n') (by decide),
      hblanks.not_mem (c := '\n') rfl]
  have hpass : Passes .start _ _ := .foldl hbreak
  have hequals : Mode.stepPlain 0 '=' = .plain 0 := rfl
  rwa [List.foldl_append, List.foldl_append, List.foldl_cons, Mode.start,
    foldl_step_of_inert hindent.isInert, (hkeys.settled 0).step rfl, hequals,
    foldl_step_of_inert hblanks.isInert] at hpass

theorem passes_header {isItem : Bool} {indent : List Char} {keys : List Verbatim.Key}
    (hindent : Blanks indent) (hkeys : AreSpelled keys) :
    Passes .start (indent ++ bracketed isItem (pathChars keys)) (.plain 0) := by
  have hbreak : '\n' ∉ indent ++ bracketed isItem (pathChars keys) := by
    cases isItem <;> simp [bracketed, opening, closing, hindent.not_mem (c := '\n') rfl,
      hkeys.not_mem (c := '\n') (by decide)]
  have hpass : Passes .start _ _ := .foldl hbreak
  have hfold : (indent ++ bracketed isItem (pathChars keys)).foldl Mode.step .start = .start := by
    rw [bracketed, List.foldl_append, List.foldl_append, List.foldl_append, Mode.start,
      foldl_step_of_inert hindent.isInert]
    -- The brackets go as deep as they come back, whatever the keys between them are.
    cases isItem with
    | false =>
      change [']'].foldl Mode.step ((pathChars keys).foldl Mode.step (.plain 1)) = _
      rw [List.foldl_cons, (hkeys.settled 1).step rfl]
      rfl
    | true =>
      change [']', ']'].foldl Mode.step ((pathChars keys).foldl Mode.step (.plain 2)) = _
      rw [List.foldl_cons, (hkeys.settled 2).step rfl]
      rfl
  rwa [hfold] at hpass

theorem readLine?_pair {indent blanks cs : List Char} {keys : List Verbatim.Key} {v : Value}
    (hindent : Blanks indent) (hkeys : AreSpelled keys) (hne : keys ≠ []) (hblanks : Blanks blanks)
    (hreads : ∃ fuel rest, readValue? fuel cs = some (v, rest) ∧ isLineEnd false rest = true) :
    readLine? (indent ++ pathChars keys ++ '=' :: blanks ++ cs) = some (.pair (keys.map (·.name)) v) := by
  obtain ⟨before, c, tail, hbefore, htext, hc⟩ := pathChars_eq hkeys hne ('=' :: (blanks ++ cs))
  have hline : indent ++ pathChars keys ++ '=' :: blanks ++ cs = indent ++ before ++ c :: tail := by
    rw [List.append_assoc indent before, ← htext]
    simp
  have hblank : Blanks (indent ++ before) := by
    intro d hd
    exact (List.mem_append.mp hd).elim (hindent d) (hbefore d)
  have hdrop := dropWhile_key hc tail
  have hpair := readPair?_finishes hkeys hne hblanks hreads hdrop
    (by rw [htext, hbefore.dropWhile, hdrop])
  rw [hline, readLine?, isLineEnd_blanks hblank, isLineEnd_key hc, if_neg Bool.false_ne_true,
    hblank.dropWhile, hdrop]
  split
  · next heq => exact absurd (List.cons.inj heq).1 (ne_of_startsKey hc rfl rfl)
  · next heq => exact absurd (List.cons.inj heq).1 (ne_of_startsKey hc rfl rfl)
  · exact hpair

theorem Finishes.broken {cs : List Char} {v : Value} (h : Finishes cs v) :
    ∃ body rest, cs = body ++ rest ∧ isLineEnd false rest = true ∧
      (∃ next : Mode, Passes .start body next ∧ next.Settled 0) ∧
      (isLineEnd false (rest ++ ['\n']) = true → Finishes (cs ++ ['\n']) v) := by
  obtain ⟨fuel, rest, hread, hend⟩ := h.reads
  obtain ⟨⟨body, next, rfl, hpass, hnext⟩, hagain⟩ := readValue?_on fuel 0 h.noReturn hread
  refine ⟨body, rest, rfl, hend, ⟨next, hpass, hnext⟩, fun hclosed => ⟨⟨fuel, _, hagain, hclosed⟩, ?_⟩⟩
  have hreturn := h.noReturn
  simpa using hreturn

theorem says_pair {indent blanks cs : List Char} {keys : List Verbatim.Key}
    {v : Value} (hindent : Blanks indent) (hkeys : AreSpelled keys) (hne : keys ≠ [])
    (hblanks : Blanks blanks) (hvalue : Finishes cs v) :
    Says (indent ++ pathChars keys ++ '=' :: blanks ++ cs) [.pair (keys.map (·.name)) v] := by
  have hreturn : '\r' ∉ indent ++ pathChars keys ++ '=' :: blanks ++ cs := by
    simp [hindent.not_mem (c := '\r') rfl, hkeys.not_mem (c := '\r') (by decide),
      hblanks.not_mem (c := '\r') rfl, hvalue.noReturn]
  have hline := readLine?_pair hindent hkeys hne hblanks hvalue.reads
  obtain ⟨body, rest, rfl, hend, ⟨next, hpass, hnext⟩, hbroken⟩ := hvalue.broken
  have hfront := (passes_pair hindent hkeys hblanks).append hpass
  rw [← List.append_assoc] at hreturn hline ⊢
  refine says_line (s := .pair (keys.map (·.name)) v) hfront hnext hend hreturn hline fun hclosed => ?_
  have hagain := readLine?_pair hindent hkeys hne hblanks (hbroken hclosed).reads
  rwa [← List.append_assoc, ← List.append_assoc] at hagain

theorem pathChars_ne_bracket {keys : List Verbatim.Key} (hkeys : AreSpelled keys) (hne : keys ≠ [])
    (cs rest : List Char) : pathChars keys ++ cs ≠ '[' :: rest := by
  obtain ⟨before, c, tail, hbefore, htext, hc⟩ := pathChars_eq hkeys hne cs
  intro heq
  rw [htext] at heq
  cases before with
  | nil => exact absurd (List.cons.inj heq).1 (ne_of_startsKey hc rfl rfl)
  | cons d before =>
    have hblank := hbefore d List.mem_cons_self
    rw [(List.cons.inj heq).1] at hblank
    cases hblank

theorem readLine?_header {isItem : Bool} {indent cs : List Char} {keys : List Verbatim.Key}
    (hindent : Blanks indent) (hkeys : AreSpelled keys) (hne : keys ≠ [])
    (hend : isLineEnd false cs = true) :
    readLine? (indent ++ bracketed isItem (pathChars keys) ++ cs) =
      some (.header isItem (keys.map (·.name))) := by
  have hheader := @readHeader?_closes isItem _ _ hkeys hne hend
  have hline : indent ++ bracketed isItem (pathChars keys) ++ cs =
      indent ++ (opening isItem ++ (pathChars keys ++ (closing isItem ++ cs))) := by
    simp [bracketed]
  have hopen : isLineEnd false (opening isItem ++ (pathChars keys ++ (closing isItem ++ cs))) = false := by
    cases isItem <;> simp [opening, isLineEnd, isLineBlank]
  have hdrop : (opening isItem ++ (pathChars keys ++ (closing isItem ++ cs))).dropWhile isLineBlank =
      opening isItem ++ (pathChars keys ++ (closing isItem ++ cs)) := by
    cases isItem <;> rfl
  rw [hline, readLine?, isLineEnd_blanks hindent, hindent.dropWhile, hopen, if_neg Bool.false_ne_true,
    hdrop]
  -- A second bracket would make it the header of an item; keys start with none.
  cases isItem with
  | false =>
    split
    · next heq => exact absurd (List.cons.inj heq).2 (pathChars_ne_bracket hkeys hne _ _)
    · next heq =>
      rw [← (List.cons.inj heq).2]
      exact hheader
    · next heq => exact absurd rfl (heq _)
  | true => exact hheader

theorem says_header {isItem : Bool} {indent cs : List Char} {keys : List Verbatim.Key}
    (hindent : Blanks indent) (hkeys : AreSpelled keys) (hne : keys ≠ []) (hclose : Closes cs) :
    Says (indent ++ bracketed isItem (pathChars keys) ++ cs) [.header isItem (keys.map (·.name))] := by
  have hreturn : '\r' ∉ indent ++ bracketed isItem (pathChars keys) ++ cs := by
    cases isItem <;> simp [bracketed, opening, closing, hindent.not_mem (c := '\r') rfl,
      hkeys.not_mem (c := '\r') (by decide), hclose.noReturn]
  refine says_line (s := .header isItem (keys.map (·.name))) (passes_header hindent hkeys) (.inl rfl)
    hclose.ends hreturn (readLine?_header hindent hkeys hne hclose.ends) fun hclosed => ?_
  rw [List.append_assoc]
  exact readLine?_header hindent hkeys hne hclosed

end FormatSettings.Toml
