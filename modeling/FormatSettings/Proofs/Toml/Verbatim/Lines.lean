import FormatSettings.Proofs.Toml.Verbatim.Telling

namespace FormatSettings.Toml.Verbatim

theorem Parted.behind {cs rest more : List Char} (h : Parted cs more) (hrest : TakesWithin cs rest) :
    Parted rest more := by
  obtain ⟨c, hc, hsuffix⟩ := hrest
  obtain ⟨front, rfl⟩ := hsuffix
  by_cases hne : rest = []
  · refine ⟨h.breaks.imp_right fun hlast => ?_, by simp [hne]⟩
    rw [hne, List.getLast?_append] at hlast
    exact absurd (Option.some.inj hlast) hc
  · have hpart := h.suffix _ (List.cons_ne_nil c rest)
    exact hpart.tail hne

def isGap (c : Char) : Bool :=
  isLineBlank c || c == '\r'

theorem isGap_eq : (fun c => isLineBlank c || c == '\r') = isGap := rfl

theorem readLine_end {cs : List Char} (h : cs.dropWhile isGap = []) :
    readLine cs = (.entry (.blank (cs.takeWhile isGap)), []) := by
  simp only [readLine, isGap_eq, h]

theorem readLine_break {cs rest : List Char} (h : cs.dropWhile isGap = '\n' :: rest) :
    readLine cs = (.entry (.blank (cs.takeWhile isGap ++ ['\n'])), rest) := by
  simp only [readLine, isGap_eq, h]

theorem readLine_bracket {cs rest : List Char} (h : cs.dropWhile isGap = '[' :: rest) :
    readLine cs = readHeader (cs.takeWhile isGap) rest := by
  simp only [readLine, isGap_eq, h]

theorem readLine_comment {cs body : List Char} (h : cs.dropWhile isGap = '#' :: body) :
    readLine cs = match readClose? (cs.takeWhile isGap) ('#' :: body) with
      | some (margin, rest) => (.entry (.note margin), rest)
      | none => (.fault .invalidDocument, []) := by
  simp only [readLine, isGap_eq, h]
  rfl

theorem readLine_pair {cs tail : List Char} {c : Char} (h : cs.dropWhile isGap = c :: tail)
    (hbreak : c ≠ '\n') (hbracket : c ≠ '[') (hcomment : c ≠ '#') :
    readLine cs = match readPair cs with
      | .ok (e, rest) => (.entry e, rest)
      | .error failure => (.fault failure, []) := by
  simp only [readLine, isGap_eq, h]
  rw [beq_false_of_ne hcomment]
  rfl

theorem takeWhile_isGap {cs : List Char} (h : '\r' ∉ cs) :
    cs.takeWhile isGap = cs.takeWhile isLineBlank ∧ cs.dropWhile isGap = cs.dropWhile isLineBlank := by
  induction cs with
  | nil => exact ⟨rfl, rfl⟩
  | cons c cs ih =>
    have hc : isGap c = isLineBlank c := by
      have hne : c ≠ '\r' := fun heq => h (heq ▸ List.mem_cons_self)
      rw [isGap, beq_false_of_ne hne, Bool.or_false]
    obtain ⟨htake, hdrop⟩ := ih fun hmem => h (List.mem_cons_of_mem _ hmem)
    rw [List.takeWhile_cons, List.takeWhile_cons, List.dropWhile_cons, List.dropWhile_cons, hc, htake,
      hdrop]
    exact ⟨rfl, rfl⟩

theorem Parted.lead {cs more : List Char} (h : Parted cs more) :
    (cs ++ more).takeWhile isGap = cs.takeWhile isLineBlank ∧
      (cs ++ more).dropWhile isGap = cs.dropWhile isLineBlank ++ more ∧
      Parted (cs.dropWhile isLineBlank) more := by
  obtain ⟨htake, hdrop⟩ := takeWhile_isGap h.noReturn
  have hpart := h.dropped (p := isGap) (by decide)
  rw [h.takeWhile (by decide), h.dropWhile (by decide), htake, hdrop]
  rw [hdrop] at hpart
  exact ⟨rfl, rfl, hpart⟩

theorem dropWhile_of_isLineEnd {inComment : Bool} {cs : List Char} (hplain : inComment = false)
    (h : isLineEnd inComment cs = true) (hreturn : '\r' ∉ cs) :
    cs.dropWhile isLineBlank = [] ∨ cs.dropWhile isLineBlank = ['\n'] ∨
      ∃ body, cs.dropWhile isLineBlank = '#' :: body ∧ isLineEnd true body = true := by
  fun_induction isLineEnd inComment cs with
  | case1 => exact .inl rfl
  | case2 => exact .inr (.inl rfl)
  | case3 => exact absurd List.mem_cons_self hreturn
  | case4 => cases hplain
  | case5 c rest _ _ hblank ih =>
    rw [List.dropWhile_cons, if_pos hblank]
    exact ih hplain h fun hmem => hreturn (List.mem_cons_of_mem _ hmem)
  | case6 c rest _ _ hblank =>
    rw [Bool.and_eq_true, beq_iff_eq] at h
    rw [List.dropWhile_cons, if_neg hblank, h.1]
    exact .inr (.inr ⟨rest, rfl, h.2⟩)

theorem dropWhile_of_comment {inComment : Bool} {body : List Char} (hcomment : inComment = true)
    (h : isLineEnd inComment body = true) (hreturn : '\r' ∉ body) :
    body.dropWhile (!isCommentEnd ·) = [] ∨ body.dropWhile (!isCommentEnd ·) = ['\n'] := by
  fun_induction isLineEnd inComment body with
  | case1 => exact .inl rfl
  | case2 => exact .inr rfl
  | case3 => exact absurd List.mem_cons_self hreturn
  | case4 c rest hbreak _ ih =>
    rw [Bool.and_eq_true] at h
    have hne : c ≠ '\n' := by
      rintro rfl
      exact absurd h.1 (by decide)
    have hend : isCommentEnd c = false := by
      rw [isCommentEnd, beq_false_of_ne hne, Bool.false_or]
      exact beq_false_of_ne fun heq => hreturn (heq ▸ List.mem_cons_self)
    rw [List.dropWhile_cons, hend]
    exact ih rfl h.2 fun hmem => hreturn (List.mem_cons_of_mem _ hmem)
  | case5 => cases hcomment
  | case6 => cases hcomment

theorem readClose?_comment {indent cs body more left : List Char} {margin : Margin}
    (hdrop : cs.dropWhile isGap = '#' :: (body ++ more)) (hbody : isLineEnd true body = true)
    (hparted : Parted body more) (h : readClose? indent cs = some (margin, left)) :
    margin.indent = indent ∧ margin.gap = cs.takeWhile isGap ∧
      margin.comment ++ margin.ending = '#' :: body ∧ left = more ∧
      (margin.breaksAfter = false → '\n' ∉ body) := by
  have htake := hparted.takeWhile (p := (!isCommentEnd ·)) (by decide)
  have hbehind := hparted.dropWhile (p := (!isCommentEnd ·)) (by decide)
  have hpart := hparted.dropped (p := (!isCommentEnd ·)) (by decide)
  have hall := List.takeWhile_append_dropWhile (p := (!isCommentEnd ·)) (l := body)
  simp only [readClose?, isGap_eq] at h
  rw [hdrop] at h
  change (if ('#' :: (body ++ more).takeWhile (!isCommentEnd ·)).any isControl = true then none
    else _) = some (margin, left) at h
  rw [htake, hbehind] at h
  split at h
  · cases h
  rcases dropWhile_of_comment rfl hbody hparted.noReturn with hlast | hlast
  · rw [hlast] at h hpart hall
    have hmore : more = [] := hpart.breaks.resolve_right (by simp)
    subst hmore
    rw [List.append_nil] at hall
    cases h
    refine ⟨rfl, rfl, by simp [hall], rfl, fun _ hbreak => ?_⟩
    rw [← hall] at hbreak
    cases List.mem_takeWhile_imp hbreak
  · rw [hlast] at h hall
    cases h
    exact ⟨rfl, rfl, by simp [hall], rfl, fun hopen => by cases hopen⟩

theorem readClose?_agrees {indent cs more left : List Char} {margin : Margin}
    (hend : isLineEnd false cs = true) (hparted : Parted cs more)
    (h : readClose? indent (cs ++ more) = some (margin, left)) :
    margin.indent = indent ∧ margin.close = cs ∧ left = more ∧ Blanks margin.gap ∧
      (margin.breaksAfter = false → '\n' ∉ cs) := by
  have hall := List.takeWhile_append_dropWhile (p := isLineBlank) (l := cs)
  have hblanks := blanks_takeWhile cs
  obtain ⟨htake, hdrop, hpart⟩ := hparted.lead
  rcases dropWhile_of_isLineEnd rfl hend hparted.noReturn with hcs | hcs | ⟨body, hcs, hbody⟩
  · simp only [readClose?, isGap_eq] at h
    rw [hcs] at hdrop hpart hall
    rw [htake, hdrop] at h
    have hmore : more = [] := hpart.breaks.resolve_right (by simp)
    subst hmore
    rw [List.append_nil] at hall
    rw [hall] at h hblanks
    cases h
    exact ⟨rfl, rfl, rfl, .nil, fun _ => hblanks.not_mem rfl⟩
  · simp only [readClose?, isGap_eq] at h
    rw [hcs] at hdrop hall
    rw [htake, hdrop] at h
    cases h
    refine ⟨rfl, by simpa [Margin.close] using hall, rfl, .nil, fun hopen => ?_⟩
    simp [Margin.breaksAfter] at hopen
  · rw [hcs] at hdrop hpart hall
    have hbodyPart := hpart.behind (TakesWithin.cons (c := '#') List.suffix_rfl (by decide))
    obtain ⟨hindent, hgap, hcomment, hleft, hopen⟩ := readClose?_comment hdrop hbody hbodyPart h
    rw [htake] at hgap
    refine ⟨hindent, ?_, hleft, hgap ▸ hblanks, fun hbreak hmem => ?_⟩
    · rw [Margin.close, List.append_assoc, hcomment, hgap, hall]
    · rw [← hall] at hmem
      simp [hopen hbreak, hblanks.not_mem (c := '\n') rfl] at hmem

theorem Parted.drop {front cs more : List Char} (h : Parted (front ++ cs) more) (hfront : '\n' ∉ front) :
    Parted cs more := by
  by_cases hne : front = []
  · rwa [hne, List.nil_append] at h
  · exact h.behind (.of_append hne hfront cs)

theorem hasClockNext_of_isLineEnd {cs : List Char} (h : isLineEnd false cs = true) :
    hasClockNext cs = false := by
  unfold hasClockNext
  split
  · next a b rest =>
    rw [Bool.and_eq_false_iff]
    left
    rw [Bool.eq_false_iff]
    intro hdigit
    have hbare := isBareKeyChar_of_isDigit hdigit
    have hblank : Blanks [' '] := fun c hc => List.mem_singleton.mp hc ▸ rfl
    change isLineEnd false ([' '] ++ a :: b :: ':' :: rest) = true at h
    rw [isLineEnd_blanks hblank, isLineEnd_key (.inl hbare)] at h
    cases h
  · rfl

theorem not_quote_of_isInert {c : Char} (h : IsInert c) :
    isQuote c = false ∧ c ≠ '[' ∧ c ≠ '\x7b' := by
  have hstep := h 0
  refine ⟨?_, ?_, ?_⟩
  · rw [Bool.eq_false_iff]
    intro hquote
    rcases isQuote_iff.mp hquote with rfl | rfl
    · cases hstep
    · cases hstep
  · rintro rfl
    cases hstep
  · rintro rfl
    cases hstep

theorem finishes_broken {fuel : Nat} {cs rest : List Char} {v : Value}
    (hread : readValue? fuel cs = some (v, rest)) (hend : isLineEnd false rest = true)
    (hreturn : '\r' ∉ cs) (hbreak : '\n' ∉ rest) : Finishes (cs ++ ['\n']) v := by
  obtain ⟨-, hagain⟩ := readValue?_on fuel 0 hreturn hread
  exact ⟨⟨fuel, _, hagain, (isLineEnd_broken hend hbreak).1⟩, by simp [hreturn]⟩

structure KeptValue (indent : List Char) (v : Value) (w : Written) (margin : Margin) : Prop where
  indented : margin.indent = indent
  finishes : Finishes (w.text ++ margin.close) v
  broken : margin.breaksAfter = false → Finishes (w.text ++ margin.close ++ ['\n']) v
  flag : w.form = .flag → IsFlag w.text v

namespace EndsAlike

variable {fuel : Nat} {cs rest more left after indent : List Char} {v : Value} {w : Written}
  {margin : Margin}

theorem finishes_word {word spaces gap tail : List Char} (hword : takeWord cs = (word, rest))
    (hv : readWord? word = some v) (hrest : rest = spaces ++ (gap ++ tail))
    (hspaces : ∀ c ∈ spaces, c = ' ') (hgap : Blanks gap) (hinert : ∀ c ∈ word, IsInert c)
    (hend : isLineEnd false rest = true) (hreturn : '\r' ∉ cs) :
    Finishes (word ++ (spaces ++ tail)) v ∧
      ('\n' ∉ tail → Finishes (word ++ (spaces ++ tail) ++ ['\n']) v) := by
  have hblanks := blanks_of_spaces hspaces
  have hendTail : isLineEnd false (spaces ++ tail) = true := by
    rw [hrest, isLineEnd_blanks hblanks, isLineEnd_blanks hgap] at hend
    rw [isLineEnd_blanks hblanks, hend]
  have hread : readValue? 1 (word ++ (spaces ++ tail)) = some (v, spaces ++ tail) := by
    have htake := takeWord_again hword (delimited_of_isLineEnd rfl hend).stops
      (delimited_of_isLineEnd rfl hendTail).stops (hasClockNext_of_isLineEnd hendTail)
    obtain ⟨c, core, rfl, -⟩ := first_of_takeWord hword hv
    obtain ⟨hquote, hc⟩ := not_quote_of_isInert (hinert c List.mem_cons_self)
    exact readValue?_iff.mpr (.word hquote hc htake hv)
  have hnone : '\r' ∉ word ++ (spaces ++ tail) := by
    rw [← takeWord_append hword, hrest] at hreturn
    simp only [List.mem_append, not_or] at hreturn ⊢
    exact ⟨hreturn.1, hreturn.2.1, hreturn.2.2.2⟩
  refine ⟨⟨⟨1, spaces ++ tail, hread, hendTail⟩, hnone⟩, fun hbreak => ?_⟩
  refine finishes_broken hread hendTail hnone ?_
  simp [hbreak, hblanks.not_mem (c := '\n') rfl]

theorem kept (h : EndsAlike cs rest more v w left) (hread : readValue? fuel cs = some (v, rest))
    (hend : isLineEnd false rest = true) (hparted : Parted cs more)
    (hclose : readClose? indent left = some (margin, after)) :
    after = more ∧ KeptValue indent v w
      { margin with gap := if w.gap.isEmpty then margin.gap else w.gap } := by
  have hwithin := takesWithin_of_readValue? hread
  have hpart := hparted.behind hwithin
  -- The gap that was read with a date stands before the end of the line.
  cases h with
  | whole hgap hcs hleft hflag =>
    subst hleft
    obtain ⟨hindent, hmargin, hafter, -, hbreak⟩ := readClose?_agrees hend hpart hclose
    have hsame : ({ margin with gap := if w.gap.isEmpty then margin.gap else w.gap } : Margin) = margin := by
      rw [hgap]
      rfl
    rw [hsame]
    refine ⟨hafter, hindent, ?_, fun hopen => ?_, hflag⟩
    · rw [hmargin, ← hcs]
      exact ⟨⟨fuel, rest, hread, hend⟩, hparted.noReturn⟩
    · rw [hmargin, ← hcs]
      exact finishes_broken hread hend hparted.noReturn (hbreak hopen)
  | @dated word spaces behind hform hgap hword hv hrest hspaces htext hinert hleft =>
    subst hleft
    have hblanks := blanks_of_spaces hspaces
    have hendBehind : isLineEnd false behind = true := by
      rwa [hrest, isLineEnd_blanks hblanks] at hend
    have hpartBehind : Parted behind more := by
      rw [hrest] at hpart
      exact hpart.drop (hblanks.not_mem rfl)
    obtain ⟨hindent, hmargin, hafter, hgapBlank, hbreak⟩ :=
      readClose?_agrees hendBehind hpartBehind hclose
    have hclosed : w.text ++ ({ margin with gap := w.gap } : Margin).close =
        word ++ (spaces ++ (margin.comment ++ margin.ending)) := by
      rw [← List.append_assoc word, ← htext]
      simp [Margin.close]
    have hempty : w.gap.isEmpty = false := by simpa using hgap
    have hparts : rest = spaces ++ (margin.gap ++ (margin.comment ++ margin.ending)) := by
      rw [hrest, ← hmargin, Margin.close, List.append_assoc]
    have hword := finishes_word hword hv hparts hspaces hgapBlank
      (fun c hc => hinert c (htext ▸ List.mem_append_left spaces hc)) hend hparted.noReturn
    rw [hempty, if_neg Bool.false_ne_true]
    refine ⟨hafter, hindent, hclosed ▸ hword.1, fun hopen => ?_, fun hflag => ?_⟩
    · rw [hclosed]
      refine hword.2 fun hmem => hbreak hopen ?_
      rw [← hmargin, Margin.close, List.append_assoc]
      exact List.mem_append_right _ hmem
    · rw [hform] at hflag
      cases hflag

end EndsAlike

/-- A line that is kept says what its text says. -/
inductive LineSays : Line → Statement → Prop
  | nothing {e : Entry} (h : IsLine e) (hpairs : e.pairs = []) : LineSays (.entry e) .nothing
  | pair {e : Entry} {path : List String} {v : Value} (h : IsLine e) (hpairs : e.pairs = [(path, v)]) :
      LineSays (.entry e) (.pair path v)
  | header {isItem : Bool} {keys : List Key} {margin : Margin} (hkeys : AreWritten keys)
      (hmargin : KeptHeader margin) :
      LineSays (.header isItem keys (some margin)) (.header isItem (keys.map (·.name)))

theorem readPair_agrees {indent body more left : List Char} {s : Statement}
    {e : Entry} (hindent : Blanks indent) (h : readPair? body = some s)
    (hparted : Parted (indent ++ body) more) (hkept : readPair (indent ++ body ++ more) = .ok (e, left)) :
    left = more ∧ LineSays (.entry e) s := by
  obtain ⟨path, v, after, rest, rfl, hpath, hvalue, hend⟩ := readPair?_eq_some h
  obtain ⟨c, tail, hbody, hc⟩ := first_of_readPath? hpath
  have hstop : Stops isLineBlank (body ++ more) := by
    rw [hbody, List.cons_append, stops_cons]
    exact isLineBlank_of_startsKey hc
  have htake : (indent ++ body ++ more).takeWhile isLineBlank = indent := by
    rw [List.append_assoc, takeWhile_append_of_stops hindent hstop]
  have hdrop : (indent ++ body ++ more).dropWhile isLineBlank = body ++ more := by
    rw [List.append_assoc, dropWhile_append_of_stops hindent hstop]
  obtain ⟨⟨keys, equals⟩, hkeys, hkept⟩ := Except.bind_eq_ok.mp hkept
  obtain ⟨⟨separator, start⟩, hseparator, hkept⟩ := Except.bind_eq_ok.mp hkept
  obtain ⟨⟨w, behind⟩, hwritten, hkept⟩ := Except.bind_eq_ok.mp hkept
  obtain ⟨⟨margin, next⟩, hclose, hkept⟩ := Except.bind_eq_ok.mp hkept
  obtain ⟨entry, hentry, hkept⟩ := Except.bind_eq_ok.mp hkept
  cases hkept
  rw [htake, expect_eq_ok] at hclose
  rw [hdrop, expect_eq_ok] at hkeys
  obtain ⟨hwrittenKeys, rfl, htext, rfl⟩ := readKeys?_path .nil hpath (.inl rfl) hkeys
  obtain ⟨rfl, rfl⟩ := readSeparator?_agrees hvalue (expect_eq_ok.mp hseparator)
  have hline : indent ++ body = indent ++ pathChars keys ++ '=' :: after.takeWhile isLineBlank ++
      after.dropWhile isLineBlank := by
    rw [List.append_assoc _ ('=' :: _), List.cons_append, List.takeWhile_append_dropWhile,
      List.append_assoc, ← htext]
    rfl
  rw [hline] at hparted
  have hpart := hparted.drop (by
    simp [hindent.not_mem (c := '\n') rfl, hwrittenKeys.spelled.not_mem (c := '\n') (by decide),
      (blanks_takeWhile after).not_mem (c := '\n') rfl])
  have hends := readWritten_agrees _ hvalue hpart (delimited_of_isLineEnd rfl hend) hwritten
  obtain ⟨hnext, hkeptValue⟩ := hends.kept hvalue hend hpart hclose
  have hpath := expect_eq_ok.mp hentry
  have hplain := fun key hkey => (hwrittenKeys.plain key hkey).2
  have hfinishes := hkeptValue.finishes
  have hbroken := hkeptValue.broken
  have hsame := unifyBreaks_of_no_return hfinishes.noReturn
  rw [← hsame] at hfinishes hbroken
  have hfront : Blanks [] := .nil
  refine ⟨hnext, .pair ?_ ?_⟩
  · exact .pair hwrittenKeys (hkeptValue.indented ▸ hindent) hfront (blanks_takeWhile after)
      hfinishes hbroken hkeptValue.flag hpath
  · rw [pairs_ofPath hplain hpath, valueOf_finishes hfinishes]

def Line.IsWhole : Line → Prop
  | .entry _ => True
  | .header _ _ margin? => margin?.isSome = true
  | .fault _ => False

theorem readHeaderClose?_closing {isItem : Bool} (indent cs : List Char) :
    readHeaderClose? isItem indent (closing isItem ++ cs) = readClose? indent cs := by
  cases isItem <;> rfl

theorem readHeader_eq {isItem : Bool} {indent cs : List Char}
    (h : isItem = false → ∀ rest, cs ≠ '[' :: rest) :
    readHeader indent ((opening isItem).tail ++ cs) = match readKeys? (cs.length + 1) cs with
      | none => (.fault .invalidDocument, [])
      | some (keys, rest) =>
        match readHeaderClose? isItem indent rest with
        | some (margin, rest) => (.header isItem keys (some margin), rest)
        | none => (.header isItem keys none, []) := by
  cases isItem with
  | true => rfl
  | false =>
    change readHeader indent cs = _
    unfold readHeader
    split
    next opened heq =>
      split at heq
      · next rest => exact absurd rfl (h rfl rest)
      · cases heq
        rfl

theorem readHeader_agrees {isItem : Bool} {indent body more left : List Char} {s : Statement}
    {line : Line} (hindent : Blanks indent) (h : readHeader? isItem body = some s)
    (hparted : Parted (indent ++ opening isItem ++ body) more)
    (hbracket : isItem = false → ∀ rest, body ≠ '[' :: rest)
    (hkept : readHeader indent ((opening isItem).tail ++ (body ++ more)) = (line, left))
    (hwhole : line.IsWhole) : left = more ∧ LineSays line s := by
  obtain ⟨path, rest, rfl, hpath, hend⟩ := readHeader?_eq_some h
  obtain ⟨c, tail, rfl⟩ : ∃ c tail, body = c :: tail := by
    cases body with
    | nil =>
      obtain ⟨c, tail, hcons, -⟩ := first_of_readPath? hpath
      cases hcons
    | cons c tail => exact ⟨c, tail, rfl⟩
  have hfirst : isItem = false → ∀ rest, c :: tail ++ more ≠ '[' :: rest := by
    intro hplain rest heq
    exact hbracket hplain tail (by rw [(List.cons.inj heq).1])
  have hblanks := blanks_takeWhile (c :: tail)
  obtain ⟨close, hclosing⟩ : ∃ close, closing isItem ++ rest = ']' :: close := by
    cases isItem <;> exact ⟨_, rfl⟩
  rw [hclosing] at hpath
  rw [readHeader_eq hfirst] at hkept
  split at hkept
  · cases hkept
    exact hwhole.elim
  · next keys behind hkeys =>
    rw [← List.takeWhile_append_dropWhile (p := isLineBlank) (l := c :: tail)] at hkeys
    obtain ⟨hwritten, rfl, htext, rfl⟩ := readKeys?_path hblanks hpath (.inr rfl) hkeys
    rw [List.takeWhile_append_dropWhile] at htext
    split at hkept
    · next margin next hclose =>
      cases hkept
      rw [← hclosing, List.append_assoc, readHeaderClose?_closing] at hclose
      rw [htext, ← hclosing, ← List.append_assoc, ← List.append_assoc] at hparted
      have hbreak : '\n' ∉ indent ++ opening isItem ++ pathChars keys ++ closing isItem := by
        cases isItem <;> simp [opening, closing, hindent.not_mem (c := '\n') rfl,
          hwritten.spelled.not_mem (c := '\n') (by decide)]
      have hpart := hparted.drop hbreak
      obtain ⟨hmargin, hall, hnext, -, hbreak⟩ := readClose?_agrees hend hpart hclose
      have hclose : unifyBreaks margin.close = rest := by
        rw [hall, unifyBreaks_of_no_return hpart.noReturn]
      refine ⟨hnext, .header hwritten ⟨.inl (hmargin ▸ hindent), ?_, fun hopen => ?_⟩⟩
      · rw [hclose]
        exact ⟨hend, hpart.noReturn⟩
      · rw [hclose]
        exact ⟨(isLineEnd_broken hend (hbreak hopen)).1, by simp [hpart.noReturn]⟩
    · cases hkept
      cases hwhole

theorem gap_eq_nil {margin : Margin} {body : List Char} (hgap : Blanks margin.gap)
    (h : margin.close = '#' :: body) : margin.gap = [] := by
  cases hcons : margin.gap with
  | nil => rfl
  | cons c gap =>
    rw [Margin.close, hcons] at h
    have hc := hgap c (hcons ▸ List.mem_cons_self)
    rw [(List.cons.inj h).1] at hc
    cases hc

theorem readLine_nothing {cs more left : List Char} {line : Line} (h : isLineEnd false cs = true)
    (hparted : Parted cs more) (hkept : readLine (cs ++ more) = (line, left)) (hwhole : line.IsWhole) :
    left = more ∧ LineSays line .nothing := by
  have hlead := hparted.lead
  have hall := List.takeWhile_append_dropWhile (p := isLineBlank) (l := cs)
  have hblanks := blanks_takeWhile cs
  have hsame := unifyBreaks_of_no_return hparted.noReturn
  have hblank {last : List Char} (hlast : ∀ c ∈ last, c = '\n')
      (hcs : cs.takeWhile isLineBlank ++ last = cs) : ∀ c ∈ unifyBreaks cs, IsSpace c := by
    intro c hc
    rw [hsame, ← hcs] at hc
    exact (List.mem_append.mp hc).imp (hblanks c) (hlast c)
  rcases dropWhile_of_isLineEnd rfl h hparted.noReturn with hcs | hcs | ⟨body, hcs, hbody⟩
  · rw [hcs] at hlead hall
    have hmore : more = [] := hlead.2.2.breaks.resolve_right (by simp)
    subst hmore
    have hspace := hblank (List.forall_mem_nil _) hall
    rw [List.append_nil] at hall
    rw [readLine_end hlead.2.1, hlead.1, hall] at hkept
    cases hkept
    exact ⟨rfl, .nothing (.blank hspace) rfl⟩
  · rw [hcs] at hlead hall
    have hspace := hblank (fun c hc => List.mem_singleton.mp hc) hall
    rw [readLine_break hlead.2.1, hlead.1, hall] at hkept
    cases hkept
    exact ⟨rfl, .nothing (.blank hspace) rfl⟩
  · rw [hcs] at hlead hall
    rw [readLine_comment hlead.2.1, hlead.1] at hkept
    split at hkept
    · next margin rest hclose =>
      cases hkept
      have hend : isLineEnd false ('#' :: body) = true := by
        rwa [← hall, isLineEnd_blanks hblanks] at h
      obtain ⟨hindent, hmargin, hleft, hgap, -⟩ := readClose?_agrees hend hlead.2.2 hclose
      refine ⟨hleft, .nothing (.note ?_) rfl⟩
      rw [Margin.close, gap_eq_nil hgap hmargin, List.nil_append] at hmargin
      rw [hindent, List.append_assoc, hmargin, hall, hsame]
      exact says_nothing h hparted.noReturn
    · cases hkept
      exact hwhole.elim

theorem readLine_agrees {cs more left : List Char} {s : Statement} {line : Line}
    (h : readLine? cs = some s) (hparted : Parted cs more)
    (hkept : readLine (cs ++ more) = (line, left)) (hwhole : line.IsWhole) :
    left = more ∧ LineSays line s := by
  have hlead := hparted.lead
  have hall := List.takeWhile_append_dropWhile (p := isLineBlank) (l := cs)
  have hblanks := blanks_takeWhile cs
  rw [readLine?] at h
  split at h
  · next hend =>
    cases h
    exact readLine_nothing hend hparted hkept hwhole
  · split at h
    · next body hcs =>
      rw [hcs] at hlead hall
      rw [← hall] at hparted
      rw [readLine_bracket hlead.2.1, hlead.1] at hkept
      have hopened : Parted (cs.takeWhile isLineBlank ++ opening true ++ body) more := by
        rwa [List.append_assoc]
      exact readHeader_agrees hblanks h hopened (fun hitem => absurd hitem (by decide)) hkept hwhole
    · next body hbracket hcs =>
      rw [hcs] at hlead hall
      rw [← hall] at hparted
      rw [readLine_bracket hlead.2.1, hlead.1] at hkept
      have hopened : Parted (cs.takeWhile isLineBlank ++ opening false ++ body) more := by
        rwa [List.append_assoc]
      exact readHeader_agrees hblanks h hopened (fun _ => hbracket) hkept hwhole
    · obtain ⟨_, _, _, _, _, hpath, -⟩ := readPair?_eq_some h
      obtain ⟨c, tail, hcs, hc⟩ := first_of_readPath? hpath
      rw [hcs] at hlead
      have hne {d : Char} := ne_of_startsKey hc (d := d)
      rw [readLine_pair hlead.2.1 (hne rfl rfl) (hne rfl rfl) (hne rfl rfl)] at hkept
      rw [← hall] at hparted hkept
      split at hkept
      · next hpair =>
        cases hkept
        exact readPair_agrees hblanks h hparted hpair
      · cases hkept
        exact hwhole.elim

end FormatSettings.Toml.Verbatim
