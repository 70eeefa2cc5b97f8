import FormatSettings.Proofs.Toml.Verbatim.Unifying

namespace FormatSettings.Toml.Verbatim

theorem readBare?_empty {cs : List Char} (h : cs.takeWhile (!endsWord ·) = []) : readBare? cs = none := by
  have hday : isDay [] = false := rfl
  have htime : (isDayTime [] || isTime []) = false := rfl
  have hnumber : isNumber [] = false := rfl
  unfold readBare?
  rw [h]
  cases cs with
  | nil => rfl
  | cons c cs => simp [hday, htime, hnumber]

theorem readBare?_unified {cs us text gap rest : List Char} (hus : Unifies cs us)
    (h : readBare? cs = some (text, gap, rest)) :
    ∃ left, readBare? us = some (text, gap, left) ∧ Cuts cs us rest left ∧ left.length < us.length ∧
      '\r' ∉ text ++ gap := by
  have hword := Cuts.takeWhile (p := (!endsWord ·)) rfl rfl hus
  have hcuts := (Cuts.dropWhile (p := (!endsWord ·)) rfl hus).1
  have hmore := Cuts.takeWhile (p := standsByDate) rfl rfl hcuts.rest
  have hnext := (Cuts.dropWhile (p := standsByDate) rfl hcuts.rest).1
  have hshorter : (us.dropWhile (!endsWord ·)).length < us.length := by
    have hne : us.takeWhile (!endsWord ·) ≠ [] := by
      rw [← hword]
      intro hempty
      rw [readBare?_empty hempty] at h
      cases h
    have hlength := congrArg List.length (List.takeWhile_append_dropWhile (p := (!endsWord ·)) (l := us))
    have hpos := List.length_pos_iff.mpr hne
    rw [List.length_append] at hlength
    omega
  have hlast := Nat.lt_of_le_of_lt hnext.length_le hshorter
  have hplain : '\r' ∉ us.takeWhile (!endsWord ·) := fun hmem =>
    hus.noReturn ((List.takeWhile_sublist _).subset hmem)
  have hgap : '\r' ∉ (us.dropWhile (!endsWord ·)).takeWhile standsByDate := fun hmem =>
    hus.noReturn ((List.dropWhile_sublist _).subset ((List.takeWhile_sublist _).subset hmem))
  have hhead : cs.head? = us.head? := by
    cases hus with
    | nil => rfl
    | pair => cases h
    | char => rfl
  have hstands : (fun c => c == ' ' || !endsWord c) = standsByDate := rfl
  unfold readBare? at h ⊢
  simp only [hstands] at h ⊢
  rw [hword, hmore, hhead] at h
  split at h
  · cases h
  · split at h
    · next hday =>
      rw [if_pos hday]
      split at h
      · next hread =>
        cases h
        refine ⟨_, if_pos hread, hcuts.trans hnext, hlast, ?_⟩
        rw [List.mem_append, List.mem_append, List.mem_reverse]
        rintro ((hmem | hmem) | hmem)
        · exact hplain hmem
        · exact hgap (List.mem_reverse.mp ((List.dropWhile_sublist _).subset hmem))
        · exact hgap ((List.drop_sublist _ _).subset hmem)
      · cases h
    · next hday =>
      rw [if_neg hday]
      split at h
      · next hclock =>
        cases h
        exact ⟨_, if_pos hclock, hcuts, hshorter, by rwa [List.append_nil]⟩
      · next hclock =>
        rw [if_neg hclock]
        split at h
        · next hnumber =>
          cases h
          exact ⟨_, if_pos hnumber, hcuts, hshorter, by rwa [List.append_nil]⟩
        · next hnumber =>
          rw [if_neg hnumber]
          split at h
          · next hname =>
            cases h
            exact ⟨_, if_pos hname, hcuts, hshorter, by rwa [List.append_nil]⟩
          · cases h

theorem unifies_textBefore {cs us rest left : List Char} (h : Cuts cs us rest left) :
    Unifies (textBefore rest cs) (textBefore left us) := by
  obtain ⟨⟨front, back, rfl, rfl, hfront⟩, -⟩ := h
  rwa [textBefore_append, textBefore_append]

theorem takeWord?_unified {word : List Char} (hword : '\r' ∉ word) {cs us rest : List Char}
    (hus : Unifies cs us) (h : takeWord? word cs = some rest) :
    ∃ left, takeWord? word us = some left ∧ cs = word ++ rest ∧ us = word ++ left ∧ Unifies rest left := by
  have htake (more : List Char) : takeWord? word (word ++ more) = some more := by
    rw [takeWord?, if_pos (List.isPrefixOf_iff_prefix.mpr (List.prefix_append _ _)), List.drop_left]
  unfold takeWord? at h
  split at h
  · next hprefix =>
    obtain ⟨more, rfl⟩ := List.isPrefixOf_iff_prefix.mp hprefix
    rw [List.drop_left] at h
    cases h
    obtain ⟨left, rfl, hleft⟩ := hus.of_append hword
    exact ⟨left, htake left, rfl, rfl, hleft⟩
  · cases h

structure Written.Becomes (w v : Written) : Prop where
  form : v.form = w.form
  gap : v.gap = w.gap
  text : Unifies w.text v.text
  plain : '\r' ∉ w.gap

theorem skipItems_empty {kept : Nat} {cs rest : List Char} (h : skipSpace? false cs = some (']' :: rest)) :
    skipItems (kept + 1) cs = .ok rest := by
  rw [skipItems, h]
  rfl

theorem skipItems_more {kept : Nat} {cs first after : List Char} {c d : Char} {w : Written}
    {rest : List Char} (h : skipSpace? false cs = some (c :: first)) (hc : c ≠ ']')
    (hw : readWritten kept (c :: first) = .ok (w, after))
    (hclose : skipSpace? false after = some (d :: rest)) (hd : d = ']' ∨ d = ',') :
    skipItems (kept + 1) cs = if d = ']' then .ok rest else skipItems kept rest := by
  rw [skipItems, h]
  dsimp only [expect, bind, Except.bind]
  split
  · next heq => exact absurd (List.cons.inj heq).1 hc
  · rw [hw]
    change (expect (skipSpace? false after) >>= _) = _
    rw [hclose]
    rcases hd with rfl | rfl <;> rfl

theorem skipItems_start {kept : Nat} {cs left : List Char} (h : skipItems (kept + 1) cs = .ok left) :
    ∃ c first, skipSpace? false cs = some (c :: first) := by
  rw [skipItems] at h
  obtain ⟨start, hstart, h⟩ := Except.bind_eq_ok.mp h
  cases start with
  | nil => cases kept <;> cases h
  | cons c first => exact ⟨c, first, expect_eq_ok.mp hstart⟩

theorem skipPairs_start {kept : Nat} {entries : List Entry} {cs left : List Char}
    (h : skipPairs (kept + 1) entries cs = .ok left) :
    ∃ c first, skipSpace? false cs = some (c :: first) := by
  rw [skipPairs] at h
  obtain ⟨start, hstart, h⟩ := Except.bind_eq_ok.mp h
  cases start with
  | nil => cases h
  | cons c first => exact ⟨c, first, expect_eq_ok.mp hstart⟩

theorem skipPairs_closed {kept : Nat} {entries : List Entry} {cs rest : List Char}
    (h : skipSpace? false cs = some ('\x7d' :: rest)) : skipPairs (kept + 1) entries cs = .ok rest := by
  rw [skipPairs, h]
  rfl

theorem skipPairs_more {kept : Nat} {entries grown : List Entry} {cs first behind start after : List Char}
    {c d : Char} {keys : List Key} {separator rest : List Char} {w : Written} {e : Entry}
    (h : skipSpace? false cs = some (c :: first)) (hc : c ≠ '\x7d')
    (hkeys : readKeys? ((c :: first).length + 1) (c :: first) = some (keys, behind))
    (hseparator : readSeparator? behind = some (separator, start))
    (hw : readWritten kept start = .ok (w, after))
    (he : Entry.ofPath (separateLast separator keys) (fun key => .value key {} w.form []) = some e)
    (hgrown : add (4 * (heightOf entries + keys.length + 1)) true entries e = .ok grown)
    (hclose : skipSpace? false after = some (d :: rest)) (hd : d = '\x7d' ∨ d = ',') :
    skipPairs (kept + 1) entries cs = if d = '\x7d' then .ok rest else skipPairs kept grown rest := by
  rw [skipPairs, h]
  dsimp only [expect, bind, Except.bind]
  split
  · next heq => exact absurd (List.cons.inj heq).1 hc
  · rw [hkeys]
    change (expect (readSeparator? behind) >>= _) = _
    rw [hseparator]
    change (readWritten kept start >>= _) = _
    rw [hw]
    change (expect (Entry.ofPath (separateLast separator keys) fun key => .value key {} w.form []) >>= _) = _
    rw [he]
    change (add (4 * (heightOf entries + keys.length + 1)) true entries e >>= _) = _
    rw [hgrown]
    change (expect (skipSpace? false after) >>= _) = _
    rw [hclose]
    rcases hd with rfl | rfl <;> rfl

theorem skipSpace?_first {inComment : Bool} {cs rest : List Char} {c : Char}
    (h : skipSpace? inComment cs = some (c :: rest)) : isLineSpace c = false := by
  induction cs generalizing inComment with
  | nil =>
    rw [skipSpace?] at h
    cases h
  | cons d cs ih =>
    cases inComment with
    | true =>
      rw [skipSpace?] at h
      split at h
      · exact ih h
      · split at h
        · cases h
        · exact ih h
    | false =>
      rw [skipSpace?] at h
      split at h
      · exact ih h
      · next hspace =>
        split at h
        · exact ih h
        · cases h
          exact Bool.not_eq_true _ ▸ hspace

theorem skipSpace?_cuts {cs us rest : List Char} {c : Char} (hus : Unifies cs us)
    (h : skipSpace? false cs = some (c :: rest)) : ∃ left, skipSpace? false us = some (c :: left) ∧
      Cuts cs us (c :: rest) (c :: left) ∧ Cuts cs us rest left := by
  have hc : c ≠ '\r' := by
    rintro rfl
    cases skipSpace?_first h
  obtain ⟨behind, hbehind, hcuts⟩ := skipSpace?_unified hus h
  obtain ⟨left, rfl, hleft⟩ := hcuts.rest.of_cons hc
  exact ⟨left, hbehind, hcuts, hcuts.trans (.char hc hleft)⟩

theorem readWritten_quoted {c : Char} (hquote : isQuote c = true) (fuel : Nat) (cs : List Char) :
    readWritten (fuel + 1) (c :: cs) = do
      let rest ← expect (skipString? (c :: cs))
      return (⟨.other, textBefore rest (c :: cs), []⟩, rest) := by
  rw [readWritten, show (c == '"' || c == '\x27') = true from hquote, if_pos rfl]

theorem readWritten_flagChars {b : Bool} {c : Char} (hc : (flagChars b).head? = some c) (fuel : Nat)
    (cs : List Char) : readWritten (fuel + 1) (c :: cs) = do
      let rest ← expect (takeWord? (flagChars b) (c :: cs))
      return (⟨.flag, textBefore rest (c :: cs), []⟩, rest) := by
  cases b with
  | true =>
    cases hc
    rfl
  | false =>
    cases hc
    rfl

theorem readWritten_bare {c : Char} (hquote : isQuote c = false) (htrue : c ≠ 't') (hfalse : c ≠ 'f')
    (hlist : c ≠ '[') (htable : c ≠ '\x7b') (fuel : Nat) (cs : List Char) :
    readWritten (fuel + 1) (c :: cs) = do
      let (text, gap, rest) ← expect (readBare? (c :: cs))
      return (⟨.other, text, gap⟩, rest) := by
  rw [readWritten, show (c == '"' || c == '\x27') = false from hquote, if_neg Bool.false_ne_true,
    if_neg (by simpa using htrue), if_neg (by simpa using hfalse), if_neg (by simpa using hlist),
    if_neg (by simpa using htable)]

theorem readWritten_flag_unified {b : Bool} {c : Char} (hc : (flagChars b).head? = some c) {fuel : Nat}
    {cs us rest : List Char} {w : Written} (hus : Unifies (c :: cs) us)
    (h : readWritten (fuel + 1) (c :: cs) = .ok (w, rest)) :
    ∃ v left, w.Becomes v ∧ Cuts (c :: cs) us rest left ∧ left.length < us.length ∧
      ∀ kept, us.length ≤ kept + left.length → readWritten kept us = .ok (v, left) := by
  have hplain : '\r' ∉ flagChars b := by cases b <;> decide
  rw [readWritten_flagChars hc] at h
  obtain ⟨after, htake, h⟩ := Except.bind_eq_ok.mp h
  cases h
  obtain ⟨left, hleft, hcs, rfl, hrest⟩ := takeWord?_unified hplain hus (expect_eq_ok.mp htake)
  obtain ⟨tail, htail⟩ := List.head?_eq_some_iff.mp hc
  have hcuts := Cuts.of_front hplain hrest
  rw [← hcs] at hcuts
  have hlength : (flagChars b).length = tail.length + 1 := by rw [htail, List.length_cons]
  refine ⟨⟨.flag, textBefore left (flagChars b ++ left), []⟩, left,
    ⟨rfl, rfl, unifies_textBefore hcuts, List.not_mem_nil⟩,
    hcuts, by rw [List.length_append]; omega, fun kept hkept => ?_⟩
  rw [List.length_append] at hkept
  obtain ⟨n, rfl⟩ : ∃ n, kept = n + 1 := ⟨kept - 1, by omega⟩
  rw [htail] at hleft ⊢
  rw [List.cons_append] at hleft ⊢
  rw [readWritten_flagChars hc, htail, hleft]
  rfl

mutual

theorem readWritten_unified (fuel : Nat) {cs us rest : List Char} {w : Written} (hus : Unifies cs us)
    (h : readWritten fuel cs = .ok (w, rest)) :
    ∃ v left, w.Becomes v ∧ Cuts cs us rest left ∧ left.length < us.length ∧
      ∀ kept, us.length ≤ kept + left.length → readWritten kept us = .ok (v, left) := by
  match fuel, cs, us, hus with
  | 0, _, _, _ => cases h
  | _ + 1, _, _, .nil => cases h
  | _ + 1, _, _, .pair _ =>
    rw [readWritten_bare rfl (by decide) (by decide) (by decide) (by decide),
      readBare?_empty rfl] at h
    cases h
  | fuel + 1, c :: cs, _ :: us, .char hc hus =>
    have hstep {left : List Char} (hleft : left.length ≤ us.length) {kept : Nat}
        (hkept : (c :: us).length ≤ kept + left.length) :
        ∃ n, kept = n + 1 ∧ us.length ≤ n + left.length := by
      rw [List.length_cons] at hkept
      exact ⟨kept - 1, by omega, by omega⟩
    by_cases hquote : isQuote c = true
    · rw [readWritten_quoted hquote] at h
      obtain ⟨after, hskip, h⟩ := Except.bind_eq_ok.mp h
      cases h
      obtain ⟨left, hleft, hbody⟩ := skipString?_unified hquote hus (expect_eq_ok.mp hskip)
      have hcuts := (Cuts.char hc hus).trans hbody
      refine ⟨⟨.other, textBefore left (c :: us), []⟩, left,
        ⟨rfl, rfl, unifies_textBefore hcuts, List.not_mem_nil⟩, hcuts,
        Nat.lt_succ_of_le hbody.length_le, fun kept hkept => ?_⟩
      obtain ⟨n, rfl, -⟩ := hstep hbody.length_le hkept
      rw [readWritten_quoted hquote, hleft]
      rfl
    by_cases htrue : c = 't'
    · exact readWritten_flag_unified (b := true) (htrue ▸ rfl) (.char hc hus) h
    by_cases hfalse : c = 'f'
    · exact readWritten_flag_unified (b := false) (hfalse ▸ rfl) (.char hc hus) h
    by_cases hlist : c = '['
    · subst hlist
      obtain ⟨rfl, hskip⟩ := readWritten_bracket h
      obtain ⟨left, hbody, hless, hleft⟩ := skipItems_unified fuel hus hskip
      have hcuts := (Cuts.char hc hus).trans hbody
      refine ⟨⟨.other, textBefore left ('[' :: us), []⟩, left,
        ⟨rfl, rfl, unifies_textBefore hcuts, List.not_mem_nil⟩, hcuts,
        Nat.lt_succ_of_lt hless, fun kept hkept => ?_⟩
      obtain ⟨n, rfl, hn⟩ := hstep hbody.length_le hkept
      rw [readWritten]
      change (skipItems n us >>= _) = _
      rw [hleft n hn]
      rfl
    by_cases htable : c = '\x7b'
    · subst htable
      obtain ⟨rfl, hskip⟩ := readWritten_brace h
      obtain ⟨left, hbody, hless, hleft⟩ := skipPairs_unified fuel hus hskip
      have hcuts := (Cuts.char hc hus).trans hbody
      refine ⟨⟨.braces, textBefore left ('\x7b' :: us), []⟩, left,
        ⟨rfl, rfl, unifies_textBefore hcuts, List.not_mem_nil⟩,
        hcuts, Nat.lt_succ_of_lt hless, fun kept hkept => ?_⟩
      obtain ⟨n, rfl, hn⟩ := hstep hbody.length_le hkept
      rw [readWritten]
      change (skipPairs n [] us >>= _) = _
      rw [hleft n hn]
      rfl
    rw [Bool.not_eq_true] at hquote
    rw [readWritten_bare hquote htrue hfalse hlist htable] at h
    obtain ⟨⟨text, gap, after⟩, hbare, h⟩ := Except.bind_eq_ok.mp h
    cases h
    obtain ⟨left, hleft, hcuts, hless, htext⟩ := readBare?_unified (.char hc hus) (expect_eq_ok.mp hbare)
    rw [List.mem_append, not_or] at htext
    refine ⟨⟨.other, text, gap⟩, left, ⟨rfl, rfl, .of_noReturn htext.1, htext.2⟩, hcuts, hless,
      fun kept hkept => ?_⟩
    obtain ⟨n, rfl, -⟩ := hstep (Nat.le_of_lt_succ hless) hkept
    rw [readWritten_bare hquote htrue hfalse hlist htable, hleft]
    rfl

theorem skipItems_unified (fuel : Nat) {cs us rest : List Char} (hus : Unifies cs us)
    (h : skipItems fuel cs = .ok rest) : ∃ left, Cuts cs us rest left ∧ left.length < us.length ∧
      ∀ kept, us.length ≤ kept + left.length → skipItems kept us = .ok left := by
  match fuel with
  | 0 => cases h
  | fuel + 1 =>
    obtain ⟨c, first, hstart⟩ := skipItems_start h
    obtain ⟨others, hothers, hcuts, hbehind⟩ := skipSpace?_cuts hus hstart
    have hlength := hcuts.length_le
    rw [List.length_cons] at hlength
    by_cases hc : c = ']'
    · subst hc
      obtain rfl := skipItems_done h hstart
      refine ⟨others, hbehind, by omega, fun kept hkept => ?_⟩
      obtain ⟨n, rfl⟩ : ∃ n, kept = n + 1 := ⟨kept - 1, by omega⟩
      exact skipItems_empty hothers
    · obtain ⟨w, after, next, hw, hnext, hclose⟩ := skipItems_item h hstart hc
      obtain ⟨v, final, -, hitem, hless, hread⟩ := readWritten_unified fuel hcuts.rest hw
      have hvalue := hitem.length_le
      rcases hclose with rfl | ⟨more, rfl, hmore⟩
      · obtain ⟨left, hleft, hend, hlast⟩ := skipSpace?_cuts hitem.rest hnext
        have hend := hend.length_le
        rw [List.length_cons] at hend hless
        refine ⟨left, hcuts.trans (hitem.trans hlast), by omega, fun kept hkept => ?_⟩
        obtain ⟨n, rfl⟩ : ∃ n, kept = n + 1 := ⟨kept - 1, by omega⟩
        have hagain := hread n (by rw [List.length_cons]; omega)
        rw [skipItems_more hothers hc hagain hleft (.inl rfl), if_pos rfl]
      · obtain ⟨tail, htail, hcomma, hbehindComma⟩ := skipSpace?_cuts hitem.rest hnext
        obtain ⟨left, hothersCuts, hshorter, hleft⟩ := skipItems_unified fuel hbehindComma.rest hmore
        have hcomma := hcomma.length_le
        have hlast := hothersCuts.length_le
        rw [List.length_cons] at hcomma hless
        refine ⟨left, hcuts.trans (hitem.trans (hbehindComma.trans hothersCuts)), by omega,
          fun kept hkept => ?_⟩
        obtain ⟨n, rfl⟩ : ∃ n, kept = n + 1 := ⟨kept - 1, by omega⟩
        have hagain := hread n (by rw [List.length_cons]; omega)
        rw [skipItems_more hothers hc hagain htail (.inr rfl), if_neg (by decide)]
        exact hleft n (by omega)

theorem skipPairs_unified (fuel : Nat) {entries : List Entry} {cs us rest : List Char}
    (hus : Unifies cs us) (h : skipPairs fuel entries cs = .ok rest) :
    ∃ left, Cuts cs us rest left ∧ left.length < us.length ∧
      ∀ kept, us.length ≤ kept + left.length → skipPairs kept entries us = .ok left := by
  match fuel with
  | 0 => cases h
  | fuel + 1 =>
    obtain ⟨c, first, hstart⟩ := skipPairs_start h
    obtain ⟨others, hothers, hcuts, hbehind⟩ := skipSpace?_cuts hus hstart
    have hlength := hcuts.length_le
    rw [List.length_cons] at hlength
    by_cases hc : c = '\x7d'
    · subst hc
      obtain rfl := skipPairs_done h hstart
      refine ⟨others, hbehind, by omega, fun kept hkept => ?_⟩
      obtain ⟨n, rfl⟩ : ∃ n, kept = n + 1 := ⟨kept - 1, by omega⟩
      exact skipPairs_closed hothers
    · obtain ⟨keys, behind, separator, start, w, after, e, grown, next, hkeys, hseparator, hw, he, hgrown,
        hnext, hclose⟩ := skipPairs_pair h hstart hc
      obtain ⟨equals, hequals, hkept⟩ := readKeys?_unified hcuts.rest hkeys
      have hkeysAgain := hkept _ (Nat.lt_succ_self _)
      obtain ⟨begins, hbegins, hstarts⟩ := readSeparator?_unified hequals.rest hseparator
      obtain ⟨v, final, hbecomes, hitem, hless, hread⟩ := readWritten_unified fuel hstarts.rest hw
      rw [← hbecomes.form] at he
      have hall := hcuts.trans (hequals.trans (hstarts.trans hitem))
      have hkeysLength := hequals.length_le
      have hstartsLength := hstarts.length_le
      rw [List.length_cons] at hkeysLength
      rcases hclose with rfl | ⟨more, rfl, hmore⟩
      · obtain ⟨left, hleft, hend, hlast⟩ := skipSpace?_cuts hitem.rest hnext
        have hend := hend.length_le
        rw [List.length_cons] at hend
        refine ⟨left, hall.trans hlast, by omega, fun kept hkept => ?_⟩
        obtain ⟨n, rfl⟩ : ∃ n, kept = n + 1 := ⟨kept - 1, by omega⟩
        have hagain := hread n (by omega)
        rw [skipPairs_more hothers hc hkeysAgain hbegins hagain he hgrown hleft (.inl rfl), if_pos rfl]
      · obtain ⟨tail, htail, hcomma, hbehindComma⟩ := skipSpace?_cuts hitem.rest hnext
        obtain ⟨left, hothersCuts, hshorter, hleft⟩ := skipPairs_unified fuel hbehindComma.rest hmore
        have hcomma := hcomma.length_le
        have hlast := hothersCuts.length_le
        rw [List.length_cons] at hcomma
        refine ⟨left, hall.trans (hbehindComma.trans hothersCuts), by omega, fun kept hkept => ?_⟩
        obtain ⟨n, rfl⟩ : ∃ n, kept = n + 1 := ⟨kept - 1, by omega⟩
        have hagain := hread n (by omega)
        rw [skipPairs_more hothers hc hkeysAgain hbegins hagain he hgrown htail (.inr rfl),
          if_neg (by decide)]
        exact hleft n (by omega)

end

end FormatSettings.Toml.Verbatim
