import FormatSettings.Proofs.Report
import FormatSettings.Proofs.Toml.LineText
import FormatSettings.Toml.Verbatim.Line

namespace FormatSettings.Toml.Verbatim

theorem expect_eq_ok {α : Type} {a? : Option α} {a : α} : expect a? = .ok a ↔ a? = some a := by
  cases a? with
  | none => simp [expect]
  | some b => simp [expect]

theorem delimited_cons {c : Char} (hc : endsWord c = true) {cs : List Char}
    (h : isLineBlank c = true → Delimited cs) : Delimited (c :: cs) := by
  rw [Delimited, List.dropWhile_cons]
  split
  · next hblank => exact h hblank
  · rw [stops_cons, hc]
    rfl

theorem delimited_break {c : Char} (hc : endsWord c = true) (hblank : isLineBlank c = false)
    (cs : List Char) : Delimited (c :: cs) :=
  delimited_cons hc fun h => by rw [hblank] at h; cases h

theorem delimited_of_skipFiller? {inComment : Bool} {cs rest : List Char} {c : Char}
    (hplain : inComment = false) (h : skipFiller? inComment cs = some (c :: rest))
    (hc : endsWord c = true) : Delimited cs := by
  fun_induction skipFiller? inComment cs with
  | case1 => cases h
  | case2 => exact delimited_break rfl rfl _
  | case3 => exact delimited_break rfl rfl _
  | case4 => cases hplain
  | case5 => cases hplain
  | case6 d tail _ _ hblank ih =>
    exact delimited_cons (endsWord_of_isLineBlank hblank) fun _ => ih hplain h
  | case7 d tail _ _ _ hcomment =>
    rw [beq_iff_eq.mp hcomment]
    exact delimited_break rfl rfl _
  | case8 d tail _ _ hblank _ =>
    cases h
    exact delimited_break hc (by simpa using hblank) _

theorem delimited_of_isLineEnd {inComment : Bool} {cs : List Char} (hplain : inComment = false)
    (h : isLineEnd inComment cs = true) : Delimited cs := by
  fun_induction isLineEnd inComment cs with
  | case1 =>
    intro c hc
    cases hc
  | case2 => exact delimited_break rfl rfl _
  | case3 => exact delimited_break rfl rfl _
  | case4 => cases hplain
  | case5 d tail _ _ hblank ih =>
    exact delimited_cons (endsWord_of_isLineBlank hblank) fun _ => ih hplain h
  | case6 d tail _ _ hblank =>
    rw [Bool.and_eq_true, beq_iff_eq] at h
    rw [h.1]
    exact delimited_break rfl rfl _

theorem skipSpace?_agrees {inComment : Bool} {cs rest : List Char} {c : Char}
    (h : skipFiller? inComment cs = some (c :: rest)) (hreturn : '\r' ∉ cs) (more : List Char) :
    skipSpace? inComment (cs ++ more) = some (c :: rest ++ more) := by
  fun_induction skipFiller? inComment cs with
  | case1 => cases h
  | case2 inComment tail ih =>
    have htail := ih h fun hmem => hreturn (List.mem_cons_of_mem _ hmem)
    cases inComment with
    | false => exact htail
    | true => exact htail
  | case3 => exact absurd List.mem_cons_self hreturn
  | case4 => cases h
  | case5 d tail hbreak _ hcontrol ih =>
    have hend : isCommentEnd d = false := by
      rw [isCommentEnd, Bool.or_eq_false_iff]
      exact ⟨by simpa using hbreak, by
        simpa using fun heq : d = '\r' => hreturn (heq ▸ List.mem_cons_self)⟩
    rw [List.cons_append, skipSpace?, hend, if_neg Bool.false_ne_true, if_neg hcontrol]
    exact ih h fun hmem => hreturn (List.mem_cons_of_mem _ hmem)
  | case6 d tail _ _ hblank ih =>
    rw [List.cons_append, skipSpace?, if_pos (isLineSpace_of_isLineBlank hblank)]
    exact ih h fun hmem => hreturn (List.mem_cons_of_mem _ hmem)
  | case7 d tail hbreak _ hblank hcomment ih =>
    rw [beq_iff_eq] at hcomment
    subst hcomment
    exact ih h fun hmem => hreturn (List.mem_cons_of_mem _ hmem)
  | case8 d tail hbreak _ hblank hcomment =>
    cases h
    have hspace : isLineSpace c = false := by
      rw [isLineSpace, Bool.or_eq_false_iff, Bool.or_eq_false_iff]
      exact ⟨⟨by simpa using hblank, by simpa using hbreak⟩, by
        simpa using fun heq : c = '\r' => hreturn (heq ▸ List.mem_cons_self)⟩
    rw [List.cons_append, skipSpace?, hspace, if_neg Bool.false_ne_true, if_neg hcomment]

theorem skipSpace?_blanks {front : List Char} (h : Blanks front) (cs : List Char) :
    skipSpace? false (front ++ cs) = skipSpace? false cs := by
  induction front with
  | nil => rfl
  | cons c front ih =>
    have hc := h c List.mem_cons_self
    rw [List.cons_append, skipSpace?, if_pos (isLineSpace_of_isLineBlank hc)]
    exact ih fun d hd => h d (List.mem_cons_of_mem _ hd)

theorem readSeparator?_agrees {fuel : Nat} {cs rest more separator left : List Char} {v : Value}
    (h : readValue? fuel (cs.dropWhile isLineBlank) = some (v, rest))
    (hkept : readSeparator? ('=' :: cs ++ more) = some (separator, left)) :
    separator = '=' :: cs.takeWhile isLineBlank ∧ left = cs.dropWhile isLineBlank ++ more := by
  obtain ⟨c, tail, hfirst, hends, hequals⟩ := first_of_readValue? h
  have hparts : ∀ d ∈ '=' :: cs.takeWhile isLineBlank, (d == '=' || isLineBlank d) = true := by
    intro d hd
    rcases List.mem_cons.mp hd with rfl | hd
    · rfl
    · rw [blanks_takeWhile cs d hd, Bool.or_true]
  have hstop : Stops (fun d => d == '=' || isLineBlank d) (cs.dropWhile isLineBlank ++ more) := by
    rw [hfirst, List.cons_append, stops_cons, isLineBlank_of_endsWord hends, Bool.or_false]
    exact beq_false_of_ne hequals
  have hall : '=' :: cs ++ more =
      '=' :: cs.takeWhile isLineBlank ++ (cs.dropWhile isLineBlank ++ more) := by
    rw [List.cons_append, List.cons_append, ← List.append_assoc, List.takeWhile_append_dropWhile]
  unfold readSeparator? at hkept
  dsimp only at hkept
  rw [hall, takeWhile_append_of_stops hparts hstop, dropWhile_append_of_stops hparts hstop] at hkept
  split at hkept
  · cases hkept
    exact ⟨rfl, rfl⟩
  · cases hkept

def IsFlag (text : List Char) (v : Value) : Prop :=
  ∃ b, text = flagChars b ∧ v = .bool b

inductive EndsAlike (cs rest more : List Char) (v : Value) (w : Written) (left : List Char) : Prop
  | whole (hgap : w.gap = []) (hcs : cs = w.text ++ rest) (hleft : left = rest ++ more)
      (hflag : w.form = .flag → IsFlag w.text v)
  | dated {word spaces after : List Char} (hform : w.form = .other) (hgap : w.gap ≠ [])
      (hword : takeWord cs = (word, rest)) (hv : readWord? word = some v)
      (hrest : rest = spaces ++ after) (hspaces : ∀ c ∈ spaces, c = ' ')
      (htext : w.text ++ w.gap = word ++ spaces) (hinert : ∀ c ∈ w.text ++ w.gap, IsInert c)
      (hleft : left = after ++ more)

namespace EndsAlike

variable {cs rest more left : List Char} {v : Value} {w : Written}

theorem of_text (h : Takes cs rest) {form : Form} (hleft : left = rest ++ more)
    (hflag : form = .flag → ∀ text, cs = text ++ rest → IsFlag text v) :
    EndsAlike cs rest more v ⟨form, textBefore left (cs ++ more), []⟩ left := by
  obtain ⟨text, -, rfl⟩ := h
  have htext : textBefore left (text ++ rest ++ more) = text := by
    rw [hleft, List.append_assoc]
    exact textBefore_append text (rest ++ more)
  rw [htext]
  exact .whole rfl rfl hleft fun hform => hflag hform text rfl

theorem left_eq (h : EndsAlike cs rest more v w left) :
    ∃ spaces after, Blanks spaces ∧ rest = spaces ++ after ∧ left = after ++ more := by
  cases h with
  | whole _ _ hleft => exact ⟨[], rest, .nil, rfl, hleft⟩
  | dated _ _ _ _ hrest hspaces _ _ hleft =>
    exact ⟨_, _, blanks_of_spaces hspaces, hrest, hleft⟩

end EndsAlike

theorem eq_flagChars_of_readWord? {b : Bool} {first : Char} (hfirst : (flagChars b).head? = some first)
    {tail : List Char} {v : Value} (hv : readWord? (first :: tail) = some v) :
    first :: tail = flagChars b ∧ v = .bool b := by
  have hword : first :: tail = flagChars b := by
    cases b with
    | true =>
      cases hfirst
      have hletter := readWord?_letter rfl (by decide) hv
      simp only [List.mem_cons, List.not_mem_nil, or_false] at hletter
      rcases hletter with h | h | h | h
      · exact h
      all_goals exact absurd (List.cons.inj h).1 (by decide)
    | false =>
      cases hfirst
      have hletter := readWord?_letter rfl (by decide) hv
      simp only [List.mem_cons, List.not_mem_nil, or_false] at hletter
      rcases hletter with h | h | h | h
      · exact absurd (List.cons.inj h).1 (by decide)
      · exact h
      all_goals exact absurd (List.cons.inj h).1 (by decide)
  refine ⟨hword, ?_⟩
  rw [hword] at hv
  cases b with
  | true => exact (Option.some.inj hv).symm
  | false => exact (Option.some.inj hv).symm

theorem readWritten_flag_agrees {b : Bool} {cs rest more left : List Char} {w : Written}
    (hcs : cs = flagChars b ++ rest)
    (h : (do
      let rest ← expect (takeWord? (flagChars b) (cs ++ more))
      return ((⟨.flag, textBefore rest (cs ++ more), []⟩ : Written), rest)) = .ok (w, left)) :
    EndsAlike cs rest more (.bool b) w left := by
  obtain ⟨after, htake, h⟩ := Except.bind_eq_ok.mp h
  have hafter : after = rest ++ more := by
    rw [expect_eq_ok, hcs, List.append_assoc, takeWord?,
      if_pos (List.isPrefixOf_iff_prefix.mpr (List.prefix_append _ _)), List.drop_left] at htake
    exact (Option.some.inj htake).symm
  cases h
  have hne : flagChars b ≠ [] := by
    cases b with
    | true => exact List.cons_ne_nil _ _
    | false => exact List.cons_ne_nil _ _
  refine .of_text ⟨flagChars b, hne, hcs⟩ hafter ?_
  intro _ text htext
  rw [hcs] at htext
  exact ⟨b, (List.append_cancel_right htext).symm, rfl⟩

theorem readWritten_word_agrees {kept : Nat} {c : Char} {cs word rest more left : List Char}
    {v : Value} {w : Written} (hquote : isQuote c = false) (hc : c ≠ '[' ∧ c ≠ '\x7b')
    (hword : takeWord (c :: cs) = (word, rest)) (hv : readWord? word = some v)
    (hparted : Parted (c :: cs) more) (hdelimited : Delimited rest)
    (hkept : readWritten (kept + 1) (c :: cs ++ more) = .ok (w, left)) :
    EndsAlike (c :: cs) rest more v w left := by
  obtain ⟨d, tail, rfl, hends⟩ := first_of_takeWord hword hv
  have hall := takeWord_append hword
  obtain ⟨rfl, hcs⟩ := List.cons.inj hall
  rw [List.cons_append, readWritten, show (d == '"' || d == '\x27') = false from hquote,
    if_neg Bool.false_ne_true] at hkept
  by_cases htrue : d = 't'
  · subst htrue
    obtain ⟨hflag, rfl⟩ := eq_flagChars_of_readWord? (b := true) rfl hv
    exact readWritten_flag_agrees (by rw [← hall, hflag]) hkept
  rw [if_neg (by simpa using htrue)] at hkept
  by_cases hfalse : d = 'f'
  · subst hfalse
    obtain ⟨hflag, rfl⟩ := eq_flagChars_of_readWord? (b := false) rfl hv
    exact readWritten_flag_agrees (by rw [← hall, hflag]) hkept
  rw [if_neg (by simpa using hfalse), if_neg (by simpa using hc.1),
    if_neg (by simpa using hc.2)] at hkept
  obtain ⟨⟨text, gap, after⟩, hbare, hkept⟩ := Except.bind_eq_ok.mp hkept
  cases hkept
  obtain ⟨spaces, behind, hrest, hleft, htext, hspaces, hnone, hinert⟩ :=
    readBare?_agrees hword hdelimited hparted (expect_eq_ok.mp hbare)
  -- A gap that is read with the word is there only with a date.
  by_cases hgap : gap = []
  · rw [hnone hgap, List.append_nil, hgap, List.append_nil] at htext
    rw [hnone hgap, List.nil_append] at hrest
    refine .whole hgap ?_ (by rw [hleft, hrest]) (by rintro ⟨⟩)
    rw [htext]
    exact hall.symm
  · exact .dated rfl hgap hword hv hrest hspaces htext (hinert hgap) hleft

theorem skipSpace?_left {cs rest more left after : List Char} {v : Value} {w : Written} {c : Char}
    (h : EndsAlike cs rest more v w left) (hfiller : skipFiller? false rest = some (c :: after))
    (hreturn : '\r' ∉ rest) : skipSpace? false left = some (c :: after ++ more) := by
  obtain ⟨spaces, behind, hspaces, rfl, rfl⟩ := h.left_eq
  have hskip := skipSpace?_agrees hfiller hreturn more
  rwa [List.append_assoc, skipSpace?_blanks hspaces] at hskip

theorem readWritten_bracket {kept : Nat} {cs left : List Char} {w : Written}
    (h : readWritten (kept + 1) ('[' :: cs) = .ok (w, left)) :
    w = ⟨.other, textBefore left ('[' :: cs), []⟩ ∧ skipItems kept cs = .ok left := by
  rw [readWritten, if_neg (by decide), if_neg (by decide), if_neg (by decide),
    if_pos (by decide)] at h
  obtain ⟨after, hskip, h⟩ := Except.bind_eq_ok.mp h
  cases h
  exact ⟨rfl, hskip⟩

theorem readWritten_brace {kept : Nat} {cs left : List Char} {w : Written}
    (h : readWritten (kept + 1) ('\x7b' :: cs) = .ok (w, left)) :
    w = ⟨.braces, textBefore left ('\x7b' :: cs), []⟩ ∧ skipPairs kept [] cs = .ok left := by
  rw [readWritten, if_neg (by decide), if_neg (by decide), if_neg (by decide),
    if_neg (by decide), if_pos (by decide)] at h
  obtain ⟨after, hskip, h⟩ := Except.bind_eq_ok.mp h
  cases h
  exact ⟨rfl, hskip⟩

theorem skipItems_done {kept : Nat} {cs left rest : List Char}
    (h : skipItems (kept + 1) cs = .ok left) (hskip : skipSpace? false cs = some (']' :: rest)) :
    left = rest := by
  rw [skipItems, hskip] at h
  exact (Except.ok.inj h).symm

theorem skipItems_item {kept : Nat} {cs left first : List Char} {c : Char}
    (h : skipItems (kept + 1) cs = .ok left) (hskip : skipSpace? false cs = some (c :: first))
    (hc : c ≠ ']') :
    ∃ w after next, readWritten kept (c :: first) = .ok (w, after) ∧
      skipSpace? false after = some next ∧
      (next = ']' :: left ∨ ∃ others, next = ',' :: others ∧ skipItems kept others = .ok left) := by
  rw [skipItems, hskip] at h
  obtain ⟨start, hstart, h⟩ := Except.bind_eq_ok.mp h
  cases hstart
  split at h
  · next heq => exact absurd (List.cons.inj heq).1 hc
  obtain ⟨⟨w, after⟩, hwritten, h⟩ := Except.bind_eq_ok.mp h
  obtain ⟨next, hnext, h⟩ := Except.bind_eq_ok.mp h
  refine ⟨w, after, next, hwritten, expect_eq_ok.mp hnext, ?_⟩
  split at h
  · cases h
    exact .inl rfl
  · exact .inr ⟨_, rfl, h⟩
  · cases h

theorem skipItems_behind {kept : Nat} {cs first behind after more left : List Char} {v : Value}
    {c d : Char} (h : skipFiller? false cs = some (c :: first)) (hc : c ≠ ']') (hreturn : '\r' ∉ cs)
    (hbehind : behind <:+ cs) (hd : skipFiller? false behind = some (d :: after))
    (hends : ∀ w left, readWritten kept (c :: first ++ more) = .ok (w, left) →
      EndsAlike (c :: first) behind more v w left)
    (hkept : skipItems (kept + 1) (cs ++ more) = .ok left) :
    (d = ']' ∧ left = after ++ more) ∨ (d = ',' ∧ skipItems kept (after ++ more) = .ok left) := by
  obtain ⟨w, left', next, hwritten, hnext, hkept⟩ :=
    skipItems_item hkept (skipSpace?_agrees h hreturn more) hc
  have hskip := skipSpace?_left (hends w left' hwritten) hd fun hmem => hreturn (hbehind.subset hmem)
  obtain rfl := Option.some.inj (hskip.symm.trans hnext)
  rcases hkept with heq | ⟨others, heq, hkept⟩
  · cases heq
    exact .inl ⟨rfl, rfl⟩
  · cases heq
    exact .inr ⟨rfl, hkept⟩

theorem skipPairs_done {kept : Nat} {entries : List Entry} {cs left rest : List Char}
    (h : skipPairs (kept + 1) entries cs = .ok left)
    (hskip : skipSpace? false cs = some ('\x7d' :: rest)) : left = rest := by
  rw [skipPairs, hskip] at h
  exact (Except.ok.inj h).symm

theorem skipPairs_empty {kept : Nat} {entries : List Entry} {cs rest more left : List Char}
    (h : cs.dropWhile isLineBlank = '\x7d' :: rest)
    (hkept : skipPairs kept entries (cs ++ more) = .ok left) : left = rest ++ more := by
  obtain ⟨front, hfront, hcs⟩ := blanks_append_dropWhile cs
  rw [hcs, h, List.append_assoc] at hkept
  cases kept with
  | zero => cases hkept
  | succ kept =>
    refine skipPairs_done hkept ?_
    rw [skipSpace?_blanks hfront]
    rfl

theorem skipPairs_pair {kept : Nat} {entries : List Entry} {cs left first : List Char} {c : Char}
    (h : skipPairs (kept + 1) entries cs = .ok left)
    (hskip : skipSpace? false cs = some (c :: first)) (hc : c ≠ '\x7d') :
    ∃ keys behind separator start w after e grown next,
      readKeys? ((c :: first).length + 1) (c :: first) = some (keys, behind) ∧
      readSeparator? behind = some (separator, start) ∧ readWritten kept start = .ok (w, after) ∧
      Entry.ofPath (separateLast separator keys) (fun key => .value key {} w.form []) = some e ∧
      add (4 * (heightOf entries + keys.length + 1)) true entries e = .ok grown ∧
      skipSpace? false after = some next ∧
      (next = '\x7d' :: left ∨
        ∃ others, next = ',' :: others ∧ skipPairs kept grown others = .ok left) := by
  rw [skipPairs, hskip] at h
  obtain ⟨start, hstart, h⟩ := Except.bind_eq_ok.mp h
  cases hstart
  split at h
  · next heq => exact absurd (List.cons.inj heq).1 hc
  obtain ⟨⟨keys, behind⟩, hkeys, h⟩ := Except.bind_eq_ok.mp h
  obtain ⟨⟨separator, start⟩, hseparator, h⟩ := Except.bind_eq_ok.mp h
  obtain ⟨⟨w, after⟩, hwritten, h⟩ := Except.bind_eq_ok.mp h
  obtain ⟨e, he, h⟩ := Except.bind_eq_ok.mp h
  obtain ⟨grown, hgrown, h⟩ := Except.bind_eq_ok.mp h
  obtain ⟨next, hnext, h⟩ := Except.bind_eq_ok.mp h
  refine ⟨keys, behind, separator, start, w, after, e, grown, next, expect_eq_ok.mp hkeys,
    expect_eq_ok.mp hseparator, hwritten, expect_eq_ok.mp he, hgrown, expect_eq_ok.mp hnext, ?_⟩
  split at h
  · cases h
    exact .inl rfl
  · exact .inr ⟨_, rfl, h⟩
  · cases h

theorem skipFiller?_of_dropWhile {cs rest : List Char} {c : Char}
    (h : cs.dropWhile isLineBlank = c :: rest) (hc : isLineSpace c = false) (hcomment : c ≠ '#') :
    skipFiller? false cs = some (c :: rest) := by
  induction cs with
  | nil => cases h
  | cons d cs ih =>
    rw [List.dropWhile_cons] at h
    split at h
    · next hblank =>
      rw [skipFiller?, if_pos hblank]
      · exact ih h
      · exact ne_of_isLineBlank hblank rfl
      · exact fun _ heq => absurd heq (ne_of_isLineBlank hblank rfl)
    · next hblank =>
      cases h
      rw [isLineSpace, Bool.or_eq_false_iff, Bool.or_eq_false_iff] at hc
      rw [skipFiller?, if_neg hblank, if_neg (by simpa using hcomment)]
      · simpa using hc.1.2
      · exact fun _ heq => absurd heq (by simpa using hc.2)

theorem skipPairs_first {fuel kept : Nat} {entries : List Entry}
    {front cs after behind more left : List Char} {path : List String} {v : Value}
    (h : readPath? fuel cs = some (path, '=' :: after))
    (hv : readValue? fuel (after.dropWhile isLineBlank) = some (v, behind)) (hfront : Blanks front)
    (hkept : skipPairs (kept + 1) entries (front ++ cs ++ more) = .ok left) :
    ∃ w left' next, readWritten kept (after.dropWhile isLineBlank ++ more) = .ok (w, left') ∧
      skipSpace? false left' = some next ∧
      (next = '\x7d' :: left ∨
        ∃ others entries, next = ',' :: others ∧ skipPairs kept entries others = .ok left) := by
  obtain ⟨c, tail, rfl, hc⟩ := first_of_readPath? h
  have hne {d : Char} := ne_of_startsKey hc (d := d)
  have hspace : isLineSpace c = false := by
    rw [isLineSpace, isLineBlank_of_startsKey hc, beq_false_of_ne (hne rfl rfl),
      beq_false_of_ne (hne rfl rfl)]
    rfl
  have hskip : skipSpace? false (front ++ c :: tail ++ more) = some (c :: (tail ++ more)) := by
    rw [List.append_assoc, skipSpace?_blanks hfront, List.cons_append, skipSpace?, hspace,
      if_neg Bool.false_ne_true, if_neg (by simpa using hne (d := '#') rfl rfl)]
  obtain ⟨keys, separated, separator, start, w, left', e, grown, next, hkeys, hseparator, hwritten, -, -,
    hnext, hrest⟩ := skipPairs_pair hkept hskip (hne rfl rfl)
  obtain ⟨-, -, -, rfl⟩ := readKeys?_path .nil h (.inl rfl) hkeys
  obtain ⟨-, rfl⟩ := readSeparator?_agrees hv hseparator
  refine ⟨w, left', next, hwritten, hnext, hrest.imp_right ?_⟩
  rintro ⟨others, hothers⟩
  exact ⟨others, grown, hothers⟩

theorem skipPairs_behind {fuel kept : Nat} {entries : List Entry}
    {front cs after behind rest more left : List Char} {path : List String} {v : Value} {c : Char}
    (h : readPath? fuel cs = some (path, '=' :: after))
    (hv : readValue? fuel (after.dropWhile isLineBlank) = some (v, behind))
    (hc : skipFiller? false behind = some (c :: rest)) (hfront : Blanks front)
    (hreturn : '\r' ∉ behind)
    (hends : ∀ w left, readWritten kept (after.dropWhile isLineBlank ++ more) = .ok (w, left) →
      EndsAlike (after.dropWhile isLineBlank) behind more v w left)
    (hkept : skipPairs (kept + 1) entries (front ++ cs ++ more) = .ok left) :
    (c = '\x7d' ∧ left = rest ++ more) ∨
      (c = ',' ∧ ∃ entries, skipPairs kept entries (rest ++ more) = .ok left) := by
  obtain ⟨w, left', next, hwritten, hnext, hkept⟩ := skipPairs_first h hv hfront hkept
  have hskip := skipSpace?_left (hends w left' hwritten) hc hreturn
  obtain rfl := Option.some.inj (hskip.symm.trans hnext)
  rcases hkept with heq | ⟨others, entries, heq, hkept⟩
  · cases heq
    exact .inl ⟨rfl, rfl⟩
  · cases heq
    exact .inr ⟨rfl, entries, hkept⟩

mutual

theorem readWritten_agrees (fuel : Nat) {kept : Nat} {cs rest more left : List Char} {v : Value}
    {w : Written} (h : readValue? fuel cs = some (v, rest)) (hparted : Parted cs more)
    (hdelimited : Delimited rest) (hkept : readWritten kept (cs ++ more) = .ok (w, left)) :
    EndsAlike cs rest more v w left := by
  have htakes := (readValue?_freely fuel cs v rest h).1
  match fuel, kept, cs with
  | 0, _, _ => cases h
  | fuel + 1, _, [] => cases h
  | fuel + 1, 0, c :: cs => cases hkept
  | fuel + 1, kept + 1, c :: cs =>
    have hread := readValue?_iff.mp h
    clear h
    -- The first character tells both readers the kind of the value.
    cases hread with
    | string hquote h =>
      rw [List.cons_append, readWritten, show (c == '"' || c == '\x27') = true from hquote,
        if_pos rfl] at hkept
      obtain ⟨after, hskip, hkept⟩ := Except.bind_eq_ok.mp hkept
      cases hkept
      have hleft := skipString?_agrees h hparted (expect_eq_ok.mp hskip)
      exact .of_text htakes hleft nofun
    | list hc h =>
      subst hc
      obtain ⟨rfl, hskip⟩ := readWritten_bracket hkept
      have hne := (readItems?_freely fuel cs _ rest h).1.ne_nil
      exact .of_text htakes (skipItems_agrees fuel h (hparted.tail hne) hskip) nofun
    | empty hc h =>
      subst hc
      obtain ⟨rfl, hskip⟩ := readWritten_brace hkept
      exact .of_text htakes (skipPairs_empty h hskip) nofun
    | table hc hne h hv =>
      subst hc
      obtain ⟨rfl, hskip⟩ := readWritten_brace hkept
      refine .of_text htakes ?_ nofun
      obtain ⟨front, hfront, hcs⟩ := blanks_append_dropWhile cs
      have hbody := (readPairs?_freely fuel _ _ rest h).1.ne_nil
      have hpart := hparted.tail (hcs ▸ List.append_ne_nil_of_right_ne_nil front hbody)
      rw [hcs] at hpart hskip
      exact skipPairs_agrees fuel h hfront hpart hskip
    | word hquote hc h hv =>
      exact readWritten_word_agrees hquote hc h hv hparted hdelimited hkept

theorem skipItems_agrees (fuel : Nat) {kept : Nat} {cs rest more left : List Char}
    {vs : List Value} (h : readItems? fuel cs = some (vs, rest)) (hparted : Parted cs more)
    (hkept : skipItems kept (cs ++ more) = .ok left) : left = rest ++ more := by
  match fuel, kept with
  | 0, _ => cases h
  | fuel + 1, 0 => cases hkept
  | fuel + 1, kept + 1 =>
    have hread := readItems?_iff.mp h
    clear h
    have hreturn := hparted.noReturn
    cases hread with
    | done h => exact skipItems_done hkept (skipSpace?_agrees h hreturn more)
    | @last start behind _ v h hne hv hclose =>
      have hstart := suffix_of_skipFiller? h
      have hbehind := (readValue?_freely fuel start v behind hv).1.suffix.trans hstart
      obtain ⟨c, tail, rfl, -, -⟩ := first_of_readValue? hv
      have hbracket : c ≠ ']' := fun heq => hne tail (heq ▸ rfl)
      have hpart := hparted.of_suffix hstart (List.cons_ne_nil _ _)
      have hends (w : Written) (left : List Char)
          (hwritten : readWritten kept (c :: tail ++ more) = .ok (w, left)) :=
        readWritten_agrees fuel hv hpart (delimited_of_skipFiller? rfl hclose rfl) hwritten
      rcases skipItems_behind h hbracket hreturn hbehind hclose hends hkept with
        ⟨-, hleft⟩ | ⟨heq, -⟩
      · exact hleft
      · cases heq
    | @more start behind next _ v vs h hne hv hcomma hvs =>
      have hstart := suffix_of_skipFiller? h
      have hbehind := (readValue?_freely fuel start v behind hv).1.suffix.trans hstart
      obtain ⟨c, tail, rfl, -, -⟩ := first_of_readValue? hv
      have hbracket : c ≠ ']' := fun heq => hne tail (heq ▸ rfl)
      have hpart := hparted.of_suffix hstart (List.cons_ne_nil _ _)
      have hends (w : Written) (left : List Char)
          (hwritten : readWritten kept (c :: tail ++ more) = .ok (w, left)) :=
        readWritten_agrees fuel hv hpart (delimited_of_skipFiller? rfl hcomma rfl) hwritten
      rcases skipItems_behind h hbracket hreturn hbehind hcomma hends hkept with
        ⟨heq, -⟩ | ⟨-, hkept⟩
      · cases heq
      · have hnext : next <:+ cs :=
          (List.suffix_cons ',' next).trans ((suffix_of_skipFiller? hcomma).trans hbehind)
        have hne := (readItems?_freely fuel next vs rest hvs).1.ne_nil
        exact skipItems_agrees fuel hvs (hparted.of_suffix hnext hne) hkept

theorem skipPairs_agrees (fuel : Nat) {kept : Nat} {front cs rest more left : List Char}
    {pairs : List (List String × Value)} {entries : List Entry}
    (h : readPairs? fuel cs = some (pairs, rest)) (hfront : Blanks front)
    (hparted : Parted (front ++ cs) more)
    (hkept : skipPairs kept entries (front ++ cs ++ more) = .ok left) : left = rest ++ more := by
  match fuel, kept with
  | 0, _ => cases h
  | fuel + 1, 0 => cases hkept
  | fuel + 1, kept + 1 =>
    have hread := readPairs?_iff.mp h
    clear h
    have hreturn := hparted.noReturn
    cases hread with
    | @last path after behind _ v h hv hclose =>
      have hafter := (List.dropWhile_suffix isLineBlank).trans
        ((List.suffix_cons '=' after).trans (takes_of_readPath? h).suffix)
      have hvalue := (readValue?_freely fuel _ v behind hv).1
      have hbehind := (hvalue.suffix.trans hafter).trans (List.suffix_append front cs)
      have hfiller := skipFiller?_of_dropWhile hclose (by decide) (by decide)
      have hpart := hparted.of_suffix (hafter.trans (List.suffix_append front cs)) hvalue.ne_nil
      have hends (w : Written) (left : List Char)
          (hwritten : readWritten kept (after.dropWhile isLineBlank ++ more) = .ok (w, left)) :=
        readWritten_agrees fuel hv hpart (delimited_of_skipFiller? rfl hfiller rfl) hwritten
      rcases skipPairs_behind h hv hfiller hfront (fun hmem => hreturn (hbehind.subset hmem))
        hends hkept with ⟨-, hleft⟩ | ⟨heq, -⟩
      · exact hleft
      · cases heq
    | @more path after behind next _ v pairs h hv hcomma hpairs =>
      have hafter := (List.dropWhile_suffix isLineBlank).trans
        ((List.suffix_cons '=' after).trans (takes_of_readPath? h).suffix)
      have hvalue := (readValue?_freely fuel _ v behind hv).1
      have hbehind := (hvalue.suffix.trans hafter).trans (List.suffix_append front cs)
      have hfiller := skipFiller?_of_dropWhile hcomma (by decide) (by decide)
      have hpart := hparted.of_suffix (hafter.trans (List.suffix_append front cs)) hvalue.ne_nil
      have hends (w : Written) (left : List Char)
          (hwritten : readWritten kept (after.dropWhile isLineBlank ++ more) = .ok (w, left)) :=
        readWritten_agrees fuel hv hpart (delimited_of_skipFiller? rfl hfiller rfl) hwritten
      rcases skipPairs_behind h hv hfiller hfront (fun hmem => hreturn (hbehind.subset hmem))
        hends hkept with ⟨heq, -⟩ | ⟨-, entries, hkept⟩
      · cases heq
      · have hnext : next <:+ front ++ cs :=
          (List.suffix_cons ',' next).trans ((suffix_of_skipFiller? hfiller).trans hbehind)
        obtain ⟨blanks, hblanks, hall⟩ := blanks_append_dropWhile next
        have hrest := (readPairs?_freely fuel _ pairs rest hpairs).1.ne_nil
        have hpartNext := hparted.of_suffix hnext
          (hall ▸ List.append_ne_nil_of_right_ne_nil blanks hrest)
        rw [hall] at hpartNext hkept
        exact skipPairs_agrees fuel hpairs hblanks hpartNext hkept

end

end FormatSettings.Toml.Verbatim
