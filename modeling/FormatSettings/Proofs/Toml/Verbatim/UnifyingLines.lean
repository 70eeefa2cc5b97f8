import FormatSettings.Proofs.Toml.Verbatim.Lines
import FormatSettings.Proofs.Toml.Verbatim.UnifyingValues

namespace FormatSettings.Toml.Verbatim

structure Margin.Becomes (m n : Margin) : Prop where
  indent : n.indent = m.indent
  gap : n.gap = m.gap
  comment : n.comment = m.comment
  ending : Unifies m.ending n.ending
  plain : '\r' ∉ m.gap ++ m.comment

namespace Margin.Becomes

variable {m n : Margin}

theorem close (h : m.Becomes n) : Unifies m.close n.close := by
  rw [Margin.close, Margin.close, h.gap, h.comment]
  exact (Unifies.of_noReturn h.plain).append h.ending

theorem breaksAfter (h : m.Becomes n) : n.breaksAfter = m.breaksAfter := by
  rw [Margin.breaksAfter, Margin.breaksAfter, Bool.eq_iff_iff, List.contains_iff_mem,
    List.contains_iff_mem]
  exact h.ending.mem_break_iff.symm

theorem keptHeader (h : m.Becomes n) (hkept : KeptHeader n) : KeptHeader m := by
  have hclose := h.close
  have hsame : unifyBreaks m.close = unifyBreaks n.close := by
    rw [hclose.unifyBreaks, unifyBreaks_of_no_return hclose.noReturn]
  refine ⟨h.indent ▸ hkept.lead, hsame ▸ hkept.closes, fun hopen => ?_⟩
  rw [hsame]
  exact hkept.broken (h.breaksAfter.trans hopen)

end Margin.Becomes

/-- The entry of a line and that of the same line with a line feed alone. -/
inductive Entry.Becomes : Entry → Entry → Prop
  | blank {text other : List Char} (h : Unifies text other) : (Entry.blank text).Becomes (.blank other)
  | note {m n : Margin} (h : m.Becomes n) (hindent : '\r' ∉ m.indent) : (Entry.note m).Becomes (.note n)
  | value {key : Key} {m n : Margin} {form : Form} {text other : List Char} (h : m.Becomes n)
      (htext : Unifies text other) : (Entry.value key m form text).Becomes (.value key n form other)
  | dotted {key : Key} {head : Head} {e d : Entry} (h : e.Becomes d) :
      (Entry.table key head [e]).Becomes (.table key head [d])

theorem exists_ofPath {m n : Margin} {form : Form} {text other : List Char} (hmargin : m.Becomes n)
    (htext : Unifies text other) {keys : List Key} {e : Entry}
    (he : Entry.ofPath keys (fun key => .value key m form text) = some e) :
    ∃ d, Entry.ofPath keys (fun key => .value key n form other) = some d ∧ e.Becomes d := by
  induction keys generalizing e with
  | nil => cases he
  | cons key keys ih =>
    cases keys with
    | nil =>
      cases he
      exact ⟨_, rfl, .value hmargin htext⟩
    | cons next keys =>
      obtain ⟨inner, hinner, rfl⟩ := Option.map_eq_some_iff.mp he
      obtain ⟨d, hd, hbecomes⟩ := ih hinner
      exact ⟨_, Option.map_eq_some_iff.mpr ⟨d, hd, rfl⟩, .dotted hbecomes⟩

theorem exists_ofPath_of_becomes {n : Margin} {form : Form} {other : List Char} {keys : List Key}
    {e d : Entry} (h : e.Becomes d)
    (hd : Entry.ofPath keys (fun key => .value key n form other) = some d) :
    ∃ m text, m.Becomes n ∧ Unifies text other ∧
      Entry.ofPath keys (fun key => .value key m form text) = some e := by
  induction keys generalizing e d with
  | nil => cases hd
  | cons key keys ih =>
    cases keys with
    | nil =>
      cases hd
      cases h with
      | value hmargin htext => exact ⟨_, _, hmargin, htext, rfl⟩
    | cons next keys =>
      obtain ⟨inner, hinner, rfl⟩ := Option.map_eq_some_iff.mp hd
      cases h with
      | dotted h =>
        obtain ⟨m, text, hmargin, htext, he⟩ := ih h hinner
        exact ⟨m, text, hmargin, htext, Option.map_eq_some_iff.mpr ⟨_, he, rfl⟩⟩

theorem unifyBreaks_value {m n : Margin} {text other : List Char} (hmargin : m.Becomes n)
    (htext : Unifies text other) :
    unifyBreaks (text ++ m.close) = unifyBreaks (other ++ n.close) := by
  have hall := htext.append hmargin.close
  rw [hall.unifyBreaks, unifyBreaks_of_no_return hall.noReturn]

namespace Entry.Becomes

variable {e d : Entry}

theorem pairs (h : e.Becomes d) : e.pairs = d.pairs := by
  induction h with
  | blank => rfl
  | note => rfl
  | value hmargin htext => rw [Entry.pairs, Entry.pairs, unifyBreaks_value hmargin htext]
  | dotted _ ih => simp only [Entry.pairs, pairsOf, ih]

theorem isLine (h : e.Becomes d) (hline : IsLine d) : IsLine e := by
  cases hline with
  | blank hspaces =>
    cases h with
    | blank h =>
      rw [unifyBreaks_of_no_return h.noReturn, ← h.unifyBreaks] at hspaces
      exact .blank hspaces
  | @note n hsaid =>
    cases h with
    | @note m _ h hindent =>
      have hall : Unifies (m.indent ++ m.comment ++ m.ending) (n.indent ++ n.comment ++ n.ending) := by
        rw [h.indent, h.comment]
        refine (Unifies.of_noReturn ?_).append h.ending
        have hplain := h.plain
        rw [List.mem_append, not_or] at hplain ⊢
        exact ⟨hindent, hplain.2⟩
      rw [unifyBreaks_of_no_return hall.noReturn, ← hall.unifyBreaks] at hsaid
      exact .note hsaid
  | pair hkeys hindent hfront hblanks hvalue hbroken hflag hd =>
    obtain ⟨m, text, hmargin, htext, he⟩ := exists_ofPath_of_becomes h hd
    rw [← unifyBreaks_value hmargin htext] at hvalue hbroken
    refine .pair hkeys (hmargin.indent ▸ hindent) hfront hblanks hvalue
      (fun hopen => hbroken (hmargin.breaksAfter.trans hopen)) (fun hform => ?_) he
    obtain ⟨b, hb, hv⟩ := hflag hform
    refine ⟨b, ?_, hv⟩
    rw [hb] at htext
    exact htext.eq_of_no_break (by cases b <;> decide)

end Entry.Becomes

inductive Line.Becomes : Line → Line → Prop
  | entry {e d : Entry} (h : e.Becomes d) : (Line.entry e).Becomes (.entry d)
  | header {isItem : Bool} {keys : List Key} {m n : Margin} (h : m.Becomes n) :
      (Line.header isItem keys (some m)).Becomes (.header isItem keys (some n))

theorem Line.Becomes.isWhole {line other : Line} (h : line.Becomes other) : other.IsWhole := by
  cases h with
  | entry => trivial
  | header => rfl

theorem Line.Becomes.lineSays {line other : Line} (h : line.Becomes other) {s : Statement}
    (hsaid : LineSays other s) : LineSays line s := by
  cases h with
  | entry h =>
    cases hsaid with
    | nothing hline hpairs => exact .nothing (h.isLine hline) (h.pairs.trans hpairs)
    | pair hline hpairs => exact .pair (h.isLine hline) (h.pairs.trans hpairs)
  | header h =>
    cases hsaid with
    | header hkeys hmargin => exact .header hkeys (h.keptHeader hmargin)

/-- A break takes the blanks before it up; nothing else can start with a carriage return. -/
theorem gap_unified {cs us : List Char} (hus : Unifies cs us) :
    (∃ rest left, cs.dropWhile isGap = '\n' :: rest ∧ us.dropWhile isGap = '\n' :: left ∧
      Unifies (cs.takeWhile isGap ++ ['\n']) (us.takeWhile isGap ++ ['\n']) ∧ Unifies rest left) ∨
      (cs.takeWhile isGap = us.takeWhile isGap ∧ '\r' ∉ cs.takeWhile isGap ∧
        Unifies (cs.dropWhile isGap) (us.dropWhile isGap) ∧ ∀ rest, cs.dropWhile isGap ≠ '\n' :: rest) := by
  induction hus with
  | nil => exact .inr ⟨rfl, List.not_mem_nil, .nil, nofun⟩
  | pair hus => exact .inl ⟨_, _, rfl, rfl, .pair .nil, hus⟩
  | @char c cs us hc hus ih =>
    by_cases hgap : isGap c = true
    · simp only [List.takeWhile_cons, List.dropWhile_cons, hgap, ↓reduceIte]
      rcases ih with ⟨rest, left, hrest, hleft, htaken, hbehind⟩ | ⟨htaken, hplain, hbehind, hne⟩
      · exact .inl ⟨rest, left, hrest, hleft, .char hc htaken, hbehind⟩
      · refine .inr ⟨by rw [htaken], List.not_mem_cons_of_ne_of_not_mem hc.symm hplain, hbehind, hne⟩
    · simp only [List.takeWhile_cons, List.dropWhile_cons, hgap, Bool.false_eq_true, ↓reduceIte]
      by_cases hbreak : c = '\n'
      · subst hbreak
        exact .inl ⟨cs, us, rfl, rfl, .char hc .nil, hus⟩
      · exact .inr ⟨trivial, List.not_mem_nil, .char hc hus, fun rest heq => hbreak (List.cons.inj heq).1⟩

theorem readClose?_note (indent : List Char) {cs body : List Char} (h : cs.dropWhile isGap = '#' :: body) :
    readClose? indent cs =
      if ('#' :: body.takeWhile (!isCommentEnd ·)).any isControl then none
      else match body.dropWhile (!isCommentEnd ·) with
        | '\r' :: '\n' :: rest =>
          some (⟨indent, cs.takeWhile isGap, '#' :: body.takeWhile (!isCommentEnd ·), ['\r', '\n']⟩, rest)
        | c :: rest =>
          some (⟨indent, cs.takeWhile isGap, '#' :: body.takeWhile (!isCommentEnd ·), [c]⟩, rest)
        | [] => some (⟨indent, cs.takeWhile isGap, '#' :: body.takeWhile (!isCommentEnd ·), []⟩, []) := by
  have hgap : cs.dropWhile (fun c => isLineBlank c || c == '\r') = '#' :: body := h
  unfold readClose?
  dsimp only
  rewrite [hgap]
  rfl

/-- A comment, the blanks before it and the break behind it. -/
theorem readClose?_noteUnified {indent cs us tail rest : List Char} {m : Margin}
    (hcs : cs.dropWhile isGap = '#' :: tail) (hplain : '\r' ∉ cs.takeWhile isGap)
    (htaken : cs.takeWhile isGap = us.takeWhile isGap)
    (hbehind : Unifies ('#' :: tail) (us.dropWhile isGap)) (h : readClose? indent cs = some (m, rest)) :
    ∃ n left, readClose? indent us = some (n, left) ∧ m.Becomes n ∧ m.indent = indent ∧
      Unifies rest left := by
  obtain ⟨back, hback, htail⟩ := hbehind.of_cons (by decide)
  have hbody := Cuts.takeWhile (p := (!isCommentEnd ·)) rfl rfl htail
  have hend := (Cuts.dropWhile (p := (!isCommentEnd ·)) rfl htail).1.rest
  have hcommentPlain : '\r' ∉ cs.takeWhile isGap ++ '#' :: tail.takeWhile (!isCommentEnd ·) := by
    rw [List.mem_append, List.mem_cons]
    rintro (hmem | heq | hmem)
    · exact hplain hmem
    · cases heq
    · cases List.mem_takeWhile_imp hmem
  rw [readClose?_note indent hcs] at h
  rw [readClose?_note indent hback, ← htaken, ← hbody]
  split at h
  · cases h
  · next hshown =>
    rw [if_neg hshown]
    generalize tail.dropWhile (!isCommentEnd ·) = ends at h hend
    generalize back.dropWhile (!isCommentEnd ·) = stops at hend
    cases hend with
    | nil =>
      cases h
      exact ⟨_, _, rfl, ⟨rfl, rfl, rfl, .nil, hcommentPlain⟩, rfl, .nil⟩
    | pair hend =>
      cases h
      exact ⟨_, _, rfl, ⟨rfl, rfl, rfl, .pair .nil, hcommentPlain⟩, rfl, hend⟩
    | @char d _ _ hd hend =>
      split at h
      · next heq => exact absurd (List.cons.inj heq).1 hd
      · next heq =>
        cases heq
        cases h
        refine ⟨_, _, ?_, ⟨rfl, rfl, rfl, .char hd .nil, hcommentPlain⟩, rfl, hend⟩
        split
        · next heq => exact absurd (List.cons.inj heq).1 hd
        · next heq =>
          cases heq
          rfl
        · next heq => cases heq
      · next heq => cases heq

theorem readClose?_unified {indent cs us rest : List Char} {m : Margin} (hus : Unifies cs us)
    (h : readClose? indent cs = some (m, rest)) :
    ∃ n left, readClose? indent us = some (n, left) ∧ m.Becomes n ∧ m.indent = indent ∧
      Unifies rest left := by
  rcases gap_unified hus with ⟨after, left, hcs, hbehind, htaken, hleft⟩ | ⟨htaken, hplain, hbehind, hne⟩
  · simp only [readClose?, isGap_eq, hcs, Option.some.injEq, Prod.mk.injEq] at h
    obtain ⟨rfl, rfl⟩ := h
    refine ⟨⟨indent, [], [], us.takeWhile isGap ++ ['\n']⟩, left, ?_,
      ⟨rfl, rfl, rfl, htaken, List.not_mem_nil⟩, rfl, hleft⟩
    simp only [readClose?, isGap_eq, hbehind]
  · cases hcs : cs.dropWhile isGap with
    | nil =>
      rw [hcs] at hbehind
      simp only [readClose?, isGap_eq, hcs, Option.some.injEq, Prod.mk.injEq] at h
      obtain ⟨rfl, rfl⟩ := h
      refine ⟨⟨indent, [], [], us.takeWhile isGap⟩, [], ?_,
        ⟨rfl, rfl, rfl, htaken ▸ .of_noReturn hplain, List.not_mem_nil⟩, rfl, .nil⟩
      simp only [readClose?, isGap_eq, hbehind.eq_nil]
    | cons c tail =>
      by_cases hcomment : c = '#'
      · subst hcomment
        exact readClose?_noteUnified hcs hplain htaken (hcs ▸ hbehind) h
      · simp only [readClose?, isGap_eq, hcs] at h
        split at h
        · next heq => cases heq
        · next heq => exact absurd (hcs.trans heq) (hne _)
        · next heq => exact absurd (List.cons.inj heq).1 hcomment
        · cases h

theorem readPair_unified {cs us rest : List Char} {e : Entry} (hus : Unifies cs us)
    (h : readPair cs = .ok (e, rest)) :
    ∃ d left, readPair us = .ok (d, left) ∧ e.Becomes d ∧ Unifies rest left := by
  have htaken := Cuts.takeWhile (p := isLineBlank) rfl rfl hus
  have hcore := (Cuts.dropWhile (p := isLineBlank) rfl hus).1
  obtain ⟨⟨keys, equals⟩, hkeys, h⟩ := Except.bind_eq_ok.mp h
  obtain ⟨⟨separator, start⟩, hseparator, h⟩ := Except.bind_eq_ok.mp h
  obtain ⟨⟨w, behind⟩, hwritten, h⟩ := Except.bind_eq_ok.mp h
  obtain ⟨⟨m, next⟩, hclose, h⟩ := Except.bind_eq_ok.mp h
  obtain ⟨entry, hentry, h⟩ := Except.bind_eq_ok.mp h
  cases h
  rw [expect_eq_ok] at hkeys hseparator hclose hentry
  obtain ⟨others, hothers, hkept⟩ := readKeys?_unified hcore.rest hkeys
  obtain ⟨begins, hbegins, hstarts⟩ := readSeparator?_unified hothers.rest hseparator
  obtain ⟨v, final, hbecomes, hvalue, -, hread⟩ := readWritten_unified _ hstarts.rest hwritten
  obtain ⟨n, left, hend, hmargin, -, hleft⟩ := readClose?_unified hvalue.rest hclose
  have hgap : ({ m with gap := if w.gap.isEmpty then m.gap else w.gap } : Margin).Becomes
      { n with gap := if v.gap.isEmpty then n.gap else v.gap } := by
    refine ⟨hmargin.indent, by rw [hbecomes.gap, hmargin.gap], hmargin.comment, hmargin.ending, ?_⟩
    split
    · exact hmargin.plain
    · rw [List.mem_append, not_or]
      exact ⟨hbecomes.plain, fun hmem => hmargin.plain (List.mem_append_right _ hmem)⟩
  obtain ⟨d, hd, hentry⟩ := exists_ofPath hgap hbecomes.text hentry
  refine ⟨d, left, ?_, hentry, hleft⟩
  have hkeysAgain := hkept (us.length + 1) (Nat.lt_succ_of_le hcore.length_le)
  have hwrittenAgain := hread (begins.length + 1) (by omega)
  rw [htaken] at hend
  rw [← hbecomes.form] at hd
  simp only [readPair, hkeysAgain, hbegins, hwrittenAgain, hend, hd, expect, bind, Except.bind, pure,
    Except.pure]

theorem exists_header {cs body : List Char} {s : Statement} (h : readLine? cs = some s)
    (hcs : cs.dropWhile isLineBlank = '[' :: body) (hreturn : '\r' ∉ cs) :
    ∃ isItem inner, body = (opening isItem).tail ++ inner ∧ readHeader? isItem inner = some s ∧
      (isItem = false → ∀ rest, inner ≠ '[' :: rest) := by
  rw [readLine?] at h
  split at h
  · next hend =>
    rcases dropWhile_of_isLineEnd rfl hend hreturn with hdrop | hdrop | ⟨_, hdrop, -⟩
    all_goals
      rw [hcs] at hdrop
      cases hdrop
  · split at h
    · next inner heq =>
      obtain rfl := (List.cons.inj (hcs.symm.trans heq)).2
      exact ⟨true, inner, rfl, h, fun hitem => absurd hitem (by decide)⟩
    · next inner hbracket heq =>
      obtain rfl := (List.cons.inj (hcs.symm.trans heq)).2
      exact ⟨false, body, rfl, h, fun _ => hbracket⟩
    · next _ hbracket => exact absurd hcs (hbracket body)

theorem readKeys?_closing {isItem : Bool} {body more left : List Char} {s : Statement} {fuel : Nat}
    {keys : List Key} (h : readHeader? isItem body = some s)
    (hkeys : readKeys? fuel (body ++ more) = some (keys, left)) :
    ∃ after, left = closing isItem ++ after := by
  obtain ⟨path, rest, -, hpath, -⟩ := readHeader?_eq_some h
  obtain ⟨close, hclosing⟩ : ∃ close, closing isItem ++ rest = ']' :: close := by
    cases isItem <;> exact ⟨_, rfl⟩
  rw [hclosing] at hpath
  rw [← List.takeWhile_append_dropWhile (p := isLineBlank) (l := body)] at hkeys
  obtain ⟨-, -, -, rfl⟩ := readKeys?_path (blanks_takeWhile body) hpath (.inr rfl) hkeys
  exact ⟨rest ++ more, by rw [← hclosing, List.append_assoc]⟩

theorem readHeader_unified {isItem : Bool} {indent cs us rest : List Char} {line : Line}
    (hus : Unifies cs us) (hfirst : isItem = false → ∀ rest, us ≠ '[' :: rest)
    (hclosing : ∀ keys left, readKeys? (us.length + 1) us = some (keys, left) →
      ∃ after, left = closing isItem ++ after)
    (h : readHeader indent ((opening isItem).tail ++ cs) = (line, rest)) (hwhole : line.IsWhole) :
    ∃ other left, readHeader indent ((opening isItem).tail ++ us) = (other, left) ∧
      line.Becomes other ∧ Unifies rest left := by
  have hplain : isItem = false → ∀ rest, cs ≠ '[' :: rest := by
    rintro hitem rest rfl
    obtain ⟨left, rfl, -⟩ := hus.of_cons (by decide)
    exact hfirst hitem left rfl
  rw [readHeader_eq hplain] at h
  rw [readHeader_eq hfirst]
  split at h
  · cases h
    exact hwhole.elim
  · next keys behind hkeys =>
    obtain ⟨others, hcuts, hkept⟩ := readKeys?_unified hus hkeys
    have hagain := hkept _ (Nat.lt_succ_self _)
    obtain ⟨after, rfl⟩ := hclosing _ _ hagain
    obtain ⟨close, rfl, hclose⟩ : ∃ close, behind = closing isItem ++ close ∧ Unifies close after := by
      cases isItem with
      | false => exact hcuts.rest.of_opened (by decide)
      | true =>
        obtain ⟨next, rfl, hnext⟩ := hcuts.rest.of_opened (by decide)
        obtain ⟨close, rfl, hclose⟩ := hnext.of_opened (by decide)
        exact ⟨close, rfl, hclose⟩
    rw [readHeaderClose?_closing] at h
    rw [hagain]
    dsimp only
    rw [readHeaderClose?_closing]
    split at h
    · next m left hread =>
      cases h
      obtain ⟨n, left, hend, hmargin, -, hleft⟩ := readClose?_unified hclose hread
      rw [hend]
      exact ⟨_, _, rfl, .header hmargin, hleft⟩
    · cases h
      cases hwhole

theorem readHeaders_unified {indent tail front behind rest : List Char} {line : Line} {s : Statement}
    (hus : Unifies tail (front ++ behind)) (hindent : Blanks indent)
    (hs : readLine? (indent ++ '[' :: front) = some s) (hreturn : '\r' ∉ front)
    (h : readHeader indent tail = (line, rest)) (hwhole : line.IsWhole) :
    ∃ other left, readHeader indent (front ++ behind) = (other, left) ∧ line.Becomes other ∧
      Unifies rest left := by
  have hdrop : (indent ++ '[' :: front).dropWhile isLineBlank = '[' :: front := by
    rw [hindent.dropWhile]
    rfl
  have hplain : '\r' ∉ indent ++ '[' :: front := by
    simp [hindent.not_mem (c := '\r') rfl, hreturn]
  obtain ⟨isItem, inner, rfl, hheader, hbracket⟩ := exists_header hs hdrop hplain
  obtain ⟨start, rfl, hstart⟩ : ∃ start, tail = (opening isItem).tail ++ start ∧
      Unifies start (inner ++ behind) := by
    cases isItem with
    | false => exact ⟨tail, rfl, hus⟩
    | true => exact hus.of_opened (by decide)
  rw [List.append_assoc]
  refine readHeader_unified hstart (fun hitem rest heq => ?_)
    (fun keys left => readKeys?_closing hheader) h hwhole
  cases inner with
  | nil =>
    obtain ⟨_, _, _, hpath, -⟩ := readHeader?_eq_some hheader
    obtain ⟨_, _, hcons, -⟩ := first_of_readPath? hpath
    cases hcons
  | cons c inner => exact hbracket hitem inner (by rw [(List.cons.inj heq).1])

theorem readLine_unified {cs front behind rest : List Char} {line : Line} {s : Statement}
    (hus : Unifies cs (front ++ behind)) (hparted : Parted front behind) (hs : readLine? front = some s)
    (h : readLine cs = (line, rest)) (hwhole : line.IsWhole) :
    ∃ other left, readLine (front ++ behind) = (other, left) ∧ line.Becomes other ∧ Unifies rest left := by
  rcases gap_unified hus with ⟨after, left, hcs, hbehind, htaken, hleft⟩ | ⟨htaken, hplain, hbehind, hne⟩
  · rw [readLine_break hcs] at h
    cases h
    exact ⟨_, _, readLine_break hbehind, .entry (.blank htaken), hleft⟩
  · cases hcs : cs.dropWhile isGap with
    | nil =>
      rw [hcs] at hbehind
      rw [readLine_end hcs] at h
      cases h
      refine ⟨_, _, readLine_end hbehind.eq_nil, .entry (.blank ?_), .nil⟩
      rw [← htaken]
      exact .of_noReturn hplain
    | cons c tail =>
      have hgap := List.head?_dropWhile_not isGap cs
      rw [hcs] at hbehind hgap
      have hc : c ≠ '\r' := by
        rintro rfl
        cases hgap
      have hbreak : c ≠ '\n' := fun heq => hne tail (heq ▸ hcs)
      obtain ⟨back, hback, htail⟩ := hbehind.of_cons hc
      obtain ⟨hlead, hdrop, hpart⟩ := hparted.lead
      by_cases hbracket : c = '['
      · subst hbracket
        rw [readLine_bracket hcs, htaken, hlead] at h
        rw [readLine_bracket hback, hlead]
        rw [hback] at hdrop
        cases hfront : front.dropWhile isLineBlank with
        | nil =>
          rw [hfront] at hdrop hpart
          rw [hpart.breaks.resolve_right nofun] at hdrop
          cases hdrop
        | cons d body =>
          rw [hfront] at hdrop
          cases hdrop
          have hall := List.takeWhile_append_dropWhile (p := isLineBlank) (l := front)
          rw [hfront] at hall
          rw [← hall] at hs
          have hreturn : '\r' ∉ body := fun hmem => hparted.noReturn (by rw [← hall]; simp [hmem])
          exact readHeaders_unified htail (blanks_takeWhile front) hs hreturn h hwhole
      by_cases hcomment : c = '#'
      · subst hcomment
        rw [readLine_comment hcs, htaken] at h
        rw [readLine_comment hback]
        split at h
        · next m after hclose =>
          cases h
          obtain ⟨n, left, hend, hmargin, hindent, hleft⟩ := readClose?_unified (.char hc htail) hclose
          rw [hend]
          refine ⟨_, _, rfl, .entry (.note hmargin ?_), hleft⟩
          rw [hindent, ← htaken]
          exact hplain
        · cases h
          exact hwhole.elim
      · rw [readLine_pair hcs hbreak hbracket hcomment] at h
        rw [readLine_pair hback hbreak hbracket hcomment]
        split at h
        · next e after hpair =>
          cases h
          obtain ⟨d, left, hagain, hentry, hleft⟩ := readPair_unified hus hpair
          rw [hagain]
          exact ⟨_, _, rfl, .entry hentry, hleft⟩
        · cases h
          exact hwhole.elim

end FormatSettings.Toml.Verbatim
