import FormatSettings.Proofs.Toml.KeyText

namespace FormatSettings.Toml

theorem takesWithin_of_closing? {quote : Char} (hquote : quote ≠ '\n') {cs quotes rest : List Char}
    (h : closing? quote cs = some (quotes, rest)) : TakesWithin cs rest := by
  have hprefix := List.takeWhile_prefix (· == quote) (l := cs)
  have hquotes : ∀ c ∈ cs.takeWhile (· == quote), c = quote :=
    fun c hc => beq_iff_eq.mp (List.mem_takeWhile_imp (p := (· == quote)) hc)
  unfold closing? at h
  dsimp only at h
  split at h
  · cases h
  · next hcount =>
    cases h
    obtain ⟨after, hall⟩ := hprefix
    generalize cs.takeWhile (· == quote) = front at hall hquotes hcount
    subst hall
    -- At most two quotes inside the string count among those that close it.
    generalize hinside : min (front.length - 3) 2 + 3 = taken
    have hle : taken ≤ front.length := by omega
    have htake : (front ++ after).take taken = front.take taken := List.take_append_of_le_length hle
    have hne : front.take taken ≠ [] := by
      rw [← List.length_pos_iff, List.length_take]
      omega
    have hwithin := TakesWithin.of_append hne
      (fun hmem => hquote (hquotes _ (List.mem_of_mem_take hmem)).symm) ((front ++ after).drop taken)
    rwa [← htake, List.take_append_drop] at hwithin

theorem skipBlankLines_suffix (cs : List Char) : skipBlankLines cs <:+ cs := by
  fun_induction skipBlankLines cs with
  | case1 rest ih => exact ih.trans ((List.suffix_cons _ _).trans (List.suffix_cons _ _))
  | case2 c rest _ _ ih => exact ih.trans (List.suffix_cons _ _)
  | case3 => exact List.suffix_rfl
  | case4 => exact List.suffix_rfl

theorem suffix_of_skipLineEnd? {cs rest : List Char} (h : skipLineEnd? cs = some rest) :
    rest <:+ cs := by
  have hdrop := List.dropWhile_suffix isLineBlank (l := cs)
  unfold skipLineEnd? at h
  split at h
  · next after heq =>
    cases h
    rw [heq] at hdrop
    exact (skipBlankLines_suffix after).trans ((List.suffix_cons _ _).trans hdrop)
  · next after heq =>
    cases h
    rw [heq] at hdrop
    exact (skipBlankLines_suffix after).trans
      ((List.suffix_cons _ _).trans ((List.suffix_cons _ _).trans hdrop))
  · cases h

theorem takesWithin_of_readBasicLines? {fuel : Nat} {cs text rest : List Char}
    (h : readBasicLines? fuel cs = some (text, rest)) : TakesWithin cs rest := by
  induction fuel generalizing cs text with
  | zero => cases h
  | succ fuel ih =>
    cases cs with
    | nil => cases h
    | cons c cs =>
      have hcons := List.suffix_cons c cs
      rw [readBasicLines?] at h
      split at h
      · next hclose =>
        cases h
        exact takesWithin_of_closing? (by decide) hclose
      · split at h
        · split at h
          · next hfold => exact (ih h).of_suffix ((suffix_of_skipLineEnd? hfold).trans hcons)
          · obtain ⟨⟨d, after⟩, hescape, h⟩ := Option.bind_eq_some_iff.mp h
            obtain ⟨⟨tail, last⟩, htail, heq⟩ := Option.map_eq_some_iff.mp h
            cases heq
            obtain ⟨e, rfl, -⟩ := isEscape_of_readEscape? hescape
            exact (ih htail).of_suffix ((List.suffix_append e after).trans hcons)
        · split at h
          · obtain ⟨⟨tail, last⟩, htail, heq⟩ := Option.map_eq_some_iff.mp h
            cases heq
            exact (ih htail).of_suffix hcons
          · cases h

theorem takesWithin_of_readLiteralLines? {cs text rest : List Char}
    (h : readLiteralLines? cs = some (text, rest)) : TakesWithin cs rest := by
  induction cs generalizing text with
  | nil => cases h
  | cons c cs ih =>
    rw [readLiteralLines?] at h
    split at h
    · next hclose =>
      cases h
      exact takesWithin_of_closing? (by decide) hclose
    · split at h
      · obtain ⟨⟨tail, last⟩, htail, heq⟩ := Option.map_eq_some_iff.mp h
        cases heq
        exact (ih htail).of_suffix (List.suffix_cons c cs)
      · cases h

theorem skipFirstBreak_suffix (cs : List Char) : skipFirstBreak cs <:+ cs := by
  unfold skipFirstBreak
  split
  · exact List.suffix_cons _ _
  · exact (List.suffix_cons _ _).trans (List.suffix_cons _ _)
  · exact List.suffix_rfl

theorem takesWithin_of_readString? {cs text rest : List Char}
    (h : readString? cs = some (text, rest)) : TakesWithin cs rest := by
  have hskip (quotes cs : List Char) : skipFirstBreak cs <:+ quotes ++ cs :=
    (skipFirstBreak_suffix cs).trans (List.suffix_append quotes cs)
  unfold readString? at h
  split at h
  · next inner => exact (takesWithin_of_readBasicLines? h).of_suffix (hskip ['"', '"', '"'] inner)
  · next inner =>
    exact (takesWithin_of_readLiteralLines? h).of_suffix (hskip ['\x27', '\x27', '\x27'] inner)
  · obtain ⟨body, rfl, hbody⟩ := stringBody_of_readBasic? h
    have hnone : '\n' ∉ body := hbody.not_mem (by decide) (by decide)
    exact .of_append (List.cons_ne_nil '"' body) (by simp [hnone]) rest
  · obtain ⟨body, rfl, hbody⟩ := stringBody_of_readLiteral? h
    have hnone : '\n' ∉ body := hbody.not_mem (by decide) (by decide)
    exact .of_append (List.cons_ne_nil '\x27' body) (by simp [hnone]) rest
  · cases h

theorem takeWord_append {cs word rest : List Char} (h : takeWord cs = (word, rest)) :
    word ++ rest = cs := by
  have hall := List.takeWhile_append_dropWhile (p := (!endsWord ·)) (l := cs)
  unfold takeWord at h
  dsimp only at h
  generalize cs.dropWhile (!endsWord ·) = behind at h hall
  split at h
  · next hclock =>
    obtain ⟨rfl, rfl⟩ := Prod.mk.inj h
    have hspace : behind = ' ' :: behind.drop 1 := by
      rw [Bool.and_eq_true] at hclock
      unfold hasClockNext at hclock
      split at hclock
      · rfl
      · cases hclock.1
    rw [List.append_assoc, List.cons_append, List.takeWhile_append_dropWhile, ← hspace, hall]
  · obtain ⟨rfl, rfl⟩ := Prod.mk.inj h
    exact hall

theorem ungroup_eq_none {p : Char → Bool} {c : Char} (h : p c = false) (cs : List Char) :
    Text.ungroup p (c :: cs) = none := by
  unfold Text.ungroup
  rw [if_neg (by simp [h])]

theorem readDigits?_eq_none {count : Nat} {c : Char} (h : c.isDigit = false) (cs : List Char) :
    readDigits? (count + 1) (c :: cs) = none := by
  simp [readDigits?, h]

theorem readWord?_letter {c : Char} {cs : List Char} {v : Value} (hdigit : c.isDigit = false)
    (hsign : c ≠ '-' ∧ c ≠ '+' ∧ c ≠ '_') (h : readWord? (c :: cs) = some v) :
    c :: cs ∈ [['t', 'r', 'u', 'e'], ['f', 'a', 'l', 's', 'e'], ['i', 'n', 'f'], ['n', 'a', 'n']] := by
  obtain ⟨hminus, hplus, hjoint⟩ := hsign
  have hzero : c ≠ '0' := by
    rintro rfl
    cases hdigit
  have hgrouped : isGroupedDigit c = false := by
    rw [isGroupedDigit, hdigit, Bool.false_or]
    exact beq_false_of_ne hjoint
  have hsplit : splitSign (c :: cs) = (false, c :: cs) := by
    unfold splitSign
    split
    · next heq => exact absurd (List.cons.inj heq).1 hminus
    · next heq => exact absurd (List.cons.inj heq).1 hplus
    · rfl
  have hint : readInt? (c :: cs) = none := by
    unfold readInt?
    split
    · next heq => exact absurd (List.cons.inj heq).1 hzero
    · next heq => exact absurd (List.cons.inj heq).1 hzero
    · next heq => exact absurd (List.cons.inj heq).1 hzero
    · rw [readDecimalInt?, hsplit]
      dsimp only
      rw [readWhole?, readGrouped?, ungroup_eq_none hdigit]
      rfl
  have hclean : cleanFloat? (c :: cs) = none := by
    rw [cleanFloat?, List.takeWhile_cons, if_neg (by simp [hgrouped])]
    rfl
  have hmoment : readMoment? (c :: cs) = none := by
    rw [readMoment?, readDate?, readDigits?_eq_none hdigit, readClock?, readDigits?_eq_none hdigit]
    rfl
  -- No number, date or time starts with a letter, except for those that are not finite.
  by_contra hmem
  simp only [List.mem_cons, List.not_mem_nil, or_false, not_or] at hmem
  obtain ⟨htrue, hfalse, hinf, hnan⟩ := hmem
  rw [readWord?, if_neg (by simpa using htrue), if_neg (by simpa using hfalse), hint] at h
  dsimp only at h
  rw [readFloat?, hsplit] at h
  dsimp only at h
  rw [if_neg (by simpa using hinf), if_neg (by simpa using hnan), hclean, hmoment] at h
  cases h

theorem endsWord_of_isLineBlank {c : Char} (h : isLineBlank c = true) : endsWord c = true := by
  rcases isLineBlank_iff.mp h with rfl | rfl
  · rfl
  · rfl

theorem isLineBlank_of_endsWord {c : Char} (h : endsWord c = false) : isLineBlank c = false := by
  rw [Bool.eq_false_iff]
  intro hblank
  rw [endsWord_of_isLineBlank hblank] at h
  cases h

theorem suffix_of_skipFiller? {inComment : Bool} {cs rest : List Char}
    (h : skipFiller? inComment cs = some rest) : rest <:+ cs := by
  fun_induction skipFiller? inComment cs with
  | case1 => exact Option.some.inj h ▸ List.suffix_rfl
  | case2 _ tail ih => exact (ih h).trans (List.suffix_cons _ _)
  | case3 _ tail ih => exact (ih h).trans ((List.suffix_cons _ _).trans (List.suffix_cons _ _))
  | case4 => cases h
  | case5 c tail _ _ _ ih => exact (ih h).trans (List.suffix_cons _ _)
  | case6 c tail _ _ _ ih => exact (ih h).trans (List.suffix_cons _ _)
  | case7 c tail _ _ _ _ ih => exact (ih h).trans (List.suffix_cons _ _)
  | case8 => exact Option.some.inj h ▸ List.suffix_rfl

inductive ReadsValue (fuel : Nat) (c : Char) (cs : List Char) : Value → List Char → Prop
  | string {text rest : List Char} (hquote : isQuote c = true)
      (h : readString? (c :: cs) = some (text, rest)) :
      ReadsValue fuel c cs (.text (String.ofList text)) rest
  | list {vs : List Value} {rest : List Char} (hc : c = '[')
      (h : readItems? fuel cs = some (vs, rest)) : ReadsValue fuel c cs (.list vs) rest
  | empty {rest : List Char} (hc : c = '\x7b') (h : cs.dropWhile isLineBlank = '\x7d' :: rest) :
      ReadsValue fuel c cs (.table []) rest
  | table {pairs : List (List String × Value)} {v : Value} {rest : List Char} (hc : c = '\x7b')
      (hne : ∀ after, cs.dropWhile isLineBlank ≠ '\x7d' :: after)
      (h : readPairs? fuel (cs.dropWhile isLineBlank) = some (pairs, rest))
      (hv : inlineTable? pairs = some v) : ReadsValue fuel c cs v rest
  | word {word rest : List Char} {v : Value} (hquote : isQuote c = false)
      (hc : c ≠ '[' ∧ c ≠ '\x7b') (h : takeWord (c :: cs) = (word, rest))
      (hv : readWord? word = some v) : ReadsValue fuel c cs v rest

theorem readValue?_iff {fuel : Nat} {c : Char} {cs rest : List Char} {v : Value} :
    readValue? (fuel + 1) (c :: cs) = some (v, rest) ↔ ReadsValue fuel c cs v rest := by
  rw [readValue?]
  constructor
  · intro h
    split at h
    · next hquote =>
      obtain ⟨⟨text, left⟩, hread, heq⟩ := Option.map_eq_some_iff.mp h
      cases heq
      exact .string hquote hread
    · next hquote =>
      split at h
      · next hlist =>
        obtain ⟨⟨vs, left⟩, hread, heq⟩ := Option.map_eq_some_iff.mp h
        cases heq
        exact .list (beq_iff_eq.mp hlist) hread
      · next hlist =>
        split at h
        · next hbrace =>
          split at h
          · next heq =>
            cases h
            exact .empty (beq_iff_eq.mp hbrace) heq
          · next hbody =>
            obtain ⟨⟨pairs, left⟩, hread, h⟩ := Option.bind_eq_some_iff.mp h
            obtain ⟨w, hv, heq⟩ := Option.map_eq_some_iff.mp h
            cases heq
            exact .table (beq_iff_eq.mp hbrace) (fun after heq => hbody after heq) hread hv
        · next hbrace =>
          generalize hword : takeWord (c :: cs) = taken at h
          obtain ⟨word, left⟩ := taken
          obtain ⟨w, hv, heq⟩ := Option.map_eq_some_iff.mp h
          cases heq
          exact .word (by simpa [isQuote] using hquote) ⟨by simpa using hlist, by simpa using hbrace⟩
            hword hv
  · intro h
    cases h with
    | string hquote h =>
      rw [show (c == '"' || c == '\x27') = true from hquote, if_pos rfl, h]
      rfl
    | list hc h =>
      subst hc
      rw [if_neg (by decide), if_pos (by decide), h]
      rfl
    | empty hc h =>
      subst hc
      rw [if_neg (by decide), if_neg (by decide), if_pos (by decide), h]
      rfl
    | table hc hne h hv =>
      subst hc
      rw [if_neg (by decide), if_neg (by decide), if_pos (by decide)]
      split
      · next heq => exact absurd heq (hne _)
      · simp only [h, Option.bind_some, hv, Option.map_some]
    | word hquote hc h hv =>
      rw [show (c == '"' || c == '\x27') = false from hquote, if_neg Bool.false_ne_true,
        if_neg (by simpa using hc.1), if_neg (by simpa using hc.2), h]
      simp only [hv, Option.map_some]

theorem first_of_takeWord {cs word rest : List Char} {v : Value} (h : takeWord cs = (word, rest))
    (hv : readWord? word = some v) :
    ∃ c tail, word = c :: tail ∧ endsWord c = false := by
  unfold takeWord at h
  dsimp only at h
  cases hstart : cs.takeWhile (!endsWord ·) with
  | nil =>
    rw [hstart] at h
    have hnone : (readDate? []).any (fun read => read.2.isEmpty) = false := rfl
    rw [hnone, Bool.and_false, if_neg Bool.false_ne_true] at h
    cases h
    cases hv
  | cons c tail =>
    have hc := List.mem_takeWhile_imp (p := (!endsWord ·)) (hstart ▸ List.mem_cons_self (a := c))
    rw [Bool.not_eq_true'] at hc
    rw [hstart] at h
    split at h
    · cases h
      exact ⟨c, _, rfl, hc⟩
    · cases h
      exact ⟨c, _, rfl, hc⟩

theorem first_of_readValue? {fuel : Nat} {cs rest : List Char} {v : Value}
    (h : readValue? fuel cs = some (v, rest)) :
    ∃ c tail, cs = c :: tail ∧ endsWord c = false ∧ c ≠ '=' := by
  match fuel, cs with
  | 0, _ => cases h
  | fuel + 1, [] => cases h
  | fuel + 1, c :: cs =>
    refine ⟨c, cs, rfl, ?_⟩
    cases readValue?_iff.mp h with
    | string hquote _ =>
      rcases isQuote_iff.mp hquote with rfl | rfl
      · exact ⟨rfl, by decide⟩
      · exact ⟨rfl, by decide⟩
    | list hc _ => exact hc ▸ ⟨rfl, by decide⟩
    | empty hc _ => exact hc ▸ ⟨rfl, by decide⟩
    | table hc _ _ _ => exact hc ▸ ⟨rfl, by decide⟩
    | word _ _ hword hv =>
      obtain ⟨d, tail, rfl, hd⟩ := first_of_takeWord hword hv
      obtain ⟨rfl, -⟩ := List.cons.inj (takeWord_append hword)
      refine ⟨hd, ?_⟩
      rintro rfl
      have hletter := readWord?_letter rfl (by decide) hv
      simp at hletter

theorem dropWhile_of_readValue? {fuel : Nat} {cs rest : List Char} {v : Value}
    (h : readValue? fuel cs = some (v, rest)) : cs.dropWhile isLineBlank = cs := by
  obtain ⟨c, tail, rfl, hends, -⟩ := first_of_readValue? h
  rw [List.dropWhile_cons, isLineBlank_of_endsWord hends]
  rfl

inductive ReadsItems (fuel : Nat) (cs : List Char) : List Value → List Char → Prop
  | done {rest : List Char} (h : skipFiller? false cs = some (']' :: rest)) :
      ReadsItems fuel cs [] rest
  | last {first behind rest : List Char} {v : Value} (h : skipFiller? false cs = some first)
      (hne : ∀ after, first ≠ ']' :: after) (hv : readValue? fuel first = some (v, behind))
      (hclose : skipFiller? false behind = some (']' :: rest)) : ReadsItems fuel cs [v] rest
  | more {first behind next rest : List Char} {v : Value} {vs : List Value}
      (h : skipFiller? false cs = some first) (hne : ∀ after, first ≠ ']' :: after)
      (hv : readValue? fuel first = some (v, behind))
      (hcomma : skipFiller? false behind = some (',' :: next))
      (hvs : readItems? fuel next = some (vs, rest)) : ReadsItems fuel cs (v :: vs) rest

theorem readItems?_iff {fuel : Nat} {cs rest : List Char} {vs : List Value} :
    readItems? (fuel + 1) cs = some (vs, rest) ↔ ReadsItems fuel cs vs rest := by
  rw [readItems?]
  constructor
  · intro h
    obtain ⟨first, hfirst, h⟩ := Option.bind_eq_some_iff.mp h
    split at h
    · cases h
      exact .done hfirst
    · next hne =>
      obtain ⟨⟨v, behind⟩, hv, h⟩ := Option.bind_eq_some_iff.mp h
      obtain ⟨close, hclose, h⟩ := Option.bind_eq_some_iff.mp h
      split at h
      · cases h
        exact .last hfirst (fun after heq => hne after heq) hv hclose
      · obtain ⟨⟨others, left⟩, hvs, heq⟩ := Option.map_eq_some_iff.mp h
        cases heq
        exact .more hfirst (fun after heq => hne after heq) hv hclose hvs
      · cases h
  · intro h
    cases h with
    | done h =>
      rw [h, Option.bind_some]
      rfl
    | last h hne hv hclose =>
      rw [h, Option.bind_some]
      split
      · next heq => exact absurd rfl (hne _)
      · simp only [hv, Option.bind_some, hclose]
    | more h hne hv hcomma hvs =>
      rw [h, Option.bind_some]
      split
      · next heq => exact absurd rfl (hne _)
      · simp only [hv, Option.bind_some, hcomma, hvs, Option.map_some]

inductive ReadsPairs (fuel : Nat) (cs : List Char) : List (List String × Value) → List Char → Prop
  | last {path : List String} {after behind rest : List Char} {v : Value}
      (h : readPath? fuel cs = some (path, '=' :: after))
      (hv : readValue? fuel (after.dropWhile isLineBlank) = some (v, behind))
      (hclose : behind.dropWhile isLineBlank = '\x7d' :: rest) : ReadsPairs fuel cs [(path, v)] rest
  | more {path : List String} {after behind next rest : List Char} {v : Value}
      {pairs : List (List String × Value)} (h : readPath? fuel cs = some (path, '=' :: after))
      (hv : readValue? fuel (after.dropWhile isLineBlank) = some (v, behind))
      (hcomma : behind.dropWhile isLineBlank = ',' :: next)
      (hpairs : readPairs? fuel (next.dropWhile isLineBlank) = some (pairs, rest)) :
      ReadsPairs fuel cs ((path, v) :: pairs) rest

theorem readPairs?_iff {fuel : Nat} {cs rest : List Char} {pairs : List (List String × Value)} :
    readPairs? (fuel + 1) cs = some (pairs, rest) ↔ ReadsPairs fuel cs pairs rest := by
  rw [readPairs?]
  constructor
  · intro h
    obtain ⟨⟨path, equals⟩, hpath, h⟩ := Option.bind_eq_some_iff.mp h
    dsimp only at h
    split at h
    · obtain ⟨⟨v, behind⟩, hv, h⟩ := Option.bind_eq_some_iff.mp h
      dsimp only at h
      split at h
      · next hclose =>
        cases h
        exact .last hpath hv hclose
      · next hcomma =>
        obtain ⟨⟨others, left⟩, hpairs, heq⟩ := Option.map_eq_some_iff.mp h
        cases heq
        exact .more hpath hv hcomma hpairs
      · cases h
    · cases h
  · intro h
    cases h with
    | last h hv hclose => simp only [h, Option.bind_some, hv, hclose]
    | more h hv hcomma hpairs => simp only [h, Option.bind_some, hv, hcomma, hpairs, Option.map_some]

def ReadsFreely {α : Type} (read : Nat → Option (α × List Char)) (fuel : Nat) (cs : List Char) : Prop :=
  ∀ a rest, read fuel = some (a, rest) → Takes cs rest ∧
    ∀ more, cs.length ≤ more + rest.length → read more = some (a, rest)

theorem reads_of_succ {α : Type} {read : Nat → Option (α × List Char)} {cs rest : List Char} {a : α}
    (htakes : Takes cs rest)
    (h : ∀ more, cs.length ≤ more + 1 + rest.length → read (more + 1) = some (a, rest)) :
    Takes cs rest ∧ ∀ more, cs.length ≤ more + rest.length → read more = some (a, rest) := by
  refine ⟨htakes, ?_⟩
  intro more hmore
  have hlength := htakes.length_lt
  obtain ⟨more, rfl⟩ : ∃ n, more = n + 1 := ⟨more - 1, by omega⟩
  exact h more hmore

mutual

theorem readValue?_freely (fuel : Nat) (cs : List Char) :
    ReadsFreely (readValue? · cs) fuel cs := by
  intro v rest h
  match fuel, cs with
  | 0, _ => cases h
  | fuel + 1, [] => cases h
  | fuel + 1, c :: cs =>
    have hdrop := List.dropWhile_suffix isLineBlank (l := cs)
    have hreads := readValue?_iff.mp h
    clear h
    cases hreads with
    | string hquote h =>
      refine reads_of_succ (takesWithin_of_readString? h).takes fun more _ => ?_
      exact readValue?_iff.mpr (.string hquote h)
    | list hc h =>
      obtain ⟨htakes, hmore⟩ := readItems?_freely fuel cs _ rest h
      refine reads_of_succ (.cons c htakes.suffix) fun more hfuel => ?_
      rw [List.length_cons] at hfuel
      exact readValue?_iff.mpr (.list hc (hmore more (by omega)))
    | empty hc h =>
      rw [h] at hdrop
      refine reads_of_succ (.cons c ((List.suffix_cons _ _).trans hdrop)) fun more _ => ?_
      exact readValue?_iff.mpr (.empty hc h)
    | table hc hne h hv =>
      obtain ⟨htakes, hmore⟩ := readPairs?_freely fuel _ _ rest h
      have hlength := hdrop.length_le
      refine reads_of_succ (.cons c (htakes.suffix.trans hdrop)) fun more hfuel => ?_
      rw [List.length_cons] at hfuel
      exact readValue?_iff.mpr (.table hc hne (hmore more (by omega)) hv)
    | @word word _ _ hquote hc h hv =>
      have hword : word ≠ [] := by
        rintro rfl
        cases hv
      refine reads_of_succ ⟨word, hword, (takeWord_append h).symm⟩ fun more _ => ?_
      exact readValue?_iff.mpr (.word hquote hc h hv)

theorem readItems?_freely (fuel : Nat) (cs : List Char) :
    ReadsFreely (readItems? · cs) fuel cs := by
  intro vs rest h
  match fuel with
  | 0 => cases h
  | fuel + 1 =>
    have hreads := readItems?_iff.mp h
    clear h
    cases hreads with
    | done h =>
      refine reads_of_succ ((Takes.cons _ List.suffix_rfl).of_suffix (suffix_of_skipFiller? h))
        fun more _ => ?_
      exact readItems?_iff.mpr (.done h)
    | last h hne hv hclose =>
      have hfirst := suffix_of_skipFiller? h
      have hlast := suffix_of_skipFiller? hclose
      obtain ⟨htakes, hmore⟩ := readValue?_freely fuel _ _ _ hv
      have hrest := (htakes.then_suffix hlast).of_suffix hfirst
      have hlengths := And.intro hfirst.length_le hlast.length_le
      rw [List.length_cons] at hlengths
      refine reads_of_succ (hrest.then_suffix (List.suffix_cons _ _)) fun more hfuel => ?_
      exact readItems?_iff.mpr (.last h hne (hmore more (by omega)) hclose)
    | more h hne hv hcomma hvs =>
      have hfirst := suffix_of_skipFiller? h
      have hnext := suffix_of_skipFiller? hcomma
      obtain ⟨htakes, hmore⟩ := readValue?_freely fuel _ _ _ hv
      obtain ⟨hothers, hagain⟩ := readItems?_freely fuel _ _ rest hvs
      have hrest := (htakes.then_suffix hnext).of_suffix hfirst
      have hlengths := And.intro hfirst.length_le hnext.length_le
      have hlength := htakes.length_lt
      have hlater := hothers.length_lt
      rw [List.length_cons] at hlengths
      refine reads_of_succ (hrest.then_suffix (hothers.suffix.trans (List.suffix_cons _ _)))
        fun more hfuel => ?_
      exact readItems?_iff.mpr (.more h hne (hmore more (by omega)) hcomma (hagain more (by omega)))

theorem readPairs?_freely (fuel : Nat) (cs : List Char) :
    ReadsFreely (readPairs? · cs) fuel cs := by
  intro pairs rest h
  match fuel with
  | 0 => cases h
  | fuel + 1 =>
    have hreads := readPairs?_iff.mp h
    clear h
    cases hreads with
    | @last path after behind _ v h hv hclose =>
      have hpath := takes_of_readPath? h
      have hblank := List.dropWhile_suffix isLineBlank (l := after)
      have hbehind := List.dropWhile_suffix isLineBlank (l := behind)
      obtain ⟨htakes, hmore⟩ := readValue?_freely fuel _ _ _ hv
      rw [hclose] at hbehind
      have hvalue := htakes.suffix.trans (hblank.trans (List.suffix_cons '=' _))
      have hrest := hpath.then_suffix (hbehind.trans hvalue)
      have hlengths := And.intro hpath.length_lt (And.intro hblank.length_le hbehind.length_le)
      have hlength := htakes.length_lt
      simp only [List.length_cons] at hlengths
      refine reads_of_succ (hrest.then_suffix (List.suffix_cons _ _)) fun more hfuel => ?_
      have hagain : readPath? more cs = some (path, '=' :: after) :=
        readPath?_fuel h (by rw [List.length_cons]; omega)
      exact readPairs?_iff.mpr (.last hagain (hmore more (by omega)) hclose)
    | @more path after behind next _ v pairs h hv hcomma hpairs =>
      have hpath := takes_of_readPath? h
      have hblank := List.dropWhile_suffix isLineBlank (l := after)
      have hbehind := List.dropWhile_suffix isLineBlank (l := behind)
      have hnext := List.dropWhile_suffix isLineBlank (l := next)
      obtain ⟨htakes, hmore⟩ := readValue?_freely fuel _ _ _ hv
      obtain ⟨hothers, hlater⟩ := readPairs?_freely fuel _ _ rest hpairs
      rw [hcomma] at hbehind
      have hvalue := htakes.suffix.trans (hblank.trans (List.suffix_cons '=' _))
      have hpair := hbehind.trans hvalue
      have hrest := hothers.suffix.trans (hnext.trans (List.suffix_cons ',' _))
      have hlengths := And.intro hpath.length_lt (And.intro hblank.length_le hbehind.length_le)
      have hlength := htakes.length_lt
      have hlengths' := And.intro hothers.length_lt hnext.length_le
      simp only [List.length_cons] at hlengths
      refine reads_of_succ (hpath.then_suffix (hrest.trans hpair)) fun more hfuel => ?_
      have hagain : readPath? more cs = some (path, '=' :: after) :=
        readPath?_fuel h (by rw [List.length_cons]; omega)
      exact readPairs?_iff.mpr (.more hagain (hmore more (by omega)) hcomma (hlater more (by omega)))

end

theorem takesWithin_of_readItems? {fuel : Nat} {cs rest : List Char} {vs : List Value}
    (h : readItems? fuel cs = some (vs, rest)) : TakesWithin cs rest := by
  induction fuel generalizing cs vs with
  | zero => cases h
  | succ fuel ih =>
    cases readItems?_iff.mp h with
    | done h => exact .cons (suffix_of_skipFiller? h) (by decide)
    | last hfirst _ hv hclose =>
      have hbehind := (readValue?_freely fuel _ _ _ hv).1.suffix.trans (suffix_of_skipFiller? hfirst)
      exact .cons ((suffix_of_skipFiller? hclose).trans hbehind) (by decide)
    | more hfirst _ hv hcomma hvs =>
      have hbehind := (readValue?_freely fuel _ _ _ hv).1.suffix.trans (suffix_of_skipFiller? hfirst)
      have hnext := (List.suffix_cons ',' _).trans ((suffix_of_skipFiller? hcomma).trans hbehind)
      exact (ih hvs).of_suffix hnext

theorem takesWithin_of_readPairs? {fuel : Nat} {cs rest : List Char}
    {pairs : List (List String × Value)} (h : readPairs? fuel cs = some (pairs, rest)) :
    TakesWithin cs rest := by
  have hdrop (cs : List Char) := List.dropWhile_suffix isLineBlank (l := cs)
  induction fuel generalizing cs pairs with
  | zero => cases h
  | succ fuel ih =>
    cases readPairs?_iff.mp h with
    | last hpath hv hclose =>
      have hafter := (hdrop _).trans ((List.suffix_cons '=' _).trans (takes_of_readPath? hpath).suffix)
      have hbehind := (readValue?_freely fuel _ _ _ hv).1.suffix.trans hafter
      exact .cons ((hclose ▸ hdrop _).trans hbehind) (by decide)
    | more hpath hv hcomma hpairs =>
      have hafter := (hdrop _).trans ((List.suffix_cons '=' _).trans (takes_of_readPath? hpath).suffix)
      have hbehind := (readValue?_freely fuel _ _ _ hv).1.suffix.trans hafter
      have hnext := (hdrop _).trans ((List.suffix_cons ',' _).trans (hcomma ▸ hdrop _))
      exact (ih hpairs).of_suffix (hnext.trans hbehind)

theorem not_mem_of_takeWord {cs word rest : List Char} (h : takeWord cs = (word, rest)) :
    '\n' ∉ word := by
  have hword (cs : List Char) : '\n' ∉ cs.takeWhile (!endsWord ·) :=
    fun hmem => absurd (List.mem_takeWhile_imp (p := (!endsWord ·)) hmem) (by decide)
  unfold takeWord at h
  dsimp only at h
  split at h
  · cases h
    simp [hword]
  · cases h
    exact hword cs

theorem takesWithin_of_readValue? {fuel : Nat} {cs rest : List Char} {v : Value}
    (h : readValue? fuel cs = some (v, rest)) : TakesWithin cs rest := by
  match fuel, cs with
  | 0, _ => cases h
  | fuel + 1, [] => cases h
  | fuel + 1, c :: cs =>
    have hcons := List.suffix_cons c cs
    have hdrop := List.dropWhile_suffix isLineBlank (l := cs)
    cases readValue?_iff.mp h with
    | string _ h => exact takesWithin_of_readString? h
    | list _ h => exact (takesWithin_of_readItems? h).of_suffix hcons
    | empty _ h => exact .cons ((h ▸ hdrop).trans hcons) (by decide)
    | table _ _ h _ => exact (takesWithin_of_readPairs? h).of_suffix (hdrop.trans hcons)
    | @word word _ _ _ _ h hv =>
      rw [← takeWord_append h]
      refine .of_append ?_ (not_mem_of_takeWord h) rest
      rintro rfl
      cases hv

end FormatSettings.Toml
