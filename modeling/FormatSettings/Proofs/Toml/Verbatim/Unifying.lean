import FormatSettings.Proofs.Toml.Breaks
import FormatSettings.Proofs.Toml.Verbatim.Values

/-!
A text that has carriage returns before its line feeds is kept like the text with line feeds alone.
-/

namespace FormatSettings.Toml.Verbatim

theorem not_mem_of_shown {e : List Char} (h : ∀ d ∈ e, isControl d = false) : '\r' ∉ e := by
  intro hmem
  cases h _ hmem

theorem readEscape?_takes {cs rest : List Char} {c : Char} (h : readEscape? cs = some (c, rest)) :
    ∃ e, cs = e ++ rest ∧ (∀ d ∈ e, isControl d = false) ∧
      ∀ more, readEscape? (e ++ more) = some (c, more) := by
  have hshown {first : Char} {digits : List Char} (hfirst : isControl first = false)
      (hdigits : ∀ d ∈ digits, (hexValue? d).isSome = true) : ∀ d ∈ first :: digits, isControl d = false :=
    List.forall_mem_cons.mpr ⟨hfirst, fun d hd => isControl_of_hexValue? (hdigits d hd)⟩
  unfold readEscape? at h
  split at h
  · cases h
    exact ⟨['e'], rfl, hshown (by decide) (List.forall_mem_nil _), fun _ => rfl⟩
  · rw [readCode?_eq] at h
    obtain ⟨⟨n, left⟩, hhex, hvalid⟩ := Option.bind_eq_some_iff.mp h
    obtain ⟨digits, rfl, hdigits, hmore⟩ := readHex?_digits hhex
    dsimp only at hvalid
    split at hvalid
    · next hn =>
      cases hvalid
      refine ⟨'x' :: digits, rfl, hshown (by decide) hdigits, fun more => ?_⟩
      change readCode? 2 0 (digits ++ more) = _
      rw [readCode?_eq, hmore, Option.bind_some]
      exact if_pos hn
    · cases hvalid
  · obtain ⟨⟨n, left⟩, hhex, hvalid⟩ := Option.bind_eq_some_iff.mp h
    obtain ⟨digits, rfl, hdigits, hmore⟩ := readHex?_digits hhex
    have hagain (more : List Char) : readEscape? ('U' :: (digits ++ more)) =
        if n.isValidChar then some (Char.ofNat n, more)
        else if n < 0x110000 then some ('\ufffd', more) else none := by
      rw [readEscape?, hmore]
      rfl
    dsimp only at hvalid
    split at hvalid
    · next hn =>
      cases hvalid
      refine ⟨'U' :: digits, rfl, hshown (by decide) hdigits, fun more => ?_⟩
      rw [List.cons_append, hagain, if_pos hn]
    · next hn =>
      split at hvalid
      · next hrange =>
        cases hvalid
        refine ⟨'U' :: digits, rfl, hshown (by decide) hdigits, fun more => ?_⟩
        rw [List.cons_append, hagain, if_neg hn, if_pos hrange]
      · cases hvalid
  · obtain ⟨e, rfl, he⟩ := isEscape_of_readEscape? h
    exact ⟨e, rfl, he.shown, he.keeps⟩

theorem readText?_takes {quote : Char} (hquote : isQuote quote = true) {fuel : Nat}
    {cs text rest : List Char} (h : readText? quote fuel cs = some (text, rest)) :
    ∃ front, cs = front ++ rest ∧ (∀ d ∈ front, isControl d = false) ∧ front ≠ [] ∧
      ∀ more kept, front.length ≤ kept → readText? quote kept (front ++ more) = some (text, more) := by
  induction fuel generalizing cs text with
  | zero => cases h
  | succ fuel ih =>
    cases cs with
    | nil => cases h
    | cons c cs =>
      rw [readText?] at h
      split at h
      · next hc =>
        cases h
        rw [beq_iff_eq] at hc
        subst hc
        refine ⟨[c], rfl, List.forall_mem_singleton.mpr (isControl_of_isQuote hquote),
          List.cons_ne_nil _ _, fun more kept hkept => ?_⟩
        obtain ⟨kept, rfl⟩ := Nat.exists_eq_add_of_le' hkept
        rw [List.singleton_append, List.length_singleton, readText?, if_pos (beq_self_eq_true c)]
      · next hc =>
        split at h
        · cases h
        · next hcontrol =>
          rw [Bool.not_eq_true] at hcontrol
          split at h
          · next hescape =>
            obtain ⟨⟨d, after⟩, hread, h⟩ := Option.bind_eq_some_iff.mp h
            obtain ⟨⟨tail, left⟩, htail, h⟩ := Option.map_eq_some_iff.mp h
            cases h
            obtain ⟨e, rfl, hshown, hagain⟩ := readEscape?_takes hread
            obtain ⟨front, rfl, hfront, -, hmore⟩ := ih htail
            refine ⟨c :: (e ++ front), by simp, List.forall_mem_cons.mpr ⟨hcontrol,
              List.forall_mem_append.mpr ⟨hshown, hfront⟩⟩, List.cons_ne_nil _ _, fun more kept hkept => ?_⟩
            rw [List.length_cons, List.length_append] at hkept
            obtain ⟨kept, rfl⟩ : ∃ n, kept = n + 1 := ⟨kept - 1, by omega⟩
            rw [List.cons_append, List.append_assoc, readText?, if_neg hc, hcontrol,
              if_neg Bool.false_ne_true, if_pos hescape, hagain, Option.bind_some]
            dsimp only
            rw [hmore more kept (by omega)]
            rfl
          · next hescape =>
            obtain ⟨⟨tail, left⟩, htail, h⟩ := Option.map_eq_some_iff.mp h
            cases h
            obtain ⟨front, rfl, hfront, -, hmore⟩ := ih htail
            refine ⟨c :: front, rfl, List.forall_mem_cons.mpr ⟨hcontrol, hfront⟩,
              List.cons_ne_nil _ _, fun more kept hkept => ?_⟩
            rw [List.length_cons] at hkept
            obtain ⟨kept, rfl⟩ : ∃ n, kept = n + 1 := ⟨kept - 1, by omega⟩
            rw [List.cons_append, readText?, if_neg hc, hcontrol, if_neg Bool.false_ne_true,
              if_neg hescape, hmore more kept (by omega)]
            rfl

theorem ne_of_isQuote {quote : Char} (h : isQuote quote = true) : quote ≠ '\r' ∧ quote ≠ '\n' := by
  rcases isQuote_iff.mp h with rfl | rfl <;> decide

theorem readText?_unified {quote : Char} (hquote : isQuote quote = true) {fuel : Nat}
    {cs us text rest : List Char} (hus : Unifies cs us)
    (h : readText? quote fuel cs = some (text, rest)) :
    ∃ front left, '\r' ∉ front ∧ cs = front ++ rest ∧ us = front ++ left ∧ Unifies rest left ∧
      readText? quote (us.length + 1) us = some (text, left) := by
  obtain ⟨front, rfl, hshown, -, hagain⟩ := readText?_takes hquote h
  have hfront := not_mem_of_shown hshown
  obtain ⟨left, rfl, hleft⟩ := hus.of_append hfront
  refine ⟨front, left, hfront, rfl, rfl, hleft, hagain left _ ?_⟩
  rw [List.length_append]
  omega

theorem closing?_unified {quote : Char} (hquote : isQuote quote = true) {cs us : List Char}
    (hus : Unifies cs us) : (closing? quote cs = none → closing? quote us = none) ∧
      ∀ quotes rest, closing? quote cs = some (quotes, rest) →
        ∃ left, closing? quote us = some (quotes, left) ∧ Cuts cs us rest left := by
  obtain ⟨hreturn, hbreak⟩ := ne_of_isQuote hquote
  have hcount := Cuts.takeWhile (p := (· == quote)) (beq_false_of_ne hreturn.symm)
    (beq_false_of_ne hbreak.symm) hus
  have hnone : closing? quote cs = none ↔ closing? quote us = none := by
    simp only [closing?, hcount]
    split
    · simp
    · simp
  refine ⟨hnone.mp, fun quotes rest h => ?_⟩
  obtain ⟨⟨others, left⟩, hleft⟩ : ∃ read, closing? quote us = some read := by
    rw [← Option.isSome_iff_exists, ← Option.ne_none_iff_isSome, Ne, ← hnone, h]
    exact Option.some_ne_none _
  have hquotes : others = quotes := by
    simp only [closing?, hcount] at h hleft
    split at h
    · cases h
    · next hfew =>
      rw [if_neg hfew] at hleft
      cases h
      cases hleft
      rfl
  subst hquotes
  obtain ⟨n, rfl, rfl, -⟩ := closing?_eq_some h
  obtain ⟨m, hm, rfl, -⟩ := closing?_eq_some hleft
  have hsame : n = m := by simpa using congrArg List.length hm
  subst hsame
  have hfront : '\r' ∉ List.replicate (n + 3) quote := fun hmem =>
    hreturn (List.eq_of_mem_replicate hmem).symm
  obtain ⟨behind, hbehind, hrest⟩ := hus.of_append hfront
  obtain rfl := List.append_cancel_left hbehind
  exact ⟨left, hleft, .of_front hfront hrest⟩

theorem skipFold?_unified {cs us : List Char} (hus : Unifies cs us) :
    (skipFold? cs = none → skipFold? us = none) ∧
      ∀ rest, skipFold? cs = some rest → ∃ left, skipFold? us = some left ∧ Cuts cs us rest left := by
  obtain ⟨hcuts, htaken⟩ := Cuts.dropWhile (p := isLineSpace) rfl hus
  have hbreak : (cs.takeWhile isLineSpace).contains '\n' = (us.takeWhile isLineSpace).contains '\n' := by
    rw [Bool.eq_iff_iff, List.contains_iff_mem, List.contains_iff_mem]
    exact htaken.mem_break_iff
  unfold skipFold?
  rw [hbreak]
  split
  · refine ⟨nofun, fun rest h => ?_⟩
    cases h
    exact ⟨_, rfl, hcuts⟩
  · exact ⟨fun _ => rfl, nofun⟩

theorem skipLines?_unified {quote : Char} (hquote : isQuote quote = true) (fuel : Nat)
    {cs us rest : List Char} (hus : Unifies cs us) (h : skipLines? quote fuel cs = some rest) :
    ∃ left, Cuts cs us rest left ∧ ∀ kept, us.length < kept → skipLines? quote kept us = some left := by
  obtain ⟨hreturn, hbreak⟩ := ne_of_isQuote hquote
  match fuel, cs, us, hus with
  | 0, _, _, _ => cases h
  | _ + 1, _, _, .nil => cases h
  | 1, _, _, .pair hus =>
    rw [skipLines?_lineEnd hreturn.symm (.inl rfl)] at h
    cases h
  | fuel + 2, _, _, .pair hus =>
    rw [skipLines?_lineEnd hreturn.symm (.inl rfl), skipLines?_lineEnd hbreak.symm (.inr rfl)] at h
    obtain ⟨left, hcuts, hleft⟩ := skipLines?_unified hquote fuel hus h
    refine ⟨left, (Cuts.pair hus).trans hcuts, fun kept hkept => ?_⟩
    obtain ⟨kept, rfl⟩ : ∃ n, kept = n + 1 := ⟨kept - 1, by omega⟩
    rw [skipLines?_lineEnd hbreak.symm (.inr rfl)]
    exact hleft kept (by simpa using hkept)
  | fuel + 1, c :: cs, _ :: us, .char hc hus =>
    have hlonger {kept : Nat} (hkept : (c :: us).length < kept) : ∃ n, kept = n + 1 ∧ us.length < n := by
      rw [List.length_cons] at hkept
      exact ⟨kept - 1, by omega, by omega⟩
    have hfirst := Cuts.char hc hus
    obtain ⟨hopen, hclosed⟩ := closing?_unified hquote (Unifies.char hc hus)
    rw [skipLines?] at h
    split at h
    · next quotes after hclosing =>
      cases h
      obtain ⟨left, hleft, hcuts⟩ := hclosed _ _ hclosing
      refine ⟨left, hcuts, fun kept hkept => ?_⟩
      obtain ⟨kept, rfl, -⟩ := hlonger hkept
      rw [skipLines?, hleft]
    · next hclosing =>
      have hclosing := hopen hclosing
      split at h
      · next hescape =>
        obtain ⟨hstay, hfold⟩ := skipFold?_unified hus
        split at h
        · next behind hskip =>
          obtain ⟨after, hafter, hcuts⟩ := hfold _ hskip
          obtain ⟨left, hmore, hleft⟩ := skipLines?_unified hquote fuel hcuts.rest h
          refine ⟨left, hfirst.trans (hcuts.trans hmore), fun kept hkept => ?_⟩
          obtain ⟨n, rfl, hn⟩ := hlonger hkept
          have hlength := hcuts.length_le
          rw [skipLines?, hclosing]
          dsimp only
          rw [if_pos hescape, hafter]
          exact hleft n (by omega)
        · next hskip =>
          obtain ⟨⟨d, behind⟩, hread, hbehind⟩ := Option.bind_eq_some_iff.mp h
          obtain ⟨e, rfl, hshown, hagain⟩ := readEscape?_takes hread
          obtain ⟨after, rfl, hafter⟩ := hus.of_append (not_mem_of_shown hshown)
          obtain ⟨left, hmore, hleft⟩ := skipLines?_unified hquote fuel hafter hbehind
          have hcuts := (Cuts.of_front (not_mem_of_shown hshown) hafter).trans hmore
          refine ⟨left, hfirst.trans hcuts, fun kept hkept => ?_⟩
          obtain ⟨n, rfl, hn⟩ := hlonger hkept
          rw [List.length_append] at hn
          rw [skipLines?, hclosing]
          dsimp only
          rw [if_pos hescape, hstay hskip, hagain]
          exact hleft n (by omega)
      · next hescape =>
        split at h
        · cases h
        · next hcontrol =>
          obtain ⟨left, hmore, hleft⟩ := skipLines?_unified hquote fuel hus h
          refine ⟨left, hfirst.trans hmore, fun kept hkept => ?_⟩
          obtain ⟨n, rfl, hn⟩ := hlonger hkept
          rw [skipLines?, hclosing]
          dsimp only
          rw [if_neg hescape, if_neg hcontrol]
          exact hleft n hn

theorem three_of_unified {quote : Char} (hquote : isQuote quote = true) {cs us : List Char}
    (hus : Unifies cs us) (h : ∀ rest, cs ≠ quote :: quote :: rest) :
    ∀ rest, us ≠ quote :: quote :: rest := by
  have hbreak := (ne_of_isQuote hquote).2
  rintro rest rfl
  cases hus with
  | pair => exact hbreak rfl
  | char _ hus =>
    cases hus with
    | pair => exact hbreak rfl
    | char => exact h _ rfl

theorem skipString?_body {quote : Char} {body : List Char} (h : ∀ rest, body ≠ quote :: quote :: rest) :
    skipString? (quote :: body) = (readText? quote (body.length + 1) body).map (·.2) := by
  unfold skipString?
  split
  · next a b c rest heq =>
    cases heq
    rw [if_neg]
    · rfl
    · rw [Bool.and_eq_true, beq_iff_eq, beq_iff_eq]
      rintro ⟨rfl, rfl⟩
      exact h rest rfl
  · next heq =>
    cases heq
    rfl
  · next heq => cases heq

theorem skipString?_unified {quote : Char} (hquote : isQuote quote = true) {body us rest : List Char}
    (hus : Unifies body us) (h : skipString? (quote :: body) = some rest) :
    ∃ left, skipString? (quote :: us) = some left ∧ Cuts body us rest left := by
  have hreturn := (ne_of_isQuote hquote).1
  by_cases hthree : ∃ inner, body = quote :: quote :: inner
  · obtain ⟨inner, rfl⟩ := hthree
    have hopen : '\r' ∉ [quote, quote] := by simp [hreturn.symm]
    obtain ⟨others, rfl, hinner⟩ := Unifies.of_append hopen hus
    have hlines (cs : List Char) : skipString? (quote :: quote :: quote :: cs) =
        skipLines? quote (cs.length + 1) cs := by simp [skipString?]
    rw [hlines] at h
    obtain ⟨left, hcuts, hleft⟩ := skipLines?_unified hquote _ hinner h
    exact ⟨left, (hlines others).trans (hleft _ (Nat.lt_succ_self _)),
      (Cuts.of_front hopen hinner).trans hcuts⟩
  · have hbody : ∀ rest, body ≠ quote :: quote :: rest := fun rest heq => hthree ⟨rest, heq⟩
    rw [skipString?_body hbody] at h
    obtain ⟨⟨text, after⟩, hread, rfl⟩ := Option.map_eq_some_iff.mp h
    obtain ⟨front, left, hfront, rfl, rfl, hleft, hagain⟩ := readText?_unified hquote hus hread
    refine ⟨left, ?_, .of_front hfront hleft⟩
    rw [skipString?_body (three_of_unified hquote hus hbody), hagain]
    rfl

theorem readKey?_opened {quote : Char} (hquote : isQuote quote = true) {cs body : List Char}
    (hcs : cs.dropWhile isLineBlank = quote :: body) (h : ∀ rest, body ≠ quote :: quote :: rest) :
    readKey? cs = (readText? quote (body.length + 1) body).map fun (name, rest) =>
      (⟨String.ofList name, textBefore (rest.dropWhile isLineBlank) cs, [], false⟩,
        rest.dropWhile isLineBlank) := by
  unfold readKey?
  rw [hcs]
  split
  · next heq =>
    cases heq
    exact absurd rfl (h _)
  · next heq =>
    cases heq
    exact absurd rfl (h _)
  · next heq =>
    cases heq
    exact if_pos hquote
  · next heq => cases heq

theorem readKey?_plain {c : Char} (hquote : isQuote c = false) {cs body : List Char}
    (hcs : cs.dropWhile isLineBlank = c :: body) :
    readKey? cs =
      let isMore (c : Char) : Bool := isBareKeyChar c || isLineBlank c
      let rest := (c :: body).dropWhile isMore
      let name := Text.stripBy isLineBlank ((c :: body).takeWhile isMore)
      if name.isEmpty || name.contains ' ' then none
      else some (⟨String.ofList name, textBefore rest cs, [], false⟩, rest) := by
  unfold readKey?
  rw [hcs]
  split
  · next heq =>
    cases heq
    cases hquote
  · next heq =>
    cases heq
    cases hquote
  · next heq =>
    cases heq
    rw [if_neg]
    exact Bool.eq_false_iff.mp hquote
  · next heq => cases heq

theorem readKey?_unified {cs us rest : List Char} {key : Key} (hus : Unifies cs us)
    (h : readKey? cs = some (key, rest)) :
    ∃ left, readKey? us = some (key, left) ∧ Cuts cs us rest left := by
  have htaken := Cuts.takeWhile (p := isLineBlank) rfl rfl hus
  have hcore := (Cuts.dropWhile (p := isLineBlank) rfl hus).1.rest
  have hcs := (List.takeWhile_append_dropWhile (p := isLineBlank) (l := cs)).symm
  have hback := (List.takeWhile_append_dropWhile (p := isLineBlank) (l := us)).symm
  have hblanks := blanks_takeWhile cs
  rw [← htaken] at hback
  generalize hdrop : cs.dropWhile isLineBlank = core at hcore hcs
  generalize hdropped : us.dropWhile isLineBlank = other at hcore hback
  generalize cs.takeWhile isLineBlank = blanks at hcs hback hblanks
  -- What stands before the rest of the key is the same in both texts.
  have hsame (front : List Char) {rest left : List Char} (hfront : '\r' ∉ front)
      (hkept : core = front ++ rest) (hother : other = front ++ left) (hleft : Unifies rest left) :
      textBefore rest cs = textBefore left us ∧ Cuts cs us rest left := by
    have hline : cs = blanks ++ front ++ rest := by rw [hcs, hkept, List.append_assoc]
    have hbehind : us = blanks ++ front ++ left := by rw [hback, hother, List.append_assoc]
    have hreturn : '\r' ∉ blanks ++ front := by simp [hfront, hblanks.not_mem (c := '\r') rfl]
    rw [hline, hbehind, textBefore_append, textBefore_append]
    exact ⟨rfl, .of_front hreturn hleft⟩
  cases hcore with
  | nil =>
    unfold readKey? at h
    rw [hdrop] at h
    cases h
  | pair =>
    rw [readKey?_plain rfl hdrop] at h
    cases h
  | @char c body others hc hbody =>
    by_cases hquote : isQuote c = true
    · have hthree : ∀ rest, body ≠ c :: c :: rest := by
        rintro after rfl
        unfold readKey? at h
        rw [hdrop] at h
        rcases isQuote_iff.mp hquote with rfl | rfl <;> cases h
      rw [readKey?_opened hquote hdrop hthree] at h
      obtain ⟨⟨name, after⟩, hread, h⟩ := Option.map_eq_some_iff.mp h
      cases h
      obtain ⟨front, behind, hfront, rfl, rfl, hbehind, hagain⟩ := readText?_unified hquote hbody hread
      have htail := Cuts.takeWhile (p := isLineBlank) rfl rfl hbehind
      have hleft := (Cuts.dropWhile (p := isLineBlank) rfl hbehind).1.rest
      obtain ⟨htext, hcuts⟩ := hsame (c :: (front ++ after.takeWhile isLineBlank))
        (by simp [hfront, hc.symm, (blanks_takeWhile after).not_mem (c := '\r') rfl])
        (by simp) (by rw [htail]; simp) hleft
      refine ⟨_, ?_, hcuts⟩
      rw [readKey?_opened hquote hdropped (three_of_unified hquote hbody hthree), hagain,
        Option.map_some, htext]
    · rw [Bool.not_eq_true] at hquote
      rw [readKey?_plain hquote hdrop] at h
      have hnames := Cuts.takeWhile (p := fun c => isBareKeyChar c || isLineBlank c) rfl rfl
        (Unifies.char hc hbody)
      have hleft := (Cuts.dropWhile (p := fun c => isBareKeyChar c || isLineBlank c) rfl
        (Unifies.char hc hbody)).1.rest
      have hreturn : '\r' ∉ (c :: body).takeWhile fun c => isBareKeyChar c || isLineBlank c :=
        fun hmem => by cases List.mem_takeWhile_imp hmem
      obtain ⟨htext, hcuts⟩ := hsame _ hreturn List.takeWhile_append_dropWhile.symm
        (by rw [hnames]; exact List.takeWhile_append_dropWhile.symm) hleft
      rw [readKey?_plain hquote hdropped]
      dsimp only at h ⊢
      rw [← hnames, ← htext]
      split at h
      · cases h
      · next hname =>
        cases h
        rw [if_neg hname]
        exact ⟨_, rfl, hcuts⟩

theorem readKeys?_more {cs more : List Char} {key : Key} (h : readKey? cs = some (key, '.' :: more))
    (fuel : Nat) : readKeys? (fuel + 1) cs =
      (readKeys? fuel more).map fun (keys, rest) => (key :: keys, rest) := by
  rw [readKeys?, h]
  rfl

theorem readKeys?_last {cs rest : List Char} {key : Key} (h : readKey? cs = some (key, rest))
    (hdot : ∀ more, rest ≠ '.' :: more) (fuel : Nat) :
    readKeys? (fuel + 1) cs = some ([key], rest) := by
  rw [readKeys?, h, Option.bind_some]
  dsimp only
  split
  · exact absurd rfl (hdot _)
  · rfl

theorem readKeys?_unified {fuel : Nat} {cs us rest : List Char} {keys : List Key} (hus : Unifies cs us)
    (h : readKeys? fuel cs = some (keys, rest)) :
    ∃ left, Cuts cs us rest left ∧ ∀ kept, us.length < kept → readKeys? kept us = some (keys, left) := by
  induction fuel generalizing cs us keys with
  | zero => cases h
  | succ fuel ih =>
    have hstep {kept : Nat} (hkept : us.length < kept) : ∃ n, kept = n + 1 ∧ us.length ≤ n :=
      ⟨kept - 1, by omega, by omega⟩
    obtain ⟨⟨key, after⟩, hkey, -⟩ := Option.bind_eq_some_iff.mp h
    obtain ⟨behind, hagain, hcuts⟩ := readKey?_unified hus hkey
    have hbehind := hcuts.rest
    by_cases hdot : ∃ more, after = '.' :: more
    · obtain ⟨more, rfl⟩ := hdot
      rw [readKeys?_more hkey] at h
      obtain ⟨⟨others, next⟩, hothers, h⟩ := Option.map_eq_some_iff.mp h
      cases h
      cases hbehind with
      | @char _ _ tail hc htail =>
        obtain ⟨left, hmore, hleft⟩ := ih htail hothers
        refine ⟨left, hcuts.trans ((Cuts.char hc htail).trans hmore), fun kept hkept => ?_⟩
        have hlength := hcuts.length_le
        rw [List.length_cons] at hlength
        obtain ⟨n, rfl, hn⟩ := hstep hkept
        rw [readKeys?_more hagain, hleft n (by omega)]
        rfl
    · rw [readKeys?_last hkey fun more heq => hdot ⟨more, heq⟩] at h
      cases h
      refine ⟨behind, hcuts, fun kept hkept => ?_⟩
      obtain ⟨n, rfl, -⟩ := hstep hkept
      refine readKeys?_last hagain (fun more heq => ?_) n
      subst heq
      cases hbehind with
      | char => exact hdot ⟨_, rfl⟩

theorem readSeparator?_unified {cs us separator rest : List Char} (hus : Unifies cs us)
    (h : readSeparator? cs = some (separator, rest)) :
    ∃ left, readSeparator? us = some (separator, left) ∧ Cuts cs us rest left := by
  have htaken := Cuts.takeWhile (p := fun c => c == '=' || isLineBlank c) rfl rfl hus
  have hcuts := (Cuts.dropWhile (p := fun c => c == '=' || isLineBlank c) rfl hus).1
  unfold readSeparator? at h ⊢
  dsimp only at h ⊢
  rw [htaken] at h
  split at h
  · next hcount =>
    cases h
    exact ⟨_, if_pos hcount, hcuts⟩
  · cases h

theorem skipSpace?_unified {inComment : Bool} {cs us rest : List Char} (hus : Unifies cs us)
    (h : skipSpace? inComment cs = some rest) :
    ∃ left, skipSpace? inComment us = some left ∧ Cuts cs us rest left := by
  have hend {c : Char} (hc : c = '\r' ∨ c = '\n') (inComment : Bool) (cs : List Char) :
      skipSpace? inComment (c :: cs) = skipSpace? false cs := by
    rcases hc with rfl | rfl <;> cases inComment <;> rfl
  induction hus generalizing inComment with
  | nil =>
    rw [skipSpace?] at h
    cases h
    exact ⟨[], by rw [skipSpace?], .refl .nil⟩
  | pair hus ih =>
    rw [hend (.inl rfl), hend (.inr rfl)] at h
    obtain ⟨left, hleft, hcuts⟩ := ih h
    exact ⟨left, (hend (.inr rfl) _ _).trans hleft, (Cuts.pair hus).trans hcuts⟩
  | @char c cs us hc hus ih =>
    have hfirst := Cuts.char hc hus
    cases inComment with
    | true =>
      rw [skipSpace?] at h ⊢
      split at h
      · next hbreak =>
        obtain ⟨left, hleft, hcuts⟩ := ih h
        exact ⟨left, (if_pos hbreak).trans hleft, hfirst.trans hcuts⟩
      · next hbreak =>
        split at h
        · cases h
        · next hcontrol =>
          obtain ⟨left, hleft, hcuts⟩ := ih h
          refine ⟨left, ?_, hfirst.trans hcuts⟩
          rw [if_neg hbreak, if_neg hcontrol, hleft]
    | false =>
      rw [skipSpace?] at h ⊢
      split at h
      · next hspace =>
        obtain ⟨left, hleft, hcuts⟩ := ih h
        exact ⟨left, (if_pos hspace).trans hleft, hfirst.trans hcuts⟩
      · next hspace =>
        rw [if_neg hspace]
        split at h
        · next hcomment =>
          obtain ⟨left, hleft, hcuts⟩ := ih h
          exact ⟨left, (if_pos hcomment).trans hleft, hfirst.trans hcuts⟩
        · next hcomment =>
          cases h
          exact ⟨c :: us, if_neg hcomment, .refl (.char hc hus)⟩

end FormatSettings.Toml.Verbatim
