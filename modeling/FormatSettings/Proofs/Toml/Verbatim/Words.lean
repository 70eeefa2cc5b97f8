import FormatSettings.Proofs.Toml.Verbatim.Strings
import Mathlib.Algebra.Group.Nat.Defs

namespace FormatSettings.Toml.Verbatim

def InertUpTo (cs rest : List Char) : Prop :=
  ∃ front, cs = front ++ rest ∧ ∀ c ∈ front, IsInert c

namespace InertUpTo

theorem refl (cs : List Char) : InertUpTo cs cs :=
  ⟨[], rfl, List.forall_mem_nil _⟩

theorem trans {cs middle rest : List Char} (h : InertUpTo cs middle) (hrest : InertUpTo middle rest) :
    InertUpTo cs rest := by
  obtain ⟨front, rfl, hfront⟩ := h
  obtain ⟨back, rfl, hback⟩ := hrest
  refine ⟨front ++ back, (List.append_assoc _ _ _).symm, ?_⟩
  intro c hc
  exact (List.mem_append.mp hc).elim (hfront c) (hback c)

theorem cons {c : Char} (hc : IsInert c) (rest : List Char) : InertUpTo (c :: rest) rest :=
  ⟨[c], rfl, fun _ hd => List.mem_singleton.mp hd ▸ hc⟩

theorem of_all {p : Char → Bool} (hp : ∀ c, p c = true → c.isDigit = true) (cs : List Char) :
    InertUpTo cs (cs.dropWhile p) :=
  ⟨cs.takeWhile p, List.takeWhile_append_dropWhile.symm, fun c hc =>
    isInert_of_isBareKeyChar (isBareKeyChar_of_isDigit (hp c (List.mem_takeWhile_imp hc)))⟩

theorem of_readDigits? {count n : Nat} {cs rest : List Char}
    (h : readDigits? count cs = some (n, rest)) : InertUpTo cs rest := by
  unfold readDigits? at h
  dsimp only at h
  split at h
  · next hdigits =>
    cases h
    rw [Bool.and_eq_true, List.all_eq_true] at hdigits
    exact ⟨cs.take count, (List.take_append_drop count cs).symm, fun c hc =>
      isInert_of_isBareKeyChar (isBareKeyChar_of_isDigit (hdigits.2 c hc))⟩
  · cases h

theorem of_skipChar? {c : Char} {cs rest : List Char} (hc : IsInert c)
    (h : skipChar? c cs = some rest) : InertUpTo cs rest := by
  cases cs with
  | nil => cases h
  | cons d cs =>
    rw [skipChar?] at h
    split at h
    · next heq =>
      cases h
      rw [beq_iff_eq.mp heq]
      exact cons hc _
    · cases h

theorem of_readDay? {cs rest : List Char} {d : Date} (h : readDay? cs = some (d, rest)) :
    InertUpTo cs rest := by
  simp only [readDay?, bind, Option.bind_eq_some_iff] at h
  obtain ⟨a, ha, ⟨month, b⟩, hb, c, hc, ⟨day, e⟩, he, h⟩ := h
  split at h
  · cases h
    refine (of_all (fun _ => id) cs).trans ?_
    refine (of_skipChar? (fun _ => rfl) ha).trans ?_
    refine (of_readDigits? hb).trans ?_
    exact (of_skipChar? (fun _ => rfl) hc).trans (of_readDigits? he)
  · cases h

theorem of_readFraction? {cs rest : List Char} {n : Nat} (h : readFraction? cs = some (n, rest)) :
    InertUpTo cs rest := by
  unfold readFraction? at h
  split at h
  · dsimp only at h
    split at h
    · cases h
    · cases h
      exact (cons (fun _ => rfl) _).trans (of_all (fun _ => id) _)
  · cases h
    exact refl _

theorem of_readTime? {cs rest : List Char} {t : Clock} (h : readTime? cs = some (t, rest)) :
    InertUpTo cs rest := by
  simp only [readTime?, bind, Option.bind_eq_some_iff] at h
  obtain ⟨⟨hour, a⟩, ha, b, hb, ⟨minute, c⟩, hc, h⟩ := h
  have hfirst : InertUpTo cs c :=
    (of_readDigits? ha).trans ((of_skipChar? (fun _ => rfl) hb).trans (of_readDigits? hc))
  refine hfirst.trans ?_
  dsimp only at h
  split at h
  · simp only [Option.bind_eq_some_iff] at h
    obtain ⟨⟨second, e⟩, he, ⟨micro, f⟩, hf, _, ⟨⟩, h⟩ := h
    split at h
    · cases h
      exact (cons (fun _ => rfl) _).trans ((of_readDigits? he).trans (of_readFraction? hf))
    · cases h
  · dsimp only [Option.bind] at h
    split at h
    · cases h
      exact refl _
    · cases h

theorem of_readOffset? {cs : List Char} {offset : Option Int} (h : readOffset? cs = some offset) :
    InertUpTo cs [] := by
  unfold readOffset? at h
  split at h
  · exact refl _
  · next c rest =>
    split at h
    · next hz =>
      rw [Bool.and_eq_true, List.isEmpty_iff, Bool.or_eq_true, beq_iff_eq, beq_iff_eq] at hz
      obtain ⟨rfl | rfl, rfl⟩ := hz
      · exact cons (fun _ => rfl) _
      · exact cons (fun _ => rfl) _
    · split at h
      · next hsign =>
        simp only [bind, Option.bind_eq_some_iff] at h
        obtain ⟨⟨hour, a⟩, ha, b, hb, ⟨minute, e⟩, he, h⟩ := h
        split at h
        · next hend =>
          rw [Bool.and_eq_true, Bool.and_eq_true, List.isEmpty_iff] at hend
          obtain ⟨⟨rfl, -⟩, -⟩ := hend
          rw [Bool.or_eq_true, beq_iff_eq, beq_iff_eq] at hsign
          have hc : IsInert c := by
            rcases hsign with rfl | rfl
            · exact fun _ => rfl
            · exact fun _ => rfl
          refine (cons hc _).trans ((of_readDigits? ha).trans ?_)
          exact (of_skipChar? (fun _ => rfl) hb).trans (of_readDigits? he)
        · cases h
      · cases h

theorem of_isOffset {cs : List Char} (h : isOffset cs = true) : InertUpTo cs [] := by
  unfold isOffset at h
  split at h
  · obtain ⟨offset, hoffset⟩ := Option.isSome_iff_exists.mp h
    obtain ⟨front, hfront, hinert⟩ := of_readOffset? hoffset
    cases front with
    | nil => cases hfront
    | cons c front =>
      cases hfront
      refine (cons (fun _ => rfl) _).trans ⟨front, rfl, ?_⟩
      exact fun d hd => hinert d (List.mem_cons_of_mem _ hd)
  · obtain ⟨offset, hoffset⟩ := Option.isSome_iff_exists.mp h
    exact of_readOffset? hoffset

theorem of_isDay {cs : List Char} (h : isDay cs = true) : InertUpTo cs [] := by
  rw [isDay, Option.any_eq_true] at h
  obtain ⟨⟨d, rest⟩, hread, hempty⟩ := h
  have hrest : rest = [] := List.isEmpty_iff.mp hempty
  exact hrest ▸ of_readDay? hread

theorem of_isDayTime {cs : List Char} (h : isDayTime cs = true) : InertUpTo cs [] := by
  unfold isDayTime at h
  split at h
  · next d c rest hday =>
    rw [Bool.and_eq_true, Option.any_eq_true] at h
    obtain ⟨hc, ⟨t, after⟩, htime, hoffset⟩ := h
    have hinert : IsInert c := by
      simp only [Bool.or_eq_true, beq_iff_eq] at hc
      rcases hc with (rfl | rfl) | rfl
      all_goals exact fun _ => rfl
    refine (of_readDay? hday).trans ((cons hinert _).trans ?_)
    exact (of_readTime? htime).trans (of_isOffset hoffset)
  · cases h

end InertUpTo

theorem foldl_digits_lt {cs : List Char} (h : ∀ c ∈ cs, c.isDigit = true) (n : Nat) :
    cs.foldl (fun n c => 10 * n + (c.toNat - 48)) n < 10 ^ cs.length * (n + 1) := by
  induction cs generalizing n with
  | nil => simp
  | cons c cs ih =>
    have hc : c.toNat ≤ 57 := by
      have hdigit := h c List.mem_cons_self
      rw [Char.isDigit, Bool.and_eq_true, decide_eq_true_eq, decide_eq_true_eq,
        UInt32.le_iff_toNat_le] at hdigit
      exact hdigit.2
    have hrest := ih (fun d hd => h d (List.mem_cons_of_mem _ hd)) (10 * n + (c.toNat - 48))
    rw [List.foldl_cons, List.length_cons, Nat.pow_succ, Nat.mul_assoc]
    refine hrest.trans_le (Nat.mul_le_mul_left _ ?_)
    omega

theorem digitsNat_lt {cs : List Char} (h : ∀ c ∈ cs, c.isDigit = true) :
    Binary64.digitsNat cs < 10 ^ cs.length := by
  have hzero := foldl_digits_lt h 0
  rwa [Nat.zero_add, Nat.mul_one] at hzero

theorem isDay_of_readDate? {cs : List Char} {d : Date} (h : readDate? cs = some (d, [])) :
    isDay cs = true := by
  simp only [readDate?, bind, Option.bind_eq_some_iff] at h
  obtain ⟨⟨year, a⟩, hyear, b, hb, ⟨month, c⟩, hmonth, e, he, ⟨day, f⟩, hday, h⟩ := h
  unfold readDigits? at hyear
  dsimp only at hyear hb
  split at hyear
  · next hdigits =>
    cases hyear
    rw [Bool.and_eq_true, List.all_eq_true, beq_iff_eq] at hdigits
    have hall := List.take_append_drop 4 cs
    cases hrest : cs.drop 4 with
    | nil =>
      rw [hrest] at hb
      cases hb
    | cons x rest =>
      rw [hrest, skipChar?] at hb
      split at hb
      · next hx =>
        cases hb
        rw [beq_iff_eq] at hx
        subst hx
        rw [hrest] at hall
        have hstop : Stops Char.isDigit ('-' :: b) := stops_cons.mpr rfl
        have htake := takeWhile_append_of_stops hdigits.2 hstop
        have hdrop := dropWhile_append_of_stops hdigits.2 hstop
        rw [hall] at htake hdrop
        split at h
        · next hvalid =>
          cases h
          have hpower := digitsNat_lt hdigits.2
          rw [hdigits.1] at hpower
          have hbound : Binary64.digitsNat (cs.take 4) < 10000 := hpower
          dsimp only at he hvalid
          have hdash : skipChar? '-' ('-' :: b) = some b := rfl
          simp only [isDay, readDay?, htake, hdrop, bind, hdash, Option.bind_some, hmonth, he, hday,
            hvalid, Bool.true_and]
          rw [if_pos (decide_eq_true hbound)]
          rfl
        · cases h
      · cases hb
  · cases hyear

theorem hasClockNext_append {clock rest more : List Char}
    (hclock : ∀ c ∈ clock, (!endsWord c) = true) (hrest : Stops (!endsWord ·) rest)
    (h : hasClockNext (' ' :: (clock ++ rest)) = true) :
    hasClockNext (' ' :: (clock ++ more)) = true := by
  have hends (c : Char) (cs : List Char) (hc : endsWord c = false) : rest ≠ c :: cs := by
    rintro rfl
    rw [stops_cons, hc] at hrest
    cases hrest
  have hdigit {c : Char} (hc : c.isDigit = true) : endsWord c = false :=
    endsWord_of_isBareKeyChar (isBareKeyChar_of_isDigit hc)
  unfold hasClockNext at h
  split at h
  · next a b after heq =>
    rw [Bool.and_eq_true] at h
    have hcs := (List.cons.inj heq).2
    match clock, hcs with
    | [], hcs => exact absurd hcs (hends a _ (hdigit h.1))
    | [x], hcs => exact absurd (List.cons.inj hcs).2 (hends b _ (hdigit h.2))
    | [x, y], hcs => exact absurd (List.cons.inj (List.cons.inj hcs).2).2 (hends ':' _ rfl)
    | x :: y :: z :: clock, hcs =>
      have hsame : x = a ∧ y = b ∧ z = ':' := by
        simp only [List.cons_append, List.cons.injEq] at hcs
        exact ⟨hcs.1, hcs.2.1, hcs.2.2.1⟩
      obtain ⟨rfl, rfl, rfl⟩ := hsame
      change (x.isDigit && y.isDigit) = true
      rw [h.1, h.2]
      rfl
  · cases h

theorem eq_cons_of_hasClockNext {cs : List Char} (h : hasClockNext cs = true) :
    ∃ tail, cs = ' ' :: tail := by
  unfold hasClockNext at h
  split at h
  · exact ⟨_, rfl⟩
  · cases h

theorem takeWord_again {cs word rest more : List Char} (h : takeWord cs = (word, rest))
    (hrest : Stops (!endsWord ·) rest) (hmore : Stops (!endsWord ·) more)
    (hclock : hasClockNext more = false) : takeWord (word ++ more) = (word, more) := by
  have hstart : ∀ c ∈ cs.takeWhile (!endsWord ·), (!endsWord c) = true :=
    fun c hc => List.mem_takeWhile_imp (p := (!endsWord ·)) hc
  unfold takeWord at h ⊢
  dsimp only at h ⊢
  generalize cs.takeWhile (!endsWord ·) = start at h hstart
  generalize cs.dropWhile (!endsWord ·) = behind at h
  -- A word of two parts is a date with its time, and both parts are found again.
  split at h
  · next hnext =>
    rw [Bool.and_eq_true] at hnext
    obtain ⟨tail, rfl⟩ := eq_cons_of_hasClockNext hnext.1
    obtain ⟨rfl, hdrop⟩ := Prod.mk.inj h
    rw [List.drop_one, List.tail_cons] at hdrop ⊢
    have htail := List.takeWhile_append_dropWhile (p := (!endsWord ·)) (l := tail)
    rw [hdrop] at htail
    have hwords : ∀ c ∈ tail.takeWhile (!endsWord ·), (!endsWord c) = true :=
      fun c hc => List.mem_takeWhile_imp (p := (!endsWord ·)) hc
    have hagain := hnext.1
    rw [← htail] at hagain
    generalize tail.takeWhile (!endsWord ·) = clock at hwords hagain ⊢
    have hspace : Stops (!endsWord ·) (' ' :: (clock ++ more)) := stops_cons.mpr rfl
    rw [List.append_assoc, List.cons_append, takeWhile_append_of_stops hstart hspace,
      dropWhile_append_of_stops hstart hspace, hasClockNext_append hwords hrest hagain, hnext.2]
    simp only [Bool.and_self, ↓reduceIte, List.drop_one, List.tail_cons]
    rw [takeWhile_append_of_stops hwords hmore, dropWhile_append_of_stops hwords hmore]
  · obtain ⟨rfl, -⟩ := Prod.mk.inj h
    rw [takeWhile_append_of_stops hstart hmore, dropWhile_append_of_stops hstart hmore, hclock]
    rfl

def Delimited (rest : List Char) : Prop :=
  Stops (!endsWord ·) (rest.dropWhile isLineBlank)

theorem Delimited.stops {rest : List Char} (h : Delimited rest) : Stops (!endsWord ·) rest := by
  cases rest with
  | nil => nofun
  | cons c rest =>
    rw [stops_cons, Bool.not_eq_false']
    cases hblank : isLineBlank c with
    | true => exact endsWord_of_isLineBlank hblank
    | false =>
      rw [Delimited, List.dropWhile_cons, hblank, if_neg Bool.false_ne_true, stops_cons,
        Bool.not_eq_false'] at h
      exact h

def standsByDate (c : Char) : Bool :=
  c == ' ' || !endsWord c

theorem time_of_takeWord {cs word rest : List Char} (h : takeWord cs = (word, rest)) :
    ∃ time, word = cs.takeWhile (!endsWord ·) ++ time ∧ cs.dropWhile (!endsWord ·) = time ++ rest ∧
      (∀ c ∈ time, standsByDate c = true) ∧
      (time = [] ∨ isDay (cs.takeWhile (!endsWord ·)) = true) := by
  unfold takeWord at h
  dsimp only at h
  split at h
  · next hnext =>
    rw [Bool.and_eq_true, Option.any_eq_true] at hnext
    obtain ⟨hclock, ⟨d, after⟩, hdate, hempty⟩ := hnext
    have hafter : after = [] := List.isEmpty_iff.mp hempty
    obtain ⟨tail, htail⟩ := eq_cons_of_hasClockNext hclock
    rw [htail, List.drop_one, List.tail_cons] at h
    obtain ⟨rfl, rfl⟩ := Prod.mk.inj h
    refine ⟨' ' :: tail.takeWhile (!endsWord ·), rfl, ?_, ?_, .inr (isDay_of_readDate? (hafter ▸ hdate))⟩
    · rw [htail, List.cons_append, List.takeWhile_append_dropWhile]
    · intro c hc
      rcases List.mem_cons.mp hc with rfl | hc
      · rfl
      · rw [standsByDate, List.mem_takeWhile_imp hc, Bool.or_true]
  · obtain ⟨rfl, rfl⟩ := Prod.mk.inj h
    exact ⟨[], (List.append_nil _).symm, rfl, List.forall_mem_nil _, .inl rfl⟩

theorem Delimited.takeWhile {rest : List Char} (h : Delimited rest) :
    ∀ c ∈ rest.takeWhile standsByDate, c = ' ' := by
  induction rest with
  | nil => exact List.forall_mem_nil _
  | cons c rest ih =>
    by_cases hspace : c = ' '
    · subst hspace
      intro d hd
      have hstands : standsByDate ' ' = true := rfl
      rw [List.takeWhile_cons, if_pos hstands] at hd
      rcases List.mem_cons.mp hd with rfl | hd
      · rfl
      · exact ih h d hd
    · have hends := stops_cons.mp h.stops
      have hstands : standsByDate c = false := by
        rw [standsByDate, hends, Bool.or_false]
        exact beq_false_of_ne hspace
      rw [List.takeWhile_cons, hstands]
      exact List.forall_mem_nil _

theorem Parted.dropped {cs more : List Char} (h : Parted cs more) {p : Char → Bool}
    (hp : p '\n' = false) : Parted (cs.dropWhile p) more := by
  have hall := List.takeWhile_append_dropWhile (p := p) (l := cs)
  by_cases hne : cs.dropWhile p = []
  · refine ⟨?_, by simp [hne]⟩
    exact (h.dropWhile_ne_nil hp).imp_right fun hdrop => absurd hne hdrop
  · rw [← hall] at h
    exact h.suffix _ hne

theorem trimmed_append (p : Char → Bool) (cs : List Char) :
    (cs.reverse.dropWhile p).reverse ++ (cs.reverse.takeWhile p).reverse = cs := by
  rw [← List.reverse_append, List.takeWhile_append_dropWhile, List.reverse_reverse]

theorem isInert_of_isBlank {c : Char} (h : Text.isBlank c = true) : IsInert c := by
  have hne (d : Char) (hd : Text.isBlank d = false) : c ≠ d := by
    rintro rfl
    rw [h] at hd
    cases hd
  intro depth
  simp [Mode.step, Mode.stepPlain, isQuote, hne '#' (by decide), hne '"' (by decide),
    hne '\x27' (by decide), hne '[' (by decide), hne '\x7b' (by decide), hne ']' (by decide),
    hne '\x7d' (by decide)]

theorem readBare?_day {word stands text gap left rest : List Char} (hday : isDay word = true)
    (h : (let time := (stands.reverse.dropWhile Text.isBlank).reverse
      let gap := stands.drop time.length
      if time.isEmpty || isDayTime (word ++ time) then some (word ++ time, gap, rest) else none) =
        some (text, gap, left)) :
    text ++ gap = word ++ stands ∧ left = rest ∧ (∀ c ∈ text ++ gap, IsInert c) ∧
      (gap = [] → stands.getLast? ≠ some ' ') := by
  have htrim := trimmed_append Text.isBlank stands
  generalize htime : (stands.reverse.dropWhile Text.isBlank).reverse = time at h htrim
  have hdrop : stands.drop time.length = (stands.reverse.takeWhile Text.isBlank).reverse := by
    conv => lhs; rw [← htrim]
    exact List.drop_left
  dsimp only at h
  rw [hdrop] at h
  split at h
  · next hfine =>
    cases h
    refine ⟨by rw [List.append_assoc, htrim], rfl, ?_, ?_⟩
    · intro c hc
      rcases List.mem_append.mp hc with hc | hc
      · have hinert : InertUpTo (word ++ time) [] := by
          rw [Bool.or_eq_true, List.isEmpty_iff] at hfine
          rcases hfine with rfl | hfine
          · rw [List.append_nil]
            exact .of_isDay hday
          · exact .of_isDayTime hfine
        obtain ⟨front, hfront, hall⟩ := hinert
        rw [List.append_nil] at hfront
        exact hall c (hfront ▸ hc)
      · exact isInert_of_isBlank (List.mem_takeWhile_imp (List.mem_reverse.mp hc))
    · intro hgap hlast
      obtain ⟨front, rfl⟩ := List.getLast?_eq_some_iff.mp hlast
      have hblank : Text.isBlank ' ' = true := rfl
      rw [List.reverse_append, List.reverse_singleton, List.singleton_append, List.takeWhile_cons,
        if_pos hblank] at hgap
      simp at hgap
  · cases h

theorem readBare?_agrees {cs word rest more text gap left : List Char}
    (hword : takeWord cs = (word, rest)) (hdelimited : Delimited rest) (hparted : Parted cs more)
    (hkept : readBare? (cs ++ more) = some (text, gap, left)) :
    ∃ spaces after, rest = spaces ++ after ∧ left = after ++ more ∧ text ++ gap = word ++ spaces ∧
      (∀ c ∈ spaces, c = ' ') ∧ (gap = [] → spaces = []) ∧
      (gap ≠ [] → ∀ c ∈ text ++ gap, IsInert c) := by
  obtain ⟨clock, rfl, hbehind, hstands, hclock⟩ := time_of_takeWord hword
  have hpart := hparted.dropped (p := (!endsWord ·)) (by decide)
  unfold readBare? at hkept
  dsimp only at hkept
  rw [hparted.takeWhile (by decide), hparted.dropWhile (by decide)] at hkept
  generalize cs.takeWhile (!endsWord ·) = start at hkept hclock ⊢
  rw [hbehind] at hkept hpart
  split at hkept
  · cases hkept
  split at hkept
  · next hday =>
    change (let time := (((clock ++ rest ++ more).takeWhile standsByDate).reverse.dropWhile Text.isBlank).reverse
      let gap := ((clock ++ rest ++ more).takeWhile standsByDate).drop time.length
      if time.isEmpty || isDayTime (start ++ time) then
        some (start ++ time, gap, (clock ++ rest ++ more).dropWhile standsByDate) else none) = _ at hkept
    rw [hpart.takeWhile (by decide), hpart.dropWhile (by decide), List.takeWhile_append_of_pos hstands,
      List.dropWhile_append_of_pos hstands] at hkept
    obtain ⟨hall, hleft, hinert, hlast⟩ := readBare?_day hday hkept
    refine ⟨rest.takeWhile standsByDate, rest.dropWhile standsByDate,
      List.takeWhile_append_dropWhile.symm, hleft, ?_, hdelimited.takeWhile, ?_, fun _ => hinert⟩
    · rw [hall, List.append_assoc]
    · intro hgap
      by_contra hne
      apply hlast hgap
      rw [List.getLast?_append, List.getLast?_eq_some_getLast hne,
        hdelimited.takeWhile _ (List.getLast_mem hne)]
      rfl
  · next hday =>
    -- Only a date goes on with a time, so here the word is its first part for both readers.
    obtain rfl : clock = [] := hclock.resolve_right hday
    rw [List.append_nil, List.nil_append] at *
    have hread : text = start ∧ gap = [] ∧ left = rest ++ more := by
      split at hkept
      · cases hkept
        exact ⟨rfl, rfl, rfl⟩
      · split at hkept
        · cases hkept
          exact ⟨rfl, rfl, rfl⟩
        · split at hkept
          · cases hkept
            exact ⟨rfl, rfl, rfl⟩
          · cases hkept
    obtain ⟨rfl, rfl, rfl⟩ := hread
    exact ⟨[], rest, rfl, rfl, rfl, List.forall_mem_nil _, fun _ => rfl, fun hne => absurd rfl hne⟩

end FormatSettings.Toml.Verbatim
