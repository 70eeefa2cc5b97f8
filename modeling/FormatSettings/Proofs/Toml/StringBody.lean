import FormatSettings.Proofs.Toml.Row
import FormatSettings.Toml.Verbatim.Strings

namespace FormatSettings.Toml

theorem ne_of_hexValue? {c d : Char} (h : (hexValue? c).isSome = true)
    (hd : (hexValue? d).isSome = false) : c ≠ d := by
  rintro rfl
  rw [h] at hd
  cases hd

theorem isControl_of_hexValue? {c : Char} (h : (hexValue? c).isSome = true) :
    isControl c = false := by
  have hcode : 48 ≤ c.toNat ∧ c.toNat < 127 := by
    unfold hexValue? at h
    split at h
    · next hdigit =>
      simp only [Char.isDigit, Bool.and_eq_true, decide_eq_true_eq, UInt32.le_iff_toNat_le] at hdigit
      exact ⟨hdigit.1, Nat.lt_of_le_of_lt hdigit.2 (by decide)⟩
    · split at h
      · next hlow =>
        simp only [Bool.and_eq_true, decide_eq_true_eq, Char.le_def, UInt32.le_iff_toNat_le] at hlow
        exact ⟨Nat.le_trans (by decide) hlow.1, Nat.lt_of_le_of_lt hlow.2 (by decide)⟩
      · split at h
        · next hup =>
          simp only [Bool.and_eq_true, decide_eq_true_eq, Char.le_def, UInt32.le_iff_toNat_le] at hup
          exact ⟨Nat.le_trans (by decide) hup.1, Nat.lt_of_le_of_lt hup.2 (by decide)⟩
        · cases h
  simp only [isControl, Bool.or_eq_false_iff, Bool.and_eq_false_iff, decide_eq_false_iff_not,
    beq_eq_false_iff_ne]
  exact ⟨Or.inl (by omega), by omega⟩

structure IsEscape (e : List Char) (c : Char) : Prop where
  reads : ∀ rest, readEscape? (e ++ rest) = some (c, rest)
  keeps : ∀ rest, Verbatim.readEscape? (e ++ rest) = some (c, rest)
  nonempty : e ≠ []
  plain : ∀ d ∈ e.tail, d ≠ '"' ∧ d ≠ '\\'
  shown : ∀ d ∈ e, isControl d = false

theorem readCode?_eq (count code : Nat) (cs : List Char) :
    readCode? count code cs = (Verbatim.readHex? count code cs).bind fun (code, rest) =>
      if code.isValidChar then some (Char.ofNat code, rest) else none := by
  induction count generalizing code cs with
  | zero => rfl
  | succ count ih =>
    cases cs with
    | nil => rfl
    | cons c cs =>
      rw [readCode?, Verbatim.readHex?]
      cases hexValue? c with
      | none => rfl
      | some d => exact ih _ cs

theorem readHex?_digits {count code n : Nat} {cs rest : List Char}
    (h : Verbatim.readHex? count code cs = some (n, rest)) :
    ∃ digits, cs = digits ++ rest ∧ (∀ d ∈ digits, (hexValue? d).isSome = true) ∧
      ∀ more, Verbatim.readHex? count code (digits ++ more) = some (n, more) := by
  induction count generalizing code cs with
  | zero =>
    cases h
    exact ⟨[], rfl, List.forall_mem_nil _, fun _ => rfl⟩
  | succ count ih =>
    cases cs with
    | nil => cases h
    | cons c cs =>
      obtain ⟨d, hd, h⟩ := Option.bind_eq_some_iff.mp h
      obtain ⟨digits, rfl, hdigits, hmore⟩ := ih h
      refine ⟨c :: digits, rfl, ?_, ?_⟩
      · intro x hx
        rcases List.mem_cons.mp hx with rfl | hx
        · rw [hd]
          rfl
        · exact hdigits x hx
      · intro more
        rw [List.cons_append, Verbatim.readHex?, hd, Option.bind_some, hmore]

theorem isEscape_letter {e c : Char} (hshown : isControl e = false)
    (h : ∀ rest, readEscape? (e :: rest) = some (c, rest))
    (hkept : ∀ rest, Verbatim.readEscape? (e :: rest) = readEscape? (e :: rest)) :
    IsEscape [e] c where
  reads := h
  keeps := fun rest => (hkept rest).trans (h rest)
  nonempty := List.cons_ne_nil _ _
  plain := nofun
  shown := fun _ hd => (List.mem_singleton.mp hd).symm ▸ hshown

theorem isEscape_code {e c : Char} {count : Nat} {cs rest : List Char}
    (hshown : isControl e = false)
    (h : readCode? count 0 cs = some (c, rest))
    (hread : ∀ rest, readEscape? (e :: rest) = readCode? count 0 rest)
    (hkept : ∀ digits n, (∀ more, Verbatim.readHex? count 0 (digits ++ more) = some (n, more)) →
      n.isValidChar → ∀ more, Verbatim.readEscape? (e :: (digits ++ more)) =
        some (Char.ofNat n, more)) :
    ∃ digits, cs = digits ++ rest ∧ IsEscape (e :: digits) c := by
  rw [readCode?_eq] at h
  obtain ⟨⟨n, left⟩, hhex, hvalid⟩ := Option.bind_eq_some_iff.mp h
  obtain ⟨digits, rfl, hdigits, hmore⟩ := readHex?_digits hhex
  dsimp only at hvalid
  split at hvalid
  · next hn =>
    cases hvalid
    refine ⟨digits, rfl, ?_, hkept digits n hmore hn, List.cons_ne_nil _ _, ?_, ?_⟩
    · intro more
      rw [List.cons_append, hread, readCode?_eq, hmore, Option.bind_some]
      exact if_pos hn
    · intro d hd
      have hhex := hdigits d hd
      exact ⟨ne_of_hexValue? hhex (by decide), ne_of_hexValue? hhex (by decide)⟩
    · intro d hd
      rcases List.mem_cons.mp hd with rfl | hd
      · exact hshown
      · exact isControl_of_hexValue? (hdigits d hd)
  · cases hvalid

theorem isEscape_of_readEscape? {cs rest : List Char} {c : Char}
    (h : readEscape? cs = some (c, rest)) : ∃ e, cs = e ++ rest ∧ IsEscape e c := by
  unfold readEscape? at h
  split at h
  -- Two escapes have the digits of a code behind them; all others are a letter each.
  case h_8 more =>
    have hkept : ∀ digits n, (∀ more, Verbatim.readHex? 4 0 (digits ++ more) = some (n, more)) →
        n.isValidChar → ∀ more, Verbatim.readEscape? ('u' :: (digits ++ more)) =
          some (Char.ofNat n, more) := by
      intro digits n hhex hn more
      change readCode? 4 0 (digits ++ more) = _
      rw [readCode?_eq, hhex, Option.bind_some]
      exact if_pos hn
    obtain ⟨digits, rfl, he⟩ := isEscape_code (by decide) h (fun _ => rfl) hkept
    exact ⟨_, rfl, he⟩
  case h_9 more =>
    have hkept : ∀ digits n, (∀ more, Verbatim.readHex? 8 0 (digits ++ more) = some (n, more)) →
        n.isValidChar → ∀ more, Verbatim.readEscape? ('U' :: (digits ++ more)) =
          some (Char.ofNat n, more) := by
      intro digits n hhex hn more
      rw [Verbatim.readEscape?, hhex, Option.bind_some]
      exact if_pos hn
    obtain ⟨digits, rfl, he⟩ := isEscape_code (by decide) h (fun _ => rfl) hkept
    exact ⟨_, rfl, he⟩
  case h_10 => cases h
  all_goals
    cases h
    exact ⟨_, rfl, isEscape_letter (by decide) (fun _ => rfl) fun _ => rfl⟩

inductive StringBody (quote : Char) : List Char → List Char → Prop
  | close : StringBody quote [quote] []
  | escape {e body text : List Char} {c : Char} (hquote : quote = '"') (he : IsEscape e c)
      (hbody : StringBody quote body text) : StringBody quote ('\\' :: (e ++ body)) (c :: text)
  | char {c : Char} {body text : List Char} (hquote : c ≠ quote) (hslash : quote = '"' → c ≠ '\\')
      (hcontrol : isControl c = false) (hbody : StringBody quote body text) :
      StringBody quote (c :: body) (c :: text)

theorem stringBody_of_readBasic? {fuel : Nat} {cs text rest : List Char}
    (h : readBasic? fuel cs = some (text, rest)) :
    ∃ body, cs = body ++ rest ∧ StringBody '"' body text := by
  induction fuel generalizing cs text with
  | zero =>
    simp [readBasic?] at h
  | succ fuel ih =>
    unfold readBasic? at h
    split at h
    · cases h
      exact ⟨['"'], rfl, .close⟩
    · next heq =>
      cases heq
      obtain ⟨⟨c, more⟩, hescape, h⟩ := Option.bind_eq_some_iff.mp h
      obtain ⟨⟨tail, left⟩, htail, h⟩ := Option.map_eq_some_iff.mp h
      cases h
      obtain ⟨e, rfl, he⟩ := isEscape_of_readEscape? hescape
      obtain ⟨body, rfl, hbody⟩ := ih htail
      exact ⟨'\\' :: (e ++ body), by simp, .escape rfl he hbody⟩
    · next c more hquote hslash heq =>
      cases heq
      split at h
      · cases h
      · next hcontrol =>
        obtain ⟨⟨tail, left⟩, htail, h⟩ := Option.map_eq_some_iff.mp h
        cases h
        obtain ⟨body, rfl, hbody⟩ := ih htail
        refine ⟨c :: body, rfl, .char ?_ ?_ (by simpa using hcontrol) hbody⟩
        · rintro rfl
          exact hquote rfl
        · rintro - rfl
          exact hslash rfl
    · cases h

theorem stringBody_of_readLiteral? {cs text rest : List Char}
    (h : readLiteral? cs = some (text, rest)) :
    ∃ body, cs = body ++ rest ∧ StringBody '\x27' body text := by
  induction cs generalizing text with
  | nil => cases h
  | cons c cs ih =>
    rw [readLiteral?] at h
    by_cases hquote : c = '\x27'
    · rw [if_pos (beq_iff_eq.mpr hquote)] at h
      cases h
      exact ⟨[c], rfl, hquote ▸ .close⟩
    · rw [if_neg (by simpa using hquote)] at h
      split at h
      · cases h
      · next hcontrol =>
        obtain ⟨⟨tail, left⟩, htail, h⟩ := Option.map_eq_some_iff.mp h
        cases h
        obtain ⟨body, rfl, hbody⟩ := ih htail
        exact ⟨c :: body, rfl, .char hquote nofun (by simpa using hcontrol) hbody⟩

namespace StringBody

theorem readBasic? {body text : List Char} (h : StringBody '"' body text) {fuel : Nat}
    (hfuel : body.length ≤ fuel) (rest : List Char) :
    readBasic? fuel (body ++ rest) = some (text, rest) := by
  induction h generalizing fuel with
  | close =>
    obtain ⟨fuel, rfl⟩ : ∃ n, fuel = n + 1 := ⟨fuel - 1, by simp at hfuel; omega⟩
    rfl
  | @escape e body text c _ he _ ih =>
    obtain ⟨fuel, rfl⟩ : ∃ n, fuel = n + 1 := ⟨fuel - 1, by simp at hfuel; omega⟩
    have hbody : body.length ≤ fuel := by
      simp only [List.length_cons, List.length_append] at hfuel
      omega
    have hread := he.reads (body ++ rest)
    rw [List.cons_append, List.append_assoc, Toml.readBasic?, hread, Option.bind_some]
    simp only [ih hbody]
    rfl
  | @char c body text hquote hslash hcontrol _ ih =>
    obtain ⟨fuel, rfl⟩ : ∃ n, fuel = n + 1 := ⟨fuel - 1, by simp at hfuel; omega⟩
    rw [List.cons_append, Toml.readBasic?, hcontrol, if_neg Bool.false_ne_true,
      ih (by simpa using hfuel)]
    · rfl
    · exact hquote
    · exact hslash rfl

theorem readLiteral? {body text : List Char} (h : StringBody '\x27' body text)
    (rest : List Char) : readLiteral? (body ++ rest) = some (text, rest) := by
  induction h with
  | close => rfl
  | escape hquote => cases hquote
  | @char c body text hquote _ hcontrol _ ih =>
    rw [List.cons_append, Toml.readLiteral?, if_neg (by simpa using hquote), hcontrol,
      if_neg Bool.false_ne_true, ih]
    rfl

theorem readText? {quote : Char} {body text : List Char} (h : StringBody quote body text)
    (hquote : isControl quote = false) {fuel : Nat} {rest : List Char}
    {read : List Char × List Char} (hread : Verbatim.readText? quote fuel (body ++ rest) = some read) :
    read = (text, rest) := by
  -- The fuel may run out at each character, so it is split in every case.
  induction h generalizing fuel read with
  | close =>
    cases fuel with
    | zero => cases hread
    | succ fuel =>
      rw [List.singleton_append, Verbatim.readText?, beq_self_eq_true, if_pos rfl] at hread
      cases hread
      rfl
  | @escape e body text c hdouble he _ ih =>
    subst hdouble
    cases fuel with
    | zero => cases hread
    | succ fuel =>
      rw [List.cons_append, List.append_assoc, Verbatim.readText?, if_neg (by decide),
        if_neg (by decide), if_pos (by decide), he.keeps, Option.bind_some] at hread
      obtain ⟨tail, htail, rfl⟩ := Option.map_eq_some_iff.mp hread
      rw [ih htail]
  | @char c body text hne hslash hcontrol _ ih =>
    cases fuel with
    | zero => cases hread
    | succ fuel =>
      have hescape : ¬ (c == '\\' && quote == '"') = true := by
        simp only [Bool.and_eq_true, beq_iff_eq, not_and]
        intro hc hdouble
        exact hslash hdouble hc
      rw [List.cons_append, Verbatim.readText?, if_neg (by simpa using hne), hcontrol,
        if_neg Bool.false_ne_true, if_neg hescape] at hread
      obtain ⟨tail, htail, rfl⟩ := Option.map_eq_some_iff.mp hread
      rw [ih htail]

theorem not_mem {quote : Char} {body text : List Char} (h : StringBody quote body text)
    (hquote : isControl quote = false) {c : Char} (hc : isControl c = true) : c ∉ body := by
  have hne {d : Char} (hd : isControl d = false) : c ≠ d := by
    rintro rfl
    rw [hc] at hd
    cases hd
  induction h with
  | close => exact fun hmem => hne hquote (List.mem_singleton.mp hmem)
  | escape _ he _ ih =>
    intro hmem
    rcases List.mem_cons.mp hmem with heq | hmem
    · exact hne (by decide) heq
    · rcases List.mem_append.mp hmem with hmem | hmem
      · exact hne (he.shown c hmem) rfl
      · exact ih hmem
  | char _ _ hcontrol _ ih =>
    intro hmem
    rcases List.mem_cons.mp hmem with heq | hmem
    · exact hne hcontrol heq
    · exact ih hmem

end StringBody

theorem foldl_step_quoted_plain {cs : List Char} (h : ∀ d ∈ cs, d ≠ '"' ∧ d ≠ '\\')
    (depth : Nat) :
    cs.foldl Mode.step (.single '"' depth false) = .single '"' depth false := by
  induction cs with
  | nil => rfl
  | cons d cs ih =>
    obtain ⟨hquote, hslash⟩ := h d List.mem_cons_self
    have hstep : Mode.step (.single '"' depth false) d = .single '"' depth false := by
      simp [Mode.step, Mode.stepSingle, hquote, hslash]
    rw [List.foldl_cons, hstep]
    exact ih fun x hx => h x (List.mem_cons_of_mem _ hx)

theorem foldl_step_escape {e : List Char} {c : Char} (he : IsEscape e c) (depth : Nat) :
    e.foldl Mode.step (.single '"' depth true) = .single '"' depth false := by
  cases e with
  | nil => exact absurd rfl he.nonempty
  | cons d cs => exact foldl_step_quoted_plain he.plain depth

theorem StringBody.foldl_step {quote : Char} {body text : List Char}
    (h : StringBody quote body text) (depth : Nat) :
    body.foldl Mode.step (.single quote depth false) = .plain depth := by
  induction h with
  | close =>
    have hstep : Mode.step (.single quote depth false) quote = .plain depth := by
      simp [Mode.step, Mode.stepSingle]
    rw [List.foldl_cons, hstep, List.foldl_nil]
  | escape hdouble he _ ih =>
    subst hdouble
    have hstep : Mode.step (.single '"' depth false) '\\' = .single '"' depth true := rfl
    rw [List.foldl_cons, hstep, List.foldl_append, foldl_step_escape he, ih]
  | @char c _ _ hne hslash _ _ ih =>
    have hstep : Mode.step (.single quote depth false) c = .single quote depth false := by
      have hescape : (quote == '"' && c == '\\') = false := by
        rw [Bool.and_eq_false_imp, beq_iff_eq]
        intro hdouble
        exact beq_false_of_ne (hslash hdouble)
      simp [Mode.step, Mode.stepSingle, hne, hescape]
    rw [List.foldl_cons, hstep, ih]

/-- A mode in which all strings are closed, although more quotes could still belong to the last one. -/
def Mode.Settled (depth : Nat) (mode : Mode) : Prop :=
  mode = .plain depth ∨ ∃ quote, isQuote quote = true ∧
    (mode = .twice quote depth ∨ ∃ more, mode = .closed quote depth more)

theorem Mode.Settled.step {depth : Nat} {mode : Mode} (h : mode.Settled depth) {c : Char}
    (hc : isQuote c = false) : mode.step c = stepPlain depth c := by
  rcases h with rfl | ⟨quote, hquote, h⟩
  · rfl
  · have hne : c ≠ quote := by
      rintro rfl
      rw [hc] at hquote
      cases hquote
    rcases h with rfl | ⟨more, rfl⟩
    · simp [Mode.step, hne]
    · simp [Mode.step, hne]

theorem Mode.Settled.ends {depth : Nat} {mode : Mode} (h : mode.Settled depth) :
    mode.ends = (depth == 0) := by
  rcases h with rfl | ⟨quote, -, rfl | ⟨more, rfl⟩⟩ <;> rfl

theorem StringBody.settled {quote : Char} (hquote : isQuote quote = true) {body text : List Char}
    (h : StringBody quote body text) (depth : Nat) :
    ((quote :: body).foldl Mode.step (.plain depth)).Settled depth := by
  have hcomment : quote ≠ '#' := by
    rintro rfl
    cases hquote
  have hopen : Mode.step (.plain depth) quote = .opened quote depth := by
    simp [Mode.step, Mode.stepPlain, hcomment, hquote]
  have hsingle (c : Char) (hne : c ≠ quote) :
      Mode.step (.opened quote depth) c = Mode.step (.single quote depth false) c := by
    simp [Mode.step, hne]
  rw [List.foldl_cons, hopen]
  -- An empty string leaves open whether a third quote follows; any other is closed.
  cases h with
  | close =>
    right
    refine ⟨quote, hquote, .inl ?_⟩
    simp [Mode.step]
  | escape hdouble he hbody =>
    left
    have hne : '\\' ≠ quote := by
      rw [hdouble]
      decide
    rw [List.foldl_cons, hsingle _ hne, ← List.foldl_cons]
    exact (StringBody.escape hdouble he hbody).foldl_step depth
  | char hne hslash hcontrol hbody =>
    left
    rw [List.foldl_cons, hsingle _ hne, ← List.foldl_cons]
    exact (StringBody.char hne hslash hcontrol hbody).foldl_step depth

end FormatSettings.Toml
