import FormatSettings.Proofs.Toml.StringBody
import FormatSettings.Proofs.Toml.Verbatim.Row

namespace FormatSettings.Toml

theorem isLineBlank_iff {c : Char} : isLineBlank c = true ↔ c = ' ' ∨ c = '\t' := by
  simp [isLineBlank]

theorem ne_of_isLineBlank {c d : Char} (hc : isLineBlank c = true) (hd : isLineBlank d = false) :
    c ≠ d := by
  rintro rfl
  rw [hc] at hd
  cases hd

def Blanks (cs : List Char) : Prop :=
  ∀ c ∈ cs, isLineBlank c = true

theorem Blanks.nil : Blanks [] :=
  List.forall_mem_nil _

theorem Blanks.dropWhile {front : List Char} (h : Blanks front) (cs : List Char) :
    (front ++ cs).dropWhile isLineBlank = cs.dropWhile isLineBlank :=
  List.dropWhile_append_of_pos h

theorem blanks_takeWhile (cs : List Char) : Blanks (cs.takeWhile isLineBlank) :=
  fun _ hc => List.mem_takeWhile_imp hc

theorem blanks_append_dropWhile (cs : List Char) :
    ∃ front, Blanks front ∧ cs = front ++ cs.dropWhile isLineBlank :=
  ⟨_, blanks_takeWhile cs, List.takeWhile_append_dropWhile.symm⟩

theorem blanks_of_spaces {cs : List Char} (h : ∀ c ∈ cs, c = ' ') : Blanks cs :=
  fun c hc => isLineBlank_iff.mpr (.inl (h c hc))

theorem Blanks.not_mem {cs : List Char} (h : Blanks cs) {c : Char} (hc : isLineBlank c = false) :
    c ∉ cs :=
  fun hmem => ne_of_isLineBlank (h c hmem) hc rfl

theorem Blanks.not_mem_of_isControl {cs : List Char} (h : Blanks cs) {c : Char}
    (hc : isControl c = true) : c ∉ cs := by
  refine h.not_mem ?_
  rw [Bool.eq_false_iff]
  intro hblank
  rcases isLineBlank_iff.mp hblank with rfl | rfl
  · exact absurd hc (by decide)
  · exact absurd hc (by decide)

theorem Blanks.isInert {cs : List Char} (h : Blanks cs) : ∀ c ∈ cs, IsInert c := by
  intro c hc depth
  rcases isLineBlank_iff.mp (h c hc) with rfl | rfl
  · rfl
  · rfl

def endsKey (c : Char) : Bool :=
  c == '.' || c == '=' || c == ']'

theorem endsKey_iff {c : Char} : endsKey c = true ↔ c = '.' ∨ c = '=' ∨ c = ']' := by
  simp [endsKey, or_assoc]

theorem isLineBlank_of_endsKey {c : Char} (h : endsKey c = true) : isLineBlank c = false := by
  rcases endsKey_iff.mp h with rfl | rfl | rfl
  · rfl
  · rfl
  · rfl

theorem isBareKeyChar_of_endsKey {c : Char} (h : endsKey c = true) : isBareKeyChar c = false := by
  rcases endsKey_iff.mp h with rfl | rfl | rfl
  · decide
  · decide
  · decide

inductive KeyCore : List Char → String → Prop
  | bare (w : Word) : KeyCore w.chars w.text
  | quoted {quote : Char} {body text : List Char} (hquote : isQuote quote = true)
      (hbody : StringBody quote body text) : KeyCore (quote :: body) (String.ofList text)

theorem isQuote_iff {c : Char} : isQuote c = true ↔ c = '"' ∨ c = '\x27' := by
  simp [isQuote]

theorem isControl_of_isQuote {c : Char} (h : isQuote c = true) : isControl c = false := by
  rcases isQuote_iff.mp h with rfl | rfl
  · decide
  · decide

theorem ne_of_startsKey {c d : Char} (h : isBareKeyChar c = true ∨ isQuote c = true)
    (hbare : isBareKeyChar d = false) (hquote : isQuote d = false) : c ≠ d := by
  rintro rfl
  rcases h with h | h
  · rw [hbare] at h
    cases h
  · rw [hquote] at h
    cases h

theorem isLineBlank_of_startsKey {c : Char} (h : isBareKeyChar c = true ∨ isQuote c = true) :
    isLineBlank c = false := by
  simp [isLineBlank, ne_of_startsKey h (d := ' ') rfl rfl, ne_of_startsKey h (d := '\t') rfl rfl]

theorem keyCore_of_readKey? {cs rest : List Char} {name : String}
    (h : readKey? cs = some (name, rest)) : ∃ core, cs = core ++ rest ∧ KeyCore core name := by
  unfold readKey? at h
  split at h
  · obtain ⟨⟨text, left⟩, hread, h⟩ := Option.map_eq_some_iff.mp h
    cases h
    obtain ⟨body, rfl, hbody⟩ := stringBody_of_readBasic? hread
    exact ⟨'"' :: body, rfl, .quoted rfl hbody⟩
  · obtain ⟨⟨text, left⟩, hread, h⟩ := Option.map_eq_some_iff.mp h
    cases h
    obtain ⟨body, rfl, hbody⟩ := stringBody_of_readLiteral? hread
    exact ⟨'\x27' :: body, rfl, .quoted rfl hbody⟩
  · dsimp only at h
    split at h
    · cases h
    · next hempty =>
      cases h
      have hbare : isBareKeyText (cs.takeWhile isBareKeyChar) = true :=
        isBareKeyText_iff.mpr ⟨by simpa using hempty, fun c hc => List.mem_takeWhile_imp hc⟩
      let w : Word := ⟨String.ofList (cs.takeWhile isBareKeyChar), by rwa [String.toList_ofList]⟩
      have hchars : w.chars = cs.takeWhile isBareKeyChar := String.toList_ofList
      refine ⟨w.chars, ?_, .bare w⟩
      rw [hchars, List.takeWhile_append_dropWhile]

namespace KeyCore

variable {core : List Char} {name : String}

theorem eq_cons (h : KeyCore core name) :
    ∃ c cs, core = c :: cs ∧ (isBareKeyChar c = true ∨ isQuote c = true) := by
  cases h with
  | bare w =>
    obtain ⟨c, cs, hchars, hc⟩ := w.chars_eq_cons
    exact ⟨c, cs, hchars, .inl hc⟩
  | quoted hquote _ => exact ⟨_, _, rfl, .inr hquote⟩

theorem dropWhile_blank (h : KeyCore core name) (rest : List Char) :
    (core ++ rest).dropWhile isLineBlank = core ++ rest := by
  obtain ⟨c, cs, rfl, hc⟩ := h.eq_cons
  rw [List.cons_append, List.dropWhile_cons, isLineBlank_of_startsKey hc]
  rfl

theorem readKey? (h : KeyCore core name) {rest : List Char} (hstop : Stops isBareKeyChar rest) :
    readKey? (core ++ rest) = some (name, rest) := by
  cases h with
  | bare w => exact readKey?_word w hstop
  | @quoted quote body text hquote hbody =>
    rcases isQuote_iff.mp hquote with rfl | rfl
    · have hfuel : body.length ≤ (body ++ rest).length + 1 := by
        rw [List.length_append]
        omega
      have hread := hbody.readBasic? hfuel rest
      rw [List.cons_append, Toml.readKey?, hread]
      rfl
    · rw [List.cons_append, Toml.readKey?, hbody.readLiteral? rest]
      rfl

theorem not_mem (h : KeyCore core name) {c : Char} (hc : isControl c = true) : c ∉ core := by
  cases h with
  | bare w =>
    intro hmem
    rw [isControl_of_isBareKeyChar (w.isBareKeyChar_of_mem hmem)] at hc
    cases hc
  | quoted hquote hbody =>
    intro hmem
    rcases List.mem_cons.mp hmem with rfl | hmem
    · rw [isControl_of_isQuote hquote] at hc
      cases hc
    · exact hbody.not_mem (isControl_of_isQuote hquote) hc hmem

theorem settled (h : KeyCore core name) (depth : Nat) :
    (core.foldl Mode.step (.plain depth)).Settled depth := by
  cases h with
  | bare w => exact .inl (foldl_step_word w depth)
  | quoted hquote hbody => exact hbody.settled hquote depth

end KeyCore

def Spells (text : List Char) (name : String) : Prop :=
  ∃ before core after, text = before ++ core ++ after ∧ Blanks before ∧ Blanks after ∧
    KeyCore core name

namespace Spells

variable {text : List Char} {name : String}

theorem of_core {core : List Char} (h : KeyCore core name) : Spells core name :=
  ⟨[], core, [], by simp, .nil, .nil, h⟩

theorem not_mem (h : Spells text name) {c : Char} (hc : isControl c = true) : c ∉ text := by
  obtain ⟨before, core, after, rfl, hbefore, hafter, hcore⟩ := h
  simp only [List.mem_append, not_or]
  exact ⟨⟨hbefore.not_mem_of_isControl hc, hcore.not_mem hc⟩, hafter.not_mem_of_isControl hc⟩

theorem settled (h : Spells text name) (depth : Nat) :
    (text.foldl Mode.step (.plain depth)).Settled depth := by
  obtain ⟨before, core, after, rfl, hbefore, hafter, hcore⟩ := h
  rw [List.foldl_append, List.foldl_append, foldl_step_of_inert hbefore.isInert]
  have hsettled := hcore.settled depth
  cases after with
  | nil => exact hsettled
  | cons c cs =>
    have hquote : isQuote c = false := by
      rcases isLineBlank_iff.mp (hafter c List.mem_cons_self) with rfl | rfl
      · rfl
      · rfl
    have hstep : Mode.stepPlain depth c = .plain depth := hafter.isInert c List.mem_cons_self depth
    rw [List.foldl_cons, hsettled.step hquote, hstep]
    exact .inl (foldl_step_of_inert (fun d hd => hafter.isInert d (List.mem_cons_of_mem _ hd)) depth)

theorem readKey? (h : Spells text name) {c : Char} (hc : endsKey c = true) (rest : List Char) :
    ∃ left, Toml.readKey? ((text ++ c :: rest).dropWhile isLineBlank) = some (name, left) ∧
      left.dropWhile isLineBlank = c :: rest := by
  obtain ⟨before, core, after, rfl, hbefore, hafter, hcore⟩ := h
  refine ⟨after ++ c :: rest, ?_, ?_⟩
  · have hstop : Stops isBareKeyChar (after ++ c :: rest) := by
      cases after with
      | nil => exact stops_cons.mpr (isBareKeyChar_of_endsKey hc)
      | cons d after =>
        rw [List.cons_append, stops_cons, Bool.eq_false_iff]
        intro hbare
        have hblank := hafter d List.mem_cons_self
        rw [isLineBlank_of_isBareKeyChar hbare] at hblank
        cases hblank
    rw [List.append_assoc, List.append_assoc, hbefore.dropWhile, hcore.dropWhile_blank,
      hcore.readKey? hstop]
  · rw [hafter.dropWhile, List.dropWhile_cons, isLineBlank_of_endsKey hc]
    rfl

end Spells

def pathChars (keys : List Verbatim.Key) : List Char :=
  List.intercalate ['.'] (keys.map (·.text))

theorem pathChars_singleton (key : Verbatim.Key) : pathChars [key] = key.text := by
  simp [pathChars]

theorem pathChars_cons (key : Verbatim.Key) {keys : List Verbatim.Key} (h : keys ≠ []) :
    pathChars (key :: keys) = key.text ++ '.' :: pathChars keys := by
  cases keys with
  | nil => exact absurd rfl h
  | cons next keys => simp [pathChars, List.intercalate_cons_cons]

theorem pathChars_append {keys : List Verbatim.Key} (h : keys ≠ []) (key : Verbatim.Key) :
    pathChars (keys ++ [key]) = pathChars keys ++ '.' :: key.text := by
  induction keys with
  | nil => exact absurd rfl h
  | cons first keys ih =>
    cases keys with
    | nil => simp [pathChars_cons, pathChars_singleton]
    | cons next keys =>
      rw [List.cons_append, pathChars_cons first (by simp), ih (List.cons_ne_nil _ _),
        pathChars_cons first (List.cons_ne_nil _ _), List.append_assoc, List.cons_append]

def AreSpelled (keys : List Verbatim.Key) : Prop :=
  ∀ key ∈ keys, Spells key.text key.name

namespace AreSpelled

variable {key : Verbatim.Key} {keys : List Verbatim.Key}

theorem not_mem (h : AreSpelled keys) {c : Char} (hc : isControl c = true) :
    c ∉ pathChars keys := by
  induction keys with
  | nil => exact List.not_mem_nil
  | cons key keys ih =>
    have hkey := (h key List.mem_cons_self).not_mem hc
    have hkeys := ih fun k hk => h k (List.mem_cons_of_mem _ hk)
    cases keys with
    | nil => rwa [pathChars_singleton]
    | cons next keys =>
      rw [pathChars_cons key (List.cons_ne_nil _ _), List.mem_append, List.mem_cons]
      rintro (hmem | heq | hmem)
      · exact hkey hmem
      · rw [heq] at hc
        exact absurd hc (by decide)
      · exact hkeys hmem

theorem settled (h : AreSpelled keys) (depth : Nat) :
    ((pathChars keys).foldl Mode.step (.plain depth)).Settled depth := by
  induction keys with
  | nil => exact .inl rfl
  | cons key keys ih =>
    have hkey := (h key List.mem_cons_self).settled depth
    have hkeys := ih fun k hk => h k (List.mem_cons_of_mem _ hk)
    cases keys with
    | nil => rwa [pathChars_singleton]
    | cons next keys =>
      have hdot : Mode.stepPlain depth '.' = .plain depth := rfl
      rw [pathChars_cons key (List.cons_ne_nil _ _), List.foldl_append, List.foldl_cons,
        hkey.step rfl, hdot]
      exact hkeys

theorem readPath? (h : AreSpelled keys) (hne : keys ≠ []) {c : Char} (hc : c = '=' ∨ c = ']')
    (rest : List Char) :
    readPath? keys.length ((pathChars keys ++ c :: rest).dropWhile isLineBlank) =
      some (keys.map (·.name), c :: rest) := by
  induction keys with
  | nil => exact absurd rfl hne
  | cons key keys ih =>
    have hkey := h key List.mem_cons_self
    have hends : endsKey c = true := endsKey_iff.mpr (.inr hc)
    cases keys with
    | nil =>
      obtain ⟨left, hread, hleft⟩ := hkey.readKey? hends rest
      rw [pathChars_singleton, List.length_singleton, Toml.readPath?, hread, Option.bind_some]
      simp only [hleft]
      rcases hc with rfl | rfl
      · rfl
      · rfl
    | cons next keys =>
      have hrest := ih (fun k hk => h k (List.mem_cons_of_mem _ hk)) (List.cons_ne_nil _ _)
      obtain ⟨left, hread, hleft⟩ :=
        hkey.readKey? (c := '.') rfl (pathChars (next :: keys) ++ c :: rest)
      rw [pathChars_cons key (List.cons_ne_nil _ _), List.append_assoc, List.cons_append,
        List.length_cons, Toml.readPath?, hread, Option.bind_some]
      simp only [hleft, hrest]
      rfl

end AreSpelled

def Takes (cs rest : List Char) : Prop :=
  ∃ core, core ≠ [] ∧ cs = core ++ rest

namespace Takes

variable {cs middle rest : List Char}

theorem length_lt (h : Takes cs rest) : rest.length < cs.length := by
  obtain ⟨core, hcore, rfl⟩ := h
  have hpos := List.length_pos_iff.mpr hcore
  rw [List.length_append]
  omega

theorem ne_nil (h : Takes cs rest) : cs ≠ [] :=
  List.length_pos_iff.mp (Nat.zero_lt_of_lt h.length_lt)

theorem suffix (h : Takes cs rest) : rest <:+ cs := by
  obtain ⟨core, -, rfl⟩ := h
  exact List.suffix_append core rest

theorem cons (c : Char) (h : rest <:+ cs) : Takes (c :: cs) rest := by
  obtain ⟨front, rfl⟩ := h
  exact ⟨c :: front, List.cons_ne_nil _ _, rfl⟩

theorem then_suffix (h : Takes cs middle) (hrest : rest <:+ middle) : Takes cs rest := by
  obtain ⟨core, hcore, rfl⟩ := h
  obtain ⟨front, rfl⟩ := hrest
  exact ⟨core ++ front, by simp [hcore], (List.append_assoc _ _ _).symm⟩

theorem of_suffix (h : Takes middle rest) (hmiddle : middle <:+ cs) : Takes cs rest := by
  obtain ⟨core, hcore, rfl⟩ := h
  obtain ⟨front, rfl⟩ := hmiddle
  exact ⟨front ++ core, by simp [hcore], (List.append_assoc _ _ _).symm⟩

end Takes

def TakesWithin (cs rest : List Char) : Prop :=
  ∃ c, c ≠ '\n' ∧ c :: rest <:+ cs

namespace TakesWithin

variable {cs middle rest : List Char}

theorem of_suffix (h : TakesWithin middle rest) (hmiddle : middle <:+ cs) : TakesWithin cs rest := by
  obtain ⟨c, hc, hsuffix⟩ := h
  exact ⟨c, hc, hsuffix.trans hmiddle⟩

theorem takes (h : TakesWithin cs rest) : Takes cs rest := by
  obtain ⟨c, -, front, rfl⟩ := h
  exact ⟨front ++ [c], by simp, by simp⟩

theorem cons {c : Char} (h : c :: rest <:+ cs) (hc : c ≠ '\n') : TakesWithin cs rest :=
  ⟨c, hc, h⟩

theorem of_append {core : List Char} (hcore : core ≠ []) (h : '\n' ∉ core) (rest : List Char) :
    TakesWithin (core ++ rest) rest := by
  refine .cons (c := core.getLast hcore) ?_ fun heq => h (heq ▸ List.getLast_mem hcore)
  refine ⟨core.dropLast, ?_⟩
  rw [← List.singleton_append, ← List.append_assoc, List.dropLast_concat_getLast hcore]

end TakesWithin

theorem takes_of_readKey? {cs rest : List Char} {name : String}
    (h : readKey? cs = some (name, rest)) : Takes cs rest := by
  obtain ⟨core, rfl, hcore⟩ := keyCore_of_readKey? h
  obtain ⟨c, core, rfl, -⟩ := hcore.eq_cons
  exact .cons c (List.suffix_append core rest)

theorem first_of_readPath? {fuel : Nat} {cs rest : List Char} {path : List String}
    (h : readPath? fuel cs = some (path, rest)) :
    ∃ c tail, cs = c :: tail ∧ (isBareKeyChar c = true ∨ isQuote c = true) := by
  cases fuel with
  | zero => cases h
  | succ fuel =>
    obtain ⟨⟨name, behind⟩, hkey, -⟩ := Option.bind_eq_some_iff.mp h
    obtain ⟨core, rfl, hcore⟩ := keyCore_of_readKey? hkey
    obtain ⟨c, tail, rfl, hc⟩ := hcore.eq_cons
    exact ⟨c, tail ++ behind, rfl, hc⟩

theorem takes_of_readPath? {fuel : Nat} {cs rest : List Char} {path : List String}
    (h : readPath? fuel cs = some (path, rest)) : Takes cs rest := by
  induction fuel generalizing cs path with
  | zero => cases h
  | succ fuel ih =>
    rw [readPath?] at h
    obtain ⟨⟨key, behind⟩, hkey, h⟩ := Option.bind_eq_some_iff.mp h
    have hbehind := (takes_of_readKey? hkey).then_suffix (List.dropWhile_suffix isLineBlank)
    dsimp only at h
    split at h
    · next tail hdot =>
      obtain ⟨⟨names, left⟩, hread, h⟩ := Option.map_eq_some_iff.mp h
      cases h
      rw [hdot] at hbehind
      have htail : tail.dropWhile isLineBlank <:+ '.' :: tail :=
        (List.dropWhile_suffix isLineBlank).trans (List.suffix_cons _ _)
      exact hbehind.then_suffix ((ih hread).suffix.trans htail)
    · cases h
      exact hbehind

theorem length_dropWhile_le (p : Char → Bool) (cs : List Char) :
    (cs.dropWhile p).length ≤ cs.length :=
  (List.dropWhile_suffix p).length_le

theorem readPath?_fuel {fuel more : Nat} {cs rest : List Char} {path : List String}
    (h : readPath? fuel cs = some (path, rest)) (hmore : cs.length ≤ more + rest.length) :
    readPath? more cs = some (path, rest) := by
  induction fuel generalizing more cs path with
  | zero => cases h
  | succ fuel ih =>
    have hlength := (takes_of_readPath? h).length_lt
    obtain ⟨more, rfl⟩ : ∃ n, more = n + 1 := ⟨more - 1, by omega⟩
    rw [readPath?] at h ⊢
    obtain ⟨⟨key, behind⟩, hkey, h⟩ := Option.bind_eq_some_iff.mp h
    have hbehind := (takes_of_readKey? hkey).length_lt
    have hdrop := length_dropWhile_le isLineBlank behind
    rw [hkey, Option.bind_some]
    dsimp only at h ⊢
    split at h
    · next tail hdot =>
      obtain ⟨⟨names, left⟩, hread, h⟩ := Option.map_eq_some_iff.mp h
      cases h
      have htail := length_dropWhile_le isLineBlank tail
      rw [hdot, List.length_cons] at hdrop
      rw [ih hread (by omega), Option.map_some]
    · exact h

end FormatSettings.Toml
