import FormatSettings.Proofs.Toml.KeyText

namespace FormatSettings.Toml.Verbatim

theorem stops_of_endsKey {c : Char} (h : endsKey c = true) (rest : List Char) :
    Stops (fun d => isBareKeyChar d || isLineBlank d) (c :: rest) := by
  rw [stops_cons, isBareKeyChar_of_endsKey h, isLineBlank_of_endsKey h]
  rfl

theorem readKey?_quoted {quote : Char} (hquote : isQuote quote = true) {body text : List Char}
    (hbody : StringBody quote body text) {before after : List Char} (hbefore : Blanks before)
    (hafter : Blanks after) {c : Char} (hc : endsKey c = true) {rest left : List Char} {key : Key}
    (h : readKey? (before ++ quote :: body ++ after ++ c :: rest) = some (key, left)) :
    key = ⟨String.ofList text, before ++ quote :: body ++ after, [], false⟩ ∧ left = c :: rest := by
  have hfront : (before ++ quote :: body ++ after ++ c :: rest).dropWhile isLineBlank =
      quote :: (body ++ (after ++ c :: rest)) := by
    rw [List.append_assoc, List.append_assoc, hbefore.dropWhile,
      (KeyCore.quoted hquote hbody).dropWhile_blank, List.cons_append]
  have hback : (after ++ c :: rest).dropWhile isLineBlank = c :: rest := by
    rw [hafter.dropWhile, List.dropWhile_cons, isLineBlank_of_endsKey hc]
    rfl
  have htext := textBefore_append (before ++ quote :: body ++ after) (c :: rest)
  unfold readKey? at h
  rw [hfront] at h
  split at h
  · cases h
  · cases h
  · next heq =>
    cases heq
    rw [show (quote == '"' || quote == '\x27') = true from hquote, if_pos rfl] at h
    obtain ⟨read, hsome, h⟩ := Option.map_eq_some_iff.mp h
    rw [hbody.readText? (isControl_of_isQuote hquote) hsome] at h
    dsimp only at h
    rw [hback, htext] at h
    cases h
    exact ⟨rfl, rfl⟩
  · next heq => cases heq

theorem readKey?_core {core : List Char} {name : String} (hcore : KeyCore core name)
    {before after : List Char} (hbefore : Blanks before) (hafter : Blanks after) {c : Char}
    (hc : endsKey c = true) {rest left : List Char} {key : Key}
    (h : readKey? (before ++ core ++ after ++ c :: rest) = some (key, left)) :
    key = ⟨name, before ++ core ++ after, [], false⟩ ∧ left = c :: rest := by
  cases hcore with
  | bare w =>
    rw [readKey?_word w hbefore hafter (stops_of_endsKey hc rest)] at h
    cases h
    exact ⟨rfl, rfl⟩
  | quoted hquote hbody => exact readKey?_quoted hquote hbody hbefore hafter hc h

theorem readKey?_agrees {front cs behind tail more next : List Char} {name : String} {c : Char}
    {key : Key} (hfront : Blanks front) (h : Toml.readKey? cs = some (name, behind))
    (hbehind : behind.dropWhile isLineBlank = c :: tail) (hc : endsKey c = true)
    (hkept : readKey? (front ++ cs ++ more) = some (key, next)) :
    ∃ text, key = ⟨name, text, [], false⟩ ∧ Spells text name ∧ front ++ cs = text ++ c :: tail ∧
      next = c :: tail ++ more := by
  obtain ⟨core, rfl, hcore⟩ := keyCore_of_readKey? h
  obtain ⟨after, hafter, hall⟩ := blanks_append_dropWhile behind
  rw [hbehind] at hall
  have hline : front ++ (core ++ behind) = front ++ core ++ after ++ c :: tail := by
    rw [hall]
    simp
  rw [hline, List.append_assoc, List.cons_append] at hkept
  obtain ⟨rfl, rfl⟩ := readKey?_core hcore hfront hafter hc hkept
  exact ⟨_, rfl, ⟨front, core, after, rfl, hfront, hafter, hcore⟩, hline, rfl⟩

structure AreWritten (keys : List Key) : Prop where
  nonempty : keys ≠ []
  spelled : AreSpelled keys
  plain : ∀ key ∈ keys, key.separator = [] ∧ key.isDotted = false

theorem areWritten_cons {key : Key} {keys : List Key} (hspells : Spells key.text key.name)
    (hplain : key.separator = [] ∧ key.isDotted = false) (h : keys = [] ∨ AreWritten keys) :
    AreWritten (key :: keys) where
  nonempty := List.cons_ne_nil _ _
  spelled := by
    intro k hk
    rcases List.mem_cons.mp hk with rfl | hk
    · exact hspells
    · rcases h with rfl | h
      · cases hk
      · exact h.spelled k hk
  plain := by
    intro k hk
    rcases List.mem_cons.mp hk with rfl | hk
    · exact hplain
    · rcases h with rfl | h
      · cases hk
      · exact h.plain k hk

theorem readKeys?_path {fuel keptFuel : Nat} {cs front more rest left : List Char}
    {path : List String} {c : Char} {keys : List Key} (hfront : Blanks front)
    (h : readPath? fuel cs = some (path, c :: rest)) (hc : c = '=' ∨ c = ']')
    (hkept : readKeys? keptFuel (front ++ cs ++ more) = some (keys, left)) :
    AreWritten keys ∧ keys.map (·.name) = path ∧ front ++ cs = pathChars keys ++ c :: rest ∧
      left = c :: rest ++ more := by
  induction fuel generalizing keptFuel cs front path keys with
  | zero => cases h
  | succ fuel ih =>
    cases keptFuel with
    | zero => cases hkept
    | succ keptFuel =>
      rw [readPath?] at h
      rw [readKeys?] at hkept
      obtain ⟨⟨name, behind⟩, hkey, hpath⟩ := Option.bind_eq_some_iff.mp h
      obtain ⟨⟨key, next⟩, hread, hnext⟩ := Option.bind_eq_some_iff.mp hkept
      dsimp only at hpath hnext
      split at hpath
      · next tail hdot =>
        obtain ⟨text, rfl, hspells, hline, rfl⟩ := readKey?_agrees hfront hkey hdot rfl hread
        obtain ⟨⟨names, after⟩, hnames, heq⟩ := Option.map_eq_some_iff.mp hpath
        cases heq
        obtain ⟨⟨others, last⟩, hothers, heq⟩ := Option.map_eq_some_iff.mp hnext
        cases heq
        -- The blanks behind the dot stand before the next key.
        have htail := List.takeWhile_append_dropWhile (p := isLineBlank) (l := tail)
        rw [← htail] at hothers
        obtain ⟨hwritten, hnames, hchars, hleft⟩ := ih (blanks_takeWhile tail) hnames hothers
        rw [htail] at hchars
        refine ⟨areWritten_cons hspells ⟨rfl, rfl⟩ (.inr hwritten), by rw [List.map_cons, hnames], ?_,
          hleft⟩
        rw [hline, hchars, pathChars_cons _ hwritten.nonempty, List.append_assoc, List.cons_append]
      · obtain ⟨rfl, hrest⟩ := Prod.mk.inj (Option.some.inj hpath)
        obtain ⟨text, rfl, hspells, hline, rfl⟩ :=
          readKey?_agrees hfront hkey hrest (endsKey_iff.mpr (.inr hc)) hread
        have hsingle : (keys, left) = ([⟨name, text, [], false⟩], c :: rest ++ more) := by
          rcases hc with rfl | rfl
          · exact (Option.some.inj hnext).symm
          · exact (Option.some.inj hnext).symm
        cases hsingle
        refine ⟨areWritten_cons hspells ⟨rfl, rfl⟩ (.inl rfl), rfl, ?_, rfl⟩
        rw [hline, pathChars_singleton]

theorem isEscape_of_reads {e : List Char} {c : Char} (h : Toml.readEscape? e = some (c, [])) :
    IsEscape e c := by
  obtain ⟨e', heq, he⟩ := isEscape_of_readEscape? h
  rwa [heq, List.append_nil]

theorem readCode?_hex {c : Char} (h : c.toNat < 128) :
    readCode? 4 0 (Text.hex 4 c.toNat) = some (c, []) := by
  have hall : ∀ n < 128, readCode? 4 0 (Text.hex 4 n) = some (Char.ofNat n, []) := by decide +kernel
  rw [hall _ h, Char.ofNat_toNat]

theorem escapeInKey_cases (c : Char) :
    (∃ e, escapeInKey c = '\\' :: e ∧ IsEscape e c) ∨
      (escapeInKey c = [c] ∧ c ≠ '"' ∧ c ≠ '\\' ∧ isControl c = false) := by
  by_cases hletter : c ∈ ['"', '\\', '\x08', '\t', '\n', '\x0c', '\r']
  · left
    simp only [List.mem_cons, List.not_mem_nil, or_false] at hletter
    rcases hletter with rfl | rfl | rfl | rfl | rfl | rfl | rfl
    all_goals exact ⟨_, rfl, isEscape_of_reads rfl⟩
  · simp only [List.mem_cons, List.not_mem_nil, or_false, not_or] at hletter
    obtain ⟨hquote, hslash, hback, htab, hfeed, hform, hreturn⟩ := hletter
    by_cases hcode : c.toNat < 32 ∨ c.toNat = 127
    · left
      refine ⟨'u' :: Text.hex 4 c.toNat, ?_, isEscape_of_reads (readCode?_hex (by omega))⟩
      simp [escapeInKey, hquote, hslash, hback, htab, hfeed, hform, hreturn, hcode]
    · right
      have hcontrol : isControl c = false := by
        simp only [isControl, Bool.or_eq_false_iff, Bool.and_eq_false_iff, decide_eq_false_iff_not,
          beq_eq_false_iff_ne]
        exact ⟨.inl (by omega), by omega⟩
      refine ⟨?_, hquote, hslash, hcontrol⟩
      simp [escapeInKey, hquote, hslash, hback, htab, hfeed, hform, hreturn, hcode]

theorem stringBody_escaped (text : List Char) :
    StringBody '"' (text.flatMap escapeInKey ++ ['"']) text := by
  induction text with
  | nil => exact .close
  | cons c text ih =>
    rw [List.flatMap_cons, List.append_assoc]
    rcases escapeInKey_cases c with ⟨e, hescape, he⟩ | ⟨hescape, hquote, hslash, hcontrol⟩
    · rw [hescape]
      exact .escape rfl he ih
    · rw [hescape]
      exact .char hquote (fun _ => hslash) hcontrol ih

theorem spells_ofName (name : String) : Spells (Key.ofName name).text name := by
  cases hbare : isBareKeyText name.toList with
  | true =>
    have htext : (Key.ofName name).text = (⟨name, hbare⟩ : Word).chars := by
      simp [Key.ofName, hbare, Word.chars]
    rw [htext]
    exact .of_core (.bare ⟨name, hbare⟩)
  | false =>
    have htext : (Key.ofName name).text = '"' :: (name.toList.flatMap escapeInKey ++ ['"']) := by
      simp [Key.ofName, hbare]
    have hcore := KeyCore.quoted (isQuote_iff.mpr (.inl rfl)) (stringBody_escaped name.toList)
    rw [String.ofList_toList] at hcore
    rw [htext]
    exact .of_core hcore

end FormatSettings.Toml.Verbatim
