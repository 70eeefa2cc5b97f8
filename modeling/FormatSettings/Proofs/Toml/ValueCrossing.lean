import FormatSettings.Proofs.Toml.Crossing
import FormatSettings.Proofs.Toml.Verbatim.Words

namespace FormatSettings.Toml

open Verbatim

theorem of_mem_ungroup {p : Char → Bool} {cs digits : List Char} (h : Text.ungroup p cs = some digits) :
    ∀ c ∈ cs, p c = true ∨ c = '_' := by
  fun_induction Text.ungroup p cs generalizing digits with
  | case1 => cases h
  | case2 c hc =>
    intro d hd
    rw [List.mem_singleton.mp hd]
    exact .inl hc
  | case3 c hc more ih =>
    obtain ⟨_, hmore, -⟩ := Option.map_eq_some_iff.mp h
    intro d hd
    rcases List.mem_cons.mp hd with rfl | hd
    · exact .inl hc
    · rcases List.mem_cons.mp hd with rfl | hd
      · exact .inr rfl
      · exact ih hmore d hd
  | case4 c hc more _ _ ih =>
    obtain ⟨_, hmore, -⟩ := Option.map_eq_some_iff.mp h
    intro d hd
    rcases List.mem_cons.mp hd with rfl | hd
    · exact .inl hc
    · exact ih hmore d hd
  | case5 => cases h

def AreInert (cs : List Char) : Prop :=
  ∀ c ∈ cs, IsInert c

theorem areInert_nil : AreInert [] :=
  List.forall_mem_nil _

theorem areInert_cons {c : Char} {cs : List Char} (hc : IsInert c) (hcs : AreInert cs) :
    AreInert (c :: cs) :=
  List.forall_mem_cons.mpr ⟨hc, hcs⟩

theorem AreInert.append {cs more : List Char} (h : AreInert cs) (hmore : AreInert more) :
    AreInert (cs ++ more) :=
  fun c hc => (List.mem_append.mp hc).elim (h c) (hmore c)

theorem areInert_bare {cs : List Char} (h : ∀ c ∈ cs, isBareKeyChar c = true) : AreInert cs :=
  fun c hc => isInert_of_isBareKeyChar (h c hc)

theorem isBareKeyChar_of_digitOfBase {base : Nat} {c : Char} (h : digitOfBase base c = true) :
    isBareKeyChar c = true := by
  have hletter {low high : Char} (hlow : 'a' ≤ low ∧ high ≤ 'z' ∨ 'A' ≤ low ∧ high ≤ 'Z')
      (hc : low ≤ c ∧ c ≤ high) : isBareKeyChar c = true := by
    have hclass : c.isAlpha = (decide ('A'.val ≤ c.val ∧ c.val ≤ 'Z'.val) ||
      decide ('a'.val ≤ c.val) && decide (c.val ≤ 'z'.val)) := rfl
    have halpha : c.isAlpha = true := by
      simp only [Char.le_def, UInt32.le_iff_toNat_le] at hlow hc
      simp only [hclass, Bool.or_eq_true, Bool.and_eq_true, decide_eq_true_eq, UInt32.le_iff_toNat_le]
      rcases hlow with ⟨hlow, hhigh⟩ | ⟨hlow, hhigh⟩
      · exact .inr ⟨hlow.trans hc.1, hc.2.trans hhigh⟩
      · exact .inl ⟨hlow.trans hc.1, hc.2.trans hhigh⟩
    simp [isBareKeyChar, Char.isAlphanum, halpha]
  unfold digitOfBase at h
  split at h
  · simp only [Bool.or_eq_true, Bool.and_eq_true, decide_eq_true_eq] at h
    rcases h with (hdigit | hlow) | hhigh
    · exact isBareKeyChar_of_isDigit hdigit
    · exact hletter (.inl (by decide)) hlow
    · exact hletter (.inr (by decide)) hhigh
  · rw [Bool.and_eq_true] at h
    exact isBareKeyChar_of_isDigit h.1

theorem areInert_of_ungroup {p : Char → Bool} (hp : ∀ c, p c = true → isBareKeyChar c = true)
    {cs digits : List Char} (h : Text.ungroup p cs = some digits) : AreInert cs := by
  refine areInert_bare fun c hc => ?_
  rcases of_mem_ungroup h c hc with hdigit | rfl
  · exact hp c hdigit
  · decide

theorem areInert_of_readGrouped? {cs digits : List Char} (h : readGrouped? cs = some digits) :
    AreInert cs :=
  areInert_of_ungroup (fun _ => isBareKeyChar_of_isDigit) h

theorem areInert_of_readWhole? {cs digits : List Char} (h : readWhole? cs = some digits) :
    AreInert cs := by
  unfold readWhole? at h
  split at h
  · cases h
  · exact areInert_of_readGrouped? h

theorem areInert_of_splitSign {cs : List Char} (h : AreInert (splitSign cs).2) : AreInert cs := by
  unfold splitSign at h
  split at h
  · exact areInert_cons (fun _ => rfl) h
  · exact areInert_cons (fun _ => rfl) h
  · exact h

theorem areInert_of_readInt? {cs : List Char} {i : Int} (h : readInt? cs = some i) :
    AreInert cs := by
  have hbased {base : Nat} {c : Char} {rest : List Char} (hc : IsInert c)
      (h : readBaseInt? base rest = some i) : AreInert ('0' :: c :: rest) := by
    obtain ⟨digits, hdigits, -⟩ := Option.map_eq_some_iff.mp h
    exact areInert_cons (fun _ => rfl) (areInert_cons hc
      (areInert_of_ungroup (fun _ => isBareKeyChar_of_digitOfBase) hdigits))
  unfold readInt? at h
  split at h
  · exact hbased (fun _ => rfl) h
  · exact hbased (fun _ => rfl) h
  · exact hbased (fun _ => rfl) h
  · obtain ⟨digits, hdigits, -⟩ := Option.bind_eq_some_iff.mp h
    exact areInert_of_splitSign (areInert_of_readWhole? hdigits)

theorem areInert_of_readExponentPart? {cs e : List Char} (h : readExponentPart? cs = some e) :
    AreInert cs := by
  unfold readExponentPart? at h
  split at h
  · obtain ⟨digits, hdigits, -⟩ := Option.map_eq_some_iff.mp h
    exact areInert_cons (fun _ => rfl) (areInert_of_readGrouped? hdigits)
  · exact areInert_cons (fun _ => rfl) (areInert_of_readGrouped? h)
  · exact areInert_of_readGrouped? h

theorem isInert_of_isGroupedDigit {c : Char} (h : isGroupedDigit c = true) : IsInert c := by
  rw [isGroupedDigit, Bool.or_eq_true, beq_iff_eq] at h
  rcases h with hdigit | rfl
  · exact isInert_of_isBareKeyChar (isBareKeyChar_of_isDigit hdigit)
  · exact fun _ => rfl

theorem areInert_of_cleanFloat? {cs clean : List Char} (h : cleanFloat? cs = some clean) :
    AreInert cs := by
  have hdigits (cs : List Char) : AreInert (cs.takeWhile isGroupedDigit) :=
    fun c hc => isInert_of_isGroupedDigit (List.mem_takeWhile_imp hc)
  have hall (cs : List Char) := List.takeWhile_append_dropWhile (p := isGroupedDigit) (l := cs)
  have hexponent (front : List Char) {c : Char} {e clean : List Char}
      (h : (if c == 'e' || c == 'E' then (readExponentPart? e).map fun e => front ++ 'e' :: e else none) =
        some clean) : AreInert (c :: e) := by
    split at h
    · next hc =>
      obtain ⟨_, he, -⟩ := Option.map_eq_some_iff.mp h
      rw [Bool.or_eq_true, beq_iff_eq, beq_iff_eq] at hc
      refine areInert_cons ?_ (areInert_of_readExponentPart? he)
      rcases hc with rfl | rfl
      · exact fun _ => rfl
      · exact fun _ => rfl
    · cases h
  obtain ⟨whole, -, h⟩ := Option.bind_eq_some_iff.mp h
  rw [← hall cs]
  refine (hdigits cs).append ?_
  split at h
  · next more heq =>
    obtain ⟨fraction, -, h⟩ := Option.bind_eq_some_iff.mp h
    rw [heq]
    refine areInert_cons (fun _ => rfl) ?_
    rw [← hall more]
    refine (hdigits more).append ?_
    split at h
    · next heq =>
      rw [heq]
      exact areInert_nil
    · next heq =>
      rw [heq]
      exact hexponent (whole ++ '.' :: fraction) h
  · next heq =>
    rw [heq]
    exact hexponent whole h
  · next heq =>
    rw [heq]
    exact areInert_nil

theorem areInert_of_readFloat? {cs : List Char} {x : Binary64} (h : readFloat? cs = some x) :
    AreInert cs := by
  refine areInert_of_splitSign ?_
  unfold readFloat? at h
  dsimp only at h
  split at h
  · next hinf =>
    rw [beq_iff_eq.mp hinf]
    exact areInert_bare (List.all_eq_true.mp rfl)
  · split at h
    · next hnan =>
      rw [beq_iff_eq.mp hnan]
      exact areInert_bare (List.all_eq_true.mp rfl)
    · obtain ⟨clean, hclean, -⟩ := Option.bind_eq_some_iff.mp h
      exact areInert_of_cleanFloat? hclean

theorem inertUpTo_of_readDate? {cs rest : List Char} {d : Date} (h : readDate? cs = some (d, rest)) :
    InertUpTo cs rest := by
  simp only [readDate?, bind, Option.bind_eq_some_iff] at h
  obtain ⟨⟨year, a⟩, ha, b, hb, ⟨month, c⟩, hc, e, he, ⟨day, f⟩, hf, h⟩ := h
  split at h
  · cases h
    refine (InertUpTo.of_readDigits? ha).trans ((InertUpTo.of_skipChar? (fun _ => rfl) hb).trans ?_)
    refine (InertUpTo.of_readDigits? hc).trans ((InertUpTo.of_skipChar? (fun _ => rfl) he).trans ?_)
    exact .of_readDigits? hf
  · cases h

theorem inertUpTo_of_readClock? {cs rest : List Char} {t : Clock} (h : readClock? cs = some (t, rest)) :
    InertUpTo cs rest := by
  simp only [readClock?, bind, Option.bind_eq_some_iff] at h
  obtain ⟨⟨hour, a⟩, ha, b, hb, ⟨minute, c⟩, hc, e, he, ⟨second, f⟩, hf, ⟨micro, g⟩, hg, h⟩ := h
  split at h
  · cases h
    refine (InertUpTo.of_readDigits? ha).trans ((InertUpTo.of_skipChar? (fun _ => rfl) hb).trans ?_)
    refine (InertUpTo.of_readDigits? hc).trans ((InertUpTo.of_skipChar? (fun _ => rfl) he).trans ?_)
    exact (InertUpTo.of_readDigits? hf).trans (.of_readFraction? hg)
  · cases h

theorem areInert_of_inertUpTo {cs : List Char} (h : InertUpTo cs []) : AreInert cs := by
  obtain ⟨front, rfl, hfront⟩ := h
  rw [List.append_nil]
  exact hfront

theorem areInert_of_readMoment? {cs : List Char} {m : Moment} (h : readMoment? cs = some m) :
    AreInert cs := by
  unfold readMoment? at h
  split at h
  · next hdate => exact areInert_of_inertUpTo (inertUpTo_of_readDate? hdate)
  · next c rest hdate =>
    split at h
    · next hc =>
      simp only [bind, Option.bind_eq_some_iff] at h
      obtain ⟨⟨t, after⟩, hclock, offset, hoffset, -⟩ := h
      have hinert : IsInert c := by
        simp only [Bool.or_eq_true, beq_iff_eq] at hc
        rcases hc with (rfl | rfl) | rfl
        all_goals exact fun _ => rfl
      refine areInert_of_inertUpTo ((inertUpTo_of_readDate? hdate).trans ?_)
      exact (InertUpTo.cons hinert _).trans ((inertUpTo_of_readClock? hclock).trans (.of_readOffset? hoffset))
    · cases h
  · split at h
    · next hclock => exact areInert_of_inertUpTo (inertUpTo_of_readClock? hclock)
    · cases h

theorem areInert_of_readWord? {word : List Char} {v : Value} (h : readWord? word = some v) :
    AreInert word := by
  unfold readWord? at h
  split at h
  · next htrue =>
    rw [beq_iff_eq.mp htrue]
    exact areInert_bare (List.all_eq_true.mp rfl)
  · split at h
    · next hfalse =>
      rw [beq_iff_eq.mp hfalse]
      exact areInert_bare (List.all_eq_true.mp rfl)
    · split at h
      · next hint => exact areInert_of_readInt? hint
      · split at h
        · next hfloat => exact areInert_of_readFloat? hfloat
        · obtain ⟨m, hm, -⟩ := Option.map_eq_some_iff.mp h
          exact areInert_of_readMoment? hm

namespace Crosses

variable {mode : Mode} {depth inner : Nat} {cs middle rest : List Char}

theorem trans (h : Crosses mode inner cs middle)
    (hrest : ∀ next : Mode, next.Settled inner → Crosses next depth middle rest) :
    Crosses mode depth cs rest := by
  obtain ⟨body, next, rfl, hbody, hnext⟩ := h
  exact hbody.crosses (hrest next hnext)

theorem stay (h : mode.Settled depth) : Crosses mode depth cs cs :=
  ⟨[], mode, rfl, .nil, h⟩

theorem step {c : Char} (h : mode.Settled depth) (hc : isQuote c = false) (hbreak : c ≠ '\n')
    (hcs : Crosses (Mode.stepPlain depth c) inner cs rest) : Crosses mode inner (c :: cs) rest := by
  have hpass : Passes mode [c] (mode.step c) := .char (.inl hbreak)
  rw [h.step hc] at hpass
  exact hpass.crosses hcs

theorem blanks {front : List Char} (hfront : Blanks front)
    (hcs : Crosses (.plain depth) inner cs rest) : Crosses (.plain depth) inner (front ++ cs) rest := by
  have hpass : Passes (.plain depth) front _ := .foldl (hfront.not_mem (c := '\n') rfl)
  rw [foldl_step_of_inert hfront.isInert] at hpass
  exact hpass.crosses hcs

theorem plain (h : mode.Settled depth) {front : List Char} (hfront : Blanks front)
    (hcs : ∀ next : Mode, next.Settled depth → Crosses next inner cs rest) :
    Crosses mode inner (front ++ cs) rest := by
  cases front with
  | nil => exact hcs mode h
  | cons c front =>
    have hblank := hfront c List.mem_cons_self
    have hplain : Mode.stepPlain depth c = .plain depth := hfront.isInert c List.mem_cons_self depth
    refine step h ?_ (ne_of_isLineBlank hblank rfl) ?_
    · rcases isLineBlank_iff.mp hblank with rfl | rfl <;> rfl
    · rw [hplain]
      exact blanks (fun d hd => hfront d (List.mem_cons_of_mem _ hd)) (hcs _ (.inl rfl))

end Crosses

def Mode.Stands (inComment : Bool) (depth : Nat) (mode : Mode) : Prop :=
  if inComment then mode = .comment depth else mode.Settled depth

theorem Mode.Stands.ends {inComment : Bool} {depth : Nat} {mode : Mode}
    (h : mode.Stands inComment (depth + 1)) : mode.ends = false := by
  cases inComment with
  | false => exact Mode.Settled.ends h
  | true =>
    rw [show mode = .comment (depth + 1) from h]
    rfl

/-- From `cs` to `rest` stand blanks, breaks and comments, behind which nothing is left open. -/
def Fills (inComment : Bool) (depth : Nat) (mode : Mode) (cs rest : List Char) : Prop :=
  ∃ body next, cs = body ++ rest ∧ Passes mode body next ∧
    (next = .plain depth ∨ next = mode ∧ inComment = false)

namespace Fills

variable {inComment inner : Bool} {depth : Nat} {mode next : Mode} {cs rest : List Char}

theorem cons {c : Char} (hends : mode.ends = false) (hstep : mode.step c = next)
    (hnext : next = .plain depth ∨ inner = true) (h : Fills inner depth next cs rest) :
    Fills inComment depth mode (c :: cs) rest := by
  obtain ⟨body, last, rfl, hbody, hlast⟩ := h
  have hchar : Passes mode [c] (mode.step c) := .char (.inr hends)
  rw [hstep] at hchar
  refine ⟨c :: body, last, rfl, hchar.append hbody, .inl ?_⟩
  rcases hlast with hplain | ⟨rfl, rfl⟩
  · exact hplain
  · exact hnext.resolve_right Bool.false_ne_true

theorem plain (h : Fills false depth (.plain depth) cs rest) :
    ∃ body, cs = body ++ rest ∧ Passes (.plain depth) body (.plain depth) := by
  obtain ⟨body, next, hcs, hbody, rfl | ⟨rfl, -⟩⟩ := h
  · exact ⟨body, hcs, hbody⟩
  · exact ⟨body, hcs, hbody⟩

theorem crosses (h : Fills false depth mode cs rest) (hmode : mode.Settled depth) :
    Crosses mode depth cs rest := by
  obtain ⟨body, next, hcs, hbody, rfl | ⟨rfl, -⟩⟩ := h
  · exact ⟨body, _, hcs, hbody, .inl rfl⟩
  · exact ⟨body, _, hcs, hbody, hmode⟩

end Fills

theorem skipFiller?_on {inComment : Bool} {cs rest : List Char} {c : Char} {depth : Nat} {mode : Mode}
    (hmode : mode.Stands inComment (depth + 1)) (hreturn : '\r' ∉ cs)
    (h : skipFiller? inComment cs = some (c :: rest)) :
    Fills inComment (depth + 1) mode cs (c :: rest) ∧
      skipFiller? inComment (cs ++ ['\n']) = some (c :: rest ++ ['\n']) := by
  have hplain : Mode.Stands false (depth + 1) (.plain (depth + 1)) := .inl rfl
  have hcomment : Mode.Stands true (depth + 1) (.comment (depth + 1)) := rfl
  fun_induction skipFiller? inComment cs generalizing mode with
  | case1 => cases h
  | case2 inComment cs ih =>
    obtain ⟨hfills, hread⟩ := ih hplain
      (fun hmem => hreturn (List.mem_cons_of_mem _ hmem)) h
    refine ⟨hfills.cons hmode.ends ?_ (.inl rfl), by rw [List.cons_append, skipFiller?, hread]⟩
    cases inComment with
    | false => exact Mode.Settled.step hmode rfl
    | true =>
      rw [show mode = .comment (depth + 1) from hmode]
      rfl
  | case3 => exact absurd List.mem_cons_self hreturn
  | case4 => cases h
  | case5 d cs hbreak hpair hcontrol ih =>
    obtain ⟨hfills, hread⟩ := ih hcomment
      (fun hmem => hreturn (List.mem_cons_of_mem _ hmem)) h
    refine ⟨hfills.cons hmode.ends ?_ (.inr rfl), ?_⟩
    · have hne : (d == '\n') = false := beq_false_of_ne hbreak
      rw [show mode = .comment (depth + 1) from hmode, Mode.step, hne, if_neg Bool.false_ne_true]
    · rw [List.cons_append, skipFiller?, if_neg hcontrol, hread]
      · exact hbreak
      · exact fun _ heq _ => hreturn (heq ▸ List.mem_cons_self)
  | case6 d cs hbreak hpair hblank ih =>
    obtain ⟨hfills, hread⟩ := ih hplain
      (fun hmem => hreturn (List.mem_cons_of_mem _ hmem)) h
    have hblanks : Blanks [d] := fun x hx => List.mem_singleton.mp hx ▸ hblank
    refine ⟨hfills.cons hmode.ends ?_ (.inl rfl), ?_⟩
    · have hquote : isQuote d = false := by
        rcases isLineBlank_iff.mp hblank with rfl | rfl <;> rfl
      exact (Mode.Settled.step hmode hquote).trans (hblanks.isInert d List.mem_cons_self _)
    · rw [List.cons_append, skipFiller?, if_pos hblank, hread]
      · exact hbreak
      · exact fun _ heq _ => hreturn (heq ▸ List.mem_cons_self)
  | case7 d cs hbreak hpair hblank hcomment ih =>
    rw [beq_iff_eq] at hcomment
    subst hcomment
    obtain ⟨hfills, hread⟩ := ih hcomment
      (fun hmem => hreturn (List.mem_cons_of_mem _ hmem)) h
    refine ⟨hfills.cons hmode.ends (Mode.Settled.step hmode rfl) (.inr rfl), ?_⟩
    rw [List.cons_append, skipFiller?, hread]
    · rfl
    · exact fun heq => absurd heq (by decide)
    · exact fun _ heq _ => absurd heq (by decide)
  | case8 d cs hbreak hpair hblank hcomment =>
    cases h
    refine ⟨⟨[], mode, rfl, .nil, .inr ⟨rfl, rfl⟩⟩, ?_⟩
    rw [List.cons_append, skipFiller?, if_neg hblank, if_neg hcomment]
    · exact hbreak
    · exact fun _ heq _ => hreturn (heq ▸ List.mem_cons_self)

theorem stops_of_dropWhile {behind tail : List Char} {c : Char}
    (h : behind.dropWhile isLineBlank = c :: tail) (hc : isBareKeyChar c = false) (more : List Char) :
    Stops isBareKeyChar (behind ++ more) := by
  cases behind with
  | nil => cases h
  | cons d behind =>
    rw [List.cons_append, stops_cons]
    rw [List.dropWhile_cons] at h
    split at h
    · next hblank =>
      rw [Bool.eq_false_iff]
      intro hbare
      rw [isLineBlank_of_isBareKeyChar hbare] at hblank
      cases hblank
    · cases h
      exact hc

theorem readPath?_on {fuel : Nat} {cs after : List Char} {path : List String} (depth : Nat)
    (h : readPath? fuel cs = some (path, '=' :: after)) :
    Crosses (.plain depth) depth cs ('=' :: after) ∧
      readPath? fuel (cs ++ ['\n']) = some (path, '=' :: after ++ ['\n']) := by
  have hall (cs : List Char) := List.takeWhile_append_dropWhile (p := isLineBlank) (l := cs)
  have hbroken (cs : List Char) := (takeWhile_broken (p := isLineBlank) rfl cs).2
  induction fuel generalizing cs path with
  | zero => cases h
  | succ fuel ih =>
    rw [readPath?] at h ⊢
    obtain ⟨⟨key, behind⟩, hkey, hpath⟩ := Option.bind_eq_some_iff.mp h
    obtain ⟨core, rfl, hcore⟩ := keyCore_of_readKey? hkey
    have hbreak : '\n' ∉ core := hcore.not_mem (by decide)
    have hcross {rest : List Char} (hrest : ∀ next : Mode, next.Settled depth →
        Crosses next depth (behind.dropWhile isLineBlank) rest) :
        Crosses (.plain depth) depth (core ++ behind) rest := by
      have hblanks := Crosses.plain (hcore.settled depth) (blanks_takeWhile behind) hrest
      rw [hall] at hblanks
      exact (Passes.foldl hbreak).crosses hblanks
    dsimp only at hpath
    rw [List.append_assoc]
    split at hpath
    · next tail hdot =>
      obtain ⟨⟨names, left⟩, hread, heq⟩ := Option.map_eq_some_iff.mp hpath
      cases heq
      obtain ⟨htail, hmore⟩ := ih hread
      constructor
      · refine hcross fun next hnext => ?_
        rw [hdot]
        refine .step hnext rfl (by decide) ?_
        have hblanks := Crosses.blanks (blanks_takeWhile tail) htail
        rwa [hall] at hblanks
      · rw [hcore.readKey? (stops_of_dropWhile hdot (by decide) _), Option.bind_some]
        simp only [hbroken, hdot, List.cons_append, hmore, Option.map_some]
    · obtain ⟨rfl, hequals⟩ := Prod.mk.inj (Option.some.inj hpath)
      constructor
      · refine hcross fun next hnext => ?_
        rw [hequals]
        exact .stay hnext
      · rw [hcore.readKey? (stops_of_dropWhile hequals (by decide) _), Option.bind_some]
        simp only [hbroken, hequals]
        rfl

theorem hasClockNext_broken (cs : List Char) : hasClockNext (cs ++ ['\n']) = hasClockNext cs := by
  unfold hasClockNext
  split
  · next a b tail heq =>
    match cs, heq with
    | [], heq => cases heq
    | [_], heq => cases heq
    | [_, _], heq => cases heq
    | [_, _, _], heq => cases heq
    | _ :: _ :: _ :: _ :: _, heq =>
      cases heq
      rfl
  · next hnone =>
    split
    · next a b tail => exact absurd rfl (hnone a b (tail ++ ['\n']))
    · rfl

theorem takeWord_broken {cs word rest : List Char} (h : takeWord cs = (word, rest)) :
    takeWord (cs ++ ['\n']) = (word, rest ++ ['\n']) := by
  obtain ⟨htake, hdrop⟩ := takeWhile_broken (p := (!endsWord ·)) rfl cs
  unfold takeWord at h ⊢
  dsimp only at h ⊢
  rw [htake, hdrop, hasClockNext_broken]
  generalize cs.dropWhile (!endsWord ·) = behind at h ⊢
  split at h
  · next hnext =>
    rw [if_pos hnext]
    rw [Bool.and_eq_true] at hnext
    obtain ⟨tail, rfl⟩ := eq_cons_of_hasClockNext hnext.1
    obtain ⟨hbehind, hafter⟩ := takeWhile_broken (p := (!endsWord ·)) rfl tail
    simp only [List.drop_one, List.tail_cons, List.cons_append] at h ⊢
    rw [hbehind, hafter]
    cases h
    rfl
  · next hnext =>
    rw [if_neg hnext]
    cases h
    rfl

theorem ne_cons_of_broken {cs : List Char} {c : Char} (hc : c ≠ '\n') (h : ∀ tail, cs ≠ c :: tail)
    (tail : List Char) : cs ++ ['\n'] ≠ c :: tail := by
  intro heq
  cases cs with
  | nil => exact hc (List.cons.inj heq).1.symm
  | cons d cs => exact h cs (congrArg (· :: cs) (List.cons.inj heq).1)

mutual

theorem readValue?_on (fuel : Nat) {cs rest : List Char} {v : Value} (depth : Nat) (hreturn : '\r' ∉ cs)
    (h : readValue? fuel cs = some (v, rest)) :
    ReadsOn (readValue? fuel) (.plain depth) depth cs v rest := by
  match fuel, cs with
  | 0, _ => cases h
  | fuel + 1, [] => cases h
  | fuel + 1, c :: cs =>
    have hcs : '\r' ∉ cs := fun hmem => hreturn (List.mem_cons_of_mem _ hmem)
    have hall := List.takeWhile_append_dropWhile (p := isLineBlank) (l := cs)
    have hdrop := (takeWhile_broken (p := isLineBlank) rfl cs).2
    have hbody : '\r' ∉ cs.dropWhile isLineBlank := fun hmem =>
      hcs ((List.dropWhile_suffix isLineBlank).subset hmem)
    have hopen {inner : List Char} (hc : c = '[' ∨ c = '\x7b')
        (hinner : Crosses (.plain (depth + 1)) depth inner rest) :
        Crosses (.plain depth) depth (c :: inner) rest := by
      refine .step (.inl rfl) ?_ ?_ ?_
      all_goals rcases hc with rfl | rfl
      all_goals first | rfl | decide | exact hinner
    have hreads := readValue?_iff.mp h
    unfold ReadsOn
    rw [List.cons_append, readValue?_iff]
    clear h
    cases hreads with
    | string hquote h =>
      obtain ⟨hcross, hread⟩ := readString?_on depth hreturn h
      exact ⟨hcross, .string hquote hread⟩
    | list hc h =>
      obtain ⟨hcross, hread⟩ := readItems?_on fuel depth hcs h
      exact ⟨hopen (.inl hc) hcross, .list hc hread⟩
    | empty hc h =>
      rw [h] at hall hdrop
      refine ⟨hopen (.inr hc) ?_, .empty hc hdrop⟩
      rw [← hall]
      exact .blanks (blanks_takeWhile cs) (.step (.inl rfl) rfl (by decide) (.stay (.inl rfl)))
    | table hc hne h hv =>
      obtain ⟨hcross, hread⟩ := readPairs?_on fuel depth hbody h
      rw [← hdrop] at hread
      refine ⟨hopen (.inr hc) ?_, .table hc ?_ hread hv⟩
      · rw [← hall]
        exact .blanks (blanks_takeWhile cs) hcross
      · rw [hdrop]
        exact ne_cons_of_broken (by decide) hne
    | word hquote hc h hv =>
      refine ⟨?_, .word hquote hc (takeWord_broken h) hv⟩
      rw [← takeWord_append h]
      refine (Passes.foldl (not_mem_of_takeWord h)).crosses (.stay (.inl ?_))
      exact foldl_step_of_inert (areInert_of_readWord? hv) depth

theorem readItems?_on (fuel : Nat) {cs rest : List Char} {vs : List Value} (depth : Nat)
    (hreturn : '\r' ∉ cs) (h : readItems? fuel cs = some (vs, rest)) :
    ReadsOn (readItems? fuel) (.plain (depth + 1)) depth cs vs rest := by
  have hstart : Mode.Stands false (depth + 1) (.plain (depth + 1)) := .inl rfl
  have hclosed {next : Mode} (hnext : next.Settled (depth + 1)) : Crosses next depth (']' :: rest) rest :=
    .step hnext rfl (by decide) (.stay (.inl rfl))
  match fuel with
  | 0 => cases h
  | fuel + 1 =>
    have hreads := readItems?_iff.mp h
    unfold ReadsOn
    rw [readItems?_iff]
    clear h
    cases hreads with
    | done h =>
      obtain ⟨hfills, hread⟩ := skipFiller?_on hstart hreturn h
      exact ⟨(hfills.crosses (.inl rfl)).trans fun _ => hclosed, .done hread⟩
    | @last first behind _ v h hne hv hclose =>
      obtain ⟨c, tail, rfl, -, -⟩ := first_of_readValue? hv
      have hfirst : '\r' ∉ c :: tail := fun hmem => hreturn ((suffix_of_skipFiller? h).subset hmem)
      have hbehind : '\r' ∉ behind := fun hmem =>
        hfirst ((takesWithin_of_readValue? hv).takes.suffix.subset hmem)
      obtain ⟨hfills, hread⟩ := skipFiller?_on hstart hreturn h
      obtain ⟨hcross, hvalue⟩ := readValue?_on fuel (depth + 1) hfirst hv
      obtain ⟨body, rfl, hpass⟩ := hfills.plain
      refine ⟨hpass.crosses (hcross.trans fun next hnext => ?_), ?_⟩
      · obtain ⟨hfills, -⟩ := @skipFiller?_on false _ _ _ _ _ hnext hbehind hclose
        exact (hfills.crosses hnext).trans fun _ => hclosed
      · obtain ⟨-, hend⟩ := skipFiller?_on hstart hbehind hclose
        exact .last hread (ne_cons_of_broken (by decide) hne) hvalue hend
    | @more first behind after _ v vs h hne hv hcomma hvs =>
      obtain ⟨c, tail, rfl, -, -⟩ := first_of_readValue? hv
      have hfirst : '\r' ∉ c :: tail := fun hmem => hreturn ((suffix_of_skipFiller? h).subset hmem)
      have hbehind : '\r' ∉ behind := fun hmem =>
        hfirst ((takesWithin_of_readValue? hv).takes.suffix.subset hmem)
      have hafter : '\r' ∉ after := fun hmem =>
        hbehind ((suffix_of_skipFiller? hcomma).subset (List.mem_cons_of_mem _ hmem))
      obtain ⟨hfills, hread⟩ := skipFiller?_on hstart hreturn h
      obtain ⟨hcross, hvalue⟩ := readValue?_on fuel (depth + 1) hfirst hv
      obtain ⟨body, rfl, hpass⟩ := hfills.plain
      obtain ⟨hothers, hmore⟩ := readItems?_on fuel depth hafter hvs
      refine ⟨hpass.crosses (hcross.trans fun next hnext => ?_), ?_⟩
      · obtain ⟨hfills, -⟩ := @skipFiller?_on false _ _ _ _ _ hnext hbehind hcomma
        exact (hfills.crosses hnext).trans fun _ hlast => .step hlast rfl (by decide) hothers
      · obtain ⟨-, hend⟩ := skipFiller?_on hstart hbehind hcomma
        exact .more hread (ne_cons_of_broken (by decide) hne) hvalue hend hmore

theorem readPairs?_on (fuel : Nat) {cs rest : List Char} {pairs : List (List String × Value)}
    (depth : Nat) (hreturn : '\r' ∉ cs) (h : readPairs? fuel cs = some (pairs, rest)) :
    ReadsOn (readPairs? fuel) (.plain (depth + 1)) depth cs pairs rest := by
  have hall (cs : List Char) := List.takeWhile_append_dropWhile (p := isLineBlank) (l := cs)
  have hbroken (cs : List Char) := (takeWhile_broken (p := isLineBlank) rfl cs).2
  have hsub {cs : List Char} (h : '\r' ∉ cs) : '\r' ∉ cs.dropWhile isLineBlank := fun hmem =>
    h ((List.dropWhile_suffix isLineBlank).subset hmem)
  match fuel with
  | 0 => cases h
  | fuel + 1 =>
    -- A pair stands before the blanks that lead to a comma or to the end of the table.
    have hpair {path : List String} {after behind : List Char} {v : Value}
        (hpath : readPath? fuel cs = some (path, '=' :: after))
        (hv : readValue? fuel (after.dropWhile isLineBlank) = some (v, behind)) :
        '\r' ∉ behind ∧ readPath? fuel (cs ++ ['\n']) = some (path, '=' :: (after ++ ['\n'])) ∧
          readValue? fuel ((after ++ ['\n']).dropWhile isLineBlank) = some (v, behind ++ ['\n']) ∧
          ((∀ next : Mode, next.Settled (depth + 1) →
            Crosses next depth (behind.dropWhile isLineBlank) rest) →
            Crosses (.plain (depth + 1)) depth cs rest) := by
      obtain ⟨hcross, hread⟩ := readPath?_on (depth + 1) hpath
      have hafter : '\r' ∉ after := fun hmem => hreturn
        ((takes_of_readPath? hpath).suffix.subset (List.mem_cons_of_mem _ hmem))
      obtain ⟨hvalue, hagain⟩ := readValue?_on fuel (depth + 1) (hsub hafter) hv
      have hbehind : '\r' ∉ behind := fun hmem =>
        hsub hafter ((takesWithin_of_readValue? hv).takes.suffix.subset hmem)
      refine ⟨hbehind, hread, by rwa [hbroken], fun hrest => hcross.trans fun next hnext => ?_⟩
      refine .step hnext rfl (by decide) ?_
      rw [← hall after]
      refine .blanks (blanks_takeWhile after) (hvalue.trans fun last hlast => ?_)
      rw [← hall behind]
      exact .plain hlast (blanks_takeWhile behind) hrest
    have hreads := readPairs?_iff.mp h
    unfold ReadsOn
    rw [readPairs?_iff]
    clear h
    cases hreads with
    | @last path after behind _ v h hv hclose =>
      obtain ⟨-, hread, hvalue, hcross⟩ := hpair h hv
      refine ⟨hcross fun next hnext => ?_, .last hread hvalue (by rw [hbroken, hclose]; rfl)⟩
      rw [hclose]
      exact .step hnext rfl (by decide) (.stay (.inl rfl))
    | @more path after behind next _ v pairs h hv hcomma hpairs =>
      obtain ⟨hbehind, hread, hvalue, hcross⟩ := hpair h hv
      have hnext : '\r' ∉ next := fun hmem =>
        hsub hbehind (hcomma ▸ List.mem_cons_of_mem _ hmem)
      obtain ⟨hothers, hmore⟩ := readPairs?_on fuel depth (hsub hnext) hpairs
      rw [← hbroken] at hmore
      refine ⟨hcross fun last hlast => ?_, .more hread hvalue (by rw [hbroken, hcomma]; rfl) hmore⟩
      rw [hcomma]
      refine .step hlast rfl (by decide) ?_
      rw [← hall next]
      exact .blanks (blanks_takeWhile next) hothers

end

end FormatSettings.Toml
