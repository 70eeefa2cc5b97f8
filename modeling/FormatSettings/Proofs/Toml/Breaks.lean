import FormatSettings.Toml.Nest
import Mathlib.Data.List.TakeWhile

namespace FormatSettings.Toml

theorem unifyBreaks_of_no_return {cs : List Char} (h : '\r' ∉ cs) : unifyBreaks cs = cs := by
  fun_induction unifyBreaks cs with
  | case1 rest ih => exact absurd List.mem_cons_self h
  | case2 c rest _ ih => rw [ih fun hmem => h (List.mem_cons_of_mem _ hmem)]
  | case3 => rfl

/-- Carriage returns stand only before line feeds. -/
def IsUnified (cs : List Char) : Prop :=
  '\r' ∉ unifyBreaks cs

theorem isUnified_of_no_return {cs : List Char} (h : '\r' ∉ cs) : IsUnified cs := by
  rw [IsUnified, unifyBreaks_of_no_return h]
  exact h

theorem unifyBreaks_append {cs : List Char} (h : IsUnified cs) (more : List Char) :
    unifyBreaks (cs ++ more) = unifyBreaks cs ++ unifyBreaks more := by
  unfold IsUnified at h
  fun_induction unifyBreaks cs with
  | case1 rest ih =>
    rw [List.cons_append, List.cons_append, unifyBreaks, ih fun hmem => h (List.mem_cons_of_mem _ hmem)]
    rfl
  | case2 c rest hpair ih =>
    have hc : c ≠ '\r' := fun heq => h (heq ▸ List.mem_cons_self)
    rw [List.cons_append, unifyBreaks, ih fun hmem => h (List.mem_cons_of_mem _ hmem)]
    · rfl
    · exact fun _ heq _ => hc heq
  | case3 => rfl

/-- A text and what it becomes with line feeds alone. -/
inductive Unifies : List Char → List Char → Prop
  | nil : Unifies [] []
  | pair {cs us : List Char} (h : Unifies cs us) : Unifies ('\r' :: '\n' :: cs) ('\n' :: us)
  | char {c : Char} {cs us : List Char} (hc : c ≠ '\r') (h : Unifies cs us) :
      Unifies (c :: cs) (c :: us)

theorem IsUnified.unifies {cs : List Char} (h : IsUnified cs) : Unifies cs (unifyBreaks cs) := by
  unfold IsUnified at h
  fun_induction unifyBreaks cs with
  | case1 rest ih => exact .pair (ih fun hmem => h (List.mem_cons_of_mem _ hmem))
  | case2 c rest _ ih =>
    exact .char (fun heq => h (heq ▸ List.mem_cons_self)) (ih fun hmem => h (List.mem_cons_of_mem _ hmem))
  | case3 => exact .nil

namespace Unifies

variable {cs us more : List Char}

theorem unifyBreaks (h : Unifies cs us) : unifyBreaks cs = us := by
  induction h with
  | nil => rfl
  | pair _ ih => rw [Toml.unifyBreaks, ih]
  | char hc _ ih =>
    rw [Toml.unifyBreaks, ih]
    exact fun _ heq _ => hc heq

theorem eq_nil (h : Unifies [] us) : us = [] := by
  cases h
  rfl

theorem eq_nil_left (h : Unifies cs []) : cs = [] := by
  cases h
  rfl

theorem noReturn (h : Unifies cs us) : '\r' ∉ us := by
  induction h with
  | nil => exact List.not_mem_nil
  | pair _ ih => exact List.not_mem_cons_of_ne_of_not_mem (by decide) ih
  | char hc _ ih => exact List.not_mem_cons_of_ne_of_not_mem hc.symm ih

theorem of_noReturn (h : '\r' ∉ cs) : Unifies cs cs := by
  induction cs with
  | nil => exact .nil
  | cons c cs ih =>
    exact .char (fun heq => h (heq ▸ List.mem_cons_self)) (ih fun hmem => h (List.mem_cons_of_mem _ hmem))

theorem length_le (h : Unifies cs us) : us.length ≤ cs.length := by
  induction h with
  | nil => exact Nat.le_refl _
  | pair _ ih => exact Nat.le_trans (Nat.succ_le_succ ih) (Nat.le_succ _)
  | char _ _ ih => exact Nat.succ_le_succ ih

theorem append (h : Unifies cs us) {vs : List Char} (hmore : Unifies more vs) :
    Unifies (cs ++ more) (us ++ vs) := by
  induction h with
  | nil => exact hmore
  | pair _ ih => exact .pair ih
  | char hc _ ih => exact .char hc ih

theorem of_append {front : List Char} (hfront : '\r' ∉ front) (h : Unifies (front ++ cs) us) :
    ∃ left, us = front ++ left ∧ Unifies cs left := by
  induction front generalizing us with
  | nil => exact ⟨us, rfl, h⟩
  | cons c front ih =>
    rw [List.cons_append] at h
    generalize hall : front ++ cs = tail at h
    cases h with
    | pair => exact absurd List.mem_cons_self hfront
    | char _ h =>
      subst hall
      obtain ⟨left, rfl, hleft⟩ := ih (fun hmem => hfront (List.mem_cons_of_mem _ hmem)) h
      exact ⟨left, rfl, hleft⟩

theorem of_cons {c : Char} (hc : c ≠ '\r') (h : Unifies (c :: cs) us) :
    ∃ left, us = c :: left ∧ Unifies cs left := by
  have hfront : '\r' ∉ [c] := by simpa using hc.symm
  exact of_append hfront h

theorem of_opened {c : Char} (hc : c ≠ '\n') (h : Unifies cs (c :: us)) :
    ∃ rest, cs = c :: rest ∧ Unifies rest us := by
  cases h with
  | pair => exact absurd rfl hc
  | char _ h => exact ⟨_, rfl, h⟩

theorem eq_of_no_break (h : Unifies cs us) (hbreak : '\n' ∉ us) : cs = us := by
  induction h with
  | nil => rfl
  | pair => exact absurd List.mem_cons_self hbreak
  | char _ _ ih => rw [ih fun hmem => hbreak (List.mem_cons_of_mem _ hmem)]

theorem mem_break_iff (h : Unifies cs us) : '\n' ∈ cs ↔ '\n' ∈ us := by
  induction h with
  | nil => exact Iff.rfl
  | pair => simp
  | char _ _ ih => rw [List.mem_cons, List.mem_cons, ih]

end Unifies

/-- A text and the text that it becomes, cut at the same place. -/
structure Cuts (cs us rest left : List Char) : Prop where
  front : ∃ front back, cs = front ++ rest ∧ us = back ++ left ∧ Unifies front back
  rest : Unifies rest left

namespace Cuts

variable {cs us rest left : List Char}

theorem refl (h : Unifies cs us) : Cuts cs us cs us :=
  ⟨⟨[], [], rfl, rfl, .nil⟩, h⟩

theorem trans (h : Cuts cs us rest left) {after behind : List Char} (hmore : Cuts rest left after behind) :
    Cuts cs us after behind := by
  obtain ⟨⟨front, back, rfl, rfl, hfront⟩, -⟩ := h
  obtain ⟨⟨next, last, rfl, rfl, hnext⟩, hrest⟩ := hmore
  exact ⟨⟨front ++ next, back ++ last, by simp, by simp, hfront.append hnext⟩, hrest⟩

theorem of_front {front : List Char} (hfront : '\r' ∉ front) (h : Unifies rest left) :
    Cuts (front ++ rest) (front ++ left) rest left :=
  ⟨⟨front, front, rfl, rfl, .of_noReturn hfront⟩, h⟩

theorem char {c : Char} (hc : c ≠ '\r') (h : Unifies rest left) :
    Cuts (c :: rest) (c :: left) rest left := by
  have hfront : '\r' ∉ [c] := by simpa using hc.symm
  exact of_front hfront h

theorem pair (h : Unifies rest left) : Cuts ('\r' :: '\n' :: rest) ('\n' :: left) rest left :=
  ⟨⟨['\r', '\n'], ['\n'], rfl, rfl, .pair .nil⟩, h⟩

theorem length_le (h : Cuts cs us rest left) : left.length ≤ us.length := by
  obtain ⟨⟨_, back, _, rfl, _⟩, -⟩ := h
  rw [List.length_append]
  exact Nat.le_add_left _ _

theorem dropWhile {p : Char → Bool} (hp : p '\r' = p '\n') (h : Unifies cs us) :
    Cuts cs us (cs.dropWhile p) (us.dropWhile p) ∧ Unifies (cs.takeWhile p) (us.takeWhile p) := by
  induction h with
  | nil => exact ⟨.refl .nil, .nil⟩
  | @pair cs us h ih =>
    cases hbreak : p '\n' with
    | true =>
      simp only [List.dropWhile_cons, List.takeWhile_cons, hp, hbreak, ↓reduceIte]
      exact ⟨(Cuts.pair h).trans ih.1, .pair ih.2⟩
    | false =>
      simp only [List.dropWhile_cons, List.takeWhile_cons, hp, hbreak, Bool.false_eq_true, ↓reduceIte]
      exact ⟨.refl (.pair h), .nil⟩
  | @char c cs us hc h ih =>
    cases hpass : p c with
    | true =>
      simp only [List.dropWhile_cons, List.takeWhile_cons, hpass, ↓reduceIte]
      exact ⟨(Cuts.char hc h).trans ih.1, .char hc ih.2⟩
    | false =>
      simp only [List.dropWhile_cons, List.takeWhile_cons, hpass, Bool.false_eq_true, ↓reduceIte]
      exact ⟨.refl (.char hc h), .nil⟩

theorem takeWhile {p : Char → Bool} (hreturn : p '\r' = false) (hbreak : p '\n' = false)
    (h : Unifies cs us) : cs.takeWhile p = us.takeWhile p := by
  refine (dropWhile (hreturn.trans hbreak.symm) h).2.eq_of_no_break fun hmem => ?_
  have hpass := List.mem_takeWhile_imp (p := p) hmem
  rw [hbreak] at hpass
  cases hpass

end Cuts

end FormatSettings.Toml
