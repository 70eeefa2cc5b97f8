import FormatSettings.Proofs.Report
import FormatSettings.Toml.Render

namespace FormatSettings.Toml

theorem failsOnly_joinPair {parts : List (List Char)} (part next : List Char)
    (h : ∀ part, FailsOnly (¬ ·.IsRefusal) (joinEscapes part parts)) :
    FailsOnly (¬ ·.IsRefusal) (joinEscapes.joinPair part next parts) := by
  rw [joinEscapes.joinPair]
  split
  · exact .error nofun
  · exact h _

theorem failsOnly_joinEscapes (parts : List (List Char)) (part : List Char) :
    FailsOnly (¬ ·.IsRefusal) (joinEscapes part parts) := by
  match parts, part with
  | [], part =>
    rw [joinEscapes]
    exact .ok _
  | [next], [] =>
    rw [joinEscapes]
    exact .error (by rintro ⟨⟩)
  | part :: next :: parts, [] =>
    rw [joinEscapes]
    exact failsOnly_joinPair _ _ (failsOnly_joinEscapes parts)
  | next :: parts, c :: cs =>
    rw [joinEscapes]
    · exact failsOnly_joinPair _ _ (failsOnly_joinEscapes parts)
    · exact fun hnil => absurd hnil (List.cons_ne_nil _ _)
    · exact fun _ _ hnil => absurd hnil (List.cons_ne_nil _ _)

theorem failsOnly_writeEscaped (cs : List Char) : FailsOnly (¬ ·.IsRefusal) (writeEscaped cs) :=
  .map (failsOnly_joinEscapes _ _)

theorem failsOnly_writeKey (key : String) : FailsOnly (¬ ·.IsRefusal) (writeKey key) := by
  rw [writeKey]
  generalize (if key.toList.getLast? == some '\n' then key.toList.dropLast else key.toList) = body
  cases isBareKeyText body with
  | true => exact .ok _
  | false => exact failsOnly_writeEscaped _

theorem failsOnly_writeInt (i : Int) : FailsOnly (¬ ·.IsRefusal) (writeInt i) := by
  unfold writeInt
  split
  · exact .ok _
  · exact .error nofun

theorem failsOnly_writeTexts (texts : List String) :
    FailsOnly (¬ ·.IsRefusal) (writeTexts texts) := by
  refine .map ?_
  induction texts with
  | nil => exact .ok _
  | cons s texts ih =>
    rw [List.mapM_cons]
    exact .bind (failsOnly_writeEscaped _) fun _ _ => .bind ih fun _ _ => .ok _

mutual

theorem failsOnly_writeValue (v : Value) : FailsOnly (¬ ·.IsRefusal) (writeValue v) := by
  cases v with
  | bool b => rw [writeValue]; exact .ok _
  | int i => rw [writeValue]; exact failsOnly_writeInt i
  | float x => rw [writeValue]; exact .ok _
  | text s => rw [writeValue]; exact failsOnly_writeEscaped _
  | moment m => rw [writeValue]; exact .ok _
  | list vs => rw [writeValue]; exact .map (failsOnly_writeItems vs)
  | tuple vs => rw [writeValue]; exact .map (failsOnly_writeItems vs)
  | set _ vs => rw [writeValue]; exact .map (failsOnly_writeItems vs)
  | table entries => rw [writeValue]; exact failsOnly_writeTexts _
  | fix f => rw [writeValue]; exact failsOnly_writeTexts _
  | lineEnding e => rw [writeValue]; exact failsOnly_writeTexts _
  | _ => rw [writeValue]; exact failsOnly_writeEscaped _

theorem failsOnly_writeItems (vs : List Value) : FailsOnly (¬ ·.IsRefusal) (writeItems vs) := by
  cases vs with
  | nil =>
    rw [writeItems]
    exact .ok _
  | cons v vs =>
    rw [writeItems]
    exact .bind (failsOnly_writeValue v) fun _ _ => .bind (failsOnly_writeItems vs) fun _ _ => .ok _

end

structure Layout.NeverRefuses (l : Layout) : Prop where
  own : FailsOnly (¬ ·.IsRefusal) l.own
  blocks : ∀ b ∈ l.blocks.flatten, FailsOnly (¬ ·.IsRefusal) b.body

namespace Layout.NeverRefuses

theorem empty : NeverRefuses {} := ⟨.ok _, by simp⟩

theorem flatten_joinLevels {b : Block} {left right : List (List Block)}
    (h : b ∈ (joinLevels left right).flatten) : b ∈ left.flatten ∨ b ∈ right.flatten := by
  induction left generalizing right with
  | nil => exact .inr h
  | cons l left ih =>
    cases right with
    | nil => exact .inl h
    | cons r right =>
      rw [joinLevels] at h
      simp only [List.flatten_cons, List.mem_append] at h ⊢
      rcases h with (h | h) | h
      · exact .inl (.inl h)
      · exact .inr (.inl h)
      · rcases ih h with h | h
        · exact .inl (.inr h)
        · exact .inr (.inr h)

theorem append {l m : Layout} (hl : l.NeverRefuses) (hm : m.NeverRefuses) :
    (l.append m).NeverRefuses where
  own := .bind hl.own fun _ _ => .bind hm.own fun _ _ => .ok _
  blocks := fun b hb => (flatten_joinLevels hb).elim (hl.blocks b) (hm.blocks b)

theorem body {l : Layout} (h : l.NeverRefuses) : FailsOnly (¬ ·.IsRefusal) l.body :=
  .map h.own

theorem pairLayout (key : List Char) (v : Value) : (pairLayout key v).NeverRefuses :=
  ⟨.map (failsOnly_writeValue v), by simp [Toml.pairLayout]⟩

end Layout.NeverRefuses

theorem failsOnly_itemBlocks {blocks : List Block}
    (h : ∀ b ∈ blocks, FailsOnly (¬ ·.IsRefusal) b.body) :
    FailsOnly (¬ ·.IsRefusal) (itemBlocks blocks) := by
  induction blocks with
  | nil => exact .ok _
  | cons b rest ih =>
    refine .bind (h b List.mem_cons_self) fun _ _ => ?_
    exact .bind (ih fun c hc => h c (List.mem_cons_of_mem _ hc)) fun _ _ => .ok _

theorem failsOnly_itemText {l : Layout} (path : List Char) (h : l.NeverRefuses) :
    FailsOnly (¬ ·.IsRefusal) (itemText path l) :=
  .bind h.body fun _ _ => .bind (failsOnly_itemBlocks h.blocks) fun _ _ => .ok _

theorem failsOnly_looseItemText (path : List Char) (v : Value) :
    FailsOnly (¬ ·.IsRefusal) (looseItemText path v) := by
  unfold looseItemText
  split
  · exact failsOnly_itemText path .empty
  · exact .bind (failsOnly_writeKey _) fun _ _ => .error nofun
  · exact .error nofun

mutual

theorem neverRefuses_layoutEntries (path : List Char) (t : List (String × Value)) :
    (layoutEntries path t).NeverRefuses := by
  match t with
  | [] =>
    rw [layoutEntries]
    exact .empty
  | (key, v) :: rest =>
    rw [layoutEntries]
    cases hkey : writeKey key with
    | ok written =>
      exact .append (neverRefuses_layoutEntry path written v) (neverRefuses_layoutEntries path rest)
    | error f => exact ⟨.error (failsOnly_writeKey key f hkey), by simp⟩

theorem neverRefuses_layoutEntry (path key : List Char) (v : Value) :
    (layoutEntry path key v).NeverRefuses := by
  cases v with
  | null =>
    rw [layoutEntry]
    exact .empty
  | table entries =>
    rw [layoutEntry]
    have h := neverRefuses_layoutEntries (extendPath path key) entries
    refine ⟨.ok _, ?_⟩
    intro b hb
    rcases List.mem_append.mp hb with hb | hb
    · cases List.mem_singleton.mp hb
      exact h.body
    · exact h.blocks b hb
  | list vs =>
    rw [layoutEntry]
    split
    · exact ⟨.map (failsOnly_layoutItems _ vs), by simp⟩
    · exact .pairLayout key _
  | _ =>
    simp only [layoutEntry]
    exact .pairLayout key _

theorem failsOnly_layoutItems (path : List Char) (vs : List Value) :
    FailsOnly (¬ ·.IsRefusal) (layoutItems path vs) := by
  cases vs with
  | nil =>
    rw [layoutItems]
    exact .ok _
  | cons v vs =>
    have hitem (item : Except Failure (List Char)) (h : FailsOnly (¬ ·.IsRefusal) item) :
        FailsOnly (¬ ·.IsRefusal) (do return (← item) ++ (← layoutItems path vs)) :=
      .bind h fun _ _ => .bind (failsOnly_layoutItems path vs) fun _ _ => .ok _
    unfold layoutItems
    cases v with
    | table entries =>
      exact hitem _ (failsOnly_itemText path (neverRefuses_layoutEntries path entries))
    | _ => exact hitem _ (failsOnly_looseItemText path _)

end

theorem failsOnly_foldlM_addBlock {blocks : List Block}
    (h : ∀ b ∈ blocks, FailsOnly (¬ ·.IsRefusal) b.body) (text : List Char) :
    FailsOnly (¬ ·.IsRefusal) (blocks.foldlM addBlock text) := by
  induction blocks generalizing text with
  | nil => exact .ok _
  | cons b rest ih =>
    rw [List.foldlM_cons]
    refine .bind (.bind (h b List.mem_cons_self) fun body _ => ?_) fun next _ => ?_
    · split
      · exact .ok _
      · exact .ok _
    · exact ih (fun c hc => h c (List.mem_cons_of_mem _ hc)) next

theorem failsOnly_render (t : Table) : FailsOnly (¬ ·.IsRefusal) (render t) := by
  have h := neverRefuses_layoutEntries [] t
  exact .map (.bind h.body fun text _ => failsOnly_foldlM_addBlock h.blocks text)

end FormatSettings.Toml
