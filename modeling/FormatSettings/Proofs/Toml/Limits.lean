import FormatSettings.Proofs.Report
import FormatSettings.Toml.Render

namespace FormatSettings.Toml

theorem own_append_eq_ok {l m : Layout} {body : Body} (h : (l.append m).own = .ok body) :
    (∃ first, l.own = .ok first) ∧ ∃ second, m.own = .ok second := by
  obtain ⟨first, hfirst, h⟩ := Except.bind_eq_ok.mp h
  obtain ⟨second, hsecond, _⟩ := Except.bind_eq_ok.mp h
  exact ⟨⟨first, hfirst⟩, ⟨second, hsecond⟩⟩

theorem layoutEntries_cons_eq_ok {path : List Char} {key : String} {v : Value} {rest : Table}
    {body : Body} (h : (layoutEntries path ((key, v) :: rest)).own = .ok body) :
    ∃ written, writeKey key = .ok written ∧
      layoutEntries path ((key, v) :: rest) =
        (layoutEntry path written v).append (layoutEntries path rest) := by
  rw [layoutEntries] at h ⊢
  cases hkey : writeKey key with
  | error failure =>
    rw [hkey] at h
    cases h
  | ok written => exact ⟨written, rfl, rfl⟩

theorem withinDigitLimit_of_layoutEntry {path key : List Char} {i : Int} {body : Body}
    (h : (layoutEntry path key (.int i)).own = .ok body) : Text.withinDigitLimit i = true := by
  have hlayout : layoutEntry path key (.int i) = pairLayout key (.int i) := by simp [layoutEntry]
  rw [hlayout, pairLayout, writeValue, writeInt] at h
  cases hi : Text.withinDigitLimit i with
  | true => rfl
  | false =>
    rw [if_neg (by rw [hi]; exact Bool.false_ne_true)] at h
    cases h

theorem withinDigitLimit_of_layoutEntries {path : List Char} {entries : Table} {body : Body}
    (h : (layoutEntries path entries).own = .ok body) {key : String} {i : Int}
    (hi : (key, .int i) ∈ entries) : Text.withinDigitLimit i = true := by
  induction entries generalizing body with
  | nil => cases hi
  | cons e rest ih =>
    obtain ⟨written, _, hlayout⟩ := layoutEntries_cons_eq_ok h
    rw [hlayout] at h
    obtain ⟨⟨_, hfirst⟩, ⟨_, hrest⟩⟩ := own_append_eq_ok h
    rcases List.mem_cons.mp hi with rfl | hi
    · exact withinDigitLimit_of_layoutEntry hfirst
    · exact ih hrest hi

theorem mem_joinLevels {b : Block} {left right : List (List Block)}
    (h : b ∈ left.flatten ∨ b ∈ right.flatten) : b ∈ (joinLevels left right).flatten := by
  induction left generalizing right with
  | nil =>
    rcases h with h | h
    · cases h
    · exact h
  | cons l left ih =>
    cases right with
    | nil =>
      rcases h with h | h
      · exact h
      · cases h
    | cons r right =>
      rw [joinLevels, List.flatten_cons, List.mem_append, List.mem_append]
      rw [List.flatten_cons, List.mem_append, List.flatten_cons, List.mem_append] at h
      rcases h with (h | h) | (h | h)
      · exact .inl (.inl h)
      · exact .inr (ih (.inl h))
      · exact .inl (.inr h)
      · exact .inr (ih (.inr h))

theorem exists_block {path : List Char} {entries : Table} {body : Body}
    (h : (layoutEntries path entries).own = .ok body) {key : String} {inner : Table}
    (ht : (key, .table inner) ∈ entries) :
    ∃ b ∈ (layoutEntries path entries).blocks.flatten, ∃ below,
      b.body = (layoutEntries below inner).body := by
  induction entries generalizing body with
  | nil => cases ht
  | cons e rest ih =>
    obtain ⟨written, _, hlayout⟩ := layoutEntries_cons_eq_ok h
    rw [hlayout] at h ⊢
    obtain ⟨_, ⟨_, hrest⟩⟩ := own_append_eq_ok h
    rcases List.mem_cons.mp ht with rfl | ht
    · rw [layoutEntry]
      exact ⟨_, mem_joinLevels (.inl (List.mem_append_left _ List.mem_cons_self)), _, rfl⟩
    · obtain ⟨b, hb, hbody⟩ := ih hrest ht
      exact ⟨b, mem_joinLevels (.inr hb), hbody⟩

theorem body_of_foldlM_addBlock {blocks : List Block} {text out : List Char}
    (h : blocks.foldlM addBlock text = .ok out) {b : Block} (hb : b ∈ blocks) :
    ∃ body, b.body = .ok body := by
  induction blocks generalizing text with
  | nil => cases hb
  | cons c blocks ih =>
    rw [List.foldlM_cons] at h
    obtain ⟨next, hnext, h⟩ := Except.bind_eq_ok.mp h
    rcases List.mem_cons.mp hb with rfl | hb
    · obtain ⟨body, hbody, _⟩ := Except.bind_eq_ok.mp hnext
      exact ⟨body, hbody⟩
    · exact ih h hb

theorem own_of_body {l : Layout} {text : List Char} (h : l.body = .ok text) :
    ∃ body, l.own = .ok body := by
  cases hown : l.own with
  | error failure =>
    rw [Layout.body, hown] at h
    cases h
  | ok body => exact ⟨body, rfl⟩

theorem withinDigitLimit_of_render {t : Table} {text : String} (h : render t = .ok text)
    {name key : String} {entries : Table} {i : Int} (ht : (name, .table entries) ∈ t)
    (hi : (key, .int i) ∈ entries) : Text.withinDigitLimit i = true := by
  cases hchars : renderChars t with
  | error failure =>
    rw [render, hchars] at h
    cases h
  | ok chars =>
    obtain ⟨front, hfront, hfold⟩ := Except.bind_eq_ok.mp hchars
    obtain ⟨body, hown⟩ := own_of_body hfront
    obtain ⟨b, hb, below, hbody⟩ := exists_block hown ht
    obtain ⟨_, hwritten⟩ := body_of_foldlM_addBlock hfold hb
    obtain ⟨_, hinner⟩ := own_of_body (hbody.symm.trans hwritten)
    exact withinDigitLimit_of_layoutEntries hinner hi

end FormatSettings.Toml
