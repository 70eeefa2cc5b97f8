import FormatSettings.Toml.Verbatim.Document
import Mathlib.Data.List.Nodup

namespace FormatSettings.Toml.Verbatim

def keyNames (entries : List Entry) : List String :=
  entries.filterMap fun e => e.key?.map (·.name)

theorem keyNames_append (entries more : List Entry) :
    keyNames (entries ++ more) = keyNames entries ++ keyNames more :=
  List.filterMap_append

theorem eraseDups_of_nodup {names : List String} (h : names.Nodup) : names.eraseDups = names := by
  induction names with
  | nil => rfl
  | cons name names ih =>
    obtain ⟨hnew, hrest⟩ := List.nodup_cons.mp h
    have hfilter : names.filter (fun other => !other == name) = names := by
      rw [List.filter_eq_self]
      intro other hmem
      have hne : other ≠ name := fun heq => hnew (heq ▸ hmem)
      simp [hne]
    rw [List.eraseDups_cons, hfilter, ih hrest]

theorem names_of_nodup {entries : List Entry} (h : (keyNames entries).Nodup) :
    names entries = keyNames entries :=
  eraseDups_of_nodup h

theorem named_eq_false {name : String} {entries : List Entry} (h : name ∉ keyNames entries) :
    ∀ e ∈ entries, e.named name = false := by
  intro e he
  rw [Bool.eq_false_iff]
  intro hnamed
  apply h
  rw [Entry.named, Option.any_eq_true] at hnamed
  obtain ⟨key, hkey, hname⟩ := hnamed
  exact List.mem_filterMap.mpr ⟨e, he, by rw [hkey, Option.map_some, beq_iff_eq.mp hname]⟩

theorem lastNamed?_of_not_mem {name : String} {entries : List Entry}
    (h : name ∉ keyNames entries) : lastNamed? name entries = none := by
  rw [lastNamed?, List.find?_eq_none]
  intro e he
  rw [named_eq_false h e (List.mem_reverse.mp he)]
  exact Bool.false_ne_true

theorem named_key {e : Entry} {key : Key} (h : e.key? = some key) : e.named key.name = true := by
  simp [Entry.named, h]

theorem mem_keyNames {entries : List Entry} {e : Entry} {key : Key} (he : e ∈ entries)
    (hkey : e.key? = some key) : key.name ∈ keyNames entries :=
  List.mem_filterMap.mpr ⟨e, he, by rw [hkey, Option.map_some]⟩

theorem keyNames_cons (e : Entry) (entries : List Entry) :
    keyNames (e :: entries) = (e.key?.map (·.name)).toList ++ keyNames entries := by
  cases h : e.key? with
  | none => simp [keyNames, h]
  | some key => simp [keyNames, h]

theorem lastNamed?_of_mem {front back : List Entry} {e : Entry} {key : Key}
    (h : (keyNames (front ++ e :: back)).Nodup) (hkey : e.key? = some key) :
    lastNamed? key.name (front ++ e :: back) = some e := by
  have hback : key.name ∉ keyNames back := by
    rw [keyNames_append, keyNames_cons, hkey] at h
    exact (List.nodup_cons.mp (List.nodup_append.mp h).2.1).1
  have hfind : lastNamed? key.name back = none := lastNamed?_of_not_mem hback
  rw [lastNamed?] at hfind ⊢
  rw [List.reverse_append, List.reverse_cons, List.append_assoc, List.find?_append, hfind,
    List.singleton_append, List.find?_cons, named_key hkey]
  rfl

theorem length_filter_named (name : String) (entries : List Entry) :
    (entries.filter (·.named name)).length = (keyNames entries).count name := by
  induction entries with
  | nil => rfl
  | cons e entries ih =>
    rw [keyNames_cons, List.count_append, ← ih, List.filter_cons]
    cases hkey : e.key? with
    | none => simp [Entry.named, hkey]
    | some key =>
      by_cases hname : key.name = name
      · simp [Entry.named, hkey, hname, Nat.add_comm]
      · simp [Entry.named, hkey, hname]

theorem isScattered_iff {name : String} {entries : List Entry} :
    isScattered name entries = true ↔ 1 < (keyNames entries).count name := by
  rw [isScattered, decide_eq_true_eq, length_filter_named]
  exact Iff.rfl

theorem isScattered_of_nodup {entries : List Entry} (h : (keyNames entries).Nodup)
    (name : String) : isScattered name entries = false := by
  rw [← Bool.not_eq_true, isScattered_iff, Nat.not_lt]
  exact List.nodup_iff_count_le_one.mp h name

theorem add_new (limit : Nat) (isChecked : Bool) {entries : List Entry} {e : Entry}
    (h : ∀ key, e.key? = some key → key.name ∉ keyNames entries) :
    add (limit + 1) isChecked entries e = .ok (entries ++ [e]) := by
  have hnone : (e.key?.bind fun key => lastNamed? key.name entries) = none := by
    cases hkey : e.key? with
    | none => rfl
    | some key => exact lastNamed?_of_not_mem (h key hkey)
  rw [add.eq_def]
  simp only [hnone]

theorem checkPlaces_of_nodup (limit : Nat) {entries : List Entry} (h : (keyNames entries).Nodup)
    (name : String) : checkPlaces limit name entries = .ok () := by
  cases limit with
  | zero => rw [checkPlaces]
  | succ limit =>
    rw [checkPlaces, isScattered_of_nodup h]
    rfl

theorem checkJoined_of_nodup (limit : Nat) {entries : List Entry} (h : (keyNames entries).Nodup)
    (name : String) : checkJoined limit name entries = .ok () := by
  cases limit with
  | zero => rw [checkJoined]
  | succ limit =>
    rw [checkJoined, isScattered_of_nodup h]
    rfl

theorem checkAll_of_nodup (limit : Nat) {entries : List Entry} (h : (keyNames entries).Nodup) :
    checkAll limit entries = .ok () := by
  cases limit with
  | zero => rw [checkAll]
  | succ limit =>
    rw [checkAll]
    induction names entries with
    | nil => rfl
    | cons name rest ih =>
      rw [List.forM_eq_forM, List.forM_cons, checkPlaces_of_nodup limit h]
      exact ih

theorem not_mem_of_nodup {entries : List Entry} {e : Entry}
    (h : (keyNames (entries ++ [e])).Nodup) :
    ∀ key, e.key? = some key → key.name ∉ keyNames entries := by
  intro key hkey hmem
  rw [keyNames_append, keyNames_cons, hkey] at h
  exact (List.nodup_append.mp h).2.2 _ hmem _ List.mem_cons_self rfl

theorem addLoosely_new (limit : Nat) {entries : List Entry} {e : Entry}
    (h : (keyNames (entries ++ [e])).Nodup) :
    addLoosely (limit + 1) entries e = .ok (entries ++ [e]) := by
  rw [addLoosely, add_new limit false (not_mem_of_nodup h)]
  cases hkey : e.key? with
  | none => rfl
  | some key =>
    simp only [bind, Except.bind, checkJoined_of_nodup (limit + 1) h]
    rfl

theorem addOnTop_new (limit : Nat) {entries : List Entry} {e : Entry}
    (h : (keyNames (entries ++ [e])).Nodup) :
    addOnTop (limit + 1) entries e = .ok (entries ++ [e]) := by
  rw [addOnTop, add_new limit true (not_mem_of_nodup h)]
  rfl

theorem addLine_of_last {add : List Entry → Entry → Except Failure (List Entry)}
    {entries : List Entry} (h : ∀ e ∈ entries, e.isBlank = false) (e : Entry) :
    addLine add entries e = add entries e := by
  unfold addLine
  split
  · next before hlast =>
    have hblank := h _ (List.mem_of_getLast? hlast)
    cases hblank
  · rfl

theorem foldlM_addLine (limit : Nat) {lines entries : List Entry}
    (hlines : ∀ e ∈ entries ++ lines, e.isBlank = false)
    (h : (keyNames (entries ++ lines)).Nodup) :
    lines.foldlM (addLine (addLoosely (limit + 1))) entries = .ok (entries ++ lines) := by
  induction lines generalizing entries with
  | nil => rw [List.append_nil]; rfl
  | cons e lines ih =>
    rw [← List.singleton_append, ← List.append_assoc] at hlines h ⊢
    have hadd : addLoosely (limit + 1) entries e = .ok (entries ++ [e]) := by
      apply addLoosely_new
      rw [keyNames_append] at h
      exact (List.nodup_append.mp h).1
    have hline : addLine (addLoosely (limit + 1)) entries e = .ok (entries ++ [e]) := by
      rw [addLine_of_last (fun d hd => hlines d (by simp [hd])), hadd]
    rw [List.singleton_append, List.foldlM_cons, hline]
    exact ih hlines h

theorem readBelow_zero (limit : Nat) (outer : List (List String)) (path : List String)
    (entries : List Entry) (rest : List Section) :
    readBelow limit 0 outer path entries rest = .ok (entries, rest) := by
  rw [readBelow]
  exact fun _ _ _ hfuel => absurd hfuel (Nat.succ_ne_zero _).symm

theorem readBelow_of_not_below (limit fuel : Nat) (outer : List (List String)) (path : List String)
    (entries : List Entry) {rest : List Section} (h : ∀ s ∈ rest, s.isBelow path = false) :
    readBelow limit fuel outer path entries rest = .ok (entries, rest) := by
  cases fuel with
  | zero => exact readBelow_zero limit outer path entries rest
  | succ fuel =>
    cases rest with
    | nil =>
      rw [readBelow]
      exact fun _ _ _ _ hrest => absurd hrest (List.cons_ne_nil _ _).symm
    | cons s rest =>
      rw [readBelow, h s List.mem_cons_self]
      rfl

theorem readBelow_nil (limit fuel : Nat) (outer : List (List String)) (path : List String)
    (entries : List Entry) : readBelow limit fuel outer path entries [] = .ok (entries, []) :=
  readBelow_of_not_below limit fuel outer path entries (List.forall_mem_nil _)

end FormatSettings.Toml.Verbatim
