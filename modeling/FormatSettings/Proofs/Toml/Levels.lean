import FormatSettings.Proofs.Toml.Ops

namespace FormatSettings.Toml

theorem act_below {s : Section} (h : s.path ≠ []) (key : String) (t : Shape) :
    (Op.block (s.below [key])).act t = t.inside (Op.block s).run := by
  obtain ⟨isItem, path, pairs⟩ := s
  obtain ⟨next, path, rfl⟩ := List.exists_cons_of_ne_nil h
  change t.openWith _ (next :: path) = _
  rw [openWith_cons]
  rfl

theorem runAt_below {sections : List Section} (hne : sections ≠ []) (h : ∀ s ∈ sections, s.path ≠ [])
    (key : String) (t : Shape) :
    runAt key ((sections.map (Section.below [key])).map Op.block) t =
      t.inside (runOps (sections.map Op.block)) := by
  induction sections generalizing t with
  | nil => exact absurd rfl hne
  | cons s sections ih =>
    have hrest := fun u hu => h u (List.mem_cons_of_mem s hu)
    have hfirst : (Op.block (s.below [key])).path.head? = some key := rfl
    rw [List.map_cons, List.map_cons, runAt, if_pos hfirst, act_below (h s List.mem_cons_self)]
    cases sections with
    | nil =>
      have hsame : runOps ([s].map Op.block) = (Op.block s).run := by
        funext f
        exact Option.bind_fun_some _
      rw [hsame]
      exact Option.bind_fun_some _
    | cons next sections =>
      have hall : runAt key (((next :: sections).map (Section.below [key])).map Op.block) =
          Shape.inside (runOps ((next :: sections).map Op.block)) :=
        funext fun u => ih (List.cons_ne_nil _ _) hrest u
      rw [hall, inside_bind]
      rfl

def Shape.contents : Shape → Shapes
  | .table _ f => f
  | _ => Shapes.none

/-- A node to which the entries of a table can still be added. -/
def Shape.IsTable (s : Shape) : Prop :=
  s = .absent ∨ ∃ definition f, s = .table definition f

theorem Shape.IsTable.eq_table {s : Shape} (h : s.IsTable) (hne : s ≠ .absent) :
    ∃ definition, s = .table definition s.contents := by
  rcases h with rfl | ⟨definition, f, rfl⟩
  · exact absurd rfl hne
  · exact ⟨definition, rfl⟩

theorem inside_eq_some {change : Shapes → Option Shapes} {s t : Shape} (hs : s.IsTable)
    (h : s.inside change = some t) : t.IsTable ∧ change s.contents = some t.contents := by
  rcases hs with rfl | ⟨definition, f, rfl⟩
  · obtain ⟨g, hg, rfl⟩ := Option.map_eq_some_iff.mp h
    exact ⟨.inr ⟨_, _, rfl⟩, hg⟩
  · obtain ⟨g, hg, rfl⟩ := Option.map_eq_some_iff.mp h
    exact ⟨.inr ⟨_, _, rfl⟩, hg⟩

theorem assign_eq_some {path : List String} {v : Value} {s t : Shape} (hs : s.IsTable)
    (hne : path ≠ []) (h : s.assign v path = some t) :
    t.IsTable ∧ s.contents.assign v path = some t.contents := by
  obtain ⟨key, path, rfl⟩ := List.exists_cons_of_ne_nil hne
  rcases hs with rfl | ⟨definition, f, rfl⟩
  · obtain ⟨g, hg, rfl⟩ := Option.map_eq_some_iff.mp h
    exact ⟨.inr ⟨_, _, rfl⟩, hg⟩
  · cases definition with
    | passed =>
      obtain ⟨g, hg, rfl⟩ := Option.map_eq_some_iff.mp h
      exact ⟨.inr ⟨_, _, rfl⟩, hg⟩
    | headed => cases h
    | dotted =>
      obtain ⟨g, hg, rfl⟩ := Option.map_eq_some_iff.mp h
      exact ⟨.inr ⟨_, _, rfl⟩, hg⟩

theorem openTable_eq_some {pairs : List (List String × Value)} {s t : Shape} (hs : s.IsTable)
    (h : s.openTable pairs = some t) :
    t.IsTable ∧ s.contents.assignAll pairs = some t.contents := by
  rcases hs with rfl | ⟨definition, f, rfl⟩
  · obtain ⟨g, hg, rfl⟩ := Option.map_eq_some_iff.mp h
    exact ⟨.inr ⟨_, _, rfl⟩, hg⟩
  · cases definition with
    | passed =>
      obtain ⟨g, hg, rfl⟩ := Option.map_eq_some_iff.mp h
      exact ⟨.inr ⟨_, _, rfl⟩, hg⟩
    | headed => cases h
    | dotted => cases h

namespace Shape

def meaning? : Shape → Option Meaning
  | .absent => none
  | .value v => some v.meaning
  | .table _ f => some (.table fun key => (f key).meaning?)
  | .noItems => some (.list [])
  | .item before f =>
    match before.meaning? with
    | some (.list items) => some (.list (items ++ [.table fun key => (f key).meaning?]))
    | _ => none

end Shape

mutual

theorem meaning?_shape (n : Node) : n.shape.meaning? = some n.toValue.meaning := by
  match n with
  | .value v => rfl
  | .table definition entries =>
    have hentries : (fun key => (shapesOf entries key).meaning?) = Table.meaning (toTable entries) :=
      funext (meaning?_shapesOf entries)
    simp only [Node.shape, Shape.meaning?, Node.toValue, Value.meaning, hentries]
  | .tables items =>
    have hitems := meaning?_shapeBehind .noItems [] rfl items
    simpa only [Node.shape, Node.toValue, Value.meaning, List.nil_append] using hitems

theorem meaning?_shapesOf (entries : Entries) (key : String) :
    (shapesOf entries key).meaning? = Table.meaning (toTable entries) key := by
  match entries with
  | [] => rfl
  | (k, n) :: rest =>
    simp only [shapesOf, toTable, Table.meaning]
    split
    · exact meaning?_shape n
    · exact meaning?_shapesOf rest key

theorem meaning?_shapeBehind (before : Shape) (ms : List Meaning) (h : before.meaning? = some (.list ms))
    (items : List Entries) :
    (shapeBehind before items).meaning? = some (.list (ms ++ meanings (toValues items))) := by
  match items with
  | [] => simpa only [shapeBehind, toValues, meanings, List.append_nil] using h
  | item :: rest =>
    have hitem : (fun key => (shapesOf item key).meaning?) = Table.meaning (toTable item) :=
      funext (meaning?_shapesOf item)
    have hbefore : (Shape.item before (shapesOf item)).meaning? =
        some (.list (ms ++ [.table (Table.meaning (toTable item))])) := by
      simp only [Shape.meaning?, h, hitem]
    have hall := meaning?_shapeBehind _ _ hbefore rest
    simpa only [shapeBehind, toValues, meanings, Value.meaning, List.append_assoc, List.singleton_append]
      using hall

end

end FormatSettings.Toml
