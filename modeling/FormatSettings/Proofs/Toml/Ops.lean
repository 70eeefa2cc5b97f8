import FormatSettings.Proofs.Toml.Shape

namespace FormatSettings.Toml

namespace Section

def below (names : List String) (s : Section) : Section :=
  { s with path := names ++ s.path }

def change (s : Section) : Shape → Option Shape :=
  if s.isItem then Shape.openItem s.pairs else Shape.openTable s.pairs

end Section

/-- What a document does to the table that it builds: a pair, or a header with the pairs behind it. -/
inductive Op
  | pair (path : List String) (v : Value)
  | block (s : Section)

namespace Op

def path : Op → List String
  | .pair path _ => path
  | .block s => s.path

def act : Op → Shape → Option Shape
  | .pair path v => Shape.assign v path.tail
  | .block s => Shape.openWith s.change s.path.tail

def run (op : Op) (f : Shapes) : Option Shapes :=
  match op.path with
  | [] => none
  | key :: _ => f.alter key op.act

def ofPair (pair : List String × Value) : Op :=
  .pair pair.1 pair.2

end Op

def runOps : List Op → Shapes → Option Shapes
  | [], f => some f
  | op :: ops, f => (op.run f).bind (runOps ops)

def Document.ops (d : Document) : List Op :=
  d.pairs.map Op.ofPair ++ d.sections.map Op.block

theorem runOps_append (ops more : List Op) (f : Shapes) :
    runOps (ops ++ more) f = (runOps ops f).bind (runOps more) := by
  induction ops generalizing f with
  | nil => rfl
  | cons op ops ih =>
    rw [List.cons_append, runOps, runOps, Option.bind_assoc]
    congr 1
    funext g
    exact ih g

theorem runOps_pairs (pairs : List (List String × Value)) (f : Shapes) :
    runOps (pairs.map Op.ofPair) f = f.assignAll pairs := by
  induction pairs generalizing f with
  | nil => rfl
  | cons pair pairs ih =>
    obtain ⟨path, v⟩ := pair
    have hrun : (Op.ofPair (path, v)).run f = f.assign v path := by
      cases path with
      | nil => rfl
      | cons key path => rfl
    rw [List.map_cons, runOps, Shapes.assignAll, hrun]
    congr 1
    funext g
    exact ih g

theorem shapesOf_apply (s : Section) (es : Entries) :
    (s.apply es).map shapesOf = (Op.block s).run (shapesOf es) := by
  obtain ⟨isItem, path, pairs⟩ := s
  cases path with
  | nil => cases isItem <;> rfl
  | cons key path =>
    cases isItem with
    | false => exact shapesOf_open? (shape_openTable pairs) es
    | true => exact shapesOf_open? (shape_openItem pairs) es

theorem shapesOf_applySections (sections : List Section) (es : Entries) :
    (Document.applySections sections es).map shapesOf =
      runOps (sections.map Op.block) (shapesOf es) := by
  induction sections generalizing es with
  | nil => rfl
  | cons s sections ih =>
    rw [Document.applySections, List.map_cons, runOps, ← shapesOf_apply, Option.map_bind, Option.bind_map]
    congr 1
    funext next
    exact ih next

theorem shapesOf_entries? (d : Document) : d.entries?.map shapesOf = runOps d.ops Shapes.none := by
  rw [Document.ops, runOps_append, runOps_pairs, Document.entries?, ← show shapesOf [] = Shapes.none from rfl,
    ← shapesOf_assignAll, Option.map_bind, Option.bind_map]
  congr 1
  funext next
  exact shapesOf_applySections d.sections next

/-- What the operations on one key make of its node. -/
def runAt (key : String) : List Op → Shape → Option Shape
  | [], s => some s
  | op :: ops, s =>
    if op.path.head? = some key then (op.act s).bind (runAt key ops) else runAt key ops s

theorem runAt_append (key : String) (ops more : List Op) (s : Shape) :
    runAt key (ops ++ more) s = (runAt key ops s).bind (runAt key more) := by
  induction ops generalizing s with
  | nil => rfl
  | cons op ops ih =>
    rw [List.cons_append, runAt, runAt]
    split
    · rw [Option.bind_assoc]
      congr 1
      funext t
      exact ih t
    · exact ih s

theorem runAt_other {key : String} {ops : List Op} (h : ∀ op ∈ ops, op.path.head? ≠ some key)
    (s : Shape) : runAt key ops s = some s := by
  induction ops with
  | nil => rfl
  | cons op ops ih =>
    rw [runAt, if_neg (h op List.mem_cons_self)]
    exact ih fun o ho => h o (List.mem_cons_of_mem _ ho)

theorem runOps_eq_some_iff {ops : List Op} {f g : Shapes} (hne : ∀ op ∈ ops, op.path ≠ []) :
    runOps ops f = some g ↔ ∀ key, runAt key ops (f key) = some (g key) := by
  induction ops generalizing f with
  | nil =>
    simp only [runOps, runAt, Option.some.injEq]
    exact funext_iff
  | cons op ops ih =>
    have hrest := fun o ho => hne o (List.mem_cons_of_mem _ ho)
    obtain ⟨first, path, hpath⟩ := List.exists_cons_of_ne_nil (hne op List.mem_cons_self)
    have hrun : op.run f = (op.act (f first)).map (Function.update f first) := by
      rw [Op.run]
      simp only [hpath]
      rfl
    have hkey (key : String) (s : Shape) : runAt key (op :: ops) s =
        if first = key then (op.act s).bind (runAt key ops) else runAt key ops s := by
      simp only [runAt, hpath, List.head?_cons, Option.some.injEq]
    rw [runOps, hrun, Option.bind_map]
    constructor
    · intro h key
      obtain ⟨s, hs, h⟩ := Option.bind_eq_some_iff.mp h
      have hothers := (ih hrest).mp h key
      rw [hkey]
      by_cases heq : first = key
      · subst heq
        rw [Function.update_self] at hothers
        rw [if_pos rfl, hs, Option.bind_some, hothers]
      · rw [Function.update_of_ne (Ne.symm heq)] at hothers
        rw [if_neg heq, hothers]
    · intro h
      have hfirst := h first
      rw [hkey, if_pos rfl] at hfirst
      obtain ⟨s, hs, hfirst⟩ := Option.bind_eq_some_iff.mp hfirst
      rw [hs, Option.bind_some, Function.comp_apply, ih hrest]
      intro key
      by_cases heq : first = key
      · subst heq
        rwa [Function.update_self]
      · have hother := h key
        rwa [hkey, if_neg heq, ← Function.update_of_ne (Ne.symm heq) s f] at hother

theorem runOps_singles {ops : List Op} {f g : Shapes} (hne : ∀ op ∈ ops, op.path ≠ [])
    (h : runOps ops f = some g) (key : String) : runAt key ops (f key) = some (g key) :=
  (runOps_eq_some_iff hne).mp h key

theorem alter_comm {first second : String} (hne : first ≠ second) (a b : Shape → Option Shape)
    (f : Shapes) :
    (f.alter first a).bind (Shapes.alter second b) = (f.alter second b).bind (Shapes.alter first a) := by
  simp only [Shapes.alter, Option.bind_map]
  cases ha : a (f first) with
  | none =>
    cases hb : b (f second) with
    | none => rfl
    | some t => simp [Shapes.alter, Function.update_of_ne hne, ha]
  | some s =>
    cases hb : b (f second) with
    | none => simp [Shapes.alter, Function.update_of_ne hne.symm, hb]
    | some t =>
      simp [Shapes.alter, Function.update_of_ne hne.symm, Function.update_of_ne hne, ha, hb,
        Function.update_comm hne]

theorem alter_bind_alter (key : String) (a b : Shape → Option Shape) (f : Shapes) :
    (f.alter key a).bind (Shapes.alter key b) = f.alter key fun s => (a s).bind b := by
  simp only [Shapes.alter, Option.bind_map]
  cases ha : a (f key) with
  | none => rfl
  | some s =>
    cases hb : b s with
    | none => simp [Shapes.alter, hb]
    | some t => simp [Shapes.alter, hb]

/-- A change of what stands inside a table, or inside the last item of an array of tables. -/
def Shape.inside (change : Shapes → Option Shapes) : Shape → Option Shape
  | .absent => (change Shapes.none).map (.table .passed)
  | .table definition f => (change f).map (.table definition)
  | .item before f => (change f).map (.item before)
  | _ => none

theorem openWith_cons (last : Shape → Option Shape) (key : String) (path : List String) :
    Shape.openWith last (key :: path) = Shape.inside (Shapes.alter key (Shape.openWith last path)) := by
  funext s
  cases s <;> rfl

theorem inside_bind (a b : Shapes → Option Shapes) (s : Shape) :
    (s.inside a).bind (Shape.inside b) = s.inside fun f => (a f).bind b := by
  cases s with
  | absent => cases h : a Shapes.none <;> simp [Shape.inside, h]
  | value v => rfl
  | table definition f => cases h : a f <;> simp [Shape.inside, h]
  | noItems => rfl
  | item before f => cases h : a f <;> simp [Shape.inside, h]

def Diverge : List String → List String → Prop
  | first :: path, second :: other => first ≠ second ∨ Diverge path other
  | _, _ => False

theorem Diverge.append_left {path other : List String} (h : Diverge path other) (front : List String) :
    Diverge (front ++ path) (front ++ other) := by
  induction front with
  | nil => exact h
  | cons first front ih => exact .inr ih

theorem openWith_comm {path other : List String} (h : Diverge path other)
    (a b : Shape → Option Shape) (s : Shape) :
    (s.openWith a path).bind (Shape.openWith b other) =
      (s.openWith b other).bind (Shape.openWith a path) := by
  induction path generalizing other s with
  | nil => exact h.elim
  | cons first path ih =>
    cases other with
    | nil => exact h.elim
    | cons second other =>
      rw [openWith_cons, openWith_cons, inside_bind, inside_bind]
      congr 1
      funext f
      by_cases heq : first = second
      · subst heq
        rw [alter_bind_alter, alter_bind_alter]
        congr 1
        funext t
        exact ih (h.resolve_left fun hne => hne rfl) t
      · exact alter_comm heq _ _ f

theorem run_comm {s t : Section} (h : Diverge s.path t.path) (f : Shapes) :
    ((Op.block s).run f).bind (Op.block t).run = ((Op.block t).run f).bind (Op.block s).run := by
  obtain ⟨isItem, path, pairs⟩ := s
  obtain ⟨isOther, other, more⟩ := t
  dsimp only at h
  cases path with
  | nil => exact h.elim
  | cons first path =>
    cases other with
    | nil => exact h.elim
    | cons second other =>
      change (f.alter first _).bind (Shapes.alter second _) = (f.alter second _).bind (Shapes.alter first _)
      by_cases heq : first = second
      · subst heq
        rw [alter_bind_alter, alter_bind_alter]
        congr 1
        funext u
        exact openWith_comm (h.resolve_left fun hne => hne rfl) _ _ u
      · exact alter_comm heq _ _ f

/-- Sections in another order, in which no section has changed places with one above or below it. -/
inductive Rearranged : List Section → List Section → Prop
  | nil : Rearranged [] []
  | cons (s : Section) {l m : List Section} (h : Rearranged l m) : Rearranged (s :: l) (s :: m)
  | swap {s t : Section} (h : Diverge s.path t.path) (l : List Section) :
      Rearranged (s :: t :: l) (t :: s :: l)
  | trans {l m n : List Section} (h : Rearranged l m) (hmore : Rearranged m n) : Rearranged l n

namespace Rearranged

variable {l m n : List Section}

theorem refl (l : List Section) : Rearranged l l := by
  induction l with
  | nil => exact .nil
  | cons s l ih => exact .cons s ih

theorem append_left (front : List Section) (h : Rearranged l m) :
    Rearranged (front ++ l) (front ++ m) := by
  induction front with
  | nil => exact h
  | cons s front ih => exact .cons s ih

theorem append_right (h : Rearranged l m) (back : List Section) :
    Rearranged (l ++ back) (m ++ back) := by
  induction h with
  | nil => exact refl back
  | cons s _ ih => exact .cons s ih
  | swap h l => exact .swap h (l ++ back)
  | trans _ _ ih ihMore => exact ih.trans ihMore

theorem move_back (s : Section) (h : ∀ t ∈ l, Diverge s.path t.path) :
    Rearranged (s :: l) (l ++ [s]) := by
  induction l with
  | nil => exact refl [s]
  | cons t l ih =>
    have hrest := ih fun u hu => h u (List.mem_cons_of_mem _ hu)
    exact (swap (h t List.mem_cons_self) l).trans (.cons t hrest)

theorem comm (h : ∀ s ∈ l, ∀ t ∈ m, Diverge s.path t.path) : Rearranged (l ++ m) (m ++ l) := by
  induction l with
  | nil =>
    rw [List.append_nil]
    exact refl m
  | cons s l ih =>
    have hrest := ih fun u hu => h u (List.mem_cons_of_mem _ hu)
    have hfirst := (move_back s (h s List.mem_cons_self)).append_right l
    rw [List.append_assoc] at hfirst
    exact (Rearranged.cons s hrest).trans hfirst

theorem map_below (names : List String) (h : Rearranged l m) :
    Rearranged (l.map (Section.below names)) (m.map (Section.below names)) := by
  induction h with
  | nil => exact .nil
  | cons s _ ih => exact .cons _ ih
  | swap h l => exact .swap (h.append_left names) _
  | trans _ _ ih ihMore => exact ih.trans ihMore

theorem runOps (h : Rearranged l m) (f : Shapes) :
    Toml.runOps (l.map Op.block) f = Toml.runOps (m.map Op.block) f := by
  induction h generalizing f with
  | nil => rfl
  | cons s _ ih =>
    rw [List.map_cons, List.map_cons, Toml.runOps, Toml.runOps]
    congr 1
    funext g
    exact ih g
  | @swap s t h l =>
    have hfold (s t : Section) : Toml.runOps ((s :: t :: l).map Op.block) f =
        (((Op.block s).run f).bind (Op.block t).run).bind (Toml.runOps (l.map Op.block)) := by
      rw [Option.bind_assoc]
      rfl
    rw [hfold, hfold, run_comm h]
  | trans _ _ ih ihMore => exact (ih f).trans (ihMore f)

theorem mem_iff (h : Rearranged l m) (s : Section) : s ∈ l ↔ s ∈ m := by
  induction h with
  | nil => exact Iff.rfl
  | cons t _ ih => rw [List.mem_cons, List.mem_cons, ih]
  | swap h l =>
    rw [List.mem_cons, List.mem_cons, List.mem_cons, List.mem_cons, or_left_comm]
  | trans _ _ ih ihMore => exact ih.trans ihMore

end Rearranged

end FormatSettings.Toml
