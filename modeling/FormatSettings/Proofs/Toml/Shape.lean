import FormatSettings.Toml.Document
import FormatSettings.Toml.Meaning
import Mathlib.Logic.Function.Basic

namespace FormatSettings.Toml

/-- A node without the order of the keys of its tables. An array of tables ends with its last item. -/
inductive Shape
  | absent
  | value (v : Value)
  | table (definition : Definition) (inner : String → Shape)
  | noItems
  | item (before : Shape) (inner : String → Shape)

abbrev Shapes := String → Shape

mutual

def Node.shape : Node → Shape
  | .value v => .value v
  | .table definition entries => .table definition (shapesOf entries)
  | .tables items => shapeBehind .noItems items

def shapesOf : Entries → Shapes
  | [], _ => .absent
  | (k, n) :: rest, key => if k == key then n.shape else shapesOf rest key

def shapeBehind (before : Shape) : List Entries → Shape
  | [] => before
  | item :: rest => shapeBehind (.item before (shapesOf item)) rest

end

namespace Shapes

def none : Shapes := fun _ => .absent

def alter (key : String) (change : Shape → Option Shape) (f : Shapes) : Option Shapes :=
  (change (f key)).map (Function.update f key)

end Shapes

namespace Shape

def assign (v : Value) : List String → Shape → Option Shape
  | [], .absent => some (.value v)
  | key :: path, .absent => (Shapes.none.alter key (assign v path)).map (.table .dotted)
  | key :: path, .table .passed f => (Shapes.alter key (assign v path) f).map (.table .dotted)
  | key :: path, .table .dotted f => (Shapes.alter key (assign v path) f).map (.table .dotted)
  | _, _ => none

def openWith (last : Shape → Option Shape) : List String → Shape → Option Shape
  | [], s => last s
  | key :: path, .absent => (Shapes.none.alter key (openWith last path)).map (.table .passed)
  | key :: path, .table definition f =>
    (Shapes.alter key (openWith last path) f).map (.table definition)
  | key :: path, .item before f => (Shapes.alter key (openWith last path) f).map (.item before)
  | _, _ => none

end Shape

namespace Shapes

def assign (v : Value) : List String → Shapes → Option Shapes
  | [], _ => Option.none
  | key :: path, f => f.alter key (Shape.assign v path)

def assignAll : List (List String × Value) → Shapes → Option Shapes
  | [], f => some f
  | (path, v) :: rest, f => (f.assign v path).bind (assignAll rest)

end Shapes

namespace Shape

def openTable (pairs : List (List String × Value)) : Shape → Option Shape
  | .absent => (Shapes.none.assignAll pairs).map (.table .headed)
  | .table .passed f => (Shapes.assignAll pairs f).map (.table .headed)
  | _ => none

def openItem (pairs : List (List String × Value)) : Shape → Option Shape
  | .absent => (Shapes.none.assignAll pairs).map (.item .noItems)
  | .noItems => (Shapes.none.assignAll pairs).map (.item .noItems)
  | .item before f => (Shapes.none.assignAll pairs).map (.item (.item before f))
  | _ => none

end Shape

def shapeOf : Option Node → Shape
  | none => .absent
  | some n => n.shape

theorem shapesOf_alter {key : String} {f : Option Node → Option Node} {change : Shape → Option Shape}
    (h : ∀ n?, (f n?).map Node.shape = change (shapeOf n?)) (es : Entries) :
    (alter key f es).map shapesOf = (shapesOf es).alter key change := by
  induction es with
  | nil =>
    have hnew (n : Node) : shapesOf [(key, n)] = Function.update (shapesOf []) key n.shape := by
      funext k
      by_cases hk : key = k
      · simp [shapesOf, hk]
      · simp [shapesOf, hk, Function.update_of_ne (Ne.symm hk)]
    rw [alter, Option.map_map, Shapes.alter]
    change _ = (change (shapeOf none)).map _
    rw [← h, Option.map_map]
    congr 1
    funext n
    exact hnew n
  | cons e es ih =>
    obtain ⟨k, n⟩ := e
    rw [alter]
    by_cases hk : k = key
    · subst hk
      have hfirst : shapesOf ((k, n) :: es) k = shapeOf (some n) := by simp [shapesOf, shapeOf]
      rw [if_pos (beq_self_eq_true k), Option.map_map, Shapes.alter, hfirst, ← h, Option.map_map]
      congr 1
      funext m
      funext j
      by_cases hj : k = j
      · simp [shapesOf, hj]
      · simp [shapesOf, hj, Function.update_of_ne (Ne.symm hj)]
    · have hrest : shapesOf ((k, n) :: es) key = shapesOf es key := by simp [shapesOf, hk]
      rw [if_neg (by simpa using hk), Option.map_map, Shapes.alter, hrest]
      have hsame : shapesOf ∘ ((k, n) :: ·) =
          (fun (f : Shapes) j => if k == j then n.shape else f j) ∘ shapesOf := by
        funext rest
        funext j
        rfl
      rw [hsame, ← Option.map_map, ih, Shapes.alter, Option.map_map]
      congr 1
      funext s
      funext j
      by_cases hj : key = j
      · subst hj
        simp [hk]
      · simp [shapesOf, Function.update_of_ne (Ne.symm hj)]

theorem shapeBehind_concat (before : Shape) (items : List Entries) (item : Entries) :
    shapeBehind before (items ++ [item]) = .item (shapeBehind before items) (shapesOf item) := by
  induction items generalizing before with
  | nil => rfl
  | cons first items ih => exact ih (.item before (shapesOf first))

theorem alterLast_concat {α : Type} (f : α → Option α) (front : List α) (a : α) :
    alterLast f (front ++ [a]) = (f a).map (front ++ [·]) := by
  induction front with
  | nil => rfl
  | cons b front ih =>
    have hne : front ++ [a] ≠ [] := by simp
    rw [List.cons_append, alterLast, ih, Option.map_map]
    · rfl
    · exact hne

theorem shape_tables (items : List Entries) :
    (Node.tables items).shape = .noItems ∨
      ∃ front last, items = front ++ [last] ∧
        (Node.tables items).shape = .item (shapeBehind .noItems front) (shapesOf last) := by
  rcases List.eq_nil_or_concat items with rfl | ⟨front, last, rfl⟩
  · exact .inl rfl
  · rw [List.concat_eq_append, Node.shape, shapeBehind_concat]
    exact .inr ⟨front, last, rfl, rfl⟩

theorem shapesOf_assign (v : Value) (path : List String) (es : Entries) :
    (assign v path es).map shapesOf = (shapesOf es).assign v path := by
  have htables {change : Shape → Option Shape} (hnone : change .noItems = none)
      (hitem : ∀ before f, change (.item before f) = none) (items : List Entries) :
      change (Node.tables items).shape = none := by
    rcases shape_tables items with heq | ⟨_, _, _, heq⟩
    · rw [heq, hnone]
    · rw [heq, hitem]
  induction path generalizing es with
  | nil => rfl
  | cons key path ih =>
    cases path with
    | nil =>
      refine shapesOf_alter ?_ es
      rintro (_ | n)
      · rfl
      · cases n with
        | value w => rfl
        | table definition inner => rfl
        | tables items => exact (htables rfl (fun _ _ => rfl) items).symm
    | cons next path =>
      refine shapesOf_alter ?_ es
      have hinner (inner : Entries) :
          ((assign v (next :: path) inner).map (Node.table .dotted)).map Node.shape =
            ((shapesOf inner).assign v (next :: path)).map (.table .dotted) := by
        rw [← ih inner, Option.map_map, Option.map_map]
        rfl
      rintro (_ | n)
      · exact hinner []
      · cases n with
        | value w => rfl
        | table definition inner =>
          cases definition with
          | passed => exact hinner inner
          | headed => rfl
          | dotted => exact hinner inner
        | tables items => exact (htables rfl (fun _ _ => rfl) items).symm

theorem shapesOf_assignAll (pairs : List (List String × Value)) (es : Entries) :
    (assignAll pairs es).map shapesOf = (shapesOf es).assignAll pairs := by
  induction pairs generalizing es with
  | nil => rfl
  | cons pair pairs ih =>
    obtain ⟨path, v⟩ := pair
    rw [assignAll, Shapes.assignAll, ← shapesOf_assign, Option.map_bind, Option.bind_map]
    congr 1
    funext next
    exact ih next

theorem shapesOf_open? {last : Option Node → Option Node} {change : Shape → Option Shape}
    (h : ∀ n?, (last n?).map Node.shape = change (shapeOf n?)) {path : List String} {key : String}
    (es : Entries) :
    (open? last (key :: path) es).map shapesOf =
      (shapesOf es).alter key (Shape.openWith change path) := by
  induction path generalizing es key with
  | nil => exact shapesOf_alter h es
  | cons next path ih =>
    refine shapesOf_alter ?_ es
    have hinner (definition : Definition) (inner : Entries) :
        ((open? last (next :: path) inner).map (Node.table definition)).map Node.shape =
          ((shapesOf inner).alter next (Shape.openWith change path)).map (.table definition) := by
      rw [← ih inner, Option.map_map, Option.map_map]
      rfl
    rintro (_ | n)
    · exact hinner .passed []
    · cases n with
      | value w => rfl
      | table definition inner => exact hinner definition inner
      | tables items =>
        change ((alterLast (open? last (next :: path)) items).map Node.tables).map Node.shape =
          Shape.openWith change (next :: path) (Node.tables items).shape
        rcases shape_tables items with heq | ⟨front, inner, rfl, heq⟩
        · rw [heq]
          rcases List.eq_nil_or_concat items with rfl | ⟨front, inner, rfl⟩
          · rfl
          · rw [List.concat_eq_append, Node.shape, shapeBehind_concat] at heq
            cases heq
        · have hbehind : (Node.shape ∘ Node.tables) ∘ (front ++ [·]) =
              Shape.item (shapeBehind .noItems front) ∘ shapesOf := by
            funext inner
            exact shapeBehind_concat .noItems front inner
          rw [heq, alterLast_concat, Option.map_map, Option.map_map, hbehind, ← Option.map_map, ih inner]
          rfl

theorem shape_openTable (pairs : List (List String × Value)) (n? : Option Node) :
    (openTable pairs n?).map Node.shape = Shape.openTable pairs (shapeOf n?) := by
  have hheaded (inner : Entries) :
      ((assignAll pairs inner).map (Node.table .headed)).map Node.shape =
        ((shapesOf inner).assignAll pairs).map (.table .headed) := by
    rw [← shapesOf_assignAll, Option.map_map, Option.map_map]
    rfl
  cases n? with
  | none => exact hheaded []
  | some n =>
    cases n with
    | value v => rfl
    | table definition inner =>
      cases definition with
      | passed => exact hheaded inner
      | headed => rfl
      | dotted => rfl
    | tables items =>
      change none = Shape.openTable pairs (Node.tables items).shape
      rcases shape_tables items with heq | ⟨_, _, _, heq⟩
      · rw [heq]
        rfl
      · rw [heq]
        rfl

theorem shape_openItem (pairs : List (List String × Value)) (n? : Option Node) :
    (openItem pairs n?).map Node.shape = Shape.openItem pairs (shapeOf n?) := by
  have hitem (items : List Entries) (before : Shape) (h : shapeBehind .noItems items = before) :
      ((assignAll pairs []).map fun item => Node.tables (items ++ [item])).map Node.shape =
        (Shapes.none.assignAll pairs).map (.item before) := by
    have hnone : shapesOf [] = Shapes.none := rfl
    rw [← hnone, ← shapesOf_assignAll, Option.map_map, Option.map_map]
    congr 1
    funext item
    rw [← h]
    exact shapeBehind_concat .noItems items item
  cases n? with
  | none => exact hitem [] .noItems rfl
  | some n =>
    cases n with
    | value v => rfl
    | table definition inner => rfl
    | tables items =>
      refine (hitem items _ rfl).trans ?_
      change _ = Shape.openItem pairs (Node.tables items).shape
      rcases shape_tables items with heq | ⟨front, inner, rfl, heq⟩
      · rw [Node.shape] at heq
        rw [Node.shape, heq]
        rfl
      · rw [Node.shape] at heq
        rw [Node.shape, heq]
        rfl

end FormatSettings.Toml
