import FormatSettings.Arguments
import FormatSettings.Proofs.Draft.Patched

namespace FormatSettings

namespace Table

def without (t : Table) (key : String) : Table :=
  t.filter (·.1 != key)

theorem lookup_without_self (t : Table) (key : String) : (t.without key).lookup key = none := by
  rw [List.lookup_eq_none_iff]
  intro e he
  obtain ⟨-, hne⟩ := List.mem_filter.mp he
  exact bne_iff_ne.mpr (Ne.symm (bne_iff_ne.mp hne))

theorem lookup_without_of_ne (t : Table) {key other : String} (h : other ≠ key) :
    (t.without key).lookup other = t.lookup other := by
  induction t with
  | nil => rfl
  | cons e t ih =>
    obtain ⟨k, v⟩ := e
    rw [without, List.filter_cons, List.lookup_cons]
    by_cases hk : k = key
    · subst hk
      rw [if_neg (by simp), beq_false_of_ne h]
      exact ih
    · rw [if_pos (by simpa using hk), List.lookup_cons]
      split
      · rfl
      · exact ih

theorem lookup_map_entries (f : String → Value → Value) (t : Table) (name : String) :
    List.lookup name (t.map fun e => (e.1, f e.1 e.2)) = (t.lookup name).map (f name) := by
  induction t with
  | nil => rfl
  | cons e t ih =>
    obtain ⟨k, v⟩ := e
    rw [List.map_cons, List.lookup_cons, List.lookup_cons]
    by_cases h : name = k
    · subst h
      rw [beq_self_eq_true]
      rfl
    · rw [beq_false_of_ne h]
      exact ih

theorem valueOr_eq_or (t : Table) (name : String) (v : Value) :
    t.valueOr name v = t.valueOf name ∨ t.valueOr name v = v := by
  rw [valueOr, valueOf]
  cases t.lookup name with
  | some w => exact Or.inl rfl
  | none => exact Or.inr rfl

theorem valueOf_append (t u : Table) (name : String) :
    (t ++ u).valueOf name = t.valueOr name (u.valueOf name) := by
  rw [valueOf, List.lookup_append, valueOr]
  cases t.lookup name <;> rfl

theorem orElse_valueOr (t : Table) (name : String) (v : Value) :
    (t.valueOr name v).orElse v = (t.valueOf name).orElse v := by
  rw [valueOr, valueOf]
  cases t.lookup name with
  | some w => rfl
  | none =>
    rw [Option.getD_none, Option.getD_none, Value.orElse_null, Value.orElse]
    exact ite_self v

theorem valueOr_of_not_null {t : Table} {name : String}
    (h : ∀ v, (name, v) ∈ t → v.isNull = false) (v : Value) :
    t.valueOr name v = (t.valueOf name).orElse v := by
  rw [valueOr, valueOf]
  cases hlookup : t.lookup name with
  | none => rfl
  | some w => exact (Value.orElse_of_not_isNull (h w (mem_of_lookup hlookup)) v).symm

end Table

namespace Arguments

variable {params : List String} {t u : Table}

def foreignNames (params : List String) (t : Table) : List String :=
  (t.map Prod.fst).filter (!params.contains ·)

theorem checkNames_eq (params : List String) (t : Table) :
    checkNames params [] t = match (foreignNames params t).head? with
      | none => .ok ()
      | some name => .error (.call (.unknownArgument name)) := by
  induction t with
  | nil => rfl
  | cons e t ih =>
    obtain ⟨name, v⟩ := e
    rw [checkNames, foreignNames, List.map_cons, List.filter_cons]
    split
    · rfl
    · exact ih

structure GivesSame (params : List String) (t u : Table) : Prop where
  values : ∀ name ∈ params, t.valueOf name = u.valueOf name
  foreign : foreignNames params t = foreignNames params u

theorem GivesSame.checkNames_eq (h : GivesSame params t u) :
    checkNames params [] t = checkNames params [] u := by
  rw [Arguments.checkNames_eq, h.foreign, Arguments.checkNames_eq]

theorem givesSame_null {name : String} (hname : name ∈ params) (h : t.lookup name = none) :
    GivesSame params t ((name, .null) :: t) where
  values other _ := by
    rw [Table.valueOf, Table.valueOf, List.lookup_cons]
    split
    · next hsame =>
      rw [beq_iff_eq.mp hsame, h]
      rfl
    · rfl
  foreign := by
    rw [foreignNames, foreignNames, List.map_cons, List.filter_cons, if_neg (by simpa using hname)]

theorem bind_named (params : List String) (t : Table) :
    bind params ⟨[], t⟩ = checkNames params [] t >>= fun _ => pure t := rfl

theorem bindNamed_named (params : List String) (t : Table) :
    bindNamed params ⟨[], t⟩ = checkNames params [] t >>= fun _ => pure t := rfl

end Arguments

end FormatSettings
