import FormatSettings.Report
import Mathlib.Logic.Basic

namespace FormatSettings

variable {α β : Type}

theorem Except.bind_eq_ok {ε : Type} {x : Except ε α} {f : α → Except ε β} {b : β} :
    (x >>= f) = .ok b ↔ ∃ a, x = .ok a ∧ f a = .ok b := by
  cases x with
  | error e => simp [bind, Except.bind]
  | ok a => simp [bind, Except.bind]

theorem Except.bind_eq_error {ε : Type} {x : Except ε α} {f : α → Except ε β} {e : ε} :
    (x >>= f) = .error e ↔ x = .error e ∨ ∃ a, x = .ok a ∧ f a = .error e := by
  cases x with
  | error e' => simp [bind, Except.bind]
  | ok a => simp [bind, Except.bind]

theorem Except.map_eq_ok {ε : Type} {x : Except ε α} {f : α → β} {b : β} :
    x.map f = .ok b ↔ ∃ a, x = .ok a ∧ f a = b := by
  cases x with
  | error e => simp [Except.map]
  | ok a => simp [Except.map]

theorem Except.eq_ok_of_toOption {ε : Type} {x : Except ε α} {a : α} (h : x.toOption = some a) :
    x = .ok a := by
  cases x with
  | error e => cases h
  | ok b => cases h; rfl

theorem mem_of_lookup [BEq α] [LawfulBEq α] {entries : List (α × β)} {a : α} {b : β}
    (h : entries.lookup a = some b) : (a, b) ∈ entries := by
  obtain ⟨before, after, rfl, -⟩ := List.lookup_eq_some_iff.mp h
  exact List.mem_append_right _ List.mem_cons_self

/-- A computation that may fail, but with no failure outside a class. -/
def FailsOnly (among : Failure → Prop) (x : Except Failure α) : Prop :=
  ∀ f, x = .error f → among f

namespace FailsOnly

variable {among : Failure → Prop}

theorem ok (a : α) : FailsOnly among (.ok a) := by
  intro f h
  cases h

theorem error {f : Failure} (h : among f) : FailsOnly among (.error f : Except Failure α) := by
  rintro _ ⟨⟩
  exact h

theorem mono {among' : Failure → Prop} {x : Except Failure α} (h : FailsOnly among x)
    (hamong : ∀ f, among f → among' f) : FailsOnly among' x :=
  fun f hf => hamong f (h f hf)

theorem bind {x : Except Failure α} {f : α → Except Failure β} (hx : FailsOnly among x)
    (hf : ∀ a, x = .ok a → FailsOnly among (f a)) : FailsOnly among (x >>= f) := by
  intro e he
  rcases Except.bind_eq_error.mp he with he | ⟨a, ha, he⟩
  · exact hx e he
  · exact hf a ha e he

theorem map {x : Except Failure α} {f : α → β} (hx : FailsOnly among x) :
    FailsOnly among (x.map f) := by
  cases x with
  | error e => exact error (hx e rfl)
  | ok a => exact ok _

theorem foldlM {f : β → α → Except Failure β} (h : ∀ b a, FailsOnly among (f b a)) (as : List α)
    (b : β) : FailsOnly among (as.foldlM f b) := by
  induction as generalizing b with
  | nil => exact ok b
  | cons a as ih =>
    rw [List.foldlM_cons]
    exact bind (h b a) fun b' _ => ih b'

theorem mapM {f : α → Except Failure β} {as : List α} (h : ∀ a ∈ as, FailsOnly among (f a)) :
    FailsOnly among (as.mapM f) := by
  induction as with
  | nil => exact ok _
  | cons a as ih =>
    rw [List.mapM_cons]
    have hrest := ih fun b hb => h b (List.mem_cons_of_mem a hb)
    exact bind (h a List.mem_cons_self) fun b _ => bind hrest fun bs _ => ok _

end FailsOnly

inductive Failure.IsRefusal : Failure → Prop
  | usage (fault : UsageFault) : IsRefusal (.usage fault)
  | option (fault : OptionFault) : IsRefusal (.option fault)

/-- A computation fails, and not with a refusal. -/
def Escapes (x : Except Failure α) : Prop :=
  ∃ f, x = .error f ∧ ¬ f.IsRefusal

theorem not_escapes_ok (a : α) : ¬ Escapes (.ok a : Except Failure α) := by
  rintro ⟨f, hf, -⟩
  cases hf

theorem escapes_error_iff {f : Failure} :
    Escapes (.error f : Except Failure α) ↔ ¬ f.IsRefusal := by
  constructor
  · rintro ⟨_, ⟨⟩, hf⟩
    exact hf
  · intro hf
    exact ⟨f, rfl, hf⟩

theorem escapes_bind {x : Except Failure α} {f : α → Except Failure β} :
    Escapes (x >>= f) ↔ Escapes x ∨ ∃ a, x = .ok a ∧ Escapes (f a) := by
  constructor
  · rintro ⟨e, he, hrefusal⟩
    rcases Except.bind_eq_error.mp he with he | ⟨a, ha, he⟩
    · exact Or.inl ⟨e, he, hrefusal⟩
    · exact Or.inr ⟨a, ha, e, he, hrefusal⟩
  · rintro (⟨e, he, hrefusal⟩ | ⟨a, ha, e, he, hrefusal⟩)
    · exact ⟨e, Except.bind_eq_error.mpr (Or.inl he), hrefusal⟩
    · exact ⟨e, Except.bind_eq_error.mpr (Or.inr ⟨a, ha, he⟩), hrefusal⟩

theorem escapes_map {x : Except Failure α} {f : α → β} : Escapes (x.map f) ↔ Escapes x := by
  cases x with
  | error e => exact escapes_error_iff.trans escapes_error_iff.symm
  | ok a => exact iff_of_false (not_escapes_ok _) (not_escapes_ok _)

theorem FailsOnly.escapes_iff {x : Except Failure α}
    (h : FailsOnly (fun f => ¬ f.IsRefusal) x) : Escapes x ↔ ¬ ∃ a, x = .ok a := by
  cases x with
  | error e => exact iff_of_true (escapes_error_iff.mpr (h e rfl)) (by simp)
  | ok a => exact iff_of_false (not_escapes_ok a) (by simp)

theorem FailsOnly.not_escapes {among : Failure → Prop} {x : Except Failure α}
    (h : FailsOnly among x) (hamong : ∀ f, among f → f.IsRefusal) : ¬ Escapes x := by
  rintro ⟨f, hf, hrefusal⟩
  exact hrefusal (hamong f (h f hf))

namespace Report

@[simp] theorem outcome_pure (a : α) : (pure a : Report α).outcome = .ok a := rfl

@[simp] theorem outcome_ofExcept (e : Except Failure α) : (ofExcept e).outcome = e := rfl

@[simp] theorem outcome_trace (message : Message) : (trace message).outcome = .ok () := rfl

@[simp] theorem outcome_debug (message : Message) : (debug message).outcome = .ok () := rfl

theorem outcome_bind (r : Report α) (f : α → Report β) :
    (r >>= f).outcome = r.outcome >>= fun a => (f a).outcome := by
  change (r.bind f).outcome = _
  unfold Report.bind
  cases h : r.outcome with
  | error e => rfl
  | ok a => rfl

@[simp] theorem outcome_trace_bind (message : Message) (f : Unit → Report α) :
    (trace message >>= f).outcome = (f ()).outcome := rfl

@[simp] theorem outcome_debug_bind (message : Message) (f : Unit → Report α) :
    (debug message >>= f).outcome = (f ()).outcome := rfl

@[simp] theorem outcome_warn_bind (message : Message) (f : Unit → Report α) :
    (warn message >>= f).outcome = (f ()).outcome := rfl

theorem ofExcept_ok_bind (a : α) (f : α → Report β) : (ofExcept (.ok a) >>= f) = f a := rfl

theorem bind_outcome_eq_ok {r : Report α} {f : α → Report β} {b : β} :
    (r >>= f).outcome = .ok b ↔ ∃ a, r.outcome = .ok a ∧ (f a).outcome = .ok b := by
  rw [outcome_bind, Except.bind_eq_ok]

theorem warnings_bind (r : Report α) (f : α → Report β) :
    (r >>= f).warnings = r.warnings ++ match r.outcome with
      | .error _ => []
      | .ok a => (f a).warnings := by
  change (r.bind f).warnings = _
  unfold Report.bind
  cases r.outcome with
  | error e => exact (List.append_nil _).symm
  | ok a => exact List.filter_append _ _

theorem warnings_bind_of_ok {r : Report α} {a : α} (h : r.outcome = .ok a) (f : α → Report β) :
    (r >>= f).warnings = r.warnings ++ (f a).warnings := by
  rw [warnings_bind, h]

theorem warnings_bind_pure (r : Report α) (f : α → β) :
    (r >>= fun a => pure (f a)).warnings = r.warnings := by
  rw [warnings_bind]
  cases r.outcome <;> exact List.append_nil _

theorem mk_bind_pure (notices : List Notice) (a : α) (f : α → β) :
    ((⟨notices, .ok a⟩ : Report α) >>= fun a => pure (f a)) = ⟨notices, .ok (f a)⟩ := by
  change Report.mk (notices ++ []) _ = _
  rw [List.append_nil]
  rfl

theorem warnings_trace_bind (message : Message) (f : Unit → Report α) :
    (trace message >>= f).warnings = (f ()).warnings := rfl

end Report

end FormatSettings
