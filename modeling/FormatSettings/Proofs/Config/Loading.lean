import FormatSettings.Config.Load
import FormatSettings.Proofs.Config.Reading

namespace FormatSettings

theorem Disk.read_of_isFile [Host] {d : Disk} {p : Path} (h : d.isFile p = .ok true) :
    p.hasNull = false ∧ ∃ bytes, d.read p = .ok bytes := by
  unfold Disk.isFile at h
  cases hn : p.hasNull with
  | true => simp [hn] at h
  | false =>
    refine ⟨rfl, ?_⟩
    simp only [hn, Bool.false_eq_true, ↓reduceIte] at h
    unfold Disk.read
    split at h
    · next bytes hs => exact ⟨bytes, by rw [hs]⟩
    · cases h
    · cases h
    · cases h

theorem joinBreaks_of_no_return {cs : List Char} (h : ∀ c ∈ cs, c ≠ '\r') : joinBreaks cs = cs := by
  induction cs with
  | nil => rfl
  | cons c cs ih =>
    have hc := h c List.mem_cons_self
    rw [joinBreaks, ih fun d hd => h d (List.mem_cons_of_mem _ hd)]
    · rintro rest rfl
      exact absurd rfl hc
    · rintro rfl
      exact absurd rfl hc

theorem decodeText?_toUTF8 {s : String} (h : ∀ c ∈ s.toList, c ≠ '\r') :
    decodeText? s.toUTF8 = some s.toList := by
  have hutf8 : String.fromUTF8? s.toUTF8 = some s := dif_pos s.isValidUTF8
  rw [decodeText?, hutf8, Option.map_some, joinBreaks_of_no_return h]

namespace Config

theorem parse?_plain (cs : List Char) : parse? cs = Toml.table? cs := by
  change ((Toml.table? cs).elim (.error .rejected) Except.ok : Except ReadFault Table).toOption = _
  cases Toml.table? cs <;> rfl

def settings? (p : Path) (t : Table) : Option Table :=
  if p.name == sharedConfigName then
    if (ownTable t).isEmpty then none else some (ownTable t)
  else some t

variable [Host]

def documentTable (cs : List Char) : Table :=
  (parse? cs).getD []

/-- The reader gives a table for a text or rejects it, and no error comes out of it. -/
def IsAnswered (cs : List Char) : Prop :=
  ∀ error, Host.read cs ≠ .error (.escaped error)

def tableOf (cs : List Char) : Except Failure Table :=
  match Host.read cs with
  | .ok t => .ok t
  | .error .rejected => .ok []
  | .error (.escaped error) => .error (.foreign error)

theorem tableOf_cases (cs : List Char) :
    (IsAnswered cs ∧ tableOf cs = .ok (documentTable cs)) ∨
      (¬ IsAnswered cs ∧ ∃ error, tableOf cs = .error (.foreign error)) := by
  unfold IsAnswered tableOf documentTable parse?
  cases Host.read cs with
  | ok t => exact .inl ⟨nofun, rfl⟩
  | error fault =>
    cases fault with
    | rejected => exact .inl ⟨nofun, rfl⟩
    | escaped error => exact .inr ⟨fun h => h error rfl, error, rfl⟩

theorem tableOf_of_answered {cs : List Char} (h : IsAnswered cs) :
    tableOf cs = .ok (documentTable cs) := by
  rcases tableOf_cases cs with ⟨-, htable⟩ | ⟨hnot, -⟩
  · exact htable
  · exact absurd h hnot

theorem tableOf_of_parse? {cs : List Char} {t : Table} (h : parse? cs = some t) :
    tableOf cs = .ok t := by
  rw [tableOf, Except.eq_ok_of_toOption h]

theorem outcome_load_of_read {d : Disk} {p : Path} {bytes : ByteArray} (hn : p.hasNull = false)
    (h : d.read p = .ok bytes) :
    (load d p).outcome = match decodeText? bytes with
      | none => .error (.notUnicode p.toText)
      | some cs => tableOf cs := by
  unfold load tableOf
  simp only [hn, Bool.false_eq_true, ↓reduceIte, h]
  cases decodeText? bytes with
  | none => rfl
  | some cs =>
    simp only
    rcases Host.read cs with (_ | _) | _ <;> rfl

theorem outcome_loadDraft (d : Disk) (p : Path) :
    (loadDraft d p).outcome = (do
      let t ← (load d p).outcome
      match settings? p t with
      | none => return none
      | some s => return some (← (Draft.ofTable s (some p.toText)).outcome)) := by
  unfold loadDraft settings?
  simp only [Report.outcome_bind, Report.outcome_debug]
  change (load d p).outcome >>= _ = _
  cases (load d p).outcome with
  | error e => rfl
  | ok t =>
    cases p.name == sharedConfigName with
    | true =>
      cases ho : (ownTable t).isEmpty with
      | true => simp only [bind, Except.bind, ho, ↓reduceIte]; rfl
      | false =>
        simp only [bind, Except.bind, ho, ↓reduceIte, Bool.false_eq_true]
        exact Report.outcome_bind _ _
    | false =>
      simp only [bind, Except.bind, ↓reduceIte, Bool.false_eq_true]
      exact Report.outcome_bind _ _

theorem outcome_load_of_text {d : Disk} {p : Path} {text : String} {t : Table}
    (hfile : d.isFile p = .ok true) (hread : d.read p = .ok text.toUTF8)
    (hreturn : ∀ c ∈ text.toList, c ≠ '\r') (ht : parse? text.toList = some t) :
    (load d p).outcome = .ok t := by
  rw [outcome_load_of_read (Disk.read_of_isFile hfile).1 hread, decodeText?_toUTF8 hreturn]
  exact tableOf_of_parse? ht

theorem outcome_loadDraft_of_load {d : Disk} {p : Path} {t s : Table} {draft : Draft}
    (hload : (load d p).outcome = .ok t) (hs : settings? p t = some s)
    (hdraft : (Draft.ofTable s (some p.toText)).outcome = .ok draft) :
    (loadDraft d p).outcome = .ok (some draft) := by
  rw [outcome_loadDraft, hload]
  simp only [bind, Except.bind, hs, hdraft]
  rfl

end Config

end FormatSettings
