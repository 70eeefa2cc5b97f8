import FormatSettings.Log.Setup
import FormatSettings.Proofs.Log.Levels

namespace FormatSettings.Log

variable {env : Option String}

namespace Root

theorem foldl_remove (level : Int) (hs : List Handler) : hs.foldl remove ⟨level, hs⟩ = ⟨level, []⟩ := by
  induction hs with
  | nil => rfl
  | cons h hs ih =>
    have hfirst : remove ⟨level, h :: hs⟩ h = ⟨level, hs⟩ := by
      rw [remove, List.erase_cons_head]
    rw [List.foldl_cons, hfirst, ih]

theorem configure_eq (r : Root) (level : Int) :
    r.configure level = ⟨level, [.stream (.forLevel level)]⟩ := by
  rw [configure, foldl_remove, add, List.nil_append]

@[simp] theorem level_configure (r : Root) (level : Int) : (r.configure level).level = level := by
  rw [configure_eq]

end Root

theorem setupLevel_none {level : Option Nat} (h : ofEnvironment? env = .ok level) :
    setupLevel env none =
      .ok (if level.getD 0 = 0 then Severity.critical.number else level.getD 0) := by
  rw [setupLevel, h]
  match level with
  | none => rfl
  | some 0 => rfl
  | some (n + 1) => rfl

theorem setup_none_eq_ok {level : Option Nat} (h : ofEnvironment? env = .ok level) (r : Root) :
    setup env none r =
      .ok (r.configure (if level.getD 0 = 0 then Severity.critical.number else level.getD 0)) := by
  rw [setup, setupLevel_none h]
  rfl

theorem setup_none_eq_error {f : Failure} (h : ofEnvironment? env = .error f) (r : Root) :
    setup env none r = .error f := by
  rw [setup, setupLevel, h]
  rfl

structure SetupCall where
  env : Option String
  level : Option Int

namespace SetupCall

/-- The level of a set-up: the one given, else the one that the level variable asks for, and the highest if
it asks for none or for zero. -/
inductive ResolvesTo (c : SetupCall) : Int → Prop
  | given {n : Int} (hlevel : c.level = some n) : c.ResolvesTo n
  | asked {s : String} {n : Nat} (hlevel : c.level = none) (hset : c.env = some s) (hasks : AsksFor s n)
      (hpos : n ≠ 0) : c.ResolvesTo n
  | highest (hlevel : c.level = none)
      (hnone : NamesNone c.env ∨ ∃ s, c.env = some s ∧ AsksFor s 0) :
      c.ResolvesTo Severity.critical.number

variable {c : SetupCall} {n : Int}

theorem setupLevel_eq_ok_iff : setupLevel c.env c.level = .ok n ↔ c.ResolvesTo n := by
  constructor
  · intro h
    cases hlevel : c.level with
    | some level =>
      rw [hlevel] at h
      exact .given (hlevel.trans (congrArg some (Except.ok.inj h)))
    | none =>
      rw [hlevel] at h
      cases henv : ofEnvironment? c.env with
      | error f =>
        rw [setupLevel, henv] at h
        cases h
      | ok asked =>
        rw [setupLevel_none henv] at h
        cases h
        match asked with
        | none => exact .highest hlevel (.inl (namesNone_of_ofEnvironment? henv))
        -- Zero is asked for, but does not hold and is dropped.
        | some 0 => exact .highest hlevel (.inr (ofEnvironment?_eq_some_iff.mp henv))
        | some (m + 1) =>
          obtain ⟨s, hset, hasks⟩ := ofEnvironment?_eq_some_iff.mp henv
          exact .asked hlevel hset hasks (Nat.succ_ne_zero m)
  · rintro (hlevel | ⟨hlevel, hset, hasks, hpos⟩ | ⟨hlevel, hnone | hzero⟩)
    · rw [hlevel]
      rfl
    · rw [hlevel, setupLevel_none (ofEnvironment?_eq_some_iff.mpr ⟨_, hset, hasks⟩), Option.getD_some,
        if_neg hpos]
    · rw [hlevel, setupLevel_none (ofEnvironment?_of_namesNone hnone)]
      rfl
    · rw [hlevel, setupLevel_none (ofEnvironment?_eq_some_iff.mpr hzero)]
      rfl

theorem setup_eq_ok_iff {before after : Root} :
    setup c.env c.level before = .ok after ↔
      ∃ n, c.ResolvesTo n ∧ after = ⟨n, [.stream (.forLevel n)]⟩ := by
  simp only [← setupLevel_eq_ok_iff, setup]
  cases setupLevel c.env c.level with
  | error f => simp [Except.map]
  | ok n => simp [Except.map, Root.configure_eq, eq_comm]

end SetupCall

def setupEach : List SetupCall → Root → Except Failure Root
  | [], r => .ok r
  | c :: calls, r => do
    let r ← setup c.env c.level r
    setupEach calls r

theorem setupAll_eq_setupEach (env : Option String) (levels : List (Option Int)) (r : Root) :
    setupAll env levels r = setupEach (levels.map (⟨env, ·⟩)) r := by
  induction levels generalizing r with
  | nil => rfl
  | cons level levels ih =>
    rw [setupAll, List.map_cons, setupEach]
    simp only [ih]

theorem setupEach_concat_eq_ok_iff {calls : List SetupCall} {last : SetupCall} {before after : Root} :
    setupEach (calls ++ [last]) before = .ok after ↔
      (∀ c ∈ calls, ∃ n, c.ResolvesTo n) ∧
        ∃ n, last.ResolvesTo n ∧ after = ⟨n, [.stream (.forLevel n)]⟩ := by
  induction calls generalizing before with
  | nil =>
    simp only [List.nil_append, setupEach, Except.bind_eq_ok, Except.ok.injEq, exists_eq_right,
      SetupCall.setup_eq_ok_iff, List.not_mem_nil, false_implies, implies_true, true_and]
  | cons c calls ih =>
    simp only [List.cons_append, setupEach, Except.bind_eq_ok, ih, SetupCall.setup_eq_ok_iff,
      List.forall_mem_cons]
    constructor
    · rintro ⟨_, ⟨n, hn, -⟩, hcalls, hlast⟩
      exact ⟨⟨⟨n, hn⟩, hcalls⟩, hlast⟩
    · rintro ⟨⟨⟨n, hn⟩, hcalls⟩, hlast⟩
      exact ⟨_, ⟨n, hn, rfl⟩, hcalls, hlast⟩

/-- A run of set-ups comes to an end if each of them resolves its level. It then leaves one handler, with the
level and the format of the last set-up, whatever handlers were there before and whatever the others asked
for. -/
theorem last_setup_decides (calls : List SetupCall) (last : SetupCall) (before after : Root) :
    (setupEach (calls ++ [last]) before = .ok after ↔
      (∀ c ∈ calls, ∃ n, c.ResolvesTo n) ∧ ∃ n, last.ResolvesTo n ∧ after.level = n ∧
        after.handlers = [.stream (if Severity.info.number ≤ n then .short else .detailed)]) ∧
      ∀ (env : Option String) (levels : List (Option Int)),
        setupAll env levels before = setupEach (levels.map (⟨env, ·⟩)) before := by
  refine ⟨?_, fun env levels => setupAll_eq_setupEach env levels before⟩
  rw [setupEach_concat_eq_ok_iff]
  refine and_congr_right fun _ => exists_congr fun n => and_congr_right fun _ => ?_
  cases after
  rw [Root.mk.injEq]
  exact Iff.rfl

def crowdedRoot : Root :=
  ⟨Severity.warning.number, [.foreign 0, .stream .short, .foreign 0]⟩

theorem last_setup_decides_debug :
    setupEach ([⟨none, some 50⟩, ⟨none, none⟩] ++ [⟨some " debug ", none⟩]) crowdedRoot =
      .ok ⟨10, [.stream .detailed]⟩ := by
  have hasks : AsksFor " debug " 10 :=
    .name (by decide : ("DEBUG", 10) ∈ levelNames) (by decide +kernel)
  obtain ⟨hruns, -⟩ := last_setup_decides [⟨none, some 50⟩, ⟨none, none⟩] ⟨some " debug ", none⟩
    crowdedRoot ⟨10, [.stream .detailed]⟩
  apply hruns.mpr
  refine ⟨?_, 10, .asked rfl rfl hasks (by decide), rfl, rfl⟩
  rw [List.forall_mem_cons, List.forall_mem_singleton]
  exact ⟨⟨50, .given rfl⟩, ⟨_, .highest rfl (.inl nofun)⟩⟩

end FormatSettings.Log
