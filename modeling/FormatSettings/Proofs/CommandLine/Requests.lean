import FormatSettings.CommandLine.ShowConfig
import FormatSettings.Proofs.Draft.Patched

namespace FormatSettings

theorem Table.lookup_arranged (keys : List String) (t : Table) (key : String) :
    (arranged keys t).lookup key = if key ∈ keys then t.lookup key else none := by
  induction keys with
  | nil => rfl
  | cons k keys ih =>
    rw [arranged] at ih ⊢
    by_cases hkey : key = k
    · subst hkey
      cases hv : t.lookup key with
      | none =>
        rw [hv] at ih
        simp [hv, ih]
      | some v => simp [hv]
    · cases hv : t.lookup k with
      | none => simp [hv, ih, hkey]
      | some v => simp [hv, ih, hkey, List.lookup_cons, beq_eq_false_iff_ne.mpr hkey]

namespace CommandLine

namespace Given

def profile? (g : Given) : Option Profile :=
  (g.last? .profile).bind fun s => match Profile.parse? (.text s) with
    | .ok p => p
    | .error _ => none

def lineEnding? (g : Given) : Option LineEnding :=
  (g.last? .lineEnding).bind choice?

def fixes (g : Given) : List Fix :=
  (g.allOf .fix).filterMap Fix.parse?

structure IsRead (g : Given) : Prop where
  integer : ∀ o, isIntegerOption o = true → (g.last? o).isSome = true → (g.integer? o).isSome = true
  lineEnding : (g.last? .lineEnding).isSome = true → g.lineEnding?.isSome = true
  profile : (g.last? .profile).isSome = true → g.profile?.isSome = true
  fix : ∀ s ∈ g.allOf .fix, (Fix.parse? s).isSome = true

def argument (g : Given) : ConfigOption → Value
  | .profile => Value.ofOption .profile g.profile?
  | .lineEnding => Value.ofOption (fun e => .text e.token) g.lineEnding?
  | .spaces => Value.ofOption .bool g.insertSpaces?
  | .tabs => Value.ofOption .bool g.insertSpaces?
  | .fix => .list (g.fixes.map .fix)
  | .config => .tuple ((g.allOf .config).map .text)
  | .noConfig => .bool (g.isGiven .noConfig)
  | .pyproject => .bool (g.isGiven .pyproject)
  | .help => .null
  | o => Value.ofOption .int (g.integer? o)

def arguments (g : Given) : Table :=
  g.request.arguments g.profile? g.fixes

theorem mem_order {g : Given} {o : ConfigOption} {key : String} (h : o.key? = some key) :
    key ∈ g.request.order := by
  have hspec : o ∈ configSpecs.map Spec.option := by cases o <;> simp [configSpecs]
  rw [request, List.mem_eraseDups, List.mem_filterMap]
  exact ⟨o, List.mem_append_right _ hspec, h⟩

theorem valueOf_arguments {g : Given} {o : ConfigOption} {key : String} (h : o.key? = some key) :
    g.arguments.valueOf key = g.argument o := by
  rw [arguments, Request.arguments, Table.valueOf, Table.lookup_arranged, if_pos (mem_order h)]
  cases o <;> cases h <;>
    simp [List.lookup_cons, argument, request, lineEnding?, Key.profile, Key.indent, Key.pageWidth,
      Key.lineEnding, Key.insertSpaces, Key.fixes, Key.blockIndent, Key.cascadeIndent,
      Key.expressionIndent, Key.constructorInitializerIndent, Key.sources, Key.noConfig, Key.shared]

theorem mem_order_of_last? {g : Given} {o : ConfigOption} {s : String} (h : g.last? o = some s) :
    o ∈ g.order := by
  rw [last?, Option.join_eq_some_iff, List.lookup_eq_some_iff] at h
  obtain ⟨front, back, hg, _⟩ := h
  rw [order, List.mem_eraseDups, List.mem_map]
  refine ⟨(o, some s), ?_, rfl⟩
  rw [← List.mem_reverse, hg]
  simp

end Given

theorem forM_eq_ok {α ε : Type} {f : α → Except ε Unit} {xs : List α} (h : xs.forM f = .ok ())
    {x : α} (hx : x ∈ xs) : f x = .ok () := by
  induction xs with
  | nil => cases hx
  | cons y xs ih =>
    obtain ⟨_, hy, hrest⟩ := Except.bind_eq_ok.mp h
    rcases List.mem_cons.mp hx with rfl | hx
    · exact hy
    · exact ih hrest hx

theorem checkInteger_eq_ok {o : ConfigOption} {s : String} (h : checkInteger o s = .ok ()) :
    (Text.readInteger? s.toList).isSome = true := by
  unfold checkInteger at h
  split at h
  · next i hi => rw [hi]; rfl
  · cases h

theorem checkChoice_eq_ok {o : ConfigOption} {s : String} (h : checkChoice o s = .ok ()) :
    (choice? s).isSome = true := by
  unfold checkChoice at h
  split at h
  · next e he => rw [he]; rfl
  · cases h

theorem checkOptions_integer [Host] {d : Disk} {g : Given} (h : checkOptions d g = .ok ())
    {o : ConfigOption} (ho : isIntegerOption o = true) (hs : (g.last? o).isSome = true) :
    (g.integer? o).isSome = true := by
  obtain ⟨s, hs⟩ := Option.isSome_iff_exists.mp hs
  have hcheck := forM_eq_ok h (Given.mem_order_of_last? hs)
  unfold checkOption at hcheck
  rw [if_pos ho, hs] at hcheck
  rw [Given.integer?, hs]
  exact checkInteger_eq_ok hcheck

theorem checkOptions_lineEnding [Host] {d : Disk} {g : Given} (h : checkOptions d g = .ok ())
    (hs : (g.last? .lineEnding).isSome = true) : g.lineEnding?.isSome = true := by
  obtain ⟨s, hs⟩ := Option.isSome_iff_exists.mp hs
  have hcheck := forM_eq_ok h (Given.mem_order_of_last? hs)
  rw [checkOption, if_neg (by decide)] at hcheck
  simp only [hs] at hcheck
  rw [Given.lineEnding?, hs]
  exact checkChoice_eq_ok hcheck

end CommandLine

theorem Profile.validate_text {s : String} {profile : Option Profile}
    (h : validate (.text s) = .ok profile) :
    profile.isSome = true ∧ parse? (.text s) = .ok profile := by
  unfold validate at h
  simp only at h
  split at h
  · cases h
  · next p hp => cases h; exact ⟨rfl, hp⟩
  · cases h

namespace CommandLine.Given

theorem profile?_of_validate {g : Given} {profile : Option Profile}
    (h : Profile.validate (Value.ofOption .text (g.last? .profile)) = .ok profile) :
    profile = g.profile? ∧ ((g.last? .profile).isSome = true → g.profile?.isSome = true) := by
  rw [profile?]
  cases hs : g.last? .profile with
  | none =>
    rw [hs] at h
    cases h
    exact ⟨rfl, nofun⟩
  | some s =>
    rw [hs] at h
    obtain ⟨hsome, hparse⟩ := Profile.validate_text h
    simp only [Option.bind_some, hparse]
    exact ⟨trivial, fun _ => hsome⟩

theorem fixes_of_validate {g : Given} {fixes : List Fix}
    (h : Fix.validate (.list ((g.allOf .fix).map .text)) = .ok fixes) :
    fixes = g.fixes ∧ ∀ s ∈ g.allOf .fix, (Fix.parse? s).isSome = true := by
  obtain ⟨hall, hfixes⟩ := Fix.map_parse?_eq_iff.mp (Fix.validateAll_eq_ok_iff.mp h)
  exact ⟨hfixes, hall⟩

end CommandLine.Given

end FormatSettings
