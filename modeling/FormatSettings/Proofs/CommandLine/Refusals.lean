import FormatSettings.Proofs.Fix.Tokens

namespace FormatSettings

theorem Profile.readers_cases {s : String} (h : ∀ fault, parse? (.text s) ≠ .error fault)
    (source : String) :
    (∃ p, validate (.text s) = .ok (some p) ∧ ofToken (.text s) source = pure p) ∨
      (validate (.text s) = .error (.usage (.unknownProfile (.text s))) ∧
        ofToken (.text s) source =
          ⟨[⟨.warning, unknownText (.text s) source⟩], .ok fallback⟩) := by
  simp only [validate, ofToken]
  cases hparse : parse? (.text s) with
  | error fault => exact absurd hparse (h fault)
  | ok found =>
    cases found with
    | none => exact Or.inr ⟨rfl, rfl⟩
    | some p => exact Or.inl ⟨p, rfl, rfl⟩

theorem Profile.validate_eq_ok_iff {s : String} (h : ∀ fault, parse? (.text s) ≠ .error fault)
    (source : String) (p : Profile) :
    validate (.text s) = .ok (some p) ↔
      (ofToken (.text s) source).outcome = .ok p ∧ (ofToken (.text s) source).warnings = [] := by
  rcases readers_cases h source with ⟨q, hvalid, htoken⟩ | ⟨hvalid, htoken⟩
  · rw [hvalid, htoken, Except.ok.injEq, Option.some.injEq]
    constructor
    · rintro rfl
      exact ⟨rfl, rfl⟩
    · rintro ⟨⟨⟩, -⟩
      rfl
  · rw [hvalid, htoken]
    refine iff_of_false nofun ?_
    rintro ⟨-, ⟨⟩⟩

theorem Profile.validate_refuses_iff {s : String} (h : ∀ fault, parse? (.text s) ≠ .error fault)
    (source : String) :
    (∃ fault, validate (.text s) = .error (.usage fault)) ↔
      (ofToken (.text s) source).outcome = .ok fallback ∧
        ∃ n, (ofToken (.text s) source).warnings = [n] := by
  rcases readers_cases h source with ⟨q, hvalid, htoken⟩ | ⟨hvalid, htoken⟩
  · rw [hvalid, htoken]
    refine iff_of_false nofun ?_
    rintro ⟨-, n, ⟨⟩⟩
  · rw [hvalid, htoken]
    exact iff_of_true ⟨_, rfl⟩ ⟨rfl, _, rfl⟩

theorem Fix.exists_validate_error_iff {tokens : Value} {texts : List String}
    (h : tokens.elements? = some (texts.map .text)) :
    (∃ failure, validate tokens = .error failure) ↔ ∃ t ∈ texts, parse? t = none := by
  rw [validate_texts h]
  constructor
  · rintro ⟨failure, hfails⟩
    obtain ⟨t, hfirst, -⟩ := validateAll_eq_error_iff.mp hfails
    exact ⟨t, hfirst.mem, hfirst.unknown⟩
  · rintro ⟨t, ht, hunknown⟩
    cases hall : validateAll (texts.map .text) with
    | error failure => exact ⟨failure, rfl⟩
    | ok fixes =>
      have hknown := (map_parse?_eq_iff.mp (validateAll_eq_ok_iff.mp hall)).1 t ht
      rw [hunknown] at hknown
      cases hknown

/-- The fixes of tokens are those that some token selects, each unknown token is warned of in its place, and
the command line refuses the first unknown one or takes one fix for each token, which are the same fixes. A
token for a profile is taken by the command line exactly if it selects one without a warning, and refused
exactly if the fallback stands in for it with one. -/
theorem refused_iff_warned (source : String) :
    (∀ (tokens : Value) (texts : List String), tokens.elements? = some (texts.map .text) →
      ∃ found : FixSet,
        Fix.ofTokens tokens source =
            ⟨(texts.filter fun t => (Fix.parse? t).isNone).map fun t =>
              ⟨.warning, Fix.unknownText (.text t) source⟩, .ok found⟩ ∧
          (∀ f, found.has f = true ↔ ∃ t ∈ texts, Fix.parse? t = some f) ∧
          found.others = [] ∧
          ((∃ failure, Fix.validate tokens = .error failure) ↔
            ∃ t ∈ texts, Fix.parse? t = none) ∧
          (∀ failure, Fix.validate tokens = .error failure ↔
            ∃ t, Fix.IsFirstUnknown t texts ∧ failure = .usage (.unknownFix (.text t))) ∧
          ∀ fixes, Fix.validate tokens = .ok fixes →
            texts.map Fix.parse? = fixes.map some ∧ FixSet.ofFixes fixes = found) ∧
      ∀ s : String, (∀ fault, Profile.parse? (.text s) ≠ .error fault) →
        (∀ p, Profile.validate (.text s) = .ok (some p) ↔
          (Profile.ofToken (.text s) source).outcome = .ok p ∧
            (Profile.ofToken (.text s) source).warnings = []) ∧
        ((∃ fault, Profile.validate (.text s) = .error (.usage fault)) ↔
          (Profile.ofToken (.text s) source).outcome = .ok Profile.fallback ∧
            ∃ n, (Profile.ofToken (.text s) source).warnings = [n]) := by
  constructor
  · intro tokens texts htexts
    refine ⟨_, Fix.ofTokens_texts htexts source, fun f => ?_, rfl,
      Fix.exists_validate_error_iff htexts, fun failure => ?_, fun fixes hfixes => ?_⟩
    · exact List.contains_iff_mem.trans List.mem_filterMap
    · rw [Fix.validate_texts htexts, Fix.validateAll_eq_error_iff]
    · rw [Fix.validate_texts htexts] at hfixes
      have hmap := Fix.validateAll_eq_ok_iff.mp hfixes
      exact ⟨hmap, congrArg FixSet.ofFixes (Fix.map_parse?_eq_iff.mp hmap).2⟩
  · intro s hreadable
    exact ⟨Profile.validate_eq_ok_iff hreadable source,
      Profile.validate_refuses_iff hreadable source⟩

theorem refused_iff_warned_two_unknown :
    (Fix.ofTokens (.tuple (["New", "gnu", "OPTIONAL_NEW", "const"].map .text)) "").notices =
        [⟨.warning, Fix.unknownText (.text "gnu") ""⟩,
          ⟨.warning, Fix.unknownText (.text "const") ""⟩] ∧
      (∃ found : FixSet, (Fix.ofTokens
          (.tuple (["New", "gnu", "OPTIONAL_NEW", "const"].map .text)) "").outcome = .ok found ∧
        found.has .optionalNew = true) ∧
      Fix.validate (.tuple (["New", "gnu", "OPTIONAL_NEW", "const"].map .text)) =
        .error (.usage (.unknownFix (.text "gnu"))) ∧
      (Profile.ofToken (.text "1") "").warnings = [] ∧
      ∃ fault, Profile.validate (.text "expand") = .error (.usage fault) := by
  obtain ⟨hfixes, hprofiles⟩ := refused_iff_warned ""
  have hnew : Fix.parse? "New" = some .optionalNew := by decide +kernel
  have hgnu : Fix.parse? "gnu" = none := by decide +kernel
  have hname : Fix.parse? "OPTIONAL_NEW" = some .optionalNew := by decide +kernel
  have hconst : Fix.parse? "const" = none := by decide +kernel
  obtain ⟨found, htokens, hhas, -, -, hfails, -⟩ := hfixes
    (.tuple (["New", "gnu", "OPTIONAL_NEW", "const"].map .text)) _ rfl
  have hunknown : ["New", "gnu", "OPTIONAL_NEW", "const"].filter
      (fun t => (Fix.parse? t).isNone) = ["gnu", "const"] := by
    simp [hnew, hgnu, hname, hconst]
  have hone : Profile.parse? (.text "1") = .ok (some .expanded) :=
    Except.eq_ok_of_toOption (by decide +kernel)
  have hexpand : Profile.parse? (.text "expand") = .ok none :=
    Except.eq_ok_of_toOption (by decide +kernel)
  refine ⟨?_, ⟨found, ?_, (hhas _).mpr ⟨"New", by simp, hnew⟩⟩, ?_, ?_, ?_⟩
  · rw [htokens, hunknown]
    rfl
  · rw [htokens]
  · refine (hfails _).mpr ⟨"gnu", ⟨["New"], ["OPTIONAL_NEW", "const"], rfl, ?_, hgnu⟩, rfl⟩
    rw [List.forall_mem_singleton, hnew]
    rfl
  · have hvalid : Profile.validate (.text "1") = .ok (some .expanded) := by
      rw [Profile.validate, hone]
      nofun
    have hreadable : ∀ fault, Profile.parse? (.text "1") ≠ .error fault := by
      rw [hone]
      nofun
    exact (((hprofiles "1" hreadable).1 _).mp hvalid).2
  · have hreadable : ∀ fault, Profile.parse? (.text "expand") ≠ .error fault := by
      rw [hexpand]
      nofun
    refine (hprofiles "expand" hreadable).2.mpr ?_
    rw [Profile.ofToken, hexpand]
    · exact ⟨rfl, _, rfl⟩
    · nofun

end FormatSettings
