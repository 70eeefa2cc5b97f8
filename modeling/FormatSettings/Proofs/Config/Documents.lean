import FormatSettings.Proofs.Config.Loading

namespace FormatSettings

theorem isSome_decodeText?_iff {bytes : ByteArray} :
    (decodeText? bytes).isSome = true ↔ bytes.IsValidUTF8 := by
  rw [decodeText?, Option.isSome_map, String.fromUTF8?]
  split
  · next h => exact iff_of_true rfl h
  · next h => exact iff_of_false Bool.false_ne_true h

namespace Config

variable {d : Disk} {p : Path}

section Host

variable [Host]

def document? (d : Disk) (p : Path) : Option Table := do
  let bytes ← (d.read p).toOption
  let cs ← decodeText? bytes
  parse? cs

/-- A path that loading does not fail for, whatever text stands there. -/
structure IsLoadable (d : Disk) (p : Path) : Prop where
  null : p.hasNull = false
  utf8 : ∀ bytes, d.read p = .ok bytes → bytes.IsValidUTF8

inductive Explains (d : Disk) (p : Path) : String → Prop
  | unread {fault : FileFault} (h : d.read p = .error fault) : Explains d p (faultText p fault)
  | invalid {bytes : ByteArray} {cs : List Char} (h : d.read p = .ok bytes)
      (hcs : decodeText? bytes = some cs) (hparse : parse? cs = none) : Explains d p (invalidText p)

theorem load_of_null (hn : p.hasNull = true) : load d p = ⟨[], .error (.value .nullInPath)⟩ := by
  rw [load, if_pos hn]
  rfl

theorem load_of_fault (hn : p.hasNull = false) {fault : FileFault} (h : d.read p = .error fault) :
    load d p = ⟨[⟨.error, faultText p fault⟩], .ok []⟩ := by
  rw [load, hn, h]
  rfl

theorem load_of_bytes (hn : p.hasNull = false) {bytes : ByteArray} (h : d.read p = .ok bytes)
    (hutf8 : ¬ bytes.IsValidUTF8) : load d p = ⟨[], .error (.notUnicode p.toText)⟩ := by
  have hnone : decodeText? bytes = none := by
    rw [← Option.not_isSome_iff_eq_none, isSome_decodeText?_iff]
    exact hutf8
  rw [load, hn, h]
  simp only [Bool.false_eq_true, ↓reduceIte, hnone]
  rfl

theorem document?_of_text {bytes : ByteArray} (h : d.read p = .ok bytes) {cs : List Char}
    (hcs : decodeText? bytes = some cs) : document? d p = parse? cs := by
  rw [document?, h]
  change (decodeText? bytes >>= parse?) = _
  rw [hcs]
  rfl

end Host

theorem load_of_text (hn : p.hasNull = false) {bytes : ByteArray} (h : d.read p = .ok bytes)
    {cs : List Char} (hcs : decodeText? bytes = some cs) :
    load d p = match parse? cs with
      | some t => ⟨[], .ok t⟩
      | none => ⟨[⟨.error, invalidText p⟩], .ok []⟩ := by
  rw [load, hn, h, parse?_plain]
  simp only [Bool.false_eq_true, ↓reduceIte, hcs, Host.read]
  cases Toml.table? cs with
  | some t => rfl
  | none => rfl

theorem load_cases (d : Disk) (p : Path) :
    (∃ t, IsLoadable d p ∧ document? d p = some t ∧ load d p = ⟨[], .ok t⟩) ∨
      (∃ message, IsLoadable d p ∧ document? d p = none ∧ Explains d p message ∧
        load d p = ⟨[⟨.error, message⟩], .ok []⟩) ∨
      ∃ f, ¬ IsLoadable d p ∧ (f = .value .nullInPath ∨ f = .notUnicode p.toText) ∧
        load d p = ⟨[], .error f⟩ := by
  -- The splits follow the checks: the path, the reading, UTF-8, and last the document.
  cases hn : p.hasNull with
  | true =>
    have hnot : ¬ IsLoadable d p := fun h => Bool.false_ne_true (h.null.symm.trans hn)
    exact .inr (.inr ⟨_, hnot, .inl rfl, load_of_null hn⟩)
  | false =>
    cases hread : d.read p with
    | error fault =>
      have hdocument : document? d p = none := by
        rw [document?, hread]
        rfl
      have hutf8 : ∀ bytes, d.read p = .ok bytes → bytes.IsValidUTF8 := by
        intro bytes h
        cases hread.symm.trans h
      exact .inr (.inl ⟨_, ⟨hn, hutf8⟩, hdocument, .unread hread, load_of_fault hn hread⟩)
    | ok bytes =>
      by_cases hutf8 : bytes.IsValidUTF8
      · obtain ⟨cs, hcs⟩ := Option.isSome_iff_exists.mp (isSome_decodeText?_iff.mpr hutf8)
        have hload := load_of_text hn hread hcs
        have hloadable : IsLoadable d p := by
          refine ⟨hn, fun other h => ?_⟩
          cases hread.symm.trans h
          exact hutf8
        rw [document?_of_text hread hcs]
        cases hparse : parse? cs with
        | some t =>
          rw [hparse] at hload
          exact .inl ⟨t, hloadable, rfl, hload⟩
        | none =>
          rw [hparse] at hload
          exact .inr (.inl ⟨_, hloadable, rfl, .invalid hread hcs hparse, hload⟩)
      · have hnot : ¬ IsLoadable d p := fun h => hutf8 (h.utf8 bytes hread)
        exact .inr (.inr ⟨_, hnot, .inr rfl, load_of_bytes hn hread hutf8⟩)

/-- Loading comes to a table if and only if the path has no null character and the bytes behind it, if
there are any, are UTF-8. Then the table is the document of the file, without a notice, or the empty one,
with one error that explains it. -/
theorem load_ok_iff_isLoadable (d : Disk) (p : Path) :
    ((∃ t, (load d p).outcome = .ok t) ↔ IsLoadable d p) ∧
      (IsLoadable d p → ∀ t, document? d p = some t → load d p = ⟨[], .ok t⟩) ∧
      (IsLoadable d p → document? d p = none →
        ∃ message, Explains d p message ∧ load d p = ⟨[⟨.error, message⟩], .ok []⟩) ∧
      (¬ IsLoadable d p →
        ∃ f, load d p = ⟨[], .error f⟩ ∧ (f = .value .nullInPath ∨ f = .notUnicode p.toText)) := by
  rcases load_cases d p with ⟨t, h, hdocument, hload⟩ | ⟨message, h, hdocument, hmessage, hload⟩ |
    ⟨f, h, hf, hload⟩
  · refine ⟨iff_of_true ⟨t, by rw [hload]⟩ h, ?_, ?_, fun hnot => absurd h hnot⟩
    · intro _ u hu
      cases hdocument.symm.trans hu
      exact hload
    · intro _ hnone
      cases hdocument.symm.trans hnone
  · refine ⟨iff_of_true ⟨[], by rw [hload]⟩ h, ?_, ?_, fun hnot => absurd h hnot⟩
    · intro _ t ht
      cases hdocument.symm.trans ht
    · intro _ _
      exact ⟨message, hmessage, hload⟩
  · refine ⟨iff_of_false ?_ h, fun hyes => absurd hyes h, fun hyes => absurd hyes h, ?_⟩
    · rintro ⟨t, ht⟩
      rw [hload] at ht
      cases ht
    · intro _
      exact ⟨f, hload, hf⟩

def binaryDisk : Disk :=
  ⟨⟨[(["c.toml"], .file ⟨#[0xff, 0x41]⟩)]⟩, []⟩

theorem binary_file_fails_to_load :
    load binaryDisk ⟨0, ["c.toml"]⟩ = ⟨[], .error (.notUnicode "c.toml")⟩ := by
  have hread : binaryDisk.read ⟨0, ["c.toml"]⟩ = .ok ⟨#[0xff, 0x41]⟩ := rfl
  have htext : Path.toText ⟨0, ["c.toml"]⟩ = "c.toml" := by decide +kernel
  rw [load_of_bytes (by decide) hread (by decide +kernel), htext]

end Config

end FormatSettings
