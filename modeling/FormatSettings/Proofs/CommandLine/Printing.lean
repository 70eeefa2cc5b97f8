import FormatSettings.Proofs.CommandLine.Transcripts
import FormatSettings.Proofs.Options.Sheets
import FormatSettings.Proofs.Toml.Nesting
import FormatSettings.Proofs.Toml.Rendering

namespace FormatSettings

open Toml

theorem Toml.sheetRows_eq_append (above : List Word) (s : Sheet) (rest : List Sheet) :
    ∃ front r, sheetRows above (s :: rest) = front ++ [r] ∧ r.body ≠ [] := by
  induction rest generalizing s with
  | nil => exact rows_eq_append above s
  | cons t rest ih =>
    obtain ⟨front, r, hrows, hbody⟩ := ih t
    refine ⟨s.rows above ++ .blank :: front, r, ?_, hbody⟩
    rw [sheetRows, hrows, List.append_assoc, List.cons_append]

namespace Options

theorem withinDigitLimit_of_render {o : Options} {t : Table} {text : String}
    (ht : o.toTable = .ok t) (h : render t = .ok text) {n : Nat} (hn : n ∈ o.numbers) :
    Text.withinDigitLimit (.ofNat n) = true := by
  obtain ⟨formatting, hformatting, ht⟩ := Except.bind_eq_ok.mp ht
  obtain ⟨keys, _, hpairs⟩ := Except.bind_eq_ok.mp hformatting
  cases ht
  cases hpairs
  simp only [numbers, List.mem_cons, List.not_mem_nil, or_false] at hn
  have formattingEntry (key : String) {i : Int} (hi : (key, Value.int i) ∈ _) :=
    Toml.withinDigitLimit_of_render h List.mem_cons_self hi
  have widthEntry (key : String) {i : Int} (hi : (key, Value.int i) ∈ _) :=
    Toml.withinDigitLimit_of_render h (List.mem_cons_of_mem _ List.mem_cons_self) hi
  rcases hn with rfl | rfl | rfl | rfl | rfl | rfl
  · exact formattingEntry Key.indent (by simp)
  · exact formattingEntry Key.pageWidth (by simp)
  · exact widthEntry Key.block (by simp [Widths.toTable])
  · exact widthEntry Key.cascade (by simp [Widths.toTable])
  · exact widthEntry Key.expression (by simp [Widths.toTable])
  · exact widthEntry Key.constructorInitializer (by simp [Widths.toTable])

end Options

namespace CommandLine

def markedBlock (text : String) : String :=
  lines [blockStart, dropLastBreaks text, blockEnd]

/-- What is printed is a document between the marker lines, and the document is read as a table. -/
def Prints (out : String) (t : Table) : Prop :=
  ∃ text, out = blockStart ++ "\n" ++ text ++ blockEnd ++ "\n" ∧
    Toml.table? text.toList = some t

def forProgram (t : Table) : Table :=
  [(Key.tool, .table [(Key.program, .table t)])]

theorem dropLastBreaks_row (front : List Char) {r : Row} (h : r.body ≠ []) :
    dropLastBreaks (String.ofList (front ++ r.chars)) = String.ofList (front ++ r.body) := by
  obtain ⟨start, c, hlast, hc⟩ := Row.body_eq_append h
  simp [dropLastBreaks, Row.chars, hlast, hc]

theorem markedBlock_rows {rows front : List Row} {r : Row} (hrows : rows = front ++ [r])
    (hbody : r.body ≠ []) :
    markedBlock (String.ofList (rows.flatMap Row.chars)) =
      blockStart ++ "\n" ++ String.ofList (rows.flatMap Row.chars) ++ blockEnd ++ "\n" := by
  have hflat : rows.flatMap Row.chars = front.flatMap Row.chars ++ r.chars := by
    rw [hrows, List.flatMap_append, List.flatMap_singleton]
  rw [hflat, markedBlock, dropLastBreaks_row _ hbody]
  apply String.toList_inj.mp
  simp [lines, Row.chars]

theorem prints_rows {rows front : List Row} {r : Row} {t : Table} (hrows : rows = front ++ [r])
    (hbody : r.body ≠ []) (ht : Toml.table? (rows.flatMap Row.chars) = some t) :
    Prints (markedBlock (String.ofList (rows.flatMap Row.chars))) t :=
  ⟨_, markedBlock_rows hrows hbody, by rw [String.toList_ofList]; exact ht⟩

theorem prints_of_documentText {shared : Bool} {o : Options} {t : Table} {text : String}
    (hothers : o.fixes.others = []) (ht : o.toTable = .ok t)
    (h : documentText shared o = .ok text) :
    Prints (markedBlock text) (if shared then forProgram t else t) := by
  rw [documentText, ht] at h
  change (render t >>= _) = _ at h
  obtain ⟨plain, hplain, h⟩ := Except.bind_eq_ok.mp h
  -- What was rendered had all its numbers within the limit, so the table is one of sheets.
  have hstorable : o.Storable := ⟨hothers, fun n hn => o.withinDigitLimit_of_render ht hplain hn⟩
  have hnames := o.nodup_sheets hstorable
  have hsheets : t = sheetTable (o.sheets hstorable) :=
    Except.ok.inj (ht.symm.trans (o.toTable_eq_sheets hstorable))
  rw [hsheets, render_sheets] at hplain
  cases hplain
  cases shared with
  | false =>
    obtain ⟨front, r, hrows, hbody⟩ := sheetRows_eq_append [] (o.formattingSheet hstorable) _
    cases h
    rw [hsheets]
    exact prints_rows hrows hbody (table?_sheetChars hnames)
  | true =>
    let tool : Toml.Word := { text := Key.tool }
    let program : Toml.Word := { text := Key.program }
    obtain ⟨front, r, hrows, hbody⟩ :=
      sheetRows_eq_append [tool, program] (o.formattingSheet hstorable) _
    have hnest : nest (String.ofList (sheetChars (o.sheets hstorable))) sharedSection =
        .ok (String.ofList (nestedChars [tool] program (o.sheets hstorable))) :=
      nest_sheetChars (by decide +kernel) hnames
    cases hnest.symm.trans h
    rw [hsheets]
    have hnested : Row.header [tool] program :: sheetRows [tool, program] (o.sheets hstorable) =
        (.header [tool] program :: front) ++ [r] := by
      rw [List.cons_append, ← hrows]
      rfl
    exact prints_rows hnested hbody (table?_nestedChars [tool] program hnames)

section Show

variable [Host] {r : Request} {d : Disk}

theorem showConfig_of_error {f : Failure}
    (h : ((r.options d).outcome >>= documentText r.forSharedFile) = .error f) :
    showConfig r d = ⟨(r.options d).notices.map .log, .error f⟩ := by
  change (Transcript.ofReport (r.options d)).bind _ = _
  unfold Transcript.bind
  rw [Transcript.outcome_ofReport]
  cases ho : (r.options d).outcome with
  | error e =>
    rw [ho] at h
    cases h
    rfl
  | ok o =>
    rw [ho] at h
    change documentText r.forSharedFile o = .error f at h
    simp only [h, Report.ofExcept]
    change Transcript.mk (_ ++ []) _ = _
    rw [List.append_nil]
    rfl

theorem showConfig_of_ok {o : Options} {text : String} (ho : (r.options d).outcome = .ok o)
    (htext : documentText r.forSharedFile o = .ok text) :
    showConfig r d =
      ⟨(r.options d).notices.map .log ++ (echoMarked text).events, .ok ()⟩ := by
  change (Transcript.ofReport (r.options d)).bind _ = _
  unfold Transcript.bind
  rw [Transcript.outcome_ofReport, ho]
  simp only [htext, Report.ofExcept]
  rfl

theorem outcome_showConfig (r : Request) (d : Disk) :
    (showConfig r d).outcome =
      ((r.options d).outcome >>= documentText r.forSharedFile).map fun _ => () := by
  cases h : (r.options d).outcome >>= documentText r.forSharedFile with
  | error f =>
    rw [showConfig_of_error h]
    rfl
  | ok text =>
    obtain ⟨o, ho, htext⟩ := Except.bind_eq_ok.mp h
    rw [showConfig_of_ok ho htext]
    rfl

theorem outputOf_showConfig (r : Request) (d : Disk) :
    Event.outputOf (showConfig r d).events =
      match (r.options d).outcome >>= documentText r.forSharedFile with
      | .error _ => ""
      | .ok text => markedBlock text := by
  cases h : (r.options d).outcome >>= documentText r.forSharedFile with
  | error f =>
    rw [showConfig_of_error h]
    exact Event.outputOf_logs _
  | ok text =>
    obtain ⟨o, ho, htext⟩ := Except.bind_eq_ok.mp h
    rw [showConfig_of_ok ho htext, Event.outputOf_append, Event.outputOf_logs]
    exact String.empty_append

theorem mem_notices_of_mem_events {n : Notice} (h : .log n ∈ (showConfig r d).events) :
    n ∈ (r.options d).notices := by
  cases hprint : (r.options d).outcome >>= documentText r.forSharedFile with
  | error f =>
    rw [showConfig_of_error hprint] at h
    simpa using h
  | ok text =>
    obtain ⟨o, ho, htext⟩ := Except.bind_eq_ok.mp hprint
    rw [showConfig_of_ok ho htext] at h
    rcases List.mem_append.mp h with h | h
    · simpa using h
    · rcases h with _ | ⟨_, _ | ⟨_, _ | ⟨_, ⟨⟩⟩⟩⟩

end Show

end CommandLine

end FormatSettings
