import FormatSettings.Proofs.Toml.Reading
import FormatSettings.Toml.Document
import FormatSettings.Toml.Render

namespace FormatSettings.Toml

def dotted : List Word → Word → List Char
  | [], name => name.chars
  | w :: above, name => w.chars ++ '.' :: dotted above name

inductive Row
  | blank
  | header (above : List Word) (name : Word)
  | pair (key : Word) (d : Datum)

namespace Row

def body : Row → List Char
  | .blank => []
  | .header above name => '[' :: dotted above name ++ [']']
  | .pair key d => key.chars ++ ' ' :: '=' :: ' ' :: d.chars

def chars (r : Row) : List Char :=
  r.body ++ ['\n']

def statement : Row → Statement
  | .blank => .nothing
  | .header above name => .header false (above.map Word.text ++ [name.text])
  | .pair key d => .pair [key.text] d.value

end Row

def IsShown (c : Char) : Prop :=
  32 ≤ c.toNat ∧ c.toNat ≤ 126

theorem isShown_of_isBareKeyChar {c : Char} (h : isBareKeyChar c = true) : IsShown c := by
  obtain ⟨hlow, hhigh⟩ := toNat_of_isBareKeyChar h
  exact ⟨by omega, by omega⟩

theorem IsShown.ne_feed {c : Char} (h : IsShown c) : c ≠ '\n' := by
  rintro rfl
  exact absurd h.1 (by decide)

theorem IsShown.ne_return {c : Char} (h : IsShown c) : c ≠ '\r' := by
  rintro rfl
  exact absurd h.1 (by decide)

theorem isShown_dotted {above : List Word} {name : Word} {c : Char} (h : c ∈ dotted above name) :
    IsShown c := by
  induction above with
  | nil => exact isShown_of_isBareKeyChar (name.isBareKeyChar_of_mem h)
  | cons w above ih =>
    rw [dotted, List.mem_append, List.mem_cons] at h
    rcases h with h | rfl | h
    · exact isShown_of_isBareKeyChar (w.isBareKeyChar_of_mem h)
    · exact ⟨by decide, by decide⟩
    · exact ih h

theorem isShown_quoted {w : Word} {c : Char} (h : c ∈ w.quoted) : IsShown c := by
  rw [Word.quoted, List.mem_append, List.mem_cons, List.mem_singleton] at h
  rcases h with (rfl | h) | rfl
  · exact ⟨by decide, by decide⟩
  · exact isShown_of_isBareKeyChar (w.isBareKeyChar_of_mem h)
  · exact ⟨by decide, by decide⟩

theorem isShown_listed {ws : List Word} {c : Char} (h : c ∈ listed ws []) : IsShown c := by
  induction ws with
  | nil =>
    rw [List.mem_singleton.mp h]
    exact ⟨by decide, by decide⟩
  | cons w ws ih =>
    rw [listed_cons, List.mem_cons, List.mem_append, List.mem_cons] at h
    rcases h with rfl | h | rfl | h
    · exact ⟨by decide, by decide⟩
    · exact isShown_quoted h
    · exact ⟨by decide, by decide⟩
    · exact ih h

theorem isShown_datum {d : Datum} {c : Char} (h : c ∈ d.chars) : IsShown c := by
  cases d with
  | flag b => exact isShown_of_isBareKeyChar (isBareKeyChar_of_mem_flagChars c h)
  | number n _ => exact isShown_of_isBareKeyChar (isBareKeyChar_of_mem_decimal h)
  | word w => exact isShown_quoted h
  | words ws =>
    rw [chars_words, List.mem_cons] at h
    rcases h with rfl | h
    · exact ⟨by decide, by decide⟩
    · exact isShown_listed h

theorem isShown_body {r : Row} {c : Char} (h : c ∈ r.body) : IsShown c := by
  cases r with
  | blank => cases h
  | header above name =>
    rw [Row.body, List.mem_append, List.mem_cons, List.mem_singleton] at h
    rcases h with (rfl | h) | rfl
    · exact ⟨by decide, by decide⟩
    · exact isShown_dotted h
    · exact ⟨by decide, by decide⟩
  | pair key d =>
    simp only [Row.body, List.mem_append, List.mem_cons] at h
    rcases h with h | rfl | rfl | rfl | h
    · exact isShown_of_isBareKeyChar (key.isBareKeyChar_of_mem h)
    · exact ⟨by decide, by decide⟩
    · exact ⟨by decide, by decide⟩
    · exact ⟨by decide, by decide⟩
    · exact isShown_datum h

def IsInert (c : Char) : Prop :=
  ∀ depth, Mode.step (.plain depth) c = .plain depth

theorem isQuote_of_isBareKeyChar {c : Char} (h : isBareKeyChar c = true) : isQuote c = false := by
  simp only [isQuote, Bool.or_eq_false_iff, beq_eq_false_iff_ne]
  exact ⟨ne_of_isBareKeyChar h (by decide), ne_of_isBareKeyChar h (by decide)⟩

theorem isInert_of_isBareKeyChar {c : Char} (h : isBareKeyChar c = true) : IsInert c := by
  intro depth
  have hcomment : c ≠ '#' := ne_of_isBareKeyChar h (by decide)
  have hquote := isQuote_of_isBareKeyChar h
  have hopen : c ≠ '[' ∧ c ≠ '\x7b' :=
    ⟨ne_of_isBareKeyChar h (by decide), ne_of_isBareKeyChar h (by decide)⟩
  have hclose : c ≠ ']' ∧ c ≠ '\x7d' :=
    ⟨ne_of_isBareKeyChar h (by decide), ne_of_isBareKeyChar h (by decide)⟩
  simp [Mode.step, Mode.stepPlain, hcomment, hquote, hopen, hclose]

theorem foldl_step_of_inert {cs : List Char} (h : ∀ c ∈ cs, IsInert c) (depth : Nat) :
    cs.foldl Mode.step (.plain depth) = .plain depth := by
  induction cs with
  | nil => rfl
  | cons c cs ih =>
    rw [List.foldl_cons, h c List.mem_cons_self depth]
    exact ih fun d hd => h d (List.mem_cons_of_mem _ hd)

theorem foldl_step_word (w : Word) (depth : Nat) :
    w.chars.foldl Mode.step (.plain depth) = .plain depth :=
  foldl_step_of_inert (fun _ hc => isInert_of_isBareKeyChar (w.isBareKeyChar_of_mem hc)) depth

theorem foldl_step_single {cs : List Char} (h : ∀ c ∈ cs, isBareKeyChar c = true) (depth : Nat) :
    cs.foldl Mode.step (.single '"' depth false) = .single '"' depth false := by
  induction cs with
  | nil => rfl
  | cons c cs ih =>
    have hc := h c List.mem_cons_self
    have hquote : c ≠ '"' := ne_of_isBareKeyChar hc (by decide)
    have hslash : c ≠ '\\' := ne_of_isBareKeyChar hc (by decide)
    have hstep : Mode.step (.single '"' depth false) c = .single '"' depth false := by
      simp [Mode.step, Mode.stepSingle, hquote, hslash]
    rw [List.foldl_cons, hstep]
    exact ih fun d hd => h d (List.mem_cons_of_mem _ hd)

theorem foldl_step_quoted (w : Word) (depth : Nat) :
    w.quoted.foldl Mode.step (.plain depth) = .plain depth := by
  have hbare : ∀ c ∈ w.chars, isBareKeyChar c = true := fun c hc => w.isBareKeyChar_of_mem hc
  rw [Word.quoted]
  obtain ⟨c, cs, hchars, hc⟩ := w.chars_eq_cons
  rw [hchars] at hbare ⊢
  have hquote : c ≠ '"' := ne_of_isBareKeyChar hc (by decide)
  have hslash : c ≠ '\\' := ne_of_isBareKeyChar hc (by decide)
  have hopen : Mode.step (.plain depth) '"' = .opened '"' depth := rfl
  have hfirst : Mode.step (.opened '"' depth) c = .single '"' depth false := by
    simp [Mode.step, Mode.stepSingle, hquote, hslash]
  have hrest := foldl_step_single (fun d hd => hbare d (List.mem_cons_of_mem _ hd)) depth
  have hclose : Mode.step (.single '"' depth false) '"' = .plain depth := rfl
  rw [List.cons_append, List.foldl_cons, hopen, List.cons_append, List.foldl_cons, hfirst,
    List.foldl_append, hrest, List.foldl_cons, hclose, List.foldl_nil]

theorem foldl_step_listed (ws : List Word) :
    (listed ws []).foldl Mode.step (.plain 1) = .plain 0 := by
  induction ws with
  | nil => rfl
  | cons w ws ih =>
    have hblank : Mode.step (.plain 1) ' ' = .plain 1 := rfl
    have hcomma : Mode.step (.plain 1) ',' = .plain 1 := rfl
    rw [listed_cons, List.foldl_cons, hblank, List.foldl_append, foldl_step_quoted, List.foldl_cons,
      hcomma, ih]

theorem foldl_step_datum (d : Datum) : d.chars.foldl Mode.step .start = .start := by
  cases d with
  | flag b =>
    exact foldl_step_of_inert
      (fun c hc => isInert_of_isBareKeyChar (isBareKeyChar_of_mem_flagChars c hc)) 0
  | number n _ =>
    exact foldl_step_of_inert
      (fun c hc => isInert_of_isBareKeyChar (isBareKeyChar_of_mem_decimal hc)) 0
  | word w => exact foldl_step_quoted w 0
  | words ws =>
    have hopen : Mode.step .start '[' = .plain 1 := rfl
    rw [chars_words, List.foldl_cons, hopen, foldl_step_listed]
    rfl

theorem foldl_step_dotted (above : List Word) (name : Word) (depth : Nat) :
    (dotted above name).foldl Mode.step (.plain depth) = .plain depth := by
  induction above with
  | nil => exact foldl_step_word name depth
  | cons w above ih =>
    have hdot : Mode.step (.plain depth) '.' = .plain depth := rfl
    rw [dotted, List.foldl_append, foldl_step_word, List.foldl_cons, hdot, ih]

theorem foldl_step_body (r : Row) : r.body.foldl Mode.step .start = .start := by
  cases r with
  | blank => rfl
  | header above name =>
    have hopen : Mode.step .start '[' = .plain 1 := rfl
    have hclose : Mode.step (.plain 1) ']' = .start := rfl
    rw [Row.body, List.cons_append, List.foldl_cons, hopen, List.foldl_append, foldl_step_dotted,
      List.foldl_cons, hclose, List.foldl_nil]
  | pair key d =>
    have hequals : Mode.step (Mode.step (Mode.step .start ' ') '=') ' ' = .start := rfl
    have hkey : key.chars.foldl Mode.step .start = .start := foldl_step_word key 0
    rw [Row.body, List.foldl_append, hkey, List.foldl_cons, List.foldl_cons, List.foldl_cons,
      hequals, foldl_step_datum]

theorem splitFrom_append {cs : List Char} (h : ∀ c ∈ cs, c ≠ '\n') (mode : Mode)
    (rest : List Char) :
    splitFrom mode (cs ++ rest) =
      (cs ++ (splitFrom (cs.foldl Mode.step mode) rest).1,
        (splitFrom (cs.foldl Mode.step mode) rest).2) := by
  induction cs generalizing mode with
  | nil => rfl
  | cons c cs ih =>
    have hc : c ≠ '\n' := h c List.mem_cons_self
    have hrest := ih (fun d hd => h d (List.mem_cons_of_mem _ hd)) (mode.step c)
    rw [List.cons_append, splitFrom, hrest]
    simp [hc]

theorem splitLines_row (r : Row) (rest : List Char) :
    splitLines (r.chars ++ rest) = r.chars :: splitLines rest := by
  have hbody := splitFrom_append (fun c hc => (isShown_body (r := r) hc).ne_feed) .start
    ('\n' :: rest)
  rw [foldl_step_body] at hbody
  rw [Row.chars, List.append_assoc, List.singleton_append, splitLines, hbody]
  simp [splitFrom, splitLines, Mode.start, Mode.ends]

theorem splitLines_rows (rows : List Row) :
    splitLines (rows.flatMap Row.chars) = rows.map Row.chars ++ [[]] := by
  induction rows with
  | nil => rfl
  | cons r rows ih => rw [List.flatMap_cons, splitLines_row, ih, List.map_cons, List.cons_append]

end FormatSettings.Toml
