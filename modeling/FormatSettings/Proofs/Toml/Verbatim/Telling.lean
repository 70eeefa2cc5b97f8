import FormatSettings.Proofs.Toml.Breaks
import FormatSettings.Proofs.Toml.Ops
import FormatSettings.Proofs.Toml.Verbatim.Values

namespace FormatSettings.Toml.Verbatim

def valueOf (cs : List Char) : Value :=
  ((Toml.readValue? (cs.length + 1) cs).map (·.1)).getD .null

theorem valueOf_finishes {cs : List Char} {v : Value} (h : Finishes cs v) : valueOf cs = v := by
  obtain ⟨fuel, rest, hread, -⟩ := h.reads
  have hagain : Toml.readValue? (cs.length + 1) cs = some (v, rest) :=
    (readValue?_freely fuel cs v rest hread).2 (cs.length + 1) (by omega)
  rw [valueOf, hagain]
  rfl

def pairBelow (name : String) (pair : List String × Value) : List String × Value :=
  (name :: pair.1, pair.2)

mutual

/-- The pairs that an entry writes under the header of its table. -/
def Entry.pairs : Entry → List (List String × Value)
  | .value key margin _ text => [([key.name], valueOf (unifyBreaks (text ++ margin.close)))]
  | .table key _ entries => if key.isDotted then (pairsOf entries).map (pairBelow key.name) else []
  | _ => []

def pairsOf : List Entry → List (List String × Value)
  | [] => []
  | e :: rest => e.pairs ++ pairsOf rest

end

mutual

/-- The sections that an entry writes behind the pairs of its table, with their paths from there. -/
def Entry.sections : Entry → List Toml.Section
  | .table key head entries =>
    if key.isDotted then []
    else if head.isPassed && !entries.any Entry.needsHeader then
      (sectionsOf entries).map (Section.below [key.name])
    else ⟨false, [key.name], pairsOf entries⟩ :: (sectionsOf entries).map (Section.below [key.name])
  | .tables key _ items => itemsSections key.name items
  | _ => []

def sectionsOf : List Entry → List Toml.Section
  | [] => []
  | e :: rest => e.sections ++ sectionsOf rest

def itemsSections (name : String) : List (Head × List Entry) → List Toml.Section
  | [] => []
  | item :: rest => itemSections name item ++ itemsSections name rest

def itemSections (name : String) : Head × List Entry → List Toml.Section
  | (_, entries) => ⟨true, [name], pairsOf entries⟩ :: (sectionsOf entries).map (Section.below [name])

end

def Entry.ops (e : Entry) : List Op :=
  e.pairs.map Op.ofPair ++ e.sections.map Op.block

def opsOf (entries : List Entry) : List Op :=
  entries.flatMap Entry.ops

theorem pairsOf_eq (entries : List Entry) : pairsOf entries = entries.flatMap Entry.pairs := by
  induction entries with
  | nil => rfl
  | cons e entries ih => rw [pairsOf, ih, List.flatMap_cons]

theorem sectionsOf_eq (entries : List Entry) : sectionsOf entries = entries.flatMap Entry.sections := by
  induction entries with
  | nil => rfl
  | cons e entries ih => rw [sectionsOf, ih, List.flatMap_cons]

theorem itemsSections_eq (name : String) (items : List (Head × List Entry)) :
    itemsSections name items = items.flatMap (itemSections name) := by
  induction items with
  | nil => rfl
  | cons item items ih => rw [itemsSections, ih, List.flatMap_cons]

theorem sectionsOf_append (es fs : List Entry) : sectionsOf (es ++ fs) = sectionsOf es ++ sectionsOf fs := by
  simp only [sectionsOf_eq, List.flatMap_append]

theorem itemsSections_append (name : String) (items more : List (Head × List Entry)) :
    itemsSections name (items ++ more) = itemsSections name items ++ itemsSections name more := by
  simp only [itemsSections_eq, List.flatMap_append]

/-- An entry of a line of its own: blanks, a comment or a pair. -/
inductive IsLine : Entry → Prop
  | blank {text : List Char} (h : ∀ c ∈ unifyBreaks text, IsSpace c) : IsLine (.blank text)
  | note {margin : Margin}
      (h : Says (unifyBreaks (margin.indent ++ margin.comment ++ margin.ending)) []) :
      IsLine (.note margin)
  | pair {keys : List Key} {front blanks text : List Char} {margin : Margin} {form : Form} {v : Value}
      {e : Entry} (hkeys : AreWritten keys) (hindent : Blanks margin.indent) (hfront : Blanks front)
      (hblanks : Blanks blanks) (hvalue : Finishes (unifyBreaks (text ++ margin.close)) v)
      (hbroken : margin.breaksAfter = false →
        Finishes (unifyBreaks (text ++ margin.close) ++ ['\n']) v)
      (hflag : form = .flag → IsFlag text v)
      (he : Entry.ofPath (separateLast (front ++ '=' :: blanks) keys)
        (fun key => .value key margin form text) = some e) : IsLine e

theorem cases_of_ofPath {separator : List Char} {last : Key → Entry} {keys : List Key} {e : Entry}
    (h : Entry.ofPath (separateLast separator keys) last = some e) :
    (∃ key, keys = [key] ∧ e = last { key with separator := separator }) ∨
      ∃ key next more inner, keys = key :: next :: more ∧
        Entry.ofPath (separateLast separator (next :: more)) last = some inner ∧
        e = .table { key with isDotted := true } Head.passed [inner] := by
  match keys with
  | [] => cases h
  | [key] =>
    cases h
    exact .inl ⟨key, rfl, rfl⟩
  | [key, next] =>
    cases h
    exact .inr ⟨key, next, [], _, rfl, rfl, rfl⟩
  | key :: next :: third :: more =>
    obtain ⟨inner, hinner, rfl⟩ := Option.map_eq_some_iff.mp h
    exact .inr ⟨key, next, third :: more, inner, rfl, hinner, rfl⟩

theorem pairs_ofPath {separator text : List Char} {margin : Margin} {form : Form} {keys : List Key}
    (hplain : ∀ key ∈ keys, key.isDotted = false) {e : Entry}
    (he : Entry.ofPath (separateLast separator keys) (fun key => .value key margin form text) = some e) :
    e.pairs = [(keys.map (·.name), valueOf (unifyBreaks (text ++ margin.close)))] := by
  induction keys generalizing e with
  | nil => cases he
  | cons key keys ih =>
    rcases cases_of_ofPath he with ⟨key, hkeys, rfl⟩ | ⟨key, next, more, inner, hkeys, hinner, rfl⟩
    · cases hkeys
      rfl
    · cases hkeys
      rw [Entry.pairs, if_pos rfl, pairsOf, pairsOf, List.append_nil,
        ih (fun k hk => hplain k (List.mem_cons_of_mem _ hk)) hinner]
      rfl

/-- What stands before a header: blanks, behind a break if the header has been moved. -/
def IsLead (indent : List Char) : Prop :=
  Blanks indent ∨ ∃ blanks, Blanks blanks ∧ indent = '\n' :: blanks

structure KeptHeader (margin : Margin) : Prop where
  lead : IsLead margin.indent
  closes : Closes (unifyBreaks margin.close)
  broken : margin.breaksAfter = false → Closes (unifyBreaks margin.close ++ ['\n'])

end FormatSettings.Toml.Verbatim
