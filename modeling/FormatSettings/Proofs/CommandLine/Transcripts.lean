import FormatSettings.CommandLine.Run
import FormatSettings.Proofs.Report
import Mathlib.Data.List.TakeWhile

namespace FormatSettings.CommandLine

namespace Transcript

variable {α β : Type}

theorem outcome_bind (t : Transcript α) (f : α → Transcript β) :
    (t >>= f).outcome = t.outcome >>= fun a => (f a).outcome := by
  change (t.bind f).outcome = _
  unfold bind
  cases t.outcome with
  | error e => rfl
  | ok a => rfl

@[simp] theorem outcome_ofReport (r : Report α) : (ofReport r).outcome = r.outcome := rfl

@[simp] theorem events_ofReport (r : Report α) : (ofReport r).events = r.notices.map .log := rfl

end Transcript

namespace Event

theorem outputOf_append (first second : List Event) :
    outputOf (first ++ second) = outputOf first ++ outputOf second := by
  rw [outputOf, List.map_append, String.join_append]
  rfl

theorem outputOf_logs (notices : List Notice) : outputOf (notices.map .log) = "" := by
  induction notices with
  | nil => rfl
  | cons n notices ih =>
    rw [List.map_cons, ← List.singleton_append, outputOf_append, ih]
    rfl

end Event

namespace Run

variable [Host] {level : Nat} {t : Transcript Ending}

theorem ofTranscript_of_steady (h : ∀ e ∈ t.events, e.breaksOff level = false) :
    ofTranscript level t =
      ⟨some level, t.events.filterMap (·.logged? level), Event.outputOf t.events,
        .settled t.outcome⟩ := by
  have hdone : t.events.takeWhile (fun e => !e.breaksOff level) = t.events := by
    refine List.takeWhile_eq_self_iff.mpr fun e he => ?_
    rw [h e he]
    rfl
  have hnone : t.events.any (·.breaksOff level) = false := by
    refine List.any_eq_false.mpr fun e he => ?_
    rw [h e he]
    exact Bool.false_ne_true
  simp only [ofTranscript, hdone, hnone, Bool.false_eq_true, ↓reduceIte]

theorem ending_ofTranscript_of_break {e : Event} (he : e ∈ t.events)
    (hbreaks : e.breaksOff level = true) : (ofTranscript level t).ending = .failed .tooDeep := by
  have hany : t.events.any (·.breaksOff level) = true := List.any_eq_true.mpr ⟨e, he, hbreaks⟩
  simp only [ofTranscript, hany, ↓reduceIte]

end Run

namespace Setting

variable [Host] {s : Setting} {flags : List (GroupFlag × Option String)} {severity : Severity}

def transcript (env : Option Nat) (severity : Severity) (go : Transcript Ending) :
    Transcript Ending :=
  ⟨.log ⟨.debug, levelText env severity⟩ :: go.events, go.outcome⟩

theorem atLevel_eq {env : Option Nat}
    (hseverity : Log.ofFlags (countOf flags .verbose) (countOf flags .quiet) = .ok severity)
    (henv : Log.ofEnvironment? s.levelVariable = .ok env) (go : Transcript Ending) :
    s.atLevel flags go = .ofTranscript (levelFor env severity) (transcript env severity go) := by
  simp only [atLevel, hseverity, henv]
  rfl

def BreaksOff (go : Transcript Ending) (level : Nat) : Prop :=
  ∃ e ∈ go.events, e.breaksOff level = true

theorem atLevel_cases {env : Option Nat}
    (hseverity : Log.ofFlags (countOf flags .verbose) (countOf flags .quiet) = .ok severity)
    (henv : Log.ofEnvironment? s.levelVariable = .ok env) (go : Transcript Ending) :
    (BreaksOff go (levelFor env severity) ∧ (s.atLevel flags go).ending = .failed .tooDeep) ∨
      ¬ BreaksOff go (levelFor env severity) ∧
        (s.atLevel flags go).ending = .settled go.outcome ∧
        (s.atLevel flags go).output = Event.outputOf go.events ∧
        (s.atLevel flags go).notices =
          (transcript env severity go).events.filterMap (·.logged? (levelFor env severity)) := by
  rw [atLevel_eq hseverity henv]
  by_cases h : BreaksOff go (levelFor env severity)
  · obtain ⟨e, he, hbreaks⟩ := h
    exact .inl ⟨⟨e, he, hbreaks⟩, Run.ending_ofTranscript_of_break (List.mem_cons_of_mem _ he) hbreaks⟩
  · have hsteady : ∀ e ∈ (transcript env severity go).events,
        e.breaksOff (levelFor env severity) = false := by
      intro e he
      rcases List.mem_cons.mp he with rfl | he
      · -- The first record shows no values.
        exact Bool.and_eq_false_iff.mpr (.inr (decide_eq_false (Nat.not_lt_zero _)))
      · exact Bool.eq_false_iff.mpr fun hbreaks => h ⟨e, he, hbreaks⟩
    rw [Run.ofTranscript_of_steady hsteady]
    refine .inr ⟨h, rfl, ?_, rfl⟩
    change Event.outputOf ([_] ++ go.events) = _
    rw [Event.outputOf_append]
    exact String.empty_append

end Setting

end FormatSettings.CommandLine
