import Mathlib.Data.List.Basic
import Mathlib.Tactic

/-!
# Runs of a deterministic transition system

A system is a step function `step : σ → ε → σ`; a run folds it over the list of events.
The rules below are what the safety proofs use: an invariant of one step is an invariant of
every run, an invariant may also speak about the events so far, and a property that is false
at the start and true at the end of a run became true at one particular step of it.
-/

section Run

variable {σ ε : Type} (step : σ → ε → σ)

/-- The state after the events `es`. -/
def runFrom (s : σ) (es : List ε) : σ := es.foldl step s

@[simp] theorem runFrom_nil (s : σ) : runFrom step s [] = s := rfl

@[simp] theorem runFrom_cons (s : σ) (e : ε) (es : List ε) :
    runFrom step s (e :: es) = runFrom step (step s e) es := rfl

theorem runFrom_append (s : σ) (es fs : List ε) :
    runFrom step s (es ++ fs) = runFrom step (runFrom step s es) fs :=
  List.foldl_append

theorem runFrom_concat (s : σ) (es : List ε) (e : ε) :
    runFrom step s (es ++ [e]) = step (runFrom step s es) e := by
  rw [runFrom_append]
  rfl

/-- What a system with outputs `out` emits along the events `es`. -/
def traceFrom {ω : Type} (out : σ → ε → List ω) (s : σ) : List ε → List ω
  | [] => []
  | e :: es => out s e ++ traceFrom out (step s e) es

theorem traceFrom_append {ω : Type} (out : σ → ε → List ω) (s : σ) (es fs : List ε) :
    traceFrom step out s (es ++ fs) =
      traceFrom step out s es ++ traceFrom step out (runFrom step s es) fs := by
  induction es generalizing s with
  | nil => rfl
  | cons e es ih => simp [traceFrom, ih]

theorem traceFrom_concat {ω : Type} (out : σ → ε → List ω) (s : σ) (es : List ε) (e : ε) :
    traceFrom step out s (es ++ [e]) = traceFrom step out s es ++ out (runFrom step s es) e := by
  rw [traceFrom_append, traceFrom, traceFrom, List.append_nil]

variable {step}

/-- An invariant of the steps that the events of a run may take holds at its end. -/
theorem runFrom_invariant {P : σ → Prop} {A : ε → Prop}
    (hstep : ∀ s e, A e → P s → P (step s e)) :
    ∀ (es : List ε) (s : σ), (∀ e ∈ es, A e) → P s → P (runFrom step s es) := by
  intro es
  induction es with
  | nil =>
    intro s _ hs
    exact hs
  | cons e es ih =>
    intro s hes hs
    exact ih (step s e) (fun e' he' => hes e' (List.mem_cons_of_mem _ he'))
      (hstep s e (hes e List.mem_cons_self) hs)

/-- A relation between two systems that every event keeps relates the ends of their runs. -/
theorem runFrom_simulation {τ : Type} {step' : τ → ε → τ} {R : σ → τ → Prop}
    (hstep : ∀ s t e, R s t → R (step s e) (step' t e)) :
    ∀ (es : List ε) (s : σ) (t : τ), R s t → R (runFrom step s es) (runFrom step' t es) := by
  intro es
  induction es with
  | nil =>
    intro s t h
    exact h
  | cons e es ih =>
    intro s t h
    exact ih (step s e) (step' t e) (hstep s t e h)

/-- An invariant that may mention the events so far, by induction on the last event. -/
theorem runFrom_history {P : List ε → σ → Prop} {s : σ} (hnil : P [] s)
    (hstep : ∀ es e, P es (runFrom step s es) → P (es ++ [e]) (step (runFrom step s es) e)) :
    ∀ es, P es (runFrom step s es) := by
  intro es
  induction es using List.reverseRecOn with
  | nil => exact hnil
  | append_singleton es e ih =>
    rw [runFrom_concat]
    exact hstep es e ih

/-- What becomes true along a run becomes true at one of its steps. -/
theorem exists_step_of_not_of_runFrom {P : σ → Prop} {s : σ} {es : List ε} (hs : ¬P s)
    (hes : P (runFrom step s es)) :
    ∃ pre e post, es = pre ++ e :: post ∧ ¬P (runFrom step s pre) ∧
      P (runFrom step s (pre ++ [e])) := by
  induction es using List.reverseRecOn with
  | nil => exact absurd hes hs
  | append_singleton es e ih =>
    by_cases h : P (runFrom step s es)
    · obtain ⟨pre, e', post, rfl, hpre, hpost⟩ := ih h
      exact ⟨pre, e', post ++ [e], by simp, hpre, hpost⟩
    · exact ⟨es, e, [], rfl, h, hes⟩

end Run
