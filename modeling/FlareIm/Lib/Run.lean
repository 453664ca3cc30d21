import Mathlib.Logic.Relation

/-! Runs of a deterministic transition function over lists of events. The events
carry every choice of the environment (which task moves next, what a clock shows,
what a peer answers), so a statement about every event list is a statement about
every interleaving. `AllSteps` says that a property of a state and the event taken
in it holds at every step of a run; an invariant is carried from step to step once,
here. -/

namespace FlareIm.Lib

section Run

variable {σ ε : Type} (step : σ → ε → σ)

def run (s : σ) (es : List ε) : σ := es.foldl step s

@[simp] theorem run_nil (s : σ) : run step s [] = s := rfl

@[simp] theorem run_cons (s : σ) (e : ε) (es : List ε) : run step s (e :: es) = run step (step s e) es :=
  rfl

theorem run_append (s : σ) (es fs : List ε) : run step s (es ++ fs) = run step (run step s es) fs :=
  List.foldl_append

/-- `c` holds of every state of the run and the event taken there. -/
def AllSteps (c : σ → ε → Prop) : σ → List ε → Prop
  | _, [] => True
  | s, e :: es => c s e ∧ AllSteps c (step s e) es

variable {step} {c d : σ → ε → Prop} {I : σ → Prop}

instance AllSteps.decidable [∀ s e, Decidable (c s e)] : ∀ (s : σ) (es : List ε), Decidable (AllSteps step c s es)
  | _, [] => inferInstanceAs (Decidable True)
  | s, e :: es =>
    have := AllSteps.decidable (step s e) es
    inferInstanceAs (Decidable (c s e ∧ AllSteps step c (step s e) es))

theorem AllSteps.intro (h : ∀ s e, c s e) : ∀ {s : σ} {es : List ε}, AllSteps step c s es
  | _, [] => trivial
  | s, e :: _ => ⟨h s e, AllSteps.intro h⟩

variable {es : List ε} {s : σ}

theorem AllSteps.of_mem {p : ε → Prop} (h : ∀ e ∈ es, p e) :
    AllSteps step (fun _ e => p e) s es := by
  induction es generalizing s with
  | nil => trivial
  | cons e es ih =>
    exact ⟨h e List.mem_cons_self, ih fun e' he' => h e' (List.mem_cons_of_mem _ he')⟩

theorem run_invariant (hstep : ∀ s e, I s → c s e → I (step s e)) :
    ∀ (es : List ε) (s : σ), I s → AllSteps step c s es → I (run step s es) := by
  intro es
  induction es with
  | nil => intro s hs _; exact hs
  | cons e es ih => intro s hs hc; exact ih (step s e) (hstep s e hs hc.1) hc.2

/-- Two runs over one list of events stay related if every step keeps them so. -/
theorem run_related {τ : Type} {step' : τ → ε → τ} {R : τ → σ → Prop}
    (hstep : ∀ t s e, R t s → c s e → R (step' t e) (step s e)) :
    ∀ (es : List ε) (t : τ) (s : σ), R t s → AllSteps step c s es → R (run step' t es) (run step s es) := by
  intro es
  induction es with
  | nil => intro t s h _; exact h
  | cons e es ih => intro t s h hc; exact ih (step' t e) (step s e) (hstep t s e h hc.1) hc.2

/-- An invariant turns one condition on steps into another along whole runs. -/
theorem AllSteps.of_invariant (hstep : ∀ s e, I s → c s e → I (step s e)) (hd : ∀ s e, I s → c s e → d s e) :
    ∀ (es : List ε) (s : σ), I s → AllSteps step c s es → AllSteps step d s es := by
  intro es
  induction es with
  | nil => intro _ _ _; trivial
  | cons e es ih =>
    intro s hs hc
    exact ⟨hd s e hs hc.1, ih (step s e) (hstep s e hs hc.1) hc.2⟩

theorem AllSteps.and (hc : AllSteps step c s es) (hd : AllSteps step d s es) :
    AllSteps step (fun s e => c s e ∧ d s e) s es := by
  induction es generalizing s with
  | nil => trivial
  | cons e es ih => exact ⟨⟨hc.1, hd.1⟩, ih hc.2 hd.2⟩

theorem AllSteps.congr (h : ∀ s e, c s e ↔ d s e) :
    AllSteps step c s es ↔ AllSteps step d s es := by
  induction es generalizing s with
  | nil => exact Iff.rfl
  | cons e es ih => exact and_congr (h s e) ih

theorem AllSteps.init {fs : List ε} (h : AllSteps step c s (es ++ fs)) : AllSteps step c s es := by
  induction es generalizing s with
  | nil => trivial
  | cons e es ih => exact ⟨h.1, ih h.2⟩

theorem AllSteps.last {e : ε} (h : AllSteps step c s (es ++ [e])) : c (run step s es) e := by
  induction es generalizing s with
  | nil => exact h.1
  | cons e' es ih => exact ih h.2

end Run

end FlareIm.Lib
