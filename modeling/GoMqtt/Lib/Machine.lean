import Mathlib.Data.List.Basic

namespace GoMqtt.Machine

variable {σ τ ι : Type*}

/-- The state after feeding `inputs` to `step`, one after another. -/
def run (step : σ → ι → σ) (s : σ) (inputs : List ι) : σ :=
  inputs.foldl step s

variable {step : σ → ι → σ} {astep : τ → ι → τ}

@[simp]
theorem run_nil (s : σ) : run step s [] = s := rfl

@[simp]
theorem run_cons (s : σ) (i : ι) (inputs : List ι) :
    run step s (i :: inputs) = run step (step s i) inputs := rfl

/-- A run on inputs translated one by one is a run of the step on the translation. -/
theorem run_map {κ : Type*} (f : κ → ι) (s : σ) (inputs : List κ) :
    run step s (inputs.map f) = run (fun s k => step s (f k)) s inputs :=
  List.foldl_map ..

/-- A property kept by every step holds after every run. -/
theorem run_invariant {Inv : σ → Prop} (hstep : ∀ s i, Inv s → Inv (step s i)) :
    ∀ (inputs : List ι) {s : σ}, Inv s → Inv (run step s inputs)
  | [], _, h => h
  | i :: inputs, s, h => run_invariant hstep inputs (hstep s i h)

/-- Forward simulation: a relation kept by every pair of steps on the same input relates the
two runs on every input sequence. -/
theorem run_simulation {R : σ → τ → Prop} (hstep : ∀ s a i, R s a → R (step s i) (astep a i)) :
    ∀ (inputs : List ι) {s : σ} {a : τ}, R s a → R (run step s inputs) (run astep a inputs)
  | [], _, _, h => h
  | i :: inputs, s, a, h => run_simulation hstep inputs (hstep s a i h)

theorem run_simulation_of_forall {P : ι → Prop} {R : σ → τ → Prop}
    (hstep : ∀ s a i, P i → R s a → R (step s i) (astep a i)) :
    ∀ (inputs : List ι) {s : σ} {a : τ}, (∀ i ∈ inputs, P i) → R s a →
      R (run step s inputs) (run astep a inputs)
  | [], _, _, _, h => h
  | i :: inputs, s, a, hP, h =>
    run_simulation_of_forall hstep inputs (fun j hj => hP j (List.mem_cons_of_mem i hj))
      (hstep s a i (hP i List.mem_cons_self) h)

/-- Forward simulation of a machine that may refuse an input: a relation kept by every step
the abstract machine takes relates the two runs on every input sequence it accepts. -/
theorem run_simulation_partial {pstep : τ → ι → Option τ} {R : σ → τ → Prop}
    (hstep : ∀ s a a' i, R s a → pstep a i = some a' → R (step s i) a') :
    ∀ (inputs : List ι) {s : σ} {a a' : τ}, R s a → inputs.foldlM pstep a = some a' →
      R (run step s inputs) a'
  | [], _, _, _, h, ha => by
    rw [List.foldlM_nil, Option.pure_def, Option.some.injEq] at ha
    exact ha ▸ h
  | i :: inputs, s, a, a', h, ha => by
    rw [List.foldlM_cons] at ha
    obtain ⟨b, hb, hrest⟩ := Option.bind_eq_some_iff.mp ha
    exact run_simulation_partial hstep inputs (hstep s a b i h hb) hrest

section Trace

variable {ο : Type*} {astep : σ → ι → σ × ο}

/-- A run of a machine that answers each input: the final state, and each input with the
answer to it. -/
def runTrace (astep : σ → ι → σ × ο) (s : σ) : List ι → σ × List (ι × ο)
  | [] => (s, [])
  | i :: inputs =>
    let (s', tr) := runTrace astep (astep s i).1 inputs
    (s', (i, (astep s i).2) :: tr)

@[simp]
theorem runTrace_nil (s : σ) : runTrace astep s [] = (s, []) := rfl

theorem runTrace_cons (s : σ) (i : ι) (inputs : List ι) :
    runTrace astep s (i :: inputs) =
      ((runTrace astep (astep s i).1 inputs).1,
        (i, (astep s i).2) :: (runTrace astep (astep s i).1 inputs).2) := rfl

/-- The trace lists the inputs in order. -/
theorem runTrace_map_fst (s : σ) (inputs : List ι) :
    (runTrace astep s inputs).2.map Prod.fst = inputs := by
  induction inputs generalizing s with
  | nil => rfl
  | cons i inputs ih => rw [runTrace_cons, List.map_cons, ih]

theorem runTrace_append (s : σ) (inputs inputs' : List ι) :
    runTrace astep s (inputs ++ inputs') =
      ((runTrace astep (runTrace astep s inputs).1 inputs').1,
        (runTrace astep s inputs).2 ++ (runTrace astep (runTrace astep s inputs).1 inputs').2) := by
  induction inputs generalizing s with
  | nil => rfl
  | cons i inputs ih => rw [List.cons_append, runTrace_cons, ih, runTrace_cons, List.cons_append]

/-- A relation between the state and the trace so far, kept by every step, holds after every
run. -/
theorem runTrace_invariant {Inv : σ → List (ι × ο) → Prop}
    (hstep : ∀ s tr i, Inv s tr → Inv (astep s i).1 (tr ++ [(i, (astep s i).2)])) :
    ∀ (inputs : List ι) {s : σ} {tr : List (ι × ο)}, Inv s tr →
      Inv (runTrace astep s inputs).1 (tr ++ (runTrace astep s inputs).2)
  | [], _, tr, h => by simpa using h
  | i :: inputs, s, tr, h => by
    rw [runTrace_cons, List.append_cons]
    exact runTrace_invariant hstep inputs (hstep s tr i h)

end Trace

end GoMqtt.Machine
