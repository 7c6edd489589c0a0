import Mathlib

/-!
# Machines that may fault, and their runs

A machine takes an event in a state and either faults or gives the next state and its outputs.
`run` feeds it a list of events.

`AllStates P s es` says that `P` holds in every state that the run of `es` from `s` reaches, the
first one included, and `AllSteps C s es` that every step of that run is taken in a state and
with an event that satisfy `C`.  A run ends at a fault: neither predicate says anything about
what would follow.  `AllTries C s es` also asks `C` of the step that faults.

The rules of the file turn a fact about one step into a fact about runs.
`allStates_of_allSteps` carries an invariant along the steps that satisfy a condition, and
`allStates_iff_allSteps` says that a condition that is exact for one step is exact for runs.

`withGhost` attaches a value to a machine that records something about the run, and `logged` the
outputs so far.
-/

namespace Machine

open List

variable {σ ε φ ω : Type}
variable {s s' : σ} {e : ε} {es fs : List ε} {o log : List ω} {P I : σ → Prop} {C Q : σ → ε → Prop}

abbrev Step (σ ε φ ω : Type) := σ → ε → Except φ (σ × List ω)

/-- A list of events, one after the other; the outputs are collected. -/
def run (step : Step σ ε φ ω) : σ → List ε → Except φ (σ × List ω)
  | s, [] => .ok (s, [])
  | s, e :: es =>
    match step s e with
    | .error f => .error f
    | .ok (s', out) =>
      match run step s' es with
      | .error f => .error f
      | .ok (s'', out') => .ok (s'', out ++ out')

/-- The last state of a run; a run ends before a step that faults. -/
def last (step : Step σ ε φ ω) : σ → List ε → σ
  | s, [] => s
  | s, e :: es =>
    match step s e with
    | .error _ => s
    | .ok (s', _) => last step s' es

/-- `P` holds in every state of the run. -/
def AllStates (step : Step σ ε φ ω) (P : σ → Prop) : σ → List ε → Prop
  | s, [] => P s
  | s, e :: es => P s ∧ ∀ s' out, step s e = .ok (s', out) → AllStates step P s' es

/-- `C` holds at every step of the run that does not fault. -/
def AllSteps (step : Step σ ε φ ω) (C : σ → ε → Prop) : σ → List ε → Prop
  | _, [] => True
  | s, e :: es => ∀ s' out, step s e = .ok (s', out) → C s e ∧ AllSteps step C s' es

/-- `C` holds at every step of the run, also at one that faults. -/
def AllTries (step : Step σ ε φ ω) (C : σ → ε → Prop) : σ → List ε → Prop
  | _, [] => True
  | s, e :: es => C s e ∧ ∀ s' out, step s e = .ok (s', out) → AllTries step C s' es

variable {step : Step σ ε φ ω}

/-! ### Runs -/

@[simp] theorem run_nil (s : σ) : run step s [] = .ok (s, []) := rfl

theorem run_cons_eq_ok {s'' : σ} : run step s (e :: es) = .ok (s'', o) ↔
      ∃ s' out out', step s e = .ok (s', out) ∧ run step s' es = .ok (s'', out') ∧
        o = out ++ out' := by
  rw [run]
  cases he : step s e with
  | error f => simp
  | ok r =>
    obtain ⟨s', out⟩ := r
    cases hr : run step s' es with
    | error f => simp [hr]
    | ok r' =>
      obtain ⟨t, out'⟩ := r'
      simp only [hr, Except.ok.injEq, Prod.mk.injEq]
      constructor
      · rintro ⟨rfl, rfl⟩
        exact ⟨s', out, out', ⟨rfl, rfl⟩, hr, rfl⟩
      · rintro ⟨s₁, o₁, o₂, ⟨rfl, rfl⟩, h₂, rfl⟩
        rw [hr] at h₂
        cases h₂
        exact ⟨rfl, rfl⟩

theorem run_append_eq_ok {s'' : σ} : run step s (es ++ fs) = .ok (s'', o) ↔
      ∃ s' out out', run step s es = .ok (s', out) ∧ run step s' fs = .ok (s'', out') ∧
        o = out ++ out' := by
  induction es generalizing s o with
  | nil => simp
  | cons e es ih =>
    simp only [cons_append, run_cons_eq_ok, ih]
    constructor
    · rintro ⟨s₁, o₁, o₂, h₁, ⟨s₂, o₃, o₄, h₂, h₃, rfl⟩, rfl⟩
      exact ⟨s₂, o₁ ++ o₃, o₄, ⟨s₁, o₁, o₃, h₁, h₂, rfl⟩, h₃, by simp⟩
    · rintro ⟨s₂, o₅, o₄, ⟨s₁, o₁, o₃, h₁, h₂, rfl⟩, h₃, rfl⟩
      exact ⟨s₁, o₁, o₃ ++ o₄, h₁, ⟨s₂, o₃, o₄, h₂, h₃, rfl⟩, by simp⟩

/-- A map of states, events and outputs that respects the steps respects the runs. -/
theorem run_map {σ' ε' ω' : Type} {step' : Step σ' ε' φ ω'} {f : σ → σ'} {g : ε → ε'} {h : ω → ω'}
    (hstep : ∀ s e, step' (f s) (g e) = (step s e).map fun r => (f r.1, r.2.map h)) (s : σ)
    (es : List ε) :
    run step' (f s) (es.map g) = (run step s es).map fun r => (f r.1, r.2.map h) := by
  induction es generalizing s with
  | nil => rfl
  | cons e es ih =>
    rw [map_cons, run, run, hstep]
    cases step s e with
    | error x => rfl
    | ok r =>
      obtain ⟨s', out⟩ := r
      have hrest := ih s'
      simp only [Except.map] at hrest ⊢
      rw [hrest]
      cases run step s' es with
      | error x => rfl
      | ok r' => simp

theorem run_last (step : Step σ ε φ ω) (s : σ) (es : List ε) (h : (run step s es).toOption.isSome) :
    ∃ o, run step s es = .ok (last step s es, o) := by
  induction es generalizing s with
  | nil => exact ⟨[], rfl⟩
  | cons e es ih =>
    cases hr : run step s (e :: es) with
    | error f => simp [hr, Except.toOption] at h
    | ok r =>
      obtain ⟨s'', o⟩ := r
      obtain ⟨s', o₁, o₂, h₁, h₂, -⟩ := run_cons_eq_ok.1 hr
      obtain ⟨o₃, h₃⟩ := ih s' (by simp [h₂, Except.toOption])
      rw [h₃, Except.ok.injEq, Prod.mk.injEq] at h₂
      refine ⟨o, ?_⟩
      rw [last, h₁, ← h₂.1]

/-! ### Invariants -/

theorem AllStates.head (h : AllStates step P s es) : P s := by
  cases es with
  | nil => exact h
  | cons e es => exact h.1

theorem AllStates.mono {Q : σ → Prop} (hPQ : ∀ s, P s → Q s) (h : AllStates step P s es) :
    AllStates step Q s es := by
  induction es generalizing s with
  | nil => exact hPQ s h
  | cons e es ih => exact ⟨hPQ s h.1, fun s' out hs => ih (h.2 s' out hs)⟩

theorem run_outputs {P : ω → Prop}
    (hstep : ∀ s e s' out, I s → step s e = .ok (s', out) → I s' ∧ ∀ o ∈ out, P o) (hI : I s)
    (hr : run step s es = .ok (s', o)) : I s' ∧ ∀ x ∈ o, P x := by
  induction es generalizing s o with
  | nil =>
    cases hr
    exact ⟨hI, fun x hx => absurd hx not_mem_nil⟩
  | cons e es ih =>
    obtain ⟨s₁, o₁, o₂, h₁, h₂, rfl⟩ := run_cons_eq_ok.1 hr
    obtain ⟨hI₁, ho₁⟩ := hstep s e s₁ o₁ hI h₁
    obtain ⟨hI', ho₂⟩ := ih hI₁ h₂
    exact ⟨hI', forall_mem_append.2 ⟨ho₁, ho₂⟩⟩

theorem run_invariant (hstep : ∀ s e s' out, I s → step s e = .ok (s', out) → I s') (hI : I s)
    (hr : run step s es = .ok (s', o)) : I s' :=
  (run_outputs (P := fun _ => True)
    (fun s e s' out hI hs => ⟨hstep s e s' out hI hs, fun _ _ => trivial⟩) hI hr).1

theorem allSteps_of_forall (h : ∀ e ∈ es, ∀ s, C s e) : AllSteps step C s es := by
  induction es generalizing s with
  | nil => trivial
  | cons e es ih =>
    intro s' out _
    exact ⟨h e mem_cons_self s, ih fun e' he' => h e' (mem_cons_of_mem _ he')⟩

/-- An invariant that every step with `C` preserves holds all along a run of such steps. -/
theorem allStates_of_allSteps (hstep : ∀ s e s' out, I s → C s e → step s e = .ok (s', out) → I s')
    (hI : I s) (hC : AllSteps step C s es) : AllStates step I s es := by
  induction es generalizing s with
  | nil => exact hI
  | cons e es ih =>
    refine ⟨hI, fun s' out hs => ?_⟩
    obtain ⟨hc, hrest⟩ := hC s' out hs
    exact ih (hstep s e s' out hI hc hs) hrest

theorem allSteps_of_allSteps
    (hstep : ∀ s e s' out, I s → C s e → step s e = .ok (s', out) → I s' ∧ Q s e) (hI : I s)
    (hC : AllSteps step C s es) : AllSteps step Q s es := by
  induction es generalizing s with
  | nil => trivial
  | cons e es ih =>
    intro s' out hs
    obtain ⟨hc, hrest⟩ := hC s' out hs
    obtain ⟨hI', hq⟩ := hstep s e s' out hI hc hs
    exact ⟨hq, ih hI' hrest⟩

theorem AllSteps.of_run {s'' : σ} {o' : List ω} (h : AllSteps step C s (es ++ e :: fs))
    (hr : run step s es = .ok (s', o)) (he : step s' e = .ok (s'', o')) : C s' e := by
  induction es generalizing s o with
  | nil =>
    cases hr
    exact (h s'' o' he).1
  | cons e' es ih =>
    obtain ⟨s₁, o₁, o₂, h₁, h₂, -⟩ := run_cons_eq_ok.1 hr
    exact ih (h s₁ o₁ h₁).2 h₂

/-- Two conditions that agree on the steps from states with `P` agree on runs through such
states. -/
theorem allSteps_congr {D : σ → ε → Prop}
    (hstep : ∀ s e s' out, P s → step s e = .ok (s', out) → (C s e ↔ D s e))
    (hP : AllStates step P s es) : AllSteps step C s es ↔ AllSteps step D s es := by
  induction es generalizing s with
  | nil => exact Iff.rfl
  | cons e es ih =>
    refine forall_congr' fun s' => forall_congr' fun out => forall_congr' fun hs => ?_
    exact and_congr (hstep s e s' out hP.1 hs) (ih (hP.2 s' out hs))

/-- **An exact condition for one step is exact for runs** of events in `E`.  `I` is an invariant
that the steps keep as long as `P` holds. -/
theorem allStates_iff_allSteps {E : ε → Prop}
    (hstep : ∀ s e s' out, E e → I s → P s → step s e = .ok (s', out) → I s' ∧ (P s' ↔ C s e))
    (hE : ∀ e ∈ es, E e) (hI : I s) (hP : P s) : AllStates step P s es ↔ AllSteps step C s es := by
  induction es generalizing s with
  | nil => exact ⟨fun _ => trivial, fun _ => hP⟩
  | cons e es ih =>
    have hstep' := fun s' out => hstep s e s' out (hE e mem_cons_self) hI hP
    have hrest' : ∀ e ∈ es, E e := fun e he => hE e (mem_cons_of_mem _ he)
    constructor
    -- the state after the step satisfies `P`, so the step had the condition
    · rintro ⟨-, hrest⟩ s' out hs
      obtain ⟨hI', hiff⟩ := hstep' s' out hs
      have hall := hrest s' out hs
      exact ⟨hiff.1 hall.head, (ih hrest' hI' hall.head).1 hall⟩
    · intro hC
      refine ⟨hP, fun s' out hs => ?_⟩
      obtain ⟨hI', hiff⟩ := hstep' s' out hs
      obtain ⟨hc, hrest⟩ := hC s' out hs
      exact (ih hrest' hI' (hiff.2 hc)).2 hrest

/-- A condition that is exact for one step, also for a step that faults, is exact for runs. -/
theorem allTries_iff (hstep : ∀ s e, I s → (Q s e ↔ C s e))
    (hkeep : ∀ s e s' out, I s → C s e → step s e = .ok (s', out) → I s') (hI : I s) :
    AllTries step Q s es ↔ AllTries step C s es := by
  induction es generalizing s with
  | nil => exact Iff.rfl
  | cons e es ih =>
    constructor
    · rintro ⟨hq, hrest⟩
      have hc := (hstep s e hI).1 hq
      exact ⟨hc, fun s' out hs => (ih (hkeep s e s' out hI hc hs)).1 (hrest s' out hs)⟩
    · rintro ⟨hc, hrest⟩
      exact ⟨(hstep s e hI).2 hc,
        fun s' out hs => (ih (hkeep s e s' out hI hc hs)).2 (hrest s' out hs)⟩

/-- A property of the steps, also of one that faults, that follows from an invariant and a
condition. -/
theorem allTries_of_allTries
    (hstep : ∀ s e, I s → C s e → Q s e ∧ ∀ s' out, step s e = .ok (s', out) → I s') (hI : I s)
    (hC : AllTries step C s es) : AllTries step Q s es := by
  induction es generalizing s with
  | nil => trivial
  | cons e es ih =>
    obtain ⟨hq, hkeep⟩ := hstep s e hI hC.1
    exact ⟨hq, fun s' out hs => ih (hkeep s' out hs) (hC.2 s' out hs)⟩

/-- A condition on the steps, also on one that faults, holds at each of them. -/
theorem AllTries.of_run (h : AllTries step C s (es ++ e :: fs)) (hr : run step s es = .ok (s', o)) :
    C s' e := by
  induction es generalizing s o with
  | nil =>
    cases hr
    exact h.1
  | cons e' es ih =>
    obtain ⟨s₁, o₁, o₂, h₁, h₂, -⟩ := run_cons_eq_ok.1 hr
    exact ih (h.2 s₁ o₁ h₁) h₂

/-! ### Deciding a run -/

instance decidableAllStates (P : σ → Prop) [DecidablePred P] :
    (s : σ) → (es : List ε) → Decidable (AllStates step P s es)
  | s, [] => inferInstanceAs (Decidable (P s))
  | s, e :: es =>
    match h : step s e with
    | .error _ => decidable_of_iff (P s) (by simp [AllStates, h])
    | .ok (s', _) =>
      have := decidableAllStates P s' es
      decidable_of_iff (P s ∧ AllStates step P s' es) (by simp [AllStates, h])

instance decidableAllSteps (C : σ → ε → Prop) [∀ s e, Decidable (C s e)] :
    (s : σ) → (es : List ε) → Decidable (AllSteps step C s es)
  | _, [] => isTrue trivial
  | s, e :: es =>
    match h : step s e with
    | .error _ => isTrue (by simp [AllSteps, h])
    | .ok (s', _) =>
      have := decidableAllSteps C s' es
      decidable_of_iff (C s e ∧ AllSteps step C s' es) (by simp [AllSteps, h])

instance decidableAllTries (C : σ → ε → Prop) [∀ s e, Decidable (C s e)] :
    (s : σ) → (es : List ε) → Decidable (AllTries step C s es)
  | _, [] => isTrue trivial
  | s, e :: es =>
    match h : step s e with
    | .error _ => decidable_of_iff (C s e) (by simp [AllTries, h])
    | .ok (s', _) =>
      have := decidableAllTries C s' es
      decidable_of_iff (C s e ∧ AllTries step C s' es) (by simp [AllTries, h])

/-! ### Ghost values -/

/-- The machine with a value that every step updates, from the states before and after it, and no
step reads. -/
def withGhost {γ : Type} (step : Step σ ε φ ω) (update : σ → ε → σ → γ → γ) : Step (σ × γ) ε φ ω :=
  fun (s, g) e =>
    match step s e with
    | .error f => .error f
    | .ok (s', out) => .ok ((s', update s e s' g), out)

theorem withGhost_eq_ok {γ : Type} {update : σ → ε → σ → γ → γ} {g g' : γ} {out : List ω} :
    withGhost step update (s, g) e = .ok ((s', g'), out) ↔
      step s e = .ok (s', out) ∧ g' = update s e s' g := by
  rw [withGhost]
  cases step s e with
  | error f => simp
  | ok r =>
    obtain ⟨s₁, o₁⟩ := r
    simp only [Except.ok.injEq, Prod.mk.injEq]
    constructor
    · rintro ⟨⟨rfl, rfl⟩, rfl⟩
      exact ⟨⟨rfl, rfl⟩, rfl⟩
    · rintro ⟨⟨rfl, rfl⟩, rfl⟩
      exact ⟨⟨rfl, rfl⟩, rfl⟩

/-- The machine with the outputs so far in its state. -/
def logged (step : Step σ ε φ ω) : Step (σ × List ω) ε φ ω :=
  fun (s, log) e =>
    match step s e with
    | .error f => .error f
    | .ok (s', out) => .ok ((s', log ++ out), out)

theorem logged_eq_ok {log' : List ω} {out : List ω} :
    logged step (s, log) e = .ok ((s', log'), out) ↔
      step s e = .ok (s', out) ∧ log' = log ++ out := by
  rw [logged]
  cases step s e with
  | error f => simp
  | ok r =>
    obtain ⟨s₁, o₁⟩ := r
    simp only [Except.ok.injEq, Prod.mk.injEq]
    constructor
    · rintro ⟨⟨rfl, rfl⟩, rfl⟩
      exact ⟨⟨rfl, rfl⟩, rfl⟩
    · rintro ⟨⟨rfl, rfl⟩, rfl⟩
      exact ⟨⟨rfl, rfl⟩, rfl⟩

theorem allSteps_logged :
    AllSteps (logged step) (fun c e => C c.1 e) (s, log) es ↔ AllSteps step C s es := by
  induction es generalizing s log with
  | nil => exact Iff.rfl
  | cons e es ih =>
    constructor
    · intro h s' out hs
      obtain ⟨hc, hrest⟩ := h (s', log ++ out) out (logged_eq_ok.2 ⟨hs, rfl⟩)
      exact ⟨hc, ih.1 hrest⟩
    · rintro h ⟨s', log'⟩ out hs
      obtain ⟨hs, -⟩ := logged_eq_ok.1 hs
      obtain ⟨hc, hrest⟩ := h s' out hs
      exact ⟨hc, ih.2 hrest⟩

theorem allTries_logged :
    AllTries (logged step) (fun c e => C c.1 e) (s, log) es ↔ AllTries step C s es := by
  induction es generalizing s log with
  | nil => exact Iff.rfl
  | cons e es ih =>
    refine and_congr_right fun _ => ⟨fun h s' out hs => ?_, ?_⟩
    · exact ih.1 (h (s', log ++ out) out (logged_eq_ok.2 ⟨hs, rfl⟩))
    · rintro h ⟨s', log'⟩ out hs
      exact ih.2 (h s' out (logged_eq_ok.1 hs).1)

end Machine
