import Rsock.Lib.Memory

/-!
# Runs of a step function

A component is a step function `σ → ε → Except Fault σ`: a state, an event, and the state after it
or the fault the event runs into.

* `run step s es`: the state after the events; `run_invariant` is the induction over it,
  `foldlM_invariant` the one over a loop, `avoids_of_eachStep` the one for a fault that no step runs
  into.
* `Safe step R s es`: no event of the run faults and every step is related by `R`.
* `Always step R s es`: the same, but a fault only ends the run.
* `EachStep step Q s es`: every event of the run is met in a state where `Q` holds.
* `safe_of_eachStep`, `always_of_eachStep`: when `Q` is enough for one step to be right, in the states
  an invariant describes, it is enough for whole runs.
* `safe_iff_eachStep`, `always_iff_eachStep`: when `Q` is the exact condition for one step to be right,
  in the states an invariant describes, it is the exact condition for whole runs. `eachStep_congr` is
  the same for two conditions on the steps.
-/

namespace TransSys

open CMem

variable {σ ε : Type} (step : σ → ε → Except Fault σ)

/-- The state after the events, one after the other. -/
def run : σ → List ε → Except Fault σ
  | s, [] => .ok s
  | s, e :: es => do
    let s' ← step s e
    run s' es

/-- No event of the run faults, and `R` relates the states before and after each of them. -/
def Safe (R : σ → ε → σ → Prop) : σ → List ε → Prop
  | _, [] => True
  | s, e :: es => ∃ s', step s e = .ok s' ∧ R s e s' ∧ Safe R s' es

/-- `R` relates the states before and after each event of the run, up to a fault. -/
def Always (R : σ → ε → σ → Prop) : σ → List ε → Prop
  | _, [] => True
  | s, e :: es => ∀ s', step s e = .ok s' → R s e s' ∧ Always R s' es

/-- Every event of the run comes in a state where `Q` holds. -/
def EachStep (Q : σ → ε → Prop) : σ → List ε → Prop
  | _, [] => True
  | s, e :: es => Q s e ∧ ∀ s', step s e = .ok s' → EachStep Q s' es

instance decidableEachStep (Q : σ → ε → Prop) [∀ s e, Decidable (Q s e)] :
    ∀ (es : List ε) (s : σ), Decidable (EachStep step Q s es)
  | [], _ => .isTrue trivial
  | e :: es, s =>
    match h : step s e with
    | .error _ => decidable_of_iff (Q s e) (by simp [EachStep, h])
    | .ok s' =>
      have := decidableEachStep Q es s'
      decidable_of_iff (Q s e ∧ EachStep step Q s' es) (by simp [EachStep, h])

variable {step}

/-- A run may be cut in two. -/
theorem run_append (s : σ) (es es' : List ε) :
    run step s (es ++ es') = run step s es >>= fun s' => run step s' es' := by
  induction es generalizing s with
  | nil => rfl
  | cons e es ih =>
    rw [List.cons_append, run, run, bind_assoc]
    exact bind_congr fun s' => ih s'

/-- What every step preserves, holds after the events. -/
theorem run_invariant {J : σ → Prop} (hJ : ∀ s e s', J s → step s e = .ok s' → J s') {es : List ε}
    {s s' : σ} (hs : J s) (h : run step s es = .ok s') : J s' := by
  induction es generalizing s with
  | nil =>
    obtain rfl : s = s' := Except.ok.inj h
    exact hs
  | cons e es ih =>
    obtain ⟨s₁, hstep, hrest⟩ := bind_eq_ok.mp h
    exact ih (hJ s e s₁ hs hstep) hrest

/-- A fold is a run. -/
theorem foldlM_eq_run (s : σ) (es : List ε) : es.foldlM step s = run step s es := by
  induction es generalizing s with
  | nil => rfl
  | cons e es ih =>
    rw [List.foldlM_cons, run]
    exact bind_congr fun s' => ih s'

/-- The rule for a loop that is written as a fold. -/
theorem foldlM_invariant {J : σ → Prop} (hJ : ∀ s e s', J s → step s e = .ok s' → J s') {es : List ε}
    {s s' : σ} (hs : J s) (h : es.foldlM step s = .ok s') : J s' := by
  rw [foldlM_eq_run] at h
  exact run_invariant hJ hs h

/-- The rule for an invariant that a step keeps where `Q` holds. -/
theorem run_invariant_of_eachStep {J : σ → Prop} {Q : σ → ε → Prop}
    (hJ : ∀ s e s', J s → Q s e → step s e = .ok s' → J s') {es : List ε} {s s' : σ} (hs : J s)
    (hQ : EachStep step Q s es) (h : run step s es = .ok s') : J s' := by
  induction es generalizing s with
  | nil =>
    obtain rfl : s = s' := Except.ok.inj h
    exact hs
  | cons e es ih =>
    obtain ⟨s₁, hstep, hrest⟩ := bind_eq_ok.mp h
    obtain ⟨he, hQ⟩ := hQ
    exact ih (hJ s e s₁ hs he hstep) (hQ s₁ hstep) hrest

/-- The rule of `CMem.Avoids` for runs. -/
theorem avoids_of_eachStep {err : Fault} {J : σ → Prop} {Q : σ → ε → Prop}
    (hJ : ∀ s e, J s → Q s e → Avoids err (step s e) J) {es : List ε} {s : σ} (hs : J s)
    (hQ : EachStep step Q s es) : Avoids err (run step s es) J := by
  induction es generalizing s with
  | nil => exact avoids_ok hs
  | cons e es ih =>
    obtain ⟨he, hrest⟩ := hQ
    obtain ⟨hne, hok⟩ := hJ s e hs he
    rw [run]
    cases hstep : step s e with
    | error err' => exact avoids_error fun heq => hne (by rw [hstep, heq])
    | ok s' => exact ih (hok s' hstep) (hrest s' hstep)

/-- A condition that always holds is met by each step. -/
theorem eachStep_of_forall {Q : σ → ε → Prop} {es : List ε} (hQ : ∀ s, ∀ e ∈ es, Q s e) (s : σ) :
    EachStep step Q s es := by
  induction es generalizing s with
  | nil => trivial
  | cons e es ih =>
    exact ⟨hQ s e List.mem_cons_self, fun s' _ => ih (fun s e he => hQ s e (List.mem_cons_of_mem _ he)) s'⟩

/-- The same for runs whose events are those of a class `A`. -/
theorem avoids_run {err : Fault} {J : σ → Prop} {A : ε → Prop}
    (hJ : ∀ s e, J s → A e → Avoids err (step s e) J) {es : List ε} {s : σ} (hs : J s)
    (hes : ∀ e ∈ es, A e) : Avoids err (run step s es) J :=
  avoids_of_eachStep (Q := fun _ e => A e) hJ hs (eachStep_of_forall (fun _ => hes) s)

/-- The last step of a safe run. -/
theorem Safe.last {R : σ → ε → σ → Prop} (es : List ε) {e : ε} {s : σ}
    (h : Safe step R s (es ++ [e])) :
    ∃ s₁ s₂, run step s (es ++ [e]) = .ok s₂ ∧ R s₁ e s₂ := by
  induction es generalizing s with
  | nil =>
    obtain ⟨s', hstep, hR, -⟩ := h
    exact ⟨s, s', bind_eq_ok.mpr ⟨s', hstep, rfl⟩, hR⟩
  | cons e' es ih =>
    obtain ⟨s', hstep, -, hrest⟩ := h
    obtain ⟨s₁, s₂, hrun, hR⟩ := ih hrest
    exact ⟨s₁, s₂, bind_eq_ok.mpr ⟨s', hstep, hrun⟩, hR⟩

/-- A step that meets `Q` in a state of the invariant succeeds, is right and keeps the invariant: then
    so does a run whose steps all meet `Q`. -/
theorem safe_of_eachStep {R : σ → ε → σ → Prop} {Q : σ → ε → Prop} {J : σ → Prop}
    (hJ : ∀ s e, J s → Q s e → ∃ s', step s e = .ok s' ∧ R s e s' ∧ J s') {es : List ε} {s : σ}
    (hs : J s) (hQ : EachStep step Q s es) : Safe step R s es := by
  induction es generalizing s with
  | nil => trivial
  | cons e es ih =>
    obtain ⟨he, hrest⟩ := hQ
    obtain ⟨s', hstep, hR, hs'⟩ := hJ s e hs he
    exact ⟨s', hstep, hR, ih hs' (hrest s' hstep)⟩

/-- The same for `Always`. -/
theorem always_of_eachStep {R : σ → ε → σ → Prop} {Q : σ → ε → Prop} {J : σ → Prop}
    (hJ : ∀ s e s', J s → Q s e → step s e = .ok s' → R s e s' ∧ J s') {es : List ε} {s : σ}
    (hs : J s) (hQ : EachStep step Q s es) : Always step R s es := by
  induction es generalizing s with
  | nil => trivial
  | cons e es ih =>
    obtain ⟨he, hrest⟩ := hQ
    intro s' hstep
    obtain ⟨hR, hs'⟩ := hJ s e s' hs he hstep
    exact ⟨hR, ih hs' (hrest s' hstep)⟩

/-- From a condition on one step to the same condition on the steps of a run. `J` is the invariant;
    it need only survive the steps that are right. The events are those of a class `A`. -/
theorem safe_iff_eachStep {R : σ → ε → σ → Prop} {Q : σ → ε → Prop} {J : σ → Prop} {A : ε → Prop}
    (hJ : ∀ s e s', J s → A e → step s e = .ok s' → R s e s' → J s')
    (hQ : ∀ s e, J s → A e → ((∃ s', step s e = .ok s' ∧ R s e s') ↔ Q s e)) :
    ∀ (es : List ε) (s : σ), J s → (∀ e ∈ es, A e) →
      (Safe step R s es ↔ EachStep step Q s es) := by
  intro es
  induction es with
  | nil =>
    intro s _ _
    exact Iff.rfl
  | cons e es ih =>
    intro s hs hes
    have he : A e := hes e List.mem_cons_self
    have hrest : ∀ e ∈ es, A e := by
      intro e' he'
      exact hes e' (List.mem_cons_of_mem _ he')
    constructor
    · rintro ⟨s', hstep, hR, hsafe⟩
      refine ⟨(hQ s e hs he).1 ⟨s', hstep, hR⟩, ?_⟩
      intro s'' hstep'
      obtain rfl : s' = s'' := Except.ok.inj (hstep.symm.trans hstep')
      have hs' : J s' := hJ s e s' hs he hstep hR
      exact (ih s' hs' hrest).1 hsafe
    · rintro ⟨hq, heach⟩
      obtain ⟨s', hstep, hR⟩ := (hQ s e hs he).2 hq
      have hs' : J s' := hJ s e s' hs he hstep hR
      exact ⟨s', hstep, hR, (ih s' hs' hrest).2 (heach s' hstep)⟩

/-- The same for `Always`, in the runs whose steps are all of a kind `N`. -/
theorem always_iff_eachStep_of {R : σ → ε → σ → Prop} {Q N : σ → ε → Prop} {J : σ → Prop}
    (hJ : ∀ s e s', J s → N s e → step s e = .ok s' → R s e s' → J s')
    (hQ : ∀ s e, J s → N s e → ((∀ s', step s e = .ok s' → R s e s') ↔ Q s e)) :
    ∀ (es : List ε) (s : σ), J s → EachStep step N s es →
      (Always step R s es ↔ EachStep step Q s es) := by
  intro es
  induction es with
  | nil =>
    intro s _ _
    exact Iff.rfl
  | cons e es ih =>
    rintro s hs ⟨hn, hrest⟩
    constructor
    · intro h
      have hR : ∀ s', step s e = .ok s' → R s e s' := by
        intro s' hstep
        exact (h s' hstep).1
      refine ⟨(hQ s e hs hn).1 hR, ?_⟩
      intro s' hstep
      exact (ih s' (hJ s e s' hs hn hstep (hR s' hstep)) (hrest s' hstep)).1 (h s' hstep).2
    · rintro ⟨hq, heach⟩ s' hstep
      have hR : R s e s' := (hQ s e hs hn).2 hq s' hstep
      exact ⟨hR, (ih s' (hJ s e s' hs hn hstep hR) (hrest s' hstep)).2 (heach s' hstep)⟩

theorem always_iff_eachStep {R : σ → ε → σ → Prop} {Q : σ → ε → Prop} {J : σ → Prop}
    (hJ : ∀ s e s', J s → step s e = .ok s' → R s e s' → J s')
    (hQ : ∀ s e, J s → ((∀ s', step s e = .ok s' → R s e s') ↔ Q s e)) (es : List ε) (s : σ)
    (hs : J s) : Always step R s es ↔ EachStep step Q s es :=
  always_iff_eachStep_of (N := fun _ _ => True) (fun s e s' h _ => hJ s e s' h)
    (fun s e h _ => hQ s e h) es s hs (eachStep_of_forall (fun _ _ _ => trivial) s)

/-- Two conditions that mean the same in the states an invariant describes. -/
theorem eachStep_congr {P Q : σ → ε → Prop} {J : σ → Prop}
    (hJ : ∀ s e s', J s → step s e = .ok s' → J s') (hPQ : ∀ s e, J s → (P s e ↔ Q s e))
    (es : List ε) (s : σ) (hs : J s) : EachStep step P s es ↔ EachStep step Q s es := by
  induction es generalizing s with
  | nil => exact Iff.rfl
  | cons e es ih =>
    refine and_congr (hPQ s e hs) ?_
    refine forall_congr' fun s' => imp_congr_right fun hstep => ?_
    exact ih s' (hJ s e s' hs hstep)

/-- What holds after a run, when a step leaves it as it is or, unless `Q`, destroys it for good. -/
theorem run_iff_eachStep {K J : σ → Prop} {Q : σ → ε → Prop}
    (hJ : ∀ s e s', J s → step s e = .ok s' → J s')
    (hK : ∀ s e s', J s → step s e = .ok s' → (K s' ↔ K s ∧ Q s e)) {es : List ε} {s s' : σ}
    (hs : J s) (h : run step s es = .ok s') : K s' ↔ K s ∧ EachStep step Q s es := by
  induction es generalizing s with
  | nil =>
    obtain rfl : s = s' := Except.ok.inj h
    exact (and_iff_left trivial).symm
  | cons e es ih =>
    obtain ⟨s₁, hstep, hrest⟩ := bind_eq_ok.mp h
    rw [ih (hJ s e s₁ hs hstep) hrest, hK s e s₁ hs hstep, and_assoc]
    refine and_congr_right fun _ => and_congr_right fun _ => ?_
    constructor
    · intro heach s₂ hstep₂
      obtain rfl : s₁ = s₂ := Except.ok.inj (hstep.symm.trans hstep₂)
      exact heach
    · intro heach
      exact heach s₁ hstep

end TransSys
