import Mathlib.Data.List.Forall2

/-! # Runs of a Labelled Step Function

  A system is a partial step function on states; a run applies a list of
  events. An invariant is proved by one preservation statement, possibly
  only for the steps that meet a guard, and then holds at the end of every
  run whose steps all meet it. -/

namespace AgentTraceGateway

universe u v w

variable {σ : Type u} {α : Type v}

/-- Apply events one after the other; `none` when one is not enabled. -/
def run (step : σ → α → Option σ) : σ → List α → Option σ
  | s, [] => some s
  | s, e :: events => (step s e).bind fun s' => run step s' events

/-- Every step of the run meets the guard in the state it is taken from. -/
def Guarded (step : σ → α → Option σ) (guard : σ → α → Prop) : σ → List α → Prop
  | _, [] => True
  | s, e :: events => guard s e ∧ ∀ s', step s e = some s' → Guarded step guard s' events

/-- A step that is enabled, in front of a run. -/
theorem run_cons {step : σ → α → Option σ} {s s₁ : σ} {e : α} (hs : step s e = some s₁)
    (events : List α) : run step s (e :: events) = run step s₁ events := by
  rw [run, hs, Option.bind_some]

theorem Guarded.cons {step : σ → α → Option σ} {guard : σ → α → Prop} {s s₁ : σ} {e : α}
    {events : List α} (hguard : guard s e) (hs : step s e = some s₁)
    (hrest : Guarded step guard s₁ events) : Guarded step guard s (e :: events) :=
  ⟨hguard, fun _ hs' => Option.some.inj (hs.symm.trans hs') ▸ hrest⟩

/-- A concrete run can be checked against its guard. -/
instance Guarded.decidable {step : σ → α → Option σ} {guard : σ → α → Prop}
    [∀ s e, Decidable (guard s e)] : ∀ s events, Decidable (Guarded step guard s events)
  | _, [] => isTrue trivial
  | s, e :: events =>
    match hs : step s e with
    | none => decidable_of_iff (guard s e) (by simp [Guarded, hs])
    | some s₁ =>
      have : Decidable (Guarded step guard s₁ events) := Guarded.decidable s₁ events
      decidable_of_iff (guard s e ∧ Guarded step guard s₁ events) (by simp [Guarded, hs])

/-- What guarded steps preserve holds at the end of a guarded run. -/
theorem run_invariant {step : σ → α → Option σ} {guard : σ → α → Prop} {inv : σ → Prop}
    (hstep : ∀ s e s', inv s → guard s e → step s e = some s' → inv s') :
    ∀ (events : List α) (s s' : σ), inv s → Guarded step guard s events →
      run step s events = some s' → inv s' := by
  intro events
  induction events with
  | nil =>
    intro s s' hinv _ hrun
    cases hrun
    exact hinv
  | cons e events ih =>
    intro s s' hinv hguard hrun
    obtain ⟨s₁, hs₁, hrest⟩ := Option.bind_eq_some_iff.mp hrun
    exact ih s₁ s' (hstep s e s₁ hinv hguard.1 hs₁) (hguard.2 s₁ hs₁) hrest

/-- What a step keeps exactly when it meets the guard holds at the end of a run
    exactly when it held at the start and every step met the guard. -/
theorem run_kept_iff {step : σ → α → Option σ} {guard : σ → α → Prop} {inv kept : σ → Prop}
    (hinv : ∀ s e s', inv s → step s e = some s' → inv s')
    (hstep : ∀ s e s', inv s → step s e = some s' → (kept s' ↔ kept s ∧ guard s e)) :
    ∀ (events : List α) (s s' : σ), inv s → run step s events = some s' →
      (kept s' ↔ kept s ∧ Guarded step guard s events) := by
  intro events
  induction events with
  | nil =>
    intro s s' _ hrun
    cases hrun
    exact (and_iff_left trivial).symm
  | cons e events ih =>
    intro s s' hs hrun
    obtain ⟨s₁, hs₁, hrest⟩ := Option.bind_eq_some_iff.mp hrun
    rw [ih s₁ s' (hinv s e s₁ hs hs₁) hrest, hstep s e s₁ hs hs₁]
    constructor
    · rintro ⟨⟨hkept, hguard⟩, hevents⟩
      refine ⟨hkept, hguard, ?_⟩
      intro s₂ hs₂
      cases hs₁.symm.trans hs₂
      exact hevents
    · rintro ⟨hkept, hguard, hevents⟩
      exact ⟨⟨hkept, hguard⟩, hevents s₁ hs₁⟩

/-- Two guards that agree where an invariant holds guard the same runs. -/
theorem guarded_congr {step : σ → α → Option σ} {guard guard' : σ → α → Prop} {inv : σ → Prop}
    (hagree : ∀ s e, inv s → (guard s e ↔ guard' s e))
    (hstep : ∀ s e s', inv s → guard' s e → step s e = some s' → inv s') :
    ∀ (events : List α) (s : σ), inv s →
      (Guarded step guard s events ↔ Guarded step guard' s events) := by
  intro events
  induction events with
  | nil => exact fun _ _ => Iff.rfl
  | cons e events ih =>
    intro s hinv
    constructor
    · rintro ⟨hguard, hrest⟩
      have hguard' := (hagree s e hinv).mp hguard
      exact ⟨hguard', fun s' hs' =>
        (ih s' (hstep s e s' hinv hguard' hs')).mp (hrest s' hs')⟩
    · rintro ⟨hguard', hrest⟩
      exact ⟨(hagree s e hinv).mpr hguard', fun s' hs' =>
        (ih s' (hstep s e s' hinv hguard' hs')).mpr (hrest s' hs')⟩

theorem guarded_true (step : σ → α → Option σ) : ∀ (events : List α) (s : σ),
    Guarded step (fun _ _ => True) s events := by
  intro events
  induction events with
  | nil => exact fun _ => trivial
  | cons e events ih => exact fun _ => ⟨trivial, fun s' _ => ih s'⟩

/-- What every step preserves holds at the end of every run. -/
theorem run_invariant_always {step : σ → α → Option σ} {inv : σ → Prop}
    (hstep : ∀ s e s', inv s → step s e = some s' → inv s') (events : List α) (s s' : σ)
    (hinv : inv s) (hrun : run step s events = some s') : inv s' :=
  run_invariant (fun s e s' h _ hs => hstep s e s' h hs) events s s' hinv
    (guarded_true step events s) hrun

/-- Two runs of events that match one by one, from states with one view, end
    with one view, if steps of matching events keep it. -/
theorem run_view {τ : Type w} {step : σ → α → Option σ} {view : σ → τ} (inv : σ → Prop)
    {same : α → α → Prop}
    (hinv : ∀ s e s', inv s → step s e = some s' → inv s')
    (hstep : ∀ s s' e e', inv s → view s = view s' → same e e' →
      (step s e).map view = (step s' e').map view)
    {events events' : List α} (h : List.Forall₂ same events events') :
    ∀ {s s' : σ}, inv s → view s = view s' →
      (run step s events).map view = (run step s' events').map view := by
  induction h with
  | nil =>
    intro s s' _ hview
    exact congrArg some hview
  | @cons e e' events events' hsame _ ih =>
    intro s s' hs hview
    have hnext := hstep s s' e e' hs hview hsame
    rw [run, run]
    cases hstep₁ : step s e with
    | none =>
      rw [hstep₁, Option.map_none] at hnext
      rw [Option.map_eq_none_iff.mp hnext.symm]
      rfl
    | some s₁ =>
      rw [hstep₁, Option.map_some] at hnext
      obtain ⟨s₂, hstep₂, hview₂⟩ := Option.map_eq_some_iff.mp hnext.symm
      rw [hstep₂]
      exact ih (hinv s e s₁ hs hstep₁) hview₂.symm

end AgentTraceGateway
