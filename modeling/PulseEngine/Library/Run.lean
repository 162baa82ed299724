import Mathlib.Tactic

/-!
# Runs of a partial step function

A step function takes a state and an action to the next state, or to nothing when the action does
not return. `run` folds it over a list of actions, `Along P` says that every action of the run met
the condition `P` in the state it started from, and the theorems below are the induction rules
for invariants.
-/

namespace PulseEngine.Library

variable {σ α : Type*}

def run (step : σ → α → Option σ) (s : σ) (as : List α) : Option σ :=
  as.foldlM step s

/-- Every action of the run meets `P` in the state in which it is taken. -/
def Along (step : σ → α → Option σ) (P : σ → α → Prop) : σ → List α → Prop
  | _, [] => True
  | s, a :: as => P s a ∧ ∀ s', step s a = some s' → Along step P s' as

/-- Whether a run meets a decidable condition can be decided by running it. -/
instance Along.decidable {step : σ → α → Option σ} {P : σ → α → Prop}
    [∀ s a, Decidable (P s a)] : ∀ s as, Decidable (Along step P s as)
  | _, [] => .isTrue trivial
  | s, a :: as =>
    match h : step s a with
    | none => decidable_of_iff (P s a) (by simp [Along, h])
    | some s' =>
      have : Decidable (Along step P s' as) := Along.decidable s' as
      decidable_of_iff (P s a ∧ Along step P s' as) (by simp [Along, h])

@[simp]
lemma run_nil (step : σ → α → Option σ) (s : σ) : run step s [] = some s := rfl

@[simp]
lemma run_cons (step : σ → α → Option σ) (s : σ) (a : α) (as : List α) :
    run step s (a :: as) = (step s a).bind fun s' => run step s' as := by
  rw [run, List.foldlM_cons]
  rfl

lemma run_append (step : σ → α → Option σ) (s : σ) (as bs : List α) :
    run step s (as ++ bs) = (run step s as).bind fun s' => run step s' bs := by
  rw [run, List.foldlM_append]
  rfl

lemma run_snoc {step : σ → α → Option σ} {s s' : σ} {as : List α} (h : run step s as = some s')
    (a : α) : run step s (as ++ [a]) = step s' a := by
  rw [run_append, h, Option.bind_some, run_cons]
  cases step s' a <;> rfl

lemma run_of_prefix {step : σ → α → Option σ} {s s' : σ} {as bs : List α}
    (h : run step s bs = some s') (pre : as <+: bs) : ∃ s'', run step s as = some s'' := by
  obtain ⟨cs, rfl⟩ := pre
  rw [run_append] at h
  obtain ⟨s'', h'', _⟩ := Option.bind_eq_some_iff.mp h
  exact ⟨s'', h''⟩

lemma Along.mono {step : σ → α → Option σ} {P Q : σ → α → Prop} (h : ∀ s a, P s a → Q s a) :
    ∀ {as s}, Along step P s as → Along step Q s as := by
  intro as
  induction as with
  | nil => exact fun _ => trivial
  | cons a as ih => exact fun along => ⟨h _ _ along.1, fun s' hs' => ih (along.2 s' hs')⟩

lemma Along.of_forall {step : σ → α → Option σ} {P : σ → α → Prop} (h : ∀ s a, P s a) :
    ∀ {as s}, Along step P s as := by
  intro as
  induction as with
  | nil => exact trivial
  | cons a as ih => exact ⟨h _ a, fun _ _ => ih⟩

lemma Along.attach {step : σ → α → Option σ} {P : σ → α → Prop} {Q : α → Prop} :
    ∀ {as s}, Along step P s as → (∀ a ∈ as, Q a) → Along step (fun s a => P s a ∧ Q a) s as := by
  intro as
  induction as with
  | nil => exact fun _ _ => trivial
  | cons a as ih =>
    intro s along h
    exact ⟨⟨along.1, h a List.mem_cons_self⟩,
      fun s' hs' => ih (along.2 s' hs') fun b hb => h b (List.mem_cons_of_mem a hb)⟩

lemma Along.of_append {step : σ → α → Option σ} {P : σ → α → Prop} {bs : List α} :
    ∀ {as s}, Along step P s (as ++ bs) → Along step P s as := by
  intro as
  induction as with
  | nil => exact fun _ => trivial
  | cons a as ih => exact fun along => ⟨along.1, fun s' hs' => ih (along.2 s' hs')⟩

lemma Along.of_prefix {step : σ → α → Option σ} {P : σ → α → Prop} {as bs : List α} {s : σ}
    (along : Along step P s bs) (pre : as <+: bs) : Along step P s as := by
  obtain ⟨cs, rfl⟩ := pre
  exact along.of_append

lemma Along.after_append {step : σ → α → Option σ} {P : σ → α → Prop} {bs : List α} :
    ∀ {as : List α} {s s' : σ}, Along step P s (as ++ bs) → run step s as = some s' →
      Along step P s' bs := by
  intro as
  induction as with
  | nil =>
    intro s s' along h
    cases h
    exact along
  | cons a as ih =>
    intro s s' along h
    rw [run_cons] at h
    obtain ⟨s₁, h₁, h₂⟩ := Option.bind_eq_some_iff.mp h
    exact ih (along.2 s₁ h₁) h₂

lemma Along.at_end {step : σ → α → Option σ} {P : σ → α → Prop} {a : α} {as : List α} {s s' : σ}
    (along : Along step P s (as ++ [a])) (h : run step s as = some s') : P s' a :=
  (along.after_append h).1

/-- **Invariant rule.** What every step under the condition `P` preserves holds at the end of every
run whose steps all meet `P`. -/
theorem Along.invariant {step : σ → α → Option σ} {P : σ → α → Prop} {I : σ → Prop}
    (pres : ∀ s a s', I s → P s a → step s a = some s' → I s') :
    ∀ {as s s'}, I s → Along step P s as → run step s as = some s' → I s' := by
  intro as
  induction as with
  | nil =>
    intro s s' hs _ h
    cases h
    exact hs
  | cons a as ih =>
    intro s s' hs along h
    rw [run_cons] at h
    obtain ⟨s₁, h₁, h₂⟩ := Option.bind_eq_some_iff.mp h
    exact ih (pres s a s₁ hs along.1 h₁) (along.2 s₁ h₁) h₂

lemma Along.mono_of {step : σ → α → Option σ} {P Q : σ → α → Prop} {I : σ → Prop}
    (pres : ∀ s a s', I s → P s a → step s a = some s' → I s') (h : ∀ s a, I s → P s a → Q s a) :
    ∀ {as s}, I s → Along step P s as → Along step Q s as := by
  intro as
  induction as with
  | nil => exact fun _ _ => trivial
  | cons a as ih =>
    intro s hs along
    exact ⟨h s a hs along.1, fun s' hs' => ih (pres s a s' hs along.1 hs') (along.2 s' hs')⟩

/-- **Totality rule.** When every step under the condition `P` has a result and keeps the invariant,
every run whose steps all meet `P` has a result, and the invariant holds at its end. -/
theorem Along.total {step : σ → α → Option σ} {P : σ → α → Prop} {I : σ → Prop}
    (next : ∀ {s a}, I s → P s a → ∃ s', step s a = some s' ∧ I s') :
    ∀ {as s}, I s → Along step P s as → ∃ s', run step s as = some s' ∧ I s' := by
  intro as
  induction as with
  | nil => exact fun hs _ => ⟨_, rfl, hs⟩
  | cons a as ih =>
    intro s hs along
    obtain ⟨s₁, h₁, hs₁⟩ := next hs along.1
    obtain ⟨s', h, hs'⟩ := ih hs₁ (along.2 s₁ h₁)
    exact ⟨s', by rw [run_cons, h₁, Option.bind_some, h], hs'⟩

/-- **Conditions that agree along a run**: when two conditions agree in the states of an invariant, and the
first keeps the invariant, the steps of a run meet both or neither. -/
theorem along_iff {step : σ → α → Option σ} {P Q : σ → α → Prop} {I : σ → Prop}
    (next : ∀ s a s', I s → step s a = some s' → (P s a ↔ Q s a) ∧ (P s a → I s')) :
    ∀ {as s s'}, I s → run step s as = some s' → (Along step P s as ↔ Along step Q s as) := by
  intro as
  induction as with
  | nil => exact fun _ _ => Iff.rfl
  | cons a as ih =>
    intro s s' hs h
    rw [run_cons] at h
    obtain ⟨s₁, h₁, h₂⟩ := Option.bind_eq_some_iff.mp h
    obtain ⟨agree, keeps⟩ := next s a s₁ hs h₁
    have rest : P s a → (Along step P s₁ as ↔ Along step Q s₁ as) := fun hp => ih (keeps hp) h₂
    constructor
    · rintro ⟨hp, along⟩
      refine ⟨agree.mp hp, fun s₂ hs₂ => ?_⟩
      cases h₁.symm.trans hs₂
      exact (rest hp).mp (along s₁ h₁)
    · rintro ⟨hq, along⟩
      refine ⟨agree.mpr hq, fun s₂ hs₂ => ?_⟩
      cases h₁.symm.trans hs₂
      exact (rest (agree.mpr hq)).mpr (along s₁ h₁)

/-- **Invariant rule** for what every step preserves. -/
theorem run_invariant {step : σ → α → Option σ} {I : σ → Prop}
    (pres : ∀ s a s', I s → step s a = some s' → I s') :
    ∀ {as s s'}, I s → run step s as = some s' → I s' := by
  intro as
  induction as with
  | nil =>
    intro s s' hs h
    cases h
    exact hs
  | cons a as ih =>
    intro s s' hs h
    rw [run_cons] at h
    obtain ⟨s₁, h₁, h₂⟩ := Option.bind_eq_some_iff.mp h
    exact ih (pres s a s₁ hs h₁) h₂

/-- **Invariant rule**, at every state a run passes through. -/
theorem Along.always {step : σ → α → Option σ} {P : σ → α → Prop} {I : σ → Prop}
    (pres : ∀ s a s', I s → P s a → step s a = some s' → I s') {as bs : List α} {s s' : σ}
    (hs : I s) (along : Along step P s bs) (pre : as <+: bs) (h : run step s as = some s') :
    I s' :=
  (along.of_prefix pre).invariant pres hs h

end PulseEngine.Library
