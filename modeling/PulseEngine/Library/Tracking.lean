import Mathlib.Tactic

/-!
# Tracked states

A tracker keeps the state that was requested last. For a request it emits a transition when the state
differs from the tracked one, or when the requested state forces one.
-/

namespace PulseEngine.Library

section tracking

variable {σ : Type*}

def tracked (s : σ) (requests : List σ) : σ := requests.getLast?.getD s

lemma tracked_append (s : σ) (us vs : List σ) :
    tracked s (us ++ vs) = tracked (tracked s us) vs := by
  rw [tracked, tracked, tracked, List.getLast?_append]
  cases vs.getLast? <;> rfl

@[simp] lemma tracked_nil (s : σ) : tracked s [] = s := rfl

@[simp] lemma tracked_singleton (s u : σ) : tracked s [u] = u := rfl

variable [DecidableEq σ] (forces : σ → Bool)

def emits : σ → List σ → Bool
  | _, [] => false
  | s, u :: us => decide (s ≠ u) || forces u || emits u us

lemma emits_singleton {s u : σ} : emits forces s [u] = true ↔ s ≠ u ∨ forces u = true := by
  simp [emits]

lemma emits_append (s : σ) (us vs : List σ) :
    emits forces s (us ++ vs) = (emits forces s us || emits forces (tracked s us) vs) := by
  induction us generalizing s with
  | nil => rfl
  | cons u us ih =>
    have htracked : tracked s (u :: us) = tracked u us := by
      rw [← List.singleton_append, tracked_append, tracked_singleton]
    simp only [List.cons_append, emits, ih, htracked, Bool.or_assoc]

lemma emits_eq_false_iff {s : σ} {us : List σ} :
    emits forces s us = false ↔ ∀ u ∈ us, u = s ∧ forces u = false := by
  induction us generalizing s with
  | nil => simp [emits]
  | cons u us ih =>
    simp only [emits, Bool.or_eq_false_iff, ih, List.forall_mem_cons, decide_eq_false_iff_not,
      not_not]
    constructor
    · rintro ⟨⟨rfl, hforces⟩, hall⟩
      exact ⟨⟨rfl, hforces⟩, hall⟩
    · rintro ⟨⟨rfl, hforces⟩, hall⟩
      exact ⟨⟨rfl, hforces⟩, hall⟩

lemma emits_iff_of_not_forces {s : σ} {us : List σ} (h : forces s = false) :
    emits forces s us = true ↔ ∃ u ∈ us, u ≠ s := by
  rw [← not_iff_not, Bool.not_eq_true, emits_eq_false_iff]
  push Not
  constructor
  · exact fun hall u hu => (hall u hu).1
  · exact fun hall u hu => ⟨hall u hu, hall u hu ▸ h⟩

lemma emits_of_forces {s : σ} {us : List σ} (h : forces s = true) (hne : us ≠ []) :
    emits forces s us = true := by
  by_contra hnot
  rw [Bool.not_eq_true, emits_eq_false_iff] at hnot
  obtain ⟨u, hu⟩ := List.exists_mem_of_ne_nil us hne
  obtain ⟨rfl, hforces⟩ := hnot u hu
  rw [h] at hforces
  cases hforces

end tracking

end PulseEngine.Library
