import Mathlib.Logic.Relation
import Mathlib.Data.Set.Insert

/-!
# Entities with components

A world as a set of entities with components. What a step writes to one entity leaves the others, apart from entities
that it makes below that one, and what it deletes takes along whatever is below it. `Since` says that a world is an
earlier one with entities made on top: when these are deleted, the earlier world is back.
-/

namespace PulseEngine.Library

variable {ω κ E : Type*}

/-- What is seen of the states `ω` of a world: the entities that are alive, and their components, which name other
entities, among them those that an entity is a child of. -/
structure Population (ω κ E : Type*) where
  alive : ω → Set E
  components : ω → E → κ
  mentions : κ → E → Prop
  childOf : κ → E → Prop

namespace Population

variable (p : Population ω κ E)

def Names (w : ω) (x y : E) : Prop := x ∈ p.alive w ∧ p.mentions (p.components w x) y

def Child (w : ω) (x y : E) : Prop := x ∈ p.alive w ∧ p.childOf (p.components w x) y

abbrev Refers (w : ω) : E → E → Prop := Relation.ReflTransGen (p.Names w)

abbrev Below (w : ω) : E → E → Prop := Relation.ReflTransGen (p.Child w)

structure Writes (w w' : ω) (e : E) : Prop where
  alive : p.alive w ⊆ p.alive w'
  others : ∀ x ∈ p.alive w, x ≠ e → p.components w' x = p.components w x
  made : ∀ x ∈ p.alive w', x ∉ p.alive w → p.Below w' x e

structure Deletes (w w' : ω) (e : E) : Prop where
  gone : e ∉ p.alive w'
  alive : p.alive w' ⊆ p.alive w
  comes : ∀ x ∈ p.alive w, x ∉ p.alive w' → p.Refers w x e
  others : ∀ x ∈ p.alive w', ¬ p.Refers w x e → p.components w' x = p.components w x
  children : ∀ x ∈ p.alive w', ∀ y, p.childOf (p.components w x) y →
    y ∈ p.alive w' ∧ p.childOf (p.components w' x) y

structure Closed : Prop where
  named : ∀ w x y, p.Names w x y → y ∈ p.alive w
  parent : ∀ c y, p.childOf c y → p.mentions c y

/-- A world after others were made: those that were there are as they were, and the others are below the ones
that were made. -/
structure Since (w₀ w : ω) (made : Set E) : Prop where
  kept : ∀ x ∈ p.alive w₀, x ∈ p.alive w ∧ p.components w x = p.components w₀ x
  fresh : ∀ e ∈ made, e ∉ p.alive w₀
  below : ∀ x ∈ p.alive w, x ∉ p.alive w₀ → ∃ e ∈ made, p.Below w x e

structure Unchanged (w w' : ω) : Prop where
  alive : p.alive w' = p.alive w
  components : ∀ x ∈ p.alive w, p.components w' x = p.components w x

variable {p} {w w' w₀ : ω} {e x : E} {made : Set E}

lemma Unchanged.refl (w : ω) : p.Unchanged w w := ⟨rfl, fun _ _ => rfl⟩

lemma Writes.refl : p.Writes w w e := ⟨Set.Subset.refl _, fun _ _ _ => rfl, fun _ hx hnot => absurd hx hnot⟩

lemma Writes.below (h : p.Writes w w' e) {y : E} (path : p.Below w x y) : p.Below w' x y ∨ p.Below w' x e := by
  induction path using Relation.ReflTransGen.head_induction_on with
  | refl => exact .inl .refl
  | @head x z edge _ ih =>
    by_cases eq : x = e
    · exact .inr (eq ▸ .refl)
    · have edge' : p.Child w' x z := ⟨h.alive edge.1, by rw [h.others x edge.1 eq]; exact edge.2⟩
      exact ih.imp (.head edge') (.head edge')

lemma Since.refl (w : ω) : p.Since w w ∅ :=
  ⟨fun _ hx => ⟨hx, rfl⟩, fun _ he => absurd he (Set.notMem_empty _), fun _ hx hnot => absurd hx hnot⟩

lemma Since.write (h : p.Since w₀ w made) (he : e ∈ made) (writes : p.Writes w w' e) : p.Since w₀ w' made := by
  refine ⟨fun x hx => ?_, h.fresh, fun x hx hnot => ?_⟩
  · obtain ⟨alive, same⟩ := h.kept x hx
    have ne : x ≠ e := fun eq => h.fresh e he (eq ▸ hx)
    exact ⟨writes.alive alive, (writes.others x alive ne).trans same⟩
  · by_cases old : x ∈ p.alive w
    · obtain ⟨d, hd, path⟩ := h.below x old hnot
      exact (writes.below path).elim (fun path => ⟨d, hd, path⟩) fun path => ⟨e, he, path⟩
    · exact ⟨e, he, writes.made x hx old⟩

lemma Since.new (h : p.Since w₀ w made) (he : e ∉ p.alive w) (writes : p.Writes w w' e) :
    p.Since w₀ w' (insert e made) := by
  refine Since.write ⟨h.kept, ?_, fun x hx hnot => ?_⟩ (Set.mem_insert e made) writes
  · rintro d (rfl | hd)
    · exact fun hd => he (h.kept d hd).1
    · exact h.fresh d hd
  · obtain ⟨d, hd, path⟩ := h.below x hx hnot
    exact ⟨d, .inr hd, path⟩

lemma Since.refers (closed : p.Closed) (h : p.Since w₀ w made) {y : E} (hx : x ∈ p.alive w₀) (path : p.Refers w x y) :
    y ∈ p.alive w₀ := by
  induction path with
  | refl => exact hx
  | @tail y z _ edge ih =>
    have named := edge.2
    rw [(h.kept y ih).2] at named
    exact closed.named w₀ y z ⟨ih, named⟩

lemma Closed.refers (closed : p.Closed) {y : E} (path : p.Below w x y) : p.Refers w x y :=
  path.lift id fun _ _ edge => ⟨edge.1, closed.parent _ _ edge.2⟩

lemma Deletes.below (h : p.Deletes w w' e) {y : E} (path : p.Below w x y) (hx : x ∈ p.alive w') :
    y ∈ p.alive w' ∧ p.Below w' x y := by
  induction path with
  | refl => exact ⟨hx, .refl⟩
  | @tail y z _ edge ih =>
    obtain ⟨hz, child⟩ := h.children y ih.1 z edge.2
    exact ⟨hz, ih.2.tail ⟨ih.1, child⟩⟩

lemma Since.delete (closed : p.Closed) (h : p.Since w₀ w (insert e made)) (deletes : p.Deletes w w' e) :
    p.Since w₀ w' made := by
  have he : e ∉ p.alive w₀ := h.fresh e (Set.mem_insert e made)
  refine ⟨fun x hx => ?_, fun d hd => h.fresh d (.inr hd), fun x hx hnot => ?_⟩
  · obtain ⟨alive, same⟩ := h.kept x hx
    have away : ¬ p.Refers w x e := fun path => he (h.refers closed hx path)
    have stays : x ∈ p.alive w' := by
      by_contra gone
      exact away (deletes.comes x alive gone)
    exact ⟨stays, (deletes.others x stays away).trans same⟩
  · obtain ⟨d, hd, path⟩ := h.below x (deletes.alive hx) hnot
    obtain ⟨hd', path'⟩ := deletes.below path hx
    rcases hd with rfl | hd
    · exact absurd hd' deletes.gone
    · exact ⟨d, hd, path'⟩

lemma Since.skip (closed : p.Closed) (h : p.Since w₀ w (insert e made)) (he : e ∉ p.alive w) :
    p.Since w₀ w made := by
  refine ⟨h.kept, fun d hd => h.fresh d (.inr hd), fun x hx hnot => ?_⟩
  obtain ⟨d, hd, path⟩ := h.below x hx hnot
  rcases hd with rfl | hd
  · rcases Relation.ReflTransGen.cases_tail path with rfl | ⟨y, -, edge⟩
    · exact absurd hx he
    · exact absurd (closed.named w y d ⟨edge.1, closed.parent _ _ edge.2⟩) he
  · exact ⟨d, hd, path⟩

lemma Since.unchanged (h : p.Since w₀ w ∅) : p.Unchanged w₀ w := by
  refine ⟨Set.Subset.antisymm (fun x hx => ?_) fun x hx => (h.kept x hx).1, fun x hx => (h.kept x hx).2⟩
  by_contra hnot
  obtain ⟨e, he, -⟩ := h.below x hx hnot
  exact he

end Population

end PulseEngine.Library
