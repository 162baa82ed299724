import PulseEngine.Library.Descent
import PulseEngine.Library.Fallible

/-!
# Traversals that visit everything below

`descend` visits the children of a node, each with all that is below it, and stops at the first
visit that fails. It does not remember what it has visited. On finitely many nodes it ends exactly
when it is not led round a circle: along children that are visited without an error, behind siblings
below which everything is visited without an error and without a circle.
-/

namespace PulseEngine.Library

universe u

variable {ε α β : Type u}

def withBelow (visit below : α → Fallible ε (List β)) (n : α) : Fallible ε (List β) := do
  let bs ← visit n
  let rest ← below n
  pure (bs ++ rest)

def descend (visit : α → Fallible ε (List β)) (children : α → List α) :
    ℕ → α → Fallible ε (List β)
  | 0, _ => unended
  | fuel + 1, n => each (withBelow visit (descend visit children fuel)) (children n)

variable {visit below : α → Fallible ε (List β)} {children : α → List α} {n c : α} {fuel fuel' : ℕ}

def ChildOf (children : α → List α) (n c : α) : Prop := c ∈ children n

def Clean (visit : α → Fallible ε (List β)) (n : α) : Prop := ∃ bs, Returns (visit n) bs

def Passes (visit : α → Fallible ε (List β)) (children : α → List α) (n : α) : Prop :=
  Always (ChildOf children)
    (fun x => Clean visit x ∧ ¬ Relation.TransGen (ChildOf children) x x) n

/-- A traversal of the nodes of a list goes down from `c`: the nodes in front are passed, and the
visit of `c` has no error. -/
def EntersAmong (visit : α → Fallible ε (List β)) (children : α → List α) (cs : List α) (c : α) :
    Prop :=
  ∃ before after, cs = before ++ c :: after ∧ (∀ b ∈ before, Passes visit children b) ∧
    Clean visit c

/-- The traversal goes from `n` down to its child `c`. -/
def Enters (visit : α → Fallible ε (List β)) (children : α → List α) (n c : α) : Prop :=
  EntersAmong visit children (children n) c

def Circles (visit : α → Fallible ε (List β)) (children : α → List α) (n : α) : Prop :=
  ∃ x, Relation.ReflTransGen (Enters visit children) n x ∧
    Relation.TransGen (Enters visit children) x x

lemma Enters.childOf (h : Enters visit children n c) : ChildOf children n c := by
  obtain ⟨before, after, hsplit, -⟩ := h
  rw [ChildOf, hsplit]
  exact List.mem_append_right _ List.mem_cons_self

lemma Circles.step (h : Circles visit children n) :
    ∃ c, Enters visit children n c ∧ Circles visit children c := by
  obtain ⟨x, path, circle⟩ := h
  rcases Relation.ReflTransGen.cases_head path with rfl | ⟨c, enters, path⟩
  · obtain ⟨c, enters, path⟩ := Relation.TransGen.head'_iff.mp circle
    exact ⟨c, enters, n, path, circle⟩
  · exact ⟨c, enters, x, path, circle⟩

lemma passes_of_children (clean : Clean visit n)
    (h : ∀ c ∈ children n, Passes visit children c) : Passes visit children n := by
  refine always_iff.mpr ⟨⟨clean, fun circle => ?_⟩, h⟩
  obtain ⟨c, hc, path⟩ := Relation.TransGen.head'_iff.mp circle
  exact (h c hc n path).2 circle

/-! ### More fuel -/

lemma each_congr {go go' : α → Fallible ε (List β)} : ∀ {as : List α},
    Ends (each go as) → (∀ a ∈ as, Ends (go a) → go' a = go a) → each go' as = each go as := by
  intro as
  induction as with
  | nil => exact fun _ _ => rfl
  | cons a as ih =>
    intro ends same
    obtain ⟨first, rest⟩ := ends_each_cons.mp ends
    rw [each, each, same a List.mem_cons_self first]
    refine bind_congr fun bs hbs => ?_
    rw [ih (rest ⟨bs, hbs⟩) fun b hb => same b (.tail _ hb)]

lemma ends_withBelow : Ends (withBelow visit below c) ↔
    Ends (visit c) ∧ (Clean visit c → Ends (below c)) := by
  rw [withBelow, ends_bind]
  refine and_congr_right fun _ => ⟨?_, ?_⟩
  · rintro h ⟨bs, hbs⟩
    exact (ends_bind.mp (h bs hbs)).1
  · exact fun h bs hbs => ends_bind.mpr ⟨h ⟨bs, hbs⟩, fun _ _ => ends_pure⟩

lemma descend_mono : ∀ {fuel fuel' : ℕ} {n : α}, Ends (descend visit children fuel n) →
    fuel ≤ fuel' → descend visit children fuel' n = descend visit children fuel n := by
  intro fuel
  induction fuel with
  | zero => exact fun ends => absurd ends not_ends_unended
  | succ fuel ih =>
    intro fuel' n ends hle
    cases fuel' with
    | zero => exact absurd hle (Nat.not_succ_le_zero fuel)
    | succ fuel' =>
      refine each_congr ends fun c _ hc => bind_congr fun bs hbs => ?_
      rw [ih ((ends_withBelow.mp hc).2 ⟨bs, hbs⟩) (Nat.le_of_succ_le_succ hle)]

lemma each_descend_mono {cs : List α}
    (ends : Ends (each (withBelow visit (descend visit children fuel)) cs)) (hle : fuel ≤ fuel') :
    each (withBelow visit (descend visit children fuel')) cs =
      each (withBelow visit (descend visit children fuel)) cs := by
  refine each_congr ends fun c _ hc => bind_congr fun bs hbs => ?_
  rw [descend_mono ((ends_withBelow.mp hc).2 ⟨bs, hbs⟩) hle]

/-! ### Values and errors -/

lemma returns_withBelow : (∃ bs, Returns (withBelow visit below c) bs) ↔
    Clean visit c ∧ ∃ bs, Returns (below c) bs := by
  refine ⟨?_, ?_⟩
  · rintro ⟨bs, h⟩
    obtain ⟨bs₁, h₁, h⟩ := returns_bind.mp h
    obtain ⟨rest, h₂, -⟩ := returns_bind.mp h
    exact ⟨⟨bs₁, h₁⟩, rest, h₂⟩
  · rintro ⟨⟨bs₁, h₁⟩, rest, h₂⟩
    exact ⟨bs₁ ++ rest,
      returns_bind.mpr ⟨bs₁, h₁, returns_bind.mpr ⟨rest, h₂, returns_pure.mpr rfl⟩⟩⟩

lemma fails_withBelow (h : Fails (withBelow visit below c)) :
    Fails (visit c) ∨ Fails (below c) := by
  rcases fails_bind.mp h with h | ⟨bs, _, h⟩
  · exact .inl h
  · rcases fails_bind.mp h with h | ⟨rest, _, h⟩
    · exact .inr h
    · exact absurd h (Returns.not_fails (returns_pure.mpr rfl))

lemma passes_of_returns : ∀ {fuel : ℕ} {n : α}, (∃ bs, Returns (descend visit children fuel n) bs) →
    ∀ c ∈ children n, Passes visit children c := by
  intro fuel
  induction fuel with
  | zero => exact fun ⟨_, h⟩ => absurd h not_returns_unended
  | succ fuel ih =>
    intro n h c hc
    obtain ⟨clean, below⟩ := returns_withBelow.mp (returns_each.mp h c hc)
    exact passes_of_children clean (ih below)

lemma not_fails_of_passes : ∀ {fuel : ℕ} {n : α}, (∀ c ∈ children n, Passes visit children c) →
    ¬ Fails (descend visit children fuel n) := by
  intro fuel
  induction fuel with
  | zero => exact fun _ ⟨_, h⟩ => nomatch h
  | succ fuel ih =>
    intro n h fails
    obtain ⟨c, hc, fails⟩ := fails_each fails
    obtain ⟨⟨⟨bs, clean⟩, _⟩, below⟩ := always_iff.mp (h c hc)
    rcases fails_withBelow fails with fails | fails
    · exact clean.not_fails fails
    · exact ih below fails

lemma returns_of_passes (h : ∀ c ∈ children n, Passes visit children c)
    (ends : Ends (descend visit children fuel n)) :
    ∃ bs, Returns (descend visit children fuel n) bs :=
  ends.cases.resolve_right (not_fails_of_passes h)

/-! ### Circles -/

lemma ends_of_entersAmong : ∀ {cs : List α},
    Ends (each (withBelow visit (descend visit children fuel)) cs) →
      EntersAmong visit children cs c → Ends (descend visit children fuel c) := by
  rintro cs ends ⟨before, after, rfl, hbefore, clean⟩
  induction before with
  | nil => exact (ends_withBelow.mp (ends_each_cons.mp ends).1).2 clean
  | cons b before ih =>
    -- the nodes in front are left behind one after the other
    obtain ⟨first, rest⟩ := ends_each_cons.mp ends
    obtain ⟨⟨cleanb, _⟩, belowb⟩ := always_iff.mp (hbefore b List.mem_cons_self)
    have returns := returns_of_passes belowb ((ends_withBelow.mp first).2 cleanb)
    exact ih (rest (returns_withBelow.mpr ⟨cleanb, returns⟩)) fun b hb => hbefore b (.tail _ hb)

lemma ends_each_of_entersAmong (visits : ∀ n, Ends (visit n)) : ∀ {cs : List α},
    (∀ c, EntersAmong visit children cs c → ∃ fuel, Ends (descend visit children fuel c)) →
      ∃ fuel, Ends (each (withBelow visit (descend visit children fuel)) cs) := by
  intro cs
  induction cs with
  | nil => exact fun _ => ⟨0, ends_pure⟩
  | cons c cs ih =>
    intro h
    by_cases clean : Clean visit c
    · obtain ⟨fuel, ends⟩ := h c ⟨[], cs, rfl, fun b hb => absurd hb List.not_mem_nil, clean⟩
      rcases ends.cases with ⟨bs, hbs⟩ | fails
      · -- the node passes, and the loop goes on with the larger fuel
        have passes := passes_of_children clean (passes_of_returns ⟨bs, hbs⟩)
        obtain ⟨fuel', ends'⟩ := ih fun d ⟨before, after, hsplit, hbefore, hd⟩ =>
          h d ⟨c :: before, after, by rw [hsplit]; rfl,
            List.forall_mem_cons.mpr ⟨passes, hbefore⟩, hd⟩
        refine ⟨max fuel fuel', ends_each_cons.mpr
          ⟨ends_withBelow.mpr ⟨visits c, fun _ => ?_⟩, fun _ => ?_⟩⟩
        · rw [descend_mono ends (Nat.le_max_left fuel fuel')]
          exact ends
        · rw [each_descend_mono ends' (Nat.le_max_right fuel fuel')]
          exact ends'
      · refine ⟨fuel, ends_each_cons.mpr ⟨ends_withBelow.mpr ⟨visits c, fun _ => ends⟩, ?_⟩⟩
        intro returns
        obtain ⟨bs, hbs⟩ := (returns_withBelow.mp returns).2
        exact absurd fails hbs.not_fails
    · refine ⟨0, ends_each_cons.mpr ⟨ends_withBelow.mpr ⟨visits c, fun hc => absurd hc clean⟩, ?_⟩⟩
      exact fun returns => absurd (returns_withBelow.mp returns).1 clean

lemma not_circles_of_ends : ∀ {fuel : ℕ} {n : α}, Ends (descend visit children fuel n) →
    ¬ Circles visit children n := by
  intro fuel
  induction fuel with
  | zero => exact fun ends => absurd ends not_ends_unended
  | succ fuel ih =>
    intro n ends circles
    obtain ⟨c, enters, circles⟩ := circles.step
    exact ih (ends_of_entersAmong ends enters) circles

/-- **When a traversal ends.** On finitely many nodes whose visits all end, the traversal ends
exactly when it is not led into a circle. -/
theorem descend_ends_iff {nodes : Set α} (finite : nodes.Finite)
    (closed : ∀ n ∈ nodes, ∀ c ∈ children n, c ∈ nodes) (visits : ∀ n, Ends (visit n))
    (hn : n ∈ nodes) :
    (∃ fuel, Ends (descend visit children fuel n)) ↔ ¬ Circles visit children n := by
  refine ⟨fun ⟨_, ends⟩ => not_circles_of_ends ends, fun hnot => ?_⟩
  by_contra never
  -- from a node on which the traversal does not end, it goes on to another one
  let lost : Set α := {x | x ∈ nodes ∧ Relation.ReflTransGen (Enters visit children) n x ∧
    ¬ ∃ fuel, Ends (descend visit children fuel x)}
  have leads : ∀ x ∈ lost, ∃ y ∈ lost, Enters visit children x y := by
    intro x hx
    by_contra hstop
    have children_end : ∀ y, Enters visit children x y →
        ∃ fuel, Ends (descend visit children fuel y) := by
      intro y enters
      by_contra hy
      exact hstop ⟨y, ⟨closed x hx.1 y enters.childOf, hx.2.1.tail enters, hy⟩, enters⟩
    obtain ⟨fuel, ends⟩ := ends_each_of_entersAmong visits children_end
    exact hx.2.2 ⟨fuel + 1, ends⟩
  have finiteLost : lost.Finite := finite.subset fun x hx => hx.1
  obtain ⟨x, hx, circle⟩ := circle_within finiteLost ⟨n, hn, .refl, never⟩ leads
  exact hnot ⟨x, hx.2.1, circle⟩

/-- **When the traversal of a list ends**: when no node that is entered leads it into a circle. -/
theorem each_descend_ends_iff {nodes : Set α} {cs : List α} (finite : nodes.Finite)
    (closed : ∀ n ∈ nodes, ∀ c ∈ children n, c ∈ nodes) (visits : ∀ n, Ends (visit n))
    (hcs : ∀ c ∈ cs, c ∈ nodes) :
    (∃ fuel, Ends (each (withBelow visit (descend visit children fuel)) cs)) ↔
      ∀ c, EntersAmong visit children cs c → ¬ Circles visit children c := by
  refine ⟨fun ⟨_, ends⟩ c enters => not_circles_of_ends (ends_of_entersAmong ends enters), ?_⟩
  refine fun h => ends_each_of_entersAmong visits fun c enters => ?_
  obtain ⟨before, after, rfl, -⟩ := id enters
  have hc : c ∈ nodes := hcs c (List.mem_append_right _ List.mem_cons_self)
  exact (descend_ends_iff finite closed visits hc).mpr (h c enters)

lemma passes_of_returns_each {cs : List α}
    (h : ∃ bs, Returns (each (withBelow visit (descend visit children fuel)) cs) bs) :
    ∀ c ∈ cs, Passes visit children c := by
  intro c hc
  obtain ⟨clean, below⟩ := returns_withBelow.mp (returns_each.mp h c hc)
  exact passes_of_children clean (passes_of_returns below)

end PulseEngine.Library
