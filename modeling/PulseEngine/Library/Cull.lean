import PulseEngine.Library.Run

/-!
# Culling a multigraph by reference counts

Every node counts its outgoing edges. A node whose count reaches zero is put on a worklist unless it is
persistent, and processing a node takes its incoming edges away from the counts. Whatever the order
in which the worklist is processed, no count is decremented below zero, every node is processed at
most once, and the nodes that are processed in the end are the least set that contains every node
that is not persistent and whose successors are all in the set.
-/

namespace PulseEngine.Library

variable {α : Type*} [DecidableEq α]

structure Multigraph (α : Type*) where
  nodes : List α
  ins : α → List α
  outs : α → List α
  persistent : α → Bool

structure Multigraph.Balanced (g : Multigraph α) : Prop where
  nodup : g.nodes.Nodup
  balanced : ∀ v w, (g.outs v).count w = (g.ins w).count v
  ins_mem : ∀ {v w}, v ∈ g.ins w → v ∈ g.nodes
  outs_mem : ∀ {v w}, w ∈ g.outs v → w ∈ g.nodes

structure CullState (α : Type*) where
  refCount : α → Nat
  stack : List α

namespace Multigraph

variable (g : Multigraph α)

inductive Culled : α → Prop where
  | cull {v : α} (mem : v ∈ g.nodes) (mortal : g.persistent v = false)
      (outs : ∀ w ∈ g.outs v, Culled w) : Culled v

def CullClosed (S : Set α) : Prop :=
  ∀ v ∈ g.nodes, g.persistent v = false → (∀ w ∈ g.outs v, w ∈ S) → v ∈ S

def start : CullState α where
  refCount v := (g.outs v).length
  stack := (g.nodes.filter fun v => (g.outs v).length = 0 ∧ g.persistent v = false).reverse

/-- Take one edge from a node away; `none` if it had none. -/
def release (s : CullState α) (v : α) : Option (CullState α) :=
  if s.refCount v = 0 then none
  else some
    { refCount := Function.update s.refCount v (s.refCount v - 1)
      stack :=
        if s.refCount v - 1 = 0 ∧ g.persistent v = false then v :: s.stack else s.stack }

def process (s : CullState α) (v : α) : Option (CullState α) :=
  (g.ins v).foldlM g.release { s with stack := s.stack.erase v }

def step (s : CullState α) (v : α) : Option (CullState α) :=
  if v ∈ s.stack then g.process s v else none

def drain : Nat → CullState α → Option (CullState α)
  | 0, s => if s.stack = [] then some s else none
  | n + 1, s =>
    match s.stack with
    | [] => some s
    | v :: _ => (g.process s v).bind (drain n)

variable {g} {s s' : CullState α} {v w : α} {xs : List α}

omit [DecidableEq α] in
/-- The culled nodes are the least such set. -/
theorem isLeast_culled : IsLeast {S | g.CullClosed S} {v | g.Culled v} := by
  refine ⟨fun v hv hp hw => .cull hv hp hw, fun S closed v hv => ?_⟩
  induction hv with
  | cull mem mortal _ ih => exact closed _ mem mortal ih

structure Released (s s' : CullState α) (vs pushed : List α) : Prop where
  refCount : ∀ v, s'.refCount v = s.refCount v - vs.count v
  stack : s'.stack = pushed ++ s.stack
  nodup : pushed.Nodup
  mem : ∀ v, v ∈ pushed ↔ v ∈ vs ∧ s.refCount v = vs.count v ∧ g.persistent v = false

lemma foldlM_release : ∀ {vs : List α} {s : CullState α}, (∀ v, vs.count v ≤ s.refCount v) →
    ∃ s' pushed, vs.foldlM g.release s = some s' ∧ Released (g := g) s s' vs pushed := by
  intro vs
  induction vs with
  | nil =>
    intro s _
    exact ⟨s, [], rfl, by simp, rfl, List.nodup_nil, by simp⟩
  | cons a vs ih =>
    intro s enough
    have ha := enough a
    rw [List.count_cons_self] at ha
    have hpos : s.refCount a ≠ 0 := by omega
    set s₁ : CullState α :=
      { refCount := Function.update s.refCount a (s.refCount a - 1)
        stack :=
          if s.refCount a - 1 = 0 ∧ g.persistent a = false then a :: s.stack else s.stack }
      with hs₁
    have e₁ : g.release s a = some s₁ := if_neg hpos
    have count₁ : ∀ v, s₁.refCount v = s.refCount v - if v = a then 1 else 0 := by
      intro v
      by_cases hv : v = a
      · subst hv
        simp [hs₁]
      · simp [hs₁, hv]
    have countCons : ∀ v, (a :: vs).count v = vs.count v + if v = a then 1 else 0 := by
      intro v
      rw [List.count_cons]
      by_cases hv : v = a
      · simp [hv]
      · simp [hv, Ne.symm hv]
    have enough₁ : ∀ v, vs.count v ≤ s₁.refCount v := by
      intro v
      have := enough v
      rw [countCons] at this
      rw [count₁]
      omega
    obtain ⟨s', pushed, e, r⟩ := ih enough₁
    refine ⟨s', if s.refCount a - 1 = 0 ∧ g.persistent a = false then pushed ++ [a] else pushed,
      ?_, ?_⟩
    · rw [List.foldlM_cons, e₁]
      exact e
    · have notTwice : s.refCount a - 1 = 0 → a ∉ pushed := by
        intro hz hm
        obtain ⟨hvs, hc, _⟩ := (r.mem a).mp hm
        have h₁ := count₁ a
        have h₂ := List.count_pos_iff.mpr hvs
        rw [if_pos rfl] at h₁
        omega
      constructor
      · intro v
        rw [r.refCount, count₁, countCons]
        omega
      · rw [r.stack]
        simp only [hs₁]
        split <;> simp
      · split
        · rename_i hz
          exact List.nodup_append.mpr ⟨r.nodup, List.nodup_singleton a, by
            rintro x hx y hy rfl
            rw [List.mem_singleton.mp hy] at hx
            exact notTwice hz.1 hx⟩
        · exact r.nodup
      · intro v
        have hmem := r.mem v
        have hcount := count₁ v
        have hcons := countCons v
        by_cases hv : v = a
        · subst hv
          simp only [if_true] at hcount hcons
          by_cases hz : s.refCount v - 1 = 0 ∧ g.persistent v = false
          · rw [if_pos hz]
            have hle := enough v
            rw [hcons] at hle
            simp only [List.mem_append, List.mem_cons, true_or, or_true, true_and, true_iff]
            exact ⟨by omega, hz.2⟩
          · rw [if_neg hz, hmem, hcount, hcons]
            simp only [List.mem_cons, true_or, true_and]
            constructor
            · rintro ⟨_, hc, hp⟩
              exact ⟨by omega, hp⟩
            · rintro ⟨hc, hp⟩
              have : 0 < vs.count v := by
                by_contra hzero
                exact hz ⟨by omega, hp⟩
              exact ⟨List.count_pos_iff.mp this, by omega, hp⟩
        · rw [if_neg hv] at hcount hcons
          have : v ∈ (if s.refCount a - 1 = 0 ∧ g.persistent a = false then pushed ++ [a]
              else pushed) ↔ v ∈ pushed := by
            split <;> simp [hv]
          rw [this, hmem, hcount, hcons]
          simp [hv]

/-- The invariant after `processed` was processed: a node counts its edges to nodes that were not, and
the nodes that were or are about to be are those without a count, all of them culled. -/
structure Progress (g : Multigraph α) (processed : List α) (s : CullState α) : Prop where
  refCount : ∀ v, s.refCount v = (g.outs v).countP (· ∉ processed)
  nodup : (processed ++ s.stack).Nodup
  mem : ∀ v, v ∈ processed ++ s.stack ↔
    v ∈ g.nodes ∧ s.refCount v = 0 ∧ g.persistent v = false
  culled : ∀ v ∈ processed ++ s.stack, g.Culled v

lemma Progress.start (b : g.Balanced) : Progress g [] g.start := by
  have hmem : ∀ v, v ∈ [] ++ g.start.stack ↔
      v ∈ g.nodes ∧ g.start.refCount v = 0 ∧ g.persistent v = false := by
    intro v
    simp [Multigraph.start]
  constructor
  · intro v
    simp [Multigraph.start]
  · exact List.nodup_reverse.mpr (b.nodup.filter _)
  · exact hmem
  · intro v hv
    obtain ⟨hn, hz, hp⟩ := (hmem v).mp hv
    refine .cull hn hp fun w hw => ?_
    rw [List.length_eq_zero_iff.mp hz] at hw
    cases hw

lemma countP_not_mem_snoc (hv : v ∉ xs) (ws : List α) :
    ws.countP (· ∉ xs ++ [v]) = ws.countP (· ∉ xs) - ws.count v := by
  induction ws with
  | nil => rfl
  | cons w ws ih =>
    have hle : ws.count v ≤ ws.countP (· ∉ xs) := by
      rw [List.count]
      refine List.countP_mono_left fun x _ hx => ?_
      rw [eq_of_beq hx]
      exact decide_eq_true hv
    rw [List.countP_cons, List.countP_cons, List.count_cons, ih]
    simp only [decide_not] at hle ⊢
    by_cases hw : w = v
    · subst hw
      simp [hv]
    · by_cases hwx : w ∈ xs
      · simp [hw, hwx]
      · simp [hw, hwx]
        omega

/-- **One step.** Processing a node of the worklist takes no count below zero. -/
theorem Progress.process (b : g.Balanced) (p : Progress g xs s) (hv : v ∈ s.stack) :
    ∃ s', g.process s v = some s' ∧ Progress g (xs ++ [v]) s' := by
  have hvx : v ∉ xs := fun hc =>
    (List.nodup_append.mp p.nodup).2.2 v hc v hv rfl
  have enough : ∀ w, (g.ins v).count w ≤ s.refCount w := by
    intro w
    rw [← b.balanced w v, p.refCount]
    rw [List.count]
    refine List.countP_mono_left fun x _ hx => ?_
    rw [eq_of_beq hx]
    exact decide_eq_true hvx
  obtain ⟨s', pushed, e, r⟩ := foldlM_release (g := g)
    (s := { s with stack := s.stack.erase v }) enough
  have refCount : ∀ w, s'.refCount w = (g.outs w).countP (· ∉ xs ++ [v]) := by
    intro w
    rw [r.refCount, countP_not_mem_snoc hvx, b.balanced w v, ← p.refCount w]
  have erased : ∀ w, w ∈ s.stack.erase v ↔ w ≠ v ∧ w ∈ s.stack :=
    fun w => (List.nodup_append.mp p.nodup).2.1.mem_erase_iff
  have members : ∀ w, w ∈ (xs ++ [v]) ++ s'.stack ↔ w ∈ xs ++ s.stack ∨ w ∈ pushed := by
    intro w
    rw [r.stack]
    simp only [List.mem_append, List.mem_singleton, erased]
    by_cases hw : w = v
    · simp [hw, hv]
    · simp [hw]
      tauto
  have fresh : ∀ w ∈ pushed, w ∉ xs ++ s.stack := by
    intro w hw hc
    obtain ⟨hin, hcount, _⟩ := (r.mem w).mp hw
    have hpos := List.count_pos_iff.mpr hin
    have := ((p.mem w).mp hc).2.1
    simp only at hcount
    omega
  have mem : ∀ w, w ∈ (xs ++ [v]) ++ s'.stack ↔
      w ∈ g.nodes ∧ s'.refCount w = 0 ∧ g.persistent w = false := by
    intro w
    rw [members, p.mem, r.mem, r.refCount]
    have hle := enough w
    constructor
    · rintro (⟨hn, hz, hp⟩ | ⟨hin, hc, hp⟩)
      · exact ⟨hn, by simp only; omega, hp⟩
      · exact ⟨b.ins_mem hin, by simp only at hc ⊢; omega, hp⟩
    · rintro ⟨hn, hz, hp⟩
      simp only at hz ⊢
      by_cases h : s.refCount w = 0
      · exact Or.inl ⟨hn, h, hp⟩
      · refine Or.inr ⟨List.count_pos_iff.mp ?_, by omega, hp⟩
        omega
  refine ⟨s', e, refCount, ?_, mem, fun w hw => ?_⟩
  · rw [r.stack]
    refine List.nodup_append.mpr ⟨?_, ?_, ?_⟩
    · exact List.nodup_append.mpr ⟨(List.nodup_append.mp p.nodup).1, List.nodup_singleton v, by
        rintro x hx y hy rfl
        rw [List.mem_singleton.mp hy] at hx
        exact hvx hx⟩
    · exact List.nodup_append.mpr ⟨r.nodup, (List.nodup_append.mp p.nodup).2.1.erase v, by
        rintro x hx y hy rfl
        exact fresh x hx (List.mem_append_right _ ((erased x).mp hy).2)⟩
    · rintro x hx y hy rfl
      rcases List.mem_append.mp hx with hx | hx
      · rcases List.mem_append.mp hy with hy | hy
        · exact fresh x hy (List.mem_append_left _ hx)
        · exact (List.nodup_append.mp p.nodup).2.2 x hx x ((erased x).mp hy).2 rfl
      · rw [List.mem_singleton.mp hx] at hy
        rcases List.mem_append.mp hy with hy | hy
        · exact fresh v hy (List.mem_append_right _ hv)
        · exact ((erased v).mp hy).1 rfl
  · rcases (members w).mp hw with hold | hnew
    · exact p.culled w hold
    · -- all successors of a node whose count just reached zero were processed
      obtain ⟨hn, hz, hp⟩ := (mem w).mp hw
      refine .cull hn hp fun x hx => ?_
      rw [refCount, List.countP_eq_zero] at hz
      have hx' := hz x hx
      simp only [decide_not, Bool.not_eq_eq_eq_not, Bool.not_true, decide_eq_false_iff_not,
        not_not] at hx'
      rcases List.mem_append.mp hx' with hx' | hx'
      · exact p.culled x (List.mem_append_left _ hx')
      · rw [List.mem_singleton.mp hx']
        exact p.culled v (List.mem_append_right _ hv)

/-- **A run** that processes the worklist in any order. -/
theorem Progress.run (b : g.Balanced) {vs : List α}
    (e : run g.step g.start vs = some s) : Progress g vs s := by
  induction vs using List.reverseRecOn generalizing s with
  | nil =>
    cases e
    exact Progress.start b
  | append_singleton vs v ih =>
    obtain ⟨s₀, e₀⟩ := run_of_prefix e (List.prefix_append vs [v])
    rw [run_snoc e₀] at e
    unfold Multigraph.step at e
    split at e
    · rename_i hv
      obtain ⟨s', e', p'⟩ := (ih e₀).process b hv
      rw [e'] at e
      cases e
      exact p'
    · cases e

lemma Progress.length_le (p : Progress g xs s) :
    xs.length + s.stack.length ≤ g.nodes.length := by
  rw [← List.length_append]
  exact (List.subperm_of_subset p.nodup fun v hv => ((p.mem v).mp hv).1).length_le

/-- When the worklist is empty, the nodes without a count are the least set. -/
theorem Progress.culled_iff (b : g.Balanced) (p : Progress g xs s) (done : s.stack = [])
    (hv : v ∈ g.nodes) :
    (s.refCount v = 0 ∧ g.persistent v = false) ↔ g.Culled v := by
  have mem : ∀ w, w ∈ xs ↔ w ∈ g.nodes ∧ s.refCount w = 0 ∧ g.persistent w = false := by
    intro w
    have := p.mem w
    rwa [done, List.append_nil] at this
  constructor
  · intro h
    exact p.culled v (List.mem_append_left _ ((mem v).mpr ⟨hv, h⟩))
  · intro h
    clear hv
    induction h with
    | @cull w hn hp _ ih =>
      refine ⟨?_, hp⟩
      rw [p.refCount, List.countP_eq_zero]
      intro x hx
      have := (mem x).mpr ⟨b.outs_mem hx, ih x hx⟩
      simpa using this

/-- When the worklist is empty, the nodes that are culled are the least set that is closed. -/
theorem Progress.isLeast (b : g.Balanced) (p : Progress g xs s) (done : s.stack = []) :
    IsLeast {S | g.CullClosed S}
      {v | v ∈ g.nodes ∧ s.refCount v = 0 ∧ g.persistent v = false} := by
  have h : {v | v ∈ g.nodes ∧ s.refCount v = 0 ∧ g.persistent v = false} =
      {v | g.Culled v} := by
    ext v
    constructor
    · rintro ⟨hv, h⟩
      exact (p.culled_iff b done hv).mp h
    · intro h
      have hv : v ∈ g.nodes := by
        cases h with
        | cull mem _ _ => exact mem
      exact ⟨hv, (p.culled_iff b done hv).mpr h⟩
  rw [h]
  exact isLeast_culled

/-- **Termination.** The worklist is empty after at most as many nodes as there are. -/
theorem Progress.drain (b : g.Balanced) : ∀ {n : Nat} {xs : List α} {s : CullState α},
    Progress g xs s → g.nodes.length ≤ xs.length + n →
      ∃ vs s', g.drain n s = some s' ∧ Progress g (xs ++ vs) s' ∧ s'.stack = [] := by
  intro n
  induction n with
  | zero =>
    intro xs s p hle
    have hnil : s.stack = [] := by
      have := p.length_le
      exact List.length_eq_zero_iff.mp (by omega)
    exact ⟨[], s, if_pos hnil, by rwa [List.append_nil], hnil⟩
  | succ n ih =>
    intro xs s p hle
    cases hs : s.stack with
    | nil =>
      refine ⟨[], s, ?_, by rwa [List.append_nil], hs⟩
      unfold Multigraph.drain
      rw [hs]
    | cons v stack =>
      obtain ⟨s₁, e₁, p₁⟩ := p.process b (v := v) (by rw [hs]; exact List.mem_cons_self)
      obtain ⟨vs, s', e', p', hnil⟩ := ih p₁ (by rw [List.length_append, List.length_singleton]; omega)
      refine ⟨v :: vs, s', ?_, by rwa [List.append_assoc] at p', hnil⟩
      unfold Multigraph.drain
      rw [hs]
      simp only [e₁, Option.bind_some]
      exact e'

end Multigraph

end PulseEngine.Library
