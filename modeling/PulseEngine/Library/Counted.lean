import PulseEngine.Library.Descent

/-!
# Counted references

A finite set of nodes that point to each other, owners outside that hold references to some of them,
and a count on every node. `Counted` says that the counts are right. A reference moves between an
owner and an edge without a change of counts (`Counted.relink`), a node whose last reference goes
hands its own references to the owners (`Counted.free`), and two closed sets of nodes can be seen
as one (`Counted.union`). Where no node reaches itself, a node is there exactly as long as some
owner reaches it.
-/

namespace PulseEngine.Library

variable {α : Type*}

def Points (kids : α → Multiset α) (m n : α) : Prop := n ∈ kids m

/-- `n` is `m` or is pointed to from `m`, directly or through other nodes. -/
abbrev Reaches (kids : α → Multiset α) : α → α → Prop := Relation.ReflTransGen (Points kids)

def Acyclic (live : Finset α) (kids : α → Multiset α) : Prop :=
  ∀ n ∈ live, ¬ Relation.TransGen (Points kids) n n

variable [DecidableEq α]

/-- How many references to `n` there are: those of the owners and one for every edge to it. -/
def references (live : Finset α) (kids : α → Multiset α) (own : Multiset α) (n : α) : ℕ :=
  own.count n + ∑ m ∈ live, (kids m).count n

/-- The counts of the nodes in `live` are the numbers of references to them, and nothing points
outside of the set. -/
structure Counted (live : Finset α) (kids : α → Multiset α) (count : α → ℤ) (own : Multiset α) :
    Prop where
  balanced : ∀ n ∈ live, count n = references live kids own n
  positive : ∀ n ∈ live, 0 < count n
  closed : ∀ m ∈ live, ∀ n ∈ kids m, n ∈ live
  owned : ∀ n ∈ own, n ∈ live

variable {live live' : Finset α} {kids kids' : α → Multiset α} {count count' : α → ℤ}
  {own own' ks : Multiset α} {n m p : α}

omit [DecidableEq α] in
lemma Reaches.mem (closed : ∀ m ∈ live, ∀ n ∈ kids m, n ∈ live) (h : Reaches kids m n)
    (hm : m ∈ live) : n ∈ live := by
  induction h with
  | refl => exact hm
  | tail _ edge ih => exact closed _ ih _ edge

omit [DecidableEq α] in
lemma Reaches.congr (closed : ∀ m ∈ live, ∀ n ∈ kids m, n ∈ live)
    (same : ∀ m ∈ live, kids' m = kids m) (h : Reaches kids m n) (hm : m ∈ live) :
    Reaches kids' m n := by
  induction h with
  | refl => exact .refl
  | tail path edge ih =>
    have hmem := Reaches.mem closed path hm
    refine ih.tail ?_
    rw [Points, same _ hmem]
    exact edge

omit [DecidableEq α] in
lemma Reaches.mono (sub : ∀ m, ∀ n ∈ kids m, n ∈ kids' m) (h : Reaches kids m n) :
    Reaches kids' m n := by
  induction h with
  | refl => exact .refl
  | tail _ edge ih => exact ih.tail (sub _ _ edge)

lemma references_erase (hp : p ∈ live) :
    references live kids own n =
      own.count n + ((kids p).count n + ∑ m ∈ live.erase p, (kids m).count n) := by
  rw [references, Finset.add_sum_erase live (fun m => (kids m).count n) hp]

lemma references_cons :
    references live kids (m ::ₘ own) n = references live kids own n + if n = m then 1 else 0 := by
  rw [references, references, Multiset.count_cons]
  omega

namespace Counted

lemma congr (h : Counted live kids count own) (hkids : ∀ m ∈ live, kids' m = kids m)
    (hcount : ∀ m ∈ live, count' m = count m) : Counted live kids' count' own := by
  have hrefs : ∀ n, references live kids' own n = references live kids own n := by
    intro n
    rw [references, references, Finset.sum_congr rfl fun m hm => by rw [hkids m hm]]
  refine ⟨?_, ?_, ?_, h.owned⟩
  · intro n hn
    rw [hcount n hn, hrefs n]
    exact h.balanced n hn
  · intro n hn
    rw [hcount n hn]
    exact h.positive n hn
  · intro m hm n hn
    rw [hkids m hm] at hn
    exact h.closed m hm n hn

lemma retain (h : Counted live kids count own) (hn : n ∈ live) :
    Counted live kids (Function.update count n (count n + 1)) (n ::ₘ own) := by
  refine ⟨?_, ?_, h.closed, ?_⟩
  · intro m hm
    rw [references_cons]
    have balanced := h.balanced m hm
    by_cases e : m = n
    · subst e
      simp [balanced]
    · simp [e, balanced]
  · intro m hm
    have positive := h.positive m hm
    by_cases e : m = n
    · subst e
      rw [Function.update_self]
      omega
    · rw [Function.update_of_ne e]
      exact positive
  · intro m hm
    rcases Multiset.mem_cons.mp hm with rfl | hm
    · exact hn
    · exact h.owned m hm

lemma drop (h : Counted live kids count (n ::ₘ own)) (hlast : count n ≠ 1) :
    Counted live kids (Function.update count n (count n - 1)) own := by
  have hn : n ∈ live := h.owned n (Multiset.mem_cons_self n own)
  refine ⟨?_, ?_, h.closed, fun m hm => h.owned m (Multiset.mem_cons_of_mem hm)⟩
  · intro m hm
    have balanced := h.balanced m hm
    rw [references_cons] at balanced
    by_cases e : m = n
    · subst e
      simp only [if_true] at balanced
      rw [Function.update_self]
      omega
    · simp only [e, if_false] at balanced
      rw [Function.update_of_ne e]
      omega
  · intro m hm
    have positive := h.positive m hm
    by_cases e : m = n
    · subst e
      rw [Function.update_self]
      omega
    · rw [Function.update_of_ne e]
      exact positive

lemma not_pointed (h : Counted live kids count (n ::ₘ own)) (hlast : count n = 1) :
    n ∉ own ∧ ∀ m ∈ live, n ∉ kids m := by
  have hn : n ∈ live := h.owned n (Multiset.mem_cons_self n own)
  have balanced := h.balanced n hn
  rw [references_cons, hlast, if_pos rfl, references] at balanced
  have hown : own.count n = 0 := by omega
  have hsum : ∑ m ∈ live, (kids m).count n = 0 := by omega
  refine ⟨Multiset.count_eq_zero.mp hown, fun m hm => ?_⟩
  exact Multiset.count_eq_zero.mp (Finset.sum_eq_zero_iff.mp hsum m hm)

lemma free (h : Counted live kids count (n ::ₘ own)) (hlast : count n = 1) :
    Counted (live.erase n) kids count (kids n + own) := by
  have hn : n ∈ live := h.owned n (Multiset.mem_cons_self n own)
  obtain ⟨hown, hkids⟩ := h.not_pointed hlast
  refine ⟨?_, fun m hm => h.positive m (Finset.mem_of_mem_erase hm), ?_, ?_⟩
  · intro m hm
    have balanced := h.balanced m (Finset.mem_of_mem_erase hm)
    rw [references_cons, if_neg (Finset.ne_of_mem_erase hm), references_erase hn] at balanced
    rw [references, Multiset.count_add]
    omega
  · intro m hm k hk
    have hm' : m ∈ live := Finset.mem_of_mem_erase hm
    refine Finset.mem_erase.mpr ⟨fun e => ?_, h.closed m hm' k hk⟩
    exact hkids m hm' (e ▸ hk)
  · intro m hm
    rcases Multiset.mem_add.mp hm with hm' | hm'
    · refine Finset.mem_erase.mpr ⟨fun e => ?_, h.closed n hn m hm'⟩
      exact hkids n hn (e ▸ hm')
    · refine Finset.mem_erase.mpr ⟨fun e => ?_, h.owned m (Multiset.mem_cons_of_mem hm')⟩
      exact hown (e ▸ hm')

lemma single (hkids : kids n = 0) (hcount : count n = 1) : Counted {n} kids count {n} := by
  refine ⟨?_, ?_, ?_, fun m hm => Finset.mem_singleton.mpr (Multiset.mem_singleton.mp hm)⟩
  · intro m hm
    cases Finset.mem_singleton.mp hm
    simp [references, hkids, hcount]
  · intro m hm
    cases Finset.mem_singleton.mp hm
    rw [hcount]
    exact Int.one_pos
  · intro m hm k hk
    cases Finset.mem_singleton.mp hm
    rw [hkids] at hk
    exact absurd hk (Multiset.notMem_zero k)

lemma sum_eq_zero (h : Counted live kids count own) (hn : n ∉ live) :
    ∑ m ∈ live, (kids m).count n = 0 := by
  refine Finset.sum_eq_zero fun m hm => Multiset.count_eq_zero.mpr fun hk => ?_
  exact hn (h.closed m hm n hk)

lemma union (h : Counted live kids count own) (h' : Counted live' kids count own')
    (disjoint : Disjoint live live') : Counted (live ∪ live') kids count (own + own') := by
  refine ⟨?_, ?_, ?_, ?_⟩
  · intro n hn
    rw [references, Multiset.count_add, Finset.sum_union disjoint]
    rcases Finset.mem_union.mp hn with hn | hn
    · have hnot : n ∉ live' := Finset.disjoint_left.mp disjoint hn
      have hown : own'.count n = 0 := Multiset.count_eq_zero.mpr fun hm => hnot (h'.owned n hm)
      rw [h'.sum_eq_zero hnot, hown, h.balanced n hn, references]
      simp
    · have hnot : n ∉ live := Finset.disjoint_right.mp disjoint hn
      have hown : own.count n = 0 := Multiset.count_eq_zero.mpr fun hm => hnot (h.owned n hm)
      rw [h.sum_eq_zero hnot, hown, h'.balanced n hn, references]
      simp
  · intro n hn
    rcases Finset.mem_union.mp hn with hn | hn
    · exact h.positive n hn
    · exact h'.positive n hn
  · intro m hm n hk
    rcases Finset.mem_union.mp hm with hm | hm
    · exact Finset.mem_union_left _ (h.closed m hm n hk)
    · exact Finset.mem_union_right _ (h'.closed m hm n hk)
  · intro n hn
    rcases Multiset.mem_add.mp hn with hn | hn
    · exact Finset.mem_union_left _ (h.owned n hn)
    · exact Finset.mem_union_right _ (h'.owned n hn)

lemma relink (h : Counted live kids count own) (hp : p ∈ live) (e : own + kids p = own' + ks) :
    Counted live (Function.update kids p ks) count own' := by
  have hmem : ∀ n, n ∈ own' + ks → n ∈ live := by
    intro n hn
    rw [← e] at hn
    rcases Multiset.mem_add.mp hn with hn | hn
    · exact h.owned n hn
    · exact h.closed p hp n hn
  refine ⟨?_, h.positive, ?_, fun n hn => hmem n (Multiset.mem_add.mpr (.inl hn))⟩
  · intro n hn
    have others : ∑ m ∈ live.erase p, (Function.update kids p ks m).count n =
        ∑ m ∈ live.erase p, (kids m).count n := by
      refine Finset.sum_congr rfl fun m hm => ?_
      rw [Function.update_of_ne (Finset.ne_of_mem_erase hm)]
    have total := congrArg (Multiset.count n) e
    rw [Multiset.count_add, Multiset.count_add] at total
    rw [h.balanced n hn, references_erase hp, references_erase hp, others, Function.update_self]
    omega
  · intro m hm n hk
    by_cases e' : m = p
    · subst e'
      rw [Function.update_self] at hk
      exact hmem n (Multiset.mem_add.mpr (.inr hk))
    · rw [Function.update_of_ne e'] at hk
      exact h.closed m hm n hk

lemma held_or_pointed (h : Counted live kids count own) (hn : n ∈ live) :
    n ∈ own ∨ ∃ m ∈ live, n ∈ kids m := by
  by_contra hnot
  obtain ⟨hown, hkids⟩ := not_or.mp hnot
  have hsum : ∑ m ∈ live, (kids m).count n = 0 :=
    Finset.sum_eq_zero fun m hm => Multiset.count_eq_zero.mpr fun hk => hkids ⟨m, hm, hk⟩
  have balanced := h.balanced n hn
  rw [references, hsum, Multiset.count_eq_zero.mpr hown] at balanced
  have positive := h.positive n hn
  omega

/-- **Nothing is kept without an owner.** Where no node reaches itself, every node that is there is
reached from a node that an owner holds. -/
theorem held (h : Counted live kids count own) (acyclic : Acyclic live kids) (hn : n ∈ live) :
    ∃ r ∈ own, Reaches kids r n := by
  by_contra hnot
  -- each node that no owner reaches is pointed to by another one
  let lost : Set α := {m | m ∈ live ∧ ¬ ∃ r ∈ own, Reaches kids r m}
  have finite : lost.Finite := live.finite_toSet.subset fun m hm => hm.1
  have pointed : ∀ m ∈ lost, ∃ k ∈ lost, m ∈ live ∧ m ∈ kids k := by
    intro m hm
    rcases h.held_or_pointed hm.1 with hown | ⟨k, hk, hkids⟩
    · exact absurd ⟨m, hown, .refl⟩ hm.2
    · refine ⟨k, ⟨hk, ?_⟩, hm.1, hkids⟩
      rintro ⟨r, hr, path⟩
      exact hm.2 ⟨r, hr, path.tail hkids⟩
  obtain ⟨a, ha⟩ : Circular fun m k => m ∈ live ∧ m ∈ kids k :=
    circular_of_waits finite ⟨n, hn, hnot⟩ pointed
  have hlive : a ∈ live := by
    obtain ⟨_, first, _⟩ := Relation.TransGen.head'_iff.mp ha
    exact first.1
  have back : Relation.TransGen (Function.swap (Points kids)) a a :=
    ha.lift id fun _ _ hk => hk.2
  exact acyclic a hlive (Relation.transGen_swap.mp back)

/-- **A node is there exactly as long as an owner reaches it.** -/
theorem mem_iff_held (h : Counted live kids count own) (acyclic : Acyclic live kids) :
    n ∈ live ↔ ∃ r ∈ own, Reaches kids r n := by
  refine ⟨h.held acyclic, ?_⟩
  rintro ⟨r, hr, path⟩
  exact Reaches.mem h.closed path (h.owned r hr)

end Counted

namespace Acyclic

omit [DecidableEq α] in
lemma mono (h : Acyclic live kids) (sub : live' ⊆ live) : Acyclic live' kids :=
  fun n hn => h n (sub hn)

lemma union (h : Acyclic live kids) (h' : Acyclic live' kids) : Acyclic (live ∪ live') kids := by
  intro n hn
  rcases Finset.mem_union.mp hn with hn | hn
  · exact h n hn
  · exact h' n hn

omit [DecidableEq α] in
lemma single (hkids : kids n = 0) : Acyclic {n} kids := by
  intro m hm circle
  cases Finset.mem_singleton.mp hm
  obtain ⟨k, edge, _⟩ := Relation.TransGen.head'_iff.mp circle
  rw [Points, hkids] at edge
  exact Multiset.notMem_zero k edge

omit [DecidableEq α] in
lemma congr (h : Acyclic live kids) (closed : ∀ m ∈ live, ∀ n ∈ kids m, n ∈ live)
    (same : ∀ m ∈ live, kids' m = kids m) : Acyclic live kids' := by
  intro n hn circle
  have closed' : ∀ m ∈ live, ∀ n ∈ kids' m, n ∈ live := by
    intro m hm k hk
    rw [same m hm] at hk
    exact closed m hm k hk
  obtain ⟨k, edge, path⟩ := Relation.TransGen.head'_iff.mp circle
  have hk : k ∈ live := closed' n hn k edge
  have back : Reaches kids k n :=
    Reaches.congr closed' (fun m hm => (same m hm).symm) path hk
  rw [Points, same n hn] at edge
  exact h n hn (Relation.TransGen.head'_iff.mpr ⟨k, edge, back⟩)

lemma path_relink (hnew : ∀ c ∈ ks, c ∈ kids p ∨ ¬ Reaches kids c p)
    (h : Relation.TransGen (Points (Function.update kids p ks)) m n) :
    Relation.TransGen (Points kids) m n ∨
      Reaches kids m p ∧ ∃ c, ¬ Reaches kids c p ∧ Reaches kids c n := by
  have step : ∀ {a b}, Points (Function.update kids p ks) a b →
      Points kids a b ∨ a = p ∧ ¬ Reaches kids b p := by
    intro a b edge
    by_cases e : a = p
    · subst e
      rw [Points, Function.update_self] at edge
      exact (hnew b edge).imp id fun hnot => ⟨rfl, hnot⟩
    · rw [Points, Function.update_of_ne e] at edge
      exact .inl edge
  induction h with
  | single edge =>
    rcases step edge with old | ⟨rfl, hnot⟩
    · exact .inl (.single old)
    · exact .inr ⟨.refl, _, hnot, .refl⟩
  | tail path edge ih =>
    rcases step edge with old | ⟨rfl, hnot⟩
    · rcases ih with ih | ⟨hp, c, hc, ih⟩
      · exact .inl (ih.tail old)
      · exact .inr ⟨hp, c, hc, ih.tail old⟩
    · rcases ih with ih | ⟨_, c, hc, ih⟩
      · exact .inr ⟨ih.to_reflTransGen, _, hnot, .refl⟩
      · exact absurd ih hc

/-- New edges from a node to nodes that do not reach it make no circle. -/
theorem relink (h : Acyclic live kids) (hnew : ∀ c ∈ ks, c ∈ kids p ∨ ¬ Reaches kids c p) :
    Acyclic live (Function.update kids p ks) := by
  intro n hn circle
  rcases path_relink hnew circle with circle | ⟨hp, c, hc, path⟩
  · exact h n hn circle
  · exact hc (path.trans hp)

end Acyclic

end PulseEngine.Library
