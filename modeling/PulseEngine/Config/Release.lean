import PulseEngine.Config.Heap

/-!
# Release of config nodes

`release_node` frees a node with its last reference and releases its children. While it runs, the
counts are right for edges of which those that are in the middle of a change are left out: `Held`
says so, and `Released` says what was done to the heap.
-/

namespace PulseEngine.Config

open Library

namespace Store

abbrev kids (s : Store) : ℕ → Multiset ℕ := edges s.childrenOf

def count (s : Store) (n : ℕ) : ℤ := ((s.nodes n).map Node.refCount).getD 0

variable {s s' : Store} {n m : ℕ} {node : Node}

lemma kids_of_some (h : s.nodes n = some node) : s.kids n = (node.children : Multiset ℕ) := by
  rw [kids, edges, childrenOf, h]
  rfl

lemma count_of_some (h : s.nodes n = some node) : s.count n = node.refCount := by
  rw [count, h]
  rfl

lemma exists_of_count (h : 0 < s.count n) : ∃ node, s.nodes n = some node := by
  cases e : s.nodes n with
  | none =>
    rw [count, e] at h
    exact absurd h (lt_irrefl 0)
  | some node => exact ⟨node, rfl⟩

lemma kids_congr (h : s'.nodes n = s.nodes n) : s'.kids n = s.kids n := by
  rw [kids, edges, childrenOf, h]
  rfl

lemma count_congr (h : s'.nodes n = s.nodes n) : s'.count n = s.count n := by
  rw [count, h]
  rfl

@[simp]
lemma write_self (s : Store) (n : ℕ) (x : Option Node) : (s.write n x).nodes n = x :=
  Function.update_self _ _ _

lemma write_of_ne (h : m ≠ n) (x : Option Node) : (s.write n x).nodes m = s.nodes m :=
  Function.update_of_ne h _ _

lemma write_outside {live : Finset ℕ} (hn : n ∈ live) (x : Option Node) :
    ∀ m, m ∉ live → (s.write n x).nodes m = s.nodes m := by
  intro m hm
  have e : m ≠ n := fun e => hm (e ▸ hn)
  exact write_of_ne e x

@[simp]
lemma write_next (s : Store) (n : ℕ) (x : Option Node) : (s.write n x).next = s.next := rfl

lemma releaseNode_last {fuel : ℕ} (h : s.nodes n = some node)
    (hlast : wrap (node.refCount - 1) = 0) :
    releaseNode (fuel + 1) s n =
      (node.children.foldlM (releaseNode fuel) (s.write n (some { node with refCount := 0 }))).map
        fun s => s.write n none := by
  rw [releaseNode, h, Option.bind_eq_bind, Option.bind_some]
  simp only [hlast, if_true]
  exact Option.map_eq_bind.symm

lemma releaseNode_more {fuel : ℕ} {c : ℤ} (h : s.nodes n = some node)
    (hcount : wrap (node.refCount - 1) = c) (hc : c ≠ 0) :
    releaseNode (fuel + 1) s n = some (s.write n (some { node with refCount := c })) := by
  rw [releaseNode, h, Option.bind_eq_bind, Option.bind_some]
  simp only [hcount, if_neg hc]
  rfl

lemma wrap_of_lt {c : ℤ} (low : 0 ≤ c) (high : c < 2 ^ 31) : wrap c = c := by
  rw [wrap, Int.bmod_def, Int.emod_eq_of_lt low (by omega)]
  exact if_pos (by omega)

end Store

/-- The references `roots` are given back: the edges are right as far as these references reach. -/
structure Held (kids : ℕ → Multiset ℕ) (s : Store) (live : Finset ℕ) (own : Multiset ℕ)
    (roots : List ℕ) : Prop where
  counted : Counted live kids s.count (roots + own)
  agree : ∀ m ∈ live, (∃ r ∈ roots, Reaches kids r m) → s.kids m = kids m
  inRange : ∀ m ∈ live, s.count m < 2 ^ 31

/-- What giving back the references `roots` did to the nodes: some that the roots reach are freed,
the others keep all but their counts. -/
structure Released (kids : ℕ → Multiset ℕ) (s s' : Store) (live live' : Finset ℕ)
    (roots : List ℕ) : Prop where
  sub : live' ⊆ live
  reached : ∀ m ∈ live, m ∉ live' → ∃ r ∈ roots, Reaches kids r m
  freed : ∀ m ∈ live, m ∉ live' → s'.nodes m = none
  kept : ∀ m ∈ live', ∃ node c, s.nodes m = some node ∧
    s'.nodes m = some { node with refCount := c } ∧ c ≤ node.refCount
  outside : ∀ m, m ∉ live → s'.nodes m = s.nodes m
  next : s'.next = s.next

section Release

variable {kids : ℕ → Multiset ℕ} {s s' s'' : Store} {live live' live'' : Finset ℕ}
  {own : Multiset ℕ} {roots : List ℕ} {n m : ℕ}

lemma Released.kids_eq (h : Released kids s s' live live' roots) (hm : m ∈ live') :
    s'.kids m = s.kids m := by
  obtain ⟨node, c, hnode, hnode', _⟩ := h.kept m hm
  rw [Store.kids_of_some hnode, Store.kids_of_some hnode']
  rfl

lemma Released.count_le (h : Released kids s s' live live' roots) (hm : m ∈ live') :
    s'.count m ≤ s.count m := by
  obtain ⟨node, c, hnode, hnode', hle⟩ := h.kept m hm
  rw [Store.count_of_some hnode, Store.count_of_some hnode']
  exact hle

lemma Released.inRange (h : Released kids s s' live live' roots)
    (inRange : ∀ m ∈ live, s.count m < 2 ^ 31) : ∀ m ∈ live', s'.count m < 2 ^ 31 :=
  fun m hm => lt_of_le_of_lt (h.count_le hm) (inRange m (h.sub hm))

lemma Released.nil (present : ∀ m ∈ live, ∃ node, s.nodes m = some node) :
    Released kids s s live live [] := by
  refine ⟨fun _ hm => hm, fun m hm hnot => absurd hm hnot, fun m hm hnot => absurd hm hnot, ?_,
    fun _ _ => rfl, rfl⟩
  intro m hm
  obtain ⟨node, hnode⟩ := present m hm
  exact ⟨node, node.refCount, hnode, hnode, le_rfl⟩

lemma Released.cons (h : Released kids s s' live live' [n])
    (h' : Released kids s' s'' live' live'' roots) :
    Released kids s s'' live live'' (n :: roots) := by
  refine ⟨h'.sub.trans h.sub, ?_, ?_, ?_, ?_, h'.next.trans h.next⟩
  · intro m hm hnot
    by_cases hm' : m ∈ live'
    · obtain ⟨r, hr, path⟩ := h'.reached m hm' hnot
      exact ⟨r, List.mem_cons_of_mem n hr, path⟩
    · obtain ⟨r, hr, path⟩ := h.reached m hm hm'
      cases List.mem_singleton.mp hr
      exact ⟨n, List.mem_cons_self, path⟩
  · intro m hm hnot
    by_cases hm' : m ∈ live'
    · exact h'.freed m hm' hnot
    · rw [h'.outside m hm']
      exact h.freed m hm hm'
  · intro m hm
    obtain ⟨node', c', hnode', hnode'', hle'⟩ := h'.kept m hm
    obtain ⟨node, c, hnode, hsame, hle⟩ := h.kept m (h'.sub hm)
    rw [hsame] at hnode'
    cases hnode'
    exact ⟨node, c', hnode, hnode'', le_trans hle' hle⟩
  · intro m hm
    rw [h'.outside m fun hm' => hm (h.sub hm')]
    exact h.outside m hm

lemma Held.present (h : Held kids s live own roots) :
    ∀ m ∈ live, ∃ node, s.nodes m = some node :=
  fun m hm => Store.exists_of_count (h.counted.positive m hm)

lemma Held.rest (h : Held kids s live own (n :: roots))
    (released : Released kids s s' live live' [n])
    (counted : Counted live' kids s'.count (roots + own)) : Held kids s' live' own roots := by
  refine ⟨counted, ?_, released.inRange h.inRange⟩
  rintro m hm ⟨r, hr, path⟩
  rw [released.kids_eq hm]
  exact h.agree m (released.sub hm) ⟨r, List.mem_cons_of_mem n hr, path⟩

lemma releaseAll_spec {release : Store → ℕ → Option Store} {bound : ℕ}
    (spec : ∀ {s live own n}, Held kids s live own [n] → live.card < bound →
      ∃ s' live', release s n = some s' ∧ Released kids s s' live live' [n] ∧
        Counted live' kids s'.count own) :
    ∀ {roots s live}, Held kids s live own roots → live.card < bound →
      ∃ s' live', roots.foldlM release s = some s' ∧ Released kids s s' live live' roots ∧
        Counted live' kids s'.count own := by
  intro roots
  induction roots with
  | nil =>
    intro s live held _
    refine ⟨s, live, rfl, .nil held.present, ?_⟩
    have counted := held.counted
    rwa [Multiset.coe_nil, zero_add] at counted
  | cons n roots ih =>
    intro s live held hcard
    have first : Held kids s live (roots + own) [n] := by
      refine ⟨?_, ?_, held.inRange⟩
      · have counted := held.counted
        rwa [← Multiset.cons_coe, Multiset.cons_add] at counted
      · rintro m hm ⟨r, hr, path⟩
        cases List.mem_singleton.mp hr
        exact held.agree m hm ⟨n, List.mem_cons_self, path⟩
    obtain ⟨s₁, live₁, h₁, released₁, counted₁⟩ := spec first hcard
    obtain ⟨s₂, live₂, h₂, released₂, counted₂⟩ := ih (held.rest released₁ counted₁)
      (lt_of_le_of_lt (Finset.card_le_card released₁.sub) hcard)
    refine ⟨s₂, live₂, ?_, released₁.cons released₂, counted₂⟩
    rw [List.foldlM_cons, h₁]
    exact h₂

lemma Released.free {node : Node} {cs : List ℕ} (hn : n ∈ live)
    (hkids : kids n = (cs : Multiset ℕ))
    (h : Released kids (s.write n (some node)) s' (live.erase n) live' cs) :
    Released kids s (s'.write n none) live live' [n] := by
  have hne : ∀ {m}, m ∈ live' → m ≠ n := fun hm => Finset.ne_of_mem_erase (h.sub hm)
  refine ⟨h.sub.trans (Finset.erase_subset n live), ?_, ?_, ?_, ?_, h.next⟩
  · intro m hm hnot
    refine ⟨n, List.mem_singleton_self n, ?_⟩
    by_cases e : m = n
    · rw [e]
    · obtain ⟨r, hr, path⟩ := h.reached m (Finset.mem_erase.mpr ⟨e, hm⟩) hnot
      refine .head ?_ path
      rw [Points, hkids]
      exact hr
  · intro m hm hnot
    by_cases e : m = n
    · rw [e, Store.write_self]
    · rw [Store.write_of_ne e]
      exact h.freed m (Finset.mem_erase.mpr ⟨e, hm⟩) hnot
  · intro m hm
    obtain ⟨other, c, hother, hkept, hle⟩ := h.kept m hm
    rw [Store.write_of_ne (hne hm)] at hother
    exact ⟨other, c, hother, (Store.write_of_ne (hne hm) none).trans hkept, hle⟩
  · intro m hm
    have e : m ≠ n := fun e => hm (e ▸ hn)
    rw [Store.write_of_ne e, h.outside m fun hm' => hm (Finset.mem_of_mem_erase hm'),
      Store.write_of_ne e]

lemma Released.drop {node : Node} {c : ℤ} (present : ∀ m ∈ live, ∃ node, s.nodes m = some node)
    (hnode : s.nodes n = some node) (hle : c ≤ node.refCount) (hn : n ∈ live) :
    Released kids s (s.write n (some { node with refCount := c })) live live [n] := by
  refine ⟨fun _ hm => hm, fun m hm hnot => absurd hm hnot, fun m hm hnot => absurd hm hnot, ?_, ?_,
    rfl⟩
  · intro m hm
    by_cases e : m = n
    · subst e
      exact ⟨node, c, hnode, Store.write_self s m _, hle⟩
    · obtain ⟨other, hother⟩ := present m hm
      refine ⟨other, other.refCount, hother, ?_, le_rfl⟩
      rw [Store.write_of_ne e, hother]
  · exact Store.write_outside hn _

/-- **Giving back a reference.** With the counts right, `release_node` ends without reading a freed
node, frees only what the reference reaches, and leaves the counts right. -/
theorem releaseNode_spec : ∀ {fuel : ℕ} {s : Store} {live : Finset ℕ} {own : Multiset ℕ} {n : ℕ},
    Held kids s live own [n] → live.card < fuel →
      ∃ s' live', Store.releaseNode fuel s n = some s' ∧ Released kids s s' live live' [n] ∧
        Counted live' kids s'.count own := by
  intro fuel
  induction fuel with
  | zero => exact fun _ hcard => absurd hcard (Nat.not_lt_zero _)
  | succ fuel ih =>
    intro s live own n held hcard
    have counted : Counted live kids s.count (n ::ₘ own) := by
      have counted := held.counted
      rwa [Multiset.coe_singleton, Multiset.singleton_add] at counted
    have hn : n ∈ live := counted.owned n (Multiset.mem_cons_self n own)
    obtain ⟨node, hnode⟩ := held.present n hn
    have hcount := Store.count_of_some hnode
    have positive := counted.positive n hn
    have inRange := held.inRange n hn
    rw [hcount] at positive inRange
    have hwrap : Store.wrap (node.refCount - 1) = node.refCount - 1 :=
      Store.wrap_of_lt (by omega) (by omega)
    by_cases hlast : node.refCount = 1
    · have hkids : kids n = (node.children : Multiset ℕ) := by
        rw [← held.agree n hn ⟨n, List.mem_singleton_self n, .refl⟩, Store.kids_of_some hnode]
      let s₁ := s.write n (some { node with refCount := 0 })
      have same : ∀ m ∈ live.erase n, s₁.nodes m = s.nodes m :=
        fun m hm => Store.write_of_ne (Finset.ne_of_mem_erase hm) _
      have children : Held kids s₁ (live.erase n) own node.children := by
        refine ⟨?_, ?_, ?_⟩
        · rw [← hkids]
          exact (counted.free (hcount.trans hlast)).congr (fun _ _ => rfl)
            fun m hm => Store.count_congr (same m hm)
        · rintro m hm ⟨r, hr, path⟩
          rw [Store.kids_congr (same m hm)]
          refine held.agree m (Finset.mem_of_mem_erase hm) ⟨n, List.mem_singleton_self n, ?_⟩
          refine .head ?_ path
          rw [Points, hkids]
          exact hr
        · intro m hm
          rw [Store.count_congr (same m hm)]
          exact held.inRange m (Finset.mem_of_mem_erase hm)
      have hcard' : (live.erase n).card < fuel := by
        rw [Finset.card_erase_of_mem hn]
        have := Finset.card_pos.mpr ⟨n, hn⟩
        omega
      obtain ⟨s₂, live', hs₂, released, counted'⟩ := releaseAll_spec ih children hcard'
      refine ⟨s₂.write n none, live', ?_, .free hn hkids released, ?_⟩
      · have hzero : Store.wrap (node.refCount - 1) = 0 := by rw [hwrap, hlast, sub_self]
        rw [Store.releaseNode_last hnode hzero, hs₂]
        rfl
      · refine counted'.congr (fun _ _ => rfl) fun m hm => Store.count_congr ?_
        exact Store.write_of_ne (Finset.ne_of_mem_erase (released.sub hm)) _
    · have hne : node.refCount - 1 ≠ 0 := by omega
      refine ⟨s.write n (some { node with refCount := node.refCount - 1 }), live, ?_,
        .drop held.present hnode (by omega) hn, ?_⟩
      · exact Store.releaseNode_more hnode hwrap hne
      · refine (counted.drop (by rw [hcount]; exact hlast)).congr (fun _ _ => rfl) fun m hm => ?_
        by_cases e : m = n
        · subst e
          rw [Function.update_self, hcount, Store.count_of_some (Store.write_self s m _)]
        · rw [Function.update_of_ne e, Store.count_congr (Store.write_of_ne e _)]

end Release

end PulseEngine.Config
