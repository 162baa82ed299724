import PulseEngine.Config.Release

/-!
# References of config nodes

`Owns` says of the nodes from an address on that their counts are right and that they form no circle.
The steps of the config heap keep it: a node that is released with everything that goes with it, a
child that is attached to a node, and a child that takes the place of another. What a step allocates
can be looked at on its own (`Made`) and then be seen as one with what was there (`Owns.union`).
-/

namespace PulseEngine.Config

open Library

/-- The nodes from the address `base` on are those in `live`. -/
structure Placed (s : Store) (base : ℕ) (live : Finset ℕ) : Prop where
  alive : ∀ n, base ≤ n → ((∃ node, s.nodes n = some node) ↔ n ∈ live)
  above : ∀ n ∈ live, base ≤ n
  below : ∀ n ∈ live, n < s.next
  base_le : base ≤ s.next
  inRange : ∀ n ∈ live, s.count n < 2 ^ 31

/-- The counts of the nodes from the address `base` on are right for the edges among them and the
references `own`, and no node reaches itself. -/
structure Owns (s : Store) (base : ℕ) (live : Finset ℕ) (own : Multiset ℕ) : Prop
    extends Placed s base live where
  counted : Counted live s.kids s.count own
  acyclic : Acyclic live s.kids

structure Extends (s s' : Store) : Prop where
  next_le : s.next ≤ s'.next
  same : ∀ n < s.next, s'.nodes n = s.nodes n

variable {s s' s'' : Store} {base : ℕ} {live live' : Finset ℕ} {own own' gain rest : Multiset ℕ}
  {n m p c old : ℕ} {node : Node}

lemma Extends.refl (s : Store) : Extends s s := ⟨le_rfl, fun _ _ => rfl⟩

lemma Extends.trans (h : Extends s s') (h' : Extends s' s'') : Extends s s'' := by
  refine ⟨h.next_le.trans h'.next_le, fun n hn => ?_⟩
  rw [h'.same n (lt_of_lt_of_le hn h.next_le)]
  exact h.same n hn

lemma Extends.of_outside (h : Extends s s') (above : ∀ n ∈ live, s.next ≤ n)
    (hnext : s''.next = s'.next) (outside : ∀ n, n ∉ live → s''.nodes n = s'.nodes n) :
    Extends s s'' := by
  refine ⟨hnext ▸ h.next_le, fun n hn => ?_⟩
  rw [outside n fun hmem => absurd (above n hmem) (Nat.not_le_of_lt hn)]
  exact h.same n hn

namespace Placed

lemma released {kids : ℕ → Multiset ℕ} {roots : List ℕ} (h : Placed s base live)
    (released : Released kids s s' live live' roots) : Placed s' base live' := by
  refine ⟨?_, fun m hm => h.above m (released.sub hm), ?_, ?_, released.inRange h.inRange⟩
  · intro m hm
    by_cases hlive' : m ∈ live'
    · obtain ⟨node, count, _, hnode, _⟩ := released.kept m hlive'
      exact iff_of_true ⟨_, hnode⟩ hlive'
    · by_cases hlive : m ∈ live
      · rw [released.freed m hlive hlive']
        simp [hlive']
      · rw [released.outside m hlive, h.alive m hm]
        exact iff_of_false hlive hlive'
  · intro m hm
    rw [released.next]
    exact h.below m (released.sub hm)
  · rw [released.next]
    exact h.base_le

lemma write {kids : ℕ → Multiset ℕ} {node' : Node} (h : Placed s base live) (hn : n ∈ live)
    (hcount : node'.refCount = s.count n) (hkids : ∀ m ∈ live, m ≠ n → s.kids m = kids m)
    (counted : Counted live (Function.update kids n (node'.children : Multiset ℕ)) s.count own)
    (acyclic : Acyclic live (Function.update kids n (node'.children : Multiset ℕ))) :
    Owns (s.write n (some node')) base live own := by
  have hedges : ∀ m ∈ live, (s.write n (some node')).kids m =
      Function.update kids n (node'.children : Multiset ℕ) m := by
    intro m hm
    by_cases e : m = n
    · subst e
      rw [Store.kids_of_some (Store.write_self s m _), Function.update_self]
    · rw [Store.kids_congr (Store.write_of_ne e _), Function.update_of_ne e, hkids m hm e]
  have hcounts : ∀ m ∈ live, (s.write n (some node')).count m = s.count m := by
    intro m hm
    by_cases e : m = n
    · subst e
      rw [Store.count_of_some (Store.write_self s m _), hcount]
    · exact Store.count_congr (Store.write_of_ne e _)
  refine ⟨⟨?_, h.above, h.below, h.base_le, ?_⟩, counted.congr hedges hcounts,
    acyclic.congr counted.closed hedges⟩
  · intro m hm
    by_cases e : m = n
    · subst e
      rw [Store.write_self]
      exact iff_of_true ⟨_, rfl⟩ hn
    · rw [Store.write_of_ne e]
      exact h.alive m hm
  · intro m hm
    rw [hcounts m hm]
    exact h.inRange m hm

end Placed

namespace Owns

lemma exists_node (h : Owns s base live own) (hn : n ∈ live) : ∃ node, s.nodes n = some node :=
  (h.alive n (h.above n hn)).mpr hn

lemma setError (h : Owns s base live own) (message : String) :
    Owns (s.setError message) base live own :=
  ⟨⟨h.alive, h.above, h.below, h.base_le, h.inRange⟩, h.counted, h.acyclic⟩

lemma nil (h : ∀ n, s.next ≤ n → s.nodes n = none) : Owns s s.next ∅ 0 := by
  refine ⟨⟨fun n hn => ?_, ?_, ?_, le_rfl, ?_⟩, ⟨?_, ?_, ?_, ?_⟩, ?_⟩
  · simp [h n hn]
  all_goals simp [Acyclic]

lemma fresh (h : Owns s base live own) : ∀ n, s.next ≤ n → s.nodes n = none := by
  intro n hn
  cases e : s.nodes n with
  | none => rfl
  | some node =>
    have hmem : n ∈ live := (h.alive n (h.base_le.trans hn)).mp ⟨node, e⟩
    exact absurd (h.below n hmem) (Nat.not_lt_of_le hn)

lemma card_lt (h : Owns s base live own) : live.card < s.fuel := by
  have sub : live ⊆ Finset.range s.next := fun n hn => Finset.mem_range.mpr (h.below n hn)
  have hcard := Finset.card_le_card sub
  rw [Finset.card_range] at hcard
  exact Nat.lt_succ_of_le hcard

lemma not_reaches (h : Owns s base live own) (hp : p ∈ live) (hc : c ∈ s.kids p) :
    ¬ Reaches s.kids c p :=
  fun path => h.acyclic p hp (Relation.TransGen.head'_iff.mpr ⟨c, hc, path⟩)

/-- **Release.** A reference of an owner is given back. -/
theorem release (h : Owns s base live (n ::ₘ own)) :
    ∃ s' live', Store.releaseNode s.fuel s n = some s' ∧ Owns s' base live' own ∧
      live' ⊆ live ∧ s'.next = s.next ∧ ∀ m, m ∉ live → s'.nodes m = s.nodes m := by
  have held : Held s.kids s live own [n] := by
    refine ⟨?_, fun _ _ _ => rfl, h.inRange⟩
    rw [Multiset.coe_singleton, Multiset.singleton_add]
    exact h.counted
  obtain ⟨s', live', hs', released, counted⟩ := releaseNode_spec held h.card_lt
  have hkids : ∀ m ∈ live', s'.kids m = s.kids m := fun m hm => released.kids_eq hm
  exact ⟨s', live', hs', ⟨h.toPlaced.released released, counted.congr hkids fun _ _ => rfl,
    (h.acyclic.mono released.sub).congr counted.closed hkids⟩, released.sub, released.next,
    released.outside⟩

/-- **Attachment.** A reference of an owner becomes an edge of a node that it does not reach. -/
theorem attach {node' : Node} (h : Owns s base live (c ::ₘ own)) (hn : n ∈ live)
    (hnode : s.nodes n = some node) (hcount : node'.refCount = node.refCount)
    (hchildren : (node'.children : Multiset ℕ) = c ::ₘ (node.children : Multiset ℕ))
    (hnot : ¬ Reaches s.kids c n) : Owns (s.write n (some node')) base live own := by
  have hkids := Store.kids_of_some hnode
  refine h.toPlaced.write hn (hcount.trans (Store.count_of_some hnode).symm)
    (fun _ _ _ => rfl) (h.counted.relink hn ?_) (h.acyclic.relink fun x hx => ?_)
  · rw [hchildren, hkids, Multiset.cons_add, Multiset.add_cons]
  · rw [hchildren] at hx
    rcases Multiset.mem_cons.mp hx with rfl | hx
    · exact .inr hnot
    · exact .inl (hkids ▸ hx)

/-- **Replacement.** The reference of a node `p` to a child `old` is given back while the node still
lists it; then the node lists other children, whose references the owner has. -/
theorem replace (h : Owns s base live (gain + own)) (hp : p ∈ live)
    (hnode : s.nodes p = some node) (hold : (node.children : Multiset ℕ) = old ::ₘ rest)
    (hgain : ∀ x ∈ gain, ¬ Reaches s.kids x p) :
    ∃ s' live' count, Store.releaseNode s.fuel s old = some s' ∧ live' ⊆ live ∧
      s'.next = s.next ∧ (∀ m, m ∉ live → s'.nodes m = s.nodes m) ∧
      s'.nodes p = some { node with refCount := count } ∧
      ∀ node' : Node, node'.refCount = count → (node'.children : Multiset ℕ) = gain + rest →
        Owns (s'.write p (some node')) base live' own := by
  have hkids : s.kids p = old ::ₘ rest := (Store.kids_of_some hnode).trans hold
  -- while the old child is released, its edge counts as a reference of the owner
  let kids := Function.update s.kids p rest
  have hself : kids p = rest := Function.update_self _ _ _
  have hother : ∀ x, x ≠ p → kids x = s.kids x := fun x e => Function.update_of_ne e _ _
  have fewer : ∀ x, ∀ y ∈ kids x, y ∈ s.kids x := by
    intro x y hy
    by_cases e : x = p
    · subst e
      rw [hself] at hy
      rw [hkids]
      exact Multiset.mem_cons_of_mem hy
    · rwa [hother x e] at hy
  have hback : ¬ Reaches kids old p := fun path =>
    h.not_reaches hp (hkids ▸ Multiset.mem_cons_self old rest) (Reaches.mono fewer path)
  have acyclic : Acyclic live kids := h.acyclic.relink fun x hx =>
    .inl (hkids ▸ Multiset.mem_cons_of_mem hx)
  have held : Held kids s live (gain + own) [old] := by
    refine ⟨?_, ?_, h.inRange⟩
    · rw [Multiset.coe_singleton, Multiset.singleton_add]
      exact h.counted.relink hp (by rw [hkids, Multiset.add_cons, Multiset.cons_add])
    · rintro m hm ⟨r, hr, path⟩
      cases List.mem_singleton.mp hr
      -- the node itself is not reached by its old child
      have e : m ≠ p := fun e => hback (e ▸ path)
      exact (hother m e).symm
  obtain ⟨s', live', hs', released, counted⟩ := releaseNode_spec held h.card_lt
  have hp' : p ∈ live' := by
    by_contra hnot
    obtain ⟨r, hr, path⟩ := released.reached p hp hnot
    cases List.mem_singleton.mp hr
    exact hback path
  obtain ⟨_, count, hnode₀, hnode', _⟩ := released.kept p hp'
  rw [hnode] at hnode₀
  cases hnode₀
  refine ⟨s', live', count, hs', released.sub, released.next, released.outside, hnode', ?_⟩
  intro node' hcount hchildren
  refine (h.toPlaced.released released).write hp' (hcount.trans (Store.count_of_some hnode').symm)
    (fun m hm e => (released.kids_eq hm).trans (hother m e).symm) (counted.relink hp' ?_)
    ((acyclic.mono released.sub).relink fun x hx => ?_)
  · rw [hself, hchildren, ← Multiset.add_assoc, Multiset.add_comm gain own]
  · rw [hchildren] at hx
    rcases Multiset.mem_add.mp hx with hx | hx
    · exact .inr fun path => hgain x hx (Reaches.mono fewer path)
    · exact .inl (by rwa [hself])

lemma not_reaches_of_lt (h : Owns s base live own) (hc : c ∈ live) (hlt : n < base) :
    ¬ Reaches s.kids c n := by
  intro path
  have hmem : n ∈ live := Reaches.mem h.counted.closed path hc
  exact absurd (h.above n hmem) (Nat.not_le_of_lt hlt)

/-- **Two parts of the heap.** A region and what was allocated behind it, seen as one. -/
theorem union (h : Owns s base live own) (ext : Extends s s') (h' : Owns s' s.next live' own') :
    Owns s' base (live ∪ live') (own + own') := by
  have same : ∀ m ∈ live, s'.nodes m = s.nodes m := fun m hm => ext.same m (h.below m hm)
  have hkids : ∀ m ∈ live, s'.kids m = s.kids m := fun m hm => Store.kids_congr (same m hm)
  have counted : Counted live s'.kids s'.count own :=
    h.counted.congr hkids fun m hm => Store.count_congr (same m hm)
  have disjoint : Disjoint live live' := Finset.disjoint_left.mpr fun m hm hm' =>
    absurd (h'.above m hm') (Nat.not_le_of_lt (h.below m hm))
  refine ⟨⟨?_, ?_, ?_, h.base_le.trans ext.next_le, ?_⟩, counted.union h'.counted disjoint,
    (h.acyclic.congr h.counted.closed hkids).union h'.acyclic⟩
  · intro n hn
    rw [Finset.mem_union]
    by_cases hlt : n < s.next
    · rw [ext.same n hlt, h.alive n hn]
      exact (or_iff_left fun hm => absurd (h'.above n hm) (Nat.not_le_of_lt hlt)).symm
    · rw [h'.alive n (Nat.le_of_not_lt hlt)]
      exact (or_iff_right fun hm => hlt (h.below n hm)).symm
  · intro n hn
    rcases Finset.mem_union.mp hn with hn | hn
    · exact h.above n hn
    · exact h.base_le.trans (h'.above n hn)
  · intro n hn
    rcases Finset.mem_union.mp hn with hn | hn
    · exact lt_of_lt_of_le (h.below n hn) ext.next_le
    · exact h'.below n hn
  · intro n hn
    rcases Finset.mem_union.mp hn with hn | hn
    · rw [Store.count_congr (same n hn)]
      exact h.inRange n hn
    · exact h'.inRange n hn

/-- **Reference.** An owner takes another reference to a node that has room for it. -/
theorem retain (h : Owns s base live own) (hn : n ∈ live) (hroom : s.count n < 2 ^ 31 - 1) :
    ∃ s', s.retainNode n = some s' ∧ Owns s' base live (n ::ₘ own) ∧ s'.next = s.next ∧
      (∀ m, m ≠ n → s'.nodes m = s.nodes m) ∧ s'.kids = s.kids := by
  obtain ⟨node, hnode⟩ := h.exists_node hn
  have hcount := Store.count_of_some hnode
  have positive := h.counted.positive n hn
  have hwrap : Store.wrap (node.refCount + 1) = node.refCount + 1 :=
    Store.wrap_of_lt (by omega) (by omega)
  let s' := s.write n (some { node with refCount := node.refCount + 1 })
  have hkids : s'.kids = s.kids := by
    funext m
    by_cases e : m = n
    · subst e
      rw [Store.kids_of_some (Store.write_self s m _), Store.kids_of_some hnode]
      rfl
    · exact Store.kids_congr (Store.write_of_ne e _)
  have hcounts : s'.count = Function.update s.count n (s.count n + 1) := by
    funext m
    by_cases e : m = n
    · subst e
      rw [Store.count_of_some (Store.write_self s m _), Function.update_self, hcount]
    · rw [Function.update_of_ne e]
      exact Store.count_congr (Store.write_of_ne e _)
  refine ⟨s', ?_, ⟨⟨?_, h.above, h.below, h.base_le, ?_⟩, ?_, ?_⟩, rfl,
    fun m e => Store.write_of_ne e _, hkids⟩
  · rw [Store.retainNode, hnode, Option.bind_eq_bind, Option.bind_some, hwrap]
    rfl
  · intro m hm
    by_cases e : m = n
    · subst e
      exact iff_of_true ⟨_, Store.write_self s m _⟩ hn
    · rw [show s'.nodes m = s.nodes m from Store.write_of_ne e _]
      exact h.alive m hm
  · intro m hm
    rw [hcounts]
    by_cases e : m = n
    · subst e
      rw [Function.update_self]
      omega
    · rw [Function.update_of_ne e]
      exact h.inRange m hm
  · rw [hkids, hcounts]
    exact h.counted.retain hn
  · rw [hkids]
    exact h.acyclic

end Owns

def given : Option ℕ → Multiset ℕ
  | none => 0
  | some n => {n}

def Fresh (s : Store) : Prop := ∀ n, s.next ≤ n → s.nodes n = none

def Made (s s' : Store) (result : Option ℕ) : Prop :=
  Extends s s' ∧ ∃ live, Owns s' s.next live (given result)

end PulseEngine.Config
