import PulseEngine.Library.Cull
import PulseEngine.RenderGraph.Valid

/-!
# Culling a render graph

The first part of `Compiler::Compile`. A pass is the node of its index, a resource is the node of its
index after the passes; the edges go from a resource to a pass that reads it and from a pass to a
resource it writes. What is culled is the least set that the library's worklist computes, in
whatever order the worklist is processed.
-/

namespace PulseEngine.RenderGraph

open Library

namespace Graph

def readNodes (g : Graph) (pass : PassNode) : List Nat :=
  pass.reads.filterMap fun e => g.edges[e]?.map fun edge => edge.fromIndex + g.passes.length

def writeNodes (g : Graph) (pass : PassNode) : List Nat :=
  pass.writes.filterMap fun e => g.edges[e]?.map fun edge => edge.toIndex + g.passes.length

/-- The passes, once for each time they list the node `i`, in order. -/
def listing (lists : List (List Nat)) (i : Nat) : List Nat :=
  lists.zipIdx.flatMap fun (list, p) => (list.filter (· = i)).map fun _ => p

def nodeIns (g : Graph) (i : Nat) : List Nat :=
  match g.passes[i]? with
  | some pass => g.readNodes pass
  | none => listing (g.passes.map g.writeNodes) i

def nodeOuts (g : Graph) (i : Nat) : List Nat :=
  match g.passes[i]? with
  | some pass => g.writeNodes pass
  | none => listing (g.passes.map g.readNodes) i

def isPersistent (g : Graph) (i : Nat) : Bool :=
  match g.passes[i]? with
  | some pass => pass.type = .present ∨ pass.type = .holdOn
  | none =>
    match g.resources[i - g.passes.length]? with
    | some resource => resource.manageType ≠ .managed
    | none => false

def nodes (g : Graph) : Multigraph Nat where
  nodes := List.range (g.passes.length + g.resources.length)
  ins := g.nodeIns
  outs := g.nodeOuts
  persistent := g.isPersistent

/-- The culling loop of `Compiler::Compile`, which turns once for a node at most. -/
def cull (g : Graph) : Option (CullState Nat) :=
  g.nodes.drain (g.passes.length + g.resources.length) g.nodes.start

def isCulled (g : Graph) (s : CullState Nat) (i : Nat) : Bool :=
  s.refCount i = 0 && !g.isPersistent i

variable {g : Graph} {declarations : List Declaration}

lemma count_listing (lists : List (List Nat)) (i p : Nat) :
    (listing lists i).count p = (lists[p]?.getD []).count i := by
  have offset : ∀ (lists : List (List Nat)) (n : Nat),
      ((lists.zipIdx n).flatMap fun (list, p) => (list.filter (· = i)).map fun _ => p).count p =
        if n ≤ p then (lists[p - n]?.getD []).count i else 0 := by
    intro lists
    induction lists with
    | nil => intro n; simp
    | cons list lists ih =>
      intro n
      rw [List.zipIdx_cons, List.flatMap_cons, List.count_append, ih]
      have here : ((list.filter (· = i)).map fun _ => n).count p =
          if n = p then list.count i else 0 := by
        rw [List.map_const', List.count_replicate, List.count_eq_length_filter]
        simp only [beq_iff_eq]
        rfl
      rw [here]
      rcases Nat.lt_trichotomy n p with hlt | rfl | hgt
      · obtain ⟨k, rfl⟩ : ∃ k, p = n + 1 + k := ⟨p - (n + 1), by omega⟩
        have h₁ : n + 1 + k - (n + 1) = k := by omega
        have h₂ : n + 1 + k - n = k + 1 := by omega
        rw [if_neg (by omega), if_pos (by omega), if_pos (by omega), h₁, h₂,
          List.getElem?_cons_succ, Nat.zero_add]
      · simp
      · rw [if_neg (by omega), if_neg (by omega), if_neg (by omega)]
  have h := offset lists 0
  rw [if_pos (Nat.zero_le p), Nat.sub_zero] at h
  exact h

lemma Valid.readNodes_inv (v : Valid g) {p i : Nat} {pass : PassNode}
    (hp : g.passes[p]? = some pass) (hi : i ∈ g.readNodes pass) :
    g.passes.length ≤ i ∧ i < g.passes.length + g.resources.length := by
  obtain ⟨e, he, hi⟩ := List.mem_filterMap.mp hi
  obtain ⟨edge, hedge, hlt⟩ := v.reads hp he
  rw [hedge] at hi
  obtain rfl := Option.some.inj hi
  dsimp only
  omega

lemma Valid.writeNodes_inv (v : Valid g) {p i : Nat} {pass : PassNode}
    (hp : g.passes[p]? = some pass) (hi : i ∈ g.writeNodes pass) :
    g.passes.length ≤ i ∧ i < g.passes.length + g.resources.length := by
  obtain ⟨e, he, hi⟩ := List.mem_filterMap.mp hi
  obtain ⟨edge, hedge, hlt⟩ := v.writes hp he
  rw [hedge] at hi
  obtain rfl := Option.some.inj hi
  dsimp only
  omega

lemma mem_listing {f : PassNode → List Nat} {i p : Nat}
    (h : p ∈ listing (g.passes.map f) i) : ∃ pass, g.passes[p]? = some pass ∧ i ∈ f pass := by
  have := List.count_pos_iff.mpr h
  rw [count_listing, List.getElem?_map] at this
  cases hp : g.passes[p]? with
  | none =>
    rw [hp] at this
    cases this
  | some pass =>
    rw [hp] at this
    exact ⟨pass, rfl, List.count_pos_iff.mp this⟩

lemma Valid.balanced (v : Valid g) : g.nodes.Balanced := by
  have passLt : ∀ {p : Nat} {pass : PassNode}, g.passes[p]? = some pass →
      p < g.passes.length := fun h => (List.getElem?_eq_some_iff.mp h).1
  constructor
  · exact List.nodup_range
  · intro i j
    change (g.nodeOuts i).count j = (g.nodeIns j).count i
    unfold nodeOuts nodeIns
    cases hi : g.passes[i]? with
    | none =>
      cases hj : g.passes[j]? with
      | none =>
        dsimp only
        rw [count_listing, count_listing, List.getElem?_map, List.getElem?_map, hi, hj]
        rfl
      | some pass =>
        dsimp only
        rw [count_listing, List.getElem?_map, hj]
        rfl
    | some pass =>
      cases hj : g.passes[j]? with
      | none =>
        dsimp only
        rw [count_listing, List.getElem?_map, hi]
        rfl
      | some pass' =>
        -- a pass has no edge to another pass
        dsimp only
        rw [List.count_eq_zero.mpr fun h => ?_, List.count_eq_zero.mpr fun h => ?_]
        · have := v.readNodes_inv hj h
          have := passLt hi
          omega
        · have := v.writeNodes_inv hi h
          have := passLt hj
          omega
  · intro i j h
    apply List.mem_range.mpr
    change i ∈ g.nodeIns j at h
    unfold nodeIns at h
    split at h
    · rename_i hj
      exact (v.readNodes_inv hj h).2
    · obtain ⟨pass, hp, _⟩ := mem_listing h
      have := passLt hp
      omega
  · intro i j h
    apply List.mem_range.mpr
    change j ∈ g.nodeOuts i at h
    unfold nodeOuts at h
    split at h
    · rename_i hi
      exact (v.writeNodes_inv hi h).2
    · obtain ⟨pass, hp, _⟩ := mem_listing h
      have := passLt hp
      omega

def culledNodes (g : Graph) (s : CullState Nat) : Set Nat :=
  {i | i < g.passes.length + g.resources.length ∧ g.isCulled s i = true}

lemma Valid.isLeast_culledNodes (v : Valid g) {vs : List Nat} {s : CullState Nat}
    (p : g.nodes.Progress vs s) (done : s.stack = []) :
    IsLeast {S | g.nodes.CullClosed S} (g.culledNodes s) := by
  have h : g.culledNodes s =
      {i | i ∈ g.nodes.nodes ∧ s.refCount i = 0 ∧ g.nodes.persistent i = false} := by
    ext i
    simp [culledNodes, isCulled, nodes]
  rw [h]
  exact p.isLeast v.balanced done

/-- **Culling is the greatest cull.** For every graph that was built, the culling loop ends and culls the
least set that has every node that is not persistent and whose successors it has. The nodes on the
worklist can be processed in any order: no count is taken below zero, no more nodes than there are
are processed, and when none is left the same set is culled. -/
theorem cull_least (e : build declarations = some g) :
    (∃ s, g.cull = some s ∧ IsLeast {S | g.nodes.CullClosed S} (g.culledNodes s)) ∧
      ∀ vs s, run g.nodes.step g.nodes.start vs = some s →
        vs.length + s.stack.length ≤ g.passes.length + g.resources.length ∧
          (∀ i ∈ s.stack, ∃ s', g.nodes.step s i = some s') ∧
          (s.stack = [] → IsLeast {S | g.nodes.CullClosed S} (g.culledNodes s)) := by
  have v : Valid g := closed_valid.build e
  have size : g.nodes.nodes.length = g.passes.length + g.resources.length := List.length_range
  constructor
  · obtain ⟨vs, s, es, p, done⟩ := (Multigraph.Progress.start v.balanced).drain v.balanced
      (n := g.passes.length + g.resources.length) (by rw [size]; exact Nat.le_add_left _ _)
    exact ⟨s, es, v.isLeast_culledNodes p done⟩
  · intro vs s er
    have p := Multigraph.Progress.run v.balanced er
    refine ⟨size ▸ p.length_le, fun i hi => ?_, v.isLeast_culledNodes p⟩
    obtain ⟨s', es, _⟩ := p.process v.balanced hi
    exact ⟨s', (if_pos hi).trans es⟩

def sampledTwice : List Declaration :=
  [.declareTexture, .declareTexture, .declareTexture, .addRenderPass, .sample 0 1, .sample 0 1,
    .addColorAttachment 0 2, .present 3]

/-- The pass and the two textures are culled. -/
theorem cull_least_sampledTwice : ∃ g s, build sampledTwice = some g ∧ g.cull = some s ∧
    (List.range 6).filter (g.isCulled s) = [0, 2, 3, 4] ∧
    IsLeast {S | g.nodes.CullClosed S} (g.culledNodes s) := by
  obtain ⟨g, hg⟩ : ∃ g, build sampledTwice = some g := ⟨_, rfl⟩
  obtain ⟨s, hs, least⟩ := (cull_least hg).1
  have h : ∀ g ∈ build sampledTwice, ∀ s ∈ g.cull,
      (List.range 6).filter (g.isCulled s) = [0, 2, 3, 4] := by
    decide
  exact ⟨g, s, hg, hs, h g hg s hs, least⟩

end Graph

end PulseEngine.RenderGraph
