import PulseEngine.RenderGraph.Cull

/-!
# Compiling a render graph

The second part of `Compiler::Compile`: the passes and resources that were not culled are copied, and
every managed resource is devirtualized in the first and destroyed in the last pass that uses it.
-/

namespace PulseEngine.RenderGraph

open Library

structure CompiledEdge where
  index : Nat
  usage : ResourceState
  deriving DecidableEq, Repr

/-- `CompiledResourceNode`, without the pointers that the executor sets. -/
structure CompiledResource where
  resourceType : ResourceType
  manageType : ManageType
  imported : Option Nat
  mipCount : Nat
  parent : Nat
  mipLevel : Nat
  arraySlice : Nat
  deriving DecidableEq, Repr

def CompiledResource.new : CompiledResource := ⟨.texture, .managed, none, 0, 0, 0, 0⟩

/-- `CompiledRenderPassNode`; `dest` is `dest_texture` or `dest_buffer`. -/
structure CompiledPass where
  type : PassType
  reads : List CompiledEdge
  writes : List CompiledEdge
  devirtualize : List Nat
  destroy : List Nat
  colorAttachments : List Nat
  depthAttachment : Option Nat
  stagingBuffer : Nat
  dest : Nat
  deriving DecidableEq, Repr

/-- `CompiledRenderPassNode::CompiledRenderPassNode()`. -/
def CompiledPass.new : CompiledPass := ⟨.holdOn, [], [], [], [], [], none, 0, 0⟩

/-- `CompiledRenderGraph`. -/
structure CompiledGraph where
  resources : List CompiledResource
  passes : List CompiledPass
  deriving DecidableEq, Repr

namespace Graph

def readEdges (g : Graph) (pass : PassNode) : List CompiledEdge :=
  pass.reads.filterMap fun e => g.edges[e]?.map fun edge => ⟨edge.fromIndex, edge.usage⟩

def writeEdges (g : Graph) (pass : PassNode) : List CompiledEdge :=
  pass.writes.filterMap fun e => g.edges[e]?.map fun edge => ⟨edge.toIndex, edge.usage⟩

/-- `first` in `Compiler::Compile`. The front of a list that is not empty is less than `MAX_INDEX`, of
which there are fewer passes. -/
def firstUse (g : Graph) (i : Nat) : Option Nat :=
  match (g.nodeIns (i + g.passes.length)).head?, (g.nodeOuts (i + g.passes.length)).head? with
  | some p, some q => some (min p q)
  | some p, none => some p
  | none, q => q

def lastUse (g : Graph) (i : Nat) (resource : ResourceNode) : Nat :=
  if resource.holdOnLast then g.passes.length - 1
  else
    max ((g.nodeIns (i + g.passes.length)).getLast?.getD 0)
      ((g.nodeOuts (i + g.passes.length)).getLast?.getD 0)

def isTransient (g : Graph) (s : CullState Nat) (i : Nat) (resource : ResourceNode) : Bool :=
  resource.manageType = .managed && !g.isCulled s (i + g.passes.length)

/-- The resources of the list `devirtualize` of a pass, in the order in which they are pushed. -/
def devirtualizedIn (g : Graph) (s : CullState Nat) (p : Nat) : List Nat :=
  (List.range g.resources.length).filter fun i =>
    g.resources[i]?.any fun resource => g.isTransient s i resource && g.firstUse i = some p

/-- The resources of the list `destroy` of a pass, in the order in which they are pushed. -/
def destroyedIn (g : Graph) (s : CullState Nat) (p : Nat) : List Nat :=
  (List.range g.resources.length).filter fun i =>
    g.resources[i]?.any fun resource => g.isTransient s i resource && g.lastUse i resource = p

/-- What is copied of a pass that is not culled; the indices of an upload pass are `uint16_t`. -/
def copyPass (g : Graph) (pass : PassNode) : CompiledPass where
  type := pass.type
  reads := g.readEdges pass
  writes := g.writeEdges pass
  devirtualize := []
  destroy := []
  colorAttachments := pass.colorAttachments
  depthAttachment := pass.depthAttachment
  stagingBuffer := pass.stagingBuffer % 0x10000
  dest := pass.dest % 0x10000

def compilePass (g : Graph) (s : CullState Nat) (p : Nat) (pass : PassNode) : CompiledPass :=
  { if g.isCulled s p then CompiledPass.new else g.copyPass pass with
    devirtualize := g.devirtualizedIn s p
    destroy := g.destroyedIn s p }

def copyResource (resource : ResourceNode) : CompiledResource where
  resourceType := resource.resourceType
  manageType := resource.manageType
  imported := resource.imported
  mipCount := resource.mipCount
  parent := resource.parent
  mipLevel := resource.mipLevel
  arraySlice := resource.arraySlice

def compileResource (g : Graph) (s : CullState Nat) (i : Nat) (resource : ResourceNode) :
    CompiledResource :=
  if g.isCulled s (i + g.passes.length) then .new else copyResource resource

def compile (g : Graph) : Option CompiledGraph :=
  g.cull.map fun s =>
    { resources := g.resources.mapIdx fun i resource => g.compileResource s i resource
      passes := g.passes.mapIdx fun p pass => g.compilePass s p pass }

def Reads (g : Graph) (p i : Nat) : Prop :=
  ∃ pass, g.passes[p]? = some pass ∧ ∃ edge ∈ g.readEdges pass, edge.index = i

def Writes (g : Graph) (p i : Nat) : Prop :=
  ∃ pass, g.passes[p]? = some pass ∧ ∃ edge ∈ g.writeEdges pass, edge.index = i

def Uses (g : Graph) (p i : Nat) : Prop := g.Reads p i ∨ g.Writes p i

def Survives (g : Graph) (p : Nat) : Prop := p < g.passes.length ∧ ¬ g.nodes.Culled p

def Kept (g : Graph) (i : Nat) : Prop := ¬ g.nodes.Culled (i + g.passes.length)

variable {g : Graph} {s : CullState Nat} {p q i : Nat}

lemma readNodes_eq (g : Graph) (pass : PassNode) :
    g.readNodes pass = (g.readEdges pass).map fun edge => edge.index + g.passes.length := by
  rw [readNodes, readEdges, List.map_filterMap]
  congr 1
  funext e
  cases g.edges[e]? <;> rfl

lemma writeNodes_eq (g : Graph) (pass : PassNode) :
    g.writeNodes pass = (g.writeEdges pass).map fun edge => edge.index + g.passes.length := by
  rw [writeNodes, writeEdges, List.map_filterMap]
  congr 1
  funext e
  cases g.edges[e]? <;> rfl

lemma passes_resource (g : Graph) (i : Nat) : g.passes[i + g.passes.length]? = none :=
  List.getElem?_eq_none (Nat.le_add_left _ _)

lemma mem_listing_iff {f : PassNode → List Nat} :
    p ∈ listing (g.passes.map f) i ↔ ∃ pass, g.passes[p]? = some pass ∧ i ∈ f pass := by
  constructor
  · exact mem_listing
  · rintro ⟨pass, hp, hi⟩
    apply List.count_pos_iff.mp
    rw [count_listing, List.getElem?_map, hp]
    exact List.count_pos_iff.mpr hi

lemma mem_outs_resource : p ∈ g.nodeOuts (i + g.passes.length) ↔ g.Reads p i := by
  rw [nodeOuts, passes_resource]
  simp only [mem_listing_iff, Reads, readNodes_eq, List.mem_map, Nat.add_right_cancel_iff]

lemma mem_ins_resource : p ∈ g.nodeIns (i + g.passes.length) ↔ g.Writes p i := by
  rw [nodeIns, passes_resource]
  simp only [mem_listing_iff, Writes, writeNodes_eq, List.mem_map, Nat.add_right_cancel_iff]

lemma mem_outs_pass (hp : p < g.passes.length) {j : Nat} :
    j ∈ g.nodeOuts p ↔ ∃ i, g.Writes p i ∧ j = i + g.passes.length := by
  rw [nodeOuts, List.getElem?_eq_getElem hp]
  simp only [writeNodes_eq, List.mem_map]
  constructor
  · rintro ⟨edge, hedge, rfl⟩
    exact ⟨edge.index, ⟨_, List.getElem?_eq_getElem hp, edge, hedge, rfl⟩, rfl⟩
  · rintro ⟨i, ⟨pass, hpass, edge, hedge, rfl⟩, rfl⟩
    rw [List.getElem?_eq_getElem hp] at hpass
    cases hpass
    exact ⟨edge, hedge, rfl⟩

lemma Uses.lt (h : g.Uses p i) : p < g.passes.length := by
  cases h with
  | inl h =>
    obtain ⟨_, hp, -⟩ := h
    exact (List.getElem?_eq_some_iff.mp hp).1
  | inr h =>
    obtain ⟨_, hp, -⟩ := h
    exact (List.getElem?_eq_some_iff.mp hp).1

lemma Valid.lt_of_uses (v : Valid g) (h : g.Uses p i) : i < g.resources.length := by
  cases h with
  | inl h =>
    obtain ⟨pass, hp, edge, hedge, rfl⟩ := h
    obtain ⟨e, he, hedge⟩ := List.mem_filterMap.mp hedge
    obtain ⟨edge', hedge', rfl⟩ := Option.map_eq_some_iff.mp hedge
    obtain ⟨edge'', hedge'', hlt⟩ := v.reads hp he
    rw [hedge'] at hedge''
    cases hedge''
    exact hlt
  | inr h =>
    obtain ⟨pass, hp, edge, hedge, rfl⟩ := h
    obtain ⟨e, he, hedge⟩ := List.mem_filterMap.mp hedge
    obtain ⟨edge', hedge', rfl⟩ := Option.map_eq_some_iff.mp hedge
    obtain ⟨edge'', hedge'', hlt⟩ := v.writes hp he
    rw [hedge'] at hedge''
    cases hedge''
    exact hlt

lemma Valid.isCulled_iff (v : Valid g) (e : g.cull = some s)
    (hi : i < g.passes.length + g.resources.length) :
    g.isCulled s i = true ↔ g.nodes.Culled i := by
  have size : g.nodes.nodes.length = g.passes.length + g.resources.length := List.length_range
  obtain ⟨vs, s', es, progress, done⟩ := (Multigraph.Progress.start v.balanced).drain v.balanced
    (n := g.passes.length + g.resources.length) (by rw [size]; exact Nat.le_add_left _ _)
  rw [show g.cull = some s' from es] at e
  cases e
  rw [← progress.culled_iff v.balanced done (List.mem_range.mpr hi)]
  simp [isCulled, nodes]

lemma culled_pass_iff (hp : p < g.passes.length) :
    g.nodes.Culled p ↔ g.isPersistent p = false ∧ ∀ i, g.Writes p i → ¬ g.Kept i := by
  constructor
  · intro h
    obtain ⟨-, hmortal, houts⟩ := h
    refine ⟨hmortal, ?_⟩
    intro i hw hkept
    exact hkept (houts _ ((mem_outs_pass hp).mpr ⟨i, hw, rfl⟩))
  · rintro ⟨hmortal, hall⟩
    refine .cull (List.mem_range.mpr (by omega)) hmortal ?_
    intro j hj
    obtain ⟨i, hw, rfl⟩ := (mem_outs_pass hp).mp hj
    exact not_not.mp (hall i hw)

lemma kept_iff {resource : ResourceNode} (hi : g.resources[i]? = some resource) :
    g.Kept i ↔ resource.manageType ≠ .managed ∨ ∃ p, g.Survives p ∧ g.Reads p i := by
  have hpersistent : g.isPersistent (i + g.passes.length) = decide (resource.manageType ≠ .managed) := by
    rw [isPersistent, passes_resource]
    simp only [Nat.add_sub_cancel, hi]
  have hlt := (List.getElem?_eq_some_iff.mp hi).1
  constructor
  · intro hkept
    by_contra hnot
    simp only [not_or, not_not, not_exists, not_and] at hnot
    obtain ⟨hmanaged, hall⟩ := hnot
    refine hkept (.cull (List.mem_range.mpr (by omega)) ?_ ?_)
    · show g.isPersistent (i + g.passes.length) = false
      rw [hpersistent, hmanaged]
      rfl
    · intro p hp
      have hreads : g.Reads p i := mem_outs_resource.mp hp
      by_contra hculled
      exact hall p ⟨Uses.lt (.inl hreads), hculled⟩ hreads
  · intro h hculled
    obtain ⟨-, hmortal, houts⟩ := hculled
    change g.isPersistent (i + g.passes.length) = false at hmortal
    rw [hpersistent] at hmortal
    cases h with
    | inl hmanaged => exact absurd hmanaged (of_decide_eq_false hmortal)
    | inr h =>
      obtain ⟨p, hsurvives, hreads⟩ := h
      exact hsurvives.2 (houts p (mem_outs_resource.mpr hreads))

lemma pairwise_listing (lists : List (List Nat)) (i : Nat) :
    (listing lists i).Pairwise (· ≤ ·) := by
  have offset : ∀ (lists : List (List Nat)) (n : Nat),
      ((lists.zipIdx n).flatMap fun x => (x.1.filter (· = i)).map fun _ => x.2).Pairwise
        (· ≤ ·) ∧
      ∀ p ∈ (lists.zipIdx n).flatMap fun x => (x.1.filter (· = i)).map fun _ => x.2,
        n ≤ p := by
    intro lists
    induction lists with
    | nil => intro n; simp
    | cons list lists ih =>
      intro n
      obtain ⟨hsorted, hle⟩ := ih (n + 1)
      have hhere : ∀ p ∈ (list.filter (· = i)).map fun _ => n, p = n := by
        intro p hp
        obtain ⟨_, -, rfl⟩ := List.mem_map.mp hp
        rfl
      rw [List.zipIdx_cons, List.flatMap_cons]
      refine ⟨List.pairwise_append.mpr ⟨?_, hsorted, ?_⟩, ?_⟩
      · show ((list.filter (· = i)).map fun _ => n).Pairwise (· ≤ ·)
        rw [List.map_const']
        exact List.pairwise_replicate.mpr (.inr le_rfl)
      · intro p hp q hq
        rw [hhere p hp]
        exact (Nat.le_succ n).trans (hle q hq)
      · intro p hp
        cases List.mem_append.mp hp with
        | inl hp => exact (hhere p hp).ge
        | inr hp => exact (Nat.le_succ n).trans (hle p hp)
  exact (offset lists 0).1

lemma head?_le {xs : List Nat} (h : xs.Pairwise (· ≤ ·)) (hp : p ∈ xs) :
    ∃ q, xs.head? = some q ∧ q ∈ xs ∧ q ≤ p := by
  cases xs with
  | nil => cases hp
  | cons x xs =>
    refine ⟨x, rfl, .head _, ?_⟩
    cases hp with
    | head => exact le_rfl
    | tail _ hp => exact (List.pairwise_cons.mp h).1 p hp

lemma le_getLast? {xs : List Nat} (h : xs.Pairwise (· ≤ ·)) (hp : p ∈ xs) :
    ∃ q, xs.getLast? = some q ∧ q ∈ xs ∧ p ≤ q := by
  induction xs using List.reverseRecOn with
  | nil => cases hp
  | append_singleton xs x =>
    refine ⟨x, List.getLast?_concat .., List.mem_append_right _ (.head _), ?_⟩
    cases List.mem_append.mp hp with
    | inl hp => exact (List.pairwise_append.mp h).2.2 p hp x (.head _)
    | inr hp => exact (List.mem_singleton.mp hp).le

lemma pairwise_ins (g : Graph) (i : Nat) :
    (g.nodeIns (i + g.passes.length)).Pairwise (· ≤ ·) := by
  rw [nodeIns, passes_resource]
  exact pairwise_listing _ _

lemma pairwise_outs (g : Graph) (i : Nat) :
    (g.nodeOuts (i + g.passes.length)).Pairwise (· ≤ ·) := by
  rw [nodeOuts, passes_resource]
  exact pairwise_listing _ _

lemma firstUse_le (h : g.Uses p i) : ∃ q, g.firstUse i = some q ∧ g.Uses q i ∧ q ≤ p := by
  rw [firstUse]
  have hmem : p ∈ g.nodeOuts (i + g.passes.length) ∨ p ∈ g.nodeIns (i + g.passes.length) := by
    cases h with
    | inl h => exact .inl (mem_outs_resource.mpr h)
    | inr h => exact .inr (mem_ins_resource.mpr h)
  cases hin : (g.nodeIns (i + g.passes.length)).head? with
  | none =>
    rw [List.head?_eq_none_iff.mp hin] at hmem
    obtain ⟨q, hq, hmem', hle⟩ := head?_le (pairwise_outs g i) (hmem.resolve_right (by simp))
    exact ⟨q, hq, .inl (mem_outs_resource.mp hmem'), hle⟩
  | some a =>
    have ha : g.Uses a i := .inr (mem_ins_resource.mp (List.mem_of_head? hin))
    cases hout : (g.nodeOuts (i + g.passes.length)).head? with
    | none =>
      rw [List.head?_eq_none_iff.mp hout] at hmem
      obtain ⟨q, hq, -, hle⟩ := head?_le (pairwise_ins g i) (hmem.resolve_left (by simp))
      rw [hin] at hq
      cases hq
      exact ⟨a, rfl, ha, hle⟩
    | some b =>
      have hb : g.Uses b i := .inl (mem_outs_resource.mp (List.mem_of_head? hout))
      refine ⟨min a b, rfl, ?_, ?_⟩
      · cases le_total a b with
        | inl hab => rwa [min_eq_left hab]
        | inr hba => rwa [min_eq_right hba]
      · cases hmem with
        | inl hmem =>
          obtain ⟨q, hq, -, hle⟩ := head?_le (pairwise_outs g i) hmem
          rw [hout] at hq
          cases hq
          exact (min_le_right a b).trans hle
        | inr hmem =>
          obtain ⟨q, hq, -, hle⟩ := head?_le (pairwise_ins g i) hmem
          rw [hin] at hq
          cases hq
          exact (min_le_left a b).trans hle

lemma le_lastUse {resource : ResourceNode} (h : g.Uses p i) : p ≤ g.lastUse i resource := by
  rw [lastUse]
  split
  · have := h.lt
    omega
  · cases h with
    | inl h =>
      obtain ⟨q, hq, -, hle⟩ := le_getLast? (pairwise_outs g i) (mem_outs_resource.mpr h)
      rw [hq]
      exact hle.trans (le_max_right _ _)
    | inr h =>
      obtain ⟨q, hq, -, hle⟩ := le_getLast? (pairwise_ins g i) (mem_ins_resource.mpr h)
      rw [hq]
      exact hle.trans (le_max_left _ _)

lemma uses_lastUse {resource : ResourceNode} (h : g.Uses p i) (hold : resource.holdOnLast = false) :
    g.Uses (g.lastUse i resource) i := by
  rw [lastUse, if_neg (by simp [hold])]
  cases hin : (g.nodeIns (i + g.passes.length)).getLast? with
  | none =>
    have hout : p ∈ g.nodeOuts (i + g.passes.length) := by
      cases h with
      | inl h => exact mem_outs_resource.mpr h
      | inr h =>
        rw [← mem_ins_resource, List.getLast?_eq_none_iff.mp hin] at h
        cases h
    obtain ⟨q, hq, hmem, -⟩ := le_getLast? (pairwise_outs g i) hout
    rw [hq, Option.getD_none, Option.getD_some, Nat.zero_max]
    exact .inl (mem_outs_resource.mp hmem)
  | some a =>
    have ha : g.Uses a i := .inr (mem_ins_resource.mp (List.mem_of_getLast? hin))
    cases hout : (g.nodeOuts (i + g.passes.length)).getLast? with
    | none => rwa [Option.getD_none, Option.getD_some, Nat.max_zero]
    | some b =>
      have hb : g.Uses b i := .inl (mem_outs_resource.mp (List.mem_of_getLast? hout))
      rw [Option.getD_some, Option.getD_some]
      cases le_total a b with
      | inl hab => rwa [max_eq_right hab]
      | inr hba => rwa [max_eq_left hba]

/-- What `Compiler::Compile` does, said of the graph. -/
structure Compiled (g : Graph) (c : CompiledGraph) : Prop where
  length_passes : c.passes.length = g.passes.length
  length_resources : c.resources.length = g.resources.length
  survives : ∀ {p : Nat} {pass : PassNode}, g.passes[p]? = some pass → g.Survives p →
    ∃ devirtualize destroy, c.passes[p]? =
      some { g.copyPass pass with devirtualize := devirtualize, destroy := destroy }
  culled : ∀ {p : Nat}, g.nodes.Culled p → p < g.passes.length →
    ∃ devirtualize destroy, c.passes[p]? =
      some { CompiledPass.new with devirtualize := devirtualize, destroy := destroy }
  devirtualize : ∀ {p i : Nat} {pass : CompiledPass}, c.passes[p]? = some pass →
    (i ∈ pass.devirtualize ↔ ∃ resource, g.resources[i]? = some resource ∧
      resource.manageType = .managed ∧ g.Kept i ∧ g.firstUse i = some p)
  destroy : ∀ {p i : Nat} {pass : CompiledPass}, c.passes[p]? = some pass →
    (i ∈ pass.destroy ↔ ∃ resource, g.resources[i]? = some resource ∧
      resource.manageType = .managed ∧ g.Kept i ∧ g.lastUse i resource = p)
  nodup_devirtualize : ∀ pass ∈ c.passes, pass.devirtualize.Nodup
  nodup_destroy : ∀ pass ∈ c.passes, pass.destroy.Nodup
  kept : ∀ {i : Nat} {resource : ResourceNode}, g.resources[i]? = some resource → g.Kept i →
    c.resources[i]? = some (copyResource resource)
  gone : ∀ {i : Nat}, g.nodes.Culled (i + g.passes.length) → i < g.resources.length →
    c.resources[i]? = some .new

lemma Valid.isTransient_iff (v : Valid g) (e : g.cull = some s) {resource : ResourceNode}
    (hi : g.resources[i]? = some resource) :
    g.isTransient s i resource = true ↔ resource.manageType = .managed ∧ g.Kept i := by
  have hlt := (List.getElem?_eq_some_iff.mp hi).1
  have hculled := v.isCulled_iff e (i := i + g.passes.length) (by omega)
  rw [isTransient, Bool.and_eq_true, decide_eq_true_iff, Bool.not_eq_true', Kept, ← hculled,
    Bool.not_eq_true]

/-- **Spec of compiling.** -/
theorem Valid.compile_spec (v : Valid g) : ∃ c, g.compile = some c ∧ g.Compiled c := by
  have size : g.nodes.nodes.length = g.passes.length + g.resources.length := List.length_range
  obtain ⟨-, s, es, -, -⟩ := (Multigraph.Progress.start v.balanced).drain v.balanced
    (n := g.passes.length + g.resources.length) (by rw [size]; exact Nat.le_add_left _ _)
  have e : g.cull = some s := es
  have hpass : ∀ {p : Nat}, p < g.passes.length → (g.isCulled s p = true ↔ g.nodes.Culled p) :=
    fun hp => v.isCulled_iff e (by omega)
  have hget : ∀ {p : Nat} {pass : PassNode}, g.passes[p]? = some pass →
      (g.passes.mapIdx fun p pass => g.compilePass s p pass)[p]? =
        some (g.compilePass s p pass) := by
    intro p pass hp
    rw [List.getElem?_mapIdx, hp]
    rfl
  have hback : ∀ {p : Nat} {pass : CompiledPass},
      (g.passes.mapIdx fun p pass => g.compilePass s p pass)[p]? = some pass →
        pass.devirtualize = g.devirtualizedIn s p ∧ pass.destroy = g.destroyedIn s p := by
    intro p pass hp
    rw [List.getElem?_mapIdx] at hp
    obtain ⟨node, -, rfl⟩ := Option.map_eq_some_iff.mp hp
    exact ⟨rfl, rfl⟩
  refine ⟨_, by rw [compile, e]; rfl, ?_⟩
  constructor
  · exact List.length_mapIdx
  · exact List.length_mapIdx
  · intro p pass hp hsurvives
    have hculled : g.isCulled s p ≠ true := fun h => hsurvives.2 ((hpass hsurvives.1).mp h)
    refine ⟨g.devirtualizedIn s p, g.destroyedIn s p, ?_⟩
    rw [hget hp, compilePass, if_neg hculled]
  · intro p hculled hlt
    refine ⟨g.devirtualizedIn s p, g.destroyedIn s p, ?_⟩
    rw [hget (List.getElem?_eq_getElem hlt), compilePass, if_pos ((hpass hlt).mpr hculled)]
  · intro p i pass hp
    rw [(hback hp).1, devirtualizedIn, List.mem_filter, List.mem_range, Option.any_eq_true]
    constructor
    · rintro ⟨-, resource, hi, h⟩
      rw [Bool.and_eq_true, decide_eq_true_iff, v.isTransient_iff e hi] at h
      exact ⟨resource, hi, h.1.1, h.1.2, h.2⟩
    · rintro ⟨resource, hi, hmanaged, hkept, hfirst⟩
      refine ⟨(List.getElem?_eq_some_iff.mp hi).1, resource, hi, ?_⟩
      rw [Bool.and_eq_true, decide_eq_true_iff, v.isTransient_iff e hi]
      exact ⟨⟨hmanaged, hkept⟩, hfirst⟩
  · intro p i pass hp
    rw [(hback hp).2, destroyedIn, List.mem_filter, List.mem_range, Option.any_eq_true]
    constructor
    · rintro ⟨-, resource, hi, h⟩
      rw [Bool.and_eq_true, decide_eq_true_iff, v.isTransient_iff e hi] at h
      exact ⟨resource, hi, h.1.1, h.1.2, h.2⟩
    · rintro ⟨resource, hi, hmanaged, hkept, hlast⟩
      refine ⟨(List.getElem?_eq_some_iff.mp hi).1, resource, hi, ?_⟩
      rw [Bool.and_eq_true, decide_eq_true_iff, v.isTransient_iff e hi]
      exact ⟨⟨hmanaged, hkept⟩, hlast⟩
  · intro pass hm
    obtain ⟨p, hp⟩ := List.mem_iff_getElem?.mp hm
    rw [(hback hp).1]
    exact List.nodup_range.filter _
  · intro pass hm
    obtain ⟨p, hp⟩ := List.mem_iff_getElem?.mp hm
    rw [(hback hp).2]
    exact List.nodup_range.filter _
  · intro i resource hi hkept
    have hlt := (List.getElem?_eq_some_iff.mp hi).1
    have hculled : g.isCulled s (i + g.passes.length) ≠ true :=
      fun h => hkept ((v.isCulled_iff e (by omega)).mp h)
    rw [List.getElem?_mapIdx, hi, Option.map_some, compileResource, if_neg hculled]
  · intro i hculled hlt
    rw [List.getElem?_mapIdx, List.getElem?_eq_getElem hlt, Option.map_some, compileResource,
      if_pos ((v.isCulled_iff e (by omega)).mpr hculled)]

end Graph

end PulseEngine.RenderGraph
