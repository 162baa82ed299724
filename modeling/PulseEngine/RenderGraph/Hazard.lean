import PulseEngine.RenderGraph.Turns

/-!
# Hazards

Between a pass that writes a resource and a later pass that uses it, a barrier is emitted for the
resource: always for a texture, whose writes force barriers, and for a buffer when it was copied to or
when a pass up to the later one uses it in another state.
-/

namespace PulseEngine.RenderGraph

open Library

variable {c : CompiledGraph} {ctx : ExecutorContext} {st st' : Executor} {i j : Nat}
  {m m' : Memory} {managed : Nat → Option Nat} {ℓ : Location} {emissions : List Emission}

def CompiledGraph.Located (c : CompiledGraph) (managed : Nat → Option Nat) (i : Nat) (ℓ : Location) :
    Prop :=
  ∃ resource physical, c.resources[i]? = some resource ∧
    c.find managed resource.resourceType i = some physical ∧ resource.At physical ℓ = true

def CompiledResource.location (resource : CompiledResource) (physical : Physical) : Location :=
  match resource.resourceType with
  | .texture => .texture physical (if resource.manageType = .subResource then
      resource.mipLevel + resource.arraySlice * resource.mipCount else 0)
  | .buffer => .buffer physical

lemma at_location (resource : CompiledResource) (physical : Physical) :
    resource.At physical (resource.location physical) = true := by
  unfold CompiledResource.location
  cases htype : resource.resourceType with
  | texture =>
    by_cases hsub : resource.manageType = .subResource
    · simp [CompiledResource.At, htype, hsub]
    · simp [CompiledResource.At, htype, hsub]
  | buffer => simp [CompiledResource.At, htype]

def CompiledGraph.First (c : CompiledGraph) (managed : Nat → Option Nat) (i : Nat) (ℓ : Location) :
    Prop :=
  ∃ resource physical, c.resources[i]? = some resource ∧
    c.find managed resource.resourceType i = some physical ∧ ℓ = resource.location physical

lemma CompiledGraph.First.located (h : c.First managed i ℓ) : c.Located managed i ℓ := by
  obtain ⟨resource, physical, hresource, hphysical, rfl⟩ := h
  exact ⟨resource, physical, hresource, hphysical, at_location resource physical⟩

lemma touches_iff {edge : CompiledEdge} : c.Touches managed edge ℓ = true ↔
    edge.usage ≠ .undefined ∧ c.Located managed edge.index ℓ := by
  simp only [CompiledGraph.Touches, CompiledGraph.Located, Bool.and_eq_true, decide_eq_true_iff,
    Option.any_eq_true, ne_eq]
  refine and_congr_right fun _ => ⟨?_, ?_⟩
  · rintro ⟨resource, hresource, physical, hphysical, hat⟩
    exact ⟨resource, physical, hresource, hphysical, hat⟩
  · rintro ⟨resource, physical, hresource, hphysical, hat⟩
    exact ⟨resource, hresource, physical, hphysical, hat⟩

lemma mem_requests {edges : List CompiledEdge} {usage : ResourceState} :
    usage ∈ c.requests managed edges ℓ ↔ ∃ edge ∈ edges, edge.usage = usage ∧
      edge.usage ≠ .undefined ∧ c.Located managed edge.index ℓ := by
  simp only [CompiledGraph.requests, List.mem_map, List.mem_filter, touches_iff]
  constructor
  · rintro ⟨edge, ⟨hedge, hu, hlocated⟩, rfl⟩
    exact ⟨edge, hedge, rfl, hu, hlocated⟩
  · rintro ⟨edge, hedge, rfl, hu, hlocated⟩
    exact ⟨edge, ⟨hedge, hu, hlocated⟩, rfl⟩

lemma placeBarrier_state {edge : CompiledEdge} (hs : m.Sound)
    (e : c.placeBarrier managed m edge = some (m', emissions)) (hu : edge.usage ≠ .undefined)
    (hℓ : c.First managed edge.index ℓ) : m.state ℓ ≠ none := by
  obtain ⟨resource, physical, hresource, hphysical, rfl⟩ := hℓ
  unfold CompiledGraph.placeBarrier at e
  simp only [hresource, hphysical, hu, if_false, Option.bind_eq_bind, Option.bind_some] at e
  unfold CompiledResource.location
  cases htype : resource.resourceType with
  | texture =>
    simp only [htype] at e
    split at e
    · rename_i hwhole
      simp only [if_neg hwhole, Memory.state]
      unfold Memory.placeTexture at e
      dsimp only at e
      split at e
      · simp only [Option.bind_eq_bind, Option.bind_eq_some_iff] at e
        obtain ⟨cur, hcur, -⟩ := e
        rw [hcur]
        rintro ⟨⟩
      · rename_i hflag
        have hfilled := hs.filled physical (Bool.eq_false_iff.mpr (not_or.mp hflag).1)
        rw [List.getElem?_eq_getElem (List.length_pos_iff.mpr hfilled)]
        rintro ⟨⟩
    · rename_i hsub
      simp only [if_pos (not_not.mp hsub), Memory.state]
      unfold Memory.placeSubresource at e
      simp only [Option.bind_eq_bind, Option.bind_eq_some_iff] at e
      obtain ⟨cur, hcur, -⟩ := e
      rw [hcur]
      rintro ⟨⟩
  | buffer => rintro ⟨⟩

lemma placeEdges_state {edges : List CompiledEdge} {edge : CompiledEdge} (hs : m.Sound)
    (e : c.placeEdges managed edges m = some (m', emissions)) (hedge : edge ∈ edges)
    (hu : edge.usage ≠ .undefined) (hℓ : c.First managed edge.index ℓ) : m.state ℓ ≠ none := by
  induction edges generalizing m emissions with
  | nil => cases hedge
  | cons edge' edges ih =>
    simp only [CompiledGraph.placeEdges, Option.bind_eq_bind, Option.bind_eq_some_iff,
      Option.pure_def, Option.some.injEq, Prod.mk.injEq] at e
    obtain ⟨⟨m₁, es₁⟩, e₁, ⟨m₂, es₂⟩, e₂, rfl, rfl⟩ := e
    cases hedge with
    | head => exact placeBarrier_state hs e₁ hu hℓ
    | tail _ hedge =>
      intro hnone
      obtain ⟨htracks, -, -⟩ := CompiledGraph.placeBarrier_spec hs.consistent e₁
      exact ih (placeBarrier_sound hs e₁).1 e₂ hedge (htracks.absent hnone)

lemma Bindings.created_of_located {taken released : List Nat} (h : Bindings c taken released st)
    (hℓ : c.Located st.managed i ℓ) : st.Created ℓ := by
  obtain ⟨resource, physical, hresource, hphysical, hat⟩ := hℓ
  cases htype : resource.resourceType with
  | texture =>
    cases ℓ with
    | buffer buffer => simp [CompiledResource.At, htype] at hat
    | texture texture entry =>
      simp only [CompiledResource.At, htype, decide_true, Bool.true_and, Bool.and_eq_true,
        decide_eq_true_iff] at hat
      obtain ⟨rfl, -⟩ := hat
      cases texture with
      | imported asset => trivial
      | pooled object =>
        simp only [htype, CompiledGraph.find, CompiledGraph.getTexture, Option.bind_eq_bind,
          Option.bind_eq_some_iff, hresource, Option.some.injEq, exists_eq_left'] at hphysical
        obtain ⟨_, -, hphysical⟩ := hphysical
        cases hm : resource.manageType with
        | managed =>
          simp only [hm, Option.map_eq_some_iff, Physical.pooled.injEq, exists_eq_right] at hphysical
          exact h.created ⟨resource, hresource, hm, htype⟩ hphysical
        | imported => simp [hm] at hphysical
        | subResource =>
          simp only [hm, Option.bind_eq_some_iff, Option.guard_eq_some'] at hphysical
          obtain ⟨parent, hparent, _, hguard, hphysical⟩ := hphysical
          split at hphysical
          · rename_i hpm
            simp only [Option.map_eq_some_iff, Physical.pooled.injEq, exists_eq_right] at hphysical
            exact h.created ⟨parent, hparent, hpm, hguard.2⟩ hphysical
          · simp at hphysical
  | buffer =>
    cases ℓ with
    | texture texture entry => simp [CompiledResource.At, htype] at hat
    | buffer buffer =>
      simp only [CompiledResource.At, htype, decide_true, Bool.true_and, decide_eq_true_iff] at hat
      subst hat
      cases buffer with
      | imported asset => trivial
      | pooled object =>
        simp only [htype, CompiledGraph.find, CompiledGraph.getBuffer, Option.bind_eq_bind,
          Option.bind_eq_some_iff, hresource, Option.some.injEq, exists_eq_left'] at hphysical
        obtain ⟨_, -, hphysical⟩ := hphysical
        split at hphysical
        · rename_i hm
          simp only [Option.map_eq_some_iff, Physical.pooled.injEq, exists_eq_right] at hphysical
          exact h.created ⟨resource, hresource, hm, htype⟩ hphysical
        · simp at hphysical

lemma located_of_extends {managed' : Nat → Option Nat} (h : Extends managed managed')
    (hf : ∃ resource physical, c.resources[i]? = some resource ∧
      c.find managed resource.resourceType i = some physical) (hℓ : c.Located managed' i ℓ) :
    c.Located managed i ℓ := by
  obtain ⟨resource, physical, hresource, hphysical⟩ := hf
  obtain ⟨resource', physical', hresource', hphysical', hat⟩ := hℓ
  rw [hresource] at hresource'
  cases hresource'
  rw [find_extends h hphysical] at hphysical'
  cases hphysical'
  exact ⟨resource, physical, hresource, hphysical, hat⟩

lemma first_of_extends {managed' : Nat → Option Nat} (h : Extends managed managed')
    (hf : ∃ resource physical, c.resources[i]? = some resource ∧
      c.find managed resource.resourceType i = some physical) (hℓ : c.First managed' i ℓ) :
    c.First managed i ℓ := by
  obtain ⟨resource, physical, hresource, hphysical⟩ := hf
  obtain ⟨resource', physical', hresource', hphysical', rfl⟩ := hℓ
  rw [hresource] at hresource'
  cases hresource'
  rw [find_extends h hphysical] at hphysical'
  cases hphysical'
  exact ⟨resource, physical, hresource, hphysical, rfl⟩

def Executor.Emitted (st : Executor) (p q : Nat) (ℓ : Location) : Prop :=
  ∃ r emissions emission, p < r ∧ r ≤ q ∧ st.barriers[r]? = some emissions ∧
    emission ∈ emissions ∧ emission.Covers ℓ

lemma emitted_iff {more : List (List Emission)} {p q : Nat} (hpq : p < q)
    (hb : st'.barriers = st.barriers ++ more) (hlength : st.barriers.length = p + 1)
    (hmore : more.length = q + 1 - (p + 1)) : st'.Emitted p q ℓ ↔
      ∃ emissions ∈ more, ∃ emission ∈ emissions, emission.Covers ℓ := by
  constructor
  · rintro ⟨r, emissions, emission, hpr, hrq, hget, hm, hcovers⟩
    rw [hb, List.getElem?_append_right (by omega)] at hget
    exact ⟨emissions, List.mem_of_getElem? hget, emission, hm, hcovers⟩
  · rintro ⟨emissions, hem, emission, hm, hcovers⟩
    obtain ⟨k, hget⟩ := List.mem_iff_getElem?.mp hem
    have hlt := (List.getElem?_eq_some_iff.mp hget).1
    refine ⟨p + 1 + k, emissions, emission, by omega, by omega, ?_, hm, hcovers⟩
    rw [hb, List.getElem?_append_right (by omega), hlength, Nat.add_sub_cancel_left]
    exact hget

lemma Turn.state_written {pass : CompiledPass} {u : ResourceState} (hturn : Turn c pass st st')
    (hu : (c.requests st'.managed pass.writes ℓ).getLast? = some u)
    (hℓ : st'.memory.state ℓ ≠ none) : st'.memory.state ℓ = some u := by
  obtain ⟨m, emissions, -, -, -, -, htracks⟩ := hturn.tracks
  cases hs : m.state ℓ with
  | none => exact absurd (htracks.absent hs) hℓ
  | some s =>
    rw [htracks.state hs, CompiledGraph.requests_append, tracked_append, tracked, hu]
    rfl

namespace Graph

variable {g : Graph} {p q r n : Nat} {a b : ResourceNode} {physical physical' : Physical}

lemma Compiled.found_node (spec : g.Compiled c) (bound : c.BoundUpTo n managed)
    (hi : g.resources[i]? = some a) {type : ResourceType}
    (hf : c.find managed type i = some physical) :
    g.Kept i ∧ c.resources[i]? = some (copyResource a) ∧ a.resourceType = type := by
  have hkept : g.Kept i := by
    by_contra hgone
    rw [spec.find_gone bound hi hgone] at hf
    cases hf
  refine ⟨hkept, spec.kept hi hkept, ?_⟩
  by_contra htype
  rw [spec.find_mismatch hi hkept htype] at hf
  cases hf

lemma Compiled.find_parent (spec : g.Compiled c) (declared : g.Declared)
    (hi : g.resources[i]? = some a) (hm : a.manageType = .subResource)
    (hf : c.find managed .texture i = some physical) :
    c.find managed .texture a.parent = some physical := by
  have hc := spec.kept hi ((kept_iff hi).mpr (.inl (by rw [hm]; rintro ⟨⟩)))
  obtain ⟨-, -, parent, hp, -, hroot, -⟩ := declared.parent hi hm
  simp only [CompiledGraph.find, CompiledGraph.getTexture, hc, copyResource, hm,
    Option.bind_eq_bind, Option.bind_some, Option.bind_eq_some_iff, Option.guard_eq_some'] at hf ⊢
  obtain ⟨_, -, node, hnode, _, ⟨hparent, htype⟩, hf⟩ := hf
  refine ⟨node, hnode, (), htype, ?_⟩
  have hnosub : node.manageType ≠ .subResource := by
    by_cases hkept : g.Kept a.parent
    · rw [spec.kept hp hkept] at hnode
      cases hnode
      exact fun hsub => (declared.parent hp hsub).2.1 hroot
    · rw [spec.gone (not_not.mp hkept) (List.getElem?_eq_some_iff.mp hp).1] at hnode
      cases hnode
      rintro ⟨⟩
  cases hnode' : node.manageType with
  | managed => simpa only [hnode', if_true] using hf
  | imported => simpa [hnode'] using hf
  | subResource => exact absurd hnode' hnosub

lemma at_whole {texture : Physical} {entry : Nat} (htype : a.resourceType = .texture)
    (hm : a.manageType ≠ .subResource) :
    (copyResource a).At texture (.texture texture entry) = true := by
  simp [CompiledResource.At, copyResource, htype, hm]

lemma Compiled.located_parent (spec : g.Compiled c) (declared : g.Declared)
    (bound : c.BoundUpTo n managed) (hi : g.resources[i]? = some a)
    (hm : a.manageType = .subResource) (hf : c.find managed .texture i = some physical) :
    c.Located managed a.parent ((copyResource a).location physical) := by
  obtain ⟨ht, -, parent, hp, hparentType, hroot, -⟩ := declared.parent hi hm
  have hfp := spec.find_parent declared hi hm hf
  obtain ⟨-, hc, -⟩ := spec.found_node bound hp hfp
  have hnosub : parent.manageType ≠ .subResource := fun hsub => (declared.parent hp hsub).2.1 hroot
  refine ⟨copyResource parent, physical, hc, ?_, ?_⟩
  · rw [show (copyResource parent).resourceType = .texture from hparentType]
    exact hfp
  · rw [show (copyResource a).location physical = .texture physical _ by
      simp only [CompiledResource.location, copyResource, ht]; rfl]
    exact at_whole hparentType hnosub

lemma Compiled.located_overlap (spec : g.Compiled c) (declared : g.Declared)
    (bound : c.BoundUpTo n managed) (hi : g.resources[i]? = some a) (hj : g.resources[j]? = some b)
    (hfi : c.find managed a.resourceType i = some physical)
    (hfj : c.find managed b.resourceType j = some physical') (h : g.Overlaps i j) :
    ∃ ℓ, c.Located managed i ℓ ∧ c.Located managed j ℓ ∧ (c.First managed i ℓ ∨ c.First managed j ℓ) := by
  have hfirst : c.First managed i ((copyResource a).location physical) :=
    ⟨_, _, (spec.found_node bound hi hfi).2.1, hfi, rfl⟩
  have hfirst' : c.First managed j ((copyResource b).location physical') :=
    ⟨_, _, (spec.found_node bound hj hfj).2.1, hfj, rfl⟩
  cases h with
  | inl he =>
    subst he
    exact ⟨_, hfirst.located, hfirst.located, .inl hfirst⟩
  | inr h =>
    obtain ⟨a', b', hi', hj', h⟩ := h
    rw [hi] at hi'
    rw [hj] at hj'
    cases hi'
    cases hj'
    obtain ⟨hsub, rfl⟩ | ⟨hsub, rfl⟩ | ⟨hsub, hsub', hparent, hmip, hslice⟩ := h
    · rw [(declared.parent hi hsub).1] at hfi
      exact ⟨_, hfirst.located, spec.located_parent declared bound hi hsub hfi, .inl hfirst⟩
    · rw [(declared.parent hj hsub).1] at hfj
      exact ⟨_, spec.located_parent declared bound hj hsub hfj, hfirst'.located, .inr hfirst'⟩
    · obtain ⟨ht, -, parent, hp, -, -, hcount⟩ := declared.parent hi hsub
      obtain ⟨ht', -, parent', hp', -, -, hcount'⟩ := declared.parent hj hsub'
      rw [← hparent, hp] at hp'
      cases hp'
      rw [ht] at hfi
      rw [ht'] at hfj
      have hfp := spec.find_parent declared hi hsub hfi
      have hfp' := spec.find_parent declared hj hsub' hfj
      rw [← hparent, hfp] at hfp'
      cases hfp'
      have hsame : (copyResource a).location physical = (copyResource b).location physical := by
        simp [CompiledResource.location, copyResource, ht, ht', hsub, hsub', hmip, hslice, hcount,
          hcount']
      exact ⟨_, hfirst.located, hsame ▸ hfirst'.located, .inl hfirst⟩

def sameBuffer (g : Graph) (i j : Nat) : Bool :=
  i = j || match g.resources[i]?, g.resources[j]? with
    | some a, some b => a.resourceType = .buffer && b.resourceType = .buffer &&
        a.manageType = .imported && b.manageType = .imported && a.imported = b.imported
    | _, _ => false

def bufferUsages (g : Graph) (p i : Nat) : List ResourceState :=
  match g.passes[p]? with
  | none => []
  | some pass => ((g.readEdges pass ++ g.writeEdges pass).filter fun edge =>
      edge.usage ≠ .undefined && g.sameBuffer i edge.index).map (·.usage)

lemma Compiled.find_buffer (spec : g.Compiled c) (declared : g.Declared)
    (bound : c.BoundUpTo n managed) (hi : g.resources[i]? = some a)
    (ht : a.resourceType = .buffer) (hf : c.find managed .buffer i = some physical) :
    a.manageType = .managed ∧ (∃ object, managed i = some object ∧ physical = .pooled object) ∨
      a.manageType = .imported ∧
        ∃ asset, a.imported = some asset ∧ physical = .imported asset := by
  obtain ⟨-, hc, -⟩ := spec.found_node bound hi hf
  simp only [CompiledGraph.find, CompiledGraph.getBuffer, hc, copyResource, ht,
    Option.bind_eq_bind, Option.bind_some, Option.bind_eq_some_iff, Option.guard_eq_some'] at hf
  obtain ⟨_, -, hf⟩ := hf
  cases hm : a.manageType with
  | managed =>
    simp only [hm, if_true, Option.map_eq_some_iff] at hf
    obtain ⟨object, hobject, rfl⟩ := hf
    exact .inl ⟨rfl, object, hobject, rfl⟩
  | imported =>
    simp only [hm, reduceCtorEq, if_false, Option.map_eq_some_iff] at hf
    obtain ⟨asset, hasset, rfl⟩ := hf
    exact .inr ⟨rfl, asset, hasset, rfl⟩
  | subResource => cases ht.symm.trans (declared.parent hi hm).1

/-- A run of the executor up to a surviving pass that uses a resource, after a surviving pass that writes
one that overlaps it. -/
structure Hazard (g : Graph) (c : CompiledGraph) (ctx : ExecutorContext) (p q i j : Nat)
    (st₀ st : Executor) : Prop where
  start : Bindings c [] [] st₀
  sound : st₀.memory.Sound
  barriers : st₀.barriers = []
  run : c.execute ctx (c.passes.take (q + 1)) st₀ = some st
  lt : p < q
  survives : g.Survives p
  survives' : g.Survives q
  writes : g.Writes p i
  uses : g.Uses q j
  overlaps : g.Overlaps i j

lemma Hazard.bound {st₀ : Executor} (spec : g.Compiled c) (h : g.Hazard c ctx p q i j st₀ st) :
    c.BoundUpTo q st.managed := by
  have hq : c.passes[q]? = some _ :=
    List.getElem?_eq_getElem (show q < c.passes.length from spec.length_passes ▸ h.survives'.1)
  have hbindings := h.start.execute spec h.run
  rw [CompiledGraph.devirtualizedBefore, before_succ hq] at hbindings
  exact hbindings.boundUpTo hq

lemma Compiled.found_use (spec : g.Compiled c) (passes : g.SoundPasses) (hp : g.Survives p)
    (huses : g.Uses p i) {pass : CompiledPass} (hpass : c.passes[p]? = some pass)
    (hturn : Turn c pass st st') : ∃ edge ∈ pass.reads ++ pass.writes, edge.index = i ∧
      edge.usage ≠ .undefined ∧ ∃ resource physical, c.resources[i]? = some resource ∧
        c.find st'.managed resource.resourceType i = some physical := by
  obtain ⟨node, hnode⟩ : ∃ node, g.passes[p]? = some node := ⟨_, List.getElem?_eq_getElem hp.1⟩
  obtain ⟨devirtualize, destroy, hcp⟩ := spec.survives hnode hp
  rw [hpass] at hcp
  cases hcp
  obtain ⟨edge, hedge, rfl, hu⟩ := passes.exists_usage hnode huses
  exact ⟨edge, hedge, rfl, hu, hturn.found edge hedge hu⟩

lemma Compiled.write_edge (spec : g.Compiled c) (passes : g.SoundPasses) (hp : g.Survives p)
    (hw : g.Writes p i) {pass : CompiledPass} (hpass : c.passes[p]? = some pass) :
    ∃ edge ∈ pass.writes, edge.index = i ∧ edge.usage ≠ .undefined := by
  obtain ⟨node, hnode, edge, hedge, rfl⟩ := hw
  obtain ⟨devirtualize, destroy, hcp⟩ := spec.survives hnode hp
  rw [hpass] at hcp
  cases hcp
  refine ⟨edge, hedge, rfl, ?_⟩
  intro hu
  obtain h | h | h | ⟨h, -⟩ := (passes.sound hnode).writes edge hedge
  all_goals cases hu.symm.trans h

lemma Hazard.emitted_iff {st₀ : Executor} (spec : g.Compiled c) (passes : g.SoundPasses)
    (h : g.Hazard c ctx p q i j st₀ st) {pass : CompiledPass} (hpass : c.passes[p]? = some pass)
    (hi : c.Located st.managed i ℓ) (hfirst : c.First st.managed i ℓ ∨ c.First st.managed j ℓ) :
    ∃ u, (c.requests st.managed pass.writes ℓ).getLast? = some u ∧
      (st.Emitted p q ℓ ↔
        emits ℓ.forces u (c.requestsBetween st.managed (p + 1) (q + 1) ℓ) = true) := by
  have hq : q < c.passes.length := spec.length_passes ▸ h.survives'.1
  have hpq := h.lt
  have hp1 : p + 1 ≤ c.passes.length := by omega
  -- the runs up to the two passes and their turns
  obtain ⟨st₁, e₁⟩ := execute_prefix (Nat.succ_le_succ hpq.le) h.run
  obtain ⟨stp, ep, e₁'⟩ := (execute_succ hpass).mp e₁
  obtain ⟨stq, eq, e'⟩ := (execute_succ (List.getElem?_eq_getElem hq)).mp h.run
  have turn₁ := executePass_turn (execute_sound h.sound (by omega) ep) e₁'
  have turn := executePass_turn (execute_sound h.sound hq.le eq) e'
  obtain ⟨more, between⟩ := execute_between spec h.start h.sound (Nat.succ_le_succ hpq.le) hq e₁ h.run
  obtain ⟨_, between'⟩ := execute_between spec h.start h.sound hpq hq.le e₁ eq
  -- what is written is found after the pass
  obtain ⟨_, _, _, _, hfound⟩ := spec.found_use passes h.survives (.inr h.writes) hpass turn₁
  obtain ⟨edge, hedge, hindex, hu⟩ := spec.write_edge passes h.survives h.writes hpass
  have hi₁ : c.Located st₁.managed i ℓ := located_of_extends between.pointers hfound hi
  have hcreated : st₁.Created ℓ := (h.start.execute spec e₁).created_of_located hi₁
  have hstate : st₁.memory.state ℓ ≠ none := by
    intro hnone
    cases hfirst with
    | inl hfirst =>
      obtain ⟨m, emissions, hm, -, -, hplace, htracks⟩ := turn₁.tracks
      have hfirst₁ := first_of_extends between.pointers hfound hfirst
      obtain ⟨s, hs⟩ := Option.ne_none_iff_exists'.mp
        (placeEdges_state hm hplace (List.mem_append_right _ hedge) hu (hindex ▸ hfirst₁))
      rw [htracks.state hs] at hnone
      cases hnone
    | inr hfirst =>
      obtain ⟨m, emissions, hm, -, hbefore, hplace, -⟩ := turn.tracks
      obtain ⟨edge', hedge', hindex', hu', -⟩ :=
        spec.found_use passes h.survives' h.uses (List.getElem?_eq_getElem hq) turn
      refine placeEdges_state hm hplace hedge' hu' (hindex' ▸ hfirst) ?_
      exact (hbefore ℓ (between'.created hcreated)).trans (between'.absent hcreated hnone)
  have hne : c.requests st.managed pass.writes ℓ ≠ [] :=
    List.ne_nil_of_mem (mem_requests.mpr ⟨edge, hedge, rfl, hu, hindex ▸ hi⟩)
  have hlast := List.getLast?_eq_some_getLast hne
  have hsame : c.requests st₁.managed pass.writes ℓ = c.requests st.managed pass.writes ℓ :=
    requests_extends between.pointers fun edge hedge =>
      turn₁.found edge (List.mem_append_right _ hedge)
  refine ⟨_, hlast, ?_⟩
  rw [← between.emitted (fun _ _ => id) hcreated (turn₁.state_written
    ((congrArg List.getLast? hsame).trans hlast) hstate)]
  exact RenderGraph.emitted_iff hpq between.barriers
    (execute_barriers_length spec h.start h.sound h.barriers hp1 e₁) between.length

lemma Compiled.mem_requestsBetween (spec : g.Compiled c) {usage : ResourceState} {a b : Nat} :
    usage ∈ c.requestsBetween managed a b ℓ ↔ ∃ r node edge, a ≤ r ∧ r < b ∧ g.Survives r ∧
      g.passes[r]? = some node ∧ edge ∈ g.readEdges node ++ g.writeEdges node ∧
      edge.usage = usage ∧ edge.usage ≠ .undefined ∧ c.Located managed edge.index ℓ := by
  simp only [CompiledGraph.requestsBetween, List.mem_flatMap, mem_requests]
  constructor
  · rintro ⟨pass, hpass, edge, hedge, hu, hrest⟩
    obtain ⟨k, hk⟩ := List.mem_iff_getElem?.mp hpass
    rw [List.getElem?_drop, List.getElem?_take] at hk
    split at hk
    · rename_i hlt
      have hlt' : a + k < g.passes.length :=
        spec.length_passes ▸ (List.getElem?_eq_some_iff.mp hk).1
      obtain ⟨node, hnode⟩ : ∃ node, g.passes[a + k]? = some node :=
        ⟨_, List.getElem?_eq_getElem hlt'⟩
      by_cases hculled : g.nodes.Culled (a + k)
      · obtain ⟨_, _, hcp⟩ := spec.culled hculled hlt'
        rw [hk] at hcp
        cases hcp
        cases hedge
      · obtain ⟨_, _, hcp⟩ := spec.survives hnode ⟨hlt', hculled⟩
        rw [hk] at hcp
        cases hcp
        exact ⟨a + k, node, edge, Nat.le_add_right .., hlt, ⟨hlt', hculled⟩, hnode, hedge, hu, hrest⟩
    · cases hk
  · rintro ⟨r, node, edge, har, hrb, hsurvives, hnode, hedge, hu, hrest⟩
    obtain ⟨_, _, hcp⟩ := spec.survives hnode hsurvives
    have hget : ((c.passes.take b).drop a)[r - a]? = c.passes[r]? := by
      rw [List.getElem?_drop, List.getElem?_take, Nat.add_sub_cancel' har, if_pos hrb]
    exact ⟨_, List.mem_of_getElem? (hget.trans hcp), edge, hedge, hu, hrest⟩

lemma Hazard.emitted_texture {st₀ : Executor} {texture : Physical} {entry : Nat}
    (spec : g.Compiled c) (passes : g.SoundPasses) (h : g.Hazard c ctx p q i j st₀ st)
    (hi : c.Located st.managed i (.texture texture entry))
    (hj : c.Located st.managed j (.texture texture entry))
    (hfirst : c.First st.managed i (.texture texture entry) ∨
      c.First st.managed j (.texture texture entry)) :
    st.Emitted p q (.texture texture entry) := by
  have hlt : p < c.passes.length := spec.length_passes ▸ h.survives.1
  obtain ⟨node, hnode⟩ : ∃ node, g.passes[p]? = some node :=
    ⟨_, List.getElem?_eq_getElem h.survives.1⟩
  obtain ⟨_, _, hpass⟩ := spec.survives hnode h.survives
  obtain ⟨u, hu, hemitted⟩ := h.emitted_iff spec passes hpass hi hfirst
  rw [hemitted]
  refine emits_of_forces _ ?_ ?_
  · -- a write of a texture forces a barrier
    obtain ⟨edge, hedge, rfl, -, resource, physical, -, hphysical, hat⟩ :=
      mem_requests.mp (List.mem_of_getLast? hu)
    obtain hu | hu | hu | ⟨-, resource', hresource', htype⟩ := (passes.sound hnode).writes edge hedge
    · rw [hu]
      rfl
    · rw [hu]
      rfl
    · rw [hu]
      rfl
    · have htexture : resource.resourceType = .texture := by
        cases ht : resource.resourceType with
        | texture => rfl
        | buffer => simp [CompiledResource.At, ht] at hat
      obtain ⟨-, -, htype'⟩ := spec.found_node (h.bound spec) hresource' hphysical
      cases htexture.symm.trans (htype'.symm.trans htype)
  · obtain ⟨node', hnode'⟩ : ∃ node, g.passes[q]? = some node :=
      ⟨_, List.getElem?_eq_getElem h.survives'.1⟩
    obtain ⟨edge, hedge, rfl, hu'⟩ := passes.exists_usage hnode' h.uses
    exact List.ne_nil_of_mem (spec.mem_requestsBetween.mpr ⟨q, node', edge, h.lt,
      Nat.lt_succ_self q, h.survives', hnode', hedge, rfl, hu', hj⟩)

lemma Hazard.found_edge {st₀ : Executor} (spec : g.Compiled c) (h : g.Hazard c ctx p q i j st₀ st)
    (hr : r ≤ q) (hsurvives : g.Survives r) {node : PassNode} (hnode : g.passes[r]? = some node)
    {edge : CompiledEdge} (hedge : edge ∈ g.readEdges node ++ g.writeEdges node)
    (hu : edge.usage ≠ .undefined) : ∃ resource physical, c.resources[edge.index]? = some resource ∧
      c.find st.managed resource.resourceType edge.index = some physical := by
  have hq : q < c.passes.length := spec.length_passes ▸ h.survives'.1
  obtain ⟨_, _, hpass⟩ := spec.survives hnode hsurvives
  obtain ⟨st₁, e₁⟩ := execute_prefix (Nat.succ_le_succ hr) h.run
  obtain ⟨str, er, e₁'⟩ := (execute_succ hpass).mp e₁
  have turn := executePass_turn (execute_sound h.sound (by omega) er) e₁'
  obtain ⟨more, between⟩ := execute_between spec h.start h.sound (Nat.succ_le_succ hr) hq e₁ h.run
  obtain ⟨resource, physical, hresource, hphysical⟩ := turn.found edge hedge hu
  exact ⟨resource, physical, hresource, find_extends between.pointers hphysical⟩

lemma Declared.eq_of_overlaps (declared : g.Declared) (hi : g.resources[i]? = some a)
    (ht : a.resourceType = .buffer) (h : g.Overlaps i j) : i = j := by
  obtain rfl | ⟨a', b', hi', hj', h⟩ := h
  · rfl
  · rw [hi] at hi'
    cases hi'
    obtain ⟨hsub, -⟩ | ⟨hsub, rfl⟩ | ⟨hsub, -⟩ := h
    · cases ht.symm.trans (declared.parent hi hsub).1
    · obtain ⟨-, -, parent, hparent, htexture, -⟩ := declared.parent hj' hsub
      rw [hi] at hparent
      cases hparent
      cases ht.symm.trans htexture
    · cases ht.symm.trans (declared.parent hi hsub).1

lemma Compiled.covers_between (spec : g.Compiled c) (hi : g.resources[i]? = some a)
    (hm : a.manageType = .managed) (hkept : g.Kept i) (hpr : p ≤ r) (hrq : r ≤ q)
    (hp : g.Uses p i) (hq : g.Uses q i) : c.Covers r i :=
  ((spec.covers_iff (hrq.trans_lt hq.lt) hi hm).mpr
    ⟨((kept_iff hi).mp hkept).resolve_left (not_not.mpr hm), ⟨p, hpr, hp⟩, .inr ⟨q, hrq, hq⟩⟩).2

lemma Hazard.located_iff {st₀ : Executor} {k : Nat} (spec : g.Compiled c) (declared : g.Declared)
    (h : g.Hazard c ctx p q i i st₀ st) (hi : g.resources[i]? = some a)
    (ht : a.resourceType = .buffer) (hf : c.find st.managed .buffer i = some physical)
    (hk : g.resources[k]? = some b) (huses : g.Uses r k) (hpr : p ≤ r) (hrq : r ≤ q)
    (hfound : ∃ resource physical, c.resources[k]? = some resource ∧
      c.find st.managed resource.resourceType k = some physical) :
    c.Located st.managed k (.buffer physical) ↔ g.sameBuffer i k = true := by
  have bound := h.bound spec
  have hbindings := h.start.execute spec h.run
  obtain ⟨hkept, hci, -⟩ := spec.found_node bound hi hf
  obtain ⟨resource, physical', hck, hfk⟩ := hfound
  obtain ⟨hkept', hck', htk⟩ := spec.found_node bound hk hfk
  rw [hck] at hck'
  cases hck'
  have hsame : g.sameBuffer i k = true ↔ i = k ∨ b.resourceType = .buffer ∧
      a.manageType = .imported ∧ b.manageType = .imported ∧ a.imported = b.imported := by
    simp [sameBuffer, hi, hk, ht, and_assoc]
  have hlocated : c.Located st.managed k (.buffer physical) ↔
      b.resourceType = .buffer ∧ physical = physical' := by
    constructor
    · rintro ⟨resource', physical'', hresource', hphysical', hat⟩
      rw [hck] at hresource'
      cases hresource'
      rw [hfk] at hphysical'
      cases hphysical'
      obtain ⟨htype, hphysical⟩ := Bool.and_eq_true_iff.mp hat
      exact ⟨of_decide_eq_true htype, of_decide_eq_true hphysical⟩
    · rintro ⟨htype, rfl⟩
      exact ⟨_, _, hck, hfk, by simp [CompiledResource.At, copyResource, htype]⟩
  rw [hlocated, hsame]
  constructor
  · rintro ⟨htype, rfl⟩
    rw [show (copyResource b).resourceType = .buffer from htype] at hfk
    obtain ⟨hm, object, hobject, rfl⟩ | ⟨hm, asset, hasset, rfl⟩ :=
      spec.find_buffer declared bound hi ht hf
    · obtain ⟨hm', object', hobject', he⟩ | ⟨-, _, -, he⟩ :=
        spec.find_buffer declared bound hk htype hfk
      · cases he
        -- two managed buffers that are both there are not bound to one object
        by_contra hne
        rw [not_or] at hne
        have hoverlap : c.Overlap i k :=
          ⟨r, spec.covers_between hi hm hkept hpr hrq (.inr h.writes) h.uses,
            spec.covers_between hk hm' hkept' le_rfl le_rfl huses huses⟩
        exact hbindings.apart ⟨_, hci, hm, ht⟩ ⟨_, hck, hm', htype⟩ hne.1 (.inl hoverlap) hobject
          hobject' rfl
      · cases he
    · obtain ⟨-, _, -, he⟩ | ⟨hm', asset', hasset', he⟩ :=
        spec.find_buffer declared bound hk htype hfk
      · cases he
      · cases he
        exact .inr ⟨htype, hm, hm', hasset.trans hasset'.symm⟩
  · rintro (rfl | ⟨htype, hm, hm', hasset⟩)
    · rw [hi] at hk
      cases hk
      rw [show (copyResource a).resourceType = .buffer from ht, hf] at hfk
      cases hfk
      exact ⟨ht, rfl⟩
    · refine ⟨htype, ?_⟩
      rw [show (copyResource b).resourceType = .buffer from htype] at hfk
      obtain ⟨he, -⟩ | ⟨-, asset, himported, rfl⟩ := spec.find_buffer declared bound hi ht hf
      · cases he.symm.trans hm
      · obtain ⟨he, -⟩ | ⟨-, asset', himported', rfl⟩ :=
          spec.find_buffer declared bound hk htype hfk
        · cases he.symm.trans hm'
        · rw [hasset, himported'] at himported
          cases himported
          rfl

lemma Hazard.bufferUsages_eq {st₀ : Executor} (spec : g.Compiled c) (declared : g.Declared)
    (v : Valid g) (h : g.Hazard c ctx p q i i st₀ st) (hi : g.resources[i]? = some a)
    (ht : a.resourceType = .buffer) (hf : c.find st.managed .buffer i = some physical)
    (hsurvives : g.Survives r) {node : PassNode} (hnode : g.passes[r]? = some node) (hpr : p ≤ r)
    (hrq : r ≤ q) : g.bufferUsages r i =
      c.requests st.managed (g.readEdges node ++ g.writeEdges node) (.buffer physical) := by
  rw [bufferUsages, hnode, CompiledGraph.requests]
  dsimp only
  congr 1
  apply List.filter_congr
  intro edge hedge
  by_cases hu : edge.usage = .undefined
  · simp [CompiledGraph.Touches, hu]
  · have huses : g.Uses r edge.index := (mem_copyPass hnode).mpr ⟨edge, hedge, rfl⟩
    have hlocated := h.located_iff spec declared hi ht hf
      (List.getElem?_eq_getElem (v.lt_of_uses huses)) huses hpr hrq
      (h.found_edge spec hrq hsurvives hnode hedge hu)
    rw [Bool.eq_iff_iff, touches_iff, hlocated]
    simp [hu]

/-- A pass leaves a buffer as the destination of a copy, or a surviving pass after it and up to another
uses the buffer in another state. -/
def Transitions (g : Graph) (p q i : Nat) : Prop :=
  ∃ u, (g.bufferUsages p i).getLast? = some u ∧ (u = .copyDest ∨
    ∃ r, p < r ∧ r ≤ q ∧ g.Survives r ∧ ∃ w ∈ g.bufferUsages r i, w ≠ u)

lemma Hazard.emitted_buffer_iff {st₀ : Executor} (spec : g.Compiled c) (declared : g.Declared)
    (passes : g.SoundPasses) (h : g.Hazard c ctx p q i i st₀ st) (hi : g.resources[i]? = some a)
    (ht : a.resourceType = .buffer) (hf : c.find st.managed .buffer i = some physical) :
    st.Emitted p q (.buffer physical) ↔ g.Transitions p q i := by
  have hpq := h.lt
  obtain ⟨node, hnode⟩ : ∃ node, g.passes[p]? = some node :=
    ⟨_, List.getElem?_eq_getElem h.survives.1⟩
  obtain ⟨_, _, hpass⟩ := spec.survives hnode h.survives
  have hci := (spec.found_node (h.bound spec) hi hf).2.1
  have hfirst : c.First st.managed i (.buffer physical) := by
    refine ⟨copyResource a, physical, hci, ?_, ?_⟩
    · rw [show (copyResource a).resourceType = .buffer from ht]
      exact hf
    · simp only [CompiledResource.location, copyResource, ht]
  obtain ⟨u, hu, hemitted⟩ := h.emitted_iff spec passes hpass hfirst.located (.inl hfirst)
  have husages : (g.bufferUsages p i).getLast? = some u := by
    rw [h.bufferUsages_eq spec declared passes.toValid hi ht hf h.survives hnode le_rfl hpq.le,
      CompiledGraph.requests_append, List.getLast?_append]
    exact congrArg (Option.or · _) hu
  have hmem : ∀ w, w ∈ c.requestsBetween st.managed (p + 1) (q + 1) (.buffer physical) ↔
      ∃ r, p < r ∧ r ≤ q ∧ g.Survives r ∧ w ∈ g.bufferUsages r i := by
    intro w
    rw [spec.mem_requestsBetween]
    constructor
    · rintro ⟨r, node', edge, hpr, hrq, hr, hnode', hrest⟩
      refine ⟨r, hpr, Nat.le_of_lt_succ hrq, hr, ?_⟩
      rw [h.bufferUsages_eq spec declared passes.toValid hi ht hf hr hnode' (by omega) (by omega)]
      exact mem_requests.mpr ⟨edge, hrest⟩
    · rintro ⟨r, hpr, hrq, hr, hw⟩
      obtain ⟨node', hnode'⟩ : ∃ node, g.passes[r]? = some node := ⟨_, List.getElem?_eq_getElem hr.1⟩
      rw [h.bufferUsages_eq spec declared passes.toValid hi ht hf hr hnode' (by omega) (by omega)]
        at hw
      obtain ⟨edge, hrest⟩ := mem_requests.mp hw
      exact ⟨r, node', edge, hpr, Nat.lt_succ_of_le hrq, hr, hnode', hrest⟩
  have htransitions : g.Transitions p q i ↔
      u = .copyDest ∨ ∃ w ∈ c.requestsBetween st.managed (p + 1) (q + 1) (.buffer physical), w ≠ u := by
    simp only [Transitions, husages, Option.some.injEq, exists_eq_left', hmem]
    refine or_congr_right ⟨?_, ?_⟩
    · rintro ⟨r, hpr, hrq, hr, w, hw, hne⟩
      exact ⟨w, ⟨r, hpr, hrq, hr, hw⟩, hne⟩
    · rintro ⟨w, ⟨r, hpr, hrq, hr, hw⟩, hne⟩
      exact ⟨r, hpr, hrq, hr, w, hw, hne⟩
  rw [hemitted, htransitions]
  by_cases hcopy : u = .copyDest
  · refine iff_of_true (emits_of_forces _ (by rw [hcopy]; rfl) ?_) (.inl hcopy)
    obtain ⟨node', hnode'⟩ : ∃ node, g.passes[q]? = some node :=
      ⟨_, List.getElem?_eq_getElem h.survives'.1⟩
    obtain ⟨edge, hedge, hindex, hu'⟩ := passes.exists_usage hnode' h.uses
    exact List.ne_nil_of_mem (spec.mem_requestsBetween.mpr ⟨q, node', edge, h.lt,
      Nat.lt_succ_self q, h.survives', hnode', hedge, rfl, hu', hindex ▸ hfirst.located⟩)
  · have hforces : (Location.buffer physical).forces u = false := decide_eq_false hcopy
    rw [emits_iff_of_not_forces _ hforces]
    exact (or_iff_right hcopy).symm

def HazardCovered (c : CompiledGraph) (st : Executor) (p q i j : Nat) : Prop :=
  ∃ ℓ, c.Located st.managed i ℓ ∧ c.Located st.managed j ℓ ∧ st.Emitted p q ℓ

def Guarded (g : Graph) (p q i : Nat) : Prop :=
  (∃ resource, g.resources[i]? = some resource ∧ resource.resourceType = .texture) ∨
    g.Transitions p q i

lemma Hazard.found_use {st₀ : Executor} (spec : g.Compiled c) (passes : g.SoundPasses)
    (h : g.Hazard c ctx p q i j st₀ st) (hr : r ≤ q) (hsurvives : g.Survives r) {k : Nat}
    (huses : g.Uses r k) (hk : g.resources[k]? = some a) :
    ∃ physical, c.find st.managed a.resourceType k = some physical := by
  obtain ⟨node, hnode⟩ : ∃ node, g.passes[r]? = some node :=
    ⟨_, List.getElem?_eq_getElem hsurvives.1⟩
  obtain ⟨edge, hedge, rfl, hu⟩ := passes.exists_usage hnode huses
  obtain ⟨resource, physical, -, hphysical⟩ := h.found_edge spec hr hsurvives hnode hedge hu
  obtain ⟨-, -, htype⟩ := spec.found_node (h.bound spec) hk hphysical
  exact ⟨physical, htype ▸ hphysical⟩

lemma Hazard.covered_texture {st₀ : Executor} (spec : g.Compiled c) (declared : g.Declared)
    (passes : g.SoundPasses) (h : g.Hazard c ctx p q i j st₀ st) (hi : g.resources[i]? = some a)
    (ht : a.resourceType = .texture) : HazardCovered c st p q i j := by
  obtain ⟨b, hj⟩ : ∃ b, g.resources[j]? = some b :=
    ⟨_, List.getElem?_eq_getElem (passes.toValid.lt_of_uses h.uses)⟩
  obtain ⟨physical, hfi⟩ := h.found_use spec passes h.lt.le h.survives (.inr h.writes) hi
  obtain ⟨physical', hfj⟩ := h.found_use spec passes le_rfl h.survives' h.uses hj
  obtain ⟨ℓ, hℓi, hℓj, hfirst⟩ :=
    spec.located_overlap declared (h.bound spec) hi hj hfi hfj h.overlaps
  cases ℓ with
  | texture texture entry =>
    exact ⟨_, hℓi, hℓj, h.emitted_texture spec passes hℓi hℓj hfirst⟩
  | buffer buffer =>
    obtain ⟨resource, _, hresource, hphysical, hat⟩ := hℓi
    obtain ⟨-, -, htype⟩ := spec.found_node (h.bound spec) hi hphysical
    have hbuffer : resource.resourceType = .buffer := by
      simp only [CompiledResource.At, Bool.and_eq_true, decide_eq_true_iff] at hat
      exact hat.1
    cases ht.symm.trans (htype.trans hbuffer)

lemma Hazard.covered_buffer_iff {st₀ : Executor} (spec : g.Compiled c) (declared : g.Declared)
    (passes : g.SoundPasses) (h : g.Hazard c ctx p q i i st₀ st) (hi : g.resources[i]? = some a)
    (ht : a.resourceType = .buffer) : HazardCovered c st p q i i ↔ g.Transitions p q i := by
  obtain ⟨physical, hf⟩ := h.found_use spec passes h.lt.le h.survives (.inr h.writes) hi
  rw [ht] at hf
  have hlocated : ∀ ℓ, c.Located st.managed i ℓ ↔ ℓ = .buffer physical := by
    intro ℓ
    obtain ⟨-, hc, -⟩ := spec.found_node (h.bound spec) hi hf
    constructor
    · rintro ⟨resource, physical', hresource, hphysical, hat⟩
      rw [hc] at hresource
      cases hresource
      rw [show (copyResource a).resourceType = .buffer from ht, hf] at hphysical
      cases hphysical
      cases ℓ with
      | texture texture entry => simp [CompiledResource.At, copyResource, ht] at hat
      | buffer buffer =>
        exact congrArg Location.buffer (of_decide_eq_true (Bool.and_eq_true_iff.mp hat).2)
    · rintro rfl
      refine ⟨_, physical, hc, ?_, ?_⟩
      · rw [show (copyResource a).resourceType = .buffer from ht]
        exact hf
      · simp [CompiledResource.At, copyResource, ht]
  rw [← h.emitted_buffer_iff spec declared passes hi ht hf]
  constructor
  · rintro ⟨ℓ, hℓ, -, hemitted⟩
    exact (hlocated ℓ).mp hℓ ▸ hemitted
  · exact fun hemitted => ⟨_, (hlocated _).mpr rfl, (hlocated _).mpr rfl, hemitted⟩

def twoDispatches : List Declaration :=
  [.importBuffer 0 .none, .addComputePass, .readwriteBuffer 0 1, .addComputePass, .readwriteBuffer 1 1]

def newMemory : Memory := ⟨fun _ => ⟨[.undefined], true⟩, fun _ => .undefined⟩

lemma sound_newMemory : newMemory.Sound := by
  refine ⟨?_, nofun⟩
  intro texture _ s hs s' hs'
  rw [List.mem_singleton.mp hs, List.mem_singleton.mp hs']

def oneState : ExecutorContext := ⟨fun _ => 0, fun _ => 0, fun _ => 1, fun _ => 0⟩

lemma run_twoDispatches : ∃ g c st, build twoDispatches = some g ∧ g.compile = some c ∧
    c.execute oneState (c.passes.take 2) (.start (.init 10) (.init 10) newMemory) = some st ∧
    st.barriers.map List.length = [1, 0] ∧ g.Survives 0 ∧ g.Survives 1 ∧ g.Writes 0 1 ∧
    g.Uses 1 1 := by
  obtain ⟨g, hg⟩ : ∃ g, build twoDispatches = some g := ⟨_, rfl⟩
  have v : Valid g := closed_valid.build hg
  obtain ⟨c, hc, -⟩ := v.compile_spec
  have hrun : ∀ g ∈ build twoDispatches, ∀ c ∈ g.compile,
      (c.execute oneState (c.passes.take 2) (.start (.init 10) (.init 10) newMemory)).isSome ∧
      ∀ st ∈ c.execute oneState (c.passes.take 2) (.start (.init 10) (.init 10) newMemory),
        st.barriers.map List.length = [1, 0] := by
    decide
  obtain ⟨hsome, hlengths⟩ := hrun g hg c hc
  obtain ⟨st, hst⟩ := Option.isSome_iff_exists.mp hsome
  have hwrites : g.Writes 0 1 ∧ g.Writes 1 1 := by
    cases hg
    exact ⟨⟨_, rfl, ⟨1, .unorderedAccess⟩, .head _, rfl⟩, ⟨_, rfl, ⟨1, .unorderedAccess⟩, .head _, rfl⟩⟩
  have hkept : g.Kept 1 := by
    obtain ⟨node, hnode, hne⟩ : ∃ node, g.resources[1]? = some node ∧ node.manageType ≠ .managed := by
      cases hg
      exact ⟨_, rfl, by decide⟩
    exact (kept_iff hnode).mpr (.inl hne)
  have hsurvives : ∀ {p : Nat}, g.Writes p 1 → g.Survives p := by
    intro p hw
    have hlt := Uses.lt (.inr hw)
    exact ⟨hlt, fun hculled => ((culled_pass_iff hlt).mp hculled).2 1 hw hkept⟩
  exact ⟨g, c, st, hg, hc, hst, hlengths st hst, hsurvives hwrites.1, hsurvives hwrites.2, hwrites.1,
    .inr hwrites.2⟩

end Graph

end PulseEngine.RenderGraph
