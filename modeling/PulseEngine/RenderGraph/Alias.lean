import PulseEngine.RenderGraph.Lifetime

/-!
# Aliasing of physical objects

Every managed resource of a compiled graph is devirtualized in one pass and destroyed in one pass. While
it is there its physical object is in no pool, so that no other resource is given the object.
-/

namespace PulseEngine.RenderGraph

def CompiledGraph.Overlap (c : CompiledGraph) (i j : Nat) : Prop := ∃ p, c.Covers p i ∧ c.Covers p j

def CompiledGraph.devirtualizedBefore (c : CompiledGraph) (n : Nat) : List Nat :=
  (c.passes.take n).flatMap (·.devirtualize)

def CompiledGraph.destroyedBefore (c : CompiledGraph) (n : Nat) : List Nat :=
  (c.passes.take n).flatMap (·.destroy)

def Executor.pool (st : Executor) : ResourceType → ResourcePool
  | .texture => st.texturePool
  | .buffer => st.bufferPool

def CompiledGraph.Managed (c : CompiledGraph) (i : Nat) (type : ResourceType) : Prop :=
  ∃ resource, c.resources[i]? = some resource ∧ resource.manageType = .managed ∧
    resource.resourceType = type

/-- The state of the executor after some resources were devirtualized and some of them destroyed. -/
structure Bindings (c : CompiledGraph) (taken released : List Nat) (st : Executor) : Prop where
  sound : ∀ type, (st.pool type).Sound
  bound : ∀ i, (st.managed i).isSome ↔ i ∈ taken
  created : ∀ {i object : Nat} {type : ResourceType}, c.Managed i type →
    st.managed i = some object → object < (st.pool type).created.length
  live : ∀ {i object : Nat} {type : ResourceType}, c.Managed i type → i ∉ released →
    st.managed i = some object → object ∉ (st.pool type).objects
  apart : ∀ {i j a b : Nat} {type : ResourceType}, c.Managed i type → c.Managed j type → i ≠ j →
    c.Overlap i j ∨ i ∉ released ∧ j ∉ released → st.managed i = some a → st.managed j = some b →
      a ≠ b

variable {c : CompiledGraph} {taken released : List Nat} {st st' : Executor} {i j : Nat}
  {ctx : ExecutorContext}

lemma Bindings.start {texturePool bufferPool : ResourcePool} (ht : texturePool.Sound)
    (hb : bufferPool.Sound) (memory : Memory) :
    Bindings c [] [] (.start texturePool bufferPool memory) where
  sound
    | .texture => ht
    | .buffer => hb
  bound i := by simp [Executor.start]
  created _ h := by cases h
  live _ _ h := by cases h
  apart _ _ _ _ h := by cases h

lemma devirtualize_cases {type : ResourceType} (hi : c.Managed i type)
    (sound : (st.pool type).Sound) (e : c.devirtualize ctx st i = some st') :
    ∃ object, st'.managed = Function.update st.managed i (some object) ∧
      (∀ other, other ≠ type → st'.pool other = st.pool other) ∧
      ResourcePool.Handed (st.pool type) (st'.pool type) object := by
  obtain ⟨resource, hresource, hmanaged, rfl⟩ := hi
  unfold CompiledGraph.devirtualize at e
  simp only [hresource, hmanaged, Option.bind_eq_bind, Option.bind_some, ne_eq, not_true_eq_false,
    if_false, Option.pure_def] at e
  cases htype : resource.resourceType with
  | texture =>
    rw [htype] at sound
    simp only [htype, Option.some.injEq] at e
    subst e
    refine ⟨_, rfl, ?_, sound.getResource _ _⟩
    intro other hne
    cases other with
    | texture => exact absurd rfl hne
    | buffer => rfl
  | buffer =>
    rw [htype] at sound
    simp only [htype, Option.some.injEq] at e
    subst e
    refine ⟨_, rfl, ?_, sound.getResource _ _⟩
    intro other hne
    cases other with
    | texture => rfl
    | buffer => exact absurd rfl hne

lemma destroy_cases {type : ResourceType} (hi : c.Managed i type)
    (e : c.destroy st i = some st') :
    ∃ object, st.managed i = some object ∧ st'.managed = st.managed ∧
      (∀ other, other ≠ type → st'.pool other = st.pool other) ∧
      (st.pool type).releaseResource object = some (st'.pool type) := by
  obtain ⟨resource, hresource, hmanaged, rfl⟩ := hi
  unfold CompiledGraph.destroy at e
  simp only [hresource, hmanaged, Option.bind_eq_bind, Option.bind_some, ne_eq, not_true_eq_false,
    if_false, Option.pure_def, Option.bind_eq_some_iff] at e
  obtain ⟨object, hobject, e⟩ := e
  cases htype : resource.resourceType with
  | texture =>
    simp only [htype, Option.bind_eq_some_iff, Option.some.injEq] at e
    obtain ⟨pool, hpool, rfl⟩ := e
    refine ⟨object, hobject, rfl, ?_, hpool⟩
    intro other hne
    cases other with
    | texture => exact absurd rfl hne
    | buffer => rfl
  | buffer =>
    simp only [htype, Option.bind_eq_some_iff, Option.some.injEq] at e
    obtain ⟨pool, hpool, rfl⟩ := e
    refine ⟨object, hobject, rfl, ?_, hpool⟩
    intro other hne
    cases other with
    | texture => rfl
    | buffer => exact absurd rfl hne

lemma CompiledGraph.Managed.type_eq {type type' : ResourceType} (h : c.Managed i type)
    (h' : c.Managed i type') : type = type' := by
  obtain ⟨resource, hi, -, rfl⟩ := h
  obtain ⟨resource', hi', -, rfl⟩ := h'
  rw [hi] at hi'
  cases hi'
  rfl

lemma CompiledGraph.Overlap.symm (h : c.Overlap i j) : c.Overlap j i := by
  obtain ⟨p, hi, hj⟩ := h
  exact ⟨p, hj, hi⟩

lemma Bindings.devirtualize {type : ResourceType} (h : Bindings c taken released st)
    (hi : c.Managed i type) (hnew : i ∉ taken) (hsep : ∀ j ∈ released, ¬ c.Overlap i j)
    (e : c.devirtualize ctx st i = some st') : Bindings c (taken ++ [i]) released st' := by
  obtain ⟨object, hmanaged, hothers, handed⟩ := devirtualize_cases hi (h.sound type) e
  have hold : ∀ {j : Nat}, j ≠ i → st'.managed j = st.managed j := by
    intro j hj
    rw [hmanaged, Function.update_of_ne hj]
  have hobject : st'.managed i = some object := by
    rw [hmanaged, Function.update_self]
  -- an object that is in use is not handed out
  have hfresh : ∀ {j b : Nat}, c.Managed j type → j ∉ released → st.managed j = some b →
      object ≠ b := by
    intro j b hj hreleased hb he
    cases handed.origin with
    | inl hmem => exact h.live hj hreleased hb (he ▸ hmem)
    | inr hnext =>
      have hlt := h.created hj hb
      rw [← he, hnext] at hlt
      exact lt_irrefl _ hlt
  have hpair : ∀ {j b : Nat}, c.Managed j type → j ≠ i →
      c.Overlap i j ∨ i ∉ released ∧ j ∉ released → st'.managed j = some b → object ≠ b := by
    intro j b hj hne hor hb
    rw [hold hne] at hb
    refine hfresh hj ?_ hb
    cases hor with
    | inl hoverlap => exact fun hm => hsep j hm hoverlap
    | inr hnot => exact hnot.2
  constructor
  · intro other
    by_cases hother : other = type
    · exact hother ▸ handed.sound
    · exact hothers other hother ▸ h.sound other
  · intro j
    rw [List.mem_append, List.mem_singleton]
    by_cases hj : j = i
    · rw [hj, hobject]
      simp
    · rw [hold hj, h.bound j]
      simp [hj]
  · intro j b type' hj hb
    by_cases hji : j = i
    · subst hji
      cases hj.type_eq hi
      rw [hobject] at hb
      cases hb
      exact handed.lt
    · rw [hold hji] at hb
      by_cases htype : type' = type
      · subst htype
        exact (h.created hj hb).trans_le handed.created
      · rw [hothers type' htype]
        exact h.created hj hb
  · intro j b type' hj hreleased hb
    by_cases hji : j = i
    · subst hji
      cases hj.type_eq hi
      rw [hobject] at hb
      cases hb
      exact handed.taken
    · rw [hold hji] at hb
      by_cases htype : type' = type
      · subst htype
        exact fun hm => h.live hj hreleased hb (handed.objects _ hm)
      · rw [hothers type' htype]
        exact h.live hj hreleased hb
  · intro j k a b type' hj hk hne hor ha hb
    by_cases hji : j = i
    · subst hji
      cases hj.type_eq hi
      rw [hobject] at ha
      cases ha
      exact hpair hk (Ne.symm hne) hor hb
    · by_cases hki : k = i
      · subst hki
        cases hk.type_eq hi
        rw [hobject] at hb
        cases hb
        refine (hpair hj hji ?_ ha).symm
        cases hor with
        | inl hoverlap => exact .inl hoverlap.symm
        | inr hnot => exact .inr ⟨hnot.2, hnot.1⟩
      · rw [hold hji] at ha
        rw [hold hki] at hb
        exact h.apart hj hk hne hor ha hb

lemma Bindings.destroy {type : ResourceType} (h : Bindings c taken released st)
    (hi : c.Managed i type) (hbound : i ∉ released) (e : c.destroy st i = some st') :
    Bindings c taken (released ++ [i]) st' := by
  obtain ⟨object, hobject, hmanaged, hothers, hrelease⟩ := destroy_cases hi e
  obtain ⟨pool, hpool, sound, hcreated, hobjects⟩ :=
    (h.sound type).releaseResource (h.created hi hobject) (h.live hi hbound hobject)
  obtain rfl : pool = st'.pool type := Option.some.inj (hpool.symm.trans hrelease)
  have hreleased : ∀ {j : Nat}, j ∉ released ++ [i] → j ∉ released ∧ j ≠ i := by
    intro j hj
    rw [List.mem_append, List.mem_singleton, not_or] at hj
    exact hj
  constructor
  · intro other
    by_cases hother : other = type
    · exact hother ▸ sound
    · exact hothers other hother ▸ h.sound other
  · rw [hmanaged]
    exact h.bound
  · intro j b type' hj hb
    rw [hmanaged] at hb
    by_cases htype : type' = type
    · subst htype
      rw [hcreated]
      exact h.created hj hb
    · rw [hothers type' htype]
      exact h.created hj hb
  · intro j b type' hj hreleased' hb
    obtain ⟨hj', hji⟩ := hreleased hreleased'
    rw [hmanaged] at hb
    by_cases htype : type' = type
    · subst htype
      rw [hobjects, List.mem_cons, not_or]
      exact ⟨h.apart hj hi hji (.inr ⟨hj', hbound⟩) hb hobject, h.live hj hj' hb⟩
    · rw [hothers type' htype]
      exact h.live hj hj' hb
  · intro j k a b type' hj hk hne hor ha hb
    rw [hmanaged] at ha hb
    refine h.apart hj hk hne ?_ ha hb
    cases hor with
    | inl hoverlap => exact .inl hoverlap
    | inr hnot => exact .inr ⟨(hreleased hnot.1).1, (hreleased hnot.2).1⟩

lemma Bindings.congr (h : Bindings c taken released st) (hm : st'.managed = st.managed)
    (hp : ∀ type, st'.pool type = st.pool type) : Bindings c taken released st' := by
  constructor
  · intro type
    rw [hp]
    exact h.sound type
  · rw [hm]
    exact h.bound
  · intro i object type hi ho
    rw [hp]
    exact h.created hi (hm ▸ ho)
  · intro i object type hi hreleased ho
    rw [hp]
    exact h.live hi hreleased (hm ▸ ho)
  · intro i j a b type hi hj hne hor ha hb
    exact h.apart hi hj hne hor (hm ▸ ha) (hm ▸ hb)

lemma Bindings.devirtualizeAll {is : List Nat} (h : Bindings c taken released st)
    (hmanaged : ∀ i ∈ is, ∃ type, c.Managed i type) (hnodup : is.Nodup)
    (hnew : ∀ i ∈ is, i ∉ taken) (hsep : ∀ i ∈ is, ∀ j ∈ released, ¬ c.Overlap i j)
    (e : is.foldlM (c.devirtualize ctx) st = some st') : Bindings c (taken ++ is) released st' := by
  induction is generalizing taken st with
  | nil =>
    cases e
    rwa [List.append_nil]
  | cons i is ih =>
    obtain ⟨st₁, e₁, e⟩ := Option.bind_eq_some_iff.mp e
    obtain ⟨hi, hnodup⟩ := List.nodup_cons.mp hnodup
    obtain ⟨type, htype⟩ := hmanaged i (.head _)
    have h₁ := h.devirtualize htype (hnew i (.head _)) (hsep i (.head _)) e₁
    have hrest := ih h₁ (fun j hj => hmanaged j (.tail _ hj)) hnodup ?_
      (fun j hj => hsep j (.tail _ hj)) e
    · rwa [List.append_assoc] at hrest
    · intro j hj hm
      cases List.mem_append.mp hm with
      | inl hm => exact hnew j (.tail _ hj) hm
      | inr hm => exact hi (List.mem_singleton.mp hm ▸ hj)

lemma Bindings.destroyAll {is : List Nat} (h : Bindings c taken released st)
    (hmanaged : ∀ i ∈ is, ∃ type, c.Managed i type) (hnodup : is.Nodup)
    (hbound : ∀ i ∈ is, i ∉ released) (e : is.foldlM c.destroy st = some st') :
    Bindings c taken (released ++ is) st' := by
  induction is generalizing released st with
  | nil =>
    cases e
    rwa [List.append_nil]
  | cons i is ih =>
    obtain ⟨st₁, e₁, e⟩ := Option.bind_eq_some_iff.mp e
    obtain ⟨hi, hnodup⟩ := List.nodup_cons.mp hnodup
    obtain ⟨type, htype⟩ := hmanaged i (.head _)
    have h₁ := h.destroy htype (hbound i (.head _)) e₁
    have hrest := ih h₁ (fun j hj => hmanaged j (.tail _ hj)) hnodup ?_ e
    · rwa [List.append_assoc] at hrest
    · intro j hj hm
      cases List.mem_append.mp hm with
      | inl hm => exact hbound j (.tail _ hj) hm
      | inr hm => exact hi (List.mem_singleton.mp hm ▸ hj)

lemma executePass_cases {pass : CompiledPass} (e : c.executePass ctx st pass = some st') :
    ∃ st₁ memory emissions, pass.devirtualize.foldlM (c.devirtualize ctx) st = some st₁ ∧
      c.placeBarriers st₁.managed pass st₁.memory = some (memory, emissions) ∧
      (∀ lookup ∈ CompiledGraph.passLookups pass,
        (c.find st₁.managed lookup.1 lookup.2).isSome) ∧
      pass.destroy.foldlM c.destroy
        { st₁ with memory := memory, barriers := st₁.barriers ++ [emissions] } = some st' := by
  obtain ⟨st₂, e₂, e⟩ := Option.bind_eq_some_iff.mp e
  unfold CompiledGraph.runPass at e₂
  simp only [Option.bind_eq_bind, Option.bind_eq_some_iff, Option.guard_eq_some', Option.pure_def,
    Option.some.injEq] at e₂
  obtain ⟨st₁, e₁, ⟨memory, emissions⟩, hplace, _, hlookups, rfl⟩ := e₂
  exact ⟨st₁, memory, emissions, e₁, hplace, hlookups, e⟩

lemma mem_before {f : CompiledPass → List Nat} {n : Nat} :
    i ∈ (c.passes.take n).flatMap f ↔
      ∃ q pass, q < n ∧ c.passes[q]? = some pass ∧ i ∈ f pass := by
  simp only [List.mem_flatMap, List.mem_take_iff_getElem, lt_min_iff]
  constructor
  · rintro ⟨pass, ⟨q, hq, rfl⟩, hi⟩
    exact ⟨q, _, hq.1, List.getElem?_eq_getElem hq.2, hi⟩
  · rintro ⟨q, pass, hq, hpass, hi⟩
    obtain ⟨hlt, rfl⟩ := List.getElem?_eq_some_iff.mp hpass
    exact ⟨_, ⟨q, ⟨hq, hlt⟩, rfl⟩, hi⟩

lemma before_succ {f : CompiledPass → List Nat} {n : Nat} {pass : CompiledPass}
    (hn : c.passes[n]? = some pass) :
    (c.passes.take (n + 1)).flatMap f = (c.passes.take n).flatMap f ++ f pass := by
  rw [List.take_add_one, hn, List.flatMap_append]
  simp

section compiled

variable {g : Graph} (spec : g.Compiled c) {n : Nat} {pass : CompiledPass}

include spec

lemma managed_of_devirtualize (hn : c.passes[n]? = some pass) (hi : i ∈ pass.devirtualize) :
    ∃ type, c.Managed i type := by
  obtain ⟨resource, hresource, hmanaged, hkept, -⟩ := (spec.devirtualize hn).mp hi
  exact ⟨_, _, spec.kept hresource hkept, hmanaged, rfl⟩

lemma managed_of_destroy (hn : c.passes[n]? = some pass) (hi : i ∈ pass.destroy) :
    ∃ type, c.Managed i type := by
  obtain ⟨resource, hresource, hmanaged, hkept, -⟩ := (spec.destroy hn).mp hi
  exact ⟨_, _, spec.kept hresource hkept, hmanaged, rfl⟩

lemma devirtualize_unique {m : Nat} {pass' : CompiledPass} (hn : c.passes[n]? = some pass)
    (hi : i ∈ pass.devirtualize) (hm : c.passes[m]? = some pass') (hi' : i ∈ pass'.devirtualize) :
    n = m := by
  obtain ⟨_, -, -, -, hfirst⟩ := (spec.devirtualize hn).mp hi
  obtain ⟨_, -, -, -, hfirst'⟩ := (spec.devirtualize hm).mp hi'
  exact Option.some.inj (hfirst.symm.trans hfirst')

lemma destroy_unique {m : Nat} {pass' : CompiledPass} (hn : c.passes[n]? = some pass)
    (hi : i ∈ pass.destroy) (hm : c.passes[m]? = some pass') (hi' : i ∈ pass'.destroy) :
    n = m := by
  obtain ⟨resource, hresource, -, -, hlast⟩ := (spec.destroy hn).mp hi
  obtain ⟨resource', hresource', -, -, hlast'⟩ := (spec.destroy hm).mp hi'
  rw [hresource] at hresource'
  cases hresource'
  exact hlast.symm.trans hlast'

lemma not_overlap (hn : c.passes[n]? = some pass) (hi : i ∈ pass.devirtualize)
    (hj : j ∈ c.destroyedBefore n) : ¬ c.Overlap i j := by
  rintro ⟨p, ⟨⟨q, pass', hq, hpass', hi'⟩, -⟩, -, r, pass'', hr, hpass'', hj'⟩
  obtain ⟨r', pass₃, hr', hpass₃, hj⟩ := mem_before.mp hj
  obtain rfl := devirtualize_unique spec hn hi hpass' hi'
  obtain rfl := destroy_unique spec hpass'' hj' hpass₃ hj
  omega

lemma Bindings.devirtualizePass {k : Nat}
    (h : Bindings c (c.devirtualizedBefore n) (c.destroyedBefore n) st)
    (hn : c.passes[n]? = some pass)
    (e : (pass.devirtualize.take k).foldlM (c.devirtualize ctx) st = some st') :
    Bindings c (c.devirtualizedBefore n ++ pass.devirtualize.take k) (c.destroyedBefore n) st' := by
  have hmem : ∀ {i : Nat}, i ∈ pass.devirtualize.take k → i ∈ pass.devirtualize :=
    fun hi => List.mem_of_mem_take hi
  refine h.devirtualizeAll ?_ ?_ ?_ ?_ e
  · exact fun i hi => managed_of_devirtualize spec hn (hmem hi)
  · exact (spec.nodup_devirtualize pass (List.mem_of_getElem? hn)).sublist (List.take_sublist _ _)
  · intro i hi hm
    obtain ⟨q, pass', hq, hpass', hi'⟩ := mem_before.mp hm
    exact hq.ne (devirtualize_unique spec hpass' hi' hn (hmem hi))
  · exact fun i hi j hj => not_overlap spec hn (hmem hi) hj

lemma Bindings.executePass (h : Bindings c (c.devirtualizedBefore n) (c.destroyedBefore n) st)
    (hn : c.passes[n]? = some pass) (e : c.executePass ctx st pass = some st') :
    Bindings c (c.devirtualizedBefore (n + 1)) (c.destroyedBefore (n + 1)) st' := by
  obtain ⟨st₁, memory, emissions, e₁, -, -, e₂⟩ := executePass_cases e
  have h₁ := h.devirtualizePass spec (k := pass.devirtualize.length) hn (by rwa [List.take_length])
  rw [List.take_length] at h₁
  have h₂ : Bindings c _ _ { st₁ with memory := memory, barriers := st₁.barriers ++ [emissions] } :=
    h₁.congr rfl fun type => by cases type <;> rfl
  rw [CompiledGraph.devirtualizedBefore, CompiledGraph.destroyedBefore, before_succ hn,
    before_succ hn]
  refine h₂.destroyAll ?_ ?_ ?_ e₂
  · exact fun i hi => managed_of_destroy spec hn hi
  · exact spec.nodup_destroy pass (List.mem_of_getElem? hn)
  · intro i hi hm
    obtain ⟨q, pass', hq, hpass', hi'⟩ := mem_before.mp hm
    exact hq.ne (destroy_unique spec hpass' hi' hn hi)

lemma Bindings.execute {st₀ : Executor} (h : Bindings c [] [] st₀)
    (e : c.execute ctx (c.passes.take n) st₀ = some st) :
    Bindings c (c.devirtualizedBefore n) (c.destroyedBefore n) st := by
  induction n generalizing st with
  | zero =>
    cases e
    exact h
  | succ n ih =>
    cases hn : c.passes[n]? with
    | none =>
      have hle : c.passes.length ≤ n := List.getElem?_eq_none_iff.mp hn
      have htake : c.passes.take (n + 1) = c.passes.take n := by
        rw [List.take_of_length_le hle, List.take_of_length_le (hle.trans (Nat.le_succ n))]
      rw [htake] at e
      rw [CompiledGraph.devirtualizedBefore, CompiledGraph.destroyedBefore, htake]
      exact ih e
    | some pass =>
      rw [CompiledGraph.execute, List.take_add_one, hn, List.foldlM_append] at e
      obtain ⟨st₁, e₁, e⟩ := Option.bind_eq_some_iff.mp e
      obtain ⟨st₂, e₂, e⟩ := Option.bind_eq_some_iff.mp e
      cases e
      exact (ih e₁).executePass spec hn e₂

omit spec in
lemma Bindings.boundUpTo {released : List Nat} (hn : c.passes[n]? = some pass)
    (h : Bindings c (c.devirtualizedBefore n ++ pass.devirtualize) released st) :
    c.BoundUpTo n st.managed := by
  intro i
  rw [h.bound, CompiledGraph.devirtualizedBefore, ← before_succ hn, mem_before]
  simp only [Nat.lt_succ_iff]

end compiled

inductive PoolsReached : ResourcePool → ResourcePool → Prop
  | init (frames frames' : Nat) : PoolsReached (.init frames) (.init frames')
  | newFrame {textures buffers : ResourcePool} : PoolsReached textures buffers →
      PoolsReached textures.newFrame buffers.newFrame
  | execute {textures buffers : ResourcePool} {declarations : List Declaration} {g : Graph}
      {c : CompiledGraph} {ctx : ExecutorContext} {memory : Memory} {st : Executor} :
      PoolsReached textures buffers → Graph.build declarations = some g → g.compile = some c →
      c.execute ctx c.passes (.start textures buffers memory) = some st →
      PoolsReached st.texturePool st.bufferPool

lemma PoolsReached.sound {textures buffers : ResourcePool} (h : PoolsReached textures buffers) :
    textures.Sound ∧ buffers.Sound := by
  induction h with
  | init frames frames' => exact ⟨.init frames, .init frames'⟩
  | newFrame _ ih => exact ⟨ih.1.newFrame, ih.2.newFrame⟩
  | @execute _ _ _ g c _ memory _ _ hg hc e ih =>
    have v : Graph.Valid g := Graph.closed_valid.build hg
    obtain ⟨c', hc', spec⟩ := v.compile_spec
    rw [hc] at hc'
    cases hc'
    have h := Bindings.execute spec (n := c.passes.length)
      (Bindings.start (c := c) ih.1 ih.2 memory) (by rwa [List.take_length])
    exact ⟨h.sound .texture, h.sound .buffer⟩

/-- A resource is devirtualized in one pass and destroyed in one pass, and every surviving pass that uses
or attaches it lies between them. -/
structure Graph.OneInterval (g : Graph) (c : CompiledGraph) (i : Nat) : Prop where
  devirtualize : ∃! p : Nat, ∃ pass : CompiledPass, c.passes[p]? = some pass ∧ i ∈ pass.devirtualize
  destroy : ∃! p : Nat, ∃ pass : CompiledPass, c.passes[p]? = some pass ∧ i ∈ pass.destroy
  covers : ∀ p, g.Survives p → g.Uses p i ∨ g.Attaches p i → c.Covers p i

/-- In every frame, two managed resources whose intervals overlap are bound to different objects, as
soon as both are bound. -/
def CompiledGraph.NeverAliased (c : CompiledGraph) : Prop :=
  ∀ textures buffers, PoolsReached textures buffers → ∀ ctx memory n pass k st st',
    c.execute ctx (c.passes.take n) (.start textures buffers memory) = some st →
    c.passes[n]? = some pass →
    (pass.devirtualize.take k).foldlM (c.devirtualize ctx) st = some st' →
    ∀ i j type a b, c.Managed i type → c.Managed j type → i ≠ j → c.Overlap i j →
      st'.managed i = some a → st'.managed j = some b → a ≠ b

namespace Graph

variable {g : Graph} {declarations : List Declaration} {resource : ResourceNode}

lemma Compiled.oneInterval (spec : g.Compiled c) (passes : g.SoundPasses)
    (hi : g.resources[i]? = some resource) (hm : resource.manageType = .managed)
    (hkept : g.Kept i) : g.OneInterval c i := by
  have hread := ((kept_iff hi).mp hkept).resolve_left (not_not.mpr hm)
  have hcovers : ∀ q, g.Survives q → g.Uses q i → c.Covers q i := by
    intro q hq huses
    have hlasts : g.Lasts q i := ⟨hread, ⟨q, le_rfl, huses⟩, .inr ⟨q, le_rfl, huses⟩⟩
    exact ((spec.covers_iff hq.1 hi hm).mpr hlasts).2
  obtain ⟨q, hsurvives, hreads⟩ := hread
  obtain ⟨⟨a, pass, -, ha, hmem⟩, b, pass', -, hb, hmem'⟩ := hcovers q hsurvives (.inl hreads)
  constructor
  · refine ⟨a, ⟨pass, ha, hmem⟩, ?_⟩
    rintro a' ⟨pass'', ha', hmem''⟩
    exact devirtualize_unique spec ha' hmem'' ha hmem
  · refine ⟨b, ⟨pass', hb, hmem'⟩, ?_⟩
    rintro b' ⟨pass'', hb', hmem''⟩
    exact destroy_unique spec hb' hmem'' hb hmem'
  · intro q hq haccess
    cases haccess with
    | inl huses => exact hcovers q hq huses
    | inr hattaches => exact hcovers q hq (passes.uses_of_attaches hattaches)

/-- **No aliasing.** In every compiled graph, each kept managed resource is devirtualized in one pass and
destroyed in one pass, and the interval between them covers the surviving passes that use it; in every
frame, two of them whose intervals overlap are never bound to the same object of a pool. -/
theorem never_aliased (e : build declarations = some g) : ∃ c, g.compile = some c ∧
    (∀ i resource, g.resources[i]? = some resource → resource.manageType = .managed → g.Kept i →
      g.OneInterval c i) ∧ c.NeverAliased := by
  have passes : g.SoundPasses := closed_soundPasses.build e
  obtain ⟨c, hc, spec⟩ := passes.toValid.compile_spec
  refine ⟨c, hc, ?_, ?_⟩
  · exact fun i resource hi hm hkept => spec.oneInterval passes hi hm hkept
  · intro textures buffers hpools ctx memory n pass k st st' hexec hn hdevirtualize i j type a b
      hi hj hne hoverlap ha hb
    have start := Bindings.start (c := c) hpools.sound.1 hpools.sound.2 memory
    have h := (start.execute spec hexec).devirtualizePass spec hn hdevirtualize
    exact h.apart hi hj hne (.inl hoverlap) ha hb

def twoPasses : List Declaration :=
  [.declareTexture, .declareTexture, .declareTexture, .addRenderPass, .addColorAttachment 0 1,
    .addDepthAttachment 0 2, .addRenderPass, .sample 1 1, .addDepthAttachment 1 3]

/-- No texture of the two passes is aliased. -/
theorem never_aliased_twoPasses : ∃ g, build twoPasses = some g ∧ ∃ c, g.compile = some c ∧
    (∀ i resource, g.resources[i]? = some resource → resource.manageType = .managed → g.Kept i →
      g.OneInterval c i) ∧ c.NeverAliased := by
  obtain ⟨g, hg⟩ : ∃ g, build twoPasses = some g := ⟨_, rfl⟩
  exact ⟨g, hg, never_aliased hg⟩

end Graph

end PulseEngine.RenderGraph
