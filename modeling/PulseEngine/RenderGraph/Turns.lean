import PulseEngine.RenderGraph.Barriers
import PulseEngine.RenderGraph.Lookup

/-!
# Runs of the executor

What a turn of the loop of `Executor::Execute`, and a run of it over some passes, does to the pointers and
to the tracked states of what was created: devirtualizing and destroying leave the states, and every
pass tracks what it requests.
-/

namespace PulseEngine.RenderGraph

open Library

/-- The tracked states of a memory make sense: the textures whose flag is set are in one state, and the
others have states. -/
structure Memory.Sound (m : Memory) : Prop where
  consistent : m.Consistent
  filled : ∀ texture, (m.textures texture).statesConsistent = false →
    (m.textures texture).curStates ≠ []

def Executor.Created (st : Executor) : Location → Prop
  | .texture (.pooled object) _ => object < st.texturePool.created.length
  | .buffer (.pooled object) => object < st.bufferPool.created.length
  | _ => True

def Extends (managed managed' : Nat → Option Nat) : Prop :=
  ∀ i object, managed i = some object → managed' i = some object

structure Quiet (st st' : Executor) : Prop where
  barriers : st'.barriers = st.barriers
  sound : st.memory.Sound → st'.memory.Sound
  created : ∀ {ℓ : Location}, st.Created ℓ → st'.Created ℓ
  state : ∀ {ℓ : Location}, st.Created ℓ → st'.memory.state ℓ = st.memory.state ℓ

variable {c : CompiledGraph} {ctx : ExecutorContext} {st st' st'' : Executor} {i : Nat}
  {m m' : Memory} {managed managed' : Nat → Option Nat} {ℓ : Location} {emissions : List Emission}

lemma Quiet.refl (st : Executor) : Quiet st st := ⟨rfl, id, id, fun _ => rfl⟩

lemma Quiet.trans (h : Quiet st st') (h' : Quiet st' st'') : Quiet st st'' where
  barriers := h'.barriers.trans h.barriers
  sound hs := h'.sound (h.sound hs)
  created hℓ := h'.created (h.created hℓ)
  state hℓ := (h'.state (h.created hℓ)).trans (h.state hℓ)

lemma Memory.Sound.setTexture (h : m.Sound) {texture : Physical} {data : TextureData}
    (hequal : data.statesConsistent → ∀ s ∈ data.curStates, ∀ s' ∈ data.curStates, s = s')
    (hfilled : data.statesConsistent = false → data.curStates ≠ []) :
    (m.setTexture texture data).Sound := by
  refine ⟨h.consistent.setTexture hequal, ?_⟩
  intro other
  by_cases ho : other = texture
  · rw [ho, Memory.setTexture_textures]
    exact hfilled
  · rw [Memory.setTexture_of_ne m data ho]
    exact h.filled other

lemma Executor.Created.mono (hℓ : st.Created ℓ)
    (ht : st.texturePool.created.length ≤ st'.texturePool.created.length)
    (hb : st.bufferPool.created.length ≤ st'.bufferPool.created.length) : st'.Created ℓ := by
  match ℓ with
  | .texture (.pooled _) _ => exact lt_of_lt_of_le hℓ ht
  | .texture (.imported _) _ => trivial
  | .buffer (.pooled _) => exact lt_of_lt_of_le hℓ hb
  | .buffer (.imported _) => trivial

lemma created_getResource (pool : ResourcePool) (descriptor choice : Nat) :
    pool.created.length ≤ (pool.getResource descriptor choice).1.created.length := by
  rw [ResourcePool.getResource]
  split
  · simp
  · exact le_rfl

lemma quiet_devirtualize (e : c.devirtualize ctx st i = some st') : Quiet st st' := by
  unfold CompiledGraph.devirtualize at e
  simp only [Option.bind_eq_bind, Option.bind_eq_some_iff, Option.pure_def] at e
  obtain ⟨resource, hresource, e⟩ := e
  split at e
  · cases e
    exact .refl st
  · cases htype : resource.resourceType with
    | texture =>
      simp only [htype, Option.some.injEq] at e
      subst e
      have hcreated := created_getResource st.texturePool (ctx.textureDescriptor i) (ctx.choice i)
      refine ⟨rfl, ?_, ?_, ?_⟩
      · intro hs
        dsimp only
        split
        · refine hs.setTexture ?_ (by rintro ⟨⟩)
          intro _ s hm s' hm'
          rw [List.eq_of_mem_replicate hm, List.eq_of_mem_replicate hm']
        · exact hs
      · exact fun hℓ => hℓ.mono hcreated le_rfl
      · intro ℓ hℓ
        dsimp only
        split
        · rename_i hnew
          refine Memory.state_setTexture _ _ ?_
          rintro entry rfl
          exact absurd (show _ < _ from hℓ) (by rw [hnew]; exact lt_irrefl _)
        · rfl
    | buffer =>
      simp only [htype, Option.some.injEq] at e
      subst e
      have hcreated := created_getResource st.bufferPool (ctx.bufferDescriptor i) (ctx.choice i)
      refine ⟨rfl, ?_, ?_, ?_⟩
      · intro hs
        dsimp only
        split
        · exact ⟨hs.consistent, hs.filled⟩
        · exact hs
      · exact fun hℓ => hℓ.mono le_rfl hcreated
      · intro ℓ hℓ
        dsimp only
        split
        · rename_i hnew
          cases ℓ with
          | texture texture entry => rfl
          | buffer buffer =>
            refine congrArg some (Function.update_of_ne ?_ ..)
            rintro rfl
            exact absurd (show _ < _ from hℓ) (by rw [hnew]; exact lt_irrefl _)
        · rfl

lemma quiet_destroy (e : c.destroy st i = some st') : Quiet st st' ∧ st'.managed = st.managed ∧
    st'.memory = st.memory := by
  unfold CompiledGraph.destroy at e
  simp only [Option.bind_eq_bind, Option.bind_eq_some_iff, Option.pure_def] at e
  obtain ⟨resource, hresource, e⟩ := e
  split at e
  · cases e
    exact ⟨.refl st, rfl, rfl⟩
  · simp only [Option.bind_eq_some_iff] at e
    obtain ⟨object, hobject, e⟩ := e
    cases htype : resource.resourceType with
    | texture =>
      simp only [htype, Option.bind_eq_some_iff, Option.some.injEq] at e
      obtain ⟨pool, hpool, rfl⟩ := e
      obtain ⟨_, -, rfl⟩ := Option.map_eq_some_iff.mp hpool
      exact ⟨⟨rfl, id, fun hℓ => hℓ.mono le_rfl le_rfl, fun _ => rfl⟩, rfl, rfl⟩
    | buffer =>
      simp only [htype, Option.bind_eq_some_iff, Option.some.injEq] at e
      obtain ⟨pool, hpool, rfl⟩ := e
      obtain ⟨_, -, rfl⟩ := Option.map_eq_some_iff.mp hpool
      exact ⟨⟨rfl, id, fun hℓ => hℓ.mono le_rfl le_rfl, fun _ => rfl⟩, rfl, rfl⟩

lemma quiet_devirtualizeAll {is : List Nat} (e : is.foldlM (c.devirtualize ctx) st = some st') :
    Quiet st st' := by
  induction is generalizing st with
  | nil =>
    cases e
    exact .refl _
  | cons i is ih =>
    obtain ⟨st₁, e₁, e⟩ := Option.bind_eq_some_iff.mp e
    exact (quiet_devirtualize e₁).trans (ih e)

lemma quiet_destroyAll {is : List Nat} (e : is.foldlM c.destroy st = some st') :
    Quiet st st' ∧ st'.managed = st.managed ∧ st'.memory = st.memory := by
  induction is generalizing st with
  | nil =>
    cases e
    exact ⟨.refl _, rfl, rfl⟩
  | cons i is ih =>
    obtain ⟨st₁, e₁, e⟩ := Option.bind_eq_some_iff.mp e
    obtain ⟨hquiet₁, hmanaged₁, hmemory₁⟩ := quiet_destroy e₁
    obtain ⟨hquiet, hmanaged, hmemory⟩ := ih e
    exact ⟨hquiet₁.trans hquiet, hmanaged.trans hmanaged₁, hmemory.trans hmemory₁⟩

lemma filled_placeTexture (hs : m.Sound) {texture : Physical} {mipCount : Nat}
    {usage : ResourceState} (e : m.placeTexture texture mipCount usage = some (m', emissions))
    (other : Physical) (hflag : (m'.textures other).statesConsistent = false) :
    (m'.textures other).curStates ≠ [] := by
  have hwritten : ∀ data : TextureData, data.statesConsistent = true →
      m' = m.setTexture texture data → (m'.textures other).curStates ≠ [] := by
    rintro data hdata rfl
    by_cases ho : other = texture
    · rw [ho, Memory.setTexture_textures, hdata] at hflag
      cases hflag
    · rw [Memory.setTexture_of_ne m data ho] at hflag ⊢
      exact hs.filled other hflag
  unfold Memory.placeTexture at e
  dsimp only at e
  split at e
  · simp only [Option.bind_eq_bind, Option.bind_eq_some_iff, Option.pure_def] at e
    obtain ⟨cur, -, e⟩ := e
    split at e
    · cases e
      exact hwritten _ rfl rfl
    · cases e
      exact hwritten _ rfl rfl
  · simp only [Option.bind_eq_bind, Option.bind_eq_some_iff, Option.pure_def, Option.some.injEq,
      Prod.mk.injEq] at e
    obtain ⟨⟨m₁, es₁⟩, e₁, rfl, rfl⟩ := e
    obtain ⟨rfl, -, -⟩ := Memory.placeEntries_spec e₁ le_rfl
    exact hwritten _ rfl (Memory.setTexture_setTexture ..)

lemma filled_placeSubresource (hs : m.Sound) {texture : Physical} {resource : CompiledResource}
    {usage : ResourceState}
    (e : m.placeSubresource texture resource usage = some (m', emissions)) (other : Physical)
    (hflag : (m'.textures other).statesConsistent = false) : (m'.textures other).curStates ≠ [] := by
  unfold Memory.placeSubresource at e
  simp only [Option.bind_eq_bind, Option.bind_eq_some_iff, Option.pure_def] at e
  obtain ⟨cur, hcur, e⟩ := e
  split at e
  · cases e
    by_cases ho : other = texture
    · rw [ho, Memory.setTexture_textures]
      intro hnil
      rw [List.set_eq_nil_iff] at hnil
      rw [hnil] at hcur
      cases hcur
    · rw [Memory.setTexture_of_ne m _ ho] at hflag ⊢
      exact hs.filled other hflag
  · cases e
    exact hs.filled other hflag

lemma textures_placeBuffer (m : Memory) (buffer : Physical) (usage : ResourceState) :
    (m.placeBuffer buffer usage).1.textures = m.textures := by
  unfold Memory.placeBuffer
  split <;> rfl

lemma placeBarrier_sound {edge : CompiledEdge} (hs : m.Sound)
    (e : c.placeBarrier managed m edge = some (m', emissions)) :
    m'.Sound ∧ (edge.usage ≠ .undefined → ∃ resource physical, c.resources[edge.index]? = some resource ∧
      c.find managed resource.resourceType edge.index = some physical) := by
  obtain ⟨-, hconsistent, -⟩ := CompiledGraph.placeBarrier_spec hs.consistent e
  unfold CompiledGraph.placeBarrier at e
  simp only [Option.bind_eq_bind, Option.bind_eq_some_iff] at e
  obtain ⟨resource, hresource, e⟩ := e
  split at e
  · rename_i hu
    cases e
    exact ⟨hs, fun hne => absurd hu hne⟩
  · simp only [Option.bind_eq_some_iff] at e
    obtain ⟨physical, hphysical, e⟩ := e
    refine ⟨⟨hconsistent, ?_⟩, fun _ => ⟨resource, physical, hresource, hphysical⟩⟩
    cases htype : resource.resourceType with
    | texture =>
      simp only [htype] at e
      split at e
      · exact filled_placeTexture hs e
      · exact filled_placeSubresource hs e
    | buffer =>
      simp only [htype, Option.pure_def, Option.some.injEq] at e
      have hsame := textures_placeBuffer m physical edge.usage
      rw [e] at hsame
      rw [show m'.textures = m.textures from hsame]
      exact hs.filled

lemma placeEdges_sound {edges : List CompiledEdge} (hs : m.Sound)
    (e : c.placeEdges managed edges m = some (m', emissions)) :
    m'.Sound ∧ ∀ edge ∈ edges, edge.usage ≠ .undefined → ∃ resource physical,
      c.resources[edge.index]? = some resource ∧
        c.find managed resource.resourceType edge.index = some physical := by
  induction edges generalizing m emissions with
  | nil =>
    cases e
    exact ⟨hs, nofun⟩
  | cons edge edges ih =>
    simp only [CompiledGraph.placeEdges, Option.bind_eq_bind, Option.bind_eq_some_iff,
      Option.pure_def, Option.some.injEq, Prod.mk.injEq] at e
    obtain ⟨⟨m₁, es₁⟩, e₁, ⟨m₂, es₂⟩, e₂, rfl, rfl⟩ := e
    obtain ⟨hs₁, hfound₁⟩ := placeBarrier_sound hs e₁
    obtain ⟨hs₂, hfound₂⟩ := ih hs₁ e₂
    refine ⟨hs₂, ?_⟩
    intro edge' hedge
    cases hedge with
    | head => exact hfound₁
    | tail _ hedge => exact hfound₂ edge' hedge

lemma find_extends (h : Extends managed managed') {type : ResourceType} {physical : Physical}
    (hf : c.find managed type i = some physical) : c.find managed' type i = some physical := by
  cases type with
  | texture =>
    simp only [CompiledGraph.find, CompiledGraph.getTexture, Option.bind_eq_bind,
      Option.bind_eq_some_iff] at hf ⊢
    obtain ⟨resource, hresource, _, hguard, hf⟩ := hf
    refine ⟨resource, hresource, _, hguard, ?_⟩
    cases hm : resource.manageType with
    | managed =>
      simp only [hm, Option.map_eq_some_iff] at hf ⊢
      obtain ⟨object, hobject, rfl⟩ := hf
      exact ⟨object, h i object hobject, rfl⟩
    | imported => simpa only [hm] using hf
    | subResource =>
      simp only [hm, Option.bind_eq_some_iff] at hf ⊢
      obtain ⟨parent, hparent, _, hguard', hf⟩ := hf
      refine ⟨parent, hparent, _, hguard', ?_⟩
      split at hf
      · obtain ⟨object, hobject, rfl⟩ := Option.map_eq_some_iff.mp hf
        rw [if_pos ‹_›, h _ object hobject]
        rfl
      · rwa [if_neg ‹_›]
  | buffer =>
    simp only [CompiledGraph.find, CompiledGraph.getBuffer, Option.bind_eq_bind,
      Option.bind_eq_some_iff] at hf ⊢
    obtain ⟨resource, hresource, _, hguard, hf⟩ := hf
    refine ⟨resource, hresource, _, hguard, ?_⟩
    split at hf
    · obtain ⟨object, hobject, rfl⟩ := Option.map_eq_some_iff.mp hf
      rw [if_pos ‹_›, h i object hobject]
      rfl
    · rwa [if_neg ‹_›]

lemma requests_extends {edges : List CompiledEdge} (h : Extends managed managed')
    (hfound : ∀ edge ∈ edges, edge.usage ≠ .undefined → ∃ resource physical,
      c.resources[edge.index]? = some resource ∧
        c.find managed resource.resourceType edge.index = some physical) :
    c.requests managed edges ℓ = c.requests managed' edges ℓ := by
  rw [CompiledGraph.requests, CompiledGraph.requests]
  congr 1
  apply List.filter_congr
  intro edge hedge
  by_cases hu : edge.usage = .undefined
  · simp [CompiledGraph.Touches, hu]
  · obtain ⟨resource, physical, hresource, hf⟩ := hfound edge hedge hu
    simp [CompiledGraph.Touches, hresource, hf, find_extends h hf]

def CompiledGraph.requestsBetween (c : CompiledGraph) (managed : Nat → Option Nat) (a b : Nat)
    (ℓ : Location) : List ResourceState :=
  ((c.passes.take b).drop a).flatMap fun pass => c.requests managed (pass.reads ++ pass.writes) ℓ

/-- What the turn of the loop of `Executor::Execute` does to the tracked states. -/
structure Turn (c : CompiledGraph) (pass : CompiledPass) (st st' : Executor) : Prop where
  sound : st'.memory.Sound
  created : ∀ {ℓ : Location}, st.Created ℓ → st'.Created ℓ
  lookups : ∀ lookup ∈ CompiledGraph.passLookups pass,
    (c.find st'.managed lookup.1 lookup.2).isSome
  found : ∀ edge ∈ pass.reads ++ pass.writes, edge.usage ≠ .undefined → ∃ resource physical,
    c.resources[edge.index]? = some resource ∧
      c.find st'.managed resource.resourceType edge.index = some physical
  tracks : ∃ m emissions, m.Sound ∧ st'.barriers = st.barriers ++ [emissions] ∧
    (∀ ℓ, st.Created ℓ → m.state ℓ = st.memory.state ℓ) ∧
    c.placeBarriers st'.managed pass m = some (st'.memory, emissions) ∧
    Tracks m st'.memory emissions (c.requests st'.managed (pass.reads ++ pass.writes))

lemma executePass_turn {pass : CompiledPass} (hs : st.memory.Sound)
    (e : c.executePass ctx st pass = some st') : Turn c pass st st' := by
  obtain ⟨st₁, memory, emissions, e₁, hplace, hlookups, e₂⟩ := executePass_cases e
  have hquiet₁ := quiet_devirtualizeAll e₁
  obtain ⟨hquiet₂, hmanaged, hmemory⟩ := quiet_destroyAll e₂
  have hs₁ := hquiet₁.sound hs
  obtain ⟨hs₂, hfound⟩ := placeEdges_sound hs₁ hplace
  obtain ⟨htracks, -, -⟩ := CompiledGraph.placeEdges_spec hs₁.consistent hplace
  constructor
  · rw [hmemory]
    exact hs₂
  · intro ℓ hℓ
    exact hquiet₂.created ((hquiet₁.created hℓ).mono le_rfl le_rfl)
  · rw [hmanaged]
    exact hlookups
  · rw [hmanaged]
    exact hfound
  · rw [hmanaged, hmemory]
    refine ⟨st₁.memory, emissions, hs₁, ?_, fun ℓ hℓ => hquiet₁.state hℓ, hplace, htracks⟩
    rw [hquiet₂.barriers]
    show st₁.barriers ++ [emissions] = _
    rw [hquiet₁.barriers]

lemma execute_succ {n : Nat} {pass : CompiledPass} {st₀ : Executor}
    (hn : c.passes[n]? = some pass) :
    c.execute ctx (c.passes.take (n + 1)) st₀ = some st' ↔
      ∃ st, c.execute ctx (c.passes.take n) st₀ = some st ∧ c.executePass ctx st pass = some st' := by
  rw [CompiledGraph.execute, List.take_add_one, hn, List.foldlM_append]
  simp only [Option.toList_some, List.foldlM_cons, List.foldlM_nil, Option.bind_eq_bind,
    Option.pure_def, Option.bind_eq_some_iff, Option.some.injEq, exists_eq_right]
  rfl

lemma managed_devirtualizeAll {is : List Nat} {j : Nat} (hj : j ∉ is)
    (e : is.foldlM (c.devirtualize ctx) st = some st') : st'.managed j = st.managed j := by
  induction is generalizing st with
  | nil =>
    cases e
    rfl
  | cons i is ih =>
    obtain ⟨st₁, e₁, e⟩ := Option.bind_eq_some_iff.mp e
    rw [List.mem_cons, not_or] at hj
    rw [ih hj.2 e]
    unfold CompiledGraph.devirtualize at e₁
    simp only [Option.bind_eq_bind, Option.bind_eq_some_iff, Option.pure_def] at e₁
    obtain ⟨resource, -, e₁⟩ := e₁
    split at e₁
    · cases e₁
      rfl
    · cases htype : resource.resourceType with
      | texture =>
        simp only [htype, Option.some.injEq] at e₁
        subst e₁
        exact Function.update_of_ne hj.1 ..
      | buffer =>
        simp only [htype, Option.some.injEq] at e₁
        subst e₁
        exact Function.update_of_ne hj.1 ..

/-- What a run of the executor from one pass to before another does to the pointers and to the tracked
states of what was created. -/
structure Between (c : CompiledGraph) (a b : Nat) (st st' : Executor)
    (more : List (List Emission)) : Prop where
  pointers : Extends st.managed st'.managed
  barriers : st'.barriers = st.barriers ++ more
  length : more.length = b - a
  created : ∀ {ℓ : Location}, st.Created ℓ → st'.Created ℓ
  absent : ∀ {ℓ : Location}, st.Created ℓ → st.memory.state ℓ = none → st'.memory.state ℓ = none
  state : ∀ {managed : Nat → Option Nat} {ℓ : Location} {s : ResourceState},
    Extends st'.managed managed → st.Created ℓ → st.memory.state ℓ = some s →
      st'.memory.state ℓ = some (tracked s (c.requestsBetween managed a b ℓ))
  emitted : ∀ {managed : Nat → Option Nat} {ℓ : Location} {s : ResourceState},
    Extends st'.managed managed → st.Created ℓ → st.memory.state ℓ = some s →
      ((∃ emissions ∈ more, ∃ emission ∈ emissions, emission.Covers ℓ) ↔
        emits ℓ.forces s (c.requestsBetween managed a b ℓ) = true)

lemma Extends.trans {managed'' : Nat → Option Nat} (h : Extends managed managed')
    (h' : Extends managed' managed'') : Extends managed managed'' :=
  fun i object hi => h' i object (h i object hi)

lemma requestsBetween_succ {a n : Nat} {pass : CompiledPass} (han : a ≤ n)
    (hn : c.passes[n]? = some pass) : c.requestsBetween managed a (n + 1) ℓ =
      c.requestsBetween managed a n ℓ ++ c.requests managed (pass.reads ++ pass.writes) ℓ := by
  have hlt := (List.getElem?_eq_some_iff.mp hn).1
  rw [CompiledGraph.requestsBetween, List.take_add_one, hn,
    List.drop_append_of_le_length (by rw [List.length_take]; omega), List.flatMap_append]
  simp [CompiledGraph.requestsBetween]

section compiled

variable {g : Graph} (spec : g.Compiled c) {a n : Nat} {st₀ : Executor}

include spec

lemma executePass_extends {pass : CompiledPass} (start : Bindings c [] [] st₀)
    (hn : c.passes[n]? = some pass) (e : c.execute ctx (c.passes.take n) st₀ = some st)
    (e' : c.executePass ctx st pass = some st') : Extends st.managed st'.managed := by
  intro i object hi
  have h := start.execute spec e
  obtain ⟨st₁, memory, emissions, e₁, -, -, e₂⟩ := executePass_cases e'
  have hbefore : i ∈ c.devirtualizedBefore n := (h.bound i).mp (by rw [hi]; rfl)
  have hnew : i ∉ pass.devirtualize := by
    intro hm
    obtain ⟨q, pass', hq, hpass', hm'⟩ := mem_before.mp hbefore
    exact hq.ne (devirtualize_unique spec hpass' hm' hn hm)
  rw [(quiet_destroyAll e₂).2.1]
  exact (managed_devirtualizeAll hnew e₁).trans hi

omit spec in
lemma execute_sound (hs : st₀.memory.Sound) (hn : n ≤ c.passes.length)
    (e : c.execute ctx (c.passes.take n) st₀ = some st) : st.memory.Sound := by
  induction n generalizing st with
  | zero =>
    cases e
    exact hs
  | succ n ih =>
    obtain ⟨st₁, e₁, e⟩ := (execute_succ (List.getElem?_eq_getElem hn)).mp e
    exact (executePass_turn (ih (Nat.le_of_succ_le hn) e₁) e).sound

lemma execute_between (start : Bindings c [] [] st₀) (hs : st₀.memory.Sound) (han : a ≤ n)
    (hn : n ≤ c.passes.length) (ea : c.execute ctx (c.passes.take a) st₀ = some st)
    (en : c.execute ctx (c.passes.take n) st₀ = some st') :
    ∃ more, Between c a n st st' more := by
  induction n, han using Nat.le_induction generalizing st' with
  | base =>
    rw [ea] at en
    cases en
    have hnone : ∀ managed ℓ, c.requestsBetween managed a a ℓ = [] := by
      intro managed ℓ
      simp [CompiledGraph.requestsBetween]
    refine ⟨[], fun _ _ => id, (List.append_nil _).symm, (Nat.sub_self a).symm, id, fun _ => id, ?_, ?_⟩
    · intro managed ℓ s _ _ h
      rwa [hnone, tracked_nil]
    · intro managed ℓ s _ _ _
      rw [hnone]
      exact iff_of_false nofun nofun
  | succ n han ih =>
    have hpass : c.passes[n]? = some c.passes[n] := List.getElem?_eq_getElem hn
    obtain ⟨st₁, e₁, e⟩ := (execute_succ hpass).mp en
    obtain ⟨more, h⟩ := ih (Nat.le_of_succ_le hn) e₁
    have hturn := executePass_turn (execute_sound hs (Nat.le_of_succ_le hn) e₁) e
    have hextends := executePass_extends spec start hpass e₁ e
    obtain ⟨m, emissions, -, hbarriers, hbefore, -, htracks⟩ := hturn.tracks
    have hrequests : ∀ {managed : Nat → Option Nat} {ℓ : Location}, Extends st'.managed managed →
        c.requestsBetween managed a (n + 1) ℓ = c.requestsBetween managed a n ℓ ++
          c.requests st'.managed (c.passes[n].reads ++ c.passes[n].writes) ℓ := by
      intro managed ℓ hm
      rw [requestsBetween_succ han hpass, requests_extends hm hturn.found]
    refine ⟨more ++ [emissions], h.pointers.trans hextends, ?_, ?_, ?_, ?_, ?_, ?_⟩
    · rw [hbarriers, h.barriers, List.append_assoc]
    · rw [List.length_append, h.length, List.length_singleton]
      omega
    · exact fun hℓ => hturn.created (h.created hℓ)
    · intro ℓ hℓ hnone
      exact htracks.absent ((hbefore ℓ (h.created hℓ)).trans (h.absent hℓ hnone))
    · intro managed ℓ s hm hℓ hstate
      rw [hrequests hm, tracked_append]
      exact htracks.state ((hbefore ℓ (h.created hℓ)).trans (h.state (hextends.trans hm) hℓ hstate))
    · intro managed ℓ s hm hℓ hstate
      have hstate₁ := (hbefore ℓ (h.created hℓ)).trans (h.state (hextends.trans hm) hℓ hstate)
      rw [hrequests hm, emits_append, Bool.or_eq_true, ← h.emitted (hextends.trans hm) hℓ hstate,
        ← htracks.emitted hstate₁]
      simp only [List.mem_append, List.mem_singleton, or_and_right, exists_or, exists_eq_left]

lemma execute_barriers_length (start : Bindings c [] [] st₀) (hs : st₀.memory.Sound)
    (hb : st₀.barriers = []) (hn : n ≤ c.passes.length)
    (e : c.execute ctx (c.passes.take n) st₀ = some st) : st.barriers.length = n := by
  obtain ⟨more, h⟩ := execute_between spec start hs (Nat.zero_le n) hn rfl e
  rw [h.barriers, hb, List.nil_append, h.length, Nat.sub_zero]

omit spec in
lemma execute_prefix (han : a ≤ n) (e : c.execute ctx (c.passes.take n) st₀ = some st) :
    ∃ st₁, c.execute ctx (c.passes.take a) st₀ = some st₁ := by
  have hsplit := List.take_append_drop a (c.passes.take n)
  rw [List.take_take, min_eq_left han] at hsplit
  rw [← hsplit, CompiledGraph.execute, List.foldlM_append] at e
  obtain ⟨st₁, e₁, -⟩ := Option.bind_eq_some_iff.mp e
  exact ⟨st₁, e₁⟩

end compiled

end PulseEngine.RenderGraph
