import PulseEngine.Graphics.AddressKeys
import PulseEngine.Graphics.Conservation

/-!
# What the caches return is not stale

As long as no object is put where a key of a pool still points, everything that the pools return was
built from what is there (`caches_fresh`). A framebuffer is destroyed before its views and its render
pass, and a pipeline not after its render pass, so that the addresses of these need no condition
(`Context.Sound`).
-/

namespace PulseEngine.Graphics

open Library

namespace Cache

variable {D R : Type*} {cache cache' : Cache D R} {same : D → D → Bool} {descriptor : D}
  {object : R} {r : ℕ}

structure Good (cache : Cache D R) : Prop where
  made : ∀ e ∈ cache.pool.resources, ∃ m, cache.Held e m ∧ m.descriptor = e.key
  distinct : (cache.pool.resources.map (·.resource)).Nodup
  stamps : ∀ e ∈ cache.pool.resources, e.stamp ≤ cache.pool.timestamp

lemma good_init (frames : ℕ) : (init frames : Cache D R).Good :=
  ⟨fun _ mem => absurd mem List.not_mem_nil, List.nodup_nil,
    fun _ mem => absurd mem List.not_mem_nil⟩

lemma Good.key (good : cache.Good) {e : PoolEntry D} {m : Created D R} (held : cache.Held e m) :
    m.descriptor = e.key := by
  obtain ⟨m', held', key⟩ := good.made e held.mem
  have eq : m = m' := Option.some.inj (held.was.symm.trans held'.was)
  rw [eq, key]

lemma Held.lt {e : PoolEntry D} {m : Created D R} (held : cache.Held e m) :
    e.resource < cache.created.length :=
  (List.getElem?_eq_some_iff.mp held.was).1

/-- What `getResource` does to a cache: it found `m` for the key, or made it. -/
structure Gets (same : D → D → Bool) (descriptor : D) (object : R) (cache cache' : Cache D R)
    (r : ℕ) : Prop where
  good : cache'.Good
  time : cache'.pool.timestamp = cache.pool.timestamp
  limit : cache'.pool.frameBeforeOutOfData = cache.pool.frameBeforeOutOfData
  here : ∃ e m, cache'.Held e m ∧ e.resource = r ∧ e.stamp = cache.pool.timestamp
    ∧ ((cache'.created.length ≠ cache.created.length ∧ m = ⟨descriptor, object⟩)
      ∨ (same m.descriptor descriptor = true ∧ ∃ e₀, cache.Held e₀ m ∧ e₀.resource = r))
  back : ∀ e m, cache'.Held e m →
    (e.resource = r ∧ e.stamp = cache.pool.timestamp ∨ cache.Held e m)
      ∧ ((∃ e₀, cache.Held e₀ m ∧ e₀.resource = e.resource)
        ∨ (cache'.created.length ≠ cache.created.length ∧ m = ⟨descriptor, object⟩
          ∧ e.resource = cache.created.length))
  kept : ∀ e m, cache.Held e m → ∃ e', cache'.Held e' m ∧ e'.resource = e.resource
    ∧ e.stamp ≤ e'.stamp
  created : ∀ (i : ℕ) (m : Created D R), cache.created[i]? = some m → cache'.created[i]? = some m

lemma gets_found (good : cache.Good) {i : Fin cache.pool.resources.length}
    (found : same cache.pool.resources[i].key descriptor = true) :
    Gets same descriptor object cache ⟨cache.pool.hand keeping i, cache.created⟩
      cache.pool.resources[i].resource := by
  let now := { cache.pool.resources[i] with stamp := cache.pool.timestamp }
  have mem : cache.pool.resources[i] ∈ cache.pool.resources := List.getElem_mem i.isLt
  obtain ⟨m, held, key⟩ := good.made _ mem
  have new : now ∈ (cache.pool.hand keeping i).resources := List.mem_set i.isLt _
  have from_set : ∀ e ∈ (cache.pool.hand keeping i).resources,
      e ∈ cache.pool.resources ∨ e = now := fun e here => List.mem_or_eq_of_mem_set here
  have pairs := @ResourcePool.hand_keep _ keeping cache.pool rfl i
  refine ⟨⟨?_, ?_, ?_⟩, rfl, rfl, ?_, ?_, ?_, fun _ _ was => was⟩
  · intro e here
    rcases from_set e here with old | rfl
    · obtain ⟨m', held', key'⟩ := good.made e old
      exact ⟨m', ⟨here, held'.was⟩, key'⟩
    · exact ⟨m, ⟨here, held.was⟩, key⟩
  · have resources := congrArg (List.map (·.2)) pairs
    rw [List.map_map, List.map_map] at resources
    exact resources ▸ good.distinct
  · intro e here
    rcases from_set e here with old | rfl
    · exact good.stamps e old
    · exact le_rfl
  · exact ⟨now, m, ⟨new, held.was⟩, rfl, rfl, .inr ⟨by rw [key]; exact found, _, held, rfl⟩⟩
  · intro e m' held'
    rcases from_set e held'.mem with old | rfl
    · exact ⟨.inr ⟨old, held'.was⟩, .inl ⟨e, ⟨old, held'.was⟩, rfl⟩⟩
    · exact ⟨.inl ⟨rfl, rfl⟩, .inl ⟨_, ⟨mem, held'.was⟩, rfl⟩⟩
  · intro e m' held'
    obtain ⟨j, below, rfl⟩ := List.mem_iff_getElem.mp held'.mem
    rcases eq_or_ne (i : ℕ) j with eq | ne
    · refine ⟨now, ⟨new, ?_⟩, ?_, good.stamps _ held'.mem⟩
      · show cache.created[cache.pool.resources[i].resource]? = some m'
        simpa only [Fin.getElem_fin, eq] using held'.was
      · show cache.pool.resources[i].resource = _
        simp only [Fin.getElem_fin, eq]
    · refine ⟨_, ⟨?_, held'.was⟩, rfl, le_rfl⟩
      have still := List.getElem_set_ne (a := now) ne
        (by rw [List.length_set]; exact below : j < (cache.pool.resources.set i now).length)
      rw [← still]
      exact List.getElem_mem _

lemma gets_made (good : cache.Good) :
    Gets same descriptor object cache
      ⟨cache.pool.insert descriptor cache.created.length,
        cache.created ++ [⟨descriptor, object⟩]⟩ cache.created.length := by
  have longer : (cache.created ++ [(⟨descriptor, object⟩ : Created D R)]).length
      ≠ cache.created.length := by
    rw [List.length_append]
    exact Nat.succ_ne_self _
  have keeps : ∀ {e m}, cache.Held e m →
      (cache.created ++ [(⟨descriptor, object⟩ : Created D R)])[e.resource]? = some m :=
    fun held => (List.getElem?_append_left held.lt).trans held.was
  have new : (cache.created ++ [(⟨descriptor, object⟩ : Created D R)])[cache.created.length]?
      = some ⟨descriptor, object⟩ := List.getElem?_concat_length
  refine ⟨⟨?_, ?_, ?_⟩, rfl, rfl, ?_, ?_, ?_, fun i m was => ?_⟩
  · intro e here
    rcases List.mem_cons.mp here with rfl | old
    · exact ⟨_, ⟨here, new⟩, rfl⟩
    · obtain ⟨m, held, key⟩ := good.made e old
      exact ⟨m, ⟨here, keeps held⟩, key⟩
  · refine List.nodup_cons.mpr ⟨fun here => ?_, good.distinct⟩
    obtain ⟨e, old, eq⟩ := List.mem_map.mp here
    obtain ⟨m, held, -⟩ := good.made e old
    exact absurd eq held.lt.ne
  · intro e here
    rcases List.mem_cons.mp here with rfl | old
    · exact le_rfl
    · exact good.stamps e old
  · exact ⟨_, _, ⟨List.mem_cons_self, new⟩, rfl, rfl, .inl ⟨longer, rfl⟩⟩
  · intro e m held
    rcases List.mem_cons.mp held.mem with rfl | old
    · exact ⟨.inl ⟨rfl, rfl⟩, .inr ⟨longer, Option.some.inj (held.was.symm.trans new), rfl⟩⟩
    · obtain ⟨m', held', -⟩ := good.made e old
      have eq : m = m' := Option.some.inj (held.was.symm.trans (keeps held'))
      rw [eq]
      exact ⟨.inr held', .inl ⟨e, held', rfl⟩⟩
  · intro e m held
    exact ⟨e, ⟨List.mem_cons_of_mem _ held.mem, keeps held⟩, rfl, le_rfl⟩
  · exact (List.getElem?_append_left (List.getElem?_eq_some_iff.mp was).1).trans was

lemma get_spec (good : cache.Good) (h : cache.get same descriptor object = some (cache', r)) :
    Gets same descriptor object cache cache' r := by
  let _ : BEq D := ⟨same⟩
  simp only [get, Chain.getResource] at h
  split at h
  · rename_i i found
    cases h
    exact gets_found good (ResourcePool.find_key found)
  · cases h
    exact gets_made good

/-- What `newFrame` does to a cache: it keeps what was used. -/
structure Ages (cache cache' : Cache D R) : Prop where
  good : cache'.Good
  time : cache'.pool.timestamp = cache.pool.timestamp + 1
  limit : cache'.pool.frameBeforeOutOfData = cache.pool.frameBeforeOutOfData
  held : ∀ e m, cache'.Held e m ↔ cache.Held e m
    ∧ cache.pool.timestamp + 1 ≤ e.stamp + cache.pool.frameBeforeOutOfData

lemma newFrame_spec (good : cache.Good)
    (early : cache.pool.timestamp + 1 + cache.pool.frameBeforeOutOfData < 2 ^ 64)
    (h : cache.newFrame = some cache') : Ages cache cache' := by
  cases h
  have time : (cache.pool.timestamp + 1) % 2 ^ 64 = cache.pool.timestamp + 1 :=
    Nat.mod_eq_of_lt (by omega)
  have out : ∀ e ∈ cache.pool.resources,
      ResourcePool.outOfDate { cache.pool with timestamp := (cache.pool.timestamp + 1) % 2 ^ 64 } e
        = decide (e.stamp + cache.pool.frameBeforeOutOfData < cache.pool.timestamp + 1) := by
    intro e mem
    have stamp := good.stamps e mem
    rw [ResourcePool.outOfDate]
    dsimp only
    rw [time, Nat.mod_eq_of_lt (by omega : e.stamp + cache.pool.frameBeforeOutOfData < 2 ^ 64)]
  refine ⟨⟨?_, ?_, ?_⟩, time, rfl, ?_⟩
  · intro e here
    obtain ⟨m, held, key⟩ := good.made e (List.mem_filter.mp here).1
    exact ⟨m, ⟨here, held.was⟩, key⟩
  · exact good.distinct.sublist (List.filter_sublist.map _)
  · intro e here
    have stamp := good.stamps e (List.mem_filter.mp here).1
    show e.stamp ≤ (cache.pool.timestamp + 1) % 2 ^ 64
    rw [time]
    omega
  · intro e m
    constructor
    · intro held
      obtain ⟨old, keep⟩ := List.mem_filter.mp held.mem
      refine ⟨⟨old, held.was⟩, ?_⟩
      simp only [out e old, decide_eq_true_eq, not_lt] at keep
      simpa using keep
    · rintro ⟨held, keep⟩
      refine ⟨List.mem_filter.mpr ⟨held.mem, ?_⟩, held.was⟩
      simp only [out e held.mem, decide_eq_true_eq, not_lt]
      simpa using keep

end Cache

namespace Context

variable {c c' : Context}

def ViewSince (c : Context) (stamp address resource : ℕ) : Prop :=
  ∃ entry made, c.views.Held entry made ∧ entry.resource = resource
    ∧ made.object.address = address ∧ stamp ≤ entry.stamp

def RenderPassSince (c : Context) (stamp address resource : ℕ) : Prop :=
  ∃ entry made, c.renderPasses.Held entry made ∧ entry.resource = resource
    ∧ made.object.address = address ∧ stamp ≤ entry.stamp

def OwnAddress {D R : Type} (address : R → ℕ) (cache : Cache D R) : Prop :=
  ∀ e m e' m', cache.Held e m → cache.Held e' m' → address m.object = address m'.object →
    e.resource = e'.resource

/-- The invariant: what is in the pools was built from what is at the addresses of its key, or what
was there is gone; and what a framebuffer or a pipeline was built from was used since. -/
structure Sound (c : Context) : Prop where
  framebuffers : c.framebuffers.Good
  views : c.views.Good
  pipelines : c.pipelines.Good
  renderPasses : c.renderPasses.Good
  framebufferLimit : c.framebuffers.pool.frameBeforeOutOfData = 10
  viewLimit : c.views.pool.frameBeforeOutOfData = 11
  pipelineLimit : c.pipelines.pool.frameBeforeOutOfData = 12
  renderPassLimit : c.renderPasses.pool.frameBeforeOutOfData = 12
  framebufferTime : c.framebuffers.pool.timestamp = c.views.pool.timestamp
  pipelineTime : c.pipelines.pool.timestamp = c.views.pool.timestamp
  renderPassTime : c.renderPasses.pool.timestamp = c.views.pool.timestamp
  viewAddress : OwnAddress ViewObject.address c.views
  renderPassAddress : OwnAddress RenderPassObject.address c.renderPasses
  view : ∀ e m, c.views.Held e m →
    c.textures m.descriptor.texture = none
      ∨ c.textures m.descriptor.texture = some m.object.texture
  framebuffer : ∀ e m, c.framebuffers.Held e m →
    c.RenderPassSince e.stamp m.descriptor.renderPass m.object.renderPass
      ∧ List.Forall₂ (c.ViewSince e.stamp) m.descriptor.attachments m.object.attachments
  shader : ∀ e m, c.pipelines.Held e m → ∀ object,
    c.shaders m.descriptor.shader = some object → object.identity = m.object.shader
  attributes : ∀ e m, c.pipelines.Held e m → ∀ content,
    c.layout m.descriptor.attributes = some content → content = m.object.attributes
  pipeline : ∀ e m, c.pipelines.Held e m →
    c.RenderPassSince e.stamp m.descriptor.renderPass m.object.renderPass
  recording : ∀ r, c.renderPass = some r →
    ∃ e m, c.renderPasses.Held e m ∧ e.resource = r
      ∧ e.stamp = c.renderPasses.pool.timestamp

/-- An action does not put an object where a key of a pool still points, no mesh is looked at after
it was freed, and the time of the pools does not come to its end. -/
def Spared (c : Context) : ContextAction → Prop
  | .createTexture address => ∀ e ∈ c.views.pool.resources, e.key.texture ≠ address
  | .createSwapchain backBuffers =>
    ∀ address ∈ backBuffers, ∀ e ∈ c.views.pool.resources, e.key.texture ≠ address
  | .createShader address _ _ _ => ∀ e ∈ c.pipelines.pool.resources, e.key.shader ≠ address
  | .createMesh address _ => ∀ e ∈ c.pipelines.pool.resources, e.key.attributes ≠ address
  | .newFrame => c.views.pool.timestamp + 13 < 2 ^ 64
  | .getGraphicsPipeline shader _ attributes _ _ =>
    ∀ e ∈ c.pipelines.pool.resources, e.key.shader = shader →
      e.key.attributeCount = ((c.layout attributes).getD []).length →
        (c.layout e.key.attributes).isSome
  | _ => True

/-- Whether an action is spared can be looked up in the pools. -/
instance Spared.decidable (c : Context) : ∀ a, Decidable (c.Spared a)
  | .createTexture address =>
    inferInstanceAs (Decidable (∀ e ∈ c.views.pool.resources, e.key.texture ≠ address))
  | .createSwapchain backBuffers =>
    inferInstanceAs (Decidable
      (∀ address ∈ backBuffers, ∀ e ∈ c.views.pool.resources, e.key.texture ≠ address))
  | .createShader address _ _ _ =>
    inferInstanceAs (Decidable (∀ e ∈ c.pipelines.pool.resources, e.key.shader ≠ address))
  | .createMesh address _ =>
    inferInstanceAs (Decidable (∀ e ∈ c.pipelines.pool.resources, e.key.attributes ≠ address))
  | .newFrame => inferInstanceAs (Decidable (c.views.pool.timestamp + 13 < 2 ^ 64))
  | .getGraphicsPipeline shader _ attributes _ _ =>
    inferInstanceAs (Decidable (∀ e ∈ c.pipelines.pool.resources, e.key.shader = shader →
      e.key.attributeCount = ((c.layout attributes).getD []).length →
        (c.layout e.key.attributes).isSome))
  | .destroyTexture _ | .destroySwapchain _ | .destroyShader _ | .destroyMesh _
  | .resolveTextureView _ _ | .beginRenderPass _ _ _ _ _ => .isTrue trivial

lemma sound_init : Sound {} where
  framebuffers := Cache.good_init 10
  views := Cache.good_init 11
  pipelines := Cache.good_init 12
  renderPasses := Cache.good_init 12
  framebufferLimit := rfl
  viewLimit := rfl
  pipelineLimit := rfl
  renderPassLimit := rfl
  framebufferTime := rfl
  pipelineTime := rfl
  renderPassTime := rfl
  viewAddress _ _ _ _ held := absurd held.mem List.not_mem_nil
  renderPassAddress _ _ _ _ held := absurd held.mem List.not_mem_nil
  view _ _ held := absurd held.mem List.not_mem_nil
  framebuffer _ _ held := absurd held.mem List.not_mem_nil
  shader _ _ held := absurd held.mem List.not_mem_nil
  attributes _ _ held := absurd held.mem List.not_mem_nil
  pipeline _ _ held := absurd held.mem List.not_mem_nil
  recording _ h := nomatch h

/-! ### Objects that come and go -/

lemma Sound.createTexture (sound : c.Sound) {address : ℕ}
    (spared : ∀ e ∈ c.views.pool.resources, e.key.texture ≠ address)
    (h : c.createTexture address = some c') : c'.Sound ∧ c'.views = c.views := by
  obtain ⟨-, h⟩ := Option.ite_none_left_eq_some.mp h
  cases h
  refine ⟨{ sound with view := fun e m held => ?_ }, rfl⟩
  have other : m.descriptor.texture ≠ address := by
    rw [sound.views.key held]
    exact spared e held.mem
  simp only [if_neg other]
  exact sound.view e m held

lemma Sound.destroyTexture (sound : c.Sound) (address : ℕ) :
    (c.destroyTexture address).Sound :=
  { sound with
    view := fun e m held => by
      simp only [Context.destroyTexture]
      split
      · exact .inl rfl
      · exact sound.view e m held }

lemma Sound.createSwapchain (sound : c.Sound) {backBuffers : List ℕ}
    (spared : ∀ address ∈ backBuffers, ∀ e ∈ c.views.pool.resources, e.key.texture ≠ address)
    (h : backBuffers.foldlM (fun c address => Context.createTexture address c) c = some c') :
    c'.Sound := by
  induction backBuffers generalizing c with
  | nil =>
    cases h
    exact sound
  | cons address backBuffers ih =>
    rw [List.foldlM_cons] at h
    obtain ⟨c₁, created, h⟩ := Option.bind_eq_some_iff.mp h
    obtain ⟨sound₁, views⟩ := sound.createTexture (spared address List.mem_cons_self) created
    refine ih sound₁ (fun a mem => ?_) h
    rw [views]
    exact spared a (List.mem_cons_of_mem _ mem)

lemma Sound.destroySwapchain (sound : c.Sound) (backBuffers : List ℕ) :
    (backBuffers.foldl (fun c address => c.destroyTexture address) c).Sound := by
  induction backBuffers generalizing c with
  | nil => exact sound
  | cons address backBuffers ih => exact ih (sound.destroyTexture address)

lemma Sound.createShader (sound : c.Sound) {address : ℕ} (object : ShaderObject)
    (spared : ∀ e ∈ c.pipelines.pool.resources, e.key.shader ≠ address) :
    Sound { c with
      shaders := fun a => if a = address then some object else c.shaders a
      identities := c.identities + 1 } :=
  { sound with
    shader := fun e m held object' found => by
      have other : m.descriptor.shader ≠ address := by
        rw [sound.pipelines.key held]
        exact spared e held.mem
      simp only [if_neg other] at found
      exact sound.shader e m held object' found }

lemma Sound.destroyShader (sound : c.Sound) (address : ℕ) :
    Sound { c with shaders := fun a => if a = address then none else c.shaders a } :=
  { sound with
    shader := fun e m held object found => by
      obtain ⟨-, found⟩ := Option.ite_none_left_eq_some.mp found
      exact sound.shader e m held object found }

lemma Sound.createMesh (sound : c.Sound) {address : ℕ} (attributes : List VertexAttribute)
    (spared : ∀ e ∈ c.pipelines.pool.resources, e.key.attributes ≠ address) :
    Sound { c with
      attributes := fun a => if a = address then some attributes else c.attributes a } :=
  { sound with
    attributes := fun e m held content found => by
      have other : m.descriptor.attributes ≠ address := by
        rw [sound.pipelines.key held]
        exact spared e held.mem
      simp only [layout, if_neg other] at found
      exact sound.attributes e m held content found }

lemma Sound.destroyMesh (sound : c.Sound) (address : ℕ) :
    Sound { c with attributes := fun a => if a = address then none else c.attributes a } :=
  { sound with
    attributes := fun e m held content found => by
      refine sound.attributes e m held content ?_
      unfold layout at found ⊢
      split at found
      · rename_i null
        rw [if_pos null]
        exact found
      · rename_i null
        rw [if_neg null]
        exact (Option.ite_none_left_eq_some.mp found).2 }

/-! ### Frames -/

lemma RenderPassSince.ages (ages : Cache.Ages c.renderPasses c'.renderPasses) {stamp address r : ℕ}
    (since : c.RenderPassSince stamp address r)
    (young : c.renderPasses.pool.timestamp + 1
      ≤ stamp + c.renderPasses.pool.frameBeforeOutOfData) :
    c'.RenderPassSince stamp address r := by
  obtain ⟨e, m, held, resource, here, used⟩ := since
  exact ⟨e, m, (ages.held e m).mpr ⟨held, by omega⟩, resource, here, used⟩

lemma ViewSince.ages (ages : Cache.Ages c.views c'.views) {stamp address r : ℕ}
    (since : c.ViewSince stamp address r)
    (young : c.views.pool.timestamp + 1 ≤ stamp + c.views.pool.frameBeforeOutOfData) :
    c'.ViewSince stamp address r := by
  obtain ⟨e, m, held, resource, here, used⟩ := since
  exact ⟨e, m, (ages.held e m).mpr ⟨held, by omega⟩, resource, here, used⟩

lemma Sound.newFrame (sound : c.Sound) (early : c.views.pool.timestamp + 13 < 2 ^ 64)
    (h : c.newFrame = some c') : c'.Sound := by
  simp only [Context.newFrame, Option.bind_eq_bind, Option.bind_eq_some_iff] at h
  obtain ⟨framebuffers, h₁, views, h₂, pipelines, h₃, renderPasses, h₄, h⟩ := h
  cases h
  have framebufferTime := sound.framebufferTime
  have pipelineTime := sound.pipelineTime
  have renderPassTime := sound.renderPassTime
  have framebufferLimit := sound.framebufferLimit
  have viewLimit := sound.viewLimit
  have pipelineLimit := sound.pipelineLimit
  have renderPassLimit := sound.renderPassLimit
  have fs := Cache.newFrame_spec sound.framebuffers (by omega) h₁
  have vs := Cache.newFrame_spec sound.views (by omega) h₂
  have ps := Cache.newFrame_spec sound.pipelines (by omega) h₃
  have rs := Cache.newFrame_spec sound.renderPasses (by omega) h₄
  exact
    { framebuffers := fs.good
      views := vs.good
      pipelines := ps.good
      renderPasses := rs.good
      framebufferLimit := fs.limit.trans framebufferLimit
      viewLimit := vs.limit.trans viewLimit
      pipelineLimit := ps.limit.trans pipelineLimit
      renderPassLimit := rs.limit.trans renderPassLimit
      framebufferTime := by rw [fs.time, vs.time, framebufferTime]
      pipelineTime := by rw [ps.time, vs.time, pipelineTime]
      renderPassTime := by rw [rs.time, vs.time, renderPassTime]
      viewAddress := fun e m e' m' held held' =>
        sound.viewAddress e m e' m' ((vs.held e m).mp held).1 ((vs.held e' m').mp held').1
      renderPassAddress := fun e m e' m' held held' =>
        sound.renderPassAddress e m e' m' ((rs.held e m).mp held).1 ((rs.held e' m').mp held').1
      view := fun e m held => sound.view e m ((vs.held e m).mp held).1
      framebuffer := fun e m held => by
        obtain ⟨held, young⟩ := (fs.held e m).mp held
        obtain ⟨renderPass, attachments⟩ := sound.framebuffer e m held
        exact ⟨renderPass.ages rs (by omega),
          attachments.imp fun a v since => since.ages vs (by omega)⟩
      shader := fun e m held => sound.shader e m ((ps.held e m).mp held).1
      attributes := fun e m held => sound.attributes e m ((ps.held e m).mp held).1
      pipeline := fun e m held => by
        obtain ⟨held, young⟩ := (ps.held e m).mp held
        exact (sound.pipeline e m held).ages rs (by omega)
      recording := fun r none_here => by cases none_here }

/-! ### Views and render passes -/

lemma OwnAddress.gets {D R : Type} {address : R → ℕ} {cache cache' : Cache D R}
    {same : D → D → Bool} {descriptor : D} {object : R} {r : ℕ} (own : OwnAddress address cache)
    (gets : Cache.Gets same descriptor object cache cache' r)
    (free : cache'.created.length = cache.created.length
      ∨ ∀ e m, cache.Held e m → address m.object ≠ address object) :
    OwnAddress address cache' := by
  intro e m e' m' held held' eq
  rcases (gets.back e m held).2 with ⟨e₀, held₀, resource⟩ | ⟨new, rfl, resource⟩
  · rcases (gets.back e' m' held').2 with ⟨e₁, held₁, resource'⟩ | ⟨new, rfl, -⟩
    · rw [← resource, ← resource']
      exact own e₀ m e₁ m' held₀ held₁ eq
    · exact absurd eq (free.resolve_left new e₀ m held₀)
  · rcases (gets.back e' m' held').2 with ⟨e₁, held₁, -⟩ | ⟨-, -, resource'⟩
    · exact absurd eq.symm (free.resolve_left new e₁ m' held₁)
    · rw [resource, resource']

lemma viewFree_spec {address : ℕ} (free : c.viewFree address = true) :
    ∀ e m, c.views.Held e m → m.object.address ≠ address := by
  intro e m held eq
  have ne := of_decide_eq_true (List.all_eq_true.mp free e held.mem)
  rw [held.was] at ne
  exact ne (congrArg some eq)

lemma renderPassFree_spec {address : ℕ} (free : c.renderPassFree address = true) :
    ∀ e m, c.renderPasses.Held e m → m.object.address ≠ address := by
  intro e m held eq
  have ne := of_decide_eq_true (List.all_eq_true.mp free e held.mem)
  rw [held.was] at ne
  exact ne (congrArg some eq)

structure Extends (c c' : Context) : Prop where
  textures : c'.textures = c.textures
  shaders : c'.shaders = c.shaders
  attributes : c'.attributes = c.attributes
  framebuffers : c'.framebuffers = c.framebuffers
  pipelines : c'.pipelines = c.pipelines
  time : c'.views.pool.timestamp = c.views.pool.timestamp
  made : ∀ (r : ℕ) m, c.views.created[r]? = some m → c'.views.created[r]? = some m
  views : ∀ stamp a v, c.ViewSince stamp a v → c'.ViewSince stamp a v
  renderPasses : ∀ stamp a v, c.RenderPassSince stamp a v → c'.RenderPassSince stamp a v

lemma Extends.trans {c₁ c₂ c₃ : Context} (h : Extends c₁ c₂) (h' : Extends c₂ c₃) :
    Extends c₁ c₃ where
  textures := h'.textures.trans h.textures
  shaders := h'.shaders.trans h.shaders
  attributes := h'.attributes.trans h.attributes
  framebuffers := h'.framebuffers.trans h.framebuffers
  pipelines := h'.pipelines.trans h.pipelines
  time := h'.time.trans h.time
  made r m was := h'.made r m (h.made r m was)
  views stamp a v since := h'.views stamp a v (h.views stamp a v since)
  renderPasses stamp a v since := h'.renderPasses stamp a v (h.renderPasses stamp a v since)

lemma Extends.refl (c : Context) : Extends c c :=
  ⟨rfl, rfl, rfl, rfl, rfl, rfl, fun _ _ was => was, fun _ _ _ since => since,
    fun _ _ _ since => since⟩

lemma Sound.getView (sound : c.Sound) {key : ViewKey} {address r at' : ℕ}
    (h : Context.getView key address c = some (c', r, at')) :
    c'.Sound ∧ Extends c c' ∧ c'.ViewSince c.views.pool.timestamp at' r
      ∧ (∃ m, c'.views.created[r]? = some m ∧ c'.textures key.texture = some m.object.texture) := by
  simp only [Context.getView, Option.bind_eq_bind, Option.bind_eq_some_iff] at h
  obtain ⟨texture, alive, ⟨views, resource⟩, got, h⟩ := h
  obtain ⟨free, h⟩ := Option.ite_none_right_eq_some.mp h
  obtain ⟨made, was, h⟩ := Option.bind_eq_some_iff.mp h
  cases h
  have gets := Cache.get_spec sound.views got
  have free' := free.imp id fun f => viewFree_spec f
  have kept : ∀ stamp a v, c.ViewSince stamp a v → Context.ViewSince { c with views } stamp a v := by
    rintro stamp a v ⟨e, m, held, resource, here, since⟩
    obtain ⟨e', held', resource', later⟩ := gets.kept e m held
    exact ⟨e', m, held', resource'.trans resource, here, since.trans later⟩
  obtain ⟨e, m, held, resource, stamp, origin⟩ := gets.here
  have same_made : m = made := by
    have was' := held.was
    rw [resource] at was'
    exact Option.some.inj (was'.symm.trans was)
  subst same_made
  refine ⟨?_, ?_, ?_, ?_⟩
  · exact
      { sound with
        views := gets.good
        viewLimit := gets.limit.trans sound.viewLimit
        framebufferTime := sound.framebufferTime.trans gets.time.symm
        pipelineTime := sound.pipelineTime.trans gets.time.symm
        renderPassTime := sound.renderPassTime.trans gets.time.symm
        viewAddress := OwnAddress.gets sound.viewAddress gets free'
        view := fun e' m' held' => by
          rcases (gets.back e' m' held').2 with ⟨e₀, held₀, -⟩ | ⟨-, rfl, -⟩
          · exact sound.view e₀ m' held₀
          · exact .inr alive
        framebuffer := fun e' m' held' => by
          obtain ⟨renderPass, attachments⟩ := sound.framebuffer e' m' held'
          exact ⟨renderPass, attachments.imp fun a v since => kept _ a v since⟩ }
  · exact ⟨rfl, rfl, rfl, rfl, rfl, gets.time, gets.created, kept, fun _ _ _ since => since⟩
  · exact ⟨e, m, held, resource, rfl, stamp.ge⟩
  · refine ⟨m, was, ?_⟩
    rcases origin with ⟨-, rfl⟩ | ⟨same, e₀, held₀, -⟩
    · exact alive
    · have key_eq : m.descriptor = key := beq_iff_eq.mp same
      have now := sound.view e₀ m held₀
      rw [key_eq] at now
      exact now.resolve_left fun gone => by cases gone.symm.trans alive

lemma Sound.getViews {attachments : List (ViewKey × ℕ)} {returned : List Returned}
    {resources addresses : List ℕ} (sound : c.Sound)
    (h : Context.getViews c attachments = some (c', returned, resources, addresses)) :
    c'.Sound ∧ Extends c c'
      ∧ List.Forall₂ (c'.ViewSince c.views.pool.timestamp) addresses resources
      ∧ ∀ out ∈ returned, ∃ key r m, out = .view key r ∧ c'.views.created[r]? = some m
        ∧ c'.textures key.texture = some m.object.texture := by
  induction attachments generalizing c returned resources addresses with
  | nil =>
    cases h
    exact ⟨sound, .refl _, .nil, fun _ mem => absurd mem List.not_mem_nil⟩
  | cons attachment attachments ih =>
    obtain ⟨key, address⟩ := attachment
    simp only [Context.getViews, Option.bind_eq_bind, Option.bind_eq_some_iff] at h
    obtain ⟨⟨c₁, r, at'⟩, got, ⟨c₂, returned', resources', addresses'⟩, rest, h⟩ := h
    cases h
    obtain ⟨sound₁, extends₁, since, m, was, texture⟩ := sound.getView got
    obtain ⟨sound₂, extends₂, views, alive⟩ := ih sound₁ rest
    rw [extends₁.time] at views
    refine ⟨sound₂, extends₁.trans extends₂, .cons (extends₂.views _ _ _ since) views, ?_⟩
    intro out mem
    rcases List.mem_cons.mp mem with rfl | mem
    · refine ⟨key, r, m, rfl, extends₂.made r m was, ?_⟩
      rw [extends₂.textures]
      exact texture
    · exact alive out mem

lemma Sound.view_unique (sound : c.Sound) {s s' a v v' : ℕ} (h : c.ViewSince s a v)
    (h' : c.ViewSince s' a v') : v = v' := by
  obtain ⟨e, m, held, rfl, here, -⟩ := h
  obtain ⟨e', m', held', rfl, here', -⟩ := h'
  exact sound.viewAddress e m e' m' held held' (here.trans here'.symm)

lemma Sound.renderPass_unique (sound : c.Sound) {s s' a r r' : ℕ}
    (h : c.RenderPassSince s a r) (h' : c.RenderPassSince s' a r') : r = r' := by
  obtain ⟨e, m, held, rfl, here, -⟩ := h
  obtain ⟨e', m', held', rfl, here', -⟩ := h'
  exact sound.renderPassAddress e m e' m' held held' (here.trans here'.symm)

lemma Sound.views_unique (sound : c.Sound) {s s' : ℕ} {addresses vs vs' : List ℕ}
    (h : List.Forall₂ (c.ViewSince s) addresses vs)
    (h' : List.Forall₂ (c.ViewSince s') addresses vs') : vs = vs' := by
  induction h generalizing vs' with
  | nil =>
    cases h'
    rfl
  | cons view _ ih =>
    cases h' with
    | cons view' rest => rw [sound.view_unique view view', ih rest]

lemma Sound.getRenderPass (sound : c.Sound) {descriptor address r at' : ℕ}
    (h : Context.getRenderPass descriptor address c = some (c', r, at')) :
    c'.Sound ∧ Extends c c' ∧ c'.RenderPassSince c.views.pool.timestamp at' r := by
  simp only [Context.getRenderPass, Option.bind_eq_bind, Option.bind_eq_some_iff] at h
  obtain ⟨⟨renderPasses, resource⟩, got, h⟩ := h
  obtain ⟨free, h⟩ := Option.ite_none_right_eq_some.mp h
  obtain ⟨made, was, h⟩ := Option.bind_eq_some_iff.mp h
  cases h
  have gets := Cache.get_spec sound.renderPasses got
  have free' := free.imp id fun f => renderPassFree_spec f
  have kept : ∀ stamp a v, c.RenderPassSince stamp a v →
      Context.RenderPassSince { c with renderPasses, renderPass := some resource } stamp a v := by
    rintro stamp a v ⟨e, m, held, resource, here, since⟩
    obtain ⟨e', held', resource', later⟩ := gets.kept e m held
    exact ⟨e', m, held', resource'.trans resource, here, since.trans later⟩
  obtain ⟨e, m, held, resource, stamp, -⟩ := gets.here
  have same_made : m = made := by
    have was' := held.was
    rw [resource] at was'
    exact Option.some.inj (was'.symm.trans was)
  subst same_made
  refine ⟨?_, ?_, ⟨e, m, held, resource, rfl, ?_⟩⟩
  · exact
      { sound with
        renderPasses := gets.good
        renderPassLimit := gets.limit.trans sound.renderPassLimit
        renderPassTime := gets.time.trans sound.renderPassTime
        renderPassAddress := OwnAddress.gets sound.renderPassAddress gets free'
        framebuffer := fun e' m' held' => by
          obtain ⟨renderPass, attachments⟩ := sound.framebuffer e' m' held'
          exact ⟨kept _ _ _ renderPass, attachments⟩
        pipeline := fun e' m' held' => kept _ _ _ (sound.pipeline e' m' held')
        recording := fun r' recording => by
          cases recording
          exact ⟨e, m, held, resource, stamp.trans gets.time.symm⟩ }
  · exact ⟨rfl, rfl, rfl, rfl, rfl, rfl, fun _ _ was => was, fun _ _ _ since => since, kept⟩
  · rw [stamp, sound.renderPassTime]

lemma Sound.beginRenderPass (sound : c.Sound) {descriptor address width height : ℕ}
    {attachments : List (ViewKey × ℕ)} {returned : List Returned}
    (h : Context.beginRenderPass descriptor address attachments width height c
      = some (c', returned)) :
    c'.Sound ∧ ∀ out ∈ returned, out.Alive c' := by
  simp only [Context.beginRenderPass, Option.bind_eq_bind, Option.bind_eq_some_iff] at h
  obtain ⟨⟨c₁, renderPass, at'⟩, got, ⟨c₂, views, resources, addresses⟩, rest,
    ⟨framebuffers, r⟩, framebuffer, h⟩ := h
  cases h
  obtain ⟨sound₁, extends₁, rpSince⟩ := sound.getRenderPass got
  obtain ⟨sound₂, extends₂, viewsSince, viewsAlive⟩ := sound₁.getViews rest
  have time₁ := extends₁.time
  have time₂ := extends₂.time
  have framebufferTime := sound₂.framebufferTime
  have rpSince₂ := extends₂.renderPasses _ _ _ rpSince
  rw [← time₁, ← time₂, ← framebufferTime] at rpSince₂
  rw [← time₂, ← framebufferTime] at viewsSince
  have gets := Cache.get_spec sound₂.framebuffers framebuffer
  obtain ⟨e, m, held, resource, stamp, origin⟩ := gets.here
  -- what is found for the addresses was made of the same views and render pass, which are used now
  have now : c₂.RenderPassSince c₂.framebuffers.pool.timestamp m.descriptor.renderPass
        m.object.renderPass
      ∧ List.Forall₂ (c₂.ViewSince c₂.framebuffers.pool.timestamp) m.descriptor.attachments
        m.object.attachments
      ∧ m.descriptor = ⟨at', addresses, width, height⟩ := by
    rcases origin with ⟨-, rfl⟩ | ⟨same, e₀, held₀, -⟩
    · exact ⟨rpSince₂, viewsSince, rfl⟩
    · have key : m.descriptor = ⟨at', addresses, width, height⟩ := beq_iff_eq.mp same
      obtain ⟨oldPass, oldViews⟩ := sound₂.framebuffer e₀ m held₀
      rw [key] at oldPass oldViews ⊢
      rw [sound₂.renderPass_unique oldPass rpSince₂, sound₂.views_unique oldViews viewsSince]
      exact ⟨rpSince₂, viewsSince, rfl⟩
  obtain ⟨passNow, viewsNow, key⟩ := now
  refine ⟨?_, ?_⟩
  · exact
      { sound₂ with
        framebuffers := gets.good
        framebufferLimit := gets.limit.trans sound₂.framebufferLimit
        framebufferTime := gets.time.trans sound₂.framebufferTime
        framebuffer := fun e' m' held' => by
          rcases (gets.back e' m' held').1 with ⟨resource', stamp'⟩ | old
          · have eq : m' = m := by
              have was := held'.was
              rw [resource', ← resource] at was
              exact Option.some.inj (was.symm.trans held.was)
            rw [eq, stamp']
            exact ⟨passNow, viewsNow⟩
          · exact sound₂.framebuffer e' m' old }
  · intro out mem
    rcases List.mem_append.mp mem with mem | mem
    · obtain ⟨key', r', m', rfl, was, texture⟩ := viewsAlive out mem
      exact ⟨m', was, texture⟩
    · rw [List.mem_singleton.mp mem]
      rw [key] at passNow viewsNow
      have was := held.was
      rw [resource] at was
      refine ⟨m, was, ?_, viewsNow.imp fun a v since => ?_⟩
      · obtain ⟨e', m', held', resource', here, -⟩ := passNow
        exact ⟨e', m', held', resource', here⟩
      · obtain ⟨e', m', held', resource', here, -⟩ := since
        exact ⟨e', m', held', resource', here⟩

/-! ### Pipelines -/

lemma pipelineKey_spec (shader : ℕ) (object : ShaderObject) (primTopology attributes : ℕ)
    (content : List VertexAttribute) (renderPass : ℕ) (dynamicStateT1 : Bool) :
    let key := pipelineKey shader object primTopology attributes content renderPass dynamicStateT1
    key.shader = shader ∧ key.attributes = attributes ∧ key.attributeCount = content.length
      ∧ key.renderPass = renderPass := by
  simp only [pipelineKey]
  split <;> exact ⟨rfl, rfl, rfl, rfl⟩

lemma layout_same {stale : ℕ → List VertexAttribute} {k k' : PipelineKey}
    {content content' : List VertexAttribute} (same : sameLayout (c.read stale) k k' = true)
    (h : c.layout k.attributes = some content) (h' : c.layout k'.attributes = some content') :
    content = content' := by
  simp only [sameLayout, Bool.and_eq_true, Bool.or_eq_true, decide_eq_true_eq] at same
  rcases same.2 with eq | ⟨⟨null, null'⟩, eq⟩
  · rw [eq] at h
    exact Option.some.inj (h.symm.trans h')
  · rw [layout, if_neg null] at h
    rw [layout, if_neg null'] at h'
    rw [Context.read, Context.read, h, h'] at eq
    exact eq

lemma Sound.getGraphicsPipeline (sound : c.Sound) {shader primTopology attributes : ℕ}
    {dynamicStateT1 : Bool} {stale : ℕ → List VertexAttribute} {returned : List Returned}
    (spared : c.Spared
      (.getGraphicsPipeline shader primTopology attributes dynamicStateT1 stale))
    (h : Context.getGraphicsPipeline shader primTopology attributes dynamicStateT1 stale c
      = some (c', returned)) :
    c'.Sound ∧ ∀ out ∈ returned, out.Alive c' := by
  simp only [Context.getGraphicsPipeline, Option.bind_eq_bind, Option.bind_eq_some_iff] at h
  obtain ⟨object, shaderHere, content, layoutHere, rp, recording, made, was, ⟨pipelines, r⟩, got,
    h⟩ := h
  cases h
  obtain ⟨re, rm, rheld, rfl, rstamp⟩ := sound.recording rp recording
  have rm_eq : rm = made := Option.some.inj (rheld.was.symm.trans was)
  subst rm_eq
  obtain ⟨keyShader, keyAttributes, keyCount, keyPass⟩ := pipelineKey_spec shader object
    primTopology attributes content rm.object.address dynamicStateT1
  generalize keyEq : pipelineKey shader object primTopology attributes content rm.object.address
    dynamicStateT1 = key at *
  have rpNow : c.RenderPassSince c.pipelines.pool.timestamp key.renderPass re.resource :=
    ⟨re, rm, rheld, rfl, keyPass.symm, by
      rw [rstamp, sound.renderPassTime, sound.pipelineTime]⟩
  have gets := Cache.get_spec sound.pipelines got
  obtain ⟨e, m, held, resource, stamp, origin⟩ := gets.here
  -- what is found for the key was made of what is there now
  have now : (∃ object', c.shaders key.shader = some object' ∧ object'.identity = m.object.shader)
      ∧ c.layout key.attributes = some m.object.attributes
      ∧ c.RenderPassSince c.pipelines.pool.timestamp m.descriptor.renderPass m.object.renderPass
      ∧ m.descriptor.renderPass = key.renderPass := by
    rcases origin with ⟨-, rfl⟩ | ⟨same, e₀, held₀, -⟩
    · exact ⟨⟨object, by rw [keyShader]; exact shaderHere, rfl⟩,
        by rw [keyAttributes]; exact layoutHere, rpNow, rfl⟩
    · simp only [sameKey, Bool.and_eq_true, decide_eq_true_eq] at same
      obtain ⟨⟨⟨⟨⟨⟨sameShader, layouts⟩, -⟩, -⟩, -⟩, -⟩, samePass⟩ := same
      have shaderKey : c.shaders m.descriptor.shader = some object := by
        rw [sameShader, keyShader]
        exact shaderHere
      have count : m.descriptor.attributeCount = key.attributeCount := by
        simp only [sameLayout, Bool.and_eq_true, decide_eq_true_eq] at layouts
        exact layouts.1
      have readable : (c.layout m.descriptor.attributes).isSome := by
        rw [sound.pipelines.key held₀] at sameShader count ⊢
        refine spared e₀ held₀.mem (sameShader.trans keyShader) ?_
        rw [count, keyCount, layoutHere]
        rfl
      obtain ⟨content', read⟩ := Option.isSome_iff_exists.mp readable
      have keyLayout : c.layout key.attributes = some content := by
        rw [keyAttributes]
        exact layoutHere
      refine ⟨⟨object, by rw [keyShader]; exact shaderHere,
        sound.shader e₀ m held₀ object shaderKey⟩, ?_, ?_, samePass⟩
      · rw [keyLayout, ← sound.attributes e₀ m held₀ content' read,
          layout_same layouts read keyLayout]
      · have oldPass := sound.pipeline e₀ m held₀
        rw [samePass] at oldPass ⊢
        rw [sound.renderPass_unique oldPass rpNow]
        exact rpNow
  obtain ⟨shaderNow, layoutNow, passNow, passKey⟩ := now
  refine ⟨?_, ?_⟩
  · exact
      { sound with
        pipelines := gets.good
        pipelineLimit := gets.limit.trans sound.pipelineLimit
        pipelineTime := gets.time.trans sound.pipelineTime
        shader := fun e' m' held' object' there => by
          rcases (gets.back e' m' held').2 with ⟨e₀, held₀, -⟩ | ⟨-, rfl, -⟩
          · exact sound.shader e₀ m' held₀ object' there
          · rw [keyShader] at there
            rw [Option.some.inj (there.symm.trans shaderHere)]
        attributes := fun e' m' held' content' there => by
          rcases (gets.back e' m' held').2 with ⟨e₀, held₀, -⟩ | ⟨-, rfl, -⟩
          · exact sound.attributes e₀ m' held₀ content' there
          · rw [keyAttributes] at there
            exact Option.some.inj (there.symm.trans layoutHere)
        pipeline := fun e' m' held' => by
          rcases (gets.back e' m' held').1 with ⟨resource', stamp'⟩ | old
          · have eq : m' = m := by
              have was' := held'.was
              rw [resource', ← resource] at was'
              exact Option.some.inj (was'.symm.trans held.was)
            rw [eq, stamp']
            exact passNow
          · exact sound.pipeline e' m' old }
  · intro out mem
    rw [List.mem_singleton.mp mem]
    have was' := held.was
    rw [resource] at was'
    rw [passKey] at passNow
    obtain ⟨e', m', held', resource', here, -⟩ := passNow
    exact ⟨m, was', shaderNow, ⟨e', m', held', resource', here⟩, layoutNow⟩

/-! ### Runs -/

lemma Sound.step (sound : c.Sound) {a : ContextAction} {returned : List Returned}
    (spared : c.Spared a) (h : c.step a = some (c', returned)) :
    c'.Sound ∧ ∀ out ∈ returned, out.Alive c' := by
  have silent : ∀ out ∈ ([] : List Returned), out.Alive c' :=
    fun _ mem => absurd mem List.not_mem_nil
  cases a with
  | createTexture address =>
    obtain ⟨c₁, created, eq⟩ := Option.map_eq_some_iff.mp h
    cases eq
    exact ⟨(sound.createTexture spared created).1, silent⟩
  | destroyTexture address =>
    cases h
    exact ⟨sound.destroyTexture address, silent⟩
  | createSwapchain backBuffers =>
    obtain ⟨c₁, created, eq⟩ := Option.map_eq_some_iff.mp h
    cases eq
    exact ⟨sound.createSwapchain spared created, silent⟩
  | destroySwapchain backBuffers =>
    cases h
    exact ⟨sound.destroySwapchain backBuffers, silent⟩
  | createShader address blendDesc depthDesc rasterizerState =>
    obtain ⟨-, h⟩ := Option.ite_none_left_eq_some.mp h
    cases h
    exact ⟨sound.createShader _ spared, silent⟩
  | destroyShader address =>
    cases h
    exact ⟨sound.destroyShader address, silent⟩
  | createMesh address attributes =>
    obtain ⟨-, h⟩ := Option.ite_none_left_eq_some.mp h
    cases h
    exact ⟨sound.createMesh attributes spared, silent⟩
  | destroyMesh address =>
    cases h
    exact ⟨sound.destroyMesh address, silent⟩
  | newFrame =>
    have h' : c.newFrame.map (·, []) = some (c', returned) := h
    obtain ⟨c₁, aged, eq⟩ := Option.map_eq_some_iff.mp h'
    cases eq
    exact ⟨sound.newFrame spared aged, silent⟩
  | resolveTextureView key address =>
    obtain ⟨⟨c₁, r, at'⟩, got, eq⟩ := Option.map_eq_some_iff.mp h
    cases eq
    obtain ⟨sound', -, -, m, was, texture⟩ := sound.getView got
    refine ⟨sound', fun out mem => ?_⟩
    rw [List.mem_singleton.mp mem]
    exact ⟨m, was, texture⟩
  | beginRenderPass descriptor address attachments width height => exact sound.beginRenderPass h
  | getGraphicsPipeline shader primTopology attributes dynamicStateT1 stale =>
    exact sound.getGraphicsPipeline spared h

end Context

end PulseEngine.Graphics
