import PulseEngine.RenderGraph.Memory

/-!
# References while a graph is built

Which building calls read and write nodes through live references only. An upload, a subresource and the
generation of mipmaps keep a reference to a resource while they append others, and a builder keeps a pointer to
its pass: they need that nothing moves in between. The rules are for any mode, so that one proof says that the
condition is enough and that a call that returns has met it.
-/

namespace PulseEngine.RenderGraph

open Library

def mipmapCount (node : ResourceNode) (fromMipmap : ℕ) : ℕ :=
  if node.mipCount ≤ fromMipmap then 0 else node.arraySize * (1 + (node.mipCount - fromMipmap))

namespace Site

def BuilderLive (s : Site) (pass : ℕ) : Prop :=
  ∀ b, s.builderOf pass = some b → b.passNode.moves = s.memory.passes.moves

/-- The condition on a building call: the resources have room for what it appends while it keeps a reference
to one, no pass was moved since its builder was returned, and there is a color attachment left. -/
def Stable (growth : Growth) (s : Site) : BuildingCall → Prop
  | .setExecutable pass => s.BuilderLive pass
  | .declaration d =>
    match d with
    | .declareTextureSubresource _ _ _ => s.memory.resources.HasRoom 1
    | .addUploadTexturePass texture _ _ => ∀ node, s.memory.resources.items[texture]? = some node →
        s.memory.resources.HasRoom (if node.mipCount = 1 ∧ node.arraySize = 1 then 1 else 2)
    | .addUploadBufferPass _ => s.memory.resources.HasRoom 1
    | .declareUniformBufferQuick => (s.memory.resources.push growth .new).HasRoom 1
    | .addGenerateMipmap texture fromMipmap => ∀ node, s.memory.resources.items[texture]? = some node →
        s.memory.resources.HasRoom (mipmapCount node fromMipmap)
    | .addColorAttachment pass _ => s.BuilderLive pass ∧
        ∀ node, s.memory.passes.items[pass]? = some node → node.colorAttachments.length < 8
    | .addDepthAttachment pass _ | .sample pass _ | .useBuffer pass _ | .useBufferAs pass _ _
    | .computeUseBuffer pass _ | .readwriteBuffer pass _ => s.BuilderLive pass
    | _ => True
  | _ => True

def Safe (growth : Growth) (s : Site) (c : BuildingCall) : Prop :=
  (s.call growth c s.memory).run ≠ some (.error .dangling) ∧
    (s.call growth c s.memory).run ≠ some (.error .outOfRange)

end Site

variable {growth : Growth} {mode : Mode Fault} {m m' m'' : Vectors} {r : Ref} {n n' k k' : ℕ} {α β : Type}

structure Vectors.Fits (m : Vectors) : Prop where
  resources : m.resources.Fits
  passes : m.passes.Fits

/-- After `n` resources and `k` passes were appended. -/
structure Later (n k : ℕ) (m m' : Vectors) : Prop where
  resources : Pushed n m.resources m'.resources
  passes : Pushed k m.passes m'.passes

namespace Later

lemma refl : Later 0 0 m m := ⟨.refl, .refl⟩

lemma trans (h : Later n k m m') (h' : Later n' k' m' m'') : Later (n + n') (k + k') m m'' :=
  ⟨h.resources.trans h'.resources, h.passes.trans h'.passes⟩

lemma fits (h : Later n k m m') (fits : m.Fits) : m'.Fits :=
  ⟨h.resources.fits fits.resources, h.passes.fits fits.passes⟩

lemma pass_live (h : Later n 0 m m') (fits : m.Fits) (live : r.Live m.passes) : r.Live m'.passes :=
  (h.passes.live_iff fits.passes live).mpr fits.passes

lemma resource_live (h : Later n k m m') (room : m.resources.HasRoom n) (fits : m.Fits)
    (live : r.Live m.resources) : r.Live m'.resources :=
  (h.resources.live_iff fits.resources live).mpr room

lemma hasRoom_iff (h : Later n k m m') (room : m.resources.HasRoom n) :
    m'.resources.HasRoom n' ↔ m.resources.HasRoom (n + n') := by
  unfold Growing.HasRoom
  rw [h.resources.length, h.resources.capacity (h.resources.stays room), Nat.add_assoc]

end Later

lemma HasRoom.mono {v : Growing α} (h : v.HasRoom n) (le : n' ≤ n) : v.HasRoom n' := by
  unfold Growing.HasRoom at *
  omega

namespace Building

lemma meets_assert {p : Prop} [Decidable p] (assertion : mode.error .assertion) :
    Meets mode (assert p) m fun _ m' => Later 0 0 m m' ∧ m' = m ∧ p := by
  unfold assert
  split
  · rename_i h
    exact meets_pure ⟨.refl, rfl, h⟩
  · exact meets_throw assertion

lemma meets_resourceAt {handle : ℕ} (assertion : mode.error .assertion) :
    Meets mode (resourceAt handle) m fun r m' =>
      Later 0 0 m m' ∧ m' = m ∧ r.index = handle ∧ r.Live m.resources := by
  refine meets_get ((meets_assert assertion).bind fun _ m' h => meets_pure ?_)
  obtain ⟨-, rfl, lt⟩ := h
  exact ⟨.refl, rfl, rfl, rfl, lt⟩

lemma meets_readResource (dangling : ¬ r.Live m.resources → mode.error .dangling) :
    Meets mode (readResource r) m fun node m' =>
      Later 0 0 m m' ∧ m' = m ∧ r.Live m.resources ∧ m.resources.items[r.index]? = some node := by
  refine meets_get ?_
  split
  · rename_i node hnode
    exact meets_pure ⟨.refl, rfl, Growing.read_eq_some_iff.mp hnode⟩
  · rename_i none
    exact meets_throw (dangling (Growing.read_eq_none_iff.mp none))

lemma meets_writeResource {f : ResourceNode → ResourceNode} (live : r.Live m.resources) :
    Meets mode (writeResource r f) m fun _ m' => Later 0 0 m m' ∧ True := by
  refine meets_get ?_
  rw [Growing.write, if_pos ⟨live.moves, live.index⟩]
  exact ⟨⟨.of_eq (List.length_modify ..) rfl rfl, .refl⟩, trivial⟩

lemma meets_readPass (dangling : ¬ r.Live m.passes → mode.error .dangling) :
    Meets mode (readPass r) m fun node m' =>
      Later 0 0 m m' ∧ m' = m ∧ r.Live m.passes ∧ m.passes.items[r.index]? = some node := by
  refine meets_get ?_
  split
  · rename_i node hnode
    exact meets_pure ⟨.refl, rfl, Growing.read_eq_some_iff.mp hnode⟩
  · rename_i none
    exact meets_throw (dangling (Growing.read_eq_none_iff.mp none))

lemma meets_writePass {f : PassNode → PassNode} (dangling : ¬ r.Live m.passes → mode.error .dangling) :
    Meets mode (writePass r f) m fun _ m' => Later 0 0 m m' ∧ r.Live m.passes := by
  refine meets_get ?_
  unfold Growing.write
  split
  · rename_i passes hpasses
    split at hpasses
    · rename_i live
      cases hpasses
      exact ⟨⟨.refl, .of_eq (List.length_modify ..) rfl rfl⟩, live.1, live.2⟩
    · cases hpasses
  · rename_i hpasses
    split at hpasses
    · cases hpasses
    · rename_i lost
      exact dangling fun live => lost ⟨live.moves, live.index⟩

lemma meets_addEdge {fromIndex toIndex : ℕ} {usage : ResourceState} :
    Meets mode (addEdge fromIndex toIndex usage) m fun _ m' =>
      Later 0 0 m m' ∧ m'.passes = m.passes := ⟨⟨.refl, .refl⟩, rfl⟩

lemma meets_pushResource {resource : ResourceNode} :
    Meets mode (pushResource growth resource) m fun _ m' =>
      Later 1 0 m m' ∧ m'.resources = m.resources.push growth resource :=
  ⟨⟨.push resource, .refl⟩, rfl⟩

lemma meets_emplacePass {type : PassType} :
    Meets mode (emplacePass growth type) m fun r m' => Later 0 1 m m' ∧ m'.resources = m.resources ∧
      r.Live m'.passes ∧ m'.passes.items[r.index]? = some (.new type) :=
  ⟨⟨.refl, .push _⟩, rfl, Growing.read_eq_some_iff.mp (read_push _)⟩

lemma meets_addPass {type : PassType} : Meets mode (addPass growth type) m fun b m' =>
    Later 0 1 m m' ∧ b.passNode.index = b.passIndex ∧ b.passNode.Live m'.passes ∧
      m'.passes.items[b.passNode.index]? = some (.new type) :=
  meets_emplacePass.bind fun _ _ h => meets_pure ⟨h.1, rfl, h.2.2⟩

lemma meets_keepEdge {fromIndex toIndex : ℕ} {usage : ResourceState} {f : ℕ → PassNode → PassNode}
    (dangling : ¬ r.Live m.passes → mode.error .dangling) :
    Meets mode (addEdge fromIndex toIndex usage >>= fun edge => writePass r (f edge)) m fun _ m' =>
      Later 0 0 m m' ∧ r.Live m.passes := by
  refine meets_addEdge.bind fun edge m₁ h => ?_
  obtain ⟨later, same⟩ := h
  rw [← same] at dangling ⊢
  exact (meets_writePass dangling).imp fun _ _ h => ⟨later.trans h.1, h.2⟩

section Calls

variable (assertion : mode.error .assertion) (noend : mode.unended) (fits : m.Fits)
include assertion

lemma meets_nodeOf {type : ResourceType} {handle : ℕ} : Meets mode (nodeOf type handle) m fun node m' =>
    m' = m ∧ m.resources.items[handle]? = some node := by
  refine (meets_assert assertion).bind fun _ m₁ h => ?_
  obtain ⟨-, rfl, -⟩ := h
  refine (meets_resourceAt assertion).bind fun r m₂ h => ?_
  obtain ⟨-, rfl, rfl, live⟩ := h
  refine (meets_readResource fun dead => absurd live dead).bind fun node m₃ h => ?_
  obtain ⟨-, rfl, -, item⟩ := h
  refine (meets_assert assertion).bind fun _ m₄ h => ?_
  obtain ⟨-, rfl, -⟩ := h
  exact meets_pure ⟨rfl, item⟩

lemma meets_modifyBuffer {buffer : ℕ} {f : ResourceNode → ResourceNode} :
    Meets mode (modifyBuffer buffer f) m fun _ m' => Later 0 0 m m' := by
  refine (meets_nodeOf assertion).bind fun _ m₁ h => ?_
  obtain ⟨rfl, -⟩ := h
  refine (meets_resourceAt assertion).bind fun r m₂ h => ?_
  obtain ⟨-, rfl, -, live⟩ := h
  exact (meets_writeResource live).imp fun _ _ h => h.1

lemma meets_importTextureImpl {imported mipLevels arraySize dynamicHandle : ℕ} :
    Meets mode (importTextureImpl growth imported mipLevels arraySize dynamicHandle) m fun _ m' =>
      ∃ n, Later n 0 m m' := by
  refine meets_get ?_
  split
  · exact meets_pure ⟨0, .refl⟩
  · refine (meets_assert assertion).bind fun _ m₁ h => ?_
    obtain ⟨-, rfl, -⟩ := h
    exact meets_pushResource.imp fun _ _ h => ⟨1, h.1⟩

include noend

lemma meets_rootTexture : ∀ {fuel index : ℕ}, Meets mode (rootTexture fuel index) m fun root m' =>
    m' = m ∧ root.2.Live m.resources := by
  intro fuel
  induction fuel with
  | zero => exact fun {index} => meets_lift (yields_unended noend)
  | succ fuel ih =>
    intro index
    refine (meets_resourceAt assertion).bind fun r m₁ h => ?_
    obtain ⟨-, rfl, -, live⟩ := h
    refine (meets_readResource fun dead => absurd live dead).bind fun node m₂ h => ?_
    obtain ⟨-, rfl, -, -⟩ := h
    refine (meets_assert assertion).bind fun _ m₃ h => ?_
    obtain ⟨-, rfl, -⟩ := h
    split
    · exact ih
    · exact meets_pure ⟨rfl, live⟩

include fits in
lemma meets_declareTextureSubresource {parent mipmap slice : ℕ}
    (dangling : ¬ m.resources.HasRoom 1 → mode.error .dangling) :
    Meets mode (declareTextureSubresource growth parent mipmap slice) m fun _ m' =>
      Later 1 0 m m' ∧ m.resources.HasRoom 1 := by
  refine (meets_assert assertion).bind fun _ m₁ h => ?_
  obtain ⟨-, rfl, -⟩ := h
  refine meets_get ((meets_rootTexture assertion noend).bind fun root m₂ h => ?_)
  obtain ⟨rfl, live⟩ := h
  refine meets_pushResource.bind fun index m₃ h => ?_
  obtain ⟨pushed, -⟩ := h
  have kept := pushed.resources.live_iff fits.resources live
  refine (meets_readResource fun dead => dangling (mt kept.mpr dead)).bind fun node m₄ h => ?_
  obtain ⟨-, rfl, live', -⟩ := h
  refine (meets_resourceAt assertion).bind fun r m₅ h => ?_
  obtain ⟨-, rfl, -, written⟩ := h
  refine (meets_writeResource written).bind fun _ m₆ h => meets_pure ⟨?_, kept.mp live'⟩
  exact pushed.trans h.1

omit noend
include fits

lemma meets_addUpload {pass usedNode : Ref} {dest : ℕ} (hpass : pass.Live m.passes)
    (hused : usedNode.Live m.resources) (dangling : ¬ m.resources.HasRoom 1 → mode.error .dangling) :
    Meets mode (addUpload growth pass usedNode dest) m fun _ m' =>
      Later 1 0 m m' ∧ m.resources.HasRoom 1 := by
  -- no pass is appended, so the pass of the upload stays where it is
  have lives : ∀ {n m'}, Later n 0 m m' → pass.Live m'.passes := fun later => later.pass_live fits hpass
  refine (meets_writePass fun dead => absurd (lives .refl) dead).bind fun _ m₁ h₁ => ?_
  refine (meets_keepEdge fun dead => absurd (lives h₁.1) dead).bind fun _ m₂ h₂ => ?_
  refine meets_pushResource.bind fun staging m₃ h₃ => ?_
  have pushed : Later 1 0 m m₃ := (h₁.1.trans h₂.1).trans h₃.1
  have kept := pushed.resources.live_iff fits.resources hused
  refine (meets_readResource fun dead => dangling (mt kept.mpr dead)).bind fun _ m₄ h => ?_
  obtain ⟨-, rfl, live, -⟩ := h
  refine (meets_modifyBuffer assertion).bind fun _ m₅ h₅ => ?_
  refine (meets_modifyBuffer assertion).bind fun _ m₆ h₆ => ?_
  refine (meets_modifyBuffer assertion).bind fun _ m₇ h₇ => ?_
  have later₇ : Later 1 0 m m₇ := ((pushed.trans h₅).trans h₆).trans h₇
  refine (meets_writePass fun dead => absurd (lives later₇) dead).bind fun _ m₈ h₈ => ?_
  have later₈ : Later 1 0 m m₈ := later₇.trans h₈.1
  refine (meets_keepEdge fun dead => absurd (lives later₈) dead).imp fun _ _ h => ?_
  exact ⟨later₈.trans h.1, kept.mp live⟩

lemma meets_addUploadBufferPass {buffer : ℕ} (dangling : ¬ m.resources.HasRoom 1 → mode.error .dangling) :
    Meets mode (addUploadBufferPass growth buffer) m fun _ m' =>
      Later 1 1 m m' ∧ m.resources.HasRoom 1 := by
  refine meets_emplacePass.bind fun pass m₁ h => ?_
  obtain ⟨later, same, hpass, -⟩ := h
  refine (meets_assert assertion).bind fun _ m₂ h => ?_
  obtain ⟨-, rfl, -⟩ := h
  refine (meets_resourceAt assertion).bind fun r m₃ h => ?_
  obtain ⟨-, rfl, -, live⟩ := h
  refine (meets_readResource fun dead => absurd live dead).bind fun node m₄ h => ?_
  obtain ⟨-, rfl, -, -⟩ := h
  refine (meets_assert assertion).bind fun _ m₅ h => ?_
  obtain ⟨-, rfl, -⟩ := h
  rw [← same] at dangling ⊢
  exact (meets_addUpload assertion (later.fits fits) hpass live dangling).imp fun _ _ h =>
    ⟨later.trans h.1, h.2⟩

lemma meets_declareUniformBufferQuick
    (dangling : ¬ (m.resources.push growth .new).HasRoom 1 → mode.error .dangling) :
    Meets mode (declareUniformBufferQuick growth) m fun _ m' =>
      Later 2 1 m m' ∧ (m.resources.push growth .new).HasRoom 1 := by
  refine meets_pushResource.bind fun ubo m₁ h => ?_
  obtain ⟨later, same⟩ := h
  have room : m₁.resources.HasRoom 1 ↔ (m.resources.push growth .new).HasRoom 1 := by
    rw [same]
    exact hasRoom_push _ _
  refine (meets_addUploadBufferPass assertion (later.fits fits) (dangling ∘ mt room.mpr)).imp fun _ _ h => ?_
  exact ⟨later.trans h.1, room.mp h.2⟩

include noend

lemma meets_addUploadTexturePass {texture mipmap slice : ℕ}
    (dangling : ¬ (∀ node, m.resources.items[texture]? = some node →
      m.resources.HasRoom (if node.mipCount = 1 ∧ node.arraySize = 1 then 1 else 2)) → mode.error .dangling) :
    Meets mode (addUploadTexturePass growth texture mipmap slice) m fun _ m' =>
      ∃ n, Later n 1 m m' ∧ ∀ node, m.resources.items[texture]? = some node →
        m.resources.HasRoom (if node.mipCount = 1 ∧ node.arraySize = 1 then 1 else 2) := by
  refine meets_emplacePass.bind fun pass m₁ h => ?_
  obtain ⟨later, same, hpass, -⟩ := h
  refine (meets_assert assertion).bind fun _ m₂ h => ?_
  obtain ⟨-, rfl, -⟩ := h
  refine (meets_resourceAt assertion).bind fun r m₃ h => ?_
  obtain ⟨-, rfl, rfl, live⟩ := h
  refine (meets_readResource fun dead => absurd live dead).bind fun node m₄ h => ?_
  obtain ⟨-, rfl, -, item⟩ := h
  refine (meets_assert assertion).bind fun _ m₅ h => ?_
  obtain ⟨-, rfl, -⟩ := h
  have fits' : m₅.Fits := later.fits fits
  rw [← same] at dangling ⊢
  simp only [item, Option.some.injEq, forall_eq'] at dangling ⊢
  split
  · rename_i single
    rw [if_pos single] at dangling
    refine (meets_addUpload assertion fits' hpass live dangling).imp fun _ _ h => ?_
    exact ⟨1, later.trans h.1, h.2⟩
  · rename_i several
    rw [if_neg several] at dangling
    -- the subresource is appended first, and then the staging buffer
    have first : ¬ m₅.resources.HasRoom 1 → mode.error .dangling := fun full =>
      dangling fun room => full (HasRoom.mono room one_le_two)
    refine (meets_declareTextureSubresource assertion noend fits' first).bind fun used m₆ h => ?_
    obtain ⟨declared, room⟩ := h
    refine (meets_resourceAt assertion).bind fun r' m₇ h => ?_
    obtain ⟨-, rfl, -, live'⟩ := h
    have left : m₇.resources.HasRoom 1 ↔ m₅.resources.HasRoom 2 := declared.hasRoom_iff room
    refine (meets_addUpload assertion (declared.fits fits') (declared.pass_live fits' hpass) live'
      (dangling ∘ mt left.mpr)).imp fun _ _ h => ?_
    exact ⟨2, later.trans (declared.trans h.1), left.mp h.2⟩

omit noend
variable {b : Builder} (dangling : ¬ b.passNode.Live m.passes → mode.error .dangling)
include dangling

lemma meets_addColorAttachment {texture : ℕ}
    (outOfRange : ¬ (∀ node, m.passes.items[b.passNode.index]? = some node → node.colorAttachments.length < 8) →
      mode.error .outOfRange) :
    Meets mode (addColorAttachment b texture) m fun _ m' => Later 0 0 m m' ∧ b.passNode.Live m.passes ∧
      ∀ node, m.passes.items[b.passNode.index]? = some node → node.colorAttachments.length < 8 := by
  refine (meets_readPass dangling).bind fun node m₁ h => ?_
  obtain ⟨-, rfl, live, item⟩ := h
  simp only [item, Option.some.injEq, forall_eq'] at outOfRange ⊢
  refine (meets_assert assertion).bind fun _ m₂ h => ?_
  obtain ⟨-, rfl, -⟩ := h
  refine (meets_assert assertion).bind fun _ m₃ h => ?_
  obtain ⟨-, rfl, -⟩ := h
  refine (meets_keepEdge dangling).bind fun _ m₄ h => ?_
  have live' : b.passNode.Live m₄.passes := h.1.pass_live fits live
  split
  · rename_i left
    exact (meets_writePass fun dead => absurd live' dead).imp fun _ _ h' => ⟨h.1.trans h'.1, live, left⟩
  · rename_i full
    exact meets_throw (outOfRange full)

lemma meets_addDepthAttachment {texture : ℕ} : Meets mode (addDepthAttachment b texture) m fun _ m' =>
    Later 0 0 m m' ∧ b.passNode.Live m.passes := by
  refine (meets_readPass dangling).bind fun node m₁ h => ?_
  obtain ⟨-, rfl, live, item⟩ := h
  refine (meets_assert assertion).bind fun _ m₂ h => ?_
  obtain ⟨-, rfl, -⟩ := h
  refine (meets_assert assertion).bind fun _ m₃ h => ?_
  obtain ⟨-, rfl, -⟩ := h
  refine (meets_keepEdge dangling).bind fun _ m₄ h₄ => ?_
  have live₄ : b.passNode.Live m₄.passes := h₄.1.pass_live fits live
  refine (meets_keepEdge fun dead => absurd live₄ dead).bind fun _ m₅ h₅ => ?_
  have later : Later 0 0 m₃ m₅ := h₄.1.trans h₅.1
  have live₅ : b.passNode.Live m₅.passes := later.pass_live fits live
  exact (meets_writePass fun dead => absurd live₅ dead).imp fun _ _ h => ⟨later.trans h.1, live⟩

omit fits

lemma meets_useBufferAs {buffer : ℕ} {state : ResourceState} :
    Meets mode (useBufferAs b buffer state) m fun _ m' => Later 0 0 m m' ∧ b.passNode.Live m.passes := by
  refine (meets_nodeOf assertion).bind fun node m₁ h => ?_
  obtain ⟨rfl, -⟩ := h
  refine (meets_assert assertion).bind fun _ m₂ h => ?_
  obtain ⟨-, rfl, -⟩ := h
  exact meets_keepEdge dangling

lemma meets_useBuffer {buffer : ℕ} : Meets mode (useBuffer b buffer) m fun _ m' =>
    Later 0 0 m m' ∧ b.passNode.Live m.passes := by
  refine (meets_nodeOf assertion).bind fun node m₁ h => ?_
  obtain ⟨rfl, -⟩ := h
  split
  · exact meets_keepEdge dangling
  split
  · exact meets_keepEdge dangling
  split
  · exact meets_keepEdge dangling
  · exact meets_throw assertion

lemma meets_computeUseBuffer {buffer : ℕ} : Meets mode (computeUseBuffer b buffer) m fun _ m' =>
    Later 0 0 m m' ∧ b.passNode.Live m.passes := by
  refine (meets_nodeOf assertion).bind fun node m₁ h => ?_
  obtain ⟨rfl, -⟩ := h
  split
  · exact meets_keepEdge dangling
  split
  · exact meets_keepEdge dangling
  split
  · exact meets_keepEdge dangling
  split
  · exact meets_keepEdge dangling
  · exact meets_throw assertion

lemma meets_readwriteBuffer {buffer : ℕ} (fits : m.Fits) : Meets mode (readwriteBuffer b buffer) m fun _ m' =>
    Later 0 0 m m' ∧ b.passNode.Live m.passes := by
  refine (meets_nodeOf assertion).bind fun node m₁ h => ?_
  obtain ⟨rfl, -⟩ := h
  refine (meets_keepEdge dangling).bind fun _ m₂ h => ?_
  have live : b.passNode.Live m₂.passes := h.1.pass_live fits h.2
  exact (meets_keepEdge fun dead => absurd live dead).imp fun _ _ h' => ⟨h.1.trans h'.1, h.2⟩

omit dangling
include noend fits

lemma meets_generateMips {textureNode : Ref} {texture slice last : ℕ} {mips : List ℕ}
    (live : textureNode.Live m.resources) (dangling : ¬ m.resources.HasRoom mips.length → mode.error .dangling) :
    Meets mode (generateMips growth textureNode texture slice last mips) m fun _ m' =>
      ∃ k, Later mips.length k m m' ∧ m.resources.HasRoom mips.length := by
  induction mips generalizing m last with
  | nil =>
    refine (meets_readResource fun dead => absurd live dead).bind fun _ _ h => meets_pure ?_
    exact ⟨0, h.1, fits.resources⟩
  | cons i mips ih =>
    refine (meets_readResource fun dead => absurd live dead).bind fun _ m₁ h => ?_
    obtain ⟨-, rfl, -, -⟩ := h
    have first : ¬ m₁.resources.HasRoom 1 → mode.error .dangling := fun full =>
      dangling fun room => full (HasRoom.mono room (Nat.le_add_left 1 _))
    refine (meets_declareTextureSubresource assertion noend fits first).bind fun mip m₂ h => ?_
    obtain ⟨declared, room⟩ := h
    refine meets_addPass.bind fun b m₃ h => ?_
    obtain ⟨appended, -, hpass, item⟩ := h
    have later₃ : Later 1 1 m₁ m₃ := declared.trans appended
    have left : ∀ node, m₃.passes.items[b.passNode.index]? = some node →
        node.colorAttachments.length < 8 := by
      intro node hnode
      cases item.symm.trans hnode
      exact Nat.succ_pos 7
    have fits₃ : m₃.Fits := later₃.fits fits
    refine (meets_addColorAttachment assertion fits₃ (fun dead => absurd hpass dead)
      fun none => absurd left none).bind fun _ m₄ h₄ => ?_
    have live₄ : b.passNode.Live m₄.passes := h₄.1.pass_live fits₃ hpass
    refine (meets_keepEdge fun dead => absurd live₄ dead).bind fun _ m₅ h₅ => ?_
    have later₅ : Later 0 0 m₃ m₅ := h₄.1.trans h₅.1
    have live₅ : b.passNode.Live m₅.passes := later₅.pass_live fits₃ hpass
    refine (meets_writePass fun dead => absurd live₅ dead).bind fun _ m₆ h₆ => ?_
    have later : Later 1 1 m₁ m₆ := later₃.trans (later₅.trans h₆.1)
    have rest : m₆.resources.HasRoom mips.length ↔ m₁.resources.HasRoom (i :: mips).length := by
      rw [later.hasRoom_iff room, List.length_cons, Nat.add_comm]
    refine (ih (later.fits fits) (later.resource_live room fits live) (dangling ∘ mt rest.mpr)).imp
      fun _ _ h => ?_
    obtain ⟨k, h, room'⟩ := h
    refine ⟨1 + k, ?_, rest.mp room'⟩
    rw [List.length_cons, Nat.add_comm]
    exact later.trans h

lemma meets_generateSlices {textureNode : Ref} {texture fromMipmap : ℕ} {mips slices : List ℕ}
    (live : textureNode.Live m.resources)
    (dangling : ¬ m.resources.HasRoom (slices.length * (1 + mips.length)) → mode.error .dangling) :
    Meets mode (generateSlices growth textureNode texture fromMipmap mips slices) m fun _ m' =>
      ∃ k, Later (slices.length * (1 + mips.length)) k m m' ∧
        m.resources.HasRoom (slices.length * (1 + mips.length)) := by
  induction slices generalizing m with
  | nil =>
    refine (meets_readResource fun dead => absurd live dead).bind fun _ _ h => meets_pure ?_
    rw [List.length_nil, Nat.zero_mul]
    exact ⟨0, h.1, fits.resources⟩
  | cons slice slices ih =>
    have total : (slice :: slices).length * (1 + mips.length) =
        1 + mips.length + slices.length * (1 + mips.length) := by
      rw [List.length_cons, Nat.succ_mul, Nat.add_comm]
    rw [total] at dangling ⊢
    refine (meets_readResource fun dead => absurd live dead).bind fun _ m₁ h => ?_
    obtain ⟨-, rfl, -, -⟩ := h
    have first : ¬ m₁.resources.HasRoom 1 → mode.error .dangling := fun full =>
      dangling fun room => full (HasRoom.mono room (by omega))
    refine (meets_declareTextureSubresource assertion noend fits first).bind fun last m₂ h => ?_
    obtain ⟨declared, room⟩ := h
    have second : ¬ m₂.resources.HasRoom mips.length → mode.error .dangling := fun full =>
      dangling fun room' => full ((declared.hasRoom_iff room).mpr (HasRoom.mono room' (Nat.le_add_right _ _)))
    refine (meets_generateMips assertion noend (declared.fits fits)
      (declared.resource_live room fits live) second).bind fun _ m₃ h => ?_
    obtain ⟨k, levels, room₂⟩ := h
    have later : Later (1 + mips.length) (0 + k) m₁ m₃ := declared.trans levels
    have room₃ : m₁.resources.HasRoom (1 + mips.length) := (declared.hasRoom_iff room).mp room₂
    have rest : m₃.resources.HasRoom (slices.length * (1 + mips.length)) ↔
        m₁.resources.HasRoom (1 + mips.length + slices.length * (1 + mips.length)) := later.hasRoom_iff room₃
    refine (ih (later.fits fits) (later.resource_live room₃ fits live) (dangling ∘ mt rest.mpr)).imp
      fun _ _ h => ?_
    obtain ⟨k', h, room'⟩ := h
    exact ⟨0 + k + k', later.trans h, rest.mp room'⟩

lemma meets_addGenerateMipmap {texture fromMipmap : ℕ}
    (dangling : ¬ (∀ node, m.resources.items[texture]? = some node →
      m.resources.HasRoom (mipmapCount node fromMipmap)) → mode.error .dangling) :
    Meets mode (addGenerateMipmap growth texture fromMipmap) m fun _ m' =>
      ∃ n k, Later n k m m' ∧ ∀ node, m.resources.items[texture]? = some node →
        m.resources.HasRoom (mipmapCount node fromMipmap) := by
  refine (meets_assert assertion).bind fun _ m₁ h => ?_
  obtain ⟨-, rfl, -⟩ := h
  refine (meets_resourceAt assertion).bind fun r m₂ h => ?_
  obtain ⟨-, rfl, rfl, live⟩ := h
  refine (meets_readResource fun dead => absurd live dead).bind fun node m₃ h => ?_
  obtain ⟨-, rfl, -, item⟩ := h
  refine (meets_assert assertion).bind fun _ m₄ h => ?_
  obtain ⟨-, rfl, -⟩ := h
  simp only [item, Option.some.injEq, forall_eq'] at dangling ⊢
  unfold mipmapCount at dangling ⊢
  split
  · exact meets_pure ⟨0, 0, .refl, fits.resources⟩
  · rename_i fewer
    rw [if_neg fewer] at dangling
    have count : ((List.range node.arraySize).length *
        (1 + ((List.range node.mipCount).drop fromMipmap).length)) =
          node.arraySize * (1 + (node.mipCount - fromMipmap)) := by
      rw [List.length_drop, List.length_range, List.length_range]
    rw [← count] at dangling ⊢
    refine (meets_generateSlices assertion noend fits live dangling).imp fun _ _ h => ?_
    obtain ⟨k, later, room⟩ := h
    exact ⟨_, k, later, room⟩

end Calls

lemma meets_present {texture : ℕ} : Meets mode (present growth texture) m fun _ m' => Later 0 1 m m' := by
  refine meets_emplacePass.bind fun pass m₁ h => ?_
  obtain ⟨later, -, hpass, -⟩ := h
  exact (meets_keepEdge fun dead => absurd hpass dead).imp fun _ _ h => later.trans h.1

end Building

namespace Site

variable {s s' : Site} {b : Builder} {pass : ℕ} {P : Prop} {c : BuildingCall}

/-- The vectors have room for their elements, and every builder points to the pass of its index. -/
structure WF (s : Site) : Prop where
  fits : s.memory.Fits
  builders : ∀ b ∈ s.builders, b.passNode.index = b.passIndex ∧ b.passIndex < s.memory.passes.items.length

lemma WF.later (wf : s.WF) (h : Later n k s.memory m') : WF ⟨m', s.builders⟩ := by
  refine ⟨h.fits wf.fits, fun b hb => ⟨(wf.builders b hb).1, ?_⟩⟩
  rw [h.passes.length]
  exact Nat.lt_add_right k (wf.builders b hb).2

lemma builderOf_mem (hb : s.builderOf pass = some b) : b ∈ s.builders ∧ b.passIndex = pass := by
  refine ⟨List.mem_of_find?_eq_some hb, ?_⟩
  have found := List.find?_some hb
  exact of_decide_eq_true found

lemma WF.builderLive_iff (wf : s.WF) (hb : s.builderOf pass = some b) :
    s.BuilderLive pass ↔ b.passNode.Live s.memory.passes := by
  obtain ⟨index, lt⟩ := wf.builders b (builderOf_mem hb).1
  constructor
  · exact fun h => ⟨h b hb, index ▸ lt⟩
  · intro live b' hb'
    cases hb.symm.trans hb'
    exact live.moves

lemma meets_without {x : Building α} (wf : s.WF)
    (h : Meets mode x s.memory fun _ m' => ∃ n k, Later n k s.memory m' ∧ P) :
    Meets mode (s.without x) s.memory fun builders m' => P ∧ WF ⟨m', builders⟩ := by
  refine h.bind fun _ m' h => meets_pure ?_
  obtain ⟨n, k, later, hp⟩ := h
  exact ⟨hp, wf.later later⟩

lemma meets_withNew {type : PassType} (wf : s.WF) :
    Meets mode (s.withNew (Building.addPass growth type)) s.memory fun builders m' =>
      True ∧ WF ⟨m', builders⟩ := by
  refine Building.meets_addPass.bind fun b m' h => meets_pure ⟨trivial, ?_⟩
  obtain ⟨later, index, live, -⟩ := h
  have earlier : WF ⟨m', s.builders⟩ := wf.later later
  refine ⟨earlier.fits, fun b' hb' => ?_⟩
  obtain hb' | hb' := List.mem_append.mp hb'
  · exact earlier.builders b' hb'
  · cases List.mem_singleton.mp hb'
    exact ⟨index, index ▸ live.index⟩

lemma meets_withBuilder {x : Builder → Building PUnit} (wf : s.WF) (assertion : mode.error .assertion)
    (h : ∀ b, s.builderOf pass = some b →
      Meets mode (x b) s.memory fun _ m' => Later 0 0 s.memory m' ∧ P) :
    Meets mode (s.withBuilder pass x) s.memory fun builders m' => P ∧ WF ⟨m', builders⟩ := by
  unfold withBuilder
  split
  · rename_i b hb
    refine (h b hb).bind fun _ m' h => meets_pure ?_
    exact ⟨h.2, wf.later h.1⟩
  · exact (meets_throw (Q := fun _ _ => False) assertion).bind fun _ _ h => h.elim

lemma meets_withLive {x : Builder → Building PUnit} (wf : s.WF) (assertion : mode.error .assertion)
    (lost : ¬ s.BuilderLive pass → mode.error .dangling)
    (h : ∀ b, (¬ b.passNode.Live s.memory.passes → mode.error .dangling) →
      Meets mode (x b) s.memory fun _ m' => Later 0 0 s.memory m' ∧ b.passNode.Live s.memory.passes) :
    Meets mode (s.withBuilder pass x) s.memory fun builders m' =>
      s.BuilderLive pass ∧ WF ⟨m', builders⟩ := by
  refine meets_withBuilder wf assertion fun b hb => ?_
  have live := wf.builderLive_iff hb
  exact (h b (lost ∘ mt live.mp)).imp fun _ _ h => ⟨h.1, live.mpr h.2⟩

/-- **One call**: it is stable, or it ends by a fault; where it returns, the site stays well formed. -/
lemma meets_call (wf : s.WF) (assertion : mode.error .assertion) (noend : mode.unended)
    (lost : ¬ s.Stable growth c → mode.error .dangling ∧ mode.error .outOfRange) :
    Meets mode (s.call growth c) s.memory fun builders m' => s.Stable growth c ∧ WF ⟨m', builders⟩ := by
  have dangling : ¬ s.Stable growth c → mode.error .dangling := fun h => (lost h).1
  cases c with
  | accessTexture texture =>
    refine meets_without wf ((Building.meets_nodeOf assertion).bind fun _ m' h => meets_pure ?_)
    obtain ⟨rfl, -⟩ := h
    exact ⟨0, 0, .refl, trivial⟩
  | accessBuffer buffer =>
    exact meets_without wf ((Building.meets_modifyBuffer assertion).imp fun _ _ h => ⟨0, 0, h, trivial⟩)
  | setExecutable pass => exact meets_withLive wf assertion dangling fun _ => Building.meets_writePass
  | declaration d =>
    cases d with
    | declareTexture | declareBuffer | importBuffer =>
      exact meets_without wf (Building.meets_pushResource.imp fun _ _ h => ⟨1, 0, h.1, trivial⟩)
    | importTexture =>
      exact meets_without wf ((Building.meets_importTextureImpl assertion).imp fun _ _ ⟨n, h⟩ =>
        ⟨n, 0, h, trivial⟩)
    | importBackbuffer =>
      refine meets_without wf (Building.meets_pushResource.bind fun _ m₁ h₁ => ?_)
      exact (Building.meets_importTextureImpl assertion).imp fun _ _ ⟨n, h⟩ =>
        ⟨1 + n, 0, h₁.1.trans h, trivial⟩
    | importDynamicBuffer dynamicHandle =>
      refine meets_without wf (meets_get ?_)
      split
      · exact meets_pure ⟨0, 0, .refl, trivial⟩
      · exact Building.meets_pushResource.imp fun _ _ h => ⟨1, 0, h.1, trivial⟩
    | declareUniformBufferQuick =>
      exact meets_without wf ((Building.meets_declareUniformBufferQuick assertion wf.fits dangling).imp
        fun _ _ h => ⟨2, 1, h⟩)
    | declareTextureSubresource =>
      exact meets_without wf ((Building.meets_declareTextureSubresource assertion noend wf.fits
        dangling).imp fun _ _ h => ⟨1, 0, h⟩)
    | bufferSetType | bufferSetHoldOnLast =>
      exact meets_without wf ((Building.meets_modifyBuffer assertion).imp fun _ _ h => ⟨0, 0, h, trivial⟩)
    | addRenderPass | addComputePass | addHoldpass => exact meets_withNew wf
    | addUploadTexturePass =>
      exact meets_without wf ((Building.meets_addUploadTexturePass assertion noend wf.fits dangling).imp
        fun _ _ ⟨n, h⟩ => ⟨n, 1, h⟩)
    | addUploadBufferPass =>
      exact meets_without wf ((Building.meets_addUploadBufferPass assertion wf.fits dangling).imp
        fun _ _ h => ⟨1, 1, h⟩)
    | addGenerateMipmap =>
      exact meets_without wf (Building.meets_addGenerateMipmap assertion noend wf.fits dangling)
    | present =>
      exact meets_without wf (Building.meets_present.imp fun _ _ h => ⟨0, 1, h, trivial⟩)
    | addColorAttachment pass texture =>
      refine meets_withBuilder wf assertion fun b hb => ?_
      have live := wf.builderLive_iff hb
      have index : b.passNode.index = pass :=
        (wf.builders b (builderOf_mem hb).1).1.trans (builderOf_mem hb).2
      refine (Building.meets_addColorAttachment assertion wf.fits (fun dead => ?_) fun full => ?_).imp
        fun _ _ h => ⟨h.1, live.mpr h.2.1, index ▸ h.2.2⟩
      · exact dangling fun h => dead (live.mp h.1)
      · exact (lost fun h => full (index ▸ h.2)).2
    | addDepthAttachment =>
      exact meets_withLive wf assertion dangling fun _ dead =>
        Building.meets_addDepthAttachment assertion wf.fits dead
    | sample => exact meets_withLive wf assertion dangling fun _ => Building.meets_keepEdge
    | useBuffer => exact meets_withLive wf assertion dangling fun _ dead =>
        Building.meets_useBuffer assertion dead
    | useBufferAs => exact meets_withLive wf assertion dangling fun _ dead =>
        Building.meets_useBufferAs assertion dead
    | computeUseBuffer =>
      exact meets_withLive wf assertion dangling fun _ dead =>
        Building.meets_computeUseBuffer assertion dead
    | readwriteBuffer =>
      exact meets_withLive wf assertion dangling fun _ dead =>
        Building.meets_readwriteBuffer assertion dead wf.fits

end Site

end PulseEngine.RenderGraph
