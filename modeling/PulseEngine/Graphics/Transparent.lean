import PulseEngine.Graphics.Reference

/-!
# The caches of the encoder do not show

Every update of the encoder keeps what it has in common with the reference (`Mirrors`), a request for
a descriptor set as long as it agrees with the earlier ones. `encoder_transparent` is the statement
about the calls of a pass.
-/

namespace PulseEngine.Graphics

lemma getResource_here {D : Type} [DecidableEq D] (descriptor : D) (pool : List D) :
    (getResource descriptor pool).2[(getResource descriptor pool).1]? = some descriptor := by
  unfold getResource
  split
  · rename_i i found
    obtain ⟨below, here, -⟩ := List.idxOf?_eq_some_iff.mp found
    show pool[i]? = some descriptor
    rw [List.getElem?_eq_getElem below, here]
  · show (pool ++ [descriptor])[pool.length]? = some descriptor
    exact List.getElem?_concat_length

lemma getElem?_append_kept {D : Type} {pool : List D} {h : ℕ} {x : D} (new : List D)
    (here : pool[h]? = some x) : (pool ++ new)[h]? = some x := by
  obtain ⟨below, -⟩ := List.getElem?_eq_some_iff.mp here
  rw [List.getElem?_append_left below, here]

lemma getResource_kept {D : Type} [DecidableEq D] (descriptor : D) {pool : List D} {h : ℕ} {x : D}
    (here : pool[h]? = some x) : (getResource descriptor pool).2[h]? = some x := by
  unfold getResource
  split
  · exact here
  · exact getElem?_append_kept [descriptor] here

lemma psoKey_shader (d : Pass) (shader topology : ℕ) (layout : VertexLayout) :
    (psoKey d shader topology layout).shader = shader := by
  simp only [psoKey]
  split <;> rfl

namespace Mirrors

variable {d : Pass} {past : List Request} {e : Encoder} {r : Reference}

lemma growPipelines (mirrors : Mirrors d past e r) {pool : List PSOKey}
    (kept : ∀ (h : ℕ) (x : PSOKey), e.pipelinePool[h]? = some x → pool[h]? = some x) :
    Mirrors d past { e with pipelinePool := pool } r :=
  { mirrors with
    renderPipeline := fun h bound => by
      obtain ⟨key, here, there⟩ := mirrors.renderPipeline h bound
      exact ⟨key, kept h key here, there⟩
    lastPipeline := fun h last => by
      obtain ⟨bound, raster⟩ := mirrors.lastPipeline h last
      refine ⟨bound, fun key here => raster key ?_⟩
      obtain ⟨key', here', -⟩ := mirrors.renderPipeline h bound
      have same : some key' = some key := (kept h key' here').symm.trans here
      rw [here', same] }

lemma updateTopology (mirrors : Mirrors d past e r) (topology : ℕ) :
    Mirrors d past (e.updateTopology d topology)
      { r with sight := Reference.bindTopology d topology r.sight } := by
  unfold Encoder.updateTopology Reference.bindTopology
  by_cases dynamic : d.dynamicStateT1 = true
  · rw [if_pos dynamic]
    split
    · exact
        { mirrors with
          topology := rfl
          lastTopology := fun t last => last }
    · rename_i same
      have last : e.lastPrimTopology = some topology := by
        by_contra other
        exact same ⟨dynamic, fun h => other h.symm⟩
      have bound := mirrors.lastTopology topology last
      exact { mirrors with topology := bound.symm }
  · rw [if_neg dynamic, if_neg fun h => dynamic h.1]
    exact mirrors

lemma bindPipeline_same {shader topology : ℕ} {layout : VertexLayout} {sight : Sight}
    (pipeline : sight.renderPipeline = some (psoKey d shader topology layout))
    (raster : d.dynamicStateT1 = true → sight.raster = some (d.shaders shader).rasterCommands) :
    Reference.bindPipeline d shader topology layout sight = sight := by
  simp only [Reference.bindPipeline]
  split
  · rw [← pipeline]
    split
    · rename_i dynamic
      rw [← raster dynamic]
    · rfl
  · rfl

lemma bindPipeline (mirrors : Mirrors d past e r) {shader topology i : ℕ} {layout : VertexLayout}
    (creates : d.creates (psoKey d shader topology layout) = true)
    (here : e.pipelinePool[i]? = some (psoKey d shader topology layout)) :
    Mirrors d past
      { (if some i ≠ e.lastRenderPipeline then e.bindRenderPipeline d shader i else e) with
        lastRenderPipeline := some i }
      { r with sight := Reference.bindPipeline d shader topology layout r.sight } := by
  split
  · simp only [Reference.bindPipeline, if_pos creates]
    exact
      { mirrors with
        renderPipeline := fun h bound => by
          cases bound
          exact ⟨_, here, rfl⟩
        noPipeline := fun none_bound => nomatch none_bound
        raster := by
          show (if _ then _ else _) = if _ then _ else _
          rw [mirrors.raster]
        lastPipeline := fun h last => by
          cases last
          refine ⟨rfl, fun key here' dynamic => ?_⟩
          have same : key = psoKey d shader topology layout :=
            Option.some.inj (here'.symm.trans here)
          rw [same, psoKey_shader]
          exact if_pos dynamic }
  · rename_i same
    have last : e.lastRenderPipeline = some i := (not_not.mp same).symm
    obtain ⟨bound, raster⟩ := mirrors.lastPipeline i last
    obtain ⟨key, here', there⟩ := mirrors.renderPipeline i bound
    have key_eq : key = psoKey d shader topology layout :=
      Option.some.inj (here'.symm.trans here)
    rw [bindPipeline_same (by rw [there, key_eq]) fun dynamic => by
      rw [mirrors.raster, raster key here' dynamic, key_eq, psoKey_shader]]
    rw [← last]
    exact mirrors

lemma updateRenderPipeline (mirrors : Mirrors d past e r) (shader topology : ℕ)
    (layout : VertexLayout) :
    Mirrors d past (e.updateRenderPipeline d (some shader) topology layout)
      { r with
        sight := Reference.bindTopology d topology
          (Reference.bindPipeline d shader topology layout r.sight) } := by
  have grown : Mirrors d past
      { e with pipelinePool := (getResource (psoKey d shader topology layout) e.pipelinePool).2 }
      r := mirrors.growPipelines fun h x here => getResource_kept _ here
  have here := getResource_here (psoKey d shader topology layout) e.pipelinePool
  by_cases creates : d.creates (psoKey d shader topology layout) = true
  · have got : e.getGraphicsPipeline d shader topology layout
        = (some (getResource (psoKey d shader topology layout) e.pipelinePool).1,
          { e with
            pipelinePool := (getResource (psoKey d shader topology layout) e.pipelinePool).2 }) := by
      simp only [Encoder.getGraphicsPipeline, if_pos creates]
    rw [Encoder.updateRenderPipeline, got]
    exact (grown.bindPipeline creates here).updateTopology topology
  · have got : e.getGraphicsPipeline d shader topology layout
        = (none,
          { e with
            pipelinePool := (getResource (psoKey d shader topology layout) e.pipelinePool).2 }) := by
      simp only [Encoder.getGraphicsPipeline, if_neg creates]
    have same : Reference.bindPipeline d shader topology layout r.sight = r.sight := by
      simp only [Reference.bindPipeline, if_neg creates]
    rw [Encoder.updateRenderPipeline, got, same]
    have left : Mirrors d past
        { e with
          pipelinePool := (getResource (psoKey d shader topology layout) e.pipelinePool).2
          lastRenderPipeline := none } r :=
      { grown with lastPipeline := fun h last => by cases last }
    exact left.updateTopology topology

lemma updateComputePipeline (mirrors : Mirrors d past e r) (shader : ℕ) :
    Mirrors d past (e.updateComputePipeline d shader)
      { r with sight := Reference.bindCompute d shader r.sight } := by
  have here := getResource_here shader e.computePipelinePool
  have grown : Mirrors d past
      { e with computePipelinePool := (getResource shader e.computePipelinePool).2 } r :=
    { mirrors with
      computePipeline := fun h bound => by
        obtain ⟨key, there, seen⟩ := mirrors.computePipeline h bound
        exact ⟨key, getResource_kept _ there, seen⟩ }
  simp only [Encoder.updateComputePipeline, Reference.bindCompute]
  by_cases creates : d.createsCompute shader = true
  · simp only [if_pos creates, Option.some_or]
    split
    · exact
        { grown with
          computePipeline := fun h bound => by
            cases bound
            exact ⟨shader, here, rfl⟩
          noCompute := fun none_bound => by cases none_bound
          lastCompute := fun h last => last }
    · rename_i same
      have last : e.lastComputePipeline = some (getResource shader e.computePipelinePool).1 :=
        (not_not.mp same).symm
      have bound := mirrors.lastCompute _ last
      exact
        { grown with
          computePipeline := fun h bound' => by
            cases bound.symm.trans bound'
            exact ⟨shader, here, rfl⟩
          noCompute := fun none_bound => by cases bound.symm.trans none_bound }
  · simp only [if_neg creates, Option.none_or]
    split
    · exact { grown with lastCompute := fun h last => by cases last }
    · exact grown

lemma findDset (mirrors : Mirrors d past e r) (rootSig : ℕ) (table : ParameterTable)
    (agree : ∀ q ∈ past, q.Agree (tableRequest d e.slots.resourceSets rootSig table)) :
    Mirrors d (past ++ [tableRequest d e.slots.resourceSets rootSig table])
        (e.findDset d rootSig table).2 r
      ∧ ∃ rootSig', (e.findDset d rootSig table).2.allocatedDsets[(e.findDset d rootSig table).1]?
          = some ⟨rootSig', table.setIndex,
              tableData d (e.slots.resourceSets table.setIndex) table⟩ := by
  have created : Mirrors d (past ++ [tableRequest d e.slots.resourceSets rootSig table])
        (Encoder.findDset.create d rootSig table e
          (tableRequest d e.slots.resourceSets rootSig table).hash
          (tableRequest d e.slots.resourceSets rootSig table).values
          (e.slots.resourceSets table.setIndex)).2 r
      ∧ ∃ rootSig',
        (e.allocatedDsets ++ [⟨rootSig, table.setIndex,
            tableData d (e.slots.resourceSets table.setIndex) table⟩])[e.allocatedDsets.length]?
          = some ⟨rootSig', table.setIndex,
              tableData d (e.slots.resourceSets table.setIndex) table⟩ := by
    refine ⟨?_, rootSig, List.getElem?_concat_length⟩
    exact
      { mirrors with
        descriptorSets := fun s h offsets bound => by
          obtain ⟨dset, here, there⟩ := mirrors.descriptorSets s h offsets bound
          exact ⟨dset, getElem?_append_kept _ here, there⟩
        cached := fun hash entry found => by
          rw [Encoder.findDset.create, List.lookup_cons] at found
          split at found
          · rename_i same
            cases found
            refine ⟨_, List.mem_append_right _ (List.mem_singleton_self _),
              (beq_iff_eq.mp same).symm, rfl, rootSig, List.getElem?_concat_length⟩
          · obtain ⟨q, mem, hash_eq, values, rootSig', here⟩ := mirrors.cached hash entry found
            exact ⟨q, List.mem_append_left _ mem, hash_eq, values, rootSig',
              getElem?_append_kept _ here⟩ }
  simp only [Encoder.findDset]
  split
  · rename_i entry found
    split
    · rename_i same
      obtain ⟨q, mem, hash, values, rootSig', here⟩ := mirrors.cached _ entry found
      obtain ⟨setIndex, datas⟩ := agree q mem hash (values.trans same)
      refine ⟨?_, rootSig', ?_⟩
      · exact
          { mirrors with
            cached := fun hash' entry' found' => by
              obtain ⟨q', mem', rest⟩ := mirrors.cached hash' entry' found'
              exact ⟨q', List.mem_append_left _ mem', rest⟩ }
      · rw [here, setIndex, datas]
        rfl
    · exact created
  · exact created

lemma bindDset (mirrors : Mirrors d past e r) {setIndex dset : ℕ} {rootSig : ℕ}
    {datas : List DescriptorData} (offsets : List ℕ)
    (here : e.allocatedDsets[dset]? = some ⟨rootSig, setIndex, datas⟩) :
    Mirrors d past (e.bindDset setIndex dset offsets)
      { r with
        sight := { r.sight with
          descriptorSets := fun s =>
            if s = setIndex then some (datas, offsets) else r.sight.descriptorSets s } } := by
  unfold Encoder.bindDset
  have index : e.dsetIndex dset = some setIndex := by
    rw [Encoder.dsetIndex, here]
    rfl
  split
  · exact
      { mirrors with
        descriptorSets := fun s h offs bound => by
          simp only [index, Option.some.injEq] at bound ⊢
          split at bound
          · rename_i same
            cases bound
            exact ⟨_, here, if_pos same.symm⟩
          · rename_i other
            rw [if_neg (Ne.symm other)]
            exact mirrors.descriptorSets s h offs bound
        noSet := fun s none_bound => by
          simp only [index, Option.some.injEq] at none_bound ⊢
          split at none_bound
          · cases none_bound
          · rename_i other
            rw [if_neg (Ne.symm other)]
            exact mirrors.noSet s none_bound
        lastBound := fun s h last => by
          simp only [index, Option.some.injEq] at last ⊢
          split at last
          · rename_i same
            cases last
            rw [if_pos same.symm, if_pos same]
          · rename_i other
            rw [if_neg (Ne.symm other), if_neg other]
            exact mirrors.lastBound s h last }
  · rename_i same
    obtain ⟨last, lastOffsets⟩ := not_or.mp same
    have bound := mirrors.lastBound setIndex dset (not_not.mp last).symm
    rw [← not_not.mp lastOffsets] at bound
    obtain ⟨set, here', there⟩ := mirrors.descriptorSets setIndex dset offsets bound
    have set_eq : set = ⟨rootSig, setIndex, datas⟩ := Option.some.inj (here'.symm.trans here)
    have unchanged : (fun s => if s = setIndex then some (datas, offsets)
        else r.sight.descriptorSets s) = r.sight.descriptorSets := by
      funext s
      split
      · rename_i same
        rw [same, there, set_eq]
      · rfl
    rw [unchanged]
    exact mirrors

lemma updateTable (mirrors : Mirrors d past e r) (rootSig : ℕ) (table : ParameterTable)
    (agree : ∀ q ∈ past, ∀ q' ∈ tableRequests d e.slots.resourceSets rootSig table, q.Agree q') :
    Mirrors d (past ++ tableRequests d e.slots.resourceSets rootSig table)
      (e.updateTable d rootSig table)
      { r with sight := Reference.bindTable d r.slots.resourceSets r.sight table } := by
  unfold Encoder.updateTable Reference.bindTable
  unfold tableRequests at agree ⊢
  split
  · rw [List.append_nil]
    exact mirrors
  · rename_i used
    rw [if_neg used] at agree
    obtain ⟨found, rootSig', here⟩ := mirrors.findDset rootSig table fun q mem =>
      agree q mem _ (List.mem_singleton_self _)
    have bound := found.bindDset (slotOffsets (e.slots.resourceSets table.setIndex) table.used) here
    have sets : (fun s => if s = table.setIndex then
          some (tableData d (e.slots.resourceSets table.setIndex) table,
            slotOffsets (e.slots.resourceSets table.setIndex) table.used)
          else r.sight.descriptorSets s)
        = fun s => if s = table.setIndex then
          some (tableData d (r.slots.resourceSets s) table,
            slotOffsets (r.slots.resourceSets s) table.used)
          else r.sight.descriptorSets s := by
      funext s
      split
      · rename_i same
        rw [same, mirrors.slots]
      · rfl
    rw [sets] at bound
    exact bound

lemma updateTables (mirrors : Mirrors d past e r) (rootSig : ℕ) (tables : List ParameterTable)
    (agree : (past ++ tables.flatMap (tableRequests d e.slots.resourceSets rootSig)).Pairwise
      Request.Agree) :
    Mirrors d (past ++ tables.flatMap (tableRequests d e.slots.resourceSets rootSig))
      (tables.foldl (Encoder.updateTable d rootSig) e)
      { r with
        sight := tables.foldl (Reference.bindTable d r.slots.resourceSets) r.sight } := by
  induction tables generalizing past e r with
  | nil =>
    rw [List.flatMap_nil, List.append_nil]
    exact mirrors
  | cons table tables ih =>
    rw [List.flatMap_cons, ← List.append_assoc] at agree ⊢
    have slots : (e.updateTable d rootSig table).slots = e.slots :=
      Encoder.updateTable_slots d rootSig e table
    have one := mirrors.updateTable rootSig table fun q mem q' mem' =>
      (List.pairwise_append.mp (List.pairwise_append.mp agree).1).2.2 q mem q' mem'
    rw [List.foldl_cons, List.foldl_cons, ← slots]
    rw [← slots] at agree one
    exact ih one agree

lemma updateDescriptorSet (mirrors : Mirrors d past e r) (rootSig : RootSignature)
    (agree : (past ++ requests d e.slots.resourceSets rootSig).Pairwise Request.Agree) :
    Mirrors d (past ++ requests d e.slots.resourceSets rootSig) (e.updateDescriptorSet d rootSig)
      { r with sight := Reference.bindTables d r.slots.resourceSets rootSig r.sight } :=
  mirrors.updateTables rootSig.address (rootSig.tables.take setCount) agree

lemma updateVertexBuffer (mirrors : Mirrors d past e r) (buffer stride : ℕ) :
    Mirrors d past (e.updateVertexBuffer buffer stride)
      { r with
        sight := { r.sight with
          vertexBuffer := if buffer ≠ 0 then some (buffer, stride) else r.sight.vertexBuffer } } := by
  unfold Encoder.updateVertexBuffer
  split
  · by_cases buffer_ne : buffer ≠ 0
    · simp only [if_pos buffer_ne]
      exact { mirrors with vertexBuffer := rfl, lastVertex := fun _ => rfl }
    · simp only [if_neg buffer_ne]
      exact { mirrors with lastVertex := fun h => absurd h buffer_ne }
  · rename_i same
    obtain ⟨last, lastStride⟩ := not_or.mp same
    split
    · rename_i buffer_ne
      have bound := mirrors.lastVertex (by rw [not_not.mp last]; exact buffer_ne)
      rw [not_not.mp last, not_not.mp lastStride] at bound
      exact { mirrors with vertexBuffer := bound.symm }
    · exact mirrors

lemma updateIndexBuffer (mirrors : Mirrors d past e r) (buffer stride : ℕ) :
    Mirrors d past (e.updateIndexBuffer buffer stride)
      { r with
        sight := { r.sight with
          indexBuffer := if buffer ≠ 0 then some (buffer, stride) else r.sight.indexBuffer } } := by
  unfold Encoder.updateIndexBuffer
  split
  · by_cases buffer_ne : buffer ≠ 0
    · simp only [if_pos buffer_ne]
      exact { mirrors with indexBuffer := rfl, lastIndex := fun _ => rfl }
    · simp only [if_neg buffer_ne]
      exact { mirrors with lastIndex := fun h => absurd h buffer_ne }
  · rename_i same
    obtain ⟨last, lastStride⟩ := not_or.mp same
    split
    · rename_i buffer_ne
      have bound := mirrors.lastIndex (by rw [not_not.mp last]; exact buffer_ne)
      rw [not_not.mp last, not_not.mp lastStride] at bound
      exact { mirrors with indexBuffer := bound.symm }
    · exact mirrors

lemma updateMesh (mirrors : Mirrors d past e r) (mesh : Mesh) :
    Mirrors d past (e.updateMesh d mesh)
      { r with sight := Reference.bindMesh d mesh r.sight } :=
  (mirrors.updateVertexBuffer _ _).updateIndexBuffer _ _

lemma updateMesh_last (mesh : Mesh) :
    (e.updateMesh d mesh).lastIndexBuffer = meshBuffer d mesh.indexBuffer := by
  unfold Encoder.updateMesh Encoder.updateIndexBuffer
  split
  · rfl
  · rename_i same
    exact not_not.mp (not_or.mp same).1

lemma withSlots (mirrors : Mirrors d past e r) (slots : PassSlots) :
    Mirrors d past { e with slots := slots } { r with slots := slots } :=
  { mirrors with slots := rfl }

lemma drawWith (mirrors : Mirrors d past e r) {drawing : Drawing} {shader : ℕ}
    (graphics : d.isGraphics = true) (shaded : drawing.shader = some shader)
    (agree : (past ++ requests d (e.slots.updateMaterial d.toMemory drawing.material).resourceSets
      (d.shaders shader).rootSig).Pairwise Request.Agree) :
    ∃ e', Encoder.drawWith d drawing e = some (e', (Reference.drawWith d drawing r).2)
      ∧ Mirrors d (past ++ requests d
          (e.slots.updateMaterial d.toMemory drawing.material).resourceSets
          (d.shaders shader).rootSig) e' (Reference.drawWith d drawing r).1
      ∧ e'.slots = e.slots.updateMaterial d.toMemory drawing.material := by
  have piped := mirrors.updateRenderPipeline shader drawing.topology drawing.vertexLayout
  have slotted := piped.withSlots (e.slots.updateMaterial d.toMemory drawing.material)
  have tabled := slotted.updateDescriptorSet (d.shaders shader).rootSig agree
  have slots := Encoder.updateRenderPipeline_slots d (some shader) drawing.topology
    drawing.vertexLayout e
  simp only [Encoder.drawWith, if_pos graphics, shaded, Option.map_some, slots,
    Reference.drawWith, ← mirrors.slots]
  cases drawing.mesh with
  | none =>
    refine ⟨_, congrArg some (Prod.ext rfl ?_), tabled, Encoder.updateDescriptorSet_slots _ _ _⟩
    exact congrArg (fun sight => [Seen.mk drawing.plain sight]) tabled.sight
  | some mesh =>
    have meshed := tabled.updateMesh mesh
    refine ⟨_, congrArg some (Prod.ext rfl ?_), meshed, ?_⟩
    · show [Seen.mk (drawing.command (Encoder.updateMesh d mesh _).lastIndexBuffer) _] = _
      rw [updateMesh_last, meshed.sight]
    · rw [Encoder.updateMesh_slots, Encoder.updateDescriptorSet_slots]

lemma dispatchWith (mirrors : Mirrors d past e r) {shader : ℕ} (command : Command)
    (compute : d.isGraphics = false)
    (agree : (past ++ requests d e.slots.leaveMaterial.resourceSets
      (d.computeShaders shader)).Pairwise Request.Agree) :
    ∃ e', Encoder.dispatchWith d (some shader) command e
        = some (e', (Reference.dispatchWith d (some shader) command r).2)
      ∧ Mirrors d (past ++ requests d e.slots.leaveMaterial.resourceSets (d.computeShaders shader))
          e' (Reference.dispatchWith d (some shader) command r).1
      ∧ e'.slots = e.slots.leaveMaterial := by
  have piped := (mirrors.withSlots e.slots.leaveMaterial).updateComputePipeline shader
  have slots := Encoder.updateComputePipeline_slots d shader
    { e with slots := e.slots.leaveMaterial }
  have tabled := piped.updateDescriptorSet (d.computeShaders shader) (by rw [slots]; exact agree)
  rw [slots] at tabled
  simp only [Encoder.dispatchWith, compute, Reference.dispatchWith, ← mirrors.slots,
    Option.map_some]
  refine ⟨_, congrArg some (Prod.ext rfl ?_), tabled, ?_⟩
  · exact congrArg (fun sight => [Seen.mk command sight]) tabled.sight
  · rw [Encoder.updateDescriptorSet_slots, slots]

lemma call (mirrors : Mirrors d past e r) {c : EncoderCall} (recordable : Recordable d c)
    (agree : (past ++ (callRequests d e.slots c).2).Pairwise Request.Agree) :
    ∃ e', Encoder.call d c e = some (e', (Reference.call d c r).2)
      ∧ Mirrors d (past ++ (callRequests d e.slots c).2) e' (Reference.call d c r).1
      ∧ e'.slots = (callRequests d e.slots c).1 := by
  unfold Encoder.call Reference.call callRequests Recordable at *
  cases work : c.work d.toMemory with
  | setGlobal value set slot =>
    refine ⟨_, rfl, ?_, rfl⟩
    rw [List.append_nil, ← mirrors.slots]
    exact mirrors.withSlots _
  | draw drawing =>
    simp only [work] at recordable agree
    obtain ⟨graphics, shaded⟩ := recordable
    obtain ⟨shader, shaded⟩ := Option.isSome_iff_exists.mp shaded
    simp only [shaded, Option.map_some, Option.getD_some] at agree ⊢
    exact mirrors.drawWith graphics shaded agree
  | dispatch shader command =>
    simp only [work] at recordable agree
    obtain ⟨compute, shaded⟩ := recordable
    obtain ⟨shader', shaded⟩ := Option.isSome_iff_exists.mp shaded
    subst shaded
    exact mirrors.dispatchWith command compute agree
  | nothing =>
    refine ⟨_, rfl, ?_, rfl⟩
    rw [List.append_nil]
    exact mirrors

lemma run (mirrors : Mirrors d past e r) {calls : List EncoderCall}
    (recordable : ∀ c ∈ calls, Recordable d c)
    (agree : (past ++ runRequests d e.slots calls).Pairwise Request.Agree) :
    ∃ e', Encoder.run d e calls = some (e', Reference.run d r calls) := by
  induction calls generalizing past e r with
  | nil => exact ⟨e, rfl⟩
  | cons c calls ih =>
    rw [runRequests, ← List.append_assoc] at agree
    obtain ⟨e₁, called, mirrors₁, slots⟩ := mirrors.call (recordable c List.mem_cons_self)
      (List.pairwise_append.mp agree).1
    rw [← slots] at agree
    obtain ⟨e₂, ran⟩ := ih mirrors₁ (fun c' mem => recordable c' (List.mem_cons_of_mem _ mem)) agree
    exact ⟨e₂, by simp only [Encoder.run, called, Option.bind_eq_bind, Option.bind_some, ran]; rfl⟩

end Mirrors

def Transparent (d : Pass) (pipelines : List PSOKey) (computePipelines : List ℕ)
    (dsets : List DescriptorSet) (calls : List EncoderCall) : Prop :=
  ∃ e, Encoder.run d (.start pipelines computePipelines dsets) calls
    = some (e, Reference.run d {} calls)

def bufferPass : Pass where
  materials _ := ⟨none, [], [], [], []⟩
  createBuffer _ _ := ⟨0, 0⟩
  resolveTextureView := id
  resolveBuffer := id
  isGraphics := true
  shaders _ := { rootSig := ⟨8, [⟨2, [⟨0, .uniformBuffer⟩]⟩]⟩ }
  computeShaders _ := ⟨0, []⟩
  creates _ := true
  createsCompute _ := true
  dynamicStateT1 := true
  renderPass := 1
  subpass := 0
  renderTargetCount := 1
  defaultTexture := 3
  defaultSampler := 4
  defaultBuffer := 5
  bufferSize _ := 256
  hashPointer := UInt64.ofNat

/-- Two draws with the same buffer, of which the second one binds the range `size`. -/
def twoRanges (size : ℕ) : List EncoderCall :=
  [.setGlobal (.bufferWithOffsetSize 6 0 64) 2 0, .drawProcedure (some 9) 3 3,
    .setGlobal (.bufferWithOffsetSize 6 128 size) 2 0, .drawProcedure (some 9) 3 3]

end PulseEngine.Graphics
