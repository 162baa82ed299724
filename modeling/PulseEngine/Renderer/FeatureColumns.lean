import PulseEngine.Library.Positions
import PulseEngine.Renderer.UboBlocks

/-!
# Columns of features

What `ubo_columns.cpp` and `feature_api.cpp` do with the columns of a view: `pulse_feature_prepare_alloc_ubo` appends a
column and counts it for its item, and `pulse_feature_draw_bind_ubo_columns` binds as many columns as were counted, from
the first one on. Numbers of columns have 32 bits. A draw finds in a slot what was bound there last, in the whole pass.
The state keeps which item every column was allocated for.
-/

namespace PulseEngine.Renderer

open Library

def shaderSetGlobal : ℕ := 0

def shaderSetFeature : ℕ := 2

def shaderSetCount : ℕ := 4

structure RendererUboColumn where
  set : ℕ
  binding : ℕ
  blockRef : GpuBlockRef
  deriving DecidableEq, Repr

/-- `DrawItem`: its feature and its columns. -/
structure DrawItem where
  featureId : ℕ
  globalColumnStart : ℕ
  globalColumnCount : ℕ
  featureColumnStart : ℕ
  featureColumnCount : ℕ
  deriving DecidableEq, Repr

abbrev ItemKey := ℕ × ℕ

structure Allocated where
  item : ItemKey
  position : ℕ
  column : RendererUboColumn
  deriving DecidableEq, Repr

structure PrepareState where
  cache : List CachedUboBlock
  blocks : List GpuBlock
  uboColumns : List RendererUboColumn
  lists : List (List DrawItem)
  allocated : List Allocated
  deriving DecidableEq, Repr

/-- A view before features prepare it. The columns that are there are global ones, and every item has some of them. -/
structure GlobalsPrepared where
  cache : List CachedUboBlock
  blocks : List GpuBlock
  globals : List (ℕ × GpuBlockRef)
  lists : List (List DrawItem)
  inside : ∀ items ∈ lists, ∀ item ∈ items, item.globalColumnStart + item.globalColumnCount ≤ globals.length

/-- A call of `pulse_feature_prepare_alloc_ubo`, with the list and the feature of its context. -/
structure AllocUbo where
  list : ℕ
  featureId : ℕ
  index : ℕ
  set : ℕ
  binding : ℕ
  size : UInt32
  deriving DecidableEq, Repr

/-- `build_views_system` sets the columns of features back. -/
def DrawItem.begin (item : DrawItem) : DrawItem := { item with featureColumnStart := 0, featureColumnCount := 0 }

def DrawItem.addColumn (item : DrawItem) (index : ℕ) : DrawItem :=
  { item with
    featureColumnStart := if item.featureColumnCount = 0 then index else item.featureColumnStart
    featureColumnCount := (item.featureColumnCount + 1) % 2 ^ 32 }

namespace PrepareState

def begin (view : GlobalsPrepared) : PrepareState where
  cache := view.cache
  blocks := view.blocks
  uboColumns := view.globals.map fun (binding, ref) => ⟨shaderSetGlobal, binding, ref⟩
  lists := view.lists.map (List.map DrawItem.begin)
  allocated := []

def item (s : PrepareState) (key : ItemKey) : Option DrawItem := s.lists[key.1]?.bind (·[key.2]?)

def updateItem (lists : List (List DrawItem)) (key : ItemKey) (f : DrawItem → DrawItem) : List (List DrawItem) :=
  lists.modify key.1 fun items => items.modify key.2 f

def allocFeatureUboColumn (heap : Heap) (device : Device) (frameIndex : ℕ) (s : PrepareState) (key : ItemKey)
    (set binding : ℕ) (size : UInt32) : PrepareState :=
  let (cache, blocks, ref) := allocUboBlock heap device frameIndex size.toNat s.cache s.blocks
  let col : RendererUboColumn := ⟨set, binding, ref⟩
  let index := ((s.uboColumns ++ [col]).length - 1) % 2 ^ 32
  { cache, blocks, uboColumns := s.uboColumns ++ [col]
    lists := updateItem s.lists key fun item => item.addColumn index
    allocated := s.allocated ++ [⟨key, s.uboColumns.length, col⟩] }

def prepareAllocUbo (heap : Heap) (device : Device) (frameIndex : ℕ) (s : PrepareState) (call : AllocUbo) :
    PrepareState :=
  match s.item (call.list, call.index) with
  | none => s
  | some item =>
    if item.featureId ≠ call.featureId then s
    else s.allocFeatureUboColumn heap device frameIndex (call.list, call.index) call.set call.binding call.size

def prepare (heap : Heap) (device : Device) (frameIndex : ℕ) (view : GlobalsPrepared) (calls : List AllocUbo) :
    PrepareState :=
  calls.foldl (prepareAllocUbo heap device frameIndex) (begin view)

end PrepareState

abbrev Slots := ℕ → ℕ → Option ℕ

namespace PrepareState

variable (s : PrepareState)

def hasHandle (index : ℕ) : Bool :=
  match s.blocks[index]? with
  | none => false
  | some block => decide (block.used ≠ 0)

/-- `pulse_render_pass_encoder_set_global_buffer_offset` takes the column. No material writes slots of other sets than
its own. -/
def bindable (col : RendererUboColumn) : Bool :=
  decide (col.set < shaderSetCount ∧ col.binding < 64) && s.hasHandle col.blockRef.index

def bindUboColumn (slots : Slots) (position : ℕ) : Slots :=
  match s.uboColumns[position]? with
  | none => slots
  | some col => if s.bindable col then Function.update slots col.set (Function.update (slots col.set) col.binding
      (some position)) else slots

end PrepareState

def columnRange (start count : ℕ) : List ℕ := (List.range count).map fun i => (start + i) % 2 ^ 32

/-- The columns of features that `bind_item_ubo_columns` binds. -/
def DrawItem.featureColumns (item : DrawItem) : List ℕ := columnRange item.featureColumnStart item.featureColumnCount

/-- The global columns that `bind_item_ubo_columns` binds. -/
def DrawItem.globalColumns (item : DrawItem) : List ℕ := columnRange item.globalColumnStart item.globalColumnCount

namespace PrepareState

variable (s : PrepareState)

def bindItemUboColumns (slots : Slots) (key : ItemKey) : Slots :=
  match s.item key with
  | none => slots
  | some item => (item.globalColumns ++ item.featureColumns).foldl s.bindUboColumn slots

def slotsAfter (draws : List ItemKey) : Slots := draws.foldl s.bindItemUboColumns fun _ _ => none

def columnsOf (key : ItemKey) : List ℕ := (s.allocated.filter fun a => a.item = key).map Allocated.position

def BindsOwn : Prop := ∀ key item, s.item key = some item → item.featureColumns = s.columnsOf key

/-- No draw finds a column in a slot of the feature set that was allocated for another item, where `reads` are the
bindings of this set that the shader of an item has. -/
def SeesOwn (reads : ItemKey → List ℕ) (draws : List ItemKey) : Prop :=
  ∀ (n : ℕ) (key : ItemKey), draws[n]? = some key → ∀ b ∈ reads key, ∀ a ∈ s.allocated,
    s.slotsAfter (draws.take (n + 1)) shaderSetFeature b = some a.position → a.item = key

def Recorded : Prop := ∀ a ∈ s.allocated, s.uboColumns[a.position]? = some a.column

structure Belongs (reads : ItemKey → List ℕ) (draws : List ItemKey) : Prop where
  bindsOwn : s.BindsOwn
  recorded : s.Recorded
  seesOwn : s.SeesOwn reads draws

def Owns (key : ItemKey) (b : ℕ) : Prop :=
  ∃ a ∈ s.allocated, a.item = key ∧ a.column.set = shaderSetFeature ∧ a.column.binding = b ∧ s.bindable a.column = true

def Covered (reads : ItemKey → List ℕ) (draws : List ItemKey) : Prop :=
  ∀ (m n : ℕ) (before key : ItemKey), m < n → draws[m]? = some before → draws[n]? = some key →
    ∀ b ∈ reads key, s.Owns before b → s.Owns key b

end PrepareState

def GlobalsPrepared.item (view : GlobalsPrepared) (key : ItemKey) : Option DrawItem :=
  view.lists[key.1]?.bind (·[key.2]?)

def AllocUbo.key (view : GlobalsPrepared) (call : AllocUbo) : Option ItemKey :=
  match view.item (call.list, call.index) with
  | none => none
  | some item => if item.featureId ≠ call.featureId then none else some (call.list, call.index)

def itemsOf (view : GlobalsPrepared) (calls : List AllocUbo) : List ItemKey := calls.filterMap (AllocUbo.key view)

def FewColumns (view : GlobalsPrepared) (calls : List AllocUbo) : Prop :=
  (itemsOf view calls ≠ [] → view.globals.length + (itemsOf view calls).length ≤ 2 ^ 32) ∧
    ∀ key, (itemsOf view calls).count key < 2 ^ 32

end PulseEngine.Renderer
