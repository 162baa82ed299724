import PulseEngine.Renderer.FeatureColumns
import PulseEngine.Renderer.UboSafe

/-!
# Columns belong to their item if the calls for it stand together

What is kept while features prepare a view (`PrepareState.Prepared`). The columns that an item counts are its own exactly
when no call for another item comes between two calls for it (`bindsOwn_iff`), and a draw finds its own columns exactly
when its item has one wherever an earlier draw left one (`seesOwn_iff`).
-/

namespace PulseEngine.Renderer

open Library

variable {heap : Heap} {device : Device} {frameIndex : ℕ} {view : GlobalsPrepared} {key : ItemKey}

namespace PrepareState

variable {s : PrepareState} {keys : List ItemKey}

lemma item_updateItem {lists : List (List DrawItem)} {f : DrawItem → DrawItem} (key' : ItemKey) :
    (updateItem lists key f)[key'.1]?.bind (·[key'.2]?) =
      if key' = key then (lists[key'.1]?.bind (·[key'.2]?)).map f else lists[key'.1]?.bind (·[key'.2]?) := by
  rw [updateItem, List.getElem?_modify, Option.map_eq_map]
  cases lists[key'.1]? with
  | none =>
    rw [Option.map_none]
    split <;> rfl
  | some items =>
    rw [Option.map_some, Option.bind_some, Option.bind_some]
    by_cases list : key.1 = key'.1
    · rw [if_pos list, List.getElem?_modify, Option.map_eq_map]
      by_cases index : key.2 = key'.2
      · have eq : key' = key := (Prod.ext list index).symm
        rw [if_pos eq, ← eq]
        cases items[key'.2]? with
        | none => rfl
        | some item => exact congrArg some (if_pos rfl)
      · have ne : key' ≠ key := fun eq => index (congrArg Prod.snd eq.symm)
        rw [if_neg ne]
        cases items[key'.2]? with
        | none => rfl
        | some item => exact congrArg some (if_neg index)
    · have ne : key' ≠ key := fun eq => list (congrArg Prod.fst eq.symm)
      rw [if_neg list, if_neg ne]

lemma filter_map_position {allocated : List Allocated} {n : ℕ}
    (positions : allocated.map Allocated.position = List.range' n allocated.length) :
    (allocated.filter fun a => a.item = key).map Allocated.position =
      positionsFrom key n (allocated.map Allocated.item) := by
  induction allocated generalizing n with
  | nil => rfl
  | cons a allocated ih =>
    rw [List.map_cons, List.length_cons, List.range'_succ] at positions
    obtain ⟨here, rest⟩ := List.cons.inj positions
    rw [List.map_cons, positionsFrom, ← ih rest, List.filter_cons]
    by_cases eq : a.item = key
    · rw [if_pos eq, if_pos (decide_eq_true eq), List.map_cons, here]
    · rw [if_neg eq, if_neg (by rwa [decide_eq_true_eq])]

/-- What is kept while features prepare a view, where `keys` are the items of the columns so far. -/
structure Prepared (view : GlobalsPrepared) (keys : List ItemKey) (s : PrepareState) : Prop where
  positions : s.allocated.map Allocated.position = List.range' view.globals.length s.allocated.length
  items : s.allocated.map Allocated.item = keys
  length : s.uboColumns.length = view.globals.length + s.allocated.length
  globals : ∀ i < view.globals.length, ∀ col, s.uboColumns[i]? = some col → col.set = shaderSetGlobal
  recorded : s.Recorded
  item : ∀ key, (s.item key).map DrawItem.begin = (view.item key).map DrawItem.begin
  counted : ∀ key item, s.item key = some item → item.featureColumnCount = (s.columnsOf key).length % 2 ^ 32 ∧
    ((s.columnsOf key).length < 2 ^ 32 → item.featureColumnStart = (s.columnsOf key).head?.getD 0 % 2 ^ 32)

lemma prepared_begin : Prepared view [] (begin view) := by
  have item : ∀ key, (begin view).item key = (view.item key).map DrawItem.begin := by
    intro key
    rw [PrepareState.item, begin, List.getElem?_map, GlobalsPrepared.item]
    cases view.lists[key.1]? with
    | none => rfl
    | some items => exact List.getElem?_map
  refine ⟨rfl, rfl, List.length_map _, fun i lt col hcol => ?_, fun a ha => ?_, fun key => ?_, fun key item' h => ?_⟩
  · obtain ⟨global, -, rfl⟩ := Option.map_eq_some_iff.mp (List.getElem?_map.symm.trans hcol)
    rfl
  · cases ha
  · rw [item, Option.map_map]
    rfl
  · rw [item] at h
    obtain ⟨item₀, -, rfl⟩ := Option.map_eq_some_iff.mp h
    exact ⟨rfl, fun _ => rfl⟩

lemma Prepared.columnsOf (prepared : Prepared view keys s) (key : ItemKey) :
    s.columnsOf key = positionsFrom key view.globals.length keys := by
  rw [PrepareState.columnsOf, filter_map_position prepared.positions, prepared.items]

lemma addColumn_counted {item : DrawItem} {columns : List ℕ} {p : ℕ}
    (count : item.featureColumnCount = columns.length % 2 ^ 32)
    (start : columns.length < 2 ^ 32 → item.featureColumnStart = columns.head?.getD 0 % 2 ^ 32) :
    (item.addColumn (p % 2 ^ 32)).featureColumnCount = (columns ++ [p]).length % 2 ^ 32 ∧
      ((columns ++ [p]).length < 2 ^ 32 →
        (item.addColumn (p % 2 ^ 32)).featureColumnStart = (columns ++ [p]).head?.getD 0 % 2 ^ 32) := by
  rw [List.length_append, List.length_singleton, DrawItem.addColumn, count]
  refine ⟨Nat.mod_add_mod _ _ _, fun lt => ?_⟩
  have small : columns.length < 2 ^ 32 := by omega
  dsimp only
  rw [Nat.mod_eq_of_lt small]
  cases columns with
  | nil => rfl
  | cons q columns =>
    have ne : (q :: columns).length ≠ 0 := Nat.succ_ne_zero _
    rw [if_neg ne, start small, List.cons_append, List.head?_cons, List.head?_cons]

lemma Prepared.alloc (prepared : Prepared view keys s) (set binding : ℕ) (size : UInt32) :
    Prepared view (keys ++ [key]) (s.allocFeatureUboColumn heap device frameIndex key set binding size) := by
  cases ha : allocUboBlock heap device frameIndex size.toNat s.cache s.blocks with
  | mk cache rest =>
    obtain ⟨blocks, ref⟩ := rest
    have result : s.allocFeatureUboColumn heap device frameIndex key set binding size =
        { cache, blocks, uboColumns := s.uboColumns ++ [⟨set, binding, ref⟩]
          lists := updateItem s.lists key fun item => item.addColumn (s.uboColumns.length % 2 ^ 32)
          allocated := s.allocated ++ [⟨key, s.uboColumns.length, ⟨set, binding, ref⟩⟩] } := by
      rw [allocFeatureUboColumn, ha]
      dsimp only
      rw [List.length_append, List.length_singleton, Nat.add_sub_cancel]
    rw [result]
    have columns : ∀ key', PrepareState.columnsOf ⟨cache, blocks, s.uboColumns ++ [⟨set, binding, ref⟩],
        updateItem s.lists key fun item => item.addColumn (s.uboColumns.length % 2 ^ 32),
        s.allocated ++ [⟨key, s.uboColumns.length, ⟨set, binding, ref⟩⟩]⟩ key' =
          if key' = key then s.columnsOf key' ++ [s.uboColumns.length] else s.columnsOf key' := by
      intro key'
      rw [PrepareState.columnsOf, List.filter_append, List.map_append, ← PrepareState.columnsOf, List.filter_cons,
        List.filter_nil]
      by_cases eq : key = key'
      · rw [if_pos (decide_eq_true eq), if_pos eq.symm]
        rfl
      · rw [if_neg (by rwa [decide_eq_true_eq]), if_neg (Ne.symm eq)]
        exact List.append_nil _
    refine ⟨?_, ?_, ?_, fun i lt col hcol => ?_, fun a ha => ?_, fun key' => ?_, fun key' item h => ?_⟩
    · rw [List.map_append, prepared.positions, List.length_append, List.length_singleton, List.range'_concat, Nat.one_mul,
        ← prepared.length]
      rfl
    · rw [List.map_append, prepared.items]
      rfl
    · rw [List.length_append, List.length_append, prepared.length, List.length_singleton, List.length_singleton,
        Nat.add_assoc]
    · have inside : i < s.uboColumns.length := by
        have length := prepared.length
        omega
      rw [List.getElem?_append_left inside] at hcol
      exact prepared.globals i lt col hcol
    · rcases List.mem_append.mp ha with ha | ha
      · have here := prepared.recorded a ha
        rw [List.getElem?_append_left (List.getElem?_eq_some_iff.mp here).1, here]
      · obtain rfl := List.mem_singleton.mp ha
        exact List.getElem?_concat_length
    · rw [← prepared.item key', PrepareState.item, item_updateItem, ← PrepareState.item]
      split
      · rw [Option.map_map]
        rfl
      · rfl
    · rw [PrepareState.item, item_updateItem, ← PrepareState.item] at h
      rw [columns]
      split at h
      · rename_i eq
        obtain ⟨item₀, h₀, rfl⟩ := Option.map_eq_some_iff.mp h
        obtain ⟨count, start⟩ := prepared.counted key' item₀ h₀
        rw [if_pos eq]
        exact addColumn_counted count start
      · rename_i ne
        rw [if_neg ne]
        exact prepared.counted key' item h

variable (heap device frameIndex) in
lemma Prepared.prepareAllocUbo (prepared : Prepared view keys s) (call : AllocUbo) :
    Prepared view (keys ++ (call.key view).toList) (s.prepareAllocUbo heap device frameIndex call) := by
  have same := prepared.item (call.list, call.index)
  rw [AllocUbo.key, PrepareState.prepareAllocUbo]
  cases hv : view.item (call.list, call.index) with
  | none =>
    rw [hv] at same
    rw [Option.map_eq_none_iff.mp same]
    rw [Option.toList_none, List.append_nil]
    exact prepared
  | some item₀ =>
    rw [hv] at same
    obtain ⟨item, h, eq⟩ := Option.map_eq_some_iff.mp same
    have feature : item.featureId = item₀.featureId := congrArg (fun item => item.featureId) eq
    rw [h]
    dsimp only
    rw [feature]
    split
    · rw [Option.toList_none, List.append_nil]
      exact prepared
    · exact prepared.alloc call.set call.binding call.size

variable (heap device frameIndex view) in
lemma prepared_prepare (calls : List AllocUbo) :
    Prepared view (itemsOf view calls) (prepare heap device frameIndex view calls) := by
  have from_any : ∀ {s : PrepareState} {keys}, Prepared view keys s →
      Prepared view (keys ++ itemsOf view calls) (calls.foldl (PrepareState.prepareAllocUbo heap device frameIndex) s) := by
    induction calls with
    | nil =>
      intro s keys prepared
      rwa [itemsOf, List.filterMap_nil, List.append_nil]
    | cons call calls ih =>
      intro s keys prepared
      have rest := ih (prepared.prepareAllocUbo heap device frameIndex call)
      rw [List.append_assoc] at rest
      have split : itemsOf view (call :: calls) = (call.key view).toList ++ itemsOf view calls := by
        rw [itemsOf, List.filterMap_cons]
        cases call.key view <;> rfl
      rw [split]
      exact rest
  exact from_any prepared_begin

lemma exists_item (prepared : Prepared view keys s) (calls : List AllocUbo) (h : key ∈ itemsOf view calls) :
    ∃ item, s.item key = some item := by
  obtain ⟨call, -, hk⟩ := List.mem_filterMap.mp h
  rw [AllocUbo.key] at hk
  have same := prepared.item key
  split at hk
  · cases hk
  · rename_i item₀ hv
    split at hk
    · cases hk
    · cases hk
      rw [hv] at same
      obtain ⟨item, h, -⟩ := Option.map_eq_some_iff.mp same
      exact ⟨item, h⟩

end PrepareState

lemma mem_columnRange {start count p : ℕ} (h : p ∈ columnRange start count) : p < 2 ^ 32 := by
  obtain ⟨i, -, rfl⟩ := List.mem_map.mp h
  exact Nat.mod_lt _ (Nat.two_pow_pos 32)

@[simp]
lemma length_columnRange {start count : ℕ} : (columnRange start count).length = count := by
  rw [columnRange, List.length_map, List.length_range]

lemma columnRange_eq {start count : ℕ} (lt : start + count ≤ 2 ^ 32) :
    columnRange start count = List.range' start count := by
  rw [columnRange, List.range'_eq_map_range]
  refine List.map_congr_left fun i hi => ?_
  have small := List.mem_range.mp hi
  exact Nat.mod_eq_of_lt (by omega)

lemma columnRange_succ {start count : ℕ} :
    columnRange start (count + 1) = start % 2 ^ 32 :: columnRange (start + 1) count := by
  rw [columnRange, List.range_succ_eq_map, List.map_cons, List.map_map, columnRange, Nat.add_zero]
  refine congrArg (List.cons _) (List.map_congr_left fun i _ => ?_)
  change (start + (i + 1)) % 2 ^ 32 = (start + 1 + i) % 2 ^ 32
  rw [Nat.add_comm i 1, Nat.add_assoc]

lemma columnRange_eq_of_pairwise {start count : ℕ} (sorted : (columnRange start count).Pairwise (· < ·)) :
    columnRange start count = List.range' ((columnRange start count).head?.getD 0) count := by
  induction count generalizing start with
  | zero => rfl
  | succ count ih =>
    rw [columnRange_succ] at sorted ⊢
    obtain ⟨below, sorted⟩ := List.pairwise_cons.mp sorted
    have rest := ih sorted
    rw [List.head?_cons, Option.getD_some, List.range'_succ, rest]
    cases count with
    | zero => rfl
    | succ count =>
      rw [columnRange_succ] at below ⊢
      have lt : start % 2 ^ 32 < (start + 1) % 2 ^ 32 := below _ List.mem_cons_self
      have next : (start + 1) % 2 ^ 32 = start % 2 ^ 32 + 1 := by omega
      rw [List.head?_cons, Option.getD_some, next]

namespace PrepareState

variable {s : PrepareState} {calls : List AllocUbo}

/-- **An item binds its own columns** if and only if the calls for it stand together and no number wraps. -/
lemma bindsOwn_iff (prepared : Prepared view (itemsOf view calls) s) :
    s.BindsOwn ↔ Together (itemsOf view calls) ∧ FewColumns view calls := by
  have columns := prepared.columnsOf
  constructor
  · intro own
    -- What an item binds has as many columns as 32 bits can count, with numbers of 32 bits.
    have small : ∀ key, (itemsOf view calls).count key < 2 ^ 32 ∧
        ∀ p ∈ positionsFrom key view.globals.length (itemsOf view calls), p < 2 ^ 32 := by
      intro key
      by_cases mem : key ∈ itemsOf view calls
      · obtain ⟨item, h⟩ := exists_item prepared calls mem
        have own := own key item h
        have count := (prepared.counted key item h).1
        rw [← columns, ← own]
        refine ⟨?_, fun p hp => mem_columnRange hp⟩
        rw [← length_positionsFrom (n := view.globals.length), ← columns, ← own, DrawItem.featureColumns,
          length_columnRange, count]
        exact Nat.mod_lt _ (Nat.two_pow_pos 32)
      · refine ⟨by rw [List.count_eq_zero.mpr mem]; exact Nat.two_pow_pos 32, fun p hp => ?_⟩
        exact absurd (List.mem_of_getElem? (mem_positionsFrom.mp hp).2) mem
    refine ⟨(together_iff (n := view.globals.length)).mpr fun key => ?_, fun ne => ?_, fun key => (small key).1⟩
    · by_cases mem : key ∈ itemsOf view calls
      · obtain ⟨item, h⟩ := exists_item prepared calls mem
        have own := own key item h
        rw [columns] at own
        rw [← own]
        have sorted : (columnRange item.featureColumnStart item.featureColumnCount).Pairwise (· < ·) := by
          rw [← DrawItem.featureColumns, own]
          exact positionsFrom_pairwise
        rw [DrawItem.featureColumns, length_columnRange]
        exact columnRange_eq_of_pairwise sorted
      · have none : positionsFrom key view.globals.length (itemsOf view calls) = [] :=
          List.eq_nil_of_length_eq_zero (length_positionsFrom.trans (List.count_eq_zero.mpr mem))
        rw [none]
        rfl
    · -- The last column has a number of 32 bits.
      have last := (small ((itemsOf view calls).getLast ne)).2
        (view.globals.length + ((itemsOf view calls).length - 1)) (mem_positionsFrom.mpr ⟨Nat.le_add_right _ _, by
          rw [Nat.add_sub_cancel_left, ← List.getLast?_eq_getElem?, List.getLast?_eq_some_getLast ne]⟩)
      omega
  · rintro ⟨together, few, small⟩ key item h
    obtain ⟨count, start⟩ := prepared.counted key item h
    have range := (together_iff (n := view.globals.length)).mp together key
    rw [← columns] at range
    have length : (s.columnsOf key).length = (itemsOf view calls).count key := by rw [columns, length_positionsFrom]
    have lt := small key
    rw [← length] at lt
    rw [Nat.mod_eq_of_lt lt] at count
    rw [DrawItem.featureColumns, count, start lt]
    cases hl : (s.columnsOf key).length with
    | zero =>
      rw [List.eq_nil_of_length_eq_zero hl]
      rfl
    | succ n =>
      -- The last column of the item is one of the view.
      rw [hl] at range
      have last : (s.columnsOf key).head?.getD 0 + n ∈ positionsFrom key view.globals.length (itemsOf view calls) := by
        rw [← columns]
        have mem : (s.columnsOf key).head?.getD 0 + n ∈ List.range' ((s.columnsOf key).head?.getD 0) (n + 1) :=
          List.mem_range'_1.mpr ⟨Nat.le_add_right _ _, Nat.add_lt_add_left (Nat.lt_succ_self n) _⟩
        rwa [← range] at mem
      obtain ⟨le, here⟩ := mem_positionsFrom.mp last
      have inside := (List.getElem?_eq_some_iff.mp here).1
      have room := few (List.ne_nil_of_length_pos (by omega))
      rw [Nat.mod_eq_of_lt (by omega), columnRange_eq (by omega), ← range]

def Hits (s : PrepareState) (b p : ℕ) : Prop :=
  ∃ col, s.uboColumns[p]? = some col ∧ s.bindable col = true ∧ col.set = shaderSetFeature ∧ col.binding = b

variable {slots : Slots} {b p : ℕ}

lemma bindUboColumn_of_hits (h : s.Hits b p) : s.bindUboColumn slots p shaderSetFeature b = some p := by
  obtain ⟨col, hcol, bindable, set, rfl⟩ := h
  rw [bindUboColumn, hcol]
  dsimp only
  rw [if_pos bindable, set, Function.update_self, Function.update_self]

lemma bindUboColumn_of_not_hits (h : ¬ s.Hits b p) :
    s.bindUboColumn slots p shaderSetFeature b = slots shaderSetFeature b := by
  rw [bindUboColumn]
  cases hcol : s.uboColumns[p]? with
  | none => rfl
  | some col =>
    dsimp only
    split
    · rename_i bindable
      by_cases set : col.set = shaderSetFeature
      · rw [set, Function.update_self]
        exact Function.update_of_ne (fun eq => h ⟨col, hcol, bindable, set, eq.symm⟩) _ _
      · rw [Function.update_of_ne (Ne.symm set)]
    · rfl

lemma foldl_bindUboColumn (s : PrepareState) (slots : Slots) (b : ℕ) (ps : List ℕ) :
    (∃ p ∈ ps, s.Hits b p ∧ ps.foldl s.bindUboColumn slots shaderSetFeature b = some p) ∨
      ((∀ p ∈ ps, ¬ s.Hits b p) ∧ ps.foldl s.bindUboColumn slots shaderSetFeature b = slots shaderSetFeature b) := by
  induction ps generalizing slots with
  | nil => exact .inr ⟨List.forall_mem_nil _, rfl⟩
  | cons q ps ih =>
    rw [List.foldl_cons]
    rcases ih (s.bindUboColumn slots q) with ⟨p, hp, hits, eq⟩ | ⟨none, eq⟩
    · exact .inl ⟨p, List.mem_cons_of_mem q hp, hits, eq⟩
    · by_cases hq : s.Hits b q
      · exact .inl ⟨q, List.mem_cons_self, hq, eq.trans (bindUboColumn_of_hits hq)⟩
      · refine .inr ⟨fun p hp => ?_, eq.trans (bindUboColumn_of_not_hits hq)⟩
        rcases List.mem_cons.mp hp with rfl | hp
        · exact hq
        · exact none p hp

lemma exists_of_hits (prepared : Prepared view (itemsOf view calls) s) (own : s.BindsOwn) {item : DrawItem}
    (h : s.item key = some item) (hp : p ∈ item.globalColumns ++ item.featureColumns) (hits : s.Hits b p) :
    ∃ a ∈ s.allocated, a.item = key ∧ a.column.set = shaderSetFeature ∧ a.column.binding = b ∧
      s.bindable a.column = true ∧ a.position = p := by
  obtain ⟨col, hcol, bindable, set, binding⟩ := hits
  rcases List.mem_append.mp hp with hp | hp
  · -- Global columns are of the global set.
    obtain ⟨i, hi, rfl⟩ := List.mem_map.mp hp
    have same := prepared.item key
    rw [h] at same
    obtain ⟨item₀, h₀, eq⟩ := Option.map_eq_some_iff.mp same.symm
    have start : item₀.globalColumnStart = item.globalColumnStart := congrArg (fun item => item.globalColumnStart) eq
    have count : item₀.globalColumnCount = item.globalColumnCount := congrArg (fun item => item.globalColumnCount) eq
    obtain ⟨items, hitems, hitem⟩ := Option.bind_eq_some_iff.mp h₀
    have inside := view.inside items (List.mem_of_getElem? hitems) item₀ (List.mem_of_getElem? hitem)
    have le := Nat.mod_le (item.globalColumnStart + i) (2 ^ 32)
    have lt := List.mem_range.mp hi
    have global := prepared.globals _ (by omega) col hcol
    rw [global] at set
    cases set
  · rw [own key item h] at hp
    obtain ⟨a, ha, rfl⟩ := List.mem_map.mp hp
    obtain ⟨ha, item'⟩ := List.mem_filter.mp ha
    have here := prepared.recorded a ha
    rw [hcol] at here
    cases here
    exact ⟨a, ha, of_decide_eq_true item', set, binding, bindable, rfl⟩

lemma exists_hits (prepared : Prepared view (itemsOf view calls) s) (own : s.BindsOwn) {item : DrawItem}
    (h : s.item key = some item) (owns : s.Owns key b) :
    ∃ p ∈ item.globalColumns ++ item.featureColumns, s.Hits b p := by
  obtain ⟨a, ha, item', set, binding, bindable⟩ := owns
  refine ⟨a.position, List.mem_append_right _ ?_, a.column, prepared.recorded a ha, bindable, set, binding⟩
  rw [own key item h]
  exact List.mem_map_of_mem (List.mem_filter.mpr ⟨ha, decide_eq_true item'⟩)

lemma Prepared.position_inj {keys : List ItemKey} (prepared : Prepared view keys s) {a a' : Allocated}
    (ha : a ∈ s.allocated) (ha' : a' ∈ s.allocated) (eq : a.position = a'.position) : a = a' := by
  have nodup : (s.allocated.map Allocated.position).Nodup := by
    rw [prepared.positions]
    exact List.nodup_range'
  exact List.inj_on_of_nodup_map nodup ha ha' eq

/-- **One draw** leaves a column of its item in every slot for which it has one, and the other slots as they are. -/
lemma bindItemUboColumns_spec (prepared : Prepared view (itemsOf view calls) s) (own : s.BindsOwn) (slots : Slots)
    (key : ItemKey) (b : ℕ) :
    (s.Owns key b ∧ ∃ a ∈ s.allocated, a.item = key ∧
      s.bindItemUboColumns slots key shaderSetFeature b = some a.position) ∨
    (¬ s.Owns key b ∧ s.bindItemUboColumns slots key shaderSetFeature b = slots shaderSetFeature b) := by
  cases h : s.item key with
  | none =>
    have none : ¬ s.Owns key b := by
      rintro ⟨a, ha, rfl, -⟩
      have mem : a.item ∈ itemsOf view calls := prepared.items ▸ List.mem_map_of_mem ha
      obtain ⟨item, here⟩ := exists_item prepared calls mem
      rw [h] at here
      cases here
    refine .inr ⟨none, ?_⟩
    rw [bindItemUboColumns, h]
  | some item =>
    rw [bindItemUboColumns, h]
    rcases foldl_bindUboColumn s slots b (item.globalColumns ++ item.featureColumns)
      with ⟨p, hp, hits, eq⟩ | ⟨none, eq⟩
    · obtain ⟨a, ha, item', set, binding, bindable, rfl⟩ := exists_of_hits prepared own h hp hits
      exact .inl ⟨⟨a, ha, item', set, binding, bindable⟩, a, ha, item', eq⟩
    · refine .inr ⟨fun owns => ?_, eq⟩
      obtain ⟨p, hp, hits⟩ := exists_hits prepared own h owns
      exact none p hp hits

lemma slotsAfter_concat {draws : List ItemKey} :
    s.slotsAfter (draws ++ [key]) = s.bindItemUboColumns (s.slotsAfter draws) key := by
  rw [slotsAfter, List.foldl_append]
  rfl

/-- **A slot holds a column of an item that was drawn**, if one of these has a column for it. -/
lemma slotsAfter_spec (prepared : Prepared view (itemsOf view calls) s) (own : s.BindsOwn) (draws : List ItemKey) :
    ((∃ k ∈ draws, s.Owns k b) ∧ ∃ a ∈ s.allocated, s.Owns a.item b ∧
      s.slotsAfter draws shaderSetFeature b = some a.position) ∨
    ((∀ k ∈ draws, ¬ s.Owns k b) ∧ s.slotsAfter draws shaderSetFeature b = none) := by
  induction draws using List.reverseRecOn with
  | nil => exact .inr ⟨List.forall_mem_nil _, rfl⟩
  | append_singleton draws key ih =>
    rw [slotsAfter_concat]
    rcases bindItemUboColumns_spec prepared own (s.slotsAfter draws) key b
      with ⟨owns, a, ha, rfl, eq⟩ | ⟨none, eq⟩
    · exact .inl ⟨⟨a.item, List.mem_append_right _ List.mem_cons_self, owns⟩, a, ha, owns, eq⟩
    · rw [eq]
      rcases ih with ⟨⟨k, hk, owns⟩, rest⟩ | ⟨all, slot⟩
      · exact .inl ⟨⟨k, List.mem_append_left _ hk, owns⟩, rest⟩
      · refine .inr ⟨fun k hk => ?_, slot⟩
        rcases List.mem_append.mp hk with hk | hk
        · exact all k hk
        · obtain rfl := List.mem_singleton.mp hk
          exact none

/-- **A draw sees its own columns** if and only if its item has one wherever an earlier draw left one. -/
lemma seesOwn_iff (prepared : Prepared view (itemsOf view calls) s) (own : s.BindsOwn) {reads : ItemKey → List ℕ}
    {draws : List ItemKey} : s.SeesOwn reads draws ↔ s.Covered reads draws := by
  constructor
  · intro sees m n before key lt hm hn b hb owns
    have drawn : before ∈ draws.take (n + 1) := by
      refine List.mem_of_getElem? (i := m) ?_
      rw [List.getElem?_take_of_lt (by omega), hm]
    rcases slotsAfter_spec (b := b) prepared own (draws.take (n + 1)) with ⟨-, a, ha, owns', eq⟩ | ⟨none, -⟩
    · exact sees n key hn b hb a ha eq ▸ owns'
    · exact absurd owns (none before drawn)
  · intro covered n key hn b hb a ha eq
    have lt := (List.getElem?_eq_some_iff.mp hn).1
    have last : draws.take (n + 1) = draws.take n ++ [key] := by
      rw [List.take_add_one, hn]
      rfl
    rw [last, slotsAfter_concat] at eq
    rcases bindItemUboColumns_spec prepared own (s.slotsAfter (draws.take n)) key b
      with ⟨-, a', ha', rfl, eq'⟩ | ⟨none, eq'⟩
    · rw [eq'] at eq
      rw [prepared.position_inj ha ha' (Option.some.inj eq).symm]
    · -- An earlier draw left the column, so that the item has one of its own.
      rw [eq'] at eq
      rcases slotsAfter_spec (b := b) prepared own (draws.take n) with ⟨⟨k, hk, owns⟩, -⟩ | ⟨-, empty⟩
      · obtain ⟨m, hm⟩ := List.getElem?_of_mem hk
        have ltm : m < n := by
          have := (List.getElem?_eq_some_iff.mp hm).1
          rw [List.length_take] at this
          omega
        rw [List.getElem?_take_of_lt ltm] at hm
        exact absurd (covered m n k key ltm hm hn b hb owns) none
      · rw [empty] at eq
        cases eq

end PrepareState

/-- **Columns belong to their items** if and only if the calls for an item stand together, no number wraps, and every
item has a column wherever its shader would find one of an earlier draw. -/
theorem belongs_iff (heap : Heap) (device : Device) (frameIndex : ℕ) (view : GlobalsPrepared) (calls : List AllocUbo)
    (reads : ItemKey → List ℕ) (draws : List ItemKey) :
    (PrepareState.prepare heap device frameIndex view calls).Belongs reads draws ↔
      Together (itemsOf view calls) ∧ FewColumns view calls ∧
        (PrepareState.prepare heap device frameIndex view calls).Covered reads draws := by
  have prepared := PrepareState.prepared_prepare heap device frameIndex view calls
  constructor
  · rintro ⟨own, -, sees⟩
    obtain ⟨together, few⟩ := (PrepareState.bindsOwn_iff prepared).mp own
    exact ⟨together, few, (PrepareState.seesOwn_iff prepared own).mp sees⟩
  · rintro ⟨together, few, covered⟩
    have own := (PrepareState.bindsOwn_iff prepared).mpr ⟨together, few⟩
    exact ⟨own, prepared.recorded, (PrepareState.seesOwn_iff prepared own).mpr covered⟩

def twoItems : GlobalsPrepared where
  cache := []
  blocks := []
  globals := []
  lists := [[⟨0, 0, 0, 0, 0⟩, ⟨0, 0, 0, 0, 0⟩]]
  inside := by decide

def alternatingCalls : List AllocUbo := [⟨0, 0, 0, 2, 0, 64⟩, ⟨0, 0, 1, 2, 0, 64⟩, ⟨0, 0, 0, 2, 1, 64⟩]

/-- The first item binds its first column and the one of the second item. -/
theorem not_belongs :
    ¬ (PrepareState.prepare .bump .usual 1 twoItems alternatingCalls).Belongs (fun _ => [0]) [(0, 0), (0, 1)] := by
  intro belongs
  have item : (PrepareState.prepare .bump .usual 1 twoItems alternatingCalls).item (0, 0) = some ⟨0, 0, 0, 0, 2⟩ := by
    decide +kernel
  have own := belongs.bindsOwn (0, 0) _ item
  have columns : (PrepareState.prepare .bump .usual 1 twoItems alternatingCalls).columnsOf (0, 0) = [0, 2] := by
    decide +kernel
  rw [columns] at own
  exact absurd own (by decide +kernel)

end PulseEngine.Renderer
