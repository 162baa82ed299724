import PulseEngine.Datatable.Registry

/-!
# Which table a handle leads to

`slots_` keeps the first table that was loaded under a handle index for good: `create_table` does
not overwrite the entry and nothing but a failed load removes one. A completed load is therefore
bound to its own table when its index was never used by a completed load before, and to the table
of the first such load otherwise.
-/

namespace PulseEngine.Datatable

open Asset Library

namespace Registry

variable {r r' : Registry} {task : LoadTask} {i j : Nat} {t : TableId} {built table : Table}

/-- Every table number in use was given out, an entry belongs to one handle index, and a live table
slot is bound to the entry of its index. -/
structure Sound (r : Registry) : Prop where
  fresh : ∀ t, r.nextTable ≤ t → r.tables t = none
  entry : ∀ {i t}, r.slots i = some t → t < r.nextTable
  once : ∀ {i j t}, r.slots i = some t → r.slots j = some t → i = j
  live : ∀ {i t}, r.live i = some t → r.slots i = some t
  order : ∀ t ∈ r.tableOrder, t < r.nextTable

/-- The table slot of handle index `i` refers to table `t`, which is as it was built. -/
structure BoundTo (r : Registry) (i : Nat) (t : TableId) (built : Table) : Prop where
  table : (r.memory i).table = some t
  rows : (r.memory i).rows = some t
  rowCount : (r.memory i).rowCount = built.rowCount
  schema : (r.memory i).schema = some built.schema
  alive : r.tables t = some { built with slot := some i }

structure Loaded (r r' : Registry) (i : Nat) (built : Table) : Prop where
  nextTable : r'.nextTable = r.nextTable + 1
  slots : r'.slots = emplace r.slots i r.nextTable
  live : ∃ t, r'.slots i = some t ∧ r'.live = emplace r.live i t
  tableOrder : r'.tableOrder = r.tableOrder ++ [r.nextTable]
  table : (r'.memory i).table = r'.slots i
  rows : (r'.memory i).rows = some r.nextTable
  rowCount : (r'.memory i).rowCount = built.rowCount
  memory : ∀ j, j ≠ i → r'.memory j = r.memory j
  tables : ∀ t, r'.slots i ≠ some t → t ≠ r.nextTable → r'.tables t = r.tables t
  own : r.slots i = none → r'.tables r.nextTable = some { built with slot := some i } ∧
    (r'.memory i).schema = some built.schema

lemma Sound.init : Sound Registry.init := by
  constructor <;> simp [Registry.init]

lemma Sound.destroy_created (sound : Sound r) (h : Handle) (schema : Schema) :
    (r.createTable h schema).1.destroyTable r.nextTable = { r with nextTable := r.nextTable + 1 } := by
  have tables : Function.update (Function.update r.tables r.nextTable (some (Table.reset schema)))
      r.nextTable none = r.tables := by
    rw [Function.update_idem, Function.update_eq_self_iff]
    exact (sound.fresh _ (Nat.le_refl _)).symm
  have slots : eraseValue (emplace r.slots h.index r.nextTable) r.nextTable = r.slots :=
    eraseValue_emplace (fun i hi => Nat.lt_irrefl _ (sound.entry hi)) _
  have order : (r.tableOrder ++ [r.nextTable]).erase r.nextTable = r.tableOrder := by
    have new : r.nextTable ∉ r.tableOrder := fun hm => Nat.lt_irrefl _ (sound.order _ hm)
    rw [List.erase_append_right _ new, List.erase_cons_head, List.append_nil]
  simp only [createTable, destroyTable, tables, slots, order]

lemma openFile_ne_done {status : LoaderStatus} (e : r.openFile task = .error status) :
    status ≠ .done := by
  rintro rfl
  unfold openFile at e
  simp only [bind, Except.bind, pure, Except.pure, throw, throwThe, MonadExceptOf.throw] at e
  repeat' split at e
  all_goals simp_all

lemma bindSlot_of_entry {h : Handle} {slot : SlotAddress} (e : r.slots h.index = some t) :
    r.bindSlot h slot = { r with
      tables := Function.update r.tables t
        ((r.tables t).map fun table => { table with slot := some slot })
      memory := Function.update r.memory slot
        { r.memory slot with table := some t, schema := (r.tables t).map (·.schema) }
      live := emplace r.live slot t } := by
  unfold bindSlot
  simp only [e]
  rfl

lemma loaded_finishLoad (h : Handle) {schema : Schema} :
    Loaded r ((r.createTable h schema).1.finishLoad h r.nextTable built) h.index built := by
  set r₁ := (r.createTable h schema).1.modifyTable r.nextTable fun _ => built with hr₁
  have slots : r₁.slots = emplace r.slots h.index r.nextTable := rfl
  have tables : r₁.tables = Function.update r.tables r.nextTable (some built) := by
    simp [hr₁, modifyTable, createTable]
  obtain ⟨t, ht⟩ := Option.isSome_iff_exists.mp (emplace_self_isSome r.slots h.index r.nextTable)
  have entry : r₁.slots h.index = some t := ht
  unfold finishLoad
  rw [← hr₁, bindSlot_of_entry entry]
  constructor
  · rfl
  · exact slots
  · exact ⟨t, entry, rfl⟩
  · rfl
  · simp [entry]
  · simp
  · simp
  · intro j hj
    simp [Function.update_of_ne hj]
    rfl
  · intro t' hne hnew
    have hne' : t' ≠ t := by
      rintro rfl
      exact hne entry
    simp only [Function.update_of_ne hne', tables, Function.update_of_ne hnew]
  · intro hnone
    have htn : t = r.nextTable := by
      rw [emplace_of_none hnone, Function.update_self] at ht
      exact (Option.some.inj ht).symm
    subst htn
    simp [tables]

/-- **Inversion.** A step fails or waits, destroys the table it created, or completes. -/
theorem Sound.step_inv (sound : Sound r) (task : LoadTask) :
    (r.builds task = none ∧ (r.step task).2 ≠ .done ∧
      ((r.step task).1 = r ∨ (r.step task).1 = { r with nextTable := r.nextTable + 1 })) ∨
    ∃ built, r.builds task = some built ∧ (r.step task).2 = .done ∧
      Loaded r (r.step task).1 task.handle.index built := by
  unfold builds step
  cases ho : r.openFile task with
  | error status => exact Or.inl ⟨rfl, openFile_ne_done ho, Or.inl rfl⟩
  | ok opened =>
    obtain ⟨schema, nodes⟩ := opened
    cases hf : (Table.reset schema).fill (schemaNameFromPath task.path) nodes with
    | error e =>
      left
      simp only [hf]
      exact ⟨rfl, by simp, Or.inr (sound.destroy_created task.handle schema)⟩
    | ok table =>
      right
      simp only [hf]
      exact ⟨table, rfl, trivial, loaded_finishLoad task.handle⟩

lemma Loaded.slots_inv (l : Loaded r r' i built) (e : r'.slots j = some t) :
    r.slots j = some t ∨ (j = i ∧ r.slots i = none ∧ t = r.nextTable) := by
  rw [l.slots] at e
  by_cases hj : j = i
  · subst hj
    cases hi : r.slots j with
    | none =>
      rw [emplace_of_none hi, Function.update_self] at e
      cases e
      exact Or.inr ⟨rfl, rfl, rfl⟩
    | some _ =>
      rw [emplace_of_isSome (by simp [hi]), hi] at e
      exact Or.inl e
  · rw [emplace_ne hj] at e
    exact Or.inl e

lemma Loaded.slots_of_some (l : Loaded r r' i built) (e : r.slots j = some t) :
    r'.slots j = some t := by
  rw [l.slots]
  by_cases hj : j = i
  · subst hj
    rw [emplace_of_isSome (by simp [e]), e]
  · rw [emplace_ne hj, e]

lemma Sound.loaded (sound : Sound r) (l : Loaded r r' i built) : Sound r' := by
  have entry : ∀ {j t}, r'.slots j = some t → t < r.nextTable + 1 := by
    intro j t e
    rcases l.slots_inv e with h | ⟨_, _, rfl⟩
    · exact Nat.lt_succ_of_lt (sound.entry h)
    · exact Nat.lt_succ_self _
  constructor
  · intro t ht
    rw [l.nextTable] at ht
    have hlt : r.nextTable < t := ht
    rw [l.tables t (fun e => absurd (entry e) (Nat.not_lt.mpr ht)) (Nat.ne_of_gt hlt)]
    exact sound.fresh t (Nat.le_of_lt hlt)
  · intro j t e
    rw [l.nextTable]
    exact entry e
  · intro j k t ej ek
    rcases l.slots_inv ej with hj | ⟨rfl, _, rfl⟩
    · rcases l.slots_inv ek with hk | ⟨_, _, rfl⟩
      · exact sound.once hj hk
      · exact absurd (sound.entry hj) (Nat.lt_irrefl _)
    · rcases l.slots_inv ek with hk | ⟨rfl, _, _⟩
      · exact absurd (sound.entry hk) (Nat.lt_irrefl _)
      · rfl
  · intro j t e
    obtain ⟨t₀, ht₀, hlive⟩ := l.live
    rw [hlive] at e
    by_cases hj : j = i
    · subst hj
      cases hl : r.live j with
      | none =>
        rw [emplace_of_none hl, Function.update_self] at e
        rw [ht₀, ← e]
      | some t₁ =>
        rw [emplace_of_isSome (by simp [hl]), hl] at e
        cases e
        exact l.slots_of_some (sound.live hl)
    · rw [emplace_ne hj] at e
      exact l.slots_of_some (sound.live e)
  · intro t ht
    rw [l.nextTable]
    rw [l.tableOrder] at ht
    rcases List.mem_append.mp ht with h | h
    · exact Nat.lt_succ_of_lt (sound.order t h)
    · rw [List.mem_singleton.mp h]
      exact Nat.lt_succ_self _

lemma Sound.skip (sound : Sound r) : Sound { r with nextTable := r.nextTable + 1 } where
  fresh t ht := sound.fresh t (Nat.le_of_succ_le ht)
  entry e := Nat.lt_succ_of_lt (sound.entry e)
  once := sound.once
  live := sound.live
  order t ht := Nat.lt_succ_of_lt (sound.order t ht)

lemma releaseSlot_spec (r : Registry) (i : Nat) :
    (r.releaseSlot i).slots = r.slots ∧ (r.releaseSlot i).nextTable = r.nextTable ∧
      (r.releaseSlot i).tableOrder = r.tableOrder ∧
      (∀ j, j ≠ i → (r.releaseSlot i).memory j = r.memory j) ∧
      (∀ t, r.live i ≠ some t → (r.releaseSlot i).tables t = r.tables t) ∧
      (∀ t, (r.releaseSlot i).tables t = none ↔ r.tables t = none) ∧
      ∀ j t, (r.releaseSlot i).live j = some t → r.live j = some t := by
  unfold releaseSlot
  cases hl : r.live i with
  | none =>
    refine ⟨rfl, rfl, rfl, fun j hj => ?_, fun _ _ => rfl, fun _ => Iff.rfl, fun _ _ => id⟩
    exact Function.update_of_ne hj _ _
  | some t₀ =>
    refine ⟨rfl, rfl, rfl, fun j hj => ?_, fun t ht => ?_, fun t => ?_, fun j t e => ?_⟩
    · exact Function.update_of_ne hj _ _
    · have hne : t ≠ t₀ := by
        rintro rfl
        exact ht rfl
      exact Function.update_of_ne hne _ _
    · by_cases ht : t = t₀
      · subst ht
        simp [modifyTable]
      · simp [modifyTable, Function.update_of_ne ht]
    · by_cases hj : j = i
      · subst hj
        simp at e
      · simpa [Function.update_of_ne hj] using e

lemma Sound.releaseSlot (sound : Sound r) (i : Nat) : Sound (r.releaseSlot i) := by
  obtain ⟨slots, next, order, _, _, none, live⟩ := releaseSlot_spec r i
  constructor
  · intro t ht
    exact (none t).mpr (sound.fresh t (next ▸ ht))
  · intro j t e
    exact next ▸ sound.entry (slots ▸ e)
  · intro j k t ej ek
    exact sound.once (slots ▸ ej) (slots ▸ ek)
  · intro j t e
    rw [slots]
    exact sound.live (live j t e)
  · intro t ht
    rw [next]
    exact sound.order t (order ▸ ht)

lemma Sound.apply (sound : Sound r) (e : Event) : Sound (r.apply e) := by
  cases e with
  | registerSchema schema => exact ⟨sound.1, sound.2, sound.3, sound.4, sound.5⟩
  | step task =>
    show Sound (r.step task).1
    rcases sound.step_inv task with ⟨_, _, h | h⟩ | ⟨_, _, _, l⟩
    · rw [h]
      exact sound
    · rw [h]
      exact sound.skip
    · exact sound.loaded l
  | destroy h => exact sound.releaseSlot h.index

lemma Sound.after (events : List Event) : Sound (after events) := by
  induction events using List.reverseRecOn with
  | nil => exact Sound.init
  | append_singleton events e ih =>
    unfold Registry.after at ih ⊢
    rw [List.foldl_append]
    exact ih.apply e

structure Kept (r r' : Registry) (i : Nat) : Prop where
  memory : r'.memory i = r.memory i
  table : ∀ t, r.slots i = some t → r'.tables t = r.tables t
  slots : ∀ t, r.slots i = some t → r'.slots i = some t

lemma Sound.kept (sound : Sound r) {e : Event} (other : e.index ≠ some i) :
    Kept r (r.apply e) i := by
  cases e with
  | registerSchema schema => exact ⟨rfl, fun _ _ => rfl, fun _ => id⟩
  | step task =>
    have hi : i ≠ task.handle.index := by
      rintro rfl
      exact other rfl
    show Kept r (r.step task).1 i
    rcases sound.step_inv task with ⟨_, _, h | h⟩ | ⟨_, _, _, l⟩
    · rw [h]
      exact ⟨rfl, fun _ _ => rfl, fun _ => id⟩
    · rw [h]
      exact ⟨rfl, fun _ _ => rfl, fun _ => id⟩
    · refine ⟨l.memory i hi, fun t e => l.tables t (fun e' => ?_) ?_, fun t e => l.slots_of_some e⟩
      · rcases l.slots_inv e' with h | ⟨_, _, rfl⟩
        · exact hi (sound.once e h)
        · exact Nat.lt_irrefl _ (sound.entry e)
      · rintro rfl
        exact Nat.lt_irrefl _ (sound.entry e)
  | destroy h =>
    have hi : i ≠ h.index := by
      rintro rfl
      exact other rfl
    obtain ⟨slots, _, _, memory, tables, _, _⟩ := releaseSlot_spec r h.index
    refine ⟨memory i hi, fun t e => tables t fun e' => ?_, fun t e => ?_⟩
    · exact hi (sound.once e (sound.live e'))
    · exact (congrFun slots i).trans e

lemma Sound.kept_run : ∀ {events : List Event} {r : Registry}, Sound r →
    (∀ e ∈ events, e.index ≠ some i) → Kept r (events.foldl Registry.apply r) i := by
  intro events
  induction events with
  | nil => exact fun _ _ => ⟨rfl, fun _ _ => rfl, fun _ => id⟩
  | cons e events ih =>
    intro r sound other
    have k₁ := sound.kept (other e List.mem_cons_self)
    have k₂ := ih (sound.apply e) fun e' he' => other e' (List.mem_cons_of_mem _ he')
    constructor
    · exact k₂.memory.trans k₁.memory
    · intro t e
      exact (k₂.table t (k₁.slots t e)).trans (k₁.table t e)
    · intro t e
      exact k₂.slots t (k₁.slots t e)

def Completed (events : List Event) (i : Nat) : Prop :=
  ∃ pre task post, events = pre ++ .step task :: post ∧ task.handle.index = i ∧
    ((Registry.after pre).step task).2 = .done

lemma after_append_singleton (events : List Event) (e : Event) :
    Registry.after (events ++ [e]) = (Registry.after events).apply e := by
  unfold Registry.after
  rw [List.foldl_append]
  rfl

lemma completed_append_singleton {events : List Event} {e : Event} :
    Completed (events ++ [e]) i ↔ Completed events i ∨
      ∃ task, e = .step task ∧ task.handle.index = i ∧
        ((Registry.after events).step task).2 = .done := by
  constructor
  · rintro ⟨pre, task, post, heq, hi, hd⟩
    rcases List.eq_nil_or_concat post with rfl | ⟨post, e', rfl⟩
    · obtain ⟨rfl, he⟩ := List.append_inj' heq rfl
      cases he
      exact Or.inr ⟨task, rfl, hi, hd⟩
    · rw [List.concat_eq_append, ← List.cons_append, ← List.append_assoc] at heq
      obtain ⟨rfl, -⟩ := List.append_inj' heq rfl
      exact Or.inl ⟨pre, task, post, rfl, hi, hd⟩
  · rintro (⟨pre, task, post, rfl, hi, hd⟩ | ⟨task, rfl, hi, hd⟩)
    · exact ⟨pre, task, post ++ [e], by simp, hi, hd⟩
    · exact ⟨events, task, [], rfl, hi, hd⟩

/-- **Entries.** A handle index has an entry once a load completed under it, and for good. -/
theorem slots_isSome_iff (events : List Event) (i : Nat) :
    ((Registry.after events).slots i).isSome ↔ Completed events i := by
  induction events using List.reverseRecOn with
  | nil =>
    constructor
    · intro h
      cases h
    · rintro ⟨pre, task, post, heq, _⟩
      cases pre <;> cases heq
  | append_singleton events e ih =>
    rw [after_append_singleton, completed_append_singleton, ← ih]
    have sound := Sound.after events
    cases e with
    | registerSchema schema => simp [Registry.apply, Registry.registerSchema]
    | destroy h =>
      have slots : ((Registry.after events).apply (.destroy h)).slots = _ :=
        (releaseSlot_spec (Registry.after events) h.index).1
      rw [slots]
      simp
    | step task =>
      show (((Registry.after events).step task).1.slots i).isSome ↔ _
      rcases sound.step_inv task with ⟨_, hd, h⟩ | ⟨_, _, hd, l⟩
      · have same : ((Registry.after events).step task).1.slots = (Registry.after events).slots := by
          rcases h with h | h <;> rw [h]
        rw [same]
        simp [hd]
      · rw [l.slots]
        by_cases hi : task.handle.index = i
        · subst hi
          simp [emplace_self_isSome, hd]
        · rw [emplace_ne (Ne.symm hi)]
          simp [hi]

/-- **The table a handle leads to.** After a load completed, and as long as nothing else happens under
its handle index, its table slot refers to the table it built if and only if the index had no entry
before, that is, if no load completed under the index earlier. -/
theorem bound_to_own_table (pre post : List Event) (task : LoadTask)
    (done : ((Registry.after pre).step task).2 = .done)
    (kept : ∀ e ∈ post, e.index ≠ some task.handle.index) :
    ∃ built, (Registry.after pre).builds task = some built ∧
      ((Registry.after (pre ++ .step task :: post)).BoundTo task.handle.index
          (Registry.after pre).nextTable built ↔
        (Registry.after pre).slots task.handle.index = none) ∧
      ((Registry.after pre).slots task.handle.index = none ↔
        ¬ Completed pre task.handle.index) := by
  have sound := Sound.after pre
  rcases sound.step_inv task with ⟨_, hd, _⟩ | ⟨built, hb, _, l⟩
  · exact absurd done hd
  set i := task.handle.index with hi
  have hafter : Registry.after (pre ++ .step task :: post) =
      post.foldl Registry.apply ((Registry.after pre).step task).1 := by
    unfold Registry.after
    rw [List.foldl_append]
    rfl
  have same := (sound.loaded l).kept_run kept
  rw [← hafter] at same
  refine ⟨built, hb, ⟨fun bound => ?_, fun none => ?_⟩, ?_⟩
  · have entry : ((Registry.after pre).step task).1.slots i = some (Registry.after pre).nextTable := by
      rw [← l.table, ← same.memory]
      exact bound.table
    rw [l.slots] at entry
    exact (emplace_self_eq_iff fun h => Nat.lt_irrefl _ (sound.entry h)).mp entry
  · have entry : ((Registry.after pre).step task).1.slots i = some (Registry.after pre).nextTable := by
      rw [l.slots, emplace_of_none none, Function.update_self]
    obtain ⟨alive, schema⟩ := l.own none
    constructor
    · rw [same.memory, l.table, entry]
    · rw [same.memory, l.rows]
    · rw [same.memory, l.rowCount]
    · rw [same.memory, schema]
    · rw [same.table _ entry, alive]
  · rw [← slots_isSome_iff]
    cases (Registry.after pre).slots i <;> simp

def sampleSchema : Schema := ⟨['m'], true, []⟩

def sampleLoad (h : Handle) (key : Int) : LoadTask where
  handle := h
  path := "m.datatable".toList
  dependenciesRequested := false
  requestsValid := true
  references := []
  file := some ⟨true, some ['m'], some [⟨true, true, true, .ok ⟨"", key, []⟩⟩]⟩

/-- Two loads under different indices are both bound to their own tables. -/
theorem bound_to_own_table_two : ∃ built,
    (Registry.after [.registerSchema sampleSchema, .step (sampleLoad ⟨9, 1, 1⟩ 4)]).builds
      (sampleLoad ⟨9, 2, 1⟩ 5) = some built ∧
    (Registry.after ([.registerSchema sampleSchema, .step (sampleLoad ⟨9, 1, 1⟩ 4)] ++
      .step (sampleLoad ⟨9, 2, 1⟩ 5) :: [.destroy ⟨9, 1, 1⟩])).BoundTo 2 1 built := by
  obtain ⟨built, hb, bound, _⟩ := bound_to_own_table
    [.registerSchema sampleSchema, .step (sampleLoad ⟨9, 1, 1⟩ 4)] [.destroy ⟨9, 1, 1⟩]
    (sampleLoad ⟨9, 2, 1⟩ 5) (by decide +kernel) (by decide +kernel)
  exact ⟨built, hb, bound.mpr (by decide +kernel)⟩

def reloadRun : List Event :=
  [.registerSchema sampleSchema, .step (sampleLoad ⟨9, 1, 1⟩ 4), .destroy ⟨9, 1, 1⟩]

/-- The second load completes, and its table slot refers to the table of the first. -/
theorem not_bound_to_own_table : ¬ ∀ (pre : List Event) (task : LoadTask),
    ((Registry.after pre).step task).2 = .done →
      ∃ built, (Registry.after pre).builds task = some built ∧
        (Registry.after (pre ++ [.step task])).BoundTo task.handle.index
          (Registry.after pre).nextTable built := by
  intro law
  obtain ⟨_, _, bound⟩ := law reloadRun (sampleLoad ⟨9, 1, 2⟩ 5) (by decide +kernel)
  have table := bound.table
  revert table
  decide +kernel

end Registry

end PulseEngine.Datatable
