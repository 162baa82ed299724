import PulseEngine.Prefab.Cleanup

/-!
# Failed loads

A load that fails leaves the entities and their components as they were. Whatever is made in it is below the entity of
some definition, and `delete_prefab_entities` deletes these with all that is below them.
-/

namespace PulseEngine.Prefab

open Datalist Library

/-- The entity world as a set of entities with components: each call writes to the entity that it is passed, makes
entities only below that one, and a deleted entity goes with its children. -/
structure Lawful {δ ω γ κ : Type} (flecs : Flecs δ ω γ) (torn : ω → ℕ → ℕ → NodeId → ω) (p : Population ω κ ℕ) :
    Prop where
  closed : p.Closed
  isAlive : ∀ {w e}, e ≠ 0 → (flecs.isAlive w e = true ↔ e ∈ p.alive w)
  zero : ∀ w, 0 ∉ p.alive w
  fresh : ∀ w, (flecs.new w).2 ∉ p.alive w
  new : ∀ w, p.Writes w (flecs.new w).1 (flecs.new w).2
  new_alive : ∀ w, (flecs.new w).2 ∈ p.alive (flecs.new w).1
  setName : ∀ {w e} name, e ∈ p.alive w → p.Writes w (flecs.setName w e name) e
  addId : ∀ {w e} id, e ∈ p.alive w → p.Writes w (flecs.addId w e id) e
  ensure : ∀ {w e} id, e ∈ p.alive w → p.Writes w (flecs.ensure w e id).1 e
  stored : ∀ {w e} id cursor, e ∈ p.alive w → p.Writes w (flecs.stored w e id cursor) e
  torn : ∀ {w e} id node, e ∈ p.alive w → p.Writes w (torn w e id node) e
  modified : ∀ {w e} id, e ∈ p.alive w → p.Writes w (flecs.modified w e id) e
  delete : ∀ {w e}, e ∈ p.alive w → p.Deletes w (flecs.delete w e) e

namespace Building

variable {δ ω γ κ : Type} {flecs : Flecs δ ω γ} {torn : ω → ℕ → ℕ → NodeId → ω} {p : Population ω κ ℕ}
  {doc : Document δ} {parsed : Parsed δ} {w w' w₀ : ω} {made : Set ℕ} {entity : ℕ} {node : NodeId}
  {library : PrefabLibrary} {definition : Definition}

/-- The world while a prefab is built: the entities that were made are there, and all else that is new is below
them. -/
structure Grown (p : Population ω κ ℕ) (w₀ : ω) (made : Set ℕ) (w : ω) : Prop extends p.Since w₀ w made where
  there : ∀ e ∈ made, e ∈ p.alive w

lemma Grown.write (h : Grown p w₀ made w) (he : entity ∈ made) (writes : p.Writes w w' entity) :
    Grown p w₀ made w' :=
  ⟨h.toSince.write he writes, fun e he => writes.alive (h.there e he)⟩

abbrev Keeps (p : Population ω κ ℕ) (w₀ : ω) (made : Set ℕ) (x : Build ω Unit) : Prop :=
  ∀ w, Grown p w₀ made w → Leaves x w (fun _ => Grown p w₀ made) (Grown p w₀ made)

lemma keeps_pure : Keeps p w₀ made (pure ()) := fun _ h => leaves_pure h

lemma keeps_fail {message : String} : Keeps p w₀ made (apart (fail message)) :=
  fun _ h => leaves_apart (fun _ returns => absurd returns not_returns_throw) h

lemma keeps_failWith {message : List Text} : Keeps p w₀ made (apart (failWith message)) :=
  fun _ h => leaves_apart (fun _ returns => absurd returns not_returns_throw) h

lemma keeps_forM {ι : Type} {g : ι → Build ω Unit} {as : List ι} (keeps : ∀ a ∈ as, Keeps p w₀ made (g a)) :
    Keeps p w₀ made (as.forM g) :=
  fun _ h => leaves_forM (fun a ha w h => keeps a ha w h) h

lemma keeps_bind {x y : Build ω Unit} (first : Keeps p w₀ made x) (second : Keeps p w₀ made y) :
    Keeps p w₀ made (x >>= fun _ => y) :=
  fun w h => (first w h).bind fun _ w' h' => second w' h'

lemma keeps_attempt {f : ω → Load ω} (step : ∀ w w', Grown p w₀ made w → Returns (f w) w' → Grown p w₀ made w') :
    Keeps p w₀ made (attempt id f) :=
  fun w h => leaves_attempt (fun w' returns => step w w' h returns) h

def entitiesOf (definitions : List Definition) : Set ℕ := {e | e ∈ definitions.map Definition.entity}

lemma entitiesOf_nil : entitiesOf [] = ∅ := Set.eq_empty_of_forall_notMem fun _ => List.not_mem_nil

lemma entitiesOf_append {definitions : List Definition} :
    entitiesOf (definitions ++ [definition]) = insert definition.entity (entitiesOf definitions) := by
  ext e
  refine Iff.trans ?_ or_comm
  rw [entitiesOf, Set.mem_ofPred_eq, List.map_append, List.mem_append]
  exact or_congr_right List.mem_singleton

variable (lawful : Lawful flecs torn p)
include lawful

lemma Grown.addId (h : Grown p w₀ made w) (he : entity ∈ made) (id : ℕ) :
    Grown p w₀ made (flecs.addId w entity id) :=
  h.write he (lawful.addId id (h.there entity he))

lemma keeps_applyTag (he : entity ∈ made) {item : NodeId} :
    Keeps p w₀ made (attempt id fun world => applyTag flecs doc entity world item) := by
  refine keeps_attempt fun w w' h returns => ?_
  unfold applyTag at returns
  split at returns
  · exact absurd returns not_returns_throw
  split at returns
  · exact absurd returns not_returns_throw
  split at returns
  · exact absurd returns not_returns_throw
  dsimp only at returns
  split at returns
  · exact absurd returns not_returns_throw
  split at returns
  · exact absurd returns not_returns_throw
  · exact returns_pure.mp returns ▸ h.addId lawful he _

lemma keeps_applyTags (he : entity ∈ made) : Keeps p w₀ made (applyTags flecs doc entity node) := by
  rw [applyTags]
  split
  · exact keeps_pure
  split
  · exact keeps_fail
  split
  · exact keeps_fail
  · exact keeps_forM fun _ _ => keeps_applyTag lawful he

lemma keeps_applyTarget (he : entity ∈ made) {rel : ℕ} {item : NodeId} :
    Keeps p w₀ made (attempt id fun world => applyTarget flecs doc entity rel world item) := by
  refine keeps_attempt fun w w' h returns => ?_
  unfold applyTarget at returns
  split at returns
  · exact absurd returns not_returns_throw
  split at returns
  · exact absurd returns not_returns_throw
  dsimp only at returns
  split at returns
  · exact absurd returns not_returns_throw
  · exact returns_pure.mp returns ▸ h.addId lawful he _

lemma keeps_applyPair (he : entity ∈ made) {entry : Text × NodeId} :
    Keeps p w₀ made (applyPair flecs doc entity entry) := by
  intro w h
  have get : Leaves (MonadState.get : Build ω ω) w (fun _ => Grown p w₀ made) (Grown p w₀ made) := by
    rintro _ _ ⟨⟩
    exact h
  refine get.bind fun world w h => ?_
  dsimp only
  split
  · exact keeps_failWith w h
  rw [applyPairTargets]
  split
  · exact keeps_forM (fun _ _ => keeps_applyTarget lawful he) w h
  · exact keeps_applyTarget lawful he w h

lemma keeps_applyPairs (he : entity ∈ made) : Keeps p w₀ made (applyPairs flecs doc entity node) := by
  rw [applyPairs]
  split
  · exact keeps_pure
  split
  · exact keeps_fail
  split
  · exact keeps_fail
  · exact keeps_forM fun _ _ => keeps_applyPair lawful he

lemma keeps_linkBase (he : definition.entity ∈ made) : Keeps p w₀ made (linkBase flecs doc library definition) := by
  refine keeps_attempt fun w w' h returns => ?_
  unfold Prefab.linkBase at returns
  split at returns
  · exact returns_pure.mp returns ▸ h.addId lawful he _
  split at returns
  · exact returns_pure.mp returns ▸ h
  dsimp only at returns
  split at returns
  · exact absurd returns not_returns_throw
  · exact returns_pure.mp returns ▸ h.addId lawful he _

lemma Grown.linkParents (h : Grown p w₀ made w) {definitions : List Definition}
    (he : ∀ d ∈ definitions, d.entity ∈ made) : Grown p w₀ made (definitions.foldl (linkParent flecs library) w) := by
  induction definitions generalizing w with
  | nil => exact h
  | cons definition definitions ih =>
    obtain ⟨first, he⟩ := List.forall_mem_cons.mp he
    refine ih ?_ he
    rw [linkParent]
    split
    · exact h
    · exact h.addId lawful first _

lemma Grown.newEntity {k : ℕ} {state : ω × PrefabLibrary} (lt : k < state.2.definitions.length)
    (h : Grown p w₀ (entitiesOf (state.2.definitions.take k)) state.1) :
    Grown p w₀ (entitiesOf ((newEntity flecs state k).2.definitions.take (k + 1))) (newEntity flecs state k).1 := by
  obtain ⟨w, library⟩ := state
  obtain ⟨d, hd⟩ : ∃ d, library.definitions[k]? = some d := ⟨_, List.getElem?_eq_getElem lt⟩
  have more : ∀ f : Definition → Definition, (library.definitions.modify k f).take (k + 1) =
      library.definitions.take k ++ [f d] := by
    intro f
    have short : (library.definitions.take k).length ≤ k := List.length_take_le k _
    rw [List.take_add_one, List.take_modify, List.modify_eq_self short, List.getElem?_modify_eq, hd]
    rfl
  rw [Prefab.newEntity, hd]
  dsimp only [PrefabLibrary.modify]
  rw [more, entitiesOf_append]
  have made : Grown p w₀ (insert (flecs.new w).2 (entitiesOf (library.definitions.take k))) (flecs.new w).1 := by
    refine ⟨h.toSince.new (lawful.fresh w) (lawful.new w), ?_⟩
    rintro e (rfl | he)
    · exact lawful.new_alive w
    · exact (lawful.new w).alive (h.there e he)
  split
  · exact made
  · exact made.write (Set.mem_insert _ _) (lawful.setName _ (lawful.new_alive w))

lemma grown_newEntities : ∀ k ≤ library.definitions.length,
    let state := (List.range k).foldl (newEntity flecs) (w, library)
    state.2.definitions.length = library.definitions.length ∧
      Grown p w (entitiesOf (state.2.definitions.take k)) state.1 := by
  intro k
  induction k with
  | zero =>
    refine fun _ => ⟨rfl, ?_, fun e he => absurd he List.not_mem_nil⟩
    exact entitiesOf_nil ▸ .refl w
  | succ k ih =>
    intro le
    obtain ⟨length, h⟩ := ih (Nat.le_of_succ_le le)
    rw [List.range_succ, List.foldl_append, List.foldl_cons, List.foldl_nil]
    refine ⟨?_, h.newEntity lawful (length ▸ le)⟩
    rw [← length, Prefab.newEntity]
    split
    · rfl
    · exact List.length_modify _ _ _

variable [Double δ]

lemma keeps_applyComponent (he : entity ∈ made) {component : Text × NodeId} :
    Keeps p w₀ made (applyComponent flecs torn doc entity component) := by
  obtain ⟨name, node⟩ := component
  have ensured : ∀ {w}, Grown p w₀ made w → ∀ id, Grown p w₀ made (flecs.ensure w entity id).1 :=
    fun h id => h.write he (lawful.ensure id (h.there entity he))
  have modified : ∀ {w}, Grown p w₀ made w → ∀ id, Grown p w₀ made (flecs.modified w entity id) :=
    fun h id => h.write he (lawful.modified id (h.there entity he))
  have stored : ∀ {w}, Grown p w₀ made w → ∀ id cursor, Grown p w₀ made (flecs.stored w entity id cursor) :=
    fun h id cursor => h.write he (lawful.stored id cursor (h.there entity he))
  intro w h
  refine leaves_attempt (fun w' returns => ?_) ?_
  · unfold Prefab.applyComponent at returns
    dsimp only at returns
    split at returns
    · exact returns_pure.mp returns ▸ h
    split at returns
    · split at returns
      · exact returns_pure.mp returns ▸ modified (ensured h _) _
      · exact returns_pure.mp returns ▸ h.addId lawful he _
    split at returns
    · exact returns_pure.mp returns ▸ h
    split at returns
    · exact absurd returns not_returns_throw
    split at returns
    · exact absurd returns not_returns_throw
    obtain ⟨⟨cursor, _⟩, -, returns⟩ := returns_bind.mp returns
    exact returns_pure.mp returns ▸ modified (stored (ensured h _) _ cursor) _
  · rw [leftComponent]
    dsimp only
    split
    · exact h
    split
    · exact ensured h _
    · exact (ensured h _).write he (lawful.torn _ _ ((ensured h _).there entity he))

lemma keeps_fillEntity (he : definition.entity ∈ made) : Keeps p w₀ made (fillEntity flecs torn doc definition) := by
  refine keeps_bind (keeps_bind ?_ (keeps_bind (keeps_applyTags lawful he) (keeps_applyPairs lawful he))) fun w h => ?_
  · rw [applyComponents]
    split
    · exact keeps_pure
    · exact keeps_forM fun _ _ => keeps_applyComponent lawful he
  · exact leaves_modify (h.addId lawful he _)

omit [Double δ] in
lemma deletePrefabEntities_unchanged (h : p.Since w₀ w (entitiesOf library.definitions)) :
    p.Unchanged w₀ (deletePrefabEntities flecs library w) := by
  rw [deletePrefabEntities]
  generalize library.definitions = definitions at h
  induction definitions using List.reverseRecOn generalizing w with
  | nil =>
    rw [entitiesOf_nil] at h
    exact h.unchanged
  | append_singleton definitions definition ih =>
    rw [entitiesOf_append] at h
    rw [List.reverse_append, List.reverse_singleton, List.singleton_append, List.foldl_cons]
    refine ih ?_
    rw [deleteEntity]
    split_ifs with there
    · have alive := (lawful.isAlive there.1).mp there.2
      exact h.delete lawful.closed (lawful.delete alive)
    · refine h.skip lawful.closed fun alive => there ?_
      have ne : definition.entity ≠ 0 := fun eq => lawful.zero w (eq ▸ alive)
      exact ⟨ne, (lawful.isAlive ne).mpr alive⟩

lemma buildPrefabLibrary_leaves :
    Leaves (buildPrefabLibrary flecs torn parsed library) w (fun _ _ => True) (p.Unchanged w) := by
  have same : p.Unchanged w w := .refl w
  refine (leaves_apart (Q := fun _ w' => w = w') (fun _ _ => rfl) same).bind ?_
  rintro linked _ rfl
  refine (leaves_apart (Q := fun _ w' => w = w') (fun _ _ => rfl) same).bind ?_
  rintro based _ rfl
  have fresh : Leaves (newEntities flecs based) w (fun library => Grown p w (entitiesOf library.definitions))
      (p.Unchanged w) := by
    rintro _ _ ⟨⟩
    obtain ⟨length, h⟩ := grown_newEntities lawful (w := w) based.definitions.length le_rfl
    rwa [List.take_of_length_le length.le] at h
  refine fresh.bind fun library w₁ h => ?_
  have mem : ∀ d ∈ library.definitions, d.entity ∈ entitiesOf library.definitions :=
    fun d hd => List.mem_map_of_mem hd
  refine (leaves_modify (Q := fun _ => Grown p w (entitiesOf library.definitions)) (h.linkParents lawful mem)).bind
    fun _ w₂ h => ?_
  have undone : ∀ w', Grown p w (entitiesOf library.definitions) w' →
      p.Unchanged w (deletePrefabEntities flecs library w') :=
    fun w' h => deletePrefabEntities_unchanged lawful h.toSince
  refine (leaves_orUndo ((keeps_forM (fun d hd => keeps_fillEntity lawful (mem d hd)) w₂ h).imp
    (fun _ _ h => h) undone)).bind fun _ w₃ h => ?_
  refine (leaves_orUndo ((keeps_forM (fun d hd => keeps_linkBase lawful (mem d hd)) w₃ h).imp
    (fun _ _ h => h) undone)).bind fun _ w₄ h => ?_
  exact leaves_pure trivial

/-- **A failed load leaves nothing.** Wherever a step of a load fails, the same entities are alive as before, with the
same components; and as long as it waits, it leaves the world alone. -/
theorem failed_step_unchanged {fuel : ℕ} {pending : Reference → Bool} {state : LoadState} :
    Leaves (stepPrefabLoad flecs torn parsed fuel pending state) w (fun r w' => r.2 = none → w' = w)
      (p.Unchanged w) := by
  have same : p.Unchanged w w := .refl w
  refine (leaves_apart (Q := fun _ w' => w = w') (fun _ _ => rfl) same).bind ?_
  rintro library _ rfl
  have get : Leaves (MonadState.get : Build ω ω) w (fun _ w' => w = w') (p.Unchanged w) := by
    rintro _ _ ⟨⟩
    exact rfl
  refine get.bind ?_
  rintro world _ rfl
  refine (leaves_apart (Q := fun _ w' => w = w') (fun _ _ => rfl) same).bind ?_
  rintro waiting _ rfl
  cases waiting with
  | true => exact leaves_pure fun _ => rfl
  | false => exact (buildPrefabLibrary_leaves lawful).bind fun built w' _ => leaves_pure nofun

end Building

/-! ### A prefab whose base is missing -/

abbrev Table := List (ℕ × Text × List ℕ)

/-- The table as an entity world: only the operations that look at a table or write to it are not those of
`plainFlecs`. -/
def tableFlecs : Flecs Int Table ℕ where
  push := plainFlecs.push
  pop := plainFlecs.pop
  isCollection := plainFlecs.isCollection
  elem := plainFlecs.elem
  tryDotmember := plainFlecs.tryDotmember
  type := plainFlecs.type
  setBool := plainFlecs.setBool
  setInt := plainFlecs.setInt
  setFloat := plainFlecs.setFloat
  setString := plainFlecs.setString
  setEntity := plainFlecs.setEntity
  entityType := plainFlecs.entityType
  stringType := plainFlecs.stringType
  maxScopes := plainFlecs.maxScopes
  lookup table name := ((table.find? fun row => row.2.1 = name).map Prod.fst).getD 0
  opaqueOf _ _ := none
  typeInfo _ _ := none
  scratch _ _ := none
  pair := plainFlecs.pair
  idIsTag _ _ := true
  addId table entity id := table.map fun row => if row.1 = entity then (row.1, row.2.1, row.2.2 ++ [id]) else row
  ensure table _ _ := (table, false)
  cursorAt _ _ _ _ := none
  stored table _ _ _ := table
  modified table _ _ := table
  new table :=
    let entity := (table.map Prod.fst).foldr max 0 + 1
    ((entity, [], []) :: table, entity)
  setName table entity name := table.map fun row => if row.1 = entity then (row.1, name, row.2.2) else row
  isAlive table entity := table.any fun row => row.1 = entity
  delete table entity := table.filter fun row => row.1 ≠ entity
  childOf := plainFlecs.childOf
  isA := plainFlecs.isA
  prefabTag := plainFlecs.prefabTag

def tablePopulation : Population Table (Option (Text × List ℕ)) ℕ where
  alive table := {e | e ≠ 0 ∧ e ∈ table.map Prod.fst}
  components table e := table.lookup e
  mentions _ _ := False
  childOf _ _ := False

lemma table_lookup {e x : ℕ} (f : Text × List ℕ → Text × List ℕ) (ne : x ≠ e) : ∀ table : Table,
    (table.map fun row => if row.1 = e then (row.1, f row.2) else row).lookup x = table.lookup x
  | [] => rfl
  | (y, record) :: table => by
    have rest := table_lookup f ne table
    rw [List.map_cons]
    dsimp only
    split_ifs with here
    · have skip : (x == y) = false := beq_eq_false_iff_ne.mpr (here ▸ ne)
      rw [List.lookup_cons, List.lookup_cons, skip, rest]
    · rw [List.lookup_cons, List.lookup_cons, rest]

lemma table_lookup_filter {e x : ℕ} (ne : x ≠ e) : ∀ table : Table,
    (table.filter fun row => row.1 ≠ e).lookup x = table.lookup x
  | [] => rfl
  | (y, record) :: table => by
    have rest := table_lookup_filter ne table
    by_cases here : y = e
    · have skip : (x == y) = false := beq_eq_false_iff_ne.mpr (here ▸ ne)
      rw [List.filter_cons_of_neg (by simpa using here), List.lookup_cons, skip, rest]
    · rw [List.filter_cons_of_pos (by simpa using here), List.lookup_cons, List.lookup_cons, rest]

lemma table_writes {table : Table} {e : ℕ} (f : Text × List ℕ → Text × List ℕ) :
    tablePopulation.Writes table (table.map fun row => if row.1 = e then (row.1, f row.2) else row) e := by
  have keys : (table.map fun row => if row.1 = e then (row.1, f row.2) else row).map Prod.fst =
      table.map Prod.fst := by
    rw [List.map_map]
    refine List.map_congr_left fun row _ => ?_
    rw [Function.comp]
    split_ifs <;> rfl
  refine ⟨fun x hx => ⟨hx.1, keys ▸ hx.2⟩, fun x _ ne => table_lookup f ne table, fun x hx hnot => ?_⟩
  exact absurd ⟨hx.1, keys ▸ hx.2⟩ hnot

lemma table_mem_filter {table : Table} {e x : ℕ} :
    x ∈ (table.filter fun row => row.1 ≠ e).map Prod.fst ↔ x ∈ table.map Prod.fst ∧ x ≠ e := by
  simp only [List.mem_map, List.mem_filter, decide_eq_true_eq]
  constructor
  · rintro ⟨row, ⟨mem, ne⟩, rfl⟩
    exact ⟨⟨row, mem, rfl⟩, ne⟩
  · rintro ⟨⟨row, mem, rfl⟩, ne⟩
    exact ⟨row, ⟨mem, ne⟩, rfl⟩

lemma table_deletes {table : Table} {e : ℕ} :
    tablePopulation.Deletes table (table.filter fun row => row.1 ≠ e) e := by
  refine ⟨fun h => (table_mem_filter.mp h.2).2 rfl, fun x hx => ⟨hx.1, (table_mem_filter.mp hx.2).1⟩,
    fun x hx gone => ?_, fun x hx _ => table_lookup_filter (table_mem_filter.mp hx.2).2 table,
    fun _ _ _ => False.elim⟩
  by_cases eq : x = e
  · exact eq ▸ .refl
  · exact absurd ⟨hx.1, table_mem_filter.mpr ⟨hx.2, eq⟩⟩ gone

lemma table_fresh {table : Table} : (tableFlecs.new table).2 ∉ table.map Prod.fst := by
  intro mem
  have le : ∀ {ns : List ℕ} {n : ℕ}, n ∈ ns → n ≤ ns.foldr max 0 := by
    intro ns
    induction ns with
    | nil => exact fun h => absurd h List.not_mem_nil
    | cons m ns ih =>
      intro n h
      rcases List.mem_cons.mp h with rfl | h
      · exact le_max_left _ _
      · exact (ih h).trans (le_max_right _ _)
  exact Nat.not_succ_le_self _ (le mem)

lemma tableFlecs_lawful : Lawful tableFlecs (fun table _ _ _ => table) tablePopulation where
  closed := ⟨fun _ _ _ names => names.2.elim, fun _ _ => False.elim⟩
  isAlive := by
    intro table e ne
    refine List.any_eq_true.trans ⟨?_, ?_⟩
    · rintro ⟨row, mem, eq⟩
      exact ⟨ne, List.mem_map.mpr ⟨row, mem, of_decide_eq_true eq⟩⟩
    · rintro ⟨-, mem⟩
      obtain ⟨row, mem, eq⟩ := List.mem_map.mp mem
      exact ⟨row, mem, decide_eq_true eq⟩
  zero _ alive := alive.1 rfl
  fresh _ alive := table_fresh alive.2
  new table := by
    refine ⟨fun x hx => ⟨hx.1, .tail _ hx.2⟩, fun x hx ne => ?_, fun x hx hnot => ?_⟩
    · have skip : (x == (table.map Prod.fst).foldr max 0 + 1) = false := beq_eq_false_iff_ne.mpr ne
      refine List.lookup_cons.trans ?_
      rw [skip]
      rfl
    · rcases List.mem_cons.mp hx.2 with rfl | mem
      · exact .refl
      · exact absurd ⟨hx.1, mem⟩ hnot
  new_alive _ := ⟨Nat.succ_ne_zero _, List.mem_cons_self⟩
  setName name _ := table_writes fun record => (name, record.2)
  addId id _ := table_writes fun record => (record.1, record.2 ++ [id])
  ensure _ _ := .refl
  stored _ _ _ := .refl
  torn _ _ _ := .refl
  modified _ _ := .refl
  delete _ := table_deletes

def missingBase : Parsed Int where
  doc
    | 0 => { Node.empty .map with entries := [("name".toList, 1), ("extends".toList, 2)] }
    | 1 => { Node.empty .string with s := "box".toList }
    | 2 => { Node.empty .string with s := "missing".toList }
    | _ => Node.empty .nil
  root := 0
  nodes := Finset.range 3
  root_mem := by decide
  entries_mem := by decide
  items_mem := by decide

/-- The entity of the prefab is made and deleted again. -/
theorem failed_step_unchanged_missing : ∃ e w', runFrom (Building.stepPrefabLoad tableFlecs (fun table _ _ _ => table)
      missingBase 1 (fun _ => false) .fresh) [(7, "camera".toList, [])] = some (.error e, w') ∧
    tablePopulation.Unchanged [(7, "camera".toList, [])] w' := by
  obtain ⟨e, w', run⟩ : ∃ e w', runFrom (Building.stepPrefabLoad tableFlecs (fun table _ _ _ => table) missingBase 1
      (fun _ => false) .fresh) [(7, "camera".toList, [])] = some (.error e, w') := ⟨_, _, rfl⟩
  exact ⟨e, w', run, Building.failed_step_unchanged tableFlecs_lawful (.error e) w' run⟩

end PulseEngine.Prefab
