import PulseEngine.Datatable.Binding
import PulseEngine.Library.Run

/-!
# Looking a table up by name

`find_table` goes through the tables that were ever created, newest first, and `table_slot` answers
with the table slot of the first one of the name, whether or not its asset is still there. The
answer is right as long as every completed load is bound to its own table and the newest table of
a name is not unloaded before the older ones.
-/

namespace PulseEngine.Datatable

open Asset Library

/-- A registry and the loaded assets, newest first: the handle index and the name of the table. -/
structure Ledger where
  registry : Registry
  loaded : List (Nat × Path)

def newest (loaded : List (Nat × Path)) (name : Path) : Option Nat :=
  (loaded.find? fun p => p.2 = name).map (·.1)

namespace Ledger

def init : Ledger := ⟨Registry.init, []⟩

def record (l : Ledger) : Registry.Event → List (Nat × Path)
  | .registerSchema _ => l.loaded
  | .step task =>
    if (l.registry.step task).2 = .done then
      (task.handle.index, schemaNameFromPath task.path) :: l.loaded
    else l.loaded
  | .destroy h => l.loaded.filter fun p => p.1 ≠ h.index

def step (l : Ledger) (e : Registry.Event) : Option Ledger :=
  some ⟨l.registry.apply e, l.record e⟩

/-- The condition on an event: a load completes under an index that has no entry, and the newest table
of a name is destroyed as the only one. -/
def Ordered (l : Ledger) : Registry.Event → Prop
  | .registerSchema _ => True
  | .step task => (l.registry.step task).2 = .done → l.registry.slots task.handle.index = none
  | .destroy h => ∀ p ∈ l.loaded, p.1 = h.index → newest l.loaded p.2 = some h.index →
    ∀ q ∈ l.loaded, q.2 = p.2 → q.1 = h.index

instance (l : Ledger) (e : Registry.Event) : Decidable (l.Ordered e) := by
  unfold Ordered
  cases e <;> infer_instance

/-- The law: a name leads to the most recently loaded table of the name that is still loaded, and to
nothing if and only if there is none. -/
structure NamesNewest (l : Ledger) : Prop where
  newest : ∀ name, l.registry.tableSlot name = newest l.loaded name
  none : ∀ name, l.registry.tableSlot name = none ↔ ∀ p ∈ l.loaded, p.2 ≠ name

lemma newest_filter {loaded : List (Nat × Path)} {name : Path} {i : Nat}
    (other : Datatable.newest loaded name ≠ some i) :
    Datatable.newest (loaded.filter fun p => p.1 ≠ i) name = Datatable.newest loaded name := by
  induction loaded with
  | nil => rfl
  | cons p loaded ih =>
    unfold Datatable.newest at other ih ⊢
    by_cases hn : p.2 = name
    · have hi : p.1 ≠ i := by simpa [hn] using other
      simp [hi, hn]
    · have other' : (loaded.find? fun p => p.2 = name).map (·.1) ≠ some i := by
        simpa [hn] using other
      by_cases hi : p.1 = i
      · simpa [hi, hn] using ih other'
      · simpa [hi, hn] using ih other'

lemma newest_eq_none_iff {loaded : List (Nat × Path)} {name : Path} :
    Datatable.newest loaded name = none ↔ ∀ p ∈ loaded, p.2 ≠ name := by
  simp [Datatable.newest]

lemma builds_name {r : Registry} {task : LoadTask} {built : Table}
    (e : r.builds task = some built) :
    built.name = schemaNameFromPath task.path ∧ schemaNameFromPath task.path ≠ [] := by
  unfold Registry.builds at e
  cases ho : r.openFile task with
  | error status =>
    rw [ho] at e
    cases e
  | ok opened =>
    obtain ⟨schema, nodes⟩ := opened
    simp only [ho] at e
    constructor
    · unfold Table.fill at e
      simp only at e
      split at e
      · cases e
      · split at e
        · cases e
        · rename_i hrows
          cases e
          obtain ⟨_, _, rfl⟩ := Table.indexRows_eq hrows
          rfl
    · intro hnil
      unfold Registry.openFile Registry.findSchema at ho
      simp [hnil, throw, throwThe, MonadExceptOf.throw] at ho

lemma tableSlot_eq {r : Registry} {name : Path} (h : name ≠ []) :
    r.tableSlot name = (r.tableOrder.reverse.find? fun t =>
      (r.tables t).any fun table => table.name = name).bind fun t =>
        (r.tables t).bind (·.slot) := by
  simp only [Registry.tableSlot, Registry.findTable, if_neg h]

lemma tableSlot_nil {r : Registry} : r.tableSlot [] = none := by
  simp [Registry.tableSlot, Registry.findTable]

lemma slotIn_congr {tables tables' : TableId → Option Table} {name : Path} :
    ∀ {order : List TableId}, (∀ t ∈ order, tables' t = tables t) →
      ((order.find? fun t => (tables' t).any fun table => table.name = name).bind fun t =>
        (tables' t).bind (·.slot)) =
      (order.find? fun t => (tables t).any fun table => table.name = name).bind fun t =>
        (tables t).bind (·.slot) := by
  intro order
  induction order with
  | nil => exact fun _ => rfl
  | cons t order ih =>
    intro same
    have ht := same t List.mem_cons_self
    rw [List.find?_cons, List.find?_cons, ht]
    split
    · simp only [Option.bind_some, ht]
    · exact ih fun t' ht' => same t' (List.mem_cons_of_mem _ ht')

/-- Every loaded asset is bound to the table its index has, every table slot that a table points to is
loaded, and names lead to the newest assets. -/
structure Tracks (l : Ledger) : Prop where
  sound : l.registry.Sound
  bound : ∀ p ∈ l.loaded, ∃ t table, l.registry.live p.1 = some t ∧
    l.registry.tables t = some table ∧ table.slot = some p.1 ∧ table.name = p.2
  live : ∀ i t, l.registry.live i = some t → ∃ name, (i, name) ∈ l.loaded
  owned : ∀ t table i, l.registry.tables t = some table → table.slot = some i →
    l.registry.live i = some t
  names : ∀ p ∈ l.loaded, p.2 ≠ []
  lookup : ∀ name, l.registry.tableSlot name = Datatable.newest l.loaded name

lemma Tracks.namesNewest {l : Ledger} (tracks : Tracks l) : NamesNewest l := by
  refine ⟨tracks.lookup, fun name => ?_⟩
  rw [tracks.lookup, newest_eq_none_iff]

lemma Tracks.init : Tracks Ledger.init := by
  refine ⟨Registry.Sound.init, ?_, ?_, ?_, ?_, fun name => ?_⟩
  · simp [Ledger.init]
  · simp [Ledger.init, Registry.init]
  · simp [Ledger.init, Registry.init]
  · simp [Ledger.init]
  · simp [Ledger.init, Registry.init, Registry.tableSlot, Registry.findTable, Datatable.newest]

lemma Tracks.loaded {l : Ledger} (tracks : Tracks l) {r' : Registry} {i : Nat} {built : Table}
    (fresh : l.registry.slots i = none) (named : built.name ≠ [])
    (done : Registry.Loaded l.registry r' i built) :
    Tracks ⟨r', (i, built.name) :: l.loaded⟩ := by
  have entry : r'.slots i = some l.registry.nextTable := by
    rw [done.slots, emplace_of_none fresh, Function.update_self]
  obtain ⟨own, -⟩ := done.own fresh
  have idle : l.registry.live i = none := by
    cases hl : l.registry.live i with
    | none => rfl
    | some t =>
      have := tracks.sound.live hl
      rw [fresh] at this
      cases this
  have live : r'.live = Function.update l.registry.live i (some l.registry.nextTable) := by
    obtain ⟨t, ht, hlive⟩ := done.live
    rw [entry] at ht
    cases ht
    rw [hlive, emplace_of_none idle]
  have tables : ∀ t, t ≠ l.registry.nextTable → r'.tables t = l.registry.tables t := by
    intro t ht
    refine done.tables t (fun hc => ht ?_) ht
    rw [entry] at hc
    exact (Option.some.inj hc).symm
  have older : ∀ {j t}, l.registry.live j = some t → j ≠ i ∧ t ≠ l.registry.nextTable := by
    intro j t hj
    constructor
    · rintro rfl
      rw [idle] at hj
      cases hj
    · rintro rfl
      exact Nat.lt_irrefl _ (tracks.sound.entry (tracks.sound.live hj))
  constructor
  · exact tracks.sound.loaded done
  · intro p hp
    rcases List.mem_cons.mp hp with rfl | hp
    · exact ⟨_, _, by simp [live], own, rfl, rfl⟩
    · obtain ⟨t, table, hl, ht, hs, hn⟩ := tracks.bound p hp
      obtain ⟨hpi, htn⟩ := older hl
      refine ⟨t, table, ?_, (tables t htn).trans ht, hs, hn⟩
      show r'.live p.1 = some t
      rw [live, Function.update_of_ne hpi, hl]
  · intro j t hj
    simp only [live] at hj
    by_cases hji : j = i
    · exact ⟨built.name, by simp [hji]⟩
    · rw [Function.update_of_ne hji] at hj
      obtain ⟨name, hm⟩ := tracks.live j t hj
      exact ⟨name, List.mem_cons_of_mem _ hm⟩
  · intro t table j ht hs
    simp only at ht ⊢
    by_cases htn : t = l.registry.nextTable
    · subst htn
      rw [own] at ht
      cases ht
      cases hs
      rw [live, Function.update_self]
    · rw [tables t htn] at ht
      have hj := tracks.owned t table j ht hs
      rw [live, Function.update_of_ne (older hj).1, hj]
  · intro p hp
    rcases List.mem_cons.mp hp with rfl | hp
    · exact named
    · exact tracks.names p hp
  · intro name
    by_cases hempty : name = []
    · subst hempty
      symm
      rw [tableSlot_nil, newest_eq_none_iff]
      intro p hp
      rcases List.mem_cons.mp hp with rfl | hp
      · exact named
      · exact tracks.names p hp
    · show r'.tableSlot name = _
      rw [tableSlot_eq hempty, done.tableOrder, List.reverse_append, List.reverse_singleton,
        List.singleton_append]
      by_cases hname : built.name = name
      · simp [own, hname, Datatable.newest]
      · have before := tracks.lookup name
        rw [tableSlot_eq hempty] at before
        have same : ∀ t ∈ l.registry.tableOrder.reverse, r'.tables t = l.registry.tables t := by
          intro t ht
          exact tables t (Nat.ne_of_lt (tracks.sound.order t (List.mem_reverse.mp ht)))
        rw [List.find?_cons_of_neg (by simp [own, hname]), slotIn_congr same, before]
        simp [Datatable.newest, hname]

lemma Tracks.destroyIdle {l : Ledger} (tracks : Tracks l) {i : Nat}
    (idle : l.registry.live i = none) :
    Tracks ⟨l.registry.releaseSlot i, l.loaded.filter fun p => p.1 ≠ i⟩ := by
  have absent : (l.loaded.filter fun p => p.1 ≠ i) = l.loaded := by
    refine List.filter_eq_self.mpr fun p hp => ?_
    obtain ⟨t, _, hl, _⟩ := tracks.bound p hp
    have : p.1 ≠ i := by
      rintro rfl
      rw [idle] at hl
      cases hl
    simpa using this
  have same : l.registry.releaseSlot i =
      { l.registry with memory := Function.update l.registry.memory i ⟨none, none, 0, none⟩ } := by
    unfold Registry.releaseSlot
    rw [idle]
  rw [absent]
  refine ⟨tracks.sound.releaseSlot i, ?_, ?_, ?_, tracks.names, ?_⟩
  · rw [same]
    exact tracks.bound
  · rw [same]
    exact tracks.live
  · rw [same]
    exact tracks.owned
  · rw [same]
    exact tracks.lookup

lemma Tracks.destroyLoaded {l : Ledger} (tracks : Tracks l) {i : Nat} {t : TableId}
    (bound : l.registry.live i = some t) (ordered : ∀ p ∈ l.loaded, p.1 = i →
      Datatable.newest l.loaded p.2 = some i → ∀ q ∈ l.loaded, q.2 = p.2 → q.1 = i) :
    Tracks ⟨l.registry.releaseSlot i, l.loaded.filter fun p => p.1 ≠ i⟩ := by
  obtain ⟨name, hm⟩ := tracks.live i t bound
  obtain ⟨t₀, table, hl, ht, hslot, hname⟩ := tracks.bound _ hm
  obtain rfl : t₀ = t := by
    rw [bound] at hl
    exact (Option.some.inj hl).symm
  have live : (l.registry.releaseSlot i).live = Function.update l.registry.live i none := by
    unfold Registry.releaseSlot
    rw [bound]
  have tables : (l.registry.releaseSlot i).tables =
      Function.update l.registry.tables t₀ (some { table with slot := none }) := by
    unfold Registry.releaseSlot
    rw [bound]
    simp [Registry.modifyTable, ht]
  have order : (l.registry.releaseSlot i).tableOrder = l.registry.tableOrder :=
    (Registry.releaseSlot_spec l.registry i).2.2.1
  have other : ∀ {j t}, l.registry.live j = some t → j ≠ i → t ≠ t₀ := by
    rintro j _ hj hne rfl
    exact hne (tracks.sound.once (tracks.sound.live hj) (tracks.sound.live bound))
  constructor
  · exact tracks.sound.releaseSlot i
  · intro p hp
    obtain ⟨hp, hpi⟩ := List.mem_filter.mp hp
    have hne : p.1 ≠ i := of_decide_eq_true hpi
    obtain ⟨t', table', hl', ht', hs', hn'⟩ := tracks.bound p hp
    refine ⟨t', table', ?_, ?_, hs', hn'⟩
    · show (l.registry.releaseSlot i).live p.1 = some t'
      rw [live, Function.update_of_ne hne, hl']
    · show (l.registry.releaseSlot i).tables t' = some table'
      rw [tables, Function.update_of_ne (other hl' hne), ht']
  · intro j t' hj
    simp only [live] at hj
    have hne : j ≠ i := by
      rintro rfl
      rw [Function.update_self] at hj
      cases hj
    rw [Function.update_of_ne hne] at hj
    obtain ⟨name', hm'⟩ := tracks.live j t' hj
    exact ⟨name', List.mem_filter.mpr ⟨hm', decide_eq_true hne⟩⟩
  · intro t' table' j ht' hs'
    simp only [tables] at ht'
    show (l.registry.releaseSlot i).live j = some t'
    have hne : t' ≠ t₀ := by
      rintro rfl
      rw [Function.update_self] at ht'
      cases ht'
      cases hs'
    rw [Function.update_of_ne hne] at ht'
    have hj := tracks.owned t' table' j ht' hs'
    have hji : j ≠ i := by
      rintro rfl
      rw [bound] at hj
      exact hne (Option.some.inj hj).symm
    rw [live, Function.update_of_ne hji, hj]
  · intro p hp
    exact tracks.names p (List.mem_of_mem_filter hp)
  · intro name'
    show (l.registry.releaseSlot i).tableSlot name' = _
    by_cases hempty : name' = []
    · subst hempty
      symm
      rw [tableSlot_nil, newest_eq_none_iff]
      exact fun p hp => tracks.names p (List.mem_of_mem_filter hp)
    have before := tracks.lookup name'
    rw [tableSlot_eq hempty] at before ⊢
    rw [order]
    -- unloading an asset does not rename a table, so the same table is found
    have same : (l.registry.tableOrder.reverse.find? fun t =>
          ((l.registry.releaseSlot i).tables t).any fun table => table.name = name') =
        l.registry.tableOrder.reverse.find? fun t =>
          (l.registry.tables t).any fun table => table.name = name' := by
      refine List.find?_congr fun t' _ => ?_
      rw [tables]
      by_cases h : t' = t₀
      · subst h
        simp [ht]
      · rw [Function.update_of_ne h]
    rw [same]
    cases hf : l.registry.tableOrder.reverse.find? fun t =>
        (l.registry.tables t).any fun table => table.name = name' with
    | none =>
      rw [hf] at before
      rw [newest_filter fun h => by rw [h] at before; cases before]
      exact before
    | some t' =>
      rw [hf] at before
      simp only [Option.bind_some] at before ⊢
      by_cases h : t' = t₀
      · subst h
        have hn : name = name' := by
          simpa [ht, hname] using List.find?_some hf
        subst hn
        rw [ht, Option.bind_some, hslot] at before
        symm
        rw [tables, Function.update_self, Option.bind_some, newest_eq_none_iff]
        intro q hq hqn
        obtain ⟨hq, hqi⟩ := List.mem_filter.mp hq
        exact of_decide_eq_true hqi (ordered _ hm rfl before.symm q hq hqn)
      · rw [tables, Function.update_of_ne h, before]
        refine (newest_filter fun hi => h ?_).symm
        rw [hi] at before
        obtain ⟨table', ht', hs'⟩ := Option.bind_eq_some_iff.mp before
        have := tracks.owned t' table' i ht' hs'
        rw [bound] at this
        exact (Option.some.inj this).symm

lemma Tracks.step {l l' : Ledger} {e : Registry.Event} (tracks : Tracks l) (ordered : l.Ordered e)
    (h : l.step e = some l') : Tracks l' := by
  cases h
  cases e with
  | registerSchema schema =>
    exact ⟨tracks.sound.apply (.registerSchema schema), tracks.bound, tracks.live, tracks.owned,
      tracks.names, tracks.lookup⟩
  | step task =>
    rcases tracks.sound.step_inv task with ⟨_, hd, h⟩ | ⟨built, hb, hd, done⟩
    · have hrec : l.record (.step task) = l.loaded := if_neg hd
      rw [hrec]
      have happly : l.registry.apply (.step task) = (l.registry.step task).1 := rfl
      rw [happly]
      rcases h with h | h
      · rw [h]
        exact tracks
      · rw [h]
        exact ⟨tracks.sound.skip, tracks.bound, tracks.live, tracks.owned, tracks.names,
          tracks.lookup⟩
    · obtain ⟨hn, hne⟩ := builds_name hb
      have hrec : l.record (.step task) = (task.handle.index, built.name) :: l.loaded := by
        rw [hn]
        exact if_pos hd
      rw [hrec]
      exact tracks.loaded (ordered hd) (hn ▸ hne) done
  | destroy h =>
    cases hl : l.registry.live h.index with
    | none => exact tracks.destroyIdle hl
    | some t => exact tracks.destroyLoaded hl ordered

/-- **Lookup by name.** In every run in which no load completes under a handle index that was used
before and the newest table of a name is not unloaded before older ones, a name leads to the newest
loaded table of the name after every event. -/
theorem names_newest (events : List Registry.Event) (l : Ledger)
    (ordered : Along Ledger.step Ledger.Ordered Ledger.init events)
    (e : run Ledger.step Ledger.init events = some l) :
    l.NamesNewest ∧ ∀ pre, pre <+: events → ∀ l', run Ledger.step Ledger.init pre = some l' →
      l'.NamesNewest := by
  have along : ∀ pre, pre <+: events → ∀ l', run Ledger.step Ledger.init pre = some l' →
      l'.NamesNewest := by
    intro pre hpre l' e'
    exact ((ordered.of_prefix hpre).invariant (I := Tracks)
      (fun l a l' tracks ordered e => tracks.step ordered e) Tracks.init e').namesNewest
  exact ⟨along _ (List.prefix_refl _) _ e, along⟩

def unloadOldest : List Registry.Event :=
  [.registerSchema Registry.sampleSchema, .step (Registry.sampleLoad ⟨9, 1, 1⟩ 4),
    .step (Registry.sampleLoad ⟨9, 2, 1⟩ 5), .destroy ⟨9, 1, 1⟩]

/-- The name leads to the table that is left. -/
theorem names_newest_unloadOldest : ∃ l, run Ledger.step Ledger.init unloadOldest = some l ∧
    l.registry.tableSlot ['m'] = some 2 ∧ l.NamesNewest := by
  obtain ⟨l, hl⟩ : ∃ l, run Ledger.step Ledger.init unloadOldest = some l := ⟨_, rfl⟩
  refine ⟨l, hl, ?_, (names_newest unloadOldest l (by decide +kernel) hl).1⟩
  cases hl
  decide +kernel

def unloadNewest : List Registry.Event :=
  [.registerSchema Registry.sampleSchema, .step (Registry.sampleLoad ⟨9, 1, 1⟩ 4),
    .step (Registry.sampleLoad ⟨9, 2, 1⟩ 5), .destroy ⟨9, 2, 1⟩]

/-- The name leads to nothing, although a table of the schema is loaded. -/
theorem names_not_newest : ¬ ∀ l, run Ledger.step Ledger.init unloadNewest = some l →
    l.NamesNewest := by
  intro law
  have none : ∀ l ∈ run Ledger.step Ledger.init unloadNewest,
      l.registry.tableSlot ['m'] = none ∧ (1, ['m']) ∈ l.loaded := by
    decide +kernel
  obtain ⟨hn, hm⟩ := none _ rfl
  exact ((law _ rfl).none ['m']).mp hn _ hm rfl

end Ledger

end PulseEngine.Datatable
