import PulseEngine.Config.Copy
import PulseEngine.Library.KeyedTree

/-!
# Trees of configs

The tree that a node stands for: its fields, and the trees of its children with their keys. Which nodes are shared
does not show in a tree. What a step leaves of the nodes leaves their trees.
-/

namespace PulseEngine.Config

open Library

/-- The fields of a node that `copy_node` copies. -/
structure Value where
  type : ConfigType
  b : Bool
  i : Int64
  d : Float
  s : Text

def Node.value (node : Node) : Value := ⟨node.type, node.b, node.i, node.d, node.s⟩

abbrev ConfigTree : Type := KeyedTree Text Value

def Value.isObject (value : Value) : Bool := value.type = .object

def Node.entries (node : Node) : List (Text × ℕ) :=
  match node.type with
  | .object => node.object
  | .array => node.array.map fun c => ([], c)
  | _ => []

mutual

/-- A node stands for a tree, all of whose nodes are in `P`. -/
def Denotes (s : Store) (P : ℕ → Prop) : ℕ → ConfigTree → Prop
  | n, .node value children =>
    P n ∧ ∃ node, s.nodes n = some node ∧ node.value = value ∧ DenotesAll s P node.entries children

def DenotesAll (s : Store) (P : ℕ → Prop) : List (Text × ℕ) → List (Text × ConfigTree) → Prop
  | [], [] => True
  | (key, n) :: entries, (key', t) :: children => (key = key' ∧ Denotes s P n t) ∧ DenotesAll s P entries children
  | [], _ :: _ => False
  | _ :: _, [] => False

end

variable {s s' s₀ : Store} {P Q : ℕ → Prop} {base n p c : ℕ} {live : Finset ℕ} {own : Multiset ℕ} {node node' : Node}
  {value : Value} {t t' : ConfigTree} {entries : List (Text × ℕ)} {children children' : List (Text × ConfigTree)}
  {key : Text}

abbrev Holds (s : Store) (P : ℕ → Prop) (entry : Text × ℕ) (child : Text × ConfigTree) : Prop :=
  entry.1 = child.1 ∧ Denotes s P entry.2 child.2

lemma denotesAll_iff : DenotesAll s P entries children ↔ List.Forall₂ (Holds s P) entries children := by
  induction entries generalizing children with
  | nil =>
    cases children with
    | nil => exact iff_of_true trivial .nil
    | cons child children => exact iff_of_false (fun h => h.elim) nofun
  | cons entry entries ih =>
    cases children with
    | nil => exact iff_of_false (fun h => h.elim) nofun
    | cons child children => rw [DenotesAll, List.forall₂_cons, ih]

lemma denotes_node : Denotes s P n (.node value children) ↔
    P n ∧ ∃ node, s.nodes n = some node ∧ node.value = value ∧ List.Forall₂ (Holds s P) node.entries children := by
  rw [Denotes]
  simp only [denotesAll_iff]

lemma Denotes.exists_node (h : Denotes s P n t) : ∃ node, s.nodes n = some node ∧ node.value = t.value := by
  cases t with
  | node value children =>
    obtain ⟨-, node, hnode, hvalue, -⟩ := denotes_node.mp h
    exact ⟨node, hnode, hvalue⟩

lemma Node.entries_mem {entry : Text × ℕ} (mem : entry ∈ node.entries) : entry.2 ∈ node.children := by
  rw [Node.entries] at mem
  split at mem
  · exact List.mem_append_left _ (List.mem_map_of_mem mem)
  · obtain ⟨c, hc, rfl⟩ := List.mem_map.mp mem
    exact List.mem_append_right _ hc
  · cases mem

lemma exists_children (all : ∀ entry ∈ entries, ∃ t, Denotes s P entry.2 t) :
    ∃ children, List.Forall₂ (Holds s P) entries children := by
  induction entries with
  | nil => exact ⟨[], .nil⟩
  | cons entry entries ih =>
    obtain ⟨⟨t, ht⟩, all⟩ := List.forall_mem_cons.mp all
    obtain ⟨children, hall⟩ := ih all
    exact ⟨(entry.1, t) :: children, .cons ⟨rfl, ht⟩ hall⟩

/-- **Every node of a region stands for a tree.** -/
theorem Owns.exists_denotes (owns : Owns s base live own) (hn : n ∈ live) : ∃ t, Denotes s (fun _ => True) n t := by
  by_contra hnot
  -- a node that stands for no tree has a child that does not
  let lost : Set ℕ := {m | m ∈ live ∧ ¬ ∃ t, Denotes s (fun _ => True) m t}
  have finite : lost.Finite := live.finite_toSet.subset fun m hm => hm.1
  have points : ∀ m ∈ lost, ∃ k ∈ lost, m ∈ live ∧ k ∈ s.kids m := by
    rintro m ⟨hm, none⟩
    obtain ⟨node, hnode⟩ := owns.exists_node hm
    by_contra all
    push Not at all
    refine none ?_
    obtain ⟨children, hall⟩ := @exists_children s (fun _ => True) node.entries fun entry mem => by
      have edge : entry.2 ∈ s.kids m := by
        rw [Store.kids_of_some hnode]
        exact Node.entries_mem mem
      by_contra hnot
      exact all entry.2 ⟨owns.counted.closed m hm _ edge, hnot⟩ hm edge
    exact ⟨.node node.value children, denotes_node.mpr ⟨trivial, node, hnode, rfl, hall⟩⟩
  obtain ⟨a, ha⟩ : Circular fun m k => m ∈ live ∧ k ∈ s.kids m := circular_of_waits finite ⟨n, hn, hnot⟩ points
  have hlive : a ∈ live := by
    obtain ⟨_, first, _⟩ := Relation.TransGen.head'_iff.mp ha
    exact first.1
  exact owns.acyclic a hlive (ha.lift id fun _ _ h => h.2)

/-! ### Steps -/

/-- What is left of the nodes of a tree leaves the tree. -/
theorem Denotes.transfer (same : ∀ m node, Q m → s.nodes m = some node →
      ∃ count, s'.nodes m = some { node with refCount := count })
    (closed : ∀ m node, Q m → s.nodes m = some node → ∀ c ∈ node.children, Q c) :
    ∀ {n}, Q n → Denotes s P n t → Denotes s' P n t := by
  induction t using KeyedTree.induction with
  | step value children ih =>
    intro n hn h
    obtain ⟨hp, node, hnode, hvalue, hall⟩ := denotes_node.mp h
    obtain ⟨count, hnode'⟩ := same n node hn hnode
    refine denotes_node.mpr ⟨hp, _, hnode', hvalue, ?_⟩
    have all : List.Forall₂ (Holds s' P) node.entries children := by
      refine List.forall₂_iff_get.mpr ⟨hall.length_eq, fun i hi hi' => ?_⟩
      obtain ⟨hkey, hchild⟩ := (List.forall₂_iff_get.mp hall).2 i hi hi'
      refine ⟨hkey, ih _ (List.get_mem _ _) ?_ hchild⟩
      exact closed n node hn hnode _ (Node.entries_mem (List.get_mem _ _))
    exact all

theorem Denotes.mono (sub : ∀ n, P n → Q n) (h : Denotes s P n t) : Denotes s Q n t := by
  induction t using KeyedTree.induction generalizing n with
  | step value children ih =>
    obtain ⟨hp, node, hnode, hvalue, hall⟩ := denotes_node.mp h
    refine denotes_node.mpr ⟨sub n hp, node, hnode, hvalue, ?_⟩
    refine List.forall₂_iff_get.mpr ⟨hall.length_eq, fun i hi hi' => ?_⟩
    obtain ⟨hkey, hchild⟩ := (List.forall₂_iff_get.mp hall).2 i hi hi'
    exact ⟨hkey, ih _ (List.get_mem _ _) hchild⟩

/-- **A node stands for one tree.** -/
theorem Denotes.unique (h : Denotes s P n t) (h' : Denotes s Q n t') : t = t' := by
  induction t using KeyedTree.induction generalizing n t' with
  | step value children ih =>
    cases t' with
    | node value' children' =>
    obtain ⟨-, node, hnode, rfl, hall⟩ := denotes_node.mp h
    obtain ⟨-, node', hnode', rfl, hall'⟩ := denotes_node.mp h'
    rw [hnode] at hnode'
    cases hnode'
    congr 1
    refine List.ext_get (hall.length_eq.symm.trans hall'.length_eq) fun i hi hi' => ?_
    have hi₀ : i < node.entries.length := hall.length_eq.symm ▸ hi
    obtain ⟨hkey, hchild⟩ := (List.forall₂_iff_get.mp hall).2 i hi₀ hi
    obtain ⟨hkey', hchild'⟩ := (List.forall₂_iff_get.mp hall').2 i hi₀ hi'
    exact Prod.ext (hkey.symm.trans hkey') (ih _ (List.get_mem _ _) hchild hchild')

lemma Denotes.extends (fresh : Fresh s) (ext : Extends s s') (h : Denotes s P n t) : Denotes s' P n t := by
  refine h.transfer (Q := fun _ => True) (fun m node _ hnode => ⟨node.refCount, ?_⟩) (fun _ _ _ _ _ _ => trivial)
    trivial
  have lt : m < s.next := by
    by_contra hge
    rw [fresh m (Nat.le_of_not_lt hge)] at hnode
    cases hnode
  exact (ext.same m lt).trans hnode

/-- **A node that is written**: it stands for the tree of its entries, which it does not reach from its children. -/
theorem Owns.denotes (owns : Owns s' base live own) (hp : p ∈ live)
    (same : ∀ m ∈ live, m ≠ p → ∃ node count, s.nodes m = some node ∧
      s'.nodes m = some { node with refCount := count })
    (hnode : s'.nodes p = some node) (hP : P p) (hvalue : node.value = value)
    (hall : List.Forall₂ (Holds s P) node.entries children) : Denotes s' P p (.node value children) := by
  refine denotes_node.mpr ⟨hP, node, hnode, hvalue, ?_⟩
  refine List.forall₂_iff_get.mpr ⟨hall.length_eq, fun i hi hi' => ?_⟩
  obtain ⟨hkey, hchild⟩ := (List.forall₂_iff_get.mp hall).2 i hi hi'
  refine ⟨hkey, hchild.transfer (Q := fun m => m ∈ live ∧ ¬ Reaches s'.kids m p) ?_ ?_ ?_⟩
  · rintro m node ⟨hm, hnot⟩ hnode
    obtain ⟨node', count, hnode', hnode''⟩ := same m hm fun e => hnot (e ▸ .refl)
    rw [hnode] at hnode'
    cases hnode'
    exact ⟨count, hnode''⟩
  · rintro m node ⟨hm, hnot⟩ hnode x hx
    obtain ⟨node', count, hnode', hnode''⟩ := same m hm fun e => hnot (e ▸ .refl)
    rw [hnode] at hnode'
    cases hnode'
    have edge : x ∈ s'.kids m := by
      rw [Store.kids_of_some hnode'']
      exact hx
    exact ⟨owns.counted.closed m hm x edge, fun path => hnot (.head edge path)⟩
  · have edge : (node.entries.get ⟨i, hi⟩).2 ∈ s'.kids p := by
      rw [Store.kids_of_some hnode]
      exact Node.entries_mem (List.get_mem _ _)
    exact ⟨owns.counted.closed p hp _ edge, owns.not_reaches hp edge⟩

end PulseEngine.Config

/-!
## Trees of copies

What `copy_node` and the steps of `merge_nodes` do in terms of trees: a copy stands for the tree that was copied, and
`replace_child` writes one entry of an object.
-/

namespace PulseEngine.Config

open Library

variable {s s' s'' s₀ : Store} {P Q : ℕ → Prop} {base n m p c left : ℕ} {live : Finset ℕ} {own : Multiset ℕ}
  {node : Node} {value : Value} {t : ConfigTree} {children rest : List (Text × ConfigTree)} {key : Text}
  {fits fits' : Prop} {made : Option (Store × Option ℕ)} {ι : Type*}

def Builds (fits : Prop) (s : Store) (t : ConfigTree) (made : Option (Store × Option ℕ)) : Prop :=
  ∃ s' result, made = some (s', result) ∧ Made s s' result ∧
    ((fits ∧ ∃ c, result = some c ∧ Denotes s' (s.next ≤ ·) c t) ∨ (¬ fits ∧ result = none))

lemma Builds.congr (h : Builds fits s t made) (iff : fits ↔ fits') : Builds fits' s t made := by
  rwa [Builds, ← propext iff]

lemma Made.nothing (h : Made s s' none) (fresh : Fresh s) : s'.nodes = s.nodes := by
  obtain ⟨ext, live, owns⟩ := h
  have empty : ∀ n, n ∉ live := by
    intro n hn
    obtain ⟨r, hr, -⟩ := owns.counted.held owns.acyclic hn
    exact Multiset.notMem_zero r hr
  funext n
  by_cases hlt : n < s.next
  · exact ext.same n hlt
  · have hle := Nat.le_of_not_lt hlt
    cases e : s'.nodes n with
    | none => exact (fresh n hle).symm
    | some node => exact absurd ((owns.alive n hle).mp ⟨node, e⟩) (empty n)

/-! ### Writes to a node -/

/-- Nodes of `s'` are nodes of `s` with other counts. -/
def Thinner (s s' : Store) : Prop :=
  ∀ m node', s'.nodes m = some node' → ∃ node count, s.nodes m = some node ∧ node' = { node with refCount := count }

lemma Thinner.trans (h : Thinner s s') (h' : Thinner s' s'') : Thinner s s'' := by
  intro m node'' hnode''
  obtain ⟨node', count', hnode', rfl⟩ := h' m node'' hnode''
  obtain ⟨node, count, hnode, rfl⟩ := h m node' hnode'
  exact ⟨node, count', hnode, rfl⟩

lemma thinner_write {x : Option Node} (hx : ∀ node' ∈ x, ∃ node count, s.nodes n = some node ∧
    node' = { node with refCount := count }) : Thinner s (s.write n x) := by
  intro m node' hnode'
  by_cases e : m = n
  · subst e
    rw [Store.write_self] at hnode'
    exact hx node' hnode'
  · rw [Store.write_of_ne e] at hnode'
    exact ⟨node', node'.refCount, hnode', rfl⟩

lemma releaseNode_thinner : ∀ {fuel : ℕ} {s s' : Store} {n : ℕ}, Store.releaseNode fuel s n = some s' →
    Thinner s s' := by
  intro fuel
  induction fuel with
  | zero => exact fun h => nomatch h
  | succ fuel ih =>
    have all : ∀ {cs : List ℕ} {s s' : Store}, cs.foldlM (Store.releaseNode fuel) s = some s' → Thinner s s' := by
      intro cs
      induction cs with
      | nil =>
        rintro s s' ⟨⟩
        exact fun m node hnode => ⟨node, node.refCount, hnode, rfl⟩
      | cons c cs step =>
        intro s s' h
        obtain ⟨s₁, first, h⟩ := Option.bind_eq_some_iff.mp h
        exact (ih first).trans (step h)
    intro s s' n h
    obtain ⟨node, hnode, h⟩ := Option.bind_eq_some_iff.mp h
    have counted : Thinner s (s.write n (some { node with refCount := Store.wrap (node.refCount - 1) })) :=
      thinner_write fun node' mem => ⟨node, _, hnode, (Option.mem_some_iff.mp mem).symm⟩
    dsimp only at h
    split at h
    · obtain ⟨s₁, h₁, h⟩ := Option.bind_eq_some_iff.mp h
      cases h
      exact (counted.trans (all h₁)).trans (thinner_write fun node' mem => nomatch mem)
    · cases h
      exact counted

def Appends (type : ConfigType) (key : ι → Text) (attach : Store → ℕ → ι → ℕ → Option Store) : Prop :=
  ∀ {s n c} (item : ι) {node : Node}, s.nodes n = some node → node.type = type → ∃ node' : Node,
    attach s n item c = some (s.write n (some node')) ∧ node'.value = node.value ∧
      node'.entries = node.entries ++ [(key item, c)]

lemma Node.entries_object (h : node.type = .object) : node.entries = node.object := by
  rw [Node.entries, h]

lemma Node.entries_array (h : node.type = .array) : node.entries = node.array.map fun c => ([], c) := by
  rw [Node.entries, h]

lemma pushObject_appends (key : ι → Text) :
    Appends .object key fun s n item child => s.pushObject n (key item) child := by
  intro s n c item node hnode htype
  refine ⟨{ node with object := node.object ++ [(key item, c)] }, ?_, rfl, ?_⟩
  · exact congrArg (Option.bind · _) hnode
  · rw [Node.entries_object htype]
    exact Node.entries_object htype

lemma pushArray_appends : Appends .array (fun _ => []) fun s n (_ : ι) child => s.pushArray n child := by
  intro s n c item node hnode htype
  refine ⟨{ node with array := node.array ++ [c] }, ?_, rfl, ?_⟩
  · exact congrArg (Option.bind · _) hnode
  · have longer : Node.entries { node with array := node.array ++ [c] } = (node.array ++ [c]).map fun c => ([], c) :=
      Node.entries_array htype
    rw [longer, Node.entries_array htype, List.map_append]
    rfl

lemma denotes_write {node' : Node} {children' : List (Text × ConfigTree)}
    (owns : Owns (s'.write p (some node')) base live own) (hp : base ≤ p) (thin : Thinner s s')
    (h : Denotes s P p (.node value children)) (hvalue : node'.value = value)
    (hall : List.Forall₂ (Holds s P) node'.entries children') :
    Denotes (s'.write p (some node')) P p (.node value children') := by
  have hnode := Store.write_self s' p (some node')
  refine owns.denotes ((owns.alive p hp).mp ⟨node', hnode⟩) (fun m hm ne => ?_) hnode (denotes_node.mp h).1 hvalue hall
  obtain ⟨new, hnew⟩ := owns.exists_node hm
  have hnew' := hnew
  rw [Store.write_of_ne ne] at hnew'
  obtain ⟨old, count, hold, rfl⟩ := thin m new hnew'
  exact ⟨old, count, hold, hnew⟩

lemma assign_eq_put {old : ℕ} : ∀ {object : List (Text × ℕ)}, object.lookup key = some old →
    assign key c object = put key c object := by
  intro object
  induction object with
  | nil => exact fun h => nomatch h
  | cons entry object ih =>
    intro h
    rw [assign, put]
    split_ifs with e
    · rfl
    · rw [List.lookup_cons, beq_eq_false_iff_ne.mpr fun e' => e e'.symm] at h
      rw [ih h]

/-- **`replace_child`** in terms of trees: an entry of the object is written. -/
theorem replaceChild_denotes (owns : Owns s base live (c ::ₘ own)) (hp : p ∈ live) (hnot : ¬ Reaches s.kids c p)
    (h : Denotes s P p (.node value children)) (htype : value.type = .object) (hc : Denotes s P c t)
    (key : Text) : ∃ s' live', s.replaceChild p key c = some s' ∧ Owns s' base live' own ∧ s'.next = s.next ∧
      (∀ m, m ∉ live → s'.nodes m = s.nodes m) ∧ Denotes s' P p (.node value (put key t children)) := by
  obtain ⟨-, node, hnode, rfl, hall⟩ := denotes_node.mp h
  have hobject : node.entries = node.object := Node.entries_object htype
  have hput : List.Forall₂ (Holds s P) (put key c node.object) (put key t children) :=
    forall₂_put (hobject ▸ hall) hc
  cases hlookup : node.object.lookup key with
  | none =>
    obtain ⟨s', hs', owns', hnext, outside⟩ := pushObject_attaches key owns hp hnot
    obtain ⟨node', hs'', hvalue, hentries⟩ :=
      pushObject_appends (fun k : Text => k) (c := c) key hnode htype
    cases hs'.symm.trans hs''
    have absent : key ∉ node.object.map Prod.fst := by
      intro mem
      obtain ⟨entry, mem, eq⟩ := List.mem_map.mp mem
      exact bne_iff_ne.mp (List.lookup_eq_none_iff.mp hlookup entry mem) eq.symm
    refine ⟨_, live, ?_, owns', hnext, outside, denotes_write owns' (owns.above p hp)
      (fun m node hnode => ⟨node, node.refCount, hnode, rfl⟩) h hvalue ?_⟩
    · rw [Store.replaceChild, hnode, Option.bind_eq_bind, Option.bind_some, hlookup]
      exact hs'
    · rwa [hentries, hobject, ← put_of_not_mem absent]
  | some old =>
    obtain ⟨kept, hbefore, hafter⟩ := assign_spec (c := c) hlookup
    have hold : (node.children : Multiset ℕ) = old ::ₘ (kept + (node.array : Multiset ℕ)) := by
      rw [Node.children, ← Multiset.coe_add, hbefore, Multiset.cons_add]
    rw [← Multiset.singleton_add] at owns
    obtain ⟨s₁, live', count, hs₁, -, hnext, outside, hnode₁, howns⟩ := owns.replace hp hnode hold
      fun x hx => Multiset.mem_singleton.mp hx ▸ hnot
    have owns' := howns { node with refCount := count, object := assign key c node.object } rfl (by
      rw [Node.children, ← Multiset.coe_add, hafter, Multiset.singleton_add, Multiset.cons_add])
    refine ⟨_, live', ?_, owns', hnext, fun m hm => ?_, denotes_write owns' (owns.above p hp)
      (releaseNode_thinner hs₁) h rfl ?_⟩
    · rw [Store.replaceChild, hnode, Option.bind_eq_bind, Option.bind_some, hlookup]
      simp only [hs₁, Option.bind_eq_bind, Option.bind_some, hnode₁]
      rfl
    · rw [Store.write_outside hp _ m hm, outside m hm]
    · refine Eq.mpr (congrArg (List.Forall₂ _ · _) (Node.entries_object htype)) ?_
      rwa [assign_eq_put hlookup]

/-! ### Copies -/

/-- **The loop over the children of a new node**: the node gets the trees of the items as its last children, when each
of them can be built. -/
theorem fill_builds (make : Store → ι → Option (Store × Option ℕ)) {attach : Store → ℕ → ι → ℕ → Option Store}
    {type : ConfigType} (key : ι → Text) (Fits : ConfigTree → Prop) (attaches : Attaches attach)
    (appends : Appends type key attach) (htype : value.type = type) {items : List ι} {rest : List (Text × ConfigTree)}
    (makes : List.Forall₂ (fun item child => key item = child.1 ∧ ∀ s, Extends s₀ s → Fresh s →
      Builds (Fits child.2) s child.2 (make s item)) items rest) :
    ∀ {s : Store} {live : Finset ℕ} {children : List (Text × ConfigTree)}, Extends s₀ s →
      Owns s s₀.next live {n} → Denotes s (s₀.next ≤ ·) n (.node value children) →
      Builds (∀ child ∈ rest, Fits child.2) s₀ (.node value (children ++ rest)) (Store.fill make attach n s items) := by
  induction makes with
  | nil =>
    intro s live children ext owns h
    refine ⟨s, some n, rfl, ⟨ext, live, owns⟩, .inl ⟨List.forall_mem_nil _, n, rfl, ?_⟩⟩
    rwa [List.append_nil]
  | @cons item child items rest first _ ih =>
    intro s live children ext owns h
    have hn : n ∈ live := owns.counted.owned n (Multiset.mem_singleton_self n)
    obtain ⟨hkey, makes⟩ := first
    obtain ⟨s₁, result, hmake, made, hmade⟩ := makes s ext owns.fresh
    obtain ⟨live₁, owns₁, hsub⟩ := made.owns owns
    have ext₁ : Extends s₀ s₁ := ext.trans made.1
    rcases hmade with ⟨fits, c, rfl, hc⟩ | ⟨unfit, rfl⟩
    · rw [given, Multiset.add_comm, Multiset.singleton_add] at owns₁
      have h₁ := h.extends owns.fresh made.1
      obtain ⟨-, node, hnode, hvalue, hall⟩ := denotes_node.mp h₁
      obtain ⟨s₂, hs₂, owns₂, hnext, outside⟩ := attaches item owns₁ (hsub hn)
        (made.not_reaches (owns.below n hn))
      obtain ⟨node', hs₂', hvalue', hentries⟩ := appends (c := c) item hnode ((congrArg Value.type hvalue).trans htype)
      cases hs₂.symm.trans hs₂'
      have h₂ : Denotes (s₁.write n (some node')) (s₀.next ≤ ·) n (.node value (children ++ [child])) := by
        refine denotes_write owns₂ (owns₁.above n (hsub hn)) (fun m node hnode => ⟨node, node.refCount, hnode, rfl⟩) h₁
          (hvalue'.trans hvalue) ?_
        rw [hentries]
        exact List.rel_append hall (.cons ⟨hkey, hc.mono fun m hm => ext.next_le.trans hm⟩ .nil)
      have built := ih (ext₁.of_outside owns₁.above hnext outside) owns₂ h₂
      rw [List.append_assoc, List.singleton_append] at built
      have filled : Store.fill make attach n s (item :: items) =
          Store.fill make attach n (s₁.write n (some node')) items := by
        rw [Store.fill, hmake]
        simp only [Option.bind_eq_bind, Option.bind_some, hs₂]
      rw [filled]
      exact built.congr (by rw [List.forall_mem_cons, and_iff_right fits])
    · rw [given, add_zero] at owns₁
      obtain ⟨s₂, hs₂, made₂⟩ := made_release ext₁ owns₁
      refine ⟨s₂, none, ?_, made₂, .inr ⟨fun all => unfit (all child List.mem_cons_self), rfl⟩⟩
      rw [Store.fill, hmake]
      simp only [Option.bind_eq_bind, Option.bind_some, hs₂]
      rfl

lemma newNode_denotes (hentries : node.entries = []) :
    Denotes (s.newNode node).1 (s.next ≤ ·) s.next (.node node.value []) :=
  denotes_node.mpr ⟨le_rfl, node, Function.update_self _ _ _, rfl, hentries ▸ .nil⟩

lemma height_node_le {left : ℕ} : (KeyedTree.node value children).height ≤ left + 1 ↔
    ∀ child ∈ children, child.2.height ≤ left := by
  rw [KeyedTree.height, Nat.add_le_add_iff_right, KeyedTree.heights_le]

lemma height_pos (t : ConfigTree) : 0 < t.height := by
  cases t
  exact Nat.succ_pos _

/-- **`copy_node`** in terms of trees: the copy stands for the same tree, when that fits in the levels that are
left. -/
theorem copyNode_builds : ∀ {left : ℕ} {s : Store} {n : ℕ} {t : ConfigTree}, Fresh s →
    Denotes s (fun _ => True) n t → Builds (t.height ≤ left) s t (Store.copyNode left s n) := by
  intro left
  induction left with
  | zero =>
    intro s n t fresh _
    exact ⟨_, none, rfl, made_error fresh _, .inr ⟨(height_pos t).not_ge, rfl⟩⟩
  | succ left ih =>
    intro s n t fresh h
    cases t with
    | node value children =>
    obtain ⟨-, node, hnode, rfl, hall⟩ := denotes_node.mp h
    obtain ⟨ext, live, owns⟩ : Made s (s.newNode { Node.ofType node.type with
        b := node.b, i := node.i, d := node.d, s := node.s }).1 (some s.next) :=
      made_newNode fresh rfl rfl
    have new : Denotes (s.newNode { Node.ofType node.type with
        b := node.b, i := node.i, d := node.d, s := node.s }).1 (s.next ≤ ·) s.next (.node node.value []) := by
      refine newNode_denotes ?_
      rw [Node.entries]
      split <;> rfl
    have copies : ∀ {n : ℕ} {t : ConfigTree}, Denotes s (fun _ => True) n t → ∀ s', Extends s s' → Fresh s' →
        Builds (t.height ≤ left) s' t (Store.copyNode left s' n) :=
      fun h s' ext' fresh' => ih fresh' (h.extends fresh ext')
    rw [Store.copyNode, hnode]
    simp only [Option.bind_eq_bind, Option.bind_some]
    cases htype : node.type with
    | object =>
      rw [htype] at ext owns new
      rw [Node.entries_object htype] at hall
      have built := fill_builds (fun s (entry : Text × ℕ) => Store.copyNode left s entry.2) Prod.fst
        (fun t => t.height ≤ left) (fun entry => pushObject_attaches entry.1) (pushObject_appends Prod.fst) htype
        (hall.imp fun _ _ hold => ⟨hold.1, copies hold.2⟩) ext owns new
      exact built.congr height_node_le.symm
    | array =>
      rw [htype] at ext owns new
      rw [Node.entries_array htype, List.forall₂_map_left_iff] at hall
      have built := fill_builds (Store.copyNode left) (fun _ => []) (fun t => t.height ≤ left) pushArray_attaches
        pushArray_appends htype (hall.imp fun _ _ hold => ⟨hold.1, copies hold.2⟩) ext owns new
      exact built.congr height_node_le.symm
    | _ =>
      rw [htype] at ext owns new
      have leaf : node.entries = [] := by rw [Node.entries, htype]
      rw [leaf, List.forall₂_nil_left_iff] at hall
      subst hall
      exact ⟨_, some s.next, rfl, ⟨ext, live, owns⟩,
        .inl ⟨height_node_le.mpr (List.forall_mem_nil _), s.next, rfl, new⟩⟩

end PulseEngine.Config
