import PulseEngine.Config.Owned

/-!
# Copies, merges and parsed values

`copy_node`, `merge_nodes` and `json_to_node` build their result behind the nodes that are there.
Each ends with a region that the result holds, or on an error with all of it given back.
-/

namespace PulseEngine.Config

open Library

variable {s s' s₀ : Store} {base n p c old left : ℕ} {live : Finset ℕ} {own : Multiset ℕ}
  {node : Node} {key : Text} {result : Option ℕ}

def Readable (s : Store) (nodes : Set ℕ) : Prop :=
  ∀ n ∈ nodes, n < s.next ∧ ∃ node, s.nodes n = some node ∧ ∀ c ∈ node.children, c ∈ nodes

lemma Readable.extends {nodes : Set ℕ} (h : Readable s nodes) (ext : Extends s s') :
    Readable s' nodes := by
  intro n hn
  obtain ⟨hlt, node, hnode, hchildren⟩ := h n hn
  exact ⟨lt_of_lt_of_le hlt ext.next_le, node, (ext.same n hlt).trans hnode, hchildren⟩

lemma Readable.union {nodes nodes' : Set ℕ} (h : Readable s nodes) (h' : Readable s nodes') :
    Readable s (nodes ∪ nodes') := by
  rintro n (hn | hn)
  · obtain ⟨hlt, node, hnode, hchildren⟩ := h n hn
    exact ⟨hlt, node, hnode, fun c hc => .inl (hchildren c hc)⟩
  · obtain ⟨hlt, node, hnode, hchildren⟩ := h' n hn
    exact ⟨hlt, node, hnode, fun c hc => .inr (hchildren c hc)⟩

lemma Owns.readable (h : Owns s base live own) : Readable s live := by
  intro n hn
  obtain ⟨node, hnode⟩ := h.exists_node hn
  refine ⟨h.below n hn, node, hnode, fun c hc => h.counted.closed n hn c ?_⟩
  rw [Store.kids_of_some hnode]
  exact hc

lemma Owns.child_mem (h : Owns s base live own) (hn : n ∈ live) (hnode : s.nodes n = some node)
    (hc : c ∈ node.children) : c ∈ live := by
  obtain ⟨_, node', hnode', hchildren⟩ := h.readable n hn
  rw [hnode] at hnode'
  cases hnode'
  exact hchildren c hc

/-! ### One node -/

lemma made_error (fresh : Fresh s) (message : String) : Made s (s.setError message) none :=
  ⟨⟨le_rfl, fun _ _ => rfl⟩, ∅, (Owns.nil fresh).setError message⟩

lemma made_newNode (fresh : Fresh s) (hcount : node.refCount = 1) (hchildren : node.children = []) :
    Made s (s.newNode node).1 (some s.next) := by
  have hself : (s.newNode node).1.nodes s.next = some node := Function.update_self _ _ _
  have hother : ∀ n, n ≠ s.next → (s.newNode node).1.nodes n = s.nodes n :=
    fun n e => Function.update_of_ne e _ _
  have hkids : (s.newNode node).1.kids s.next = 0 := by
    rw [Store.kids_of_some hself, hchildren]
    rfl
  have hcount' := (Store.count_of_some hself).trans hcount
  refine ⟨⟨Nat.le_succ _, fun n hn => hother n hn.ne⟩, {s.next}, ⟨?_, ?_, ?_, Nat.le_succ _, ?_⟩,
    .single hkids hcount', .single hkids⟩
  · intro n hn
    rw [Finset.mem_singleton]
    by_cases e : n = s.next
    · rw [e]
      exact iff_of_true ⟨node, hself⟩ rfl
    · rw [hother n e, fresh n hn]
      exact iff_of_false (fun h => by simp at h) e
  · intro n hn
    exact (Finset.mem_singleton.mp hn).ge
  · intro n hn
    rw [Finset.mem_singleton.mp hn]
    exact Nat.lt_succ_self _
  · intro n hn
    rw [Finset.mem_singleton.mp hn, hcount']
    norm_num

lemma Made.owns (h : Made s s' result) (owns : Owns s base live own) :
    ∃ live', Owns s' base live' (own + given result) ∧ live ⊆ live' := by
  obtain ⟨ext, live', owns'⟩ := h
  exact ⟨live ∪ live', owns.union ext owns', Finset.subset_union_left⟩

lemma Made.not_reaches (h : Made s s' (some c)) (hn : n < s.next) : ¬ Reaches s'.kids c n := by
  obtain ⟨_, live', owns'⟩ := h
  exact owns'.not_reaches_of_lt (owns'.counted.owned c (Multiset.mem_singleton_self c)) hn

/-! ### Children of a node -/

def Attaches {ι : Type*} (attach : Store → ℕ → ι → ℕ → Option Store) : Prop :=
  ∀ {s base live own n c} (item : ι), Owns s base live (c ::ₘ own) → n ∈ live →
    ¬ Reaches s.kids c n → ∃ s', attach s n item c = some s' ∧ Owns s' base live own ∧
      s'.next = s.next ∧ ∀ m, m ∉ live → s'.nodes m = s.nodes m

lemma pushObject_attaches :
    Attaches fun s n (key : Text) child => s.pushObject n key child := by
  intro s base live own n c key h hn hnot
  obtain ⟨node, hnode⟩ := h.exists_node hn
  refine ⟨s.write n (some { node with object := node.object ++ [(key, c)] }), ?_,
    h.attach hn hnode rfl ?_ hnot, rfl, Store.write_outside hn _⟩
  · exact congrArg (Option.bind · _) hnode
  · rw [Node.children, Node.children, List.map_append, List.append_assoc]
    exact Multiset.coe_eq_coe.mpr List.perm_middle

lemma pushArray_attaches {ι : Type*} :
    Attaches fun s n (_ : ι) child => s.pushArray n child := by
  intro s base live own n c _ h hn hnot
  obtain ⟨node, hnode⟩ := h.exists_node hn
  refine ⟨s.write n (some { node with array := node.array ++ [c] }), ?_,
    h.attach hn hnode rfl ?_ hnot, rfl, Store.write_outside hn _⟩
  · exact congrArg (Option.bind · _) hnode
  · rw [Node.children, Node.children, ← List.append_assoc]
    exact Multiset.coe_eq_coe.mpr (List.perm_append_singleton c _)

lemma assign_spec : ∀ {object : List (Text × ℕ)}, object.lookup key = some old →
    ∃ rest : Multiset ℕ, ((object.map Prod.snd : List ℕ) : Multiset ℕ) = old ::ₘ rest ∧
      (((assign key c object).map Prod.snd : List ℕ) : Multiset ℕ) = c ::ₘ rest := by
  intro object
  induction object with
  | nil => exact fun h => nomatch h
  | cons entry object ih =>
    intro h
    by_cases e : entry.1 = key
    · refine ⟨(object.map Prod.snd : List ℕ), ?_, ?_⟩
      · rw [List.lookup_cons, beq_iff_eq.mpr e.symm] at h
        cases h
        rfl
      · rw [assign, if_pos e]
        rfl
    · rw [List.lookup_cons, beq_eq_false_iff_ne.mpr fun e' => e e'.symm] at h
      obtain ⟨rest, hbefore, hafter⟩ := ih h
      refine ⟨entry.2 ::ₘ rest, ?_, ?_⟩
      · rw [List.map_cons, ← Multiset.cons_coe, hbefore, Multiset.cons_swap]
      · rw [assign, if_neg e, List.map_cons, ← Multiset.cons_coe, hafter, Multiset.cons_swap]

/-- **`replace_child`.** The child takes the place of the one under the key, or a new place. -/
theorem replaceChild_spec (h : Owns s base live (c ::ₘ own)) (hp : p ∈ live)
    (hnot : ¬ Reaches s.kids c p) (key : Text) :
    ∃ s' live', s.replaceChild p key c = some s' ∧ Owns s' base live' own ∧
      s'.next = s.next ∧ ∀ m, m ∉ live → s'.nodes m = s.nodes m := by
  obtain ⟨node, hnode⟩ := h.exists_node hp
  cases hlookup : node.object.lookup key with
  | none =>
    obtain ⟨s', hs', owns, hnext, outside⟩ := pushObject_attaches key h hp hnot
    refine ⟨s', live, ?_, owns, hnext, outside⟩
    rw [Store.replaceChild, hnode, Option.bind_eq_bind, Option.bind_some, hlookup]
    exact hs'
  | some old =>
    obtain ⟨rest, hbefore, hafter⟩ := assign_spec (c := c) hlookup
    have hold : (node.children : Multiset ℕ) = old ::ₘ (rest + (node.array : Multiset ℕ)) := by
      rw [Node.children, ← Multiset.coe_add, hbefore, Multiset.cons_add]
    rw [← Multiset.singleton_add] at h
    obtain ⟨s₁, live', count, hs₁, -, hnext, outside, hnode₁, howns⟩ := h.replace hp hnode hold
      fun x hx => Multiset.mem_singleton.mp hx ▸ hnot
    refine ⟨_, live', ?_, howns { node with refCount := count, object := assign key c node.object }
      rfl ?_, hnext, ?_⟩
    · rw [Store.replaceChild, hnode, Option.bind_eq_bind, Option.bind_some, hlookup]
      simp only [hs₁, Option.bind_eq_bind, Option.bind_some, hnode₁]
      rfl
    · rw [Node.children, ← Multiset.coe_add, hafter, Multiset.singleton_add, Multiset.cons_add]
    · intro m hm
      rw [Store.write_outside hp _ m hm, outside m hm]

/-! ### Loops over children -/

lemma made_release (ext : Extends s₀ s) (owns : Owns s s₀.next live {n}) :
    ∃ s', Store.releaseNode s.fuel s n = some s' ∧ Made s₀ s' none := by
  rw [← Multiset.cons_zero] at owns
  obtain ⟨s', live', hs', owns', -, hnext, outside⟩ := owns.release
  exact ⟨s', hs', ext.of_outside owns.above hnext outside, live', owns'⟩

/-- **The loop over the children of a new node.** Every child is made and attached, or the node is
released. -/
theorem fill_spec {ι : Type*} {make : Store → ι → Option (Store × Option ℕ)}
    {attach : Store → ℕ → ι → ℕ → Option Store} (attaches : Attaches attach) :
    ∀ {items : List ι} {s : Store} {live : Finset ℕ},
      (∀ item ∈ items, ∀ s, Extends s₀ s → Fresh s →
        ∃ s' result, make s item = some (s', result) ∧ Made s s' result) →
      Extends s₀ s → Owns s s₀.next live {n} →
      ∃ s' result, Store.fill make attach n s items = some (s', result) ∧ Made s₀ s' result := by
  intro items
  induction items with
  | nil => exact fun _ ext owns => ⟨_, some n, rfl, ext, _, owns⟩
  | cons item items ih =>
    intro s live makes ext owns
    have hn : n ∈ live := owns.counted.owned n (Multiset.mem_singleton_self n)
    obtain ⟨s₁, result, hmake, made⟩ := makes item List.mem_cons_self s ext owns.fresh
    obtain ⟨live₁, owns₁, hsub⟩ := made.owns owns
    have ext₁ : Extends s₀ s₁ := ext.trans made.1
    cases result with
    | none =>
      rw [given, add_zero] at owns₁
      obtain ⟨s₂, hs₂, made₂⟩ := made_release ext₁ owns₁
      refine ⟨s₂, none, ?_, made₂⟩
      rw [Store.fill, hmake]
      simp only [Option.bind_eq_bind, Option.bind_some, hs₂]
      rfl
    | some c =>
      rw [given, Multiset.add_comm, Multiset.singleton_add] at owns₁
      obtain ⟨s₂, hs₂, owns₂, hnext, outside⟩ := attaches item owns₁ (hsub hn)
        (made.not_reaches (owns.below n hn))
      obtain ⟨s₃, result, hs₃, made₃⟩ := ih (fun item hitem => makes item (.tail _ hitem))
        (ext₁.of_outside owns₁.above hnext outside) owns₂
      refine ⟨s₃, result, ?_, made₃⟩
      rw [Store.fill, hmake]
      simp only [Option.bind_eq_bind, Option.bind_some, hs₂]
      exact hs₃

/-- **`copy_node`.** A copy is made of what can be read, or nothing is left. -/
theorem copyNode_spec : ∀ {left : ℕ} {s : Store} {nodes : Set ℕ} {n : ℕ}, Fresh s →
    Readable s nodes → n ∈ nodes →
    ∃ s' result, Store.copyNode left s n = some (s', result) ∧ Made s s' result := by
  intro left
  induction left with
  | zero => exact fun fresh _ _ => ⟨_, none, rfl, made_error fresh _⟩
  | succ left ih =>
    intro s nodes n fresh readable hn
    obtain ⟨-, node, hnode, hchildren⟩ := readable n hn
    obtain ⟨ext, live, owns⟩ : Made s (s.newNode { Node.ofType node.type with
        b := node.b, i := node.i, d := node.d, s := node.s }).1 (some s.next) :=
      made_newNode fresh rfl rfl
    have copies : ∀ c ∈ node.children, ∀ s', Extends s s' → Fresh s' →
        ∃ s'' result, Store.copyNode left s' c = some (s'', result) ∧ Made s' s'' result :=
      fun c hc s' ext' fresh' => ih fresh' (readable.extends ext') (hchildren c hc)
    rw [Store.copyNode, hnode]
    simp only [Option.bind_eq_bind, Option.bind_some]
    cases htype : node.type with
    | object =>
      rw [htype] at ext owns
      refine fill_spec (fun entry => pushObject_attaches entry.1) (fun entry hentry => ?_) ext owns
      exact copies entry.2 (List.mem_append_left _ (List.mem_map_of_mem hentry))
    | array =>
      rw [htype] at ext owns
      refine fill_spec pushArray_attaches (fun c hc => ?_) ext owns
      exact copies c (List.mem_append_right _ hc)
    | _ =>
      rw [htype] at ext owns
      exact ⟨_, some s.next, rfl, ext, live, owns⟩

/-- **`json_to_node`.** A parsed value is built, or nothing is left. -/
theorem jsonToNode_spec : ∀ {left : ℕ} {s : Store} {json : Json}, Fresh s →
    ∃ s' result, s.jsonToNode left json = some (s', result) ∧ Made s s' result := by
  intro left
  induction left with
  | zero => exact fun fresh => ⟨_, none, rfl, made_error fresh _⟩
  | succ left ih =>
    intro s json fresh
    have scalar : ∀ {node : Node}, node.refCount = 1 → node.children = [] →
        ∃ s' result, some ((s.newNode node).1, some s.next) = some (s', result) ∧
          Made s s' result :=
      fun hcount hchildren => ⟨_, _, rfl, made_newNode fresh hcount hchildren⟩
    cases json with
    | unsigned u =>
      rw [Store.jsonToNode]
      split
      · exact scalar rfl rfl
      · exact scalar rfl rfl
    | array items =>
      obtain ⟨ext, live, owns⟩ : Made s (s.newNode (.ofType .array)).1 (some s.next) :=
        made_newNode fresh rfl rfl
      exact fill_spec pushArray_attaches (fun item _ s' _ fresh' => ih fresh') ext owns
    | object members =>
      obtain ⟨ext, live, owns⟩ : Made s (s.newNode (.ofType .object)).1 (some s.next) :=
        made_newNode fresh rfl rfl
      exact fill_spec (fun entry => pushObject_attaches entry.1) (fun entry _ s' _ fresh' =>
        ih fresh') ext owns
    | _ => exact scalar rfl rfl

/-! ### Merges -/

lemma findChild_mem (h : findChild node key = some c) : c ∈ node.children := by
  rw [findChild] at h
  split at h
  · obtain ⟨before, after, hsplit, -⟩ := List.lookup_eq_some_iff.mp h
    refine List.mem_append_left _ (List.mem_map.mpr ⟨(key, c), ?_, rfl⟩)
    rw [hsplit]
    exact List.mem_append_right _ List.mem_cons_self
  · exact absurd h (by simp)

lemma overrideChild_spec {mergeChild : Store → ℕ → ℕ → Option (Store × Option ℕ)}
    {copyChild : Store → ℕ → Option (Store × Option ℕ)} {nodes : Set ℕ} {value : ℕ}
    (merges : ∀ {s nodes d o}, Fresh s → Readable s nodes → d ∈ nodes → o ∈ nodes →
      ∃ s' result, mergeChild s d o = some (s', result) ∧ Made s s' result)
    (copies : ∀ {s nodes n}, Fresh s → Readable s nodes → n ∈ nodes →
      ∃ s' result, copyChild s n = some (s', result) ∧ Made s s' result)
    (readable : Readable s nodes) (hvalue : value ∈ nodes) (owns : Owns s base live own)
    (hn : n ∈ live) (key : Text) :
    ∃ s' result, Store.overrideChild mergeChild copyChild s n key value = some (s', result) ∧
      Made s s' result := by
  obtain ⟨node, hnode⟩ := owns.exists_node hn
  rw [Store.overrideChild, hnode, Option.bind_eq_bind, Option.bind_some]
  cases hfind : findChild node key with
  | none => exact copies owns.fresh readable hvalue
  | some existing =>
    have hexisting : existing ∈ live := owns.child_mem hn hnode (findChild_mem hfind)
    obtain ⟨old, hold⟩ := owns.exists_node hexisting
    obtain ⟨-, new, hnew, -⟩ := readable value hvalue
    simp only [hold, hnew, Option.bind_some]
    split
    · exact merges owns.fresh (readable.union owns.readable) (.inr hexisting) (.inl hvalue)
    · exact copies owns.fresh readable hvalue

/-- **The loop of `merge_nodes`.** Every override comes into the merged object, or the object is
released. -/
theorem mergeEntries_spec {mergeChild : Store → ℕ → ℕ → Option (Store × Option ℕ)}
    {copyChild : Store → ℕ → Option (Store × Option ℕ)} {nodes : Set ℕ}
    (merges : ∀ {s nodes d o}, Fresh s → Readable s nodes → d ∈ nodes → o ∈ nodes →
      ∃ s' result, mergeChild s d o = some (s', result) ∧ Made s s' result)
    (copies : ∀ {s nodes n}, Fresh s → Readable s nodes → n ∈ nodes →
      ∃ s' result, copyChild s n = some (s', result) ∧ Made s s' result)
    (readable : Readable s₀ nodes) :
    ∀ {entries : List (Text × ℕ)} {s : Store} {live : Finset ℕ},
      (∀ entry ∈ entries, entry.2 ∈ nodes) → Extends s₀ s → Owns s s₀.next live {n} →
      ∃ s' result, Store.mergeEntries mergeChild copyChild n s entries = some (s', result) ∧
        Made s₀ s' result := by
  intro entries
  induction entries with
  | nil => exact fun _ ext owns => ⟨_, some n, rfl, ext, _, owns⟩
  | cons entry entries ih =>
    intro s live hentries ext owns
    obtain ⟨key, value⟩ := entry
    have hn : n ∈ live := owns.counted.owned n (Multiset.mem_singleton_self n)
    have hvalue : value ∈ nodes := hentries (key, value) List.mem_cons_self
    obtain ⟨s₁, result, hchild, made⟩ := overrideChild_spec merges copies (readable.extends ext)
      hvalue owns hn (cString key)
    obtain ⟨live₁, owns₁, hsub⟩ := made.owns owns
    have ext₁ : Extends s₀ s₁ := ext.trans made.1
    cases result with
    | none =>
      rw [given, add_zero] at owns₁
      obtain ⟨s₂, hs₂, made₂⟩ := made_release ext₁ owns₁
      refine ⟨s₂, none, ?_, made₂⟩
      rw [Store.mergeEntries, hchild]
      simp only [Option.bind_eq_bind, Option.bind_some, hs₂]
      rfl
    | some c =>
      rw [given, Multiset.add_comm, Multiset.singleton_add] at owns₁
      obtain ⟨s₂, live₂, hs₂, owns₂, hnext, outside⟩ := replaceChild_spec owns₁ (hsub hn)
        (made.not_reaches (owns.below n hn)) (cString key)
      obtain ⟨s₃, result, hs₃, made₃⟩ := ih (fun entry hentry => hentries entry (.tail _ hentry))
        (ext₁.of_outside owns₁.above hnext outside) owns₂
      refine ⟨s₃, result, ?_, made₃⟩
      rw [Store.mergeEntries, hchild]
      simp only [Option.bind_eq_bind, Option.bind_some, hs₂]
      exact hs₃

/-- **`merge_nodes`.** A merged tree is made of what can be read, or nothing is left. -/
theorem mergeNodes_spec : ∀ {left : ℕ} {s : Store} {nodes : Set ℕ} {d o : Option ℕ}, Fresh s →
    Readable s nodes → (∀ n ∈ d, n ∈ nodes) → (∀ n ∈ o, n ∈ nodes) →
    ∃ s' result, Store.mergeNodes left s d o = some (s', result) ∧ Made s s' result := by
  intro left
  induction left with
  | zero => exact fun fresh _ _ _ => ⟨_, none, rfl, made_error fresh _⟩
  | succ left ih =>
    intro s nodes d o fresh readable hd ho
    cases d with
    | none =>
      cases o with
      | none => exact ⟨_, _, rfl, made_newNode fresh rfl rfl⟩
      | some o => exact copyNode_spec fresh readable (ho o rfl)
    | some d =>
      cases o with
      | none => exact copyNode_spec fresh readable (hd d rfl)
      | some o =>
        obtain ⟨-, defaults, hdefaults, -⟩ := readable d (hd d rfl)
        obtain ⟨-, overrides, hoverrides, hchildren⟩ := readable o (ho o rfl)
        simp only [Store.mergeNodes, hdefaults, hoverrides, Option.bind_eq_bind, Option.bind_some]
        split
        · exact copyNode_spec fresh readable (ho o rfl)
        · have copied : ∃ s₁ merged, Store.copyNode (left + 1) s d = some (s₁, merged) ∧
              Made s s₁ merged := copyNode_spec fresh readable (hd d rfl)
          obtain ⟨s₁, merged, hs₁, made⟩ := copied
          simp only [hs₁, Option.bind_some]
          cases merged with
          | none => exact ⟨s₁, none, rfl, made⟩
          | some merged =>
            obtain ⟨ext, live, owns⟩ := made
            refine mergeEntries_spec (fun fresh readable hd ho => ih fresh readable ?_ ?_)
              copyNode_spec readable (fun entry hentry => ?_) ext owns
            · rintro n ⟨⟩
              exact hd
            · rintro n ⟨⟩
              exact ho
            · exact hchildren _ (List.mem_append_left _ (List.mem_map_of_mem hentry))

end PulseEngine.Config
