import PulseEngine.Config.Api

/-!
# Reference counts over whole runs

Every call keeps the heap balanced as long as no count overflows: the callers pass nodes that are
there, give back only what they hold, and no node gets more references than fit in its count.
-/

namespace PulseEngine.Config

open Library

variable {s s' : Store} {base n p c : ℕ} {live : Finset ℕ} {own : Multiset ℕ} {node : Node}
  {name : Text} {cfg value : Option ℕ} {parse : Parser}

/-! ### Calls that change a node -/

def Among (live : Finset ℕ) (cfg : Option ℕ) : Prop := ∀ n ∈ cfg, n ∈ live

def Keeps (result : Option Store) (own : Multiset ℕ) : Prop :=
  ∃ s' live', result = some s' ∧ Owns s' 0 live' own

lemma validate_spec (owns : Owns s base live own) (hcfg : Among live cfg) (key : Option Text) :
    (∃ message, s.validateSetKeyObject cfg key = some (.error message)) ∨
      ∃ obj name, s.validateSetKeyObject cfg key = some (.ok (obj, name)) ∧ obj ∈ live := by
  cases key with
  | none => exact .inl ⟨_, rfl⟩
  | some key =>
    cases cfg with
    | none => exact .inl ⟨_, rfl⟩
    | some obj =>
      obtain ⟨node, hnode⟩ := owns.exists_node (hcfg obj rfl)
      rw [Store.validateSetKeyObject, hnode]
      simp only [Option.bind_eq_bind, Option.bind_some]
      split
      · exact .inl ⟨_, rfl⟩
      · exact .inr ⟨obj, key, rfl, hcfg obj rfl⟩

lemma setScalar_spec (owns : Owns s 0 live own) (hcfg : Among live cfg) (key : Option Text)
    (hcount : node.refCount = 1) (hchildren : node.children = []) :
    Keeps (s.setScalar node cfg key) own := by
  rcases validate_spec owns hcfg key with ⟨message, h⟩ | ⟨obj, name, h, hobj⟩
  · refine ⟨s.setError message, live, ?_, owns.setError message⟩
    rw [Store.setScalar, h]
    rfl
  · have made := made_newNode owns.fresh hcount hchildren
    obtain ⟨live₁, owns₁, hsub⟩ := made.owns owns
    rw [given, Multiset.add_comm, Multiset.singleton_add] at owns₁
    obtain ⟨s', live', hs', owns', -⟩ := replaceChild_spec owns₁ (hsub hobj)
      (made.not_reaches (owns.below obj hobj)) name
    refine ⟨s', live', ?_, owns'⟩
    rw [Store.setScalar, h]
    exact hs'

lemma reachesNode_spec (owns : Owns s base live own) (hc : c ∈ live) :
    ∃ found, s.reachesNode c p = some found ∧ (found = true ↔ Reaches s.kids c p) := by
  have closed : ∀ m ∈ live, ∃ ks, s.childrenOf m = some ks ∧ ∀ k ∈ ks, k ∈ live := by
    intro m hm
    obtain ⟨-, node, hnode, hchildren⟩ := owns.readable m hm
    exact ⟨node.children, congrArg (Option.map Node.children) hnode, hchildren⟩
  have hpending : pending s.childrenOf live [] ≤ s.edgeCount := by
    refine Finset.sum_le_sum_of_subset fun m hm => ?_
    exact Finset.mem_range.mpr (owns.below m (Finset.mem_filter.mp hm).1)
  have hstack : ∀ x ∈ [c], x ∈ live := by
    intro x hx
    rw [List.mem_singleton.mp hx]
    exact hc
  have hexplored : Explored s.childrenOf p [c] [] :=
    ⟨fun v hv => absurd hv List.not_mem_nil, List.not_mem_nil⟩
  have hfuel : [c].length + pending s.childrenOf live [] < s.edgeCount + 2 := by
    rw [List.length_singleton]
    omega
  obtain ⟨found, hfound, hiff⟩ := search_spec closed hstack hexplored hfuel
  exact ⟨found, hfound, hiff.trans (by simp)⟩

lemma setShared_spec {type : ConfigType} {nullValue otherType cycle : String}
    (owns : Owns s 0 live own) (hcfg : Among live cfg) (hvalue : Among live value)
    (hroom : ∀ n ∈ value, s.count n < 2 ^ 31 - 1) (key : Option Text) :
    Keeps (s.setShared type nullValue otherType cycle cfg key value) own := by
  rcases validate_spec owns hcfg key with ⟨message, h⟩ | ⟨obj, name, h, hobj⟩
  · refine ⟨s.setError message, live, ?_, owns.setError message⟩
    rw [Store.setShared, h]
    rfl
  cases value with
  | none =>
    refine ⟨s.setError nullValue, live, ?_, owns.setError nullValue⟩
    rw [Store.setShared, h]
    rfl
  | some child =>
    have hchild : child ∈ live := hvalue child rfl
    obtain ⟨node, hnode⟩ := owns.exists_node hchild
    obtain ⟨found, hfound, hiff⟩ := @reachesNode_spec s 0 obj child live own owns hchild
    rw [Store.setShared, h]
    simp only [Option.bind_eq_bind, Option.bind_some, hnode, hfound]
    by_cases htype : node.type = type
    · rw [if_neg (not_not.mpr htype)]
      cases found with
      | true => exact ⟨s.setError cycle, live, rfl, owns.setError cycle⟩
      | false =>
        have hnot : ¬ Reaches s.kids child obj := fun path =>
          absurd (hiff.mpr path) Bool.false_ne_true
        obtain ⟨s₁, hs₁, owns₁, -, -, hkids⟩ := owns.retain hchild (hroom child rfl)
        rw [← hkids] at hnot
        obtain ⟨s', live', hs', owns', -⟩ := replaceChild_spec owns₁ hobj hnot name
        refine ⟨s', live', ?_, owns'⟩
        simp only [hs₁, Option.bind_some]
        exact hs'
    · rw [if_pos htype]
      exact ⟨s.setError otherType, live, rfl, owns.setError otherType⟩

lemma eraseP_spec : ∀ {object : List (Text × ℕ)}, object.lookup name = some c →
    ((object.map Prod.snd : List ℕ) : Multiset ℕ) =
      c ::ₘ (((object.eraseP (·.1 = name)).map Prod.snd : List ℕ) : Multiset ℕ) := by
  intro object
  induction object with
  | nil => exact fun h => nomatch h
  | cons entry object ih =>
    intro h
    by_cases e : entry.1 = name
    · rw [List.lookup_cons, beq_iff_eq.mpr e.symm] at h
      cases h
      rw [List.eraseP_cons_of_pos (by simpa using e)]
      rfl
    · rw [List.lookup_cons, beq_eq_false_iff_ne.mpr fun e' => e e'.symm] at h
      rw [List.eraseP_cons_of_neg (by simpa using e), List.map_cons, List.map_cons,
        ← Multiset.cons_coe, ← Multiset.cons_coe, ih h, Multiset.cons_swap]

lemma remove_spec (owns : Owns s 0 live own) (hcfg : Among live cfg) (key : Option Text) :
    Keeps ((s.remove cfg key).map Prod.fst) own := by
  cases cfg with
  | none => exact ⟨s, live, rfl, owns⟩
  | some p =>
    obtain ⟨node, hnode⟩ := owns.exists_node (hcfg p rfl)
    cases key with
    | none =>
      refine ⟨s, live, ?_, owns⟩
      rw [Store.remove, hnode]
      rfl
    | some key =>
      rw [Store.remove, hnode]
      simp only [Option.bind_eq_bind, Option.bind_some]
      by_cases htype : node.type = .object
      · rw [if_neg (not_not.mpr htype)]
        cases hlookup : node.object.lookup key with
        | none => exact ⟨s, live, rfl, owns⟩
        | some child =>
          have hold : (node.children : Multiset ℕ) =
              child ::ₘ ((({ node with object := node.object.eraseP (·.1 = key) } :
                Node).children : List ℕ) : Multiset ℕ) := by
            rw [Node.children, ← Multiset.coe_add, eraseP_spec hlookup, Multiset.cons_add,
              Multiset.coe_add]
            rfl
          rw [← zero_add own] at owns
          obtain ⟨s₁, live', count, hs₁, -, -, -, hnode₁, howns⟩ :=
            owns.replace (hcfg p rfl) hnode hold fun x hx => absurd hx (Multiset.notMem_zero x)
          refine ⟨_, live', ?_, howns
            { node with refCount := count, object := node.object.eraseP (·.1 = key) } rfl
            (zero_add _).symm⟩
          simp only [hs₁, hnode₁, Option.bind_some]
          rfl
      · rw [if_pos htype]
        exact ⟨s, live, rfl, owns⟩

/-! ### Calls that make nodes -/

lemma Made.of_setError {message : String} {result : Option ℕ}
    (h : Made (s.setError message) s' result) : Made s s' result :=
  ⟨⟨h.1.next_le, h.1.same⟩, h.2⟩

def Makes (s : Store) (made : Option (Store × Option ℕ)) : Prop :=
  ∃ s' result, made = some (s', result) ∧ Made s s' result

lemma Makes.of_setError (message : String) {made : Option (Store × Option ℕ)}
    (h : Makes (s.setError message) made) : Makes s made := by
  obtain ⟨s', result, rfl, made⟩ := h
  exact ⟨s', result, rfl, made.of_setError⟩

lemma makes_error (fresh : Fresh s) (message : String) :
    Makes s (some (s.setError message, none)) :=
  ⟨_, none, rfl, made_error fresh message⟩

lemma create_spec (fresh : Fresh s) : Makes s (some s.create) := by
  have made : Made (s.setError "") ((s.setError "").newNode (.ofType .object)).1 (some s.next) :=
    made_newNode fresh rfl rfl
  exact ⟨_, _, rfl, made.of_setError⟩

lemma createFromJson_spec (fresh : Fresh s) (json : Option Text) :
    Makes s (s.createFromJson parse json) := by
  have cleared : Fresh (s.setError "") := fresh
  refine Makes.of_setError "" ?_
  cases json with
  | none => exact makes_error cleared _
  | some text =>
    rw [Store.createFromJson]
    split
    · exact create_spec cleared
    split
    · exact makes_error cleared _
    · cases parse text with
      | error what =>
        cases what with
        | none => exact makes_error cleared _
        | some what => exact makes_error cleared _
      | ok parsed => exact jsonToNode_spec cleared

lemma createFromJsonFile_spec (fresh : Fresh s) (path : Option String) (file : File) :
    Makes s (s.createFromJsonFile parse path file) := by
  have cleared : Fresh (s.setError "") := fresh
  refine Makes.of_setError "" ?_
  cases path with
  | none => exact makes_error cleared _
  | some path =>
    rw [Store.createFromJsonFile]
    split
    · exact makes_error cleared _
    split
    · exact makes_error cleared _
    · cases file.bytes with
      | none => exact makes_error cleared _
      | some bytes =>
        cases bytes with
        | none => exact makes_error cleared _
        | some text => exact createFromJson_spec cleared (some text)

lemma merge_spec (owns : Owns s 0 live own) (hcfg : Among live cfg) (hvalue : Among live value) :
    Makes s (s.merge cfg value) := by
  have cleared := owns.setError ""
  exact Makes.of_setError "" (mergeNodes_spec cleared.fresh cleared.readable hcfg hvalue)

/-! ### Runs of calls -/

def World.Sound (w : World) : Prop := ∃ live, Owns w.store 0 live w.held

lemma World.empty_sound : World.empty.Sound :=
  ⟨∅, Owns.nil fun _ _ => rfl⟩

variable {w w' : World} {call : Call} {calls : List Call}

lemma World.receive_sound {made : Option (Store × Option ℕ)} (owns : Owns w.store 0 live w.held)
    (makes : Makes w.store made) : ∃ w', made.map w.receive = some w' ∧ w'.Sound := by
  obtain ⟨s', result, rfl, made⟩ := makes
  obtain ⟨live', owns', -⟩ := made.owns owns
  exact ⟨_, rfl, live', owns'⟩

lemma World.change_sound {result : Option Store} (keeps : Keeps result own) :
    ∃ w', (result.map fun s => World.mk s own) = some w' ∧ w'.Sound := by
  obtain ⟨s', live', rfl, owns'⟩ := keeps
  exact ⟨_, rfl, live', owns'⟩

/-- **One call.** A valid call has a result, and the heap is sound after it. -/
theorem World.step_sound (sound : w.Sound) (valid : w.Valid call) (room : w.Room call) :
    ∃ w', w.step parse call = some w' ∧ w'.Sound := by
  obtain ⟨live, owns⟩ := sound
  have among : ∀ n ∈ call.nodes, n ∈ live := fun n hn =>
    (owns.alive n (Nat.zero_le n)).mp (Option.isSome_iff_exists.mp (valid.1 n hn))
  have first : ∀ {cfg : Option ℕ}, (∀ n ∈ cfg.toList, n ∈ call.nodes) → Among live cfg :=
    fun h n hn => among n (h n (Option.mem_toList.mpr hn))
  cases call with
  | create => exact World.receive_sound owns (create_spec owns.fresh)
  | createFromJson json => exact World.receive_sound owns (createFromJson_spec owns.fresh json)
  | createFromJsonFile path file =>
    exact World.receive_sound owns (createFromJsonFile_spec owns.fresh path file)
  | addref cfg =>
    cases cfg with
    | none => exact ⟨w, rfl, live, owns⟩
    | some n =>
      obtain ⟨s', hs', owns', -⟩ := owns.retain (among n List.mem_cons_self) (room n rfl)
      exact World.change_sound ⟨s', live, hs', owns'⟩
  | release cfg =>
    cases cfg with
    | none => exact ⟨w, rfl, live, owns⟩
    | some n =>
      rw [← Multiset.cons_erase (valid.2 n rfl)] at owns
      obtain ⟨s', live', hs', owns', -⟩ := owns.release
      exact World.change_sound ⟨s', live', hs', owns'⟩
  | setBool cfg key _ =>
    exact World.change_sound (setScalar_spec owns (first fun _ hn => hn) key rfl rfl)
  | setInt cfg key _ =>
    exact World.change_sound (setScalar_spec owns (first fun _ hn => hn) key rfl rfl)
  | setDouble cfg key _ =>
    exact World.change_sound (setScalar_spec owns (first fun _ hn => hn) key rfl rfl)
  | setString cfg key _ =>
    exact World.change_sound (setScalar_spec owns (first fun _ hn => hn) key rfl rfl)
  | setObj cfg key value =>
    exact World.change_sound (setShared_spec owns (first fun _ hn => List.mem_append_left _ hn)
      (first fun _ hn => List.mem_append_right _ hn) room key)
  | setArray cfg key value =>
    exact World.change_sound (setShared_spec owns (first fun _ hn => List.mem_append_left _ hn)
      (first fun _ hn => List.mem_append_right _ hn) room key)
  | remove cfg key =>
    obtain ⟨s', live', hs', owns'⟩ := remove_spec owns (first fun _ hn => hn) key
    obtain ⟨⟨s₁, removed⟩, hremove, rfl⟩ := Option.map_eq_some_iff.mp hs'
    refine ⟨⟨s₁, w.held⟩, ?_, live', owns'⟩
    rw [World.step, hremove]
    rfl
  | merge defaults overrides =>
    exact World.receive_sound owns (merge_spec owns (first fun _ hn => List.mem_append_left _ hn)
      (first fun _ hn => List.mem_append_right _ hn))

/-- The invariant in terms of the counts, the edges and the held references alone. -/
theorem World.Sound.balanced (sound : w.Sound) : w.Balanced := by
  obtain ⟨live, owns⟩ := sound
  have dead : ∀ n, n ∉ live → w.store.kids n = 0 := by
    intro n hn
    have hnone : w.store.nodes n = none := by
      cases e : w.store.nodes n with
      | none => rfl
      | some node => exact absurd ((owns.alive n (Nat.zero_le n)).mp ⟨node, e⟩) hn
    rw [Store.kids, edges, Store.childrenOf, hnone]
    rfl
  have sub : live ⊆ Finset.range w.store.next := fun n hn => Finset.mem_range.mpr (owns.below n hn)
  refine ⟨fun n circle => ?_, fun n node hnode => ?_, fun n => ?_⟩
  · by_cases hn : n ∈ live
    · exact owns.acyclic n hn circle
    · obtain ⟨k, edge, _⟩ := Relation.TransGen.head'_iff.mp circle
      rw [Points, dead n hn] at edge
      exact Multiset.notMem_zero k edge
  · have hn : n ∈ live := (owns.alive n (Nat.zero_le n)).mp ⟨node, hnode⟩
    rw [← Store.count_of_some hnode, owns.counted.balanced n hn, references, World.parents]
    rw [Finset.sum_subset sub fun m _ hm => by rw [dead m hm, Multiset.count_zero]]
  · rw [Option.isSome_iff_exists, owns.alive n (Nat.zero_le n)]
    exact owns.counted.mem_iff_held owns.acyclic

/-- **Balanced counts.** Every run of valid calls that each find room for the reference they take
has a result. After it the graph of the nodes has no circle, every count is the number of references
that callers and nodes hold, and a node is freed exactly when no caller reaches it. -/
theorem World.counts_balanced
    (along : Along (World.step parse) (fun w call => w.Valid call ∧ w.Room call) .empty calls) :
    ∃ w, run (World.step parse) .empty calls = some w ∧ w.Balanced := by
  obtain ⟨w, hrun, sound⟩ := Along.total
    (fun sound valid => World.step_sound sound valid.1 valid.2) World.empty_sound along
  exact ⟨w, hrun, sound.balanced⟩

/-- Two objects: the second is set under a key of the first and given back by the caller, an attempt
to close the circle is refused, and the first is merged with itself and freed. -/
theorem World.counts_balanced_shared :
    ∃ w, run (World.step fun _ => .error none) .empty
      [.create, .create, .setObj (some 0) (some [97]) (some 1), .release (some 1),
        .setObj (some 1) (some [98]) (some 0), .merge (some 0) (some 0), .release (some 0)] =
      some w ∧ w.Balanced :=
  World.counts_balanced (by decide +kernel)

/-! ### Counts that overflow -/

lemma World.run_addref {k : ℕ} : ∀ {c : ℤ} {w : World} {node : Node},
    w.store.nodes 0 = some node → node.refCount = Store.wrap c →
    ∃ w' node', Along (step fun _ => .error none) Valid w (.replicate k (.addref (some 0))) ∧
      run (step fun _ => .error none) w (.replicate k (.addref (some 0))) = some w' ∧
      w'.store.nodes 0 = some node' ∧ node'.refCount = Store.wrap (c + k) := by
  induction k with
  | zero => exact fun hnode hcount => ⟨_, _, trivial, rfl, hnode, by simpa using hcount⟩
  | succ k ih =>
    intro c w node hnode hcount
    have hnext : Store.wrap (node.refCount + 1) = Store.wrap (c + 1) := by
      rw [hcount]
      exact Int.bmod_add_bmod ..
    let w₁ : World := ⟨w.store.write 0 (some { node with refCount := Store.wrap (c + 1) }),
      0 ::ₘ w.held⟩
    have hstep : w.step (fun _ => .error none) (.addref (some 0)) = some w₁ := by
      rw [step, Store.retainNode, hnode, Option.bind_eq_bind, Option.bind_some, hnext]
      rfl
    have valid : w.Valid (.addref (some 0)) := by
      refine ⟨fun n hn => ?_, fun n hn => by cases hn⟩
      rw [List.mem_singleton.mp hn, hnode]
      rfl
    obtain ⟨w', node', along, hrun, hnode', hcount'⟩ :=
      @ih (c + 1) w₁ _ (Store.write_self w.store 0 _) rfl
    refine ⟨w', node', ⟨valid, fun w₂ hw₂ => ?_⟩, ?_, hnode', ?_⟩
    · cases hstep.symm.trans hw₂
      exact along
    · rw [List.replicate_succ, run_cons, hstep, Option.bind_some, hrun]
    · rw [hcount', Nat.cast_succ, add_assoc, add_comm 1]

/-- A count is 32 bits wide: the 2^31st reference to an object makes it negative. -/
theorem World.counts_not_balanced :
    ¬ ∀ (calls : List Call) (w : World),
      Along (World.step fun _ => .error none) World.Valid .empty calls →
      run (World.step fun _ => .error none) .empty calls = some w → w.Balanced := by
  intro balanced
  let w₁ : World := World.empty.receive World.empty.store.create
  obtain ⟨k, hk⟩ : ∃ k, k = 2 ^ 31 - 1 := ⟨_, rfl⟩
  obtain ⟨w, node, along, hrun, hnode, hcount⟩ :=
    @World.run_addref k 1 w₁ (.ofType .object) rfl rfl
  have valid : World.empty.Valid .create := by decide
  have whole : Along (World.step fun _ => .error none) World.Valid .empty
      (.create :: .replicate k (.addref (some 0))) := by
    refine ⟨valid, fun w₂ hw₂ => ?_⟩
    cases hw₂
    exact along
  have counted := (balanced _ w whole hrun).counted 0 node hnode
  have hwrap : Store.wrap (1 + k) = -2 ^ 31 := by
    rw [hk]
    decide
  rw [hcount, hwrap] at counted
  have := Int.natCast_nonneg (w.held.count 0 + w.parents 0)
  omega

end PulseEngine.Config
