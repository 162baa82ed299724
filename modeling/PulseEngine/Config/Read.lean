import PulseEngine.Config.Balance
import PulseEngine.Config.Trees

/-!
# Reading configs

The getters of `pulse_config.h`. In every heap that calls lead to, whichever nodes are shared, what a setter writes is
what is read under its key, and nothing else that can be read changes.
-/

namespace PulseEngine.Config

open Library

/-! ## Getters -/

namespace Store

/-- The fields of a node, when it is there. -/
def read (s : Store) (n : ℕ) : Option (Option (ℕ × Value)) := (s.nodes n).map fun node => some (n, node.value)

/-- `node_for_key`: the node that is found and its fields, when nothing is read that is not there. -/
def nodeForKey (s : Store) (cfg : Option ℕ) (key : Option Text) : Option (Option (ℕ × Value)) :=
  match cfg, key with
  | none, _ => some none
  | some n, none => s.read n
  | some n, some key => do
    let node ← s.nodes n
    match findChild node key with
    | none => return none
    | some child => s.read child

/-- A getter reads the node that is found, and gives out its default when it cannot. -/
def getWith {β : Type} (s : Store) (read : ℕ × Value → Option β) (cfg : Option ℕ) (key : Option Text) (default : β) :
    Option β :=
  (s.nodeForKey cfg key).map fun found => (found.bind read).getD default

/-- `pulse_config_get_type`. -/
def getType (s : Store) (cfg : Option ℕ) (key : Option Text) : Option ConfigType :=
  s.getWith (fun child => some child.2.type) cfg key .none

/-- `pulse_config_get_bool`. -/
def getBool (s : Store) (cfg : Option ℕ) (key : Option Text) (default : Bool) : Option Bool :=
  s.getWith (fun child => if child.2.type = .bool then some child.2.b else none) cfg key default

/-- `pulse_config_get_int`: a double is taken if it is in range. -/
def getInt (s : Store) (cfg : Option ℕ) (key : Option Text) (default : Int64) : Option Int64 :=
  s.getWith (fun child =>
    if child.2.type = .int then some child.2.i
    else if child.2.type = .double ∧ Int64.minValue.toFloat ≤ child.2.d ∧ child.2.d < Int64.maxValue.toFloat then
      some child.2.d.toInt64
    else none) cfg key default

/-- `pulse_config_get_double`. -/
def getDouble (s : Store) (cfg : Option ℕ) (key : Option Text) (default : Float) : Option Float :=
  s.getWith (fun child =>
    if child.2.type = .double then some child.2.d
    else if child.2.type = .int then some child.2.i.toFloat
    else none) cfg key default

/-- `pulse_config_get_string`. -/
def getString (s : Store) (cfg : Option ℕ) (key : Option Text) (default : Option Text) : Option (Option Text) :=
  s.getWith (fun child => if child.2.type = .string then some (some (cString child.2.s)) else none) cfg key default

/-- `pulse_config_get_obj`. -/
def getObj (s : Store) (cfg : Option ℕ) (key : Option Text) : Option (Option ℕ) :=
  s.getWith (fun child => if child.2.type = .object then some (some child.1) else none) cfg key none

/-- `pulse_config_get_array`. -/
def getArray (s : Store) (cfg : Option ℕ) (key : Option Text) : Option (Option ℕ) :=
  s.getWith (fun child => if child.2.type = .array then some (some child.1) else none) cfg key none

end Store

/-- What a setter puts under a key of an object, when it does: the node and its fields. -/
abbrev Setting : Type := (ℕ × Text) × (ℕ × Value)

namespace Store

/-- `validate_set_key_object` for a setting. -/
def object (s : Store) (cfg : Option ℕ) (key : Option Text) : Option (ℕ × Text) := do
  let key ← key
  let n ← cfg
  let node ← s.nodes n
  if node.type = .object then some (n, key) else none

def scalarSetting (s : Store) (node : Node) (cfg : Option ℕ) (key : Option Text) : Option Setting :=
  (s.object cfg key).map fun entry => (entry, s.next, node.value)

def sharedSetting (s : Store) (type : ConfigType) (cfg : Option ℕ) (key : Option Text) (value : Option ℕ) :
    Option Setting := do
  let entry ← s.object cfg key
  let c ← value
  let node ← s.nodes c
  if node.type = type ∧ s.reachesNode c entry.1 = some false then some (entry, c, node.value) else none

end Store

/-- The setting of a setter; other calls have none of their own. -/
def Call.setting (s : Store) : Call → Option (Option Setting)
  | .setBool cfg key value => some (s.scalarSetting { Node.ofType .bool with b := value } cfg key)
  | .setInt cfg key value => some (s.scalarSetting { Node.ofType .int with i := value } cfg key)
  | .setDouble cfg key value => some (s.scalarSetting { Node.ofType .double with d := value } cfg key)
  | .setString cfg key value => some (s.scalarSetting { Node.ofType .string with s := value.getD [] } cfg key)
  | .setObj cfg key value => some (s.sharedSetting .object cfg key value)
  | .setArray cfg key value => some (s.sharedSetting .array cfg key value)
  | _ => none

/-- What the getter of its type gives after a setter. -/
def Call.ReadBack (s : Store) : Call → Prop
  | .setBool cfg key value => ∀ default, s.getBool cfg key default = some value
  | .setInt cfg key value => ∀ default, s.getInt cfg key default = some value
  | .setDouble cfg key value => ∀ default, s.getDouble cfg key default = some value
  | .setString cfg key value => ∀ default, s.getString cfg key default = some (some (cString (value.getD [])))
  | .setObj cfg key value => s.getObj cfg key = some value
  | .setArray cfg key value => s.getArray cfg key = some value
  | _ => True

/-- What getters give after a setting, of objects that stay. -/
def Gets (s s' : Store) (setting : Option Setting) : Prop :=
  ∀ m k, (∃ node, s.nodes m = some node) → (∃ node, s'.nodes m = some node) →
    ∀ (β : Type) (read : ℕ × Value → Option β) (default : β), s'.getWith read (some m) k default =
      match setting with
      | some ((n, key), child) =>
        if m = n ∧ k = some key then some ((read child).getD default) else s.getWith read (some m) k default
      | none => s.getWith read (some m) k default

/-- What is found after a setting, of objects that stay; the one that is set does. -/
structure Sets (s s' : Store) (setting : Option Setting) : Prop where
  found : ∀ m k, (∃ node, s.nodes m = some node) → (∃ node, s'.nodes m = some node) → s'.nodeForKey (some m) k =
    match setting with
    | some ((n, key), child) => if m = n ∧ k = some key then some (some child) else s.nodeForKey (some m) k
    | none => s.nodeForKey (some m) k
  stays : ∀ entry ∈ setting, (∃ node, s.nodes entry.1.1 = some node) ∧ ∃ node, s'.nodes entry.1.1 = some node

variable {s s' : Store} {p c m : ℕ} {key : Text} {live : Finset ℕ} {own : Multiset ℕ} {v : Value}

/-! ## What a step leaves -/

/-- Children of the nodes are there. -/
def Closed (s : Store) : Prop := ∀ m node, s.nodes m = some node → ∀ c ∈ node.children, ∃ child, s.nodes c = some child

lemma Owns.closed (owns : Owns s 0 live own) : Closed s := by
  intro m node hnode c mem
  have hm := (owns.alive m (Nat.zero_le m)).mp ⟨node, hnode⟩
  refine owns.exists_node (owns.counted.closed m hm c ?_)
  rwa [Store.kids_of_some hnode]

lemma Store.nodeForKey_of_some {node : Node} (hnode : s.nodes m = some node) :
    s.nodeForKey (some m) (some key) = (findChild node key).elim (some none) s.read := by
  simp only [Store.nodeForKey, hnode, Option.bind_eq_bind, Option.bind_some]
  cases findChild node key <;> rfl

/-- Nodes with their counts changed. -/
lemma read_of_count {node : Node} {count : ℤ} (hnode : s.nodes m = some node)
    (hnode' : s'.nodes m = some { node with refCount := count }) : s'.read m = s.read m := by
  rw [Store.read, Store.read, hnode, hnode']
  rfl

/-- Counts do not show in what is read. -/
lemma Thinner.nodeForKey (thin : Thinner s s') (closed : Closed s') (alive : ∃ node, s'.nodes m = some node)
    (k : Option Text) : s'.nodeForKey (some m) k = s.nodeForKey (some m) k := by
  obtain ⟨node', hnode'⟩ := alive
  obtain ⟨node, count, hnode, rfl⟩ := thin m node' hnode'
  cases k with
  | none => exact read_of_count hnode hnode'
  | some key =>
    rw [Store.nodeForKey_of_some hnode, Store.nodeForKey_of_some hnode']
    have same : findChild { node with refCount := count } key = findChild node key := rfl
    rw [same]
    cases found : findChild node key with
    | none => rfl
    | some c =>
      obtain ⟨child', hchild'⟩ := closed m _ hnode' c (findChild_mem (same.trans found))
      obtain ⟨child, count, hchild, rfl⟩ := thin c child' hchild'
      exact read_of_count hchild hchild'

lemma thinner_retainNode {n : ℕ} (h : s.retainNode n = some s') : Thinner s s' ∧ Thinner s' s := by
  obtain ⟨node, hnode, h⟩ := Option.bind_eq_some_iff.mp h
  cases h
  refine ⟨thinner_write fun node' mem => ⟨node, _, hnode, (Option.mem_some_iff.mp mem).symm⟩, fun m node' hnode' => ?_⟩
  by_cases same : m = n
  · subst same
    cases hnode.symm.trans hnode'
    exact ⟨_, node.refCount, Store.write_self s m _, rfl⟩
  · exact ⟨node', node'.refCount, (Store.write_of_ne same _).trans hnode', rfl⟩

/-! ## Writes -/

/-- `replace_child` in terms of nodes: the object has the child under the key, and the rest is as before. -/
def Written (s s' : Store) (p : ℕ) (key : Text) (c : ℕ) : Prop :=
  ∀ m node', s'.nodes m = some node' → ∃ node count, s.nodes m = some node ∧
    node' = { (if m = p then { node with object := put key c node.object } else node) with refCount := count }

lemma written_replaceChild (h : s.replaceChild p key c = some s') : Written s s' p key c := by
  obtain ⟨node, hnode, h⟩ := Option.bind_eq_some_iff.mp h
  -- after what the nodes are but for their counts, the object is written
  have write : ∀ {s₁ : Store} {node₁ : Node}, Thinner s s₁ → s₁.nodes p = some node₁ →
      Written s (s₁.write p (some { node₁ with object := put key c node.object })) p key c := by
    intro s₁ node₁ thin hnode₁ m node' hnode'
    obtain ⟨node₀, count, hnode₀, rfl⟩ := thin p node₁ hnode₁
    cases hnode.symm.trans hnode₀
    by_cases same : m = p
    · subst same
      rw [Store.write_self] at hnode'
      cases hnode'
      exact ⟨node, count, hnode, by rw [if_pos rfl]⟩
    · rw [Store.write_of_ne same] at hnode'
      obtain ⟨old, count', hold, rfl⟩ := thin m node' hnode'
      exact ⟨old, count', hold, by rw [if_neg same]⟩
  cases found : node.object.lookup key with
  | none =>
    rw [found] at h
    obtain ⟨node₁, hnode₁, h⟩ := Option.bind_eq_some_iff.mp h
    cases hnode.symm.trans hnode₁
    cases h
    have absent : key ∉ node.object.map Prod.fst := by
      intro mem
      obtain ⟨entry, mem, eq⟩ := List.mem_map.mp mem
      exact bne_iff_ne.mp (List.lookup_eq_none_iff.mp found entry mem) eq.symm
    rw [← put_of_not_mem absent]
    exact write (fun m node hnode => ⟨node, node.refCount, hnode, rfl⟩) hnode
  | some old =>
    rw [found] at h
    obtain ⟨s₁, released, h⟩ := Option.bind_eq_some_iff.mp h
    obtain ⟨node₁, hnode₁, h⟩ := Option.bind_eq_some_iff.mp h
    cases h
    have thin := releaseNode_thinner released
    obtain ⟨node₀, count, hnode₀, rfl⟩ := thin p node₁ hnode₁
    cases hnode.symm.trans hnode₀
    rw [assign_eq_put found]
    exact write thin hnode₁

lemma stays_replaceChild (h : s.replaceChild p key c = some s') : ∃ node, s'.nodes p = some node := by
  obtain ⟨node, -, h⟩ := Option.bind_eq_some_iff.mp h
  cases found : node.object.lookup key with
  | none =>
    rw [found] at h
    obtain ⟨node₁, -, h⟩ := Option.bind_eq_some_iff.mp h
    cases h
    exact ⟨_, Store.write_self s p _⟩
  | some old =>
    rw [found] at h
    obtain ⟨s₁, -, h⟩ := Option.bind_eq_some_iff.mp h
    obtain ⟨node₁, -, h⟩ := Option.bind_eq_some_iff.mp h
    cases h
    exact ⟨_, Store.write_self s₁ p _⟩

lemma Written.read (written : Written s s' p key c) (alive : ∃ node, s'.nodes m = some node) :
    s'.read m = s.read m := by
  obtain ⟨node', hnode'⟩ := alive
  obtain ⟨node, count, hnode, rfl⟩ := written m node' hnode'
  rw [Store.read, Store.read, hnode, hnode']
  split_ifs <;> rfl

/-- **What is read after a write**: the child under the key of the object, and everything else as before. -/
lemma Written.nodeForKey (written : Written s s' p key c) (closed : Closed s') {obj child : Node}
    (hobj : s.nodes p = some obj) (object : obj.type = .object) (hchild : s.nodes c = some child)
    (alive : ∃ node, s'.nodes m = some node) (k : Option Text) : s'.nodeForKey (some m) k =
      if m = p ∧ k = some key then some (some (c, child.value)) else s.nodeForKey (some m) k := by
  cases k with
  | none =>
    rw [if_neg fun both => nomatch both.2]
    exact written.read alive
  | some k =>
    obtain ⟨node', hnode'⟩ := alive
    obtain ⟨node, count, hnode, same⟩ := written m node' hnode'
    have found : findChild node' k = if m = p ∧ k = key then some c else findChild node k := by
      rw [same]
      by_cases at_p : m = p
      · subst at_p
        cases hobj.symm.trans hnode
        simp [findChild, object, lookup_put]
      · simp [findChild, at_p]
    have children : ∀ x, findChild node' k = some x → s'.read x = s.read x := fun x hx =>
      written.read (closed m node' hnode' x (findChild_mem hx))
    rw [Store.nodeForKey_of_some hnode, Store.nodeForKey_of_some hnode']
    by_cases here : m = p ∧ k = key
    · rw [if_pos here] at found
      rw [if_pos ⟨here.1, congrArg some here.2⟩, found, Option.elim_some, children c found, Store.read, hchild]
      rfl
    · rw [if_neg here] at found
      rw [if_neg fun both => here ⟨both.1, Option.some.inj both.2⟩, ← found]
      cases hx : findChild node' k with
      | none => rfl
      | some x => exact children x hx

/-! ## Setters -/

variable {base : ℕ} {cfg value : Option ℕ} {name : Option Text} {node : Node}

lemma validate_cases (owns : Owns s base live own) (hcfg : Among live cfg) (name : Option Text) :
    (s.object cfg name = none ∧ ∃ message, s.validateSetKeyObject cfg name = some (.error message)) ∨
      ∃ obj key node, s.object cfg name = some (obj, key) ∧ s.validateSetKeyObject cfg name = some (.ok (obj, key)) ∧
        obj ∈ live ∧ s.nodes obj = some node ∧ node.type = .object := by
  cases name with
  | none => exact .inl ⟨rfl, _, rfl⟩
  | some key =>
    cases cfg with
    | none => exact .inl ⟨rfl, _, rfl⟩
    | some obj =>
      obtain ⟨node, hnode⟩ := owns.exists_node (hcfg obj rfl)
      by_cases object : node.type = .object
      · refine .inr ⟨obj, key, node, ?_, ?_, hcfg obj rfl, hnode, object⟩
        · simp [Store.object, hnode, object]
        · simp [Store.validateSetKeyObject, hnode, object]
      · refine .inl ⟨?_, "config: not an object", ?_⟩
        · simp [Store.object, hnode, object]
        · simp [Store.validateSetKeyObject, hnode, object]

lemma sets_scalar (owns : Owns s 0 live own) (hcfg : Among live cfg) (name : Option Text)
    (hcount : node.refCount = 1) (hchildren : node.children = []) :
    ∃ s', s.setScalar node cfg name = some s' ∧ Sets s s' (s.scalarSetting node cfg name) := by
  obtain ⟨s', live', done, owns'⟩ := setScalar_spec owns hcfg name hcount hchildren
  refine ⟨s', done, ?_⟩
  rw [Store.setScalar] at done
  rcases validate_cases owns hcfg name with ⟨none, message, error⟩ | ⟨obj, key, old, here, ok, hobj, hold, object⟩
  · rw [error] at done
    cases done
    rw [Store.scalarSetting, none]
    exact ⟨fun m k _ _ => rfl, by rintro _ ⟨⟩⟩
  · rw [ok] at done
    have written := @written_replaceChild (s.newNode node).1 s' obj s.next key done
    have new : (s.newNode node).1.nodes s.next = some node := Function.update_self ..
    have same : ∀ m, (∃ node, s.nodes m = some node) → (s.newNode node).1.nodes m = s.nodes m := by
      rintro m ⟨x, hx⟩
      refine Function.update_of_ne ?_ _ _
      rintro rfl
      rw [owns.fresh s.next le_rfl] at hx
      cases hx
    have thin : Thinner (s.newNode node).1 s := fun m x hx => ⟨x, x.refCount, (same m ⟨x, hx⟩).trans hx, rfl⟩
    rw [Store.scalarSetting, here]
    refine ⟨fun m k alive alive' => ?_, fun entry mem => ?_⟩
    · rw [written.nodeForKey owns'.closed ((same obj ⟨old, hold⟩).trans hold) object new alive',
        thin.nodeForKey owns.closed alive]
      rfl
    · cases mem
      exact ⟨⟨old, hold⟩, stays_replaceChild done⟩

lemma sets_shared {type : ConfigType} {nullValue otherType cycle : String} (owns : Owns s 0 live own)
    (hcfg : Among live cfg) (hvalue : Among live value) (hroom : ∀ n ∈ value, s.count n < 2 ^ 31 - 1)
    (name : Option Text) : ∃ s', s.setShared type nullValue otherType cycle cfg name value = some s' ∧
      Sets s s' (s.sharedSetting type cfg name value) := by
  obtain ⟨s', live', done, owns'⟩ := @setShared_spec s live own cfg value type nullValue otherType cycle owns hcfg hvalue
    hroom name
  refine ⟨s', done, ?_⟩
  rw [Store.setShared] at done
  rw [Store.sharedSetting]
  rcases validate_cases owns hcfg name with ⟨none, message, error⟩ | ⟨obj, key, old, here, ok, hobj, hold, object⟩
  · rw [error] at done
    cases done
    rw [none]
    exact ⟨fun m k _ _ => rfl, by rintro _ ⟨⟩⟩
  rw [ok] at done
  rw [here]
  cases value with
  | none =>
    cases done
    exact ⟨fun m k _ _ => rfl, by rintro _ ⟨⟩⟩
  | some c =>
    obtain ⟨child, hchild⟩ := owns.exists_node (hvalue c rfl)
    obtain ⟨found, hfound, -⟩ := @reachesNode_spec s 0 obj c live own owns (hvalue c rfl)
    simp only [Option.bind_eq_bind, Option.bind_some, hchild, hfound] at done ⊢
    by_cases same : child.type = type
    · rw [if_neg (not_not.mpr same)] at done
      cases found with
      | true =>
        rw [if_neg fun both => by cases both.2]
        cases done
        exact ⟨fun m k _ _ => rfl, by rintro _ ⟨⟩⟩
      | false =>
        rw [if_pos ⟨same, rfl⟩]
        obtain ⟨s₁, retained, done⟩ := Option.bind_eq_some_iff.mp done
        obtain ⟨thin, thin'⟩ := thinner_retainNode retained
        obtain ⟨obj₁, _, hobj₁, rfl⟩ := thin' obj old hold
        obtain ⟨child₁, _, hchild₁, rfl⟩ := thin' c child hchild
        refine ⟨fun m k alive alive' => ?_, fun entry mem => ?_⟩
        · rw [(written_replaceChild done).nodeForKey owns'.closed hobj₁ object hchild₁ alive',
            ← thin'.nodeForKey owns.closed alive]
          rfl
        · cases mem
          exact ⟨⟨_, hold⟩, stays_replaceChild done⟩
    · rw [if_pos same] at done
      rw [if_neg fun both => same both.1]
      cases done
      exact ⟨fun m k _ _ => rfl, by rintro _ ⟨⟩⟩

lemma Sets.gets {setting : Option Setting} (sets : Sets s s' setting) : Gets s s' setting := by
  intro m k alive alive' β read default
  rw [Store.getWith, sets.found m k alive alive']
  rcases setting with _ | ⟨⟨n, key⟩, child⟩
  · rfl
  · dsimp only
    split_ifs <;> rfl

/-! ## What is read back -/

lemma Store.object_eq_some {entry : ℕ × Text} (h : s.object cfg name = some entry) :
    cfg = some entry.1 ∧ name = some entry.2 := by
  obtain ⟨key, rfl, h⟩ := Option.bind_eq_some_iff.mp h
  obtain ⟨n, rfl, h⟩ := Option.bind_eq_some_iff.mp h
  obtain ⟨node, -, h⟩ := Option.bind_eq_some_iff.mp h
  split at h
  · cases h
    exact ⟨rfl, rfl⟩
  · cases h

lemma Store.scalarSetting_eq_some {setting : Setting} (h : s.scalarSetting node cfg name = some setting) :
    cfg = some setting.1.1 ∧ name = some setting.1.2 ∧ setting.2 = (s.next, node.value) := by
  obtain ⟨entry, here, rfl⟩ := Option.map_eq_some_iff.mp h
  obtain ⟨hcfg, hname⟩ := Store.object_eq_some here
  exact ⟨hcfg, hname, rfl⟩

lemma Store.sharedSetting_eq_some {type : ConfigType} {setting : Setting}
    (h : s.sharedSetting type cfg name value = some setting) :
    cfg = some setting.1.1 ∧ name = some setting.1.2 ∧ value = some setting.2.1 ∧ setting.2.2.type = type := by
  simp only [Store.sharedSetting, Option.bind_eq_bind, Option.bind_eq_some_iff] at h
  obtain ⟨entry, here, c, rfl, node, -, h⟩ := h
  obtain ⟨hcfg, hname⟩ := Store.object_eq_some here
  split at h
  next both =>
    cases h
    exact ⟨hcfg, hname, rfl, both.1⟩
  next => cases h

lemma Gets.readBack {call : Call} {setting : Setting} (setter : call.setting s = some (some setting))
    (gets : Gets s s' (some setting)) (alive : ∃ node, s.nodes setting.1.1 = some node)
    (alive' : ∃ node, s'.nodes setting.1.1 = some node) : call.ReadBack s' := by
  obtain ⟨⟨n, key⟩, child⟩ := setting
  have got : ∀ (β : Type) (read : ℕ × Value → Option β) (default : β),
      s'.getWith read (some n) (some key) default = some ((read child).getD default) := fun β read default =>
    (gets n (some key) alive alive' β read default).trans (if_pos ⟨rfl, rfl⟩)
  cases call with
  | setBool cfg name value =>
    obtain ⟨rfl, rfl, rfl⟩ := Store.scalarSetting_eq_some (Option.some.inj setter)
    exact fun default => got _ _ default
  | setInt cfg name value =>
    obtain ⟨rfl, rfl, rfl⟩ := Store.scalarSetting_eq_some (Option.some.inj setter)
    exact fun default => got _ _ default
  | setDouble cfg name value =>
    obtain ⟨rfl, rfl, rfl⟩ := Store.scalarSetting_eq_some (Option.some.inj setter)
    exact fun default => got _ _ default
  | setString cfg name value =>
    obtain ⟨rfl, rfl, rfl⟩ := Store.scalarSetting_eq_some (Option.some.inj setter)
    exact fun default => got _ _ default
  | setObj cfg name value =>
    obtain ⟨rfl, rfl, rfl, object⟩ := Store.sharedSetting_eq_some (Option.some.inj setter)
    exact (got _ _ none).trans (by rw [if_pos object]; rfl)
  | setArray cfg name value =>
    obtain ⟨rfl, rfl, rfl, array⟩ := Store.sharedSetting_eq_some (Option.some.inj setter)
    exact (got _ _ none).trans (by rw [if_pos array]; rfl)
  | _ => exact trivial

/-- **Reading and writing.** After any valid calls, a setter puts its value under the key of its object, where the getter of
its type reads it back, and whatever else the getters give of objects that stay is as before, also where objects share
nodes. A setter that is refused changes nothing. -/
theorem World.gets_settings {parse : Parser} {calls : List Call} {call : Call} {setting : Option Setting} {w : World}
    (along : Along (World.step parse) (fun w call => w.Valid call ∧ w.Room call) .empty (calls ++ [call]))
    (runs : run (World.step parse) .empty calls = some w) (setter : call.setting w.store = some setting) :
    ∃ w', w.step parse call = some w' ∧ w'.held = w.held ∧ Gets w.store w'.store setting ∧
      (setting ≠ none → call.ReadBack w'.store) := by
  obtain ⟨valid, room⟩ := along.at_end runs
  obtain ⟨live, owns⟩ : w.Sound := along.of_append.invariant (fun w call w' sound valid stepped => by
    obtain ⟨w'', stepped', sound'⟩ : ∃ w', w.step parse call = some w' ∧ w'.Sound := World.step_sound sound valid.1 valid.2
    cases stepped.symm.trans stepped'
    exact sound') World.empty_sound runs
  have among : ∀ n ∈ call.nodes, n ∈ live := fun n hn =>
    (owns.alive n (Nat.zero_le n)).mp (Option.isSome_iff_exists.mp (valid.1 n hn))
  have first : ∀ {cfg : Option ℕ}, (∀ n ∈ cfg.toList, n ∈ call.nodes) → Among live cfg :=
    fun h n hn => among n (h n (Option.mem_toList.mpr hn))
  have change : ∀ {result : Option Store}, (∃ s', result = some s' ∧ Sets w.store s' setting) →
      ∃ w', (result.map fun s => World.mk s w.held) = some w' ∧ w'.held = w.held ∧ Gets w.store w'.store setting ∧
        (setting ≠ none → call.ReadBack w'.store) := by
    rintro _ ⟨s', rfl, sets⟩
    refine ⟨_, rfl, rfl, sets.gets, fun accepted => ?_⟩
    obtain ⟨entry, rfl⟩ := Option.ne_none_iff_exists'.mp accepted
    obtain ⟨alive, alive'⟩ := sets.stays entry rfl
    exact sets.gets.readBack setter alive alive'
  cases call with
  | setBool cfg key _ =>
    cases setter
    exact change (sets_scalar owns (first fun _ hn => hn) key rfl rfl)
  | setInt cfg key _ =>
    cases setter
    exact change (sets_scalar owns (first fun _ hn => hn) key rfl rfl)
  | setDouble cfg key _ =>
    cases setter
    exact change (sets_scalar owns (first fun _ hn => hn) key rfl rfl)
  | setString cfg key _ =>
    cases setter
    exact change (sets_scalar owns (first fun _ hn => hn) key rfl rfl)
  | setObj cfg key value =>
    cases setter
    exact change (sets_shared owns (first fun _ hn => List.mem_append_left _ hn)
      (first fun _ hn => List.mem_append_right _ hn) room key)
  | setArray cfg key value =>
    cases setter
    exact change (sets_shared owns (first fun _ hn => List.mem_append_left _ hn)
      (first fun _ hn => List.mem_append_right _ hn) room key)
  | _ => cases setter

/-- A number is set in an object that another one shares. -/
theorem World.gets_settings_shared : ∃ w w',
    run (World.step fun _ => .error none) .empty [.create, .create, .setObj (some 1) (some [98]) (some 0)] = some w ∧
      w.step (fun _ => .error none) (.setInt (some 0) (some [97]) 4) = some w' ∧ w'.held = w.held ∧
      Gets w.store w'.store (some ((0, [97]), 2, { Node.ofType .int with i := 4 }.value)) ∧
      (Call.setInt (some 0) (some [97]) 4).ReadBack w'.store := by
  obtain ⟨w, runs⟩ : ∃ w, run (World.step fun _ => .error none) .empty
    [.create, .create, .setObj (some 1) (some [98]) (some 0)] = some w := ⟨_, rfl⟩
  have setter : Call.setting w.store (.setInt (some 0) (some [97]) 4) =
      some (some ((0, [97]), 2, { Node.ofType .int with i := 4 }.value)) := by
    cases runs
    rfl
  obtain ⟨w', stepped, held, gets, back⟩ := World.gets_settings (by decide +kernel) runs setter
  exact ⟨w, w', runs, stepped, held, gets, back (by decide)⟩

end PulseEngine.Config
