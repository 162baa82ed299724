import Mathlib.Tactic
import PulseEngine.Datalist.Node

/-!
# Instantiation of a template

`pulse_prefab_script_instantiate` of `pulse_prefab/src/load_prefab_script.cpp`. The world of flecs is a map from entities
to components. A call that fails deletes the entity that it made, but leaves the component of the template, with the
members that were written, at a target that it was given: `instantiate_atomic_iff` says when nothing is left.
-/

namespace PulseEngine.Prefab

open Datalist

abbrev Ecs (V : Type) := ℕ → Option (ℕ → Option V)

namespace Ecs

variable {V : Type} (w : Ecs V) (e id : ℕ)

def component : Option V := (w e).bind fun components => components id

def put (v : V) : Ecs V := Function.update w e ((w e).map fun components => Function.update components id (some v))

def new : Ecs V := Function.update w e (some fun _ => none)

def delete : Ecs V := Function.update w e none

variable {w e id} {v v' : V}

lemma component_put (alive : w e ≠ none) : (w.put e id v).component e id = some v := by
  obtain ⟨components, h⟩ := Option.ne_none_iff_exists'.mp alive
  rw [component, put, Function.update_self, h, Option.map_some, Option.bind_some, Function.update_self]

lemma put_eq_self (alive : w e ≠ none) : w.put e id v = w ↔ w.component e id = some v := by
  refine ⟨fun eq => by rw [← eq, component_put alive], fun there => ?_⟩
  obtain ⟨components, h⟩ := Option.ne_none_iff_exists'.mp alive
  rw [component, h, Option.bind_some] at there
  rw [put, h, Option.map_some, ← there, Function.update_eq_self, ← h, Function.update_eq_self]

lemma delete_put_new (dead : w e = none) : ((w.new e).put e id v).delete e = w := by
  rw [delete, put, new, Function.update_idem, Function.update_idem, ← dead, Function.update_eq_self]

end Ecs

/-- What the function asks of flecs and of the asset system: values `V` of components, cursors `γ` that were pushed,
states `α` of the asset system. A failed conversion may leave another value. -/
structure ScriptApi (V γ α : Type) where
  name : ℕ → Option Text
  isTemplate : ℕ → Bool
  isPrefab : ℕ → Bool
  isA : ℕ → ℕ
  tag : V
  typeSize : ℕ → ℕ
  default : ℕ → V
  cursor : ℕ → Option γ
  member : ℕ → Text → Option ℕ
  opaqueAsset : ℕ → Option ℕ
  requestFileLoad : α → ℕ → Text → α
  isLoaded : α → ℕ → Text → Bool
  select : γ → Text → Option γ
  setString : γ → V → Text → V × Bool

structure PropState (V γ α : Type) where
  assets : α
  cursor : γ
  value : V

/-- The arguments of a call, the world that it meets, and the entity that `ecs_new` would make there. -/
structure InstantiateCall (V α : Type) where
  world : Ecs V
  fresh : ℕ
  fresh_dead : world fresh = none
  assets : α
  prefab : ℕ
  entity : ℕ
  names : Option (ℕ → Option Text)
  namesCount : ℕ
  values : Option (ℕ → Option Text)
  valuesCount : ℕ

structure Instantiated (V α : Type) where
  world : Ecs V
  assets : α
  outcome : Except Text ℕ

section

variable {V γ α : Type} (api : ScriptApi V γ α)

def setError (message : List Text) : Text := message.flatten.take 255

def applyProp (prefab : ℕ) (s : PropState V γ α) (prop : Option Text × Option Text) :
    Except (Text × α × V) (PropState V γ α) :=
  let value := prop.2.getD []
  match prop.1 with
  | none | some [] =>
    .error (setError ["prefab script: prop name must be a non-empty string".toList], s.assets, s.value)
  | some name =>
    match api.member prefab name with
    | none => .error (setError ["prefab script: unknown prop '".toList, name, "'".toList], s.assets, s.value)
    | some type =>
      let asset := if value = [] then none else api.opaqueAsset type
      let assets := (asset.map fun id => api.requestFileLoad s.assets id value).getD s.assets
      if asset.any fun id => !api.isLoaded assets id value then
        .error (setError ["prefab script: prop '".toList, name, "': asset '".toList, value, "' is not loaded".toList],
          assets, s.value)
      else
        match api.select s.cursor name with
        | none => .error (setError ["prefab script: prop '".toList, name, "' cannot be selected".toList], assets, s.value)
        | some cursor =>
          match api.setString cursor s.value value with
          | (left, false) => .error (setError ["prefab script: prop '".toList, name,
              "' cannot be set from string '".toList, value, "'".toList], assets, left)
          | (left, true) => .ok ⟨assets, cursor, left⟩

namespace InstantiateCall

variable (call : InstantiateCall V α)

def props : List (Option Text × Option Text) :=
  (List.range call.namesCount).map fun i => (call.names.bind (· i), call.values.bind (· i))

def ensured : V := (call.world.component call.entity call.prefab).getD (api.default call.prefab)

/-- The call from `ecs_ensure_id` on. An entity that was created is deleted on errors. -/
def fill : Instantiated V α :=
  let created := call.entity = 0
  let entity := if created then call.fresh else call.entity
  let world := if created then call.world.new entity else call.world
  let value := (world.component entity call.prefab).getD (api.default call.prefab)
  let undo := fun left => let world := world.put entity call.prefab left; if created then world.delete entity else world
  match api.cursor call.prefab with
  | none => ⟨undo value, call.assets, .error (setError ["prefab script: template has no reflection data".toList])⟩
  | some cursor =>
    match call.props.foldlM (applyProp api call.prefab) ⟨call.assets, cursor, value⟩ with
    | .error (message, assets, left) => ⟨undo left, assets, .error message⟩
    | .ok s => ⟨world.put entity call.prefab s.value, s.assets, .ok entity⟩

def instantiate : Instantiated V α :=
  let fail := fun message => ⟨call.world, call.assets, .error (setError message)⟩
  let name := (api.name call.prefab).getD "?".toList
  if call.prefab = 0 then fail ["prefab script: invalid argument".toList]
  else if call.namesCount ≠ call.valuesCount ∨ call.namesCount ≠ 0 ∧ (call.names.isNone ∨ call.values.isNone) then
    fail ["prefab script: names and values must be non-null arrays of equal length".toList]
  else if (call.world call.prefab).isNone then fail ["prefab script: prefab entity is not alive".toList]
  else if call.entity ≠ 0 ∧ (call.world call.entity).isNone then
    fail ["prefab script: target entity is not alive".toList]
  else if !api.isTemplate call.prefab then
    if !api.isPrefab call.prefab then
      fail ["prefab script: entity '".toList, name, "' is not a template or prefab".toList]
    else if call.namesCount ≠ 0 then fail ["prefab script: prefab '".toList, name, "' takes no props".toList]
    else if call.entity ≠ 0 then
      ⟨call.world.put call.entity (api.isA call.prefab) api.tag, call.assets, .ok call.entity⟩
    else
      let entity := call.fresh
      ⟨(call.world.new entity).put entity (api.isA call.prefab) api.tag, call.assets, .ok entity⟩
  else if api.typeSize call.prefab = 0 then fail ["prefab script: template has no reflection data".toList]
  else call.fill api

/-- **A call is atomic**: with an error it leaves the world as it was. -/
def Atomic : Prop := ∀ message, (call.instantiate api).outcome = .error message → (call.instantiate api).world = call.world

def Rejected : Prop :=
  call.prefab = 0 ∨
  (call.namesCount ≠ call.valuesCount ∨ call.namesCount ≠ 0 ∧ (call.names.isNone ∨ call.values.isNone)) ∨
  call.world call.prefab = none ∨ (call.entity ≠ 0 ∧ call.world call.entity = none) ∨
  api.isTemplate call.prefab = false ∨ api.typeSize call.prefab = 0

/-- A failure leaves a value in the component: there is no cursor, or some properties are set and the next one fails. -/
def Leaves (left : V) : Prop :=
  match api.cursor call.prefab with
  | none => left = call.ensured api
  | some cursor => ∃ k prop s message assets, call.props[k]? = some prop ∧
    (call.props.take k).foldlM (applyProp api call.prefab) ⟨call.assets, cursor, call.ensured api⟩ = .ok s ∧
    applyProp api call.prefab s prop = .error (message, assets, left)

end InstantiateCall

lemma foldlM_eq_error {ε σ ι : Type} {f : σ → ι → Except ε σ} {xs : List ι} {s : σ} {e : ε} :
    xs.foldlM f s = .error e ↔
      ∃ k x t, xs[k]? = some x ∧ (xs.take k).foldlM f s = .ok t ∧ f t x = .error e := by
  induction xs generalizing s with
  | nil => exact iff_of_false nofun fun ⟨k, x, t, h, _⟩ => by cases h
  | cons y xs ih =>
    rw [List.foldlM_cons]
    cases h : f s y with
    | error e' =>
      constructor
      · intro eq
        exact ⟨0, y, s, rfl, rfl, h.trans eq⟩
      · rintro ⟨k, x, t, hx, walk, fails⟩
        cases k with
        | zero =>
          cases hx
          cases walk
          exact h.symm.trans fails
        | succ k =>
          rw [List.take_succ_cons, List.foldlM_cons, h] at walk
          cases walk
    | ok s' =>
      refine (ih (s := s')).trans ⟨?_, ?_⟩
      · rintro ⟨k, x, t, hx, walk, fails⟩
        refine ⟨k + 1, x, t, hx, ?_, fails⟩
        rw [List.take_succ_cons, List.foldlM_cons, h]
        exact walk
      · rintro ⟨k, x, t, hx, walk, fails⟩
        cases k with
        | zero =>
          cases hx
          cases walk
          rw [h] at fails
          cases fails
        | succ k =>
          rw [List.take_succ_cons, List.foldlM_cons, h] at walk
          exact ⟨k, x, t, hx, walk, fails⟩

namespace InstantiateCall

variable {api} {call : InstantiateCall V α}

lemma fill_created (created : call.entity = 0) {message : Text} (h : (call.fill api).outcome = .error message) :
    (call.fill api).world = call.world := by
  unfold fill at h ⊢
  simp only [created, if_true] at h ⊢
  cases cursor : api.cursor call.prefab with
  | none => exact Ecs.delete_put_new call.fresh_dead
  | some c =>
    simp only [cursor] at h ⊢
    split at h
    · simp only
      exact Ecs.delete_put_new call.fresh_dead
    · cases h

lemma fill_given (given : call.entity ≠ 0) :
    (∀ left, call.Leaves api left → ∃ message, (call.fill api).outcome = .error message ∧
      (call.fill api).world = call.world.put call.entity call.prefab left) ∧
    ∀ message, (call.fill api).outcome = .error message → ∃ left, call.Leaves api left ∧
      (call.fill api).world = call.world.put call.entity call.prefab left := by
  unfold fill Leaves
  simp only [given, if_false]
  cases cursor : api.cursor call.prefab with
  | none => exact ⟨fun left h => ⟨_, rfl, by rw [h]; rfl⟩, fun message _ => ⟨_, rfl, rfl⟩⟩
  | some c =>
    simp only
    constructor
    · rintro left ⟨k, prop, s, message, assets, hprop, walk, fails⟩
      have stops := foldlM_eq_error.mpr ⟨k, prop, s, hprop, walk, fails⟩
      rw [ensured] at stops
      simp only [stops]
      exact ⟨message, rfl, trivial⟩
    · intro message h
      cases loop : call.props.foldlM (applyProp api call.prefab) ⟨call.assets, c, call.ensured api⟩ with
      | error left =>
        obtain ⟨text, assets, left⟩ := left
        obtain ⟨k, prop, s, hprop, walk, fails⟩ := foldlM_eq_error.mp loop
        rw [ensured] at loop
        simp only [loop]
        exact ⟨left, ⟨k, prop, s, text, assets, hprop, walk, fails⟩, rfl⟩
      | ok s =>
        rw [ensured] at loop
        rw [loop] at h
        cases h

lemma atomic_of_rejected (rejected : call.Rejected api) : call.Atomic api := by
  intro message h
  unfold instantiate at h ⊢
  split_ifs at h ⊢ with prefab arrays dead target template isPrefab props given size
  all_goals first | rfl | cases h | skip
  rcases rejected with h | h | h | h | h | h
  · exact absurd h prefab
  · exact absurd h arrays
  · exact absurd (Option.isNone_iff_eq_none.mpr h) dead
  · exact absurd ⟨h.1, Option.isNone_iff_eq_none.mpr h.2⟩ target
  · rw [h] at template
    exact absurd rfl template
  · exact absurd h size

lemma instantiate_of_not_rejected (rejected : ¬ call.Rejected api) : call.instantiate api = call.fill api := by
  unfold Rejected at rejected
  push Not at rejected
  obtain ⟨prefab, ⟨counts, arrays⟩, alive, target, template, size⟩ := rejected
  unfold instantiate
  rw [if_neg prefab, if_neg, if_neg, if_neg, if_neg, if_neg size]
  · rw [Bool.eq_true_of_not_eq_false template]
    exact Bool.false_ne_true
  · rintro ⟨given, dead⟩
    exact target given (Option.isNone_iff_eq_none.mp dead)
  · exact fun dead => alive (Option.isNone_iff_eq_none.mp dead)
  · rintro (h | ⟨h, missing⟩)
    · exact h counts
    · exact missing.elim (arrays h).1 (arrays h).2

/-- **When instantiation is atomic**: no target is given, or the call is refused before it adds the component, or the
target has the component with the value that a failure leaves. -/
theorem instantiate_atomic_iff (api : ScriptApi V γ α) (call : InstantiateCall V α) :
    call.Atomic api ↔ call.entity = 0 ∨ call.Rejected api ∨
      ∀ left, call.Leaves api left → call.world.component call.entity call.prefab = some left := by
  by_cases rejected : call.Rejected api
  · exact iff_of_true (atomic_of_rejected rejected) (.inr (.inl rejected))
  rw [Atomic, instantiate_of_not_rejected rejected]
  by_cases given : call.entity = 0
  · exact iff_of_true (fun message h => fill_created given h) (.inl given)
  have alive : call.world call.entity ≠ none := fun dead => rejected (.inr (.inr (.inr (.inl ⟨given, dead⟩))))
  obtain ⟨leaves, only⟩ := @fill_given V γ α api call given
  constructor
  · intro atomic
    refine .inr (.inr fun left h => ?_)
    obtain ⟨message, outcome, world⟩ := leaves left h
    rw [← Ecs.put_eq_self alive, ← world]
    exact atomic message outcome
  · rintro (none | rejected' | same) message h
    · exact absurd none given
    · exact absurd rejected' rejected
    · obtain ⟨left, h, world⟩ := only message h
      rw [world]
      exact (Ecs.put_eq_self alive).mpr (same left h)

end InstantiateCall

end

def lampWorld : Ecs ℕ := fun e => if e = 1 ∨ e = 2 then some fun _ => none else none

/-- A template with the property `glow`. Every text sets a value to its length. -/
def lampApi : ScriptApi ℕ Unit Unit where
  name _ := none
  isTemplate e := e = 1
  isPrefab _ := false
  isA e := e
  tag := 0
  typeSize _ := 4
  default _ := 0
  cursor _ := some ()
  member _ name := if name = "glow".toList then some 0 else none
  opaqueAsset _ := none
  requestFileLoad s _ _ := s
  isLoaded _ _ _ := true
  select _ _ := some ()
  setString _ _ value := (value.length, true)

def lampCall (entity : ℕ) : InstantiateCall ℕ Unit where
  world := lampWorld
  fresh := 3
  fresh_dead := rfl
  assets := ()
  prefab := 1
  entity := entity
  names := some fun i => if i = 0 then some "glow".toList else some "hue".toList
  namesCount := 2
  values := some fun _ => some "7".toList
  valuesCount := 2

/-- A target that keeps the component of a template. -/
theorem not_instantiate_atomic : ¬ ∀ call : InstantiateCall ℕ Unit, call.Atomic lampApi := by
  intro h
  have same := congrArg (fun w => w.component 2 1) (h (lampCall 2) "prefab script: unknown prop 'hue'".toList rfl)
  cases same

end PulseEngine.Prefab
