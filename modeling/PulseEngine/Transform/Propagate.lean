import Mathlib.Tactic

/-!
# World transforms

The two systems of `pulse_transform/src/transform_components.cpp`. `ensure_world_transform` gives a world transform to
what lost it, by a command that may take effect before or after the other system of the frame;
`propagate_world_transform` goes through the hierarchy, parents first. After two frames every world transform is the
product of the local ones along its ancestors (`settles`).
-/

namespace PulseEngine.Transform

variable {M L : Type}

/-- Entities with the chain of their ancestors (`ChildOf`, nearest first) and their components. -/
structure World (M L : Type) where
  ancestors : ℕ → List ℕ
  chain : ∀ e p rest, ancestors e = p :: rest → ancestors p = rest
  value : ℕ → Option M
  locals : ℕ → Option L

namespace World

variable (trs : L → M) (mul : M → M → M) (w : World M L)

/-- The source of the cascading term: the nearest ancestor with a world transform. -/
def source (e : ℕ) : Option M := (w.ancestors e).findSome? w.value

def Matched (e : ℕ) : Prop := (w.value e).isSome ∧ (w.locals e).isSome

instance (e : ℕ) : Decidable (w.Matched e) := inferInstanceAs (Decidable (_ ∧ _))

/-- `propagate_world_transform` for an entity. -/
def placeEntity (e : ℕ) : World M L :=
  match w.value e, w.locals e with
  | some _, some l =>
    { w with value := Function.update w.value e (some (match w.source e with
        | some parent => mul parent (trs l)
        | none => trs l)) }
  | _, _ => w

/-- The order of a cached query that cascades: the entities it matches, by their depth. -/
structure Cascade (order : List ℕ) : Prop where
  matched : ∀ e, e ∈ order ↔ w.Matched e
  nodup : order.Nodup
  sorted : order.Pairwise fun a b => (w.ancestors a).length ≤ (w.ancestors b).length

def propagate (order : List ℕ) : World M L := order.foldl (placeEntity trs mul) w

/-- `ensure_world_transform` for the entities that have no world transform in `seen`. -/
def ensure (seen : World M L) : World M L :=
  { w with value := fun e => if (seen.value e).isNone then (w.locals e).map trs <|> w.value e else w.value e }

/-- A frame, with the commands of the first system merged before the second one runs or behind it. -/
def frame (early : Bool) (order : List ℕ) : World M L :=
  if early then (w.ensure trs w).propagate trs mul order else (w.propagate trs mul order).ensure trs w

/-- The transform of the first of some entities, each of which is below the next. -/
def placed (w : World M L) : List ℕ → Option M
  | [] => none
  | e :: rest =>
    match w.value e, w.locals e with
    | some _, some l => some (match placed w rest with
        | some parent => mul parent (trs l)
        | none => trs l)
    | some m, none => some m
    | none, _ => placed w rest

/-- Runs of frames, in each of which the query has an order that cascades. -/
inductive Runs : ℕ → World M L → Prop
  | start : Runs 0 w
  | frame {w₁ : World M L} {n : ℕ} (early : Bool) {order : List ℕ} : Runs n w₁ →
    (if early then w₁.ensure trs w₁ else w₁).Cascade order → Runs (n + 1) (w₁.frame trs mul early order)

variable {trs mul w} {w' : World M L} {e : ℕ} {order : List ℕ}

/-! ## One pass -/

lemma ancestors_of_suffix {x : ℕ} {rest l : List ℕ} (h : x :: rest <:+ l) (eq : w.ancestors e = l) :
    w.ancestors x = rest := by
  induction l generalizing e with
  | nil => exact absurd h.length_le (Nat.not_succ_le_zero _)
  | cons p l ih =>
    rcases List.suffix_cons_iff.mp h with whole | inner
    · cases whole
      exact w.chain e x rest eq
    · exact ih inner (w.chain e p l eq)

/-- While a pass is at an entity, what is above it is placed. -/
lemma source_eq {u : World M L} {done : List ℕ}
    (value : ∀ e, u.value e = if e ∈ done then w.placed trs mul (e :: w.ancestors e) else w.value e)
    (only : ∀ x ∈ done, w.Matched x) {l : List ℕ} (chain : ∀ x rest, x :: rest <:+ l → w.ancestors x = rest)
    (above : ∀ x ∈ l, w.Matched x → x ∈ done) : l.findSome? u.value = w.placed trs mul l := by
  induction l with
  | nil => rfl
  | cons x l ih =>
    have rest := ih (fun y rest h => chain y rest (h.trans (List.suffix_cons x l)))
      fun y h => above y (List.mem_cons_of_mem x h)
    have up : w.ancestors x = l := chain x l List.suffix_rfl
    rw [List.findSome?_cons, value, rest, up]
    cases hv : w.value x with
    | none =>
      have out : x ∉ done := fun h => by
        have some := (only x h).1
        rw [hv] at some
        cases some
      rw [if_neg out, placed, hv]
    | some m =>
      cases hl : w.locals x with
      | none =>
        have out : x ∉ done := fun h => by
          have some := (only x h).2
          rw [hl] at some
          cases some
        rw [if_neg out, placed, hv, hl]
      | some t =>
        have here : x ∈ done := above x List.mem_cons_self ⟨by rw [hv]; rfl, by rw [hl]; rfl⟩
        rw [if_pos here, placed, hv, hl]

/-- **A pass** places every entity that it matches below what is placed above it, and leaves the others. -/
lemma propagate_spec (cascade : w.Cascade order) :
    (w.propagate trs mul order).ancestors = w.ancestors ∧ (w.propagate trs mul order).locals = w.locals ∧
      ∀ e, (w.propagate trs mul order).value e =
        if e ∈ order then w.placed trs mul (e :: w.ancestors e) else w.value e := by
  suffices turns : ∀ (todo done : List ℕ) (u : World M L), done ++ todo = order → u.ancestors = w.ancestors →
      u.locals = w.locals →
      (∀ e, u.value e = if e ∈ done then w.placed trs mul (e :: w.ancestors e) else w.value e) →
        (u.propagate trs mul todo).ancestors = w.ancestors ∧ (u.propagate trs mul todo).locals = w.locals ∧
          ∀ e, (u.propagate trs mul todo).value e =
            if e ∈ order then w.placed trs mul (e :: w.ancestors e) else w.value e from
    turns order [] w rfl rfl rfl fun e => rfl
  intro todo
  induction todo with
  | nil =>
    rintro done u rfl ancestors locals value
    rw [List.append_nil]
    exact ⟨ancestors, locals, value⟩
  | cons a todo ih =>
    intro done u split ancestors locals value
    have sorted := cascade.sorted
    have matched : ∀ x ∈ done, w.Matched x := fun x h =>
      (cascade.matched x).mp (split ▸ List.mem_append_left _ h)
    obtain ⟨hvalue, hlocals⟩ := (cascade.matched a).mp (split ▸ List.mem_append_right done List.mem_cons_self)
    obtain ⟨m, hm⟩ := Option.isSome_iff_exists.mp hvalue
    obtain ⟨l, hl⟩ := Option.isSome_iff_exists.mp hlocals
    have fresh : a ∉ done := by
      have nodup := cascade.nodup
      rw [← split] at nodup
      exact fun h => (List.nodup_append.mp nodup).2.2 a h a List.mem_cons_self rfl
    have chain : ∀ x rest, x :: rest <:+ w.ancestors a → w.ancestors x = rest :=
      fun x rest h => ancestors_of_suffix h rfl
    -- what is above comes earlier in the order, as it is less deep
    have above : ∀ x ∈ w.ancestors a, w.Matched x → x ∈ done := by
      intro x hx hmatched
      obtain ⟨before, rest, eq⟩ := List.append_of_mem hx
      have depth : w.ancestors x = rest := chain x rest ⟨before, eq.symm⟩
      have less : (w.ancestors x).length < (w.ancestors a).length := by
        rw [depth, eq, List.length_append, List.length_cons]
        omega
      rw [← split, List.pairwise_append] at sorted
      rcases List.mem_append.mp (split ▸ (cascade.matched x).mpr hmatched) with early | late
      · exact early
      · rcases List.mem_cons.mp late with rfl | late
        · exact absurd less (lt_irrefl _)
        · exact absurd less (not_lt.mpr ((List.pairwise_cons.mp sorted.2.1).1 x late))
    have hsource : u.source a = w.placed trs mul (w.ancestors a) := by
      rw [source, ancestors]
      exact source_eq value matched chain above
    have turn : u.placeEntity trs mul a =
        { u with value := Function.update u.value a (w.placed trs mul (a :: w.ancestors a)) } := by
      rw [placeEntity, locals, value a, if_neg fresh, hm, hl, hsource, placed, hm, hl]
    rw [propagate, List.foldl_cons, ← propagate, turn]
    refine ih (done ++ [a]) _ (by rw [← split, List.append_assoc]; rfl) ancestors locals fun e => ?_
    by_cases same : e = a
    · subst same
      rw [if_pos (List.mem_append_right done List.mem_cons_self)]
      exact Function.update_self _ _ _
    · have mem : e ∈ done ++ [a] ↔ e ∈ done := by
        rw [List.mem_append, List.mem_singleton]
        exact or_iff_left same
      rw [if_congr mem rfl rfl, ← value e]
      exact Function.update_of_ne same _ _

/-! ## Frames -/

/-- The same hierarchy with other transforms where there are local ones. -/
structure Like (w w' : World M L) : Prop where
  ancestors : w'.ancestors = w.ancestors
  locals : w'.locals = w.locals
  isSome : ∀ e, (w'.value e).isSome = (w.value e).isSome
  fixed : ∀ e, w.locals e = none → w'.value e = w.value e

lemma Like.placed_eq (like : Like w w') (l : List ℕ) : w'.placed trs mul l = w.placed trs mul l := by
  induction l with
  | nil => rfl
  | cons e l ih =>
    have isSome := like.isSome e
    rw [placed, placed, ih, like.locals]
    cases hl : w.locals e with
    | none => rw [like.fixed e hl]
    | some t => cases hv : w.value e <;> cases hv' : w'.value e <;> simp_all

lemma Like.matched_iff (like : Like w w') : w'.Matched e ↔ w.Matched e := by
  rw [Matched, Matched, like.isSome, like.locals]

lemma like_propagate (cascade : w.Cascade order) : Like w (w.propagate trs mul order) := by
  obtain ⟨ancestors, locals, value⟩ := @propagate_spec M L trs mul w order cascade
  refine ⟨ancestors, locals, fun e => ?_, fun e none => ?_⟩
  · rw [value]
    split_ifs with mem
    · obtain ⟨hv, hl⟩ := (cascade.matched e).mp mem
      obtain ⟨m, hm⟩ := Option.isSome_iff_exists.mp hv
      obtain ⟨l, hl⟩ := Option.isSome_iff_exists.mp hl
      rw [placed, hm, hl]
      rfl
    · rfl
  · rw [value, if_neg fun mem => ?_]
    have some := ((cascade.matched e).mp mem).2
    rw [none] at some
    cases some

lemma Like.ensure (like : Like w w') : Like (w.ensure trs w) (w'.ensure trs w) := by
  refine ⟨like.ancestors, like.locals, fun e => ?_, fun e none => ?_⟩
  · have isSome := like.isSome e
    simp only [World.ensure, like.locals]
    split_ifs
    · cases hl : w.locals e
      · exact isSome
      · rfl
    · exact isSome
  · have same := like.fixed e none
    simp only [World.ensure, like.locals, same]

/-- Where no world transform is missing, none is made. -/
lemma ensure_eq (complete : ∀ e, w.value e = none → w.locals e = none) (locals : w'.locals = w.locals) :
    w'.ensure trs w = w' := by
  have value : (w'.ensure trs w).value = w'.value := by
    funext e
    simp only [ensure, locals]
    split_ifs with missing
    · rw [complete e (Option.isNone_iff_eq_none.mp missing)]
      rfl
    · rfl
  calc w'.ensure trs w = { w' with value := (w'.ensure trs w).value } := rfl
    _ = w' := by rw [value]

lemma Like.unmatched (like : Like w w') (complete : ∀ e, w.value e = none → w.locals e = none)
    (h : ¬ w.Matched e) : w'.value e = w.value e := by
  cases hl : w.locals e with
  | none => exact like.fixed e hl
  | some l =>
    cases hv : w.value e with
    | none =>
      rw [complete e hv] at hl
      cases hl
    | some m => exact absurd ⟨by rw [hv]; rfl, by rw [hl]; rfl⟩ h

/-- **World transforms settle.** From the second frame on, however the commands of the frames are merged and their queries
ordered, an entity with a local transform has the product of the local transforms along its ancestors, and the others have
what they had. -/
theorem settles {n : ℕ} (runs : Runs trs mul w n w') (two : 2 ≤ n) (e : ℕ) :
    w'.value e = if (w.locals e).isSome then (w.ensure trs w).placed trs mul (e :: w.ancestors e) else w.value e := by
  have complete : ∀ e, (w.ensure trs w).value e = none → (w.ensure trs w).locals e = none := by
    intro e none
    cases hl : w.locals e with
    | none => exact hl
    | some l =>
      simp only [ensure, hl] at none
      split_ifs at none with missing
      · cases none
      · rw [none] at missing
        exact absurd rfl missing
  have always : (1 ≤ n → Like (w.ensure trs w) w') ∧ (2 ≤ n → ∀ e, w'.value e =
      if (w.ensure trs w).Matched e then (w.ensure trs w).placed trs mul (e :: w.ancestors e)
      else (w.ensure trs w).value e) := by
    clear two
    induction runs with
    | start => exact ⟨fun h => absurd h (by decide), fun h => absurd h (by decide)⟩
    | @frame w₁ n early order runs cascade ih =>
      cases n with
      | zero =>
        cases runs
        refine ⟨fun _ => ?_, fun h => absurd h (by decide)⟩
        cases early with
        | false => exact (like_propagate cascade).ensure
        | true => exact like_propagate cascade
      | succ n =>
        have like := ih.1 (Nat.succ_pos n)
        have full : ∀ e, w₁.value e = none → w₁.locals e = none := by
          intro e none
          have isSome := like.isSome e
          rw [none] at isSome
          rw [like.locals]
          exact complete e (Option.not_isSome_iff_eq_none.mp fun h => by rw [h] at isSome; cases isSome)
        have same : w₁.ensure trs w₁ = w₁ := ensure_eq full rfl
        have cascade' : w₁.Cascade order := by
          cases early with
          | false => exact cascade
          | true => exact same ▸ cascade
        obtain ⟨-, locals, value⟩ := @propagate_spec M L trs mul w₁ order cascade'
        have pass : w₁.frame trs mul early order = w₁.propagate trs mul order := by
          cases early with
          | false => exact ensure_eq full locals
          | true => exact congrArg (fun w => propagate trs mul w order) same
        have next : Like w₁ (w₁.propagate trs mul order) := like_propagate cascade'
        rw [pass]
        refine ⟨fun _ => ⟨next.ancestors.trans like.ancestors, next.locals.trans like.locals,
          fun e => (next.isSome e).trans (like.isSome e), fun e none =>
            (next.fixed e (like.locals ▸ none)).trans (like.fixed e none)⟩, fun _ e => ?_⟩
        rw [value, like.placed_eq, like.ancestors, if_congr ((cascade'.matched e).trans like.matched_iff) rfl rfl]
        split_ifs with matched
        · rfl
        · exact like.unmatched complete matched
  rw [always.2 two e]
  have matched : (w.ensure trs w).Matched e ↔ (w.locals e).isSome := by
    refine ⟨fun h => h.2, fun some => ⟨Option.isSome_iff_ne_none.mpr fun lost => ?_, some⟩⟩
    rw [show w.locals e = none from complete e lost] at some
    cases some
  rw [if_congr matched rfl rfl]
  split_ifs with some
  · rfl
  · have none : w.locals e = none := Option.not_isSome_iff_eq_none.mp some
    simp only [ensure, none]
    split_ifs <;> rfl

/-- Two entities, the second below the first, neither of which has a world transform yet. -/
def pair : World ℕ ℕ where
  ancestors := fun e => if e = 1 then [0] else []
  chain := by grind
  value := fun _ => none
  locals := fun e => if e ≤ 1 then some (e + 1) else none

lemma cascade_first : pair.Cascade [] :=
  ⟨fun e => by simp [Matched, pair], List.nodup_nil, List.Pairwise.nil⟩

lemma cascade_second : (pair.frame id (· + ·) false []).Cascade [0, 1] := by
  refine ⟨fun e => ?_, by decide, by decide⟩
  simp [Matched, pair, frame, propagate, ensure]
  omega

theorem settles_pair :
    ((pair.frame id (· + ·) false []).frame id (· + ·) false [0, 1]).value 1 = some 3 :=
  settles ((Runs.start.frame false cascade_first).frame false cascade_second) (le_refl 2) 1

end World

end PulseEngine.Transform
