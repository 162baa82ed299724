import Mathlib.Data.List.Basic
import Mathlib.Tactic
import PulseEngine.Library.Counted

/-!
# Depth-first search with a stack

`search` takes nodes off a stack until it finds the target, and remembers those whose neighbours it
has pushed. On a finite closed set of nodes it ends, and it finds the target exactly when a node of
the stack reaches it.
-/

namespace PulseEngine.Library

variable {α : Type*} [DecidableEq α]

/-- Takes the nodes off the stack one by one; nothing when the neighbours of a node cannot be read,
or the fuel is used up. -/
def search (kids : α → Option (List α)) (target : α) : ℕ → List α → List α → Option Bool
  | 0, _, _ => none
  | _ + 1, [], _ => some false
  | fuel + 1, n :: stack, visited =>
    if n = target then some true
    else if n ∈ visited then search kids target fuel stack visited
    else (kids n).bind fun ks => search kids target fuel (ks.reverse ++ stack) (n :: visited)

def edges (kids : α → Option (List α)) (n : α) : Multiset α := ((kids n).getD [] : List α)

def pending (kids : α → Option (List α)) (nodes : Finset α) (visited : List α) : ℕ :=
  ∑ n ∈ nodes with n ∉ visited, (edges kids n).card

variable {kids : α → Option (List α)} {target n : α} {ks stack visited : List α}
  {nodes : Finset α}

omit [DecidableEq α] in
lemma edges_of_some (h : kids n = some ks) : edges kids n = (ks : Multiset α) := by
  rw [edges, h, Option.getD_some]

lemma pending_visit (hn : n ∈ nodes) (hvisited : n ∉ visited) :
    pending kids nodes visited = (edges kids n).card + pending kids nodes (n :: visited) := by
  have hmem : n ∈ nodes.filter (· ∉ visited) := Finset.mem_filter.mpr ⟨hn, hvisited⟩
  have hrest : (nodes.filter (· ∉ visited)).erase n = nodes.filter (· ∉ n :: visited) := by
    ext m
    simp only [Finset.mem_erase, Finset.mem_filter, List.mem_cons, not_or]
    tauto
  rw [pending, pending, ← hrest, Finset.add_sum_erase _ (fun m => (edges kids m).card) hmem]

/-- The neighbours of every visited node are visited or on the stack, and the target is not
visited. -/
structure Explored (kids : α → Option (List α)) (target : α) (stack visited : List α) : Prop where
  pushed : ∀ v ∈ visited, ∀ k ∈ edges kids v, k ∈ visited ∨ k ∈ stack
  target : target ∉ visited

omit [DecidableEq α] in
lemma Explored.from_stack (h : Explored kids target stack visited) (hn : n ∈ visited)
    (path : Reaches (edges kids) n target) : ∃ x ∈ stack, Reaches (edges kids) x target := by
  induction path using Relation.ReflTransGen.head_induction_on with
  | refl => exact absurd hn h.target
  | head edge path ih =>
    rcases h.pushed _ hn _ edge with hk | hk
    · exact ih hk
    · exact ⟨_, hk, path⟩

omit [DecidableEq α] in
lemma Explored.skip (h : Explored kids target (n :: stack) visited) (hn : n ∈ visited) :
    Explored kids target stack visited := by
  refine ⟨fun v hv k hk => ?_, h.target⟩
  rcases h.pushed v hv k hk with hk | hk
  · exact .inl hk
  · rcases List.mem_cons.mp hk with rfl | hk
    · exact .inl hn
    · exact .inr hk

omit [DecidableEq α] in
lemma Explored.visit (h : Explored kids target (n :: stack) visited) (hne : n ≠ target)
    (hks : kids n = some ks) : Explored kids target (ks.reverse ++ stack) (n :: visited) := by
  refine ⟨fun v hv k hk => ?_, ?_⟩
  · rcases List.mem_cons.mp hv with rfl | hv
    · rw [edges_of_some hks] at hk
      exact .inr (List.mem_append_left _ (List.mem_reverse.mpr hk))
    · rcases h.pushed v hv k hk with hk | hk
      · exact .inl (List.mem_cons_of_mem _ hk)
      · rcases List.mem_cons.mp hk with rfl | hk
        · exact .inl List.mem_cons_self
        · exact .inr (List.mem_append_right _ hk)
  · intro hmem
    rcases List.mem_cons.mp hmem with e | hmem
    · exact hne e.symm
    · exact h.target hmem

/-- **The search decides reachability.** On a closed set of nodes with enough fuel it has a result,
and the result is whether some node of the stack reaches the target. -/
theorem search_spec (closed : ∀ m ∈ nodes, ∃ ks, kids m = some ks ∧ ∀ k ∈ ks, k ∈ nodes) :
    ∀ {fuel : ℕ} {stack visited : List α}, (∀ x ∈ stack, x ∈ nodes) →
      Explored kids target stack visited → stack.length + pending kids nodes visited < fuel →
      ∃ found, search kids target fuel stack visited = some found ∧
        (found = true ↔ ∃ x ∈ stack, Reaches (edges kids) x target) := by
  intro fuel
  induction fuel with
  | zero => exact fun _ _ hfuel => absurd hfuel (Nat.not_lt_zero _)
  | succ fuel ih =>
    intro stack visited hstack explored hfuel
    cases stack with
    | nil => exact ⟨false, rfl, by simp⟩
    | cons n stack =>
      rw [search]
      rw [List.length_cons] at hfuel
      have hn : n ∈ nodes := hstack n List.mem_cons_self
      have hrest : ∀ x ∈ stack, x ∈ nodes := fun x hx => hstack x (List.mem_cons_of_mem n hx)
      by_cases hne : n = target
      · subst hne
        exact ⟨true, if_pos rfl, by simpa using .inl .refl⟩
      rw [if_neg hne]
      by_cases hv : n ∈ visited
      · have explored' := explored.skip hv
        obtain ⟨found, hfound, hiff⟩ := ih hrest explored' (by omega)
        refine ⟨found, by rw [if_pos hv, hfound], hiff.trans ⟨?_, ?_⟩⟩
        · rintro ⟨x, hx, path⟩
          exact ⟨x, List.mem_cons_of_mem n hx, path⟩
        · rintro ⟨x, hx, path⟩
          rcases List.mem_cons.mp hx with rfl | hx
          · exact explored'.from_stack hv path
          · exact ⟨x, hx, path⟩
      · obtain ⟨ks, hks, hsub⟩ := closed n hn
        have hcard : (edges kids n).card = ks.length := by rw [edges_of_some hks]; rfl
        have hpending : pending kids nodes visited =
            (edges kids n).card + pending kids nodes (n :: visited) := pending_visit hn hv
        obtain ⟨found, hfound, hiff⟩ := @ih (ks.reverse ++ stack) (n :: visited)
          (by
            intro x hx
            rcases List.mem_append.mp hx with hx | hx
            · exact hsub x (List.mem_reverse.mp hx)
            · exact hrest x hx)
          (explored.visit hne hks)
          (by rw [List.length_append, List.length_reverse]; omega)
        refine ⟨found, by rw [if_neg hv, hks, Option.bind_some, hfound], hiff.trans ⟨?_, ?_⟩⟩
        · rintro ⟨x, hx, path⟩
          rcases List.mem_append.mp hx with hx | hx
          · refine ⟨n, List.mem_cons_self, .head ?_ path⟩
            rw [Points, edges_of_some hks]
            exact List.mem_reverse.mp hx
          · exact ⟨x, List.mem_cons_of_mem n hx, path⟩
        · rintro ⟨x, hx, path⟩
          rcases List.mem_cons.mp hx with rfl | hx
          · rcases Relation.ReflTransGen.cases_head path with e | ⟨k, edge, path⟩
            · exact absurd e hne
            · rw [Points, edges_of_some hks] at edge
              exact ⟨k, List.mem_append_left _ (List.mem_reverse.mpr edge), path⟩
          · exact ⟨x, List.mem_append_right _ hx, path⟩

end PulseEngine.Library

/-!
## Depth-first collection

Collect what can be reached from a list of things, each before its successors, skipping what was
collected already. With as much fuel as there are things left to collect, the result is closed under
successors.
-/

namespace PulseEngine.Library

variable {α : Type*} [DecidableEq α] {succ : α → List α} {a : α} {as done : List α} {fuel : Nat}

/-- Collect `as` and what can be reached from there, after `done`. -/
def collect (succ : α → List α) : Nat → List α → List α → List α
  | 0, done, _ => done
  | fuel + 1, done, as =>
    as.foldl (fun done a => if a ∈ done then done else collect succ fuel (done ++ [a]) (succ a)) done

def left (all done : List α) : List α := all.filter (· ∉ done)

structure Collected (succ : α → List α) (all done as result : List α) : Prop where
  kept : done ⊆ result
  within : result ⊆ all
  asked : as ⊆ result
  closed : ∀ a ∈ result, a ∉ done → succ a ⊆ result

lemma left_le {all done done' : List α} (h : done ⊆ done') :
    (left all done').length ≤ (left all done).length := by
  have hsub : (left all done').Sublist (left all done) := by
    unfold left
    refine List.monotone_filter_right all fun a ha => ?_
    simp only [decide_eq_true_eq] at ha ⊢
    exact fun hm => ha (h hm)
  exact hsub.length_le

lemma left_lt {all : List α} (hm : a ∈ all) (hn : a ∉ done) :
    (left all (done ++ [a])).length < (left all done).length := by
  have hle : (left all (done ++ [a])).Sublist (left all done) := by
    unfold left
    refine List.monotone_filter_right all fun b hb => ?_
    simp only [List.mem_append, not_or, decide_eq_true_eq] at hb ⊢
    exact hb.1
  refine lt_of_le_of_ne hle.length_le fun he => ?_
  have heq := hle.eq_of_length he
  have hmem : a ∈ left all done := by simp [left, hm, hn]
  rw [← heq] at hmem
  simp [left] at hmem

/-- **Collection.** With enough fuel the result is closed. -/
theorem collected_collect {all : List α} (hsucc : ∀ a ∈ all, succ a ⊆ all) :
    ∀ {fuel : Nat} {done as : List α}, done ⊆ all → as ⊆ all →
    (left all done).length < fuel → Collected succ all done as (collect succ fuel done as) := by
  intro fuel
  induction fuel with
  | zero => exact fun _ _ h => absurd h (Nat.not_lt_zero _)
  | succ fuel ih =>
    intro done as hdone has hfuel
    unfold collect
    induction as generalizing done with
    | nil => exact ⟨List.Subset.refl _, hdone, List.nil_subset _, fun a ha hn => absurd ha hn⟩
    | cons a as ihas =>
      obtain ⟨ha, has⟩ := List.cons_subset.mp has
      rw [List.foldl_cons]
      by_cases hm : a ∈ done
      · rw [if_pos hm]
        have hrest := ihas hdone has hfuel
        exact ⟨hrest.kept, hrest.within, List.cons_subset.mpr ⟨hrest.kept hm, hrest.asked⟩,
          hrest.closed⟩
      · rw [if_neg hm]
        have hone : done ++ [a] ⊆ all := List.append_subset.mpr ⟨hdone, by simpa using ha⟩
        have hlt := left_lt ha hm
        have hsub := ih hone (hsucc a ha) (by omega)
        have hkept : done ⊆ collect succ fuel (done ++ [a]) (succ a) :=
          List.Subset.trans (List.subset_append_left _ _) hsub.kept
        have hrest := ihas hsub.within has (lt_of_le_of_lt (left_le hkept) hfuel)
        have haa := hrest.kept (hsub.kept (List.mem_append_right _ List.mem_cons_self))
        refine ⟨List.Subset.trans hkept hrest.kept, hrest.within,
          List.cons_subset.mpr ⟨haa, hrest.asked⟩, ?_⟩
        intro b hb hn
        by_cases hc : b ∈ collect succ fuel (done ++ [a]) (succ a)
        · by_cases hba : b = a
          · subst hba
            exact List.Subset.trans hsub.asked hrest.kept
          · have hnot : b ∉ done ++ [a] := by simp [hn, hba]
            exact List.Subset.trans (hsub.closed b hc hnot) hrest.kept
        · exact hrest.closed b hb hc

end PulseEngine.Library
