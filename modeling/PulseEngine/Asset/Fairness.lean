import PulseEngine.Asset.Turns

/-!
# Fairness of the load queue

One call of `LoadQueue::process` visits a prefix of the queue in order. A visited job that neither ends
nor waits for dependencies keeps its place, so the jobs behind the limit move up by the number of
visited jobs that leave theirs. As long as one of them does in every call, every job gets its turn.
-/

namespace PulseEngine.Asset

open Library

/-- One turn of the loop of `LoadQueue::process`: the system before it, the job, and how the
callbacks of the job behave. -/
structure Turn (fuel : Nat) where
  system : System fuel
  id : JobId
  script : JobScript Call

def Turn.Keeps {fuel : Nat} (t : Turn fuel) : Prop :=
  ∃ s ∈ System.processJob (System.runCalls fuel) t.system t.id t.script, s.Keeps t.id

instance {fuel : Nat} (t : Turn fuel) : Decidable t.Keeps :=
  inferInstanceAs (Decidable (∃ s ∈ System.processJob _ _ _ _, _))

namespace System

variable {fuel : Nat} {s s' s₁ s₂ : System fuel} {id : JobId} {script : JobScript Call}

def processTurns : Nat → List (JobScript Call) → Option JobId → System fuel → List (Turn fuel)
  | 0, _, _, _ => []
  | _, _, none, _ => []
  | _ + 1, [], some _, _ => []
  | turns + 1, script :: scripts, some id, s =>
    ⟨s, id, script⟩ ::
      match s.turn id script with
      | none => []
      | some (next, s) => processTurns turns scripts next s

def jobsToProcess (s : System fuel) : Nat :=
  if 0 < s.maxRequestsPerUpdate then min s.jobs.length s.maxRequestsPerUpdate else s.jobs.length

def turnsOf (s : System fuel) (scripts : List (JobScript Call)) : List (Turn fuel) :=
  processTurns s.jobsToProcess scripts (s.jobs.head?.map (·.id)) s

/-- The jobs that one call of `LoadQueue::process` visits, in order. -/
def visited (s : System fuel) (scripts : List (JobScript Call)) : List JobId :=
  (s.turnsOf scripts).map (·.id)

/-- What is expected of one call: no job is visited twice, the jobs are visited in the order of the
queue, and a job that is not visited ends nearer to the head. -/
structure FairCall (s s' : System fuel) (visited : List JobId) : Prop where
  once : visited.Nodup
  order : visited <+: s.jobIds
  nearer : ∀ id ∈ s.jobIds, id ∉ visited →
    id ∈ s'.jobIds ∧ s'.jobIds.idxOf id < s.jobIds.idxOf id

def Moves (s : System fuel) (scripts : List (JobScript Call)) : Prop :=
  s.jobsToProcess < s.jobs.length → ∃ t ∈ s.turnsOf scripts, ¬ t.Keeps

instance (s : System fuel) (scripts : List (JobScript Call)) : Decidable (s.Moves scripts) :=
  inferInstanceAs (Decidable (_ → ∃ t ∈ s.turnsOf scripts, ¬ t.Keeps))

/-- **A walk.** The jobs in front are visited in order, those that keep their place stay in front of
the others, and the rest follows as it was. -/
lemma processLoop_order : ∀ {turns : Nat} {scripts : List (JobScript Call)}
    {kept rest tail : List JobId} {s s' : System fuel}, s.AllLawful → turns ≤ rest.length →
      s.jobIds = kept ++ (rest ++ tail) →
      processLoop turns scripts rest.head? s = some s' →
      s'.AllLawful ∧
      (processTurns turns scripts rest.head? s).map (·.id) = rest.take turns ∧
      ∃ tail', s'.jobIds = kept ++
        (((processTurns turns scripts rest.head? s).filter fun t => t.Keeps).map (·.id) ++
          (rest.drop turns ++ tail')) := by
  intro turns
  induction turns with
  | zero =>
    intro scripts kept rest tail s s' h _ order e
    unfold processLoop at e
    cases e
    refine ⟨h, ?_, tail, ?_⟩
    · simp [processTurns]
    · simpa [processTurns] using order
  | succ turns ih =>
    intro scripts kept rest tail s s' h le order e
    cases rest with
    | nil => exact absurd le (by simp)
    | cons id rest =>
      rw [List.head?_cons] at e ⊢
      cases scripts with
      | nil => cases e
      | cons script scripts =>
        rw [processLoop_succ] at e
        obtain ⟨⟨next, s₂⟩, e₁, e₂⟩ := Option.bind_eq_some_iff.mp e
        have walk : processTurns (turns + 1) (script :: scripts) (some id) s =
            ⟨s, id, script⟩ :: processTurns turns scripts next s₂ := by
          rw [processTurns, e₁]
        rw [walk]
        unfold System.turn at e₁
        simp only [Option.bind_eq_bind] at e₁
        obtain ⟨s₁, processed, e₁⟩ := Option.bind_eq_some_iff.mp e₁
        obtain ⟨s₂', settled, e₁⟩ := Option.bind_eq_some_iff.mp e₁
        cases e₁
        have t := turned h order processed settled
        have short : turns ≤ rest.length := by simpa using le
        have keeps : (⟨s, id, script⟩ : Turn fuel).Keeps ↔ s₁.Keeps id := by
          refine ⟨?_, fun hk => ⟨s₁, processed, hk⟩⟩
          rintro ⟨s₁', h₁, hk⟩
          rw [Option.some.inj (processed.symm.trans h₁)]
          exact hk
        -- the jobs in front of the walk after this turn
        obtain ⟨kept', tail', order₂, hkept⟩ : ∃ kept' tail',
            s₂.jobIds = kept' ++ (rest ++ tail') ∧
              kept' = kept ++ (if s₁.Keeps id then [id] else []) := by
          by_cases hk : s₁.Keeps id
          · obtain ⟨new, order₂⟩ := t.keeps hk
            exact ⟨kept ++ [id], tail ++ new, by simp [order₂], by rw [if_pos hk]⟩
          · obtain ⟨new, order₂⟩ := t.leaves hk
            exact ⟨kept, tail ++ new, by simp [order₂], by rw [if_neg hk, List.append_nil]⟩
        have on : turns = 0 ∨ s₁.nextJob id = rest.head? := by
          cases rest with
          | nil => exact .inl (Nat.le_zero.mp short)
          | cons id' rest =>
            obtain ⟨new, hnext⟩ := t.next
            exact .inr hnext
        have here : processLoop turns scripts rest.head? s₂ = some s' ∧
            processTurns turns scripts (s₁.nextJob id) s₂ =
              processTurns turns scripts rest.head? s₂ := by
          rcases on with rfl | hnext
          · unfold processLoop at e₂ ⊢
            exact ⟨e₂, by simp [processTurns]⟩
          · exact ⟨hnext ▸ e₂, by rw [hnext]⟩
        obtain ⟨lawful, ids, more, final⟩ := ih t.lawful short order₂ here.1
        rw [here.2]
        refine ⟨lawful, ?_, more, ?_⟩
        · rw [List.map_cons, ids, List.take_succ_cons]
        · rw [final, hkept, List.drop_succ_cons, List.append_assoc]
          by_cases hk : s₁.Keeps id
          · rw [if_pos hk, List.filter_cons_of_pos (by simpa using keeps.mpr hk)]
            rfl
          · rw [if_neg hk, List.filter_cons_of_neg (by simpa using fun h => hk (keeps.mp h))]
            rfl

lemma process_order (h : s.AllLawful) {scripts : List (JobScript Call)}
    (e : s.process scripts = some s') :
    s'.AllLawful ∧ s.visited scripts = s.jobIds.take s.jobsToProcess ∧
      ∃ tail, s'.jobIds = ((s.turnsOf scripts).filter fun t => t.Keeps).map (·.id) ++
        (s.jobIds.drop s.jobsToProcess ++ tail) := by
  have first : s.jobs.head?.map (·.id) = s.jobIds.head? := by
    unfold System.jobIds
    rw [List.head?_map]
  have short : s.jobsToProcess ≤ s.jobIds.length := by
    unfold System.jobsToProcess System.jobIds
    rw [List.length_map]
    split
    · exact min_le_left _ _
    · exact le_rfl
  have order : s.jobIds = [] ++ (s.jobIds ++ []) := by simp
  unfold System.visited System.turnsOf
  rw [first]
  refine processLoop_order h short order ?_
  rw [← first]
  exact e

def keeping (s : System fuel) (scripts : List (JobScript Call)) : Nat :=
  ((s.turnsOf scripts).filter fun t => t.Keeps).length

lemma idxOf_process (h : s.AllLawful) {scripts : List (JobScript Call)}
    (e : s.process scripts = some s') {before rest : List JobId}
    (order : s.jobIds = before ++ id :: rest) (behind : s.jobsToProcess ≤ before.length) :
    id ∈ s'.jobIds ∧
      s'.jobIds.idxOf id = s.keeping scripts + (before.length - s.jobsToProcess) := by
  obtain ⟨h', _, tail, order'⟩ := process_order h e
  have split : s.jobIds.drop s.jobsToProcess = before.drop s.jobsToProcess ++ id :: rest := by
    rw [order, List.drop_append_of_le_length behind]
  rw [split] at order'
  have place : s'.jobIds = (((s.turnsOf scripts).filter fun t => t.Keeps).map (·.id) ++
      before.drop s.jobsToProcess) ++ id :: (rest ++ tail) := by
    rw [order']
    simp
  have notIn : id ∉ ((s.turnsOf scripts).filter fun t => t.Keeps).map (·.id) ++
      before.drop s.jobsToProcess := by
    have nodup := h'.numbered.nodup
    rw [place] at nodup
    exact fun hm => (List.nodup_append.mp nodup).2.2 id hm id List.mem_cons_self rfl
  refine ⟨by rw [place]; simp, ?_⟩
  rw [place, List.idxOf_append_of_notMem notIn, List.idxOf_cons_self, Nat.add_zero,
    List.length_append, List.length_map, List.length_drop]
  rfl

lemma keeping_lt_iff (h : s.AllLawful) {scripts : List (JobScript Call)}
    (e : s.process scripts = some s') (limited : s.jobsToProcess < s.jobs.length) :
    s.keeping scripts < s.jobsToProcess ↔ s.Moves scripts := by
  have count : (s.turnsOf scripts).length = s.jobsToProcess := by
    have ids := congrArg List.length (process_order h e).2.1
    unfold System.visited System.jobIds at ids
    rw [List.length_map, List.length_take, List.length_map, min_eq_left limited.le] at ids
    exact ids
  have le : s.keeping scripts ≤ (s.turnsOf scripts).length := List.length_filter_le _ _
  rw [← count]
  refine ⟨fun lt _ => ?_, fun moves => ?_⟩
  · by_contra none
    have all : ∀ t ∈ s.turnsOf scripts, t.Keeps := by
      intro t ht
      by_contra hk
      exact none ⟨t, ht, hk⟩
    have : s.keeping scripts = (s.turnsOf scripts).length := by
      unfold System.keeping
      rw [List.filter_eq_self.mpr fun t ht => by simpa using all t ht]
    exact lt.ne this
  · obtain ⟨t, ht, hk⟩ := moves limited
    refine lt_of_le_of_ne le fun he => hk ?_
    have := List.length_filter_eq_length_iff.mp he t ht
    simpa using this

lemma behind_of_not_visited (h : s.AllLawful) {scripts : List (JobScript Call)}
    (e : s.process scripts = some s') (hin : id ∈ s.jobIds) (hv : id ∉ s.visited scripts) :
    ∃ before rest, s.jobIds = before ++ id :: rest ∧ s.jobIds.idxOf id = before.length ∧
      s.jobsToProcess ≤ before.length := by
  obtain ⟨before, rest, order⟩ := List.append_of_mem hin
  have notIn : id ∉ before := by
    have nodup := h.numbered.nodup
    rw [order] at nodup
    exact fun hm => (List.nodup_append.mp nodup).2.2 id hm id List.mem_cons_self rfl
  refine ⟨before, rest, order, ?_, ?_⟩
  · rw [order, List.idxOf_append_of_notMem notIn, List.idxOf_cons_self, Nat.add_zero]
  · by_contra lt
    apply hv
    rw [(process_order h e).2.1, order]
    obtain ⟨more, hmore⟩ := Nat.exists_eq_add_of_lt (not_le.mp lt)
    rw [List.take_append, hmore]
    simp [Nat.add_assoc]

lemma fairCall_iff (h : s.AllLawful) {scripts : List (JobScript Call)}
    (e : s.process scripts = some s') :
    FairCall s s' (s.visited scripts) ↔ s.Moves scripts := by
  have length : s.jobIds.length = s.jobs.length := List.length_map _
  refine ⟨fun fair limited => ?_, fun moves => ?_⟩
  · -- the first job behind the limit
    have hlt : s.jobsToProcess < s.jobIds.length := length ▸ limited
    have order : s.jobIds = s.jobIds.take s.jobsToProcess ++
        s.jobIds[s.jobsToProcess] :: s.jobIds.drop (s.jobsToProcess + 1) := by
      rw [List.getElem_cons_drop, List.take_append_drop]
    have unseen : s.jobIds[s.jobsToProcess] ∉ s.visited scripts := by
      rw [(process_order h e).2.1]
      have nodup := h.numbered.nodup
      rw [order] at nodup
      exact fun hm => (List.nodup_append.mp nodup).2.2 _ hm _ List.mem_cons_self rfl
    obtain ⟨_, nearer⟩ := fair.nearer _ (List.getElem_mem hlt) unseen
    have taken : (s.jobIds.take s.jobsToProcess).length = s.jobsToProcess := by
      rw [List.length_take, min_eq_left hlt.le]
    obtain ⟨_, place⟩ := idxOf_process h e order taken.ge
    rw [place, taken, Nat.sub_self, Nat.add_zero, List.Nodup.idxOf_getElem h.numbered.nodup] at nearer
    exact (keeping_lt_iff h e limited).mp nearer limited
  · have seen := (process_order h e).2.1
    refine ⟨?_, ?_, fun id hin hv => ?_⟩
    · rw [seen]
      exact h.numbered.nodup.sublist (List.take_sublist _ _)
    · rw [seen]
      exact List.take_prefix _ _
    · obtain ⟨before, rest, order, index, behind⟩ := behind_of_not_visited h e hin hv
      obtain ⟨still, place⟩ := idxOf_process h e order behind
      have limited : s.jobsToProcess < s.jobs.length := by
        rw [← length, order, List.length_append, List.length_cons]
        omega
      have few := (keeping_lt_iff h e limited).mpr moves
      refine ⟨still, ?_⟩
      rw [place, index]
      omega

/-- **Every job is visited**, by the time as many calls were made as the job was far from the head,
when every call moves the queue. -/
lemma visited_of_moves : ∀ {calls : List (List (JobScript Call))} {s s' : System fuel},
    s.AllLawful → run process s calls = some s' → Along process Moves s calls →
      ∀ id ∈ s.jobIds, s.jobIds.idxOf id < calls.length →
        ∃ before scripts s₁, before ++ [scripts] <+: calls ∧ run process s before = some s₁ ∧
          id ∈ s₁.visited scripts := by
  intro calls
  induction calls with
  | nil => exact fun _ _ _ id _ hlt => absurd hlt (Nat.not_lt_zero _)
  | cons scripts calls ih =>
    intro s s' h e along id hin hlt
    rw [run_cons] at e
    obtain ⟨s₁, e₁, e⟩ := Option.bind_eq_some_iff.mp e
    by_cases hv : id ∈ s.visited scripts
    · exact ⟨[], scripts, s, by simp, rfl, hv⟩
    · obtain ⟨still, nearer⟩ := ((fairCall_iff h e₁).mpr along.1).nearer id hin hv
      have h₁ := (process_order h e₁).1
      have close : s₁.jobIds.idxOf id < calls.length := by
        rw [List.length_cons] at hlt
        omega
      obtain ⟨before, turn, s₂, pre, run₂, seen⟩ := ih h₁ e (along.2 s₁ e₁) id still close
      refine ⟨scripts :: before, turn, s₂, ?_, ?_, seen⟩
      · rw [List.cons_append]
        exact List.cons_prefix_cons.mpr ⟨rfl, pre⟩
      · rw [run_cons, e₁, Option.bind_some, run₂]

lemma after_allLawful {maxRequestsPerUpdate : Nat} {events : List Event}
    (h : after fuel maxRequestsPerUpdate events = some s) : s.AllLawful :=
  run_invariant (fun _ _ _ lawful e => lawful.step e) (AllLawful.init maxRequestsPerUpdate) h

/-- **Fairness of the queue.** In every reachable state, one call of `process` visits a prefix of
the queue, and it is fair if and only if it visits all jobs or one of the visited jobs leaves its
place. When every call of a run does so, every job is visited. -/
theorem process_fair_iff (maxRequestsPerUpdate : Nat) (events : List Event) (s : System fuel)
    (reached : after fuel maxRequestsPerUpdate events = some s) :
    (∀ scripts s', s.process scripts = some s' →
      s.visited scripts = s.jobIds.take s.jobsToProcess ∧
        (FairCall s s' (s.visited scripts) ↔ s.Moves scripts)) ∧
    ∀ calls s', run process s calls = some s' → Along process Moves s calls →
      ∀ id ∈ s.jobIds, s.jobIds.idxOf id < calls.length →
        ∃ before scripts s₁, before ++ [scripts] <+: calls ∧ run process s before = some s₁ ∧
          id ∈ s₁.visited scripts := by
  have h := after_allLawful reached
  refine ⟨fun scripts s' e => ⟨(process_order h e).2.1, fairCall_iff h e⟩, ?_⟩
  exact fun calls s' e along => visited_of_moves h e along

/-- A turn in which the loader of a file reports `status`. -/
def answer (status : LoaderStatus) : JobScript Call := ⟨some [], [], true, [], status, none, []⟩

def twoLoads : List Event :=
  let load (path : Path) : Call :=
    .load ⟨.file, 1, none, some path, false, false, none, [], false⟩ ⟨0, true⟩ (answer .done)
  [.registerType ⟨true, 1, 4, 4, true⟩,
    .registerLoader ⟨true, 1, some ['x'], none, false, false, true, 0, 0, 0, 0, false, false⟩,
    .call (load ['a', '.', 'x']), .call (load ['b', '.', 'x'])]

/-- One job is processed in each call; the first is done at once, and the second call visits the
second. -/
theorem process_fair_twoLoads : ∃ s : System 8, after 8 1 twoLoads = some s ∧
    (∀ s' ∈ s.process [answer .done], FairCall s s' (s.visited [answer .done])) ∧
    ∃ before scripts s₁, before ++ [scripts] <+: [[answer .done], [answer .done]] ∧
      run process s before = some s₁ ∧ 1 ∈ s₁.visited scripts := by
  have ends : (after 8 1 twoLoads).isSome = true := by decide +kernel
  obtain ⟨s, hs⟩ := Option.isSome_iff_exists.mp ends
  have seen : ∀ s ∈ (after 8 1 twoLoads : Option (System 8)), s.Moves [answer .done] ∧
      (run process s [[answer .done], [answer .done]]).isSome = true ∧
      Along process Moves s [[answer .done], [answer .done]] ∧ s.jobIds = [0, 1] := by
    decide +kernel
  obtain ⟨moves, ends', along, ids⟩ := seen s hs
  obtain ⟨s', hs'⟩ := Option.isSome_iff_exists.mp ends'
  obtain ⟨one, many⟩ := process_fair_iff 1 twoLoads s hs
  refine ⟨s, hs, fun s₁ h₁ => (one _ s₁ h₁).2.mpr moves, ?_⟩
  exact many _ s' hs' along 1 (by rw [ids]; decide) (by rw [ids]; decide)

/-- A job that stays pending keeps the one behind the limit where it is. -/
theorem not_process_fair : ¬ ∀ s s' : System 8, after 8 1 twoLoads = some s →
    s.process [answer .pending] = some s' → FairCall s s' (s.visited [answer .pending]) := by
  intro law
  have ends : ((after 8 1 twoLoads : Option (System 8)).bind fun s =>
      s.process [answer .pending]).isSome = true := by decide +kernel
  obtain ⟨s', hs'⟩ := Option.isSome_iff_exists.mp ends
  obtain ⟨s, hs, hs'⟩ := Option.bind_eq_some_iff.mp hs'
  have seen : ∀ s ∈ (after 8 1 twoLoads : Option (System 8)), ∀ s' ∈ s.process [answer .pending],
      s.visited [answer .pending] = [0] ∧ s.jobIds = [0, 1] ∧ s'.jobIds = [0, 1] := by
    decide +kernel
  obtain ⟨visited, ids, ids'⟩ := seen s hs s' hs'
  have nearer := ((law s s' hs hs').nearer 1 (by rw [ids]; decide) (by rw [visited]; decide)).2
  rw [ids, ids'] at nearer
  exact lt_irrefl _ nearer

end System

end PulseEngine.Asset
