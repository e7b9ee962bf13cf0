import CoolLang.Proofs.Automaton.Closing
import CoolLang.Proofs.Automaton.Exploration

/-!
The search with its queue explores the states. What comes after a set of items is what their symbols lead to
(`ItemSet.successors_eq`). The queue of a search holds the kernels that an exploration has not completed
(`Search.Follows`), and a step of the search completes the first of them; so the search ends, with the states of the
automaton under their numbers (`Search.exists_ends`).
-/

namespace CoolLang

variable {α κ β : Type}

/-- A loop leaves one value at most. -/
theorem Repeats.unique {round : β → β × Bool} {rounds others : Nat} {first last other : β}
    (repeats : Repeats round rounds first last) (repeats' : Repeats round others first other) : last = other := by
  induction repeats generalizing others with
  | stop still =>
      cases repeats' with
      | stop still' => exact (Prod.mk.inj (still.symm.trans still')).1
      | again grown _ => cases still.symm.trans grown
  | again grown _ ih =>
      cases repeats' with
      | stop still => cases still.symm.trans grown
      | again grown' repeats' =>
          cases grown.symm.trans grown'
          exact ih repeats'

/-! ### Lists without duplicates -/

theorem eraseDups_concat [DecidableEq κ] (keys : List κ) (key : κ) :
    (keys ++ [key]).eraseDups = if key ∈ keys then keys.eraseDups else keys.eraseDups ++ [key] := by
  rw [List.eraseDups_append]
  split
  · rename_i member
    rw [show [key].removeAll keys = [] from List.filter_eq_nil_iff.mpr (by simpa using member)]
    exact List.append_nil _
  · rename_i isNew
    rw [show [key].removeAll keys = [key] from List.filter_eq_self.mpr (by simpa using isNew)]
    rfl

theorem nodup_eraseDups [DecidableEq κ] (keys : List κ) : keys.eraseDups.Nodup := by
  induction keys using List.reverseRecOn with
  | nil => exact List.nodup_nil
  | append_singleton keys key ih =>
      rw [eraseDups_concat]
      split
      · exact ih
      · rename_i isNew
        exact ih.append (List.nodup_singleton key)
          (List.disjoint_singleton.mpr fun member => isNew (List.mem_eraseDups.mp member))

/-- Changing the value of one of several keys. -/
theorem Keyed.update_map [DecidableEq κ] {keys : List κ} (distinct : keys.Nodup) (values : κ → β) {key : κ}
    (member : key ∈ keys) (missing : β) (change : β → β) :
    Keyed.update key missing change (keys.map fun known => (known, values known)) =
      keys.map fun known => (known, if known = key then change (values known) else values known) := by
  induction keys with
  | nil => cases member
  | cons first keys ih =>
      obtain ⟨isNew, distinct⟩ := List.nodup_cons.mp distinct
      rw [List.map_cons, Keyed.update]
      split
      · rename_i same
        cases same
        have others : (keys.map fun known => (known, values known)) =
            keys.map fun known => (known, if known = first then change (values known) else values known) :=
          List.map_congr_left fun known isKnown =>
            congrArg (Prod.mk known) (if_neg fun same : known = first => isNew (same ▸ isKnown)).symm
        rw [List.map_cons, if_pos rfl, others]
      · rename_i different
        have member := (List.mem_cons.mp member).resolve_left (Ne.symm different)
        rw [ih distinct member, List.map_cons, if_neg different]

/-- A value is found under the place where it first stands. -/
theorem map_snd_find?_zipIdx (values : List β) (test : β → Bool) (first : Nat) :
    ((values.zipIdx first).find? fun entry => test entry.1).map Prod.snd =
      (values.findIdx? test).map (first + ·) := by
  induction values generalizing first with
  | nil => rfl
  | cons value values ih =>
      rw [List.zipIdx_cons, List.find?_cons, List.findIdx?_cons]
      cases isValue : test value with
      | true => rfl
      | false =>
          simp only [Bool.false_eq_true, if_false, ih, Option.map_map]
          congr 1
          funext place
          simp only [Function.comp_apply]
          omega

/-! ### Successors -/

namespace ItemSet

variable {grammar : Grammar α} {items kernel : ItemSet}

/-- An item that comes after all others is put at the end. -/
theorem absorb_last {item : Item} {lookaheads : TerminalSet} (isLast : ∀ entry ∈ kernel, entry.1.Before item) :
    (kernel.absorb item lookaheads).1 = kernel ++ [(item, lookaheads)] := by
  induction kernel with
  | nil =>
      refine congrArg (fun set => [(item, set)]) ?_
      ext terminal
      simp
  | cons first kernel ih =>
      have isBefore := isLast first List.mem_cons_self
      have different : first.1 ≠ item := fun same => by
        rw [same] at isBefore
        exact isBefore.asymm isBefore
      have notBefore : ¬item.isBefore first.1 = true := fun after => isBefore.asymm (Item.isBefore_iff.mp after)
      rw [absorb, if_neg different, if_neg notBefore]
      exact congrArg (first :: ·) (ih fun entry member => isLast entry (List.mem_cons_of_mem _ member))

theorem Item.Before.advance {first second : Item} (before : first.Before second) :
    first.advance.Before second.advance := by
  simp only [Item.Before, Item.advance, RuleId] at before ⊢
  omega

theorem advanceOver_concat (items : ItemSet) (entry : Item × TerminalSet) (symbol : Symbol) :
    advanceOver grammar (items ++ [entry]) symbol = items.advanceOver grammar symbol ++
      if entry.1.next? grammar = some symbol then [(entry.1.advance, entry.2)] else [] := by
  unfold advanceOver
  rw [List.filterMap_append]
  refine congrArg _ ?_
  split
  · rename_i isNext
    simp [isNext]
  · rename_i notNext
    simp [notNext]

theorem advanceOver_eq_nil {symbol : Symbol}
    (isNew : symbol ∉ items.filterMap fun entry => entry.1.next? grammar) :
    items.advanceOver grammar symbol = [] := by
  refine List.eq_nil_iff_forall_not_mem.mpr fun entry member => isNew ?_
  obtain ⟨item, inItems, isNext, _⟩ := mem_advanceOver.mp member
  exact List.mem_filterMap.mpr ⟨_, inItems, isNext⟩

/-- Of ordered items, the last one comes last in the kernel after its symbol. -/
theorem absorb_advance {entry : Item × TerminalSet} {symbol : Symbol} (isNext : entry.1.next? grammar = some symbol)
    (isLast : ∀ before ∈ items, before.1.Before entry.1) :
    ((items.advanceOver grammar symbol).absorb entry.1.advance entry.2).1 =
      advanceOver grammar (items ++ [entry]) symbol := by
  rw [advanceOver_concat, isNext, if_pos rfl]
  refine absorb_last fun before member => ?_
  obtain ⟨item, inItems, _, isAdvanced⟩ := mem_advanceOver.mp member
  rw [isAdvanced]
  exact Item.Before.advance (isLast _ inItems)

/-- After ordered items there are the kernels that the symbols after their markers lead to. -/
theorem successors_eq (ordered : items.Ordered) : items.successors grammar =
    (items.nextSymbols grammar).map fun symbol => (symbol, items.advanceOver grammar symbol) := by
  induction items using List.reverseRecOn with
  | nil => rfl
  | append_singleton items entry ih =>
      obtain ⟨ordered, -, isLast⟩ := List.pairwise_append.mp ordered
      have known := ih ordered
      unfold successors nextSymbols at known ⊢
      rw [List.foldl_append, known, List.foldl_cons, List.foldl_nil, List.filterMap_append]
      cases isNext : entry.1.next? grammar with
      | none =>
          rw [show [entry].filterMap (fun entry => entry.1.next? grammar) = [] by simp [isNext], List.append_nil]
          refine List.map_congr_left fun symbol _ => congrArg (Prod.mk symbol) ?_
          rw [advanceOver_concat, isNext, if_neg (by simp), List.append_nil]
      | some symbol =>
          have absorbed := absorb_advance isNext fun before member => isLast before member entry List.mem_cons_self
          have unchanged {other : Symbol} (different : other ≠ symbol) :
              advanceOver grammar (items ++ [entry]) other = advanceOver grammar items other := by
            rw [advanceOver_concat, isNext, if_neg fun same => different (Option.some.inj same).symm, List.append_nil]
          rw [show [entry].filterMap (fun entry => entry.1.next? grammar) = [symbol] by simp [isNext], eraseDups_concat]
          dsimp only
          split
          · rename_i isKnown
            rw [Keyed.update_map (nodup_eraseDups _) (fun symbol => advanceOver grammar items symbol)
              (List.mem_eraseDups.mpr isKnown)]
            refine List.map_congr_left fun other _ => congrArg (Prod.mk other) ?_
            split
            · rename_i same
              rw [same, absorbed]
            · rename_i different
              exact (unchanged different).symm
          · rename_i isNew
            rw [Keyed.update_of_forall_ne, List.map_append, List.map_singleton, ← absorbed, advanceOver_eq_nil isNew]
            · refine congrArg (· ++ _) (List.map_congr_left fun other member => congrArg (Prod.mk other) ?_)
              refine (unchanged fun same => isNew ?_).symm
              exact same ▸ List.mem_eraseDups.mp member
            · intro successor member same
              obtain ⟨other, isOther, rfl⟩ := List.mem_map.mp member
              exact isNew (same ▸ List.mem_eraseDups.mp isOther)

theorem nodup_nextSymbols (grammar : Grammar α) (items : ItemSet) : (items.nextSymbols grammar).Nodup :=
  nodup_eraseDups _

end ItemSet

/-! ### The queue -/

/-- The states under their numbers. -/
def Automaton.contents (automaton : Automaton) : Keyed StateId StateContent :=
  automaton.states.toList.zipIdx.map fun entry => (entry.2, (entry.1.items, entry.1.transitions))

theorem Automaton.contents_push (states : Array State) (state : State) :
    contents ⟨states.push state⟩ = contents ⟨states⟩ ++ [(states.size, (state.items, state.transitions))] := by
  rw [contents, Array.toList_push, List.zipIdx_append, List.map_append, Nat.zero_add, Array.length_toList]
  rfl

namespace Search

variable {grammar : Grammar α} {firsts : FirstSets} {search last : Search} {kernels : Array ItemSet}
  {exploration : Exploration} {completed : Nat}

/-- Whether a search knows kernels under their numbers and holds those from a number on in its queue. -/
structure Knows (search : Search) (kernels : Array ItemSet) (completed : Nat) : Prop where
  numbers : search.numbers = kernels.toList.zipIdx
  pending : search.pending = (kernels.toList.zipIdx.drop completed).map Prod.swap
  discovered : completed ≤ kernels.size

theorem Knows.numberOf (knows : search.Knows kernels completed) (kernel : ItemSet) :
    (search.numberOf kernel).1 = (Exploration.numberOf kernels kernel).1 ∧
      (search.numberOf kernel).2.Knows (Exploration.numberOf kernels kernel).2 completed ∧
      (search.numberOf kernel).2.states = search.states := by
  have found := map_snd_find?_zipIdx kernels.toList (· == kernel) 0
  rw [← List.findIdx?_toArray, Array.toArray_toList, ← knows.numbers] at found
  unfold Search.numberOf Exploration.numberOf
  cases isKnown : kernels.findIdx? fun known => known == kernel with
  | some number =>
      rw [isKnown, Option.map_some, Nat.zero_add] at found
      obtain ⟨entry, isFound, same⟩ := Option.map_eq_some_iff.mp found
      rw [isFound]
      exact ⟨same, knows, rfl⟩
  | none =>
      rw [isKnown, Option.map_none, Option.map_eq_none_iff] at found
      have count : search.numbers.length = kernels.size := by
        rw [knows.numbers, List.length_zipIdx, Array.length_toList]
      have pushed : (kernels.push kernel).toList.zipIdx = kernels.toList.zipIdx ++ [(kernel, kernels.size)] := by
        rw [Array.toList_push, List.zipIdx_append, Nat.zero_add, Array.length_toList]
        rfl
      rw [found]
      refine ⟨count, ⟨?_, ?_, Nat.le_trans knows.discovered (Nat.le_of_lt (by simp))⟩, rfl⟩
      · have isNew : ∀ entry ∈ search.numbers, entry.1 ≠ kernel := fun entry member same =>
          absurd (beq_iff_eq.mpr same) (List.find?_eq_none.mp found entry member)
        rw [pushed, ← knows.numbers, ← count]
        exact Keyed.insert_of_forall_ne _ isNew
      · rw [pushed, List.drop_append_of_le_length (by simpa using knows.discovered), List.map_append,
          ← knows.pending, ← count]
        rfl

/-- Connecting kernels over different symbols. -/
theorem Knows.connect (grammar : Grammar α) (items : ItemSet) {symbols : List Symbol} (distinct : symbols.Nodup)
    (transitions : Keyed Symbol StateId) (areNew : ∀ entry ∈ transitions, entry.1 ∉ symbols)
    (knows : search.Knows kernels completed) :
    let connected := (symbols.map fun symbol => (symbol, items.advanceOver grammar symbol)).foldl connectOne
      (transitions, search)
    connected.1 = transitions ++ (Exploration.connect grammar items symbols kernels).1 ∧
      connected.2.Knows (Exploration.connect grammar items symbols kernels).2 completed ∧
      connected.2.states = search.states := by
  induction symbols generalizing transitions search kernels with
  | nil => exact ⟨(List.append_nil _).symm, knows, rfl⟩
  | cons symbol symbols ih =>
      obtain ⟨isNew, distinct⟩ := List.nodup_cons.mp distinct
      obtain ⟨number, numbered, states⟩ := knows.numberOf (items.advanceOver grammar symbol)
      have inserted : transitions.insert symbol (search.numberOf (items.advanceOver grammar symbol)).1 =
          transitions ++ [(symbol, (Exploration.numberOf kernels (items.advanceOver grammar symbol)).1)] := by
        rw [number]
        exact Keyed.insert_of_forall_ne _ fun entry member same => areNew entry member (same ▸ List.mem_cons_self)
      obtain ⟨rest, knows, states'⟩ := ih distinct
        (transitions ++ [(symbol, (Exploration.numberOf kernels (items.advanceOver grammar symbol)).1)])
        (fun entry member => by
          rcases List.mem_append.mp member with old | new
          · exact fun inSymbols => areNew entry old (List.mem_cons_of_mem _ inSymbols)
          · rw [List.mem_singleton.mp new]
            exact isNew) numbered
      rw [Exploration.connect_cons, List.map_cons, List.foldl_cons]
      unfold connectOne
      dsimp only
      rw [inserted]
      refine ⟨?_, knows, states'.trans states⟩
      rw [List.append_assoc] at rest
      exact rest

/-- Whether a search has done what an exploration has done. -/
structure Follows (search : Search) (exploration : Exploration) : Prop where
  knows : search.Knows exploration.kernels exploration.completed.size
  states : search.states = Automaton.contents ⟨exploration.completed⟩

theorem Follows.initial : Search.initial.Follows .initial :=
  ⟨⟨rfl, rfl, Nat.zero_le _⟩, rfl⟩

/-- Completing the first state in the queue completes the next one of the exploration. -/
theorem Follows.complete (follows : search.Follows exploration) (regular : exploration.Regular grammar firsts)
    (wellFormed : grammar.WellFormed) {kernel : ItemSet}
    (isNext : exploration.kernels[exploration.completed.size]? = some kernel) : ∃ pending,
      search.pending = (exploration.completed.size, kernel) :: pending ∧
        ({ search with pending }.complete grammar exploration.completed.size
          (kernel.closure grammar firsts)).Follows (exploration.complete grammar firsts kernel) := by
  obtain ⟨inRange, isKernel⟩ := Array.getElem?_eq_some_iff.mp isNext
  have inQueue : exploration.completed.size < exploration.kernels.toList.zipIdx.length := by
    rwa [List.length_zipIdx, Array.length_toList]
  have isPending := follows.knows.pending
  rw [List.drop_eq_getElem_cons inQueue, List.map_cons, List.getElem_zipIdx, Array.getElem_toList, isKernel,
    Nat.zero_add] at isPending
  refine ⟨_, isPending, ?_⟩
  have knows : Knows { search with
      pending := (exploration.kernels.toList.zipIdx.drop (exploration.completed.size + 1)).map Prod.swap }
      exploration.kernels (exploration.completed.size + 1) := ⟨follows.knows.numbers, rfl, inRange⟩
  have ordered : (kernel.closure grammar firsts).Ordered :=
    (regular.regular kernel (Array.mem_of_getElem? isNext)).closure_ordered wellFormed
  obtain ⟨transitions, knows, states⟩ := knows.connect grammar (kernel.closure grammar firsts)
    (ItemSet.nodup_nextSymbols grammar _) [] (by intro entry member; cases member)
  rw [← ItemSet.successors_eq ordered] at transitions knows states
  refine ⟨⟨knows.numbers, ?_, ?_⟩, ?_⟩
  · rw [Exploration.complete, Array.size_push]
    exact knows.pending
  · rw [Exploration.complete, Array.size_push]
    exact knows.discovered
  · have isNew : ∀ entry ∈ Automaton.contents ⟨exploration.completed⟩,
        entry.1 ≠ exploration.completed.size := by
      intro entry member
      obtain ⟨⟨state, number⟩, isState, rfl⟩ := List.mem_map.mp member
      obtain ⟨known, _⟩ := List.getElem?_eq_some_iff.mp (List.mem_zipIdx_iff_getElem?.mp isState)
      exact Nat.ne_of_lt (Array.length_toList ▸ known)
    refine (congrArg (Keyed.insert _ _) (states.trans follows.states)).trans ?_
    rw [Keyed.insert_of_forall_ne _ isNew, transitions]
    exact (Automaton.contents_push exploration.completed ⟨kernel, kernel.closure grammar firsts,
      (Exploration.connect grammar _ _ exploration.kernels).1⟩).symm

/-- Where an exploration goes on until it has completed all kernels, the search ends with the same states. -/
theorem Follows.exists_ends (follows : search.Follows exploration) (regular : exploration.Regular grammar firsts)
    (wellFormed : grammar.WellFormed) (sizedFirsts : firsts.Sized grammar) (states : Nat)
    (enough : Automaton.stateLimit grammar ≤ exploration.completed.size + states) :
    ∃ steps last, Ends grammar firsts steps search last ∧ last.Follows (exploration.run grammar firsts states) := by
  -- a search that follows an exploration without kernels to complete is done
  have isDone {search : Search} {exploration : Exploration} (follows : search.Follows exploration)
      (all : exploration.kernels.size ≤ exploration.completed.size) : search.pending = [] := by
    rw [follows.knows.pending, List.drop_eq_nil_of_le, List.map_nil]
    rwa [List.length_zipIdx, Array.length_toList]
  induction states generalizing search exploration with
  | zero =>
      have few : exploration.kernels.size ≤ Automaton.stateLimit grammar := by
        rw [← Array.length_toList]
        exact ItemSet.length_le_stateLimit regular.distinct fun kernel member =>
          regular.regular kernel (Array.mem_toList_iff.mp member)
      exact ⟨0, search, .stop (isDone follows (Nat.le_trans few enough)), follows⟩
  | succ states ih =>
      unfold Exploration.run
      split
      · rename_i finished
        exact ⟨0, search, .stop (isDone follows (Array.getElem?_eq_none_iff.mp finished)), follows⟩
      · rename_i kernel isNext
        obtain ⟨pending, isPending, follows⟩ := follows.complete regular wellFormed isNext
        obtain ⟨rounds, closes⟩ :=
          (regular.regular kernel (Array.mem_of_getElem? isNext)).repeats_closure wellFormed sizedFirsts
        obtain ⟨steps, last, ends, follows⟩ := ih follows (regular.complete_next wellFormed sizedFirsts isNext) (by
          simp only [Exploration.complete, Array.size_push]
          omega)
        exact ⟨steps + 1, last, .next isPending closes ends, follows⟩

/-- The search ends, with the states of the automaton under their numbers. -/
theorem exists_ends (wellFormed : grammar.WellFormed) (sizedFirsts : firsts.Sized grammar) :
    ∃ steps last, Ends grammar firsts steps initial last ∧
      last.result = (Automaton.generate grammar firsts).contents := by
  obtain ⟨steps, last, ends, follows⟩ := Follows.initial.exists_ends (.start wellFormed) wellFormed
    sizedFirsts (Automaton.stateLimit grammar) (Nat.le_add_left _ _)
  refine ⟨steps, last, ends, ?_⟩
  rw [result, follows.states]
  refine List.mergeSort_of_pairwise (List.pairwise_map.mpr ?_)
  have ascending : (Automaton.generate grammar firsts).states.toList.zipIdx.Pairwise
      fun first second => first.2 < second.2 := by
    apply List.pairwise_map.mp
    rw [List.zipIdx_map_snd]
    exact List.pairwise_lt_range'
  exact ascending.imp fun before => decide_eq_true (Nat.le_of_lt before)

/-- The loop leaves one search at most. -/
theorem Ends.unique {steps others : Nat} {first other : Search} (ends : Ends grammar firsts steps first last)
    (ends' : Ends grammar firsts others first other) : last = other := by
  induction ends generalizing others with
  | stop isDone =>
      cases ends' with
      | stop _ => rfl
      | next isNext _ _ => cases isDone.symm.trans isNext
  | next isNext closes _ ih =>
      cases ends' with
      | stop isDone => cases isDone.symm.trans isNext
      | next isNext' closes' ends' =>
          cases isNext.symm.trans isNext'
          cases closes.unique closes'
          exact ih ends'

end Search

end CoolLang
