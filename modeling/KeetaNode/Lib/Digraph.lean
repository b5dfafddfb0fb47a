import KeetaNode.Lib.Loop

/-!
# Cycles and searches in directed graphs

A graph is a relation, or a function that lists the successors of a node. Two
searches are spelled out with the sets they keep: the work list that collects what
can be reached from a node, and the depth-first search that looks for a cycle with a
set of visited nodes and a set of nodes on the recursion stack.

## Main results

- `acc_of_acyclicFrom`: in a finite graph a node from which no cycle can be reached
  is accessible
- `mem_reachable_iff`: the work list collects exactly the reachable nodes
- `searchAll_eq_ok_iff`: the depth-first searches succeed exactly when there is no cycle
-/

namespace Digraph

open Relation

variable {α : Type}

/-! ## Cycles -/

/-- No node lies on a cycle. -/
def Acyclic (R : α → α → Prop) : Prop := ∀ a, ¬ TransGen R a a

/-- No node that can be reached from `a` lies on a cycle. -/
def AcyclicFrom (R : α → α → Prop) (a : α) : Prop := ∀ b, ReflTransGen R a b → ¬ TransGen R b b

variable {R : α → α → Prop} {a b : α}

theorem AcyclicFrom.next (h : AcyclicFrom R a) (hab : R a b) : AcyclicFrom R b :=
  fun c hbc => h c (ReflTransGen.head hab hbc)

/-- A cycle ahead stays ahead along some edge. -/
theorem exists_next_of_not_acyclicFrom (h : ¬ AcyclicFrom R a) :
    ∃ b, R a b ∧ ¬ AcyclicFrom R b := by
  simp only [AcyclicFrom, not_forall, not_not, exists_prop] at h
  obtain ⟨c, hac, hcycle⟩ := h
  rcases ReflTransGen.cases_head hac with rfl | ⟨b, hab, hbc⟩
  · -- `a` itself is on the cycle, and its successor leads back to it
    obtain ⟨b, hab, hba⟩ := TransGen.head'_iff.mp hcycle
    exact ⟨b, hab, fun h => h a hba hcycle⟩
  · exact ⟨b, hab, fun h => h c hbc hcycle⟩

theorem not_transGen_of_acc (h : Acc (flip R) a) : ¬ TransGen R a a := by
  induction h with
  | intro a _ ih =>
    intro hcycle
    obtain ⟨b, hab, hba⟩ := TransGen.head'_iff.mp hcycle
    exact ih b hab (TransGen.tail' hba hab)

/-- In a finite graph, a node from which no cycle can be reached is accessible. -/
theorem acc_of_acyclicFrom {nodes : Set α} (hfinite : nodes.Finite)
    (hnodes : ∀ a b, R a b → b ∈ nodes) (h : AcyclicFrom R a) : Acc (flip R) a := by
  -- the nodes reachable from `a` are finitely many, and ordered by reachability
  let reached := {b : α // ReflTransGen R a b}
  have hsub : {b | ReflTransGen R a b} ⊆ insert a nodes := by
    intro b hab
    rcases ReflTransGen.cases_tail hab with rfl | ⟨c, -, hcb⟩
    · exact Set.mem_insert _ _
    · exact Set.mem_insert_of_mem _ (hnodes c b hcb)
  have : Finite reached := ((hfinite.insert a).subset hsub).to_subtype
  -- on the nodes reached from here, which are finitely many, the paths are a strict order
  let below (x y : reached) : Prop := TransGen R y.1 x.1
  have : IsTrans reached below := ⟨fun _ _ _ hxy hyz => hyz.trans hxy⟩
  have : Std.Irrefl below := ⟨fun x hx => h x.1 x.2 hx⟩
  have hwf : WellFounded below := Finite.wellFounded_of_trans_of_irrefl below
  have hacc : ∀ x : reached, Acc (flip R) x.1 := by
    intro x
    induction x using hwf.induction with
    | _ x ih =>
      constructor
      intro c hxc
      exact ih ⟨c, x.2.tail hxc⟩ (TransGen.single hxc)
  exact hacc ⟨a, ReflTransGen.refl⟩

/-! ## Parts of a graph -/

/-- The edges between some of the nodes. -/
def Within (nodes : Set α) (R : α → α → Prop) (a b : α) : Prop := a ∈ nodes ∧ b ∈ nodes ∧ R a b

/-- A cycle only goes through nodes that have an incoming edge. -/
theorem acyclic_iff_within {nodes : Set α} (hnodes : ∀ a b, R a b → b ∈ nodes) :
    Acyclic R ↔ Acyclic (Within nodes R) := by
  constructor
  · exact fun h a hcycle => h a (hcycle.lift id fun _ _ hab => hab.2.2)
  · intro h a hcycle
    -- the first node of a cycle has an incoming edge as well, the last one
    have hpath : ∀ b, TransGen R a b → a ∈ nodes → TransGen (Within nodes R) a b := by
      intro b hab ha
      induction hab with
      | single hab => exact .single ⟨ha, hnodes _ _ hab, hab⟩
      | tail hac hcb ih =>
        obtain ⟨_, -, hc⟩ := TransGen.tail'_iff.mp hac
        exact ih.tail ⟨hnodes _ _ hc, hnodes _ _ hcb, hcb⟩
    obtain ⟨b, -, hba⟩ := TransGen.tail'_iff.mp hcycle
    exact h a (hpath a hcycle (hnodes b a hba))

/-- A cycle that one more node brings goes through that node. -/
theorem acyclic_within_insert {nodes : Set α} {c : α} :
    Acyclic (Within (insert c nodes) R) ↔
      Acyclic (Within nodes R) ∧ ¬ TransGen (Within (insert c nodes) R) c c := by
  constructor
  · intro h
    have hmono : ∀ a b, Within nodes R a b → Within (insert c nodes) R a b :=
      fun _ _ hab => ⟨.inr hab.1, .inr hab.2.1, hab.2.2⟩
    exact ⟨fun a hcycle => h a (hcycle.lift id hmono), h c⟩
  · rintro ⟨hrest, hc⟩ a hcycle
    -- a path stays within the old nodes, or it goes through the new one
    have hpath : ∀ b, TransGen (Within (insert c nodes) R) a b →
        (TransGen (Within nodes R) a b ∧ a ≠ c ∧ b ≠ c) ∨
          (ReflTransGen (Within (insert c nodes) R) a c ∧
            ReflTransGen (Within (insert c nodes) R) c b) := by
      intro b hab
      induction hab with
      | @single b hab =>
        by_cases ha : a = c
        · subst ha
          exact .inr ⟨.refl, .single hab⟩
        · by_cases hb : b = c
          · subst hb
            exact .inr ⟨.single hab, .refl⟩
          · exact .inl ⟨.single ⟨hab.1.resolve_left ha, hab.2.1.resolve_left hb, hab.2.2⟩, ha, hb⟩
      | @tail b d hab hbd ih =>
        rcases ih with ⟨hold, ha, hb⟩ | ⟨hac, hcb⟩
        · by_cases hd : d = c
          · subst hd
            exact .inr ⟨hab.to_reflTransGen.tail hbd, .refl⟩
          · exact .inl ⟨hold.tail ⟨hbd.1.resolve_left hb, hbd.2.1.resolve_left hd, hbd.2.2⟩, ha, hd⟩
        · exact .inr ⟨hac, hcb.tail hbd⟩
    rcases hpath a hcycle with ⟨hold, -, -⟩ | ⟨hac, hca⟩
    · exact hrest a hold
    · exact hc ((TransGen.trans_right hca hcycle).trans_left hac)

/-- A path from a node need not come back to it. -/
theorem reflTransGen_avoiding {S : α → α → Prop} (h : ReflTransGen S a b) :
    ReflTransGen (fun x y => y ≠ a ∧ S x y) a b := by
  induction h with
  | refl => exact .refl
  | @tail x y _ hxy ih =>
    by_cases hy : y = a
    · subst hy
      exact .refl
    · exact ih.tail ⟨hy, hxy⟩

/-! ## Work lists -/

section Reachable

variable [DecidableEq α] (neighbours : α → List α)

/-- What a work list keeps: the nodes still to visit (the last one pushed first), those
visited, and those found to be connected. -/
structure Frontier (α : Type) where
  toVisit : List α
  visited : List α
  connected : List α

/-- Visit one node: its neighbours are connected, and those not visited yet are pushed. -/
def reachStep (s : Frontier α) : Frontier α ⊕ List α :=
  match s.toVisit with
  | [] => .inr s.connected
  | current :: rest =>
    if current ∈ s.visited then .inl { s with toVisit := rest }
    else
      let visited := s.visited.insert current
      .inl {
        toVisit := ((neighbours current).filter (· ∉ visited)).reverse ++ rest
        visited
        connected := (neighbours current).foldl (fun set node => set.insert node) s.connected }

/-- A visit uses up a node of `nodes`, and pushes `bound` nodes at most. -/
def reachMeasure (nodes : List α) (bound : Nat) (s : Frontier α) : Nat :=
  (nodes.filter (· ∉ s.visited)).length * (bound + 1) + s.toVisit.length

/-- The nodes the work list finds from `a`. -/
def reachable (nodes : List α) (bound : Nat) (a : α) : List α :=
  ByteCodec.loop (reachStep neighbours) [] (reachMeasure nodes bound) ⟨[a], [], []⟩

variable {neighbours}

theorem mem_foldl_insert {items : List α} {set : List α} {x : α} :
    x ∈ items.foldl (fun set node => set.insert node) set ↔ x ∈ set ∨ x ∈ items := by
  induction items generalizing set with
  | nil => simp
  | cons item items ih =>
    simp only [List.foldl_cons, ih, List.mem_insert_iff, List.mem_cons]
    tauto

/-- What holds between two visits. -/
structure Frontier.Sound (neighbours : α → List α) (nodes : List α) (a : α) (s : Frontier α) :
    Prop where
  start : a ∈ s.visited ∨ a ∈ s.toVisit
  reached : ∀ x ∈ s.toVisit, x ∈ nodes ∧ ReflTransGen (fun x y => y ∈ neighbours x) a x
  connected : ∀ x ∈ s.connected, TransGen (fun x y => y ∈ neighbours x) a x
  closed : ∀ x ∈ s.visited, ∀ y ∈ neighbours x, y ∈ s.connected
  pending : ∀ x ∈ s.connected, x ∈ s.visited ∨ x ∈ s.toVisit

theorem filter_visited_lt {nodes visited : List α} {x : α} (hx : x ∈ nodes) (hnew : x ∉ visited) :
    (nodes.filter (· ∉ visited.insert x)).length < (nodes.filter (· ∉ visited)).length := by
  have hsub : (nodes.filter (· ∉ visited.insert x)) =
      (nodes.filter (· ∉ visited)).filter (· ≠ x) := by
    rw [List.filter_filter]
    apply List.filter_congr
    intro y _
    simp [List.mem_insert_iff]
  rw [hsub]
  apply List.length_filter_lt_length_iff_exists.mpr
  exact ⟨x, by simp [hx, hnew], by simp⟩

omit [DecidableEq α] in
/-- A node that was pushed twice is dropped. -/
theorem Frontier.Sound.skip {nodes rest visited connected : List α} {a current : α}
    (hs : Sound neighbours nodes a ⟨current :: rest, visited, connected⟩)
    (hvisited : current ∈ visited) : Sound neighbours nodes a ⟨rest, visited, connected⟩ := by
  obtain ⟨hstart, hreached, hconnected, hclosed, hpending⟩ := hs
  simp only [List.mem_cons, forall_eq_or_imp] at hstart hreached hpending
  refine ⟨?_, hreached.2, hconnected, hclosed, ?_⟩
  · rcases hstart with h | rfl | h
    exacts [.inl h, .inl hvisited, .inr h]
  · intro x hx
    rcases hpending x hx with h | rfl | h
    exacts [.inl h, .inl hvisited, .inr h]

/-- A node that is new is visited, and its neighbours are connected. -/
theorem Frontier.Sound.visit {nodes rest visited connected : List α} {a current : α}
    (hnodes : ∀ x, ∀ y ∈ neighbours x, y ∈ nodes)
    (hs : Sound neighbours nodes a ⟨current :: rest, visited, connected⟩) :
    Sound neighbours nodes a
      ⟨((neighbours current).filter (· ∉ visited.insert current)).reverse ++ rest,
        visited.insert current,
        (neighbours current).foldl (fun set node => set.insert node) connected⟩ := by
  obtain ⟨hstart, hreached, hconnected, hclosed, hpending⟩ := hs
  simp only [List.mem_cons, forall_eq_or_imp] at hstart hreached hpending
  constructor
  · simp only [List.mem_insert_iff, List.mem_append]
    tauto
  · intro x hx
    simp only [List.mem_append, List.mem_reverse, List.mem_filter] at hx
    rcases hx with ⟨hx, -⟩ | hx
    · exact ⟨hnodes current x hx, hreached.1.2.tail hx⟩
    · exact hreached.2 x hx
  · intro x hx
    rcases mem_foldl_insert.mp hx with hx | hx
    · exact hconnected x hx
    · exact TransGen.tail' hreached.1.2 hx
  · intro x hx y hy
    rw [mem_foldl_insert]
    rcases List.mem_insert_iff.mp hx with rfl | hx
    · exact .inr hy
    · exact .inl (hclosed x hx y hy)
  · intro x hx
    simp only [List.mem_insert_iff, List.mem_append, List.mem_reverse, List.mem_filter,
      decide_eq_true_eq]
    rcases mem_foldl_insert.mp hx with hx | hx
    · rcases hpending x hx with h | rfl | h
      exacts [.inl (.inr h), .inl (.inl rfl), .inr (.inr h)]
    · -- a neighbour is pushed unless it was visited before
      by_cases hold : x = current ∨ x ∈ visited
      · exact .inl hold
      · exact .inr (.inl ⟨hx, hold⟩)

theorem reachStep_sound {nodes : List α} {bound : Nat} {a : α}
    (hnodes : ∀ x, ∀ y ∈ neighbours x, y ∈ nodes) (hbound : ∀ x, (neighbours x).length ≤ bound)
    {s s' : Frontier α} (hs : s.Sound neighbours nodes a) (h : reachStep neighbours s = .inl s') :
    s'.Sound neighbours nodes a ∧
      reachMeasure nodes bound s' < reachMeasure nodes bound s := by
  obtain ⟨toVisit, visited, connected⟩ := s
  match toVisit with
  | [] => simp [reachStep] at h
  | current :: rest =>
    simp only [reachStep] at h
    split at h <;> rename_i hvisited <;> obtain rfl := Sum.inl.inj h
    · exact ⟨hs.skip hvisited, by simp [reachMeasure]⟩
    · refine ⟨hs.visit hnodes, ?_⟩
      -- one node less to visit pays for `bound` nodes more on the list
      have hlt := filter_visited_lt (hs.reached current List.mem_cons_self).1 hvisited
      have hpushed : ((neighbours current).filter (· ∉ visited.insert current)).length ≤ bound :=
        le_trans (List.length_filter_le _ _) (hbound current)
      have hmul := Nat.mul_le_mul_right (bound + 1) (Nat.succ_le_of_lt hlt)
      simp only [reachMeasure, List.length_append, List.length_reverse, List.length_cons]
      rw [Nat.succ_mul] at hmul
      omega

/-- The work list collects exactly the nodes at the end of a nonempty path from `a`. -/
theorem mem_reachable_iff {nodes : List α} {bound : Nat} {a x : α} (ha : a ∈ nodes)
    (hnodes : ∀ x, ∀ y ∈ neighbours x, y ∈ nodes) (hbound : ∀ x, (neighbours x).length ≤ bound) :
    x ∈ reachable neighbours nodes bound a ↔ TransGen (fun x y => y ∈ neighbours x) a x := by
  revert x
  apply ByteCodec.loop_rule (I := Frontier.Sound neighbours nodes a)
    (Q := fun found => ∀ {x}, x ∈ found ↔ TransGen (fun x y => y ∈ neighbours x) a x)
  · exact fun s s' hs h => reachStep_sound hnodes hbound hs h
  · intro s found hs h x
    obtain ⟨toVisit, visited, connected⟩ := s
    match toVisit with
    | current :: rest =>
      simp only [reachStep] at h
      split at h <;> simp at h
    | [] =>
      obtain rfl := Sum.inr.inj h
      refine ⟨hs.connected x, fun hpath => ?_⟩
      -- nothing is left to visit, so that every connected node has been visited
      have hvisited : ∀ y ∈ connected, y ∈ visited := by simpa using hs.pending
      induction hpath with
      | single hax => exact hs.closed a (by simpa using hs.start) _ hax
      | tail _ hyx ih => exact hs.closed _ (hvisited _ ih) _ hyx
  · exact ⟨by simp, by simp [ha, ReflTransGen.refl], by simp, by simp, by simp⟩

end Reachable

/-! ## Depth-first search -/

section Search

variable [DecidableEq α] {ε : Type} (found : ε) (successors : α → List α)

/-- What a depth-first search keeps: the nodes visited, and those on the recursion stack. -/
structure Marks (α : Type) where
  visited : List α
  recStack : List α

/-- Look for a cycle from `a`. The fuel bounds the depth of the recursion. -/
def search : Nat → α → Marks α → Except ε (Marks α)
  | 0, _, _ => .error found
  | fuel + 1, a, marks => do
    let marks ← (successors a).foldlM (fun marks b =>
        if b ∈ marks.recStack then .error found
        else if b ∈ marks.visited then .ok marks
        else search fuel b marks)
      ⟨marks.visited.insert a, marks.recStack.insert a⟩
    .ok { marks with recStack := marks.recStack.erase a }

/-- Look for a cycle from each of `nodes` that no earlier search has visited. -/
def searchAll (fuel : Nat) (nodes : List α) (marks : Marks α) : Except ε (Marks α) :=
  nodes.foldlM (fun marks a =>
    if a ∈ marks.visited then .ok marks else search found successors fuel a marks) marks

variable {found successors}

/-- The edges of a list of successors. -/
def Edge (successors : α → List α) (a b : α) : Prop := b ∈ successors a

/-- What holds between two recursive calls: every visited node that is off the stack has
been explored, and no cycle can be reached from it. -/
structure Marks.Sound (successors : α → List α) (marks : Marks α) : Prop where
  stacked : marks.recStack ⊆ marks.visited
  explored : ∀ x ∈ marks.visited, x ∉ marks.recStack → Acc (flip (Edge successors)) x

/-- The outcome of a search that visits `targets`: either there is a cycle, or the stack
is as it was and the targets have been visited and are off the stack. -/
def Outcome (found : ε) (successors : α → List α) (marks : Marks α) (targets : List α)
    (result : Except ε (Marks α)) : Prop :=
  (result = .error found ∧ ¬ Acyclic (Edge successors)) ∨
    ∃ visited, result = .ok ⟨visited, marks.recStack⟩ ∧ marks.visited ⊆ visited ∧
      (∀ b ∈ targets, b ∈ visited ∧ b ∉ marks.recStack) ∧
      Marks.Sound successors ⟨visited, marks.recStack⟩

/-- The nodes of `nodes` that are not visited yet. -/
def unvisited (nodes visited : List α) : Nat := (nodes.filter (· ∉ visited)).length

theorem unvisited_anti {nodes visited visited' : List α} (h : visited ⊆ visited') :
    unvisited nodes visited' ≤ unvisited nodes visited := by
  apply List.Sublist.length_le
  apply List.monotone_filter_right
  intro x hx
  simp only [decide_eq_true_eq] at hx ⊢
  exact fun hmem => hx (h hmem)

omit [DecidableEq α] in
/-- A node that was visited before. -/
theorem outcome_of_mem {marks : Marks α} {b : α} (hmarks : marks.Sound successors)
    (hvisited : b ∈ marks.visited) (hstack : b ∉ marks.recStack) :
    Outcome found successors marks [b] (.ok marks) :=
  .inr ⟨marks.visited, rfl, List.Subset.refl _, by simpa using ⟨hvisited, hstack⟩, hmarks⟩

omit [DecidableEq α] in
/-- A loop over nodes, given what its body does at each of them. -/
theorem foldlM_outcome {marks : Marks α} {body : Marks α → α → Except ε (Marks α)}
    {targets : List α} (hmarks : marks.Sound successors)
    (hbody : ∀ b ∈ targets, ∀ visited, marks.visited ⊆ visited →
      Marks.Sound successors ⟨visited, marks.recStack⟩ →
      Outcome found successors ⟨visited, marks.recStack⟩ [b] (body ⟨visited, marks.recStack⟩ b)) :
    Outcome found successors marks targets (targets.foldlM body marks) := by
  obtain ⟨visited, recStack⟩ := marks
  induction targets generalizing visited with
  | nil => exact .inr ⟨visited, rfl, List.Subset.refl _, by simp, hmarks⟩
  | cons b targets ih =>
    simp only [List.mem_cons, forall_eq_or_imp] at hbody
    rw [List.foldlM_cons]
    rcases hbody.1 visited (List.Subset.refl _) hmarks with
      ⟨herror, hcyclic⟩ | ⟨visited', hok, hsub, hb, hsound⟩
    · rw [herror]
      exact .inl ⟨rfl, hcyclic⟩
    · rw [hok]
      -- the rest of the targets meets the same stack and more visited nodes
      have hrest := ih visited' hsound fun c hc visited'' hsub' =>
        hbody.2 c hc visited'' (List.Subset.trans hsub hsub')
      rcases hrest with herror | ⟨visited'', hok', hsub', htargets, hsound'⟩
      · exact .inl herror
      · have hb' := hb b (List.mem_singleton_self b)
        exact .inr ⟨visited'', hok', List.Subset.trans hsub hsub',
          List.forall_mem_cons.mpr ⟨⟨hsub' hb'.1, hb'.2⟩, htargets⟩, hsound'⟩

/-- One search, from a node not visited before that every node on the stack leads to. -/
theorem search_outcome {nodes : List α} (hnodes : ∀ x, ∀ y ∈ successors x, y ∈ nodes) {fuel : Nat}
    {a : α} {marks : Marks α} (ha : a ∈ nodes) (hnew : a ∉ marks.visited)
    (hfuel : unvisited nodes marks.visited ≤ fuel)
    (hstack : ∀ x ∈ marks.recStack, ReflTransGen (Edge successors) x a)
    (hmarks : marks.Sound successors) :
    Outcome found successors marks [a] (search found successors fuel a marks) := by
  induction fuel generalizing a marks with
  | zero =>
    -- there is a node left to visit, so that there was fuel for it
    have := filter_visited_lt ha hnew
    simp only [unvisited] at hfuel
    omega
  | succ fuel ih =>
    obtain ⟨visited, recStack⟩ := marks
    have hnewStack : a ∉ recStack := fun h => hnew (hmarks.stacked h)
    have hfewer : unvisited nodes (visited.insert a) ≤ fuel :=
      Nat.le_of_lt_succ (lt_of_lt_of_le (filter_visited_lt ha hnew) hfuel)
    -- the node itself is not explored yet, but it is on the stack
    have hentered : Marks.Sound successors ⟨visited.insert a, recStack.insert a⟩ := by
      constructor
      · intro x hx
        simp only [List.mem_insert_iff] at hx ⊢
        exact hx.imp_right fun h => hmarks.stacked h
      · intro x hx hoff
        simp only [List.mem_insert_iff, not_or] at hx hoff
        exact hmarks.explored x (hx.resolve_left hoff.1) hoff.2
    have hleads : ∀ x ∈ recStack.insert a, ReflTransGen (Edge successors) x a := by
      intro x hx
      rcases List.mem_insert_iff.mp hx with rfl | hx
      · exact ReflTransGen.refl
      · exact hstack x hx
    have hloop : Outcome found successors ⟨visited.insert a, recStack.insert a⟩ (successors a)
        ((successors a).foldlM (fun marks b =>
          if b ∈ marks.recStack then .error found
          else if b ∈ marks.visited then .ok marks
          else search found successors fuel b marks) ⟨visited.insert a, recStack.insert a⟩) := by
      apply foldlM_outcome hentered
      intro b hb visited' hsub hsound
      dsimp only
      split
      case isTrue hb' =>
        -- the stack leads to `a`, so this successor closes a cycle
        exact .inl ⟨rfl, fun h => h b (TransGen.tail' (hleads b hb') hb)⟩
      case isFalse hoff =>
        split
        case isTrue hb' => exact outcome_of_mem hsound hb' hoff
        case isFalse hb' =>
          exact ih (hnodes a b hb) hb' (le_trans (unvisited_anti hsub) hfewer)
            (fun x hx => (hleads x hx).tail hb) hsound
    simp only [search]
    rcases hloop with ⟨herror, hcyclic⟩ | ⟨visited', hok, hsub, htargets, hsound⟩
    · rw [herror]
      exact .inl ⟨rfl, hcyclic⟩
    · rw [hok]
      -- leaving the node restores the stack
      have herase : (recStack.insert a).erase a = recStack := by
        simp [List.insert_of_not_mem hnewStack]
      refine .inr ⟨visited', by simp [bind, Except.bind, herase], ?_, ?_, ?_⟩
      · exact fun x hx => hsub (List.mem_insert_of_mem hx)
      · simpa [hnewStack] using hsub List.mem_insert_self
      · constructor
        · exact fun x hx => hsound.stacked (List.mem_insert_of_mem hx)
        · intro x hx hoff
          by_cases hxa : x = a
          · subst hxa
            -- every successor has been visited, and none of them is on the stack
            constructor
            intro b hb
            exact hsound.explored b (htargets b hb).1 (htargets b hb).2
          · exact hsound.explored x hx (by simp [List.mem_insert_iff, hxa, hoff])

/-- The searches from all nodes succeed exactly when the graph has no cycle. -/
theorem searchAll_eq_ok_iff {nodes : List α} (hnodes : ∀ x, ∀ y ∈ successors x, y ∈ nodes)
    {fuel : Nat} (hfuel : nodes.length ≤ fuel) :
    (∃ marks, searchAll found successors fuel nodes ⟨[], []⟩ = .ok marks) ↔
      Acyclic (Edge successors) := by
  have hloop : Outcome found successors ⟨[], []⟩ nodes
      (searchAll found successors fuel nodes ⟨[], []⟩) := by
    apply foldlM_outcome ⟨by simp, by simp⟩
    intro b hb visited _ hsound
    dsimp only
    split
    case isTrue hb' => exact outcome_of_mem hsound hb' (by simp)
    case isFalse hb' =>
      exact search_outcome hnodes hb hb' (le_trans (List.length_filter_le _ _) hfuel) (by simp)
        hsound
  rcases hloop with ⟨herror, hcyclic⟩ | ⟨visited, hok, -, hvisited, hsound⟩
  · simp [herror, hcyclic]
  · refine iff_of_true ⟨_, hok⟩ ?_
    intro a hcycle
    -- a node on a cycle is the successor of another one, so it has been explored
    obtain ⟨b, -, hba⟩ := TransGen.tail'_iff.mp hcycle
    have ha := (hvisited a (hnodes b a hba)).1
    exact not_transGen_of_acc (hsound.explored a ha (by simp)) hcycle

end Search

end Digraph
