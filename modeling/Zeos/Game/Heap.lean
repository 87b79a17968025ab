import Zeos.Game.Path
import Zeos.Lib.Heap

/-! # Dig Dug: the path search's priority queue

`pq_push` and `pq_pop` of `game_logic.c` keep the live prefix `nodes[0 .. size)` a binary
min-heap on `cost`. The model's `costAt` and `swapNodes` are the library's `keyAt` and
`List.swap` on the heap's slots, so each bubbling loop keeps the library's invariant of its round,
and a run of pushes and pops from `pq_init` keeps the heap order. -/

namespace Zeos.Game

open Zeos.Lib

/-- The heap order of the queue, on the cost of each slot. -/
abbrev CostOrdered (ns : List DijkstraNode) : Prop := HeapOrdered DijkstraNode.cost .none ns

@[simp] theorem keyAt_cost (ns : List DijkstraNode) (i : Nat) :
    keyAt DijkstraNode.cost .none ns i = costAt ns i := rfl

theorem swapNodes_eq_swap {ns : List DijkstraNode} {i j : Nat} (hi : i < ns.length)
    (hj : j < ns.length) : swapNodes ns i j = ns.swap i j := by
  rw [List.swap_eq_of_lt hi hj]
  simp [swapNodes, List.getD_eq_getElem?_getD, hi, hj]

/-! ### Bubble-up -/

theorem pqBubbleUp_perm (fuel : Nat) (ns : List DijkstraNode) (i : Nat) (hi : i < ns.length) :
    (pqBubbleUp fuel ns i).Perm ns := by
  fun_induction pqBubbleUp fuel ns i with
  | case1 => rfl
  | case2 => rfl
  | case3 => rfl
  | case4 fuel ns i hi0 parent _ ih =>
    have hp : parent < i := heapParent_lt (Nat.pos_of_ne_zero hi0)
    rw [swapNodes_eq_swap hi (by omega)] at ih ⊢
    exact (ih (by rw [length_swap]; omega)).trans (List.swap_perm ns i parent)

/-- Bubble-up from a slot that breaks the order only upwards leaves the heap ordered; the
loop's index falls at every round, so its start is enough fuel. -/
theorem pqBubbleUp_ordered (fuel : Nat) (ns : List DijkstraNode) (i : Nat)
    (h : UpOrder DijkstraNode.cost .none ns i) (hi : i < ns.length) (hf : i ≤ fuel) :
    CostOrdered (pqBubbleUp fuel ns i) := by
  fun_induction pqBubbleUp fuel ns i with
  | case1 ns i =>
    exact h.finish (fun h0 => by omega)
  | case2 fuel ns =>
    exact h.finish (fun h0 => by omega)
  | case3 fuel ns i hi0 parent hge =>
    exact h.finish (fun _ => hge)
  | case4 fuel ns i hi0 parent hlt ih =>
    -- the slot changes place with its parent, which is nearer the root
    have hp : parent < i := heapParent_lt (Nat.pos_of_ne_zero hi0)
    rw [swapNodes_eq_swap hi (by omega)] at ih ⊢
    exact ih (h.swap (Nat.pos_of_ne_zero hi0) hi (lt_of_not_ge hlt))
      (by rw [length_swap]; omega) (by omega)

/-! ### Bubble-down -/

/-- The slot that a round of `pq_bubble_down` picks: `i` itself when no child is below it, and
otherwise the least child, which is below `i`. -/
theorem pqBubbleDown_pick (ns : List DijkstraNode) {i : Nat} (s1 s : Nat)
    (hs1 : s1 =
      if 2 * i + 1 < ns.length ∧ costAt ns (2 * i + 1) < costAt ns i then 2 * i + 1 else i)
    (hs : s =
      if 2 * i + 2 < ns.length ∧ costAt ns (2 * i + 2) < costAt ns s1 then 2 * i + 2 else s1) :
    (s = i ∧ ∀ c, 0 < c → c < ns.length → heapParent c = i → costAt ns i ≤ costAt ns c) ∨
      (s ≠ i ∧ 0 < s ∧ s < ns.length ∧ heapParent s = i ∧ costAt ns s < costAt ns i ∧
        ∀ c, 0 < c → c < ns.length → heapParent c = i → costAt ns s ≤ costAt ns c) := by
  subst hs hs1
  have hchild : ∀ c, 0 < c → heapParent c = i → c = 2 * i + 1 ∨ c = 2 * i + 2 :=
    fun c hc => (heapParent_eq_iff hc).mp
  have hl : heapParent (2 * i + 1) = i := (heapParent_eq_iff (by omega)).mpr (.inl rfl)
  have hr : heapParent (2 * i + 2) = i := (heapParent_eq_iff (by omega)).mpr (.inr rfl)
  split_ifs with h1 h2 h2
  · -- both children below `i`, the right one least
    refine .inr ⟨by omega, by omega, h2.1, hr, by omega, fun c hc hcl hpc => ?_⟩
    rcases hchild c hc hpc with rfl | rfl <;> omega
  · -- the left child least, and below `i`
    refine .inr ⟨by omega, by omega, h1.1, hl, h1.2, fun c hc hcl hpc => ?_⟩
    rcases hchild c hc hpc with rfl | rfl <;> omega
  · -- only the right child below `i`
    refine .inr ⟨by omega, by omega, h2.1, hr, h2.2, fun c hc hcl hpc => ?_⟩
    rcases hchild c hc hpc with rfl | rfl <;> omega
  · -- no child below `i`
    refine .inl ⟨rfl, fun c hc hcl hpc => ?_⟩
    rcases hchild c hc hpc with rfl | rfl <;> omega

theorem pqBubbleDown_perm (fuel : Nat) (ns : List DijkstraNode) (i : Nat) (hi : i < ns.length) :
    (pqBubbleDown fuel ns i).Perm ns := by
  fun_induction pqBubbleDown fuel ns i with
  | case1 => rfl
  | case2 => rfl
  | case3 fuel ns i left right s1 s hne ih =>
    obtain ⟨hs, _⟩ | ⟨_, _, hsl, _⟩ := pqBubbleDown_pick ns s1 s rfl rfl
    · exact absurd hs hne
    · rw [swapNodes_eq_swap hi hsl] at ih ⊢
      exact (ih (by rw [length_swap]; exact hsl)).trans (List.swap_perm ns i s)

/-- Bubble-down from a slot that breaks the order only downwards leaves the heap ordered; the
loop's index grows at every round, so the heap's size past it is enough fuel. -/
theorem pqBubbleDown_ordered (fuel : Nat) (ns : List DijkstraNode) (i : Nat)
    (h : DownOrder DijkstraNode.cost .none ns i) (hi : i < ns.length)
    (hf : ns.length ≤ fuel + i) : CostOrdered (pqBubbleDown fuel ns i) := by
  fun_induction pqBubbleDown fuel ns i with
  | case1 ns i => omega
  | case2 fuel ns i left right s1 s hs =>
    obtain ⟨_, hstop⟩ | ⟨hne, _⟩ := pqBubbleDown_pick ns s1 s rfl rfl
    · exact h.finish hstop
    · exact absurd hs hne
  | case3 fuel ns i left right s1 s hne ih =>
    obtain ⟨hs, _⟩ | ⟨_, hs0, hsl, hps, hlt, hmin⟩ :=
      pqBubbleDown_pick ns s1 s rfl rfl
    · exact absurd hs hne
    · -- the slot changes place with its least child, further from the root
      have hsi : i < s := hps ▸ heapParent_lt hs0
      rw [swapNodes_eq_swap hi hsl] at ih ⊢
      exact ih (h.swap hs0 hsl hps hlt hmin) (by rw [length_swap]; exact hsl)
        (by rw [length_swap]; omega)

/-! ### Push and pop -/

/-- `pq_push` below the capacity adds exactly the given node. -/
theorem pqPush_perm (pq : PriorityQueue) (pos : Position) (firstDir : Direction) (cost : Int)
    (h : pq.nodes.length < MAX_PRIORITY_QUEUE_SIZE) :
    (pqPush pq pos firstDir cost).nodes.Perm (pq.nodes ++ [⟨pos, firstDir, cost⟩]) := by
  have hnf : ¬pqFull pq = true := by
    simp only [pqFull, decide_eq_true_eq]
    omega
  rw [pqPush, if_neg hnf]
  exact pqBubbleUp_perm _ _ _ (by simp)

theorem pqPush_ordered (pq : PriorityQueue) (pos : Position) (firstDir : Direction) (cost : Int)
    (h : CostOrdered pq.nodes) : CostOrdered (pqPush pq pos firstDir cost).nodes := by
  unfold pqPush
  split
  · -- a full heap drops the node
    exact h
  · exact pqBubbleUp_ordered _ _ _ (h.upOrder_append _) (by simp) le_rfl

/-- `pq_pop` on two nodes or more: the last node moves to the root and bubbles down. -/
theorem pqPop_of_ne_nil (top : DijkstraNode) {rest : List DijkstraNode} (hr : rest ≠ []) :
    pqPop ⟨top :: rest⟩ =
      (top, ⟨pqBubbleDown rest.length (rest.getLast hr :: rest.dropLast) 0⟩) := by
  have hl : rest.dropLast.length + 1 = rest.length := by
    have := List.length_pos_iff.mpr hr
    rw [List.length_dropLast]
    omega
  simp only [pqPop, List.dropLast_cons_of_ne_nil hr, List.length_cons, hl,
    List.getLast?_eq_some_getLast hr, Option.getD_some, List.set_cons_zero]
  rw [if_pos (List.length_pos_iff.mpr hr)]

theorem pqPop_fst (top : DijkstraNode) (rest : List DijkstraNode) :
    (pqPop ⟨top :: rest⟩).1 = top := by
  by_cases hr : rest = []
  · subst hr
    rfl
  · rw [pqPop_of_ne_nil top hr]

/-- `pq_pop` removes exactly the node it returns. -/
theorem pqPop_perm (top : DijkstraNode) (rest : List DijkstraNode) :
    (top :: rest).Perm ((pqPop ⟨top :: rest⟩).1 :: (pqPop ⟨top :: rest⟩).2.nodes) := by
  by_cases hr : rest = []
  · subst hr
    rfl
  · rw [pqPop_of_ne_nil top hr]
    refine List.Perm.cons top ?_
    -- the last node, moved to the root, is the one the bubbling loop permutes
    have hlast : rest.Perm (rest.getLast hr :: rest.dropLast) := by
      conv_lhs => rw [← List.dropLast_append_getLast hr]
      exact List.perm_append_singleton _ _
    exact hlast.trans (pqBubbleDown_perm _ _ _ (by simp)).symm

theorem pqPop_ordered (pq : PriorityQueue) (h : CostOrdered pq.nodes) :
    CostOrdered (pqPop pq).2.nodes := by
  obtain ⟨_ | ⟨top, rest⟩⟩ := pq
  · exact h
  · by_cases hr : rest = []
    · subst hr
      exact h.dropLast
    · rw [pqPop_of_ne_nil top hr]
      -- the heap without its last node, with that node at the root
      have hdown := h.dropLast.downOrder_root (rest.getLast hr)
      rw [List.dropLast_cons_of_ne_nil hr, List.set_cons_zero] at hdown
      have hl := List.length_pos_iff.mpr hr
      exact pqBubbleDown_ordered _ _ _ hdown (by simp) (by simp; omega)

/-- The node `pq_pop` returns has the least cost of the heap. -/
theorem pqPop_le (top : DijkstraNode) (rest : List DijkstraNode)
    (h : CostOrdered (top :: rest)) :
    ∀ n ∈ top :: rest, (pqPop ⟨top :: rest⟩).1.cost ≤ n.cost := by
  intro n hn
  rw [pqPop_fst]
  exact h.root_le_of_mem hn

/-! ### Runs of pushes and pops -/

/-- The queues that `pq_init` and a sequence of `pq_push` and `pq_pop` leave. -/
inductive PqReachable : PriorityQueue → Prop
  | init : PqReachable ⟨[]⟩
  | push {pq : PriorityQueue} (pos : Position) (firstDir : Direction) (cost : Int) :
      PqReachable pq → PqReachable (pqPush pq pos firstDir cost)
  | pop {pq : PriorityQueue} : PqReachable pq → PqReachable (pqPop pq).2

theorem PqReachable.ordered {pq : PriorityQueue} (h : PqReachable pq) : CostOrdered pq.nodes := by
  induction h with
  | init => intro j _ hj; simp at hj
  | push pos firstDir cost _ ih => exact pqPush_ordered _ pos firstDir cost ih
  | pop _ ih => exact pqPop_ordered _ ih

theorem priority_queue_min_heap {pq : PriorityQueue} (h : PqReachable pq) :
    (∀ i, 0 < i → i < pq.nodes.length → costAt pq.nodes ((i - 1) / 2) ≤ costAt pq.nodes i) ∧
      (∀ pos firstDir cost, pq.nodes.length < MAX_PRIORITY_QUEUE_SIZE →
        (pqPush pq pos firstDir cost).nodes.Perm (pq.nodes ++ [⟨pos, firstDir, cost⟩])) ∧
      (pq.nodes ≠ [] → (∀ n ∈ pq.nodes, (pqPop pq).1.cost ≤ n.cost) ∧
        pq.nodes.Perm ((pqPop pq).1 :: (pqPop pq).2.nodes)) := by
  have ho := h.ordered
  refine ⟨ho, fun pos firstDir cost hl => pqPush_perm pq pos firstDir cost hl, fun hne => ?_⟩
  obtain ⟨_ | ⟨top, rest⟩⟩ := pq
  · exact absurd rfl hne
  · exact ⟨pqPop_le top rest ho, pqPop_perm top rest⟩

/-- Two pushes from `pq_init`: the pop answers the cheaper node. -/
theorem priority_queue_min_heap_two_pushes :
    PqReachable (pqPush (pqPush ⟨[]⟩ ⟨1, 1⟩ .DIR_UP 5) ⟨2, 1⟩ .DIR_DOWN 3) ∧
      ∀ n ∈ (pqPush (pqPush ⟨[]⟩ ⟨1, 1⟩ .DIR_UP 5) ⟨2, 1⟩ .DIR_DOWN 3).nodes,
        (pqPop (pqPush (pqPush ⟨[]⟩ ⟨1, 1⟩ .DIR_UP 5) ⟨2, 1⟩ .DIR_DOWN 3)).1.cost ≤ n.cost :=
  have hr := PqReachable.push ⟨2, 1⟩ .DIR_DOWN 3 (.push ⟨1, 1⟩ .DIR_UP 5 .init)
  ⟨hr, ((priority_queue_min_heap hr).2.2 (by decide)).1⟩

end Zeos.Game
