import SetFormula.Proofs.Allocation
import SetFormula.Proofs.Loop

/-!
# The order of the walk

A walk keeps the trees still to visit on a stack, the next one on top, and puts the children of the
node that it visits there, the first one on top. `Walker` is such a walk under way, and its steps are
repeated by `StateTransition.eval`, without a bound. This ends because every visit takes one node off
the stack for good, and the nodes visited are then those that `walk` lists (`eval_walker`): at every
moment the nodes visited and the walks of the trees on the stack, from the top down, make up the
whole list.

In what order, and how often, the subtrees are visited is said by paths. `subtree?` follows a path of
child numbers from the root. The paths of a tree, in lexicographic order, lead to the nodes of the
walk one after the other (`map_subtree?_paths`), and these are all paths that there are
(`mem_paths`). So no occurrence of a subtree is visited twice or left out, and the variables that are
met are those that the tree mentions anywhere (`mem_occurrences_iff_mentions`).
-/

namespace SetFormula.Expr

theorem walk_eq_cons (e : Expr) : e.walk = e :: e.children.flatMap walk := by
  rw [funext walk_eq_preorder, ← preorder_eq_cons]

/-! ## The stack -/

/-- A walk under way: the trees still to visit, the next one last, and the nodes visited so far. -/
structure Walker where
  stack : List Expr
  visited : List Expr

namespace Walker

/-- Visit the tree on top of the stack, and put its children in its place. The last child comes
first, so that the first child is on top. -/
def step (w : Walker) : Option Walker :=
  w.stack.getLast?.map fun e => ⟨w.stack.dropLast ++ e.children.reverse, w.visited ++ [e]⟩

theorem step_eq_some {w w' : Walker} (h : w.step = some w') :
    ∃ stack e, w.stack = stack ++ [e] ∧ w' = ⟨stack ++ e.children.reverse, w.visited ++ [e]⟩ := by
  obtain ⟨e, he, rfl⟩ := Option.map_eq_some_iff.1 h
  obtain ⟨stack, hstack⟩ := List.getLast?_eq_some_iff.1 he
  refine ⟨stack, e, hstack, ?_⟩
  rw [hstack, List.dropLast_concat]

theorem step_eq_none {w : Walker} : w.step = none ↔ w.stack = [] := by
  rw [step, Option.map_eq_none_iff, List.getLast?_eq_none_iff]

/-- The nodes of the whole walk are those visited, and those of the trees on the stack from the top
down. -/
def Inv (nodes : List Expr) (w : Walker) : Prop :=
  w.visited ++ w.stack.reverse.flatMap walk = nodes

theorem Inv.step {nodes : List Expr} {w w' : Walker} (h : Inv nodes w) (hstep : w.step = some w') :
    Inv nodes w' ∧ (w'.stack.map size).sum < (w.stack.map size).sum := by
  obtain ⟨stack, e, hstack, rfl⟩ := step_eq_some hstep
  constructor
  · rw [Inv, hstack] at h
    rw [Inv, ← h]
    simp [walk_eq_cons e]
  · have hsize := e.size_eq_succ
    rw [hstack]
    simp only [List.map_append, List.map_reverse, List.sum_append, List.sum_reverse, List.map_cons,
      List.map_nil, List.sum_cons, List.sum_nil]
    omega

end Walker

theorem eval_walker (e : Expr) :
    StateTransition.eval Walker.step ⟨[e], []⟩ = Part.some ⟨[], e.walk⟩ := by
  obtain ⟨⟨stack, visited⟩, hends, hinv, hstop⟩ := eval_of_invariant Walker.step
    (Walker.Inv e.walk) (fun w => (w.stack.map size).sum) (fun _ _ => Walker.Inv.step) ⟨[e], []⟩
    (by simp [Walker.Inv])
  obtain rfl : stack = [] := Walker.step_eq_none.1 hstop
  obtain rfl : visited = e.walk := by simpa [Walker.Inv] using hinv
  exact hends

/-! ## Paths -/

/-- The subtree that a path leads to. A path is made of the numbers of the children to go to. -/
def subtree? (e : Expr) : List Nat → Option Expr
  | [] => some e
  | i :: path => e.children[i]?.bind fun a => a.subtree? path

/-- The paths of all subtrees: that of the tree itself, and then those through each child. -/
def paths : Expr → List (List Nat)
  | var _ | constant _ => [[]]
  | relation _ a b | connective _ a b | binary _ a b =>
    [] :: (a.paths.map (0 :: ·) ++ b.paths.map (1 :: ·))
  | negation a | unary _ a => [] :: a.paths.map (0 :: ·)
  | quantified _ _ a => [] :: [0] :: a.paths.map (1 :: ·)
  | comprehension _ s a =>
    [] :: [0] :: [0, 0] :: (s.paths.map (0 :: 1 :: ·) ++ a.paths.map (1 :: ·))

theorem paths_eq_cons (e : Expr) :
    e.paths = [] :: e.children.zipIdx.flatMap fun p => p.1.paths.map (p.2 :: ·) := by
  cases e <;> simp [paths, children]

theorem mem_paths {e : Expr} {path : List Nat} : path ∈ e.paths ↔ (e.subtree? path).isSome := by
  induction path generalizing e with
  | nil =>
    rw [paths_eq_cons]
    simp [subtree?]
  | cons i path ih =>
    rw [paths_eq_cons, subtree?, List.mem_cons, List.mem_flatMap]
    simp only [reduceCtorEq, false_or]
    constructor
    · rintro ⟨⟨a, j⟩, ha, hmem⟩
      obtain ⟨rest, hrest, heq⟩ := List.mem_map.1 hmem
      cases heq
      rw [List.mem_zipIdx_iff_getElem?.1 ha]
      exact ih.1 hrest
    · intro hsome
      obtain ⟨u, hu⟩ := Option.isSome_iff_exists.1 hsome
      obtain ⟨a, ha, hsub⟩ := Option.bind_eq_some_iff.1 hu
      have hpath : path ∈ a.paths := ih.2 (Option.isSome_of_eq_some hsub)
      exact ⟨(a, i), List.mem_zipIdx_iff_getElem?.2 ha, List.mem_map_of_mem hpath⟩

/-- What holds of a tree if it holds of its children holds of every tree. -/
theorem induction_on_children {motive : Expr → Prop}
    (h : ∀ e, (∀ a ∈ e.children, motive a) → motive e) (e : Expr) : motive e := by
  induction hn : e.size using Nat.strongRecOn generalizing e with
  | ind n ih =>
    refine h e fun a ha => ih a.size ?_ a rfl
    have hle : a.size ≤ (e.children.map size).sum := List.le_sum_of_mem (List.mem_map_of_mem ha)
    rw [← hn, e.size_eq_succ]
    omega

/-- The paths are in lexicographic order. -/
theorem pairwise_paths (e : Expr) : e.paths.Pairwise (· < ·) := by
  induction e using induction_on_children with
  | h e ih =>
    -- within one child the rest of the path decides, between two children their numbers
    have hnumbers : e.children.zipIdx.Pairwise fun p q => p.2 < q.2 := by
      rw [← List.pairwise_map, List.zipIdx_map_snd]
      exact List.pairwise_lt_range'
    rw [paths_eq_cons, List.pairwise_cons]
    constructor
    · intro path hpath
      obtain ⟨p, -, hmem⟩ := List.mem_flatMap.1 hpath
      obtain ⟨rest, -, rfl⟩ := List.mem_map.1 hmem
      exact List.nil_lt_cons _ _
    · rw [List.pairwise_flatMap]
      constructor
      · intro p hp
        rw [List.pairwise_map]
        exact (ih p.1 (List.fst_mem_of_mem_zipIdx hp)).imp fun hlt =>
          List.cons_lt_cons_iff.2 (.inr ⟨rfl, hlt⟩)
      · refine hnumbers.imp fun hlt path hpath path' hpath' => ?_
        obtain ⟨rest, -, rfl⟩ := List.mem_map.1 hpath
        obtain ⟨rest', -, rfl⟩ := List.mem_map.1 hpath'
        exact List.cons_lt_cons_iff.2 (.inl hlt)

/-- The paths lead to the nodes of the walk. -/
theorem map_subtree?_paths (e : Expr) : e.paths.map e.subtree? = e.walk.map some := by
  induction e using induction_on_children with
  | h e ih =>
    have hchild : ∀ p ∈ e.children.zipIdx,
        (p.1.paths.map (p.2 :: ·)).map e.subtree? = p.1.walk.map some := by
      intro p hp
      rw [List.map_map, ← ih p.1 (List.fst_mem_of_mem_zipIdx hp)]
      refine List.map_congr_left fun path _ => ?_
      simp only [Function.comp, subtree?, List.mem_zipIdx_iff_getElem?.1 hp, Option.bind_some]
    have hchildren : (e.children.zipIdx.flatMap fun p => p.1.walk.map some) =
        e.children.flatMap fun a => a.walk.map some := by
      conv_rhs => rw [← List.zipIdx_map_fst 0 e.children, List.flatMap_map]
    rw [paths_eq_cons, walk_eq_cons, List.map_cons, List.map_cons, List.map_flatMap,
      List.map_flatMap, List.flatMap_congr hchild, hchildren, subtree?]

/-! ## Variables -/

/-- A variable is mentioned in a tree: as a term, or as the variable of a quantifier or of a
comprehension, whose domain and predicate count as well. -/
def Mentions (i : Nat) : Expr → Prop
  | var j => i = j
  | constant _ => False
  | relation _ a b | connective _ a b | binary _ a b => a.Mentions i ∨ b.Mentions i
  | negation a | unary _ a => a.Mentions i
  | quantified _ x a => i = x ∨ a.Mentions i
  | comprehension x s a => i = x ∨ s.Mentions i ∨ a.Mentions i

theorem mem_occurrences_iff_mentions {e : Expr} {i : Nat} : i ∈ e.occurrences ↔ e.Mentions i := by
  induction e <;> simp_all [Mentions]

/-- **The walk visits every subtree once, in pre-order.** The loop that keeps the trees still to visit
on a stack ends for every tree, with the nodes that `walk` lists: the tree itself, and then the walks
of its children from left to right. These nodes are the subtrees at the paths of the tree in
lexicographic order, one for each path. So the indices that are collected from a tree are those of
all variables that it mentions, the variables of quantifiers and comprehensions and what their
domains mention included. -/
theorem walk_visits_subtrees_once (e : Expr) :
    StateTransition.eval Walker.step ⟨[e], []⟩ = Part.some ⟨[], e.walk⟩ ∧
      e.walk = e :: e.children.flatMap walk ∧
      e.walk.map some = e.paths.map e.subtree? ∧
      e.paths.Pairwise (· < ·) ∧
      (∀ path, path ∈ e.paths ↔ (e.subtree? path).isSome) ∧
      ∀ a, a ∈ Taken.ofExpr e ↔ ∃ i, e.Mentions i ∧ a = (i : Int) := by
  refine ⟨eval_walker e, walk_eq_cons e, (map_subtree?_paths e).symm, pairwise_paths e,
    fun _ => mem_paths, fun a => ?_⟩
  rw [Taken.mem_ofExpr]
  exact exists_congr fun i => and_congr_left fun _ => mem_occurrences_iff_mentions

example : (all 2 (imp (mem (var 2) (var 0)) (mem (var 0) (var 1)))).occurrences =
    [2, 2, 0, 0, 1] := by decide

end SetFormula.Expr
