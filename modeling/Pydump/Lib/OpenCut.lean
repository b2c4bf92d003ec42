/-
# Values of a graph, cut where a node is open

A recursion over a graph that may be cyclic and shared: a leaf has a value, a node has the
value that it builds from those of other vertices, and a node that is open already, on the
path that leads to it, has the value that stands for it.  The nodes are finitely many, so
that a path can open only so many.

`eq_value` is the rule for a program that computes such values: it is enough that it does
the right thing at each vertex, given that it did so one step deeper.
-/

import Mathlib.Data.Finset.Card
import Mathlib.Data.Finset.SDiff

namespace OpenCut

/-- What is found at a vertex: a value, or a node with the value that stands for it where it
is open and the way it is built from the values of others. -/
inductive View (V T : Type*)
  | leaf (value : T)
  | node (cut : T) (build : (V → T) → T)

/-- A graph with finitely many nodes. -/
structure Graph (V T : Type*) where
  view : V → View V T
  nodes : Finset V
  mem_nodes : ∀ {v cut build}, view v = .node cut build → v ∈ nodes

variable {V T : Type*} [DecidableEq V]

/-- Opening a node leaves fewer to be opened. -/
theorem card_sdiff_insert_lt {nodes opened : Finset V} {v : V} (hv : v ∈ nodes) (hopened : v ∉ opened) :
    (nodes \ insert v opened).card < (nodes \ opened).card := by
  rw [Finset.sdiff_insert]
  exact Finset.card_erase_lt_of_mem (Finset.mem_sdiff.2 ⟨hv, hopened⟩)

namespace Graph

variable (g : Graph V T)

/-- The value of a vertex behind a path on which `opened` are open. -/
def value (opened : Finset V) (v : V) : T :=
  match _hview : g.view v with
  | .leaf value => value
  | .node cut build =>
    if _hopened : v ∈ opened then cut else build fun child => value (insert v opened) child
termination_by (g.nodes \ opened).card
decreasing_by exact card_sdiff_insert_lt (g.mem_nodes _hview) _hopened

variable {g} {opened : Finset V} {v : V} {t cut : T} {build : (V → T) → T}

/-- The value of a leaf. -/
theorem value_leaf (h : g.view v = .leaf t) : g.value opened v = t := by
  rw [value]
  split <;> rename_i heq <;> cases h.symm.trans heq
  rfl

/-- The value of a node that is open: the cut. -/
theorem value_open (h : g.view v = .node cut build) (hopened : v ∈ opened) : g.value opened v = cut := by
  rw [value]
  split <;> rename_i heq <;> cases h.symm.trans heq
  exact if_pos hopened

/-- The value of a node that is not: what is built below it. -/
theorem value_node (h : g.view v = .node cut build) (hopened : v ∉ opened) :
    g.value opened v = build (g.value (insert v opened)) := by
  rw [value]
  split <;> rename_i heq <;> cases h.symm.trans heq
  exact if_neg hopened

/-- **The rule for a program that computes values**, whose results `ret` makes of them:
by induction on the number of nodes that can still be opened. -/
theorem eq_value {R : Type*} {ret : T → R} {run : Finset V → V → R}
    (hleaf : ∀ opened v t, g.view v = .leaf t → run opened v = ret t)
    (hopen : ∀ opened v cut build, g.view v = .node cut build → v ∈ opened → run opened v = ret cut)
    (hnode : ∀ opened v cut build, g.view v = .node cut build → v ∉ opened → ∀ text : V → T,
      (∀ child, run (insert v opened) child = ret (text child)) → run opened v = ret (build text))
    (opened : Finset V) (v : V) : run opened v = ret (g.value opened v) := by
  induction hn : (g.nodes \ opened).card using Nat.strong_induction_on generalizing opened v with
  | _ n ih =>
    cases hview : g.view v with
    | leaf t => rw [hleaf opened v t hview, value_leaf hview]
    | node cut build =>
      by_cases hopened : v ∈ opened
      · rw [hopen opened v cut build hview hopened, value_open hview hopened]
      · have hless := card_sdiff_insert_lt (g.mem_nodes hview) hopened
        rw [value_node hview hopened]
        exact hnode opened v cut build hview hopened _ fun child => ih _ (hn ▸ hless) (insert v opened) child rfl

end Graph
end OpenCut
