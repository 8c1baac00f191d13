/-
  Rish.Lib.Links — following links between nodes.

  `node i` is what the node `i` holds and the node it names next, if any; there may be no such node. A route follows
  the links from a node to the first one that names no other. A walk is the start of such a route, or of one that
  never ends.

  Proved: a node has one route (`LinkRoute.unique`), which visits no node twice (`LinkRoute.nodup`). A walk that comes
  back to a node it visited goes on forever (`LinkWalk.of_revisit`).
-/

import Mathlib.Data.List.Nodup

namespace Rish.Lib

open List

variable {ι α : Type}

/-- The nodes from the first to the first without a link, with what they hold. -/
inductive LinkRoute (node : ι → Option (α × Option ι)) : ι → List (ι × α) → Prop where
  | last {i : ι} {a : α} : node i = some (a, none) → LinkRoute node i [(i, a)]
  | link {i j : ι} {a : α} {rest : List (ι × α)} : node i = some (a, some j) → LinkRoute node j rest →
    LinkRoute node i ((i, a) :: rest)

/-- The nodes left behind on the way from one node to another. -/
inductive LinkWalk (node : ι → Option (α × Option ι)) : ι → List ι → ι → Prop where
  | here (i : ι) : LinkWalk node i [] i
  | on {i j k : ι} {a : α} {visited : List ι} : node i = some (a, some j) → LinkWalk node j visited k →
    LinkWalk node i (i :: visited) k

section

variable {node : ι → Option (α × Option ι)} {i j k : ι}

/-! ## Walks -/

variable {l : List (ι × α)} {v : List ι}

theorem LinkWalk.append {w} (h : LinkWalk node i v j) (h' : LinkWalk node j w k) : LinkWalk node i (v ++ w) k := by
  induction h with
  | here i => exact h'
  | on hlink _ ih => exact .on hlink (ih h')

theorem LinkWalk.split {w} (h : LinkWalk node i (v ++ w) k) : ∃ j, LinkWalk node i v j ∧ LinkWalk node j w k := by
  induction v generalizing i with
  | nil => exact ⟨i, .here i, h⟩
  | cons x v ih =>
    cases h with
    | on hlink hrest =>
      obtain ⟨j, hv, hw⟩ := ih hrest
      exact ⟨j, .on hlink hv, hw⟩

theorem LinkWalk.take (h : LinkWalk node i v k) (n) : ∃ j, LinkWalk node i (v.take n) j := by
  rw [← take_append_drop n v] at h
  obtain ⟨j, hfirst, -⟩ := h.split
  exact ⟨j, hfirst⟩

theorem LinkWalk.around {x : ι} {loop} (h : LinkWalk node k (x :: loop) k) (n) :
    ∃ w, LinkWalk node k w k ∧ n ≤ w.length := by
  induction n with
  | zero => exact ⟨[], .here k, Nat.le_refl 0⟩
  | succ n ih =>
    obtain ⟨w, hw, hlen⟩ := ih
    refine ⟨x :: loop ++ w, h.append hw, ?_⟩
    rw [length_append, length_cons]
    omega

theorem LinkWalk.of_revisit (h : LinkWalk node i v k) (hmem : k ∈ v) (n) :
    ∃ w j, LinkWalk node i w j ∧ w.length = n := by
  obtain ⟨before, after, rfl⟩ := append_of_mem hmem
  obtain ⟨j, hbefore, hloop⟩ := h.split
  -- the cycle starts where it ends
  have hstart : j = k := by
    cases hloop
    rfl
  subst hstart
  obtain ⟨around, haround, hlen⟩ := hloop.around n
  obtain ⟨j, htake⟩ := (hbefore.append haround).take n
  refine ⟨_, j, htake, ?_⟩
  rw [length_take, length_append]
  omega

/-! ## Routes -/

section

variable (h : LinkRoute node i l)
include h

theorem LinkRoute.unique {l'} (h' : LinkRoute node i l') : l = l' := by
  induction h generalizing l' with
  | last hlast =>
    cases h' with
    | last hlast' =>
      rw [hlast] at hlast'
      cases hlast'
      rfl
    | link hlink =>
      rw [hlast] at hlink
      cases hlink
  | link hlink _ ih =>
    cases h' with
    | last hlast =>
      rw [hlink] at hlast
      cases hlast
    | link hlink' hrest' =>
      rw [hlink] at hlink'
      cases hlink'
      rw [ih hrest']

theorem LinkRoute.of_mem (hmem : k ∈ l.map Prod.fst) : ∃ l', LinkRoute node k l' ∧ l'.length ≤ l.length := by
  induction h with
  | last hlast =>
    cases mem_singleton.mp hmem
    exact ⟨_, .last hlast, Nat.le_refl _⟩
  | link hlink hrest ih =>
    rcases mem_cons.mp hmem with rfl | hmem
    · exact ⟨_, .link hlink hrest, Nat.le_refl _⟩
    · obtain ⟨l', hroute, hlen⟩ := ih hmem
      exact ⟨l', hroute, Nat.le_succ_of_le hlen⟩

theorem LinkRoute.nodup : (l.map Prod.fst).Nodup := by
  induction h with
  | last hlast => exact nodup_singleton _
  | link hlink hrest ih =>
    rw [map_cons, nodup_cons]
    refine ⟨fun hmem => ?_, ih⟩
    -- the route from here would be shorter than itself
    obtain ⟨l', hroute, hlen⟩ := hrest.of_mem hmem
    have hself := (LinkRoute.link hlink hrest).unique hroute
    rw [← hself, length_cons] at hlen
    omega

theorem LinkRoute.node_eq {x} (hmem : x ∈ l) : ∃ next, node x.1 = some (x.2, next) := by
  induction h with
  | last hlast =>
    cases mem_singleton.mp hmem
    exact ⟨none, hlast⟩
  | link hlink _ ih =>
    rcases mem_cons.mp hmem with rfl | hmem
    · exact ⟨_, hlink⟩
    · exact ih hmem

end

end

end Rish.Lib
