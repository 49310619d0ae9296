import Mathlib.Data.List.Basic

/-!
# Greedy clusters

A list is cut where an item breaks from the mark that the first item of the current cluster
has left. A loop that closes its state at each break runs over the clusters one by one.
-/

namespace Foundation.Clusters

set_option autoImplicit false

variable {Item Mark State Error : Type}

section Cut

variable (mark : Item → Mark) (breaks : Mark → Item → Prop) [DecidableRel breaks]

def clustersFrom (last : Mark) (current : List Item) : List Item → List (List Item)
  | [] => [current]
  | item :: rest =>
      if breaks last item then current :: clustersFrom (mark item) [item] rest
      else clustersFrom last (current ++ [item]) rest

/-- The clusters of a list, the first of which takes its mark from the first item. -/
def clusters : List Item → List (List Item)
  | [] => []
  | first :: rest => clustersFrom mark breaks (mark first) [] (first :: rest)

theorem clusters_from_flatten (last : Mark) (current items : List Item) :
    (clustersFrom mark breaks last current items).flatten = current ++ items := by
  induction items generalizing last current with
  | nil => rw [clustersFrom, List.flatten_cons, List.flatten_nil]
  | cons item rest induction =>
      rw [clustersFrom]
      split
      · rw [List.flatten_cons, induction, List.singleton_append]
      · rw [induction, List.append_assoc, List.singleton_append]

theorem clusters_flatten (items : List Item) : (clusters mark breaks items).flatten = items := by
  cases items with
  | nil => rfl
  | cons first rest => rw [clusters, clusters_from_flatten, List.nil_append]

theorem mem_of_mem_clusters {items cluster : List Item} {item : Item}
    (listed : cluster ∈ clusters mark breaks items) (member : item ∈ cluster) : item ∈ items := by
  rw [← clusters_flatten mark breaks items]
  exact List.mem_flatten.mpr ⟨cluster, listed, member⟩

variable {breaks}

theorem clusters_from_congr {other : Mark → Item → Prop} [DecidableRel other] {last : Mark}
    {current items : List Item} (same : ∀ item ∈ items, breaks last item ↔ other last item)
    (later : items.Pairwise fun first item => breaks (mark first) item ↔ other (mark first) item) :
    clustersFrom mark breaks last current items = clustersFrom mark other last current items := by
  induction items generalizing last current with
  | nil => rfl
  | cons item rest induction =>
      rw [List.forall_mem_cons] at same
      rw [List.pairwise_cons] at later
      rw [clustersFrom, clustersFrom]
      by_cases broken : breaks last item
      · rw [if_pos broken, if_pos (same.1.mp broken), induction later.1 later.2]
      · rw [if_neg broken, if_neg fun others => broken (same.1.mpr others),
          induction same.2 later.2]

theorem clusters_congr {other : Mark → Item → Prop} [DecidableRel other] {items : List Item}
    (own : ∀ item ∈ items, breaks (mark item) item ↔ other (mark item) item)
    (later : items.Pairwise fun first item => breaks (mark first) item ↔ other (mark first) item) :
    clusters mark breaks items = clusters mark other items := by
  cases items with
  | nil => rfl
  | cons first rest =>
      apply clusters_from_congr
      · exact List.forall_mem_cons.mpr ⟨own first List.mem_cons_self, (List.pairwise_cons.mp later).1⟩
      · exact later

theorem clusters_nonempty {items cluster : List Item}
    (own : ∀ item ∈ items, ¬breaks (mark item) item)
    (listed : cluster ∈ clusters mark breaks items) : cluster ≠ [] := by
  have behind : ∀ (items : List Item) {last : Mark} {current cluster : List Item}, current ≠ [] →
      cluster ∈ clustersFrom mark breaks last current items → cluster ≠ [] := by
    intro items
    induction items with
    | nil =>
        intro last current cluster nonempty listed
        rwa [List.mem_singleton.mp listed]
    | cons item rest induction =>
        intro last current cluster nonempty listed
        rw [clustersFrom] at listed
        split at listed
        · rcases List.mem_cons.mp listed with same | listed
          · rwa [same]
          · exact induction (List.cons_ne_nil _ _) listed
        · exact induction (List.append_ne_nil_of_right_ne_nil _ (List.cons_ne_nil _ _)) listed
  cases items with
  | nil => cases listed
  | cons first rest =>
      rw [clusters, clustersFrom, if_neg (own first List.mem_cons_self)] at listed
      exact behind rest (List.cons_ne_nil _ _) listed

end Cut

section Loop

variable (mark : Item → Mark) (breaks : Mark → Item → Prop) [DecidableRel breaks]
  (step : State → Item → Except Error State) (close : State → State)

def visit (current : Mark × State) (item : Item) : Except Error (Mark × State) := do
  let current := if breaks current.1 item then (mark item, close current.2) else current
  let state ← step current.2 item
  return (current.1, state)

def cover (state : State) (cluster : List Item) : Except Error State := do
  let state ← cluster.foldlM step state
  return close state

theorem visit_eq (last : Mark) (state : State) (item : Item) :
    visit mark breaks step close (last, state) item =
      if breaks last item then do return (mark item, ← step (close state) item)
      else do return (last, ← step state item) := by
  unfold visit
  split
  · rfl
  · rfl

theorem visit_clusters_from (items : List Item) (start : State) (last : Mark)
    (current : List Item) :
    (do
      let state ← current.foldlM step start
      let final ← items.foldlM (visit mark breaks step close) (last, state)
      return close final.2) =
    (clustersFrom mark breaks last current items).foldlM (cover step close) start := by
  induction items generalizing start last current with
  | nil =>
      simp only [clustersFrom, List.foldlM_nil, List.foldlM_cons, pure_bind, cover, bind_pure]
  | cons item rest induction =>
      rw [clustersFrom]
      split
      · next broken =>
        simp only [List.foldlM_cons, List.foldlM_nil, visit_eq, if_pos broken, cover, bind_assoc,
          pure_bind, ← induction]
      · next whole =>
        simp only [List.foldlM_cons, List.foldlM_nil, List.foldlM_append, visit_eq, if_neg whole,
          bind_assoc, pure_bind, bind_pure, ← induction]

/-- A loop from the mark of the first item, closed at its end, covers the clusters. -/
theorem visit_clusters (first : Item) (rest : List Item) (start : State) :
    (do
      let final ← (first :: rest).foldlM (visit mark breaks step close) (mark first, start)
      return close final.2) =
    (clusters mark breaks (first :: rest)).foldlM (cover step close) start := by
  rw [clusters, ← visit_clusters_from]
  rfl

end Loop

end Foundation.Clusters
