import ActorPlacement.Proofs.Planning.Choice
import ActorPlacement.Proofs.Quantity.Order
import Mathlib.Data.List.Nodup

/-!
# The order of a ranking

A ranking lists the eligible nodes that a bundle fits, each once and with its score, by descending score and
nodes of equal score by their places (`IsRanking`). As long as every score is a number there is just one such
list, and it is the one that `rank` makes (`isRanking_iff_rank`). So the first of it is the first of the best
nodes. Sorting inserts one node after the other, and each comes later than those that are there already.
-/

namespace ActorPlacement

variable {Q : Type} [Quantity Q]

/-- One entry is ranked before another: it has the higher score, or an equal one and the lower place. -/
def Scored.Before (a b : Scored Q) : Prop :=
  Quantity.atLeast a.score b.score = true
    ∧ (Quantity.atLeast b.score a.score = true → a.index < b.index)

theorem Scored.Before.asymm {a b : Scored Q} (h : a.Before b) : ¬b.Before a :=
  fun h' => Nat.lt_asymm (h.2 h'.1) (h'.2 h.1)

/-! ## Sorting -/

section Sorting

variable [OrderedQuantity Q] {x : Scored Q} {scores sorted : List (Scored Q)}

/-- What is not better than another entry and comes later is ranked after it. -/
theorem Scored.before_of_not_exceeds {y : Scored Q} (hx : Quantity.IsNumber x.score)
    (hy : Quantity.IsNumber y.score) (hlater : y.index < x.index)
    (h : ¬Quantity.exceeds x.score y.score = true) : y.Before x := by
  rw [OrderedQuantity.exceeds_iff hx hy, not_not] at h
  exact ⟨h, fun _ => hlater⟩

theorem Scored.before_of_exceeds {y : Scored Q} (hx : Quantity.IsNumber x.score)
    (hy : Quantity.IsNumber y.score) (h : Quantity.exceeds x.score y.score = true) : x.Before y := by
  have hnot := (OrderedQuantity.exceeds_iff hx hy).1 h
  exact ⟨(OrderedQuantity.total hx hy).resolve_right hnot, fun h' => absurd h' hnot⟩

/-- An entry that comes later than all in a list that is worst first goes where it belongs. -/
theorem insertWorstFirst_ordered (hx : Quantity.IsNumber x.score)
    (hnumbers : ∀ y ∈ sorted, Quantity.IsNumber y.score) (hlater : ∀ y ∈ sorted, y.index < x.index)
    (h : sorted.Pairwise fun a b => b.Before a) :
    (insertWorstFirst x sorted).Pairwise fun a b => b.Before a := by
  induction sorted with
  | nil => exact List.pairwise_singleton _ _
  | cons y rest ih =>
    obtain ⟨hyrest, hrest⟩ := List.pairwise_cons.1 h
    have hy := hnumbers y List.mem_cons_self
    simp only [insertWorstFirst]
    split
    · rename_i hexceeds
      refine List.pairwise_cons.2 ⟨fun z hz => ?_, ih (fun z hz => hnumbers z (List.mem_cons_of_mem _ hz))
        (fun z hz => hlater z (List.mem_cons_of_mem _ hz)) hrest⟩
      rcases List.mem_cons.1 ((insertWorstFirst_perm x rest).mem_iff.1 hz) with rfl | hz
      · exact Scored.before_of_exceeds hx hy hexceeds
      · exact hyrest z hz
    · rename_i hexceeds
      have hyx := Scored.before_of_not_exceeds hx hy (hlater y List.mem_cons_self) hexceeds
      refine List.pairwise_cons.2 ⟨fun z hz => ?_, h⟩
      rcases List.mem_cons.1 hz with rfl | hz
      · exact hyx
      · -- what is ranked before the first of the rest has at least its score
        exact ⟨OrderedQuantity.trans (hyrest z hz).1 hyx.1,
          fun _ => hlater z (List.mem_cons_of_mem _ hz)⟩

/-- Sorting entries that come in the order of their places ranks them. -/
theorem bestFirst_ordered (hnumbers : ∀ s ∈ scores, Quantity.IsNumber s.score)
    (hplaces : scores.Pairwise fun a b => a.index < b.index) :
    (bestFirst scores).Pairwise Scored.Before := by
  have hfold : ∀ (scores sorted : List (Scored Q)),
      (∀ s ∈ sorted ++ scores, Quantity.IsNumber s.score) →
      (∀ y ∈ sorted, ∀ x ∈ scores, y.index < x.index) →
      scores.Pairwise (fun a b => a.index < b.index) →
      sorted.Pairwise (fun a b => b.Before a) →
      (scores.foldl (fun sorted x => insertWorstFirst x sorted) sorted).Pairwise fun a b => b.Before a := by
    intro scores
    induction scores with
    | nil => exact fun sorted _ _ _ h => h
    | cons x rest ih =>
      intro sorted hnumbers hlater hplaces h
      obtain ⟨hxrest, hrest⟩ := List.pairwise_cons.1 hplaces
      have hmem : ∀ {s}, s ∈ insertWorstFirst x sorted ↔ s = x ∨ s ∈ sorted :=
        (insertWorstFirst_perm x sorted).mem_iff.trans List.mem_cons
      refine ih _ (fun s hs => hnumbers s ?_) (fun y hy z hz => ?_) hrest
        (insertWorstFirst_ordered (hnumbers x (by simp)) (fun y hy => hnumbers y (by simp [hy]))
          (fun y hy => hlater y hy x List.mem_cons_self) h)
      · simp only [List.mem_append, hmem] at hs
        simp only [List.mem_append, List.mem_cons]
        tauto
      · rcases hmem.1 hy with rfl | hy
        · exact hxrest z hz
        · exact hlater y hy z (List.mem_cons_of_mem _ hz)
  exact List.pairwise_reverse.2 (hfold scores [] (by simpa using hnumbers) (by simp) hplaces List.Pairwise.nil)

end Sorting

/-! ## The ranking -/

section Ranking

variable (capacities free : List (Bundle Q)) (eligible : List Bool) (demand : Bundle Q)
  (weights : Weights Q)

/-- The node in some place is eligible and the bundle fits on it. -/
def FitsAt (place : Nat) : Prop :=
  place < capacities.length ∧ eligible[place]? = some true
    ∧ ∃ available, free[place]? = some available ∧ Bundle.covers available demand = true

/-- The score of the node in some place, at the average utilization of all the nodes. -/
def scoreAt? (place : Nat) : Option Q :=
  capacities[place]?.bind fun capacity => free[place]?.bind fun available =>
    score? capacity available demand weights (averageUtilization capacities free)

/-- The list has every eligible node that the bundle fits just once, no other node, and each with its score.
The higher scores come first, and of equal ones those of the lower places. -/
structure IsRanking (ranked : List (Scored Q)) : Prop where
  places : ∀ place, place ∈ ranked.map Scored.index ↔ FitsAt capacities free eligible demand place
  once : (ranked.map Scored.index).Nodup
  scores : ∀ s ∈ ranked, scoreAt? capacities free demand weights s.index = some s.score
  ordered : ranked.Pairwise Scored.Before

variable {capacities free eligible demand weights} {place : Nat} {ranked : List (Scored Q)}

/-- A node that a bundle fits has a score. -/
theorem FitsAt.exists_scoreAt? (h : FitsAt capacities free eligible demand place)
    (weights : Weights Q) : ∃ score, scoreAt? capacities free demand weights place = some score := by
  obtain ⟨hplace, -, available, hfree, hcovers⟩ := h
  simp [scoreAt?, hplace, hfree, score?, hcovers]

theorem mem_rank_iff {s : Scored Q} :
    s ∈ rank capacities free eligible demand weights
      ↔ FitsAt capacities free eligible demand s.index
        ∧ scoreAt? capacities free demand weights s.index = some s.score := by
  rw [mem_rank]
  constructor
  · rintro ⟨capacity, available, hcapacity, hfree, helig, hscore⟩
    have hcovers := (score?_eq_some_iff.1 hscore).1
    exact ⟨⟨(List.getElem?_eq_some_iff.1 hcapacity).1, helig, available, hfree, hcovers⟩,
      by simp [scoreAt?, hcapacity, hfree, hscore]⟩
  · rintro ⟨⟨hplace, helig, available, hfree, -⟩, hscore⟩
    simp only [scoreAt?, hfree, Option.bind_some, Option.bind_eq_some_iff] at hscore
    obtain ⟨capacity, hcapacity, hscore⟩ := hscore
    exact ⟨capacity, available, hcapacity, hfree, helig, hscore⟩

/-- So the entries of a ranking are those that `rank` lists. -/
theorem IsRanking.mem_iff (h : IsRanking capacities free eligible demand weights ranked) {s : Scored Q} :
    s ∈ ranked ↔ s ∈ rank capacities free eligible demand weights := by
  rw [mem_rank_iff]
  constructor
  · exact fun hs => ⟨(h.places s.index).1 (List.mem_map_of_mem hs), h.scores s hs⟩
  · rintro ⟨hfits, hscore⟩
    obtain ⟨t, ht, hindex⟩ := List.mem_map.1 ((h.places s.index).2 hfits)
    have hsame := h.scores t ht
    rw [hindex, hscore, Option.some.injEq] at hsame
    obtain rfl : t = s := by
      cases t; cases s
      simp_all
    exact ht

/-- What `rank` sorts stands in the order of the places. -/
theorem rank_eq_bestFirst (capacities free : List (Bundle Q)) (eligible : List Bool) (demand : Bundle Q)
    (weights : Weights Q) : ∃ scores : List (Scored Q), rank capacities free eligible demand weights
      = bestFirst scores ∧ scores.Pairwise fun a b => a.index < b.index := by
  refine ⟨_, rfl, ?_⟩
  have hplaces : (capacities.zip free).zipIdx.Pairwise fun p q => p.2 < q.2 := by
    refine List.pairwise_map.1 ?_
    rw [List.zipIdx_map_snd]
    exact List.pairwise_lt_range'
  refine hplaces.filterMap _ ?_
  rintro ⟨node, place⟩ ⟨node', place'⟩ hlt s hs t ht
  simp only [Option.ite_none_right_eq_some, Option.map_eq_some_iff] at hs ht
  obtain ⟨-, score, -, rfl⟩ := hs
  obtain ⟨-, score', -, rfl⟩ := ht
  exact hlt

/-- As long as the scores are numbers, `rank` makes a ranking. -/
theorem isRanking_rank [OrderedQuantity Q]
    (hnumbers : ∀ s ∈ rank capacities free eligible demand weights, Quantity.IsNumber s.score) :
    IsRanking capacities free eligible demand weights
      (rank capacities free eligible demand weights) := by
  obtain ⟨scores, hrank, hplaces⟩ := rank_eq_bestFirst capacities free eligible demand weights
  constructor
  case places =>
    intro place
    constructor
    · intro hplace
      obtain ⟨s, hs, rfl⟩ := List.mem_map.1 hplace
      exact (mem_rank_iff.1 hs).1
    · intro hfits
      obtain ⟨score, hscore⟩ := hfits.exists_scoreAt? weights
      exact List.mem_map.2 ⟨⟨place, score⟩, mem_rank_iff.2 ⟨hfits, hscore⟩, rfl⟩
  case once =>
    rw [hrank]
    refine ((bestFirst_perm scores).map _).nodup_iff.2 (List.pairwise_map.2 ?_)
    exact hplaces.imp fun h => Nat.ne_of_lt h
  case scores => exact fun s hs => (mem_rank_iff.1 hs).2
  case ordered =>
    rw [hrank] at hnumbers ⊢
    exact bestFirst_ordered (fun s hs => hnumbers s ((bestFirst_perm scores).mem_iff.2 hs)) hplaces

/-- Rankings of the same nodes are the same. -/
theorem IsRanking.unique {other : List (Scored Q)}
    (h : IsRanking capacities free eligible demand weights ranked)
    (hother : IsRanking capacities free eligible demand weights other) : ranked = other := by
  have hperm : ranked.Perm other :=
    (List.perm_ext_iff_of_nodup (List.Nodup.of_map _ h.once) (List.Nodup.of_map _ hother.once)).2 fun s =>
      h.mem_iff.trans hother.mem_iff.symm
  exact hperm.eq_of_pairwise (fun a b _ _ hab hba => absurd hba hab.asymm) h.ordered hother.ordered

/-- The first of a ranking is the node of the lowest place among those of the best score. -/
theorem IsRanking.head?_eq_some_iff {best : Scored Q}
    (h : IsRanking capacities free eligible demand weights ranked)
    (hnumbers : ∀ s ∈ ranked, Quantity.IsNumber s.score) :
    ranked.head? = some best ↔ best ∈ ranked ∧ ∀ s ∈ ranked,
      Quantity.atLeast best.score s.score = true
        ∧ (Quantity.atLeast s.score best.score = true → best.index ≤ s.index) := by
  cases ranked with
  | nil => simp
  | cons first rest =>
    have hfirst : ∀ s ∈ first :: rest, Quantity.atLeast first.score s.score = true
        ∧ (Quantity.atLeast s.score first.score = true → first.index ≤ s.index) := by
      intro s hs
      rcases List.mem_cons.1 hs with rfl | hs
      · exact ⟨hnumbers s List.mem_cons_self, fun _ => Nat.le_refl _⟩
      · have hbefore := (List.pairwise_cons.1 h.ordered).1 s hs
        exact ⟨hbefore.1, fun heq => Nat.le_of_lt (hbefore.2 heq)⟩
    rw [List.head?_cons, Option.some.injEq]
    constructor
    · rintro rfl
      exact ⟨List.mem_cons_self, hfirst⟩
    · rintro ⟨hbest, hall⟩
      obtain ⟨hle, hindex⟩ := hall first List.mem_cons_self
      obtain ⟨hge, hindex'⟩ := hfirst best hbest
      have hplace := Nat.le_antisymm (hindex' hle) (hindex hge)
      exact List.inj_on_of_nodup_map h.once List.mem_cons_self hbest hplace

/-- **A ranking is the sorted list of the nodes that fit.** As long as no score of a node that fits is what is
not a number, `rank` gives the one list that has each of these nodes once, with its score at the average
utilization of all nodes, by descending score and equal scores by ascending places. So the first entry is the
node of the lowest place among those of the best score, and there is one if any node fits. -/
theorem isRanking_iff_rank [OrderedQuantity Q]
    (hnumbers : ∀ place score, FitsAt capacities free eligible demand place →
      scoreAt? capacities free demand weights place = some score → Quantity.IsNumber score) :
    (∀ ranked, IsRanking capacities free eligible demand weights ranked
        ↔ ranked = rank capacities free eligible demand weights)
      ∧ ∀ best : Scored Q, (rank capacities free eligible demand weights).head? = some best
        ↔ FitsAt capacities free eligible demand best.index
          ∧ scoreAt? capacities free demand weights best.index = some best.score
          ∧ ∀ place score, FitsAt capacities free eligible demand place →
              scoreAt? capacities free demand weights place = some score →
              Quantity.atLeast best.score score = true
                ∧ (Quantity.atLeast score best.score = true → best.index ≤ place) := by
  have hscores : ∀ s ∈ rank capacities free eligible demand weights, Quantity.IsNumber s.score := by
    intro s hs
    obtain ⟨hfits, hscore⟩ := mem_rank_iff.1 hs
    exact hnumbers s.index s.score hfits hscore
  have hrank := isRanking_rank hscores
  refine ⟨fun ranked => ⟨fun h => h.unique hrank, fun h => h ▸ hrank⟩, fun best => ?_⟩
  rw [hrank.head?_eq_some_iff hscores, mem_rank_iff, and_assoc]
  refine and_congr_right fun _ => and_congr_right fun _ => ?_
  constructor
  · intro h place score hfits hscore
    exact h ⟨place, score⟩ (mem_rank_iff.2 ⟨hfits, hscore⟩)
  · intro h s hs
    obtain ⟨hfits, hscore⟩ := mem_rank_iff.1 hs
    exact h s.index s.score hfits hscore

end Ranking

/-- Five nodes are counted in doubles. The last is not eligible, the one before it has no room, two are equally
full and come first, in their order. -/
theorem isRanking_iff_rank_five :
    let cpus (q : Float) : Bundle Float := NameMap.empty.insert "CPU" q
    let capacities := [cpus 4, cpus 4, cpus 4, cpus 4, cpus 4]
    let free := [cpus 3, cpus 1.5, cpus 1.5, cpus 0, cpus 1]
    let ranked := rank capacities free [true, true, true, true, false] (cpus 1) Weights.forPacking
    (∀ s ∈ ranked, s.score.isNaN = false) ∧ ranked.map Scored.index = [1, 2, 0]
      ∧ IsRanking capacities free [true, true, true, true, false] (cpus 1) Weights.forPacking ranked := by
  intro cpus capacities free ranked
  have hscores : ∀ s ∈ ranked, s.score.isNaN = false := by decide +kernel
  refine ⟨hscores, by decide +kernel, (isRanking_iff_rank (fun place score hfits hscore => ?_)).1 _ |>.2 rfl⟩
  exact Quantity.isNumber_double.2 (hscores ⟨place, score⟩ (mem_rank_iff.2 ⟨hfits, hscore⟩))

end ActorPlacement
