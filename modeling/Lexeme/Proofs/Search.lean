import Lexeme.Search
import Mathlib.Data.List.Sublists
import Mathlib.Order.Lattice

/-!
# Where a binary search ends

The search asks for the elements in the middle only, so two predicates that agree on a list
lead it to the same index, whatever the order of the list. Where the elements below the key
come first, it ends at the first one that is not below. In any list the search for a larger key
ends no earlier, so members that a search finds stand in the order of their keys.
-/

namespace Lexeme.Search

theorem bisect_of_le {isBelow : Nat → Bool} {low high : Nat} (high_le : high ≤ low) :
    bisect isBelow low high = low := by
  rw [bisect, if_neg (by omega)]

theorem bisect_of_below {isBelow : Nat → Bool} {low high : Nat} (inside : low < high)
    (below : isBelow ((low + high) / 2) = true) :
    bisect isBelow low high = bisect isBelow ((low + high) / 2 + 1) high := by
  rw [bisect, if_pos inside, if_pos below]

theorem bisect_of_notBelow {isBelow : Nat → Bool} {low high : Nat} (inside : low < high)
    (notBelow : isBelow ((low + high) / 2) = false) :
    bisect isBelow low high = bisect isBelow low ((low + high) / 2) := by
  rw [bisect, if_pos inside, if_neg (by simp [notBelow])]

theorem bisect_congr {isBelow isUnder : Nat → Bool} {low high : Nat}
    (agree : ∀ index, low ≤ index → index < high → isBelow index = isUnder index) :
    bisect isBelow low high = bisect isUnder low high := by
  fun_induction bisect isBelow low high with
  | case1 low high inside middle below inductionHypothesis =>
      rw [agree middle (by omega) (by omega)] at below
      rw [bisect_of_below inside below]
      apply inductionHypothesis
      intro index _ lt_high
      exact agree index (by omega) lt_high
  | case2 low high inside middle notBelow inductionHypothesis =>
      rw [Bool.not_eq_true, agree middle (by omega) (by omega)] at notBelow
      rw [bisect_of_notBelow inside notBelow]
      apply inductionHypothesis
      intro index low_le _
      exact agree index low_le (by omega)
  | case3 low high outside => exact (bisect_of_le (by omega)).symm

/-- Where all indices before one are below the key and none from it on is, the search ends
there. -/
theorem bisect_eq {isBelow : Nat → Bool} {low high border : Nat}
    (low_le : low ≤ border) (le_high : border ≤ high)
    (below : ∀ index, low ≤ index → index < border → isBelow index = true)
    (notBelow : ∀ index, border ≤ index → index < high → isBelow index = false) :
    bisect isBelow low high = border := by
  fun_induction bisect isBelow low high with
  | case1 low high inside middle middleBelow inductionHypothesis =>
      have middle_lt : middle < border := by
        rcases Nat.lt_or_ge middle border with before | after
        · exact before
        · rw [notBelow middle after (by omega)] at middleBelow
          contradiction
      apply inductionHypothesis middle_lt le_high
      · intro index middle_lt_index index_lt
        exact below index (by omega) index_lt
      · exact notBelow
  | case2 low high inside middle middleNotBelow inductionHypothesis =>
      have le_middle : border ≤ middle := by
        rcases Nat.lt_or_ge middle border with before | after
        · exact absurd (below middle (by omega) before) middleNotBelow
        · exact after
      apply inductionHypothesis low_le le_middle below
      intro index border_le index_lt
      exact notBelow index border_le (by omega)
  | case3 low high outside => omega

/-- Where more is below, the search ends no earlier, whatever the order. -/
theorem bisect_mono {isBelow isUnder : Nat → Bool} {low high : Nat}
    (implies : ∀ index, low ≤ index → index < high → isBelow index = true →
      isUnder index = true) :
    bisect isBelow low high ≤ bisect isUnder low high := by
  fun_induction bisect isBelow low high with
  | case1 low high inside middle below inductionHypothesis =>
      rw [bisect_of_below inside (implies middle (by omega) (by omega) below)]
      apply inductionHypothesis
      intro index _ lt_high
      exact implies index (by omega) lt_high
  | case2 low high inside middle notBelow inductionHypothesis =>
      cases under : isUnder ((low + high) / 2) with
      | true =>
          -- The second search goes on behind the middle, and the first one ends before it.
          rw [bisect_of_below inside under]
          have first_le : bisect isBelow low middle ≤ middle := bisect_le isBelow (by omega)
          have le_second := le_bisect isUnder ((low + high) / 2 + 1) high
          omega
      | false =>
          rw [bisect_of_notBelow inside under]
          apply inductionHypothesis
          intro index low_le _
          exact implies index low_le (by omega)
  | case3 low high outside => exact le_bisect isUnder low high

variable {α β : Type}

theorem lowerBound_congr {isBelow isUnder : α → Bool} {list : List α}
    (agree : ∀ member ∈ list, isBelow member = isUnder member) :
    lowerBound isBelow list = lowerBound isUnder list := by
  apply bisect_congr
  intro index _ index_lt
  simp only [List.getElem?_eq_getElem index_lt, Option.any_some]
  exact agree _ (List.getElem_mem index_lt)

theorem lowerBound_map (isBelow : β → Bool) (image : α → β) (list : List α) :
    lowerBound isBelow (list.map image) =
      lowerBound (fun member => isBelow (image member)) list := by
  simp only [lowerBound]
  rw [List.length_map]
  apply bisect_congr
  intro index _ _
  rw [List.getElem?_map, Option.any_map]

/-- In a list whose members below the key come first, the search ends behind them. -/
theorem lowerBound_eq {isBelow : α → Bool} {list : List α} {border : Nat}
    (border_le : border ≤ list.length)
    (below : ∀ index (inside : index < list.length), index < border → isBelow list[index] = true)
    (notBelow : ∀ index (inside : index < list.length), border ≤ index →
      isBelow list[index] = false) :
    lowerBound isBelow list = border := by
  apply bisect_eq (Nat.zero_le _) border_le
  · intro index _ index_lt
    have inside : index < list.length := Nat.lt_of_lt_of_le index_lt border_le
    rw [List.getElem?_eq_getElem inside, Option.any_some]
    exact below index inside index_lt
  · intro index border_le_index inside
    rw [List.getElem?_eq_getElem inside, Option.any_some]
    exact notBelow index inside border_le_index

theorem lowerBound_mono {isBelow isUnder : α → Bool} {list : List α}
    (implies : ∀ member ∈ list, isBelow member = true → isUnder member = true) :
    lowerBound isBelow list ≤ lowerBound isUnder list := by
  apply bisect_mono
  intro index _ index_lt
  simp only [List.getElem?_eq_getElem index_lt, Option.any_some]
  exact implies _ (List.getElem_mem index_lt)

section

variable {κ : Type} [LinearOrder κ] {key : α → κ} {list : List α}

/-- Where the search for a member by its key ends. -/
def place (key : α → κ) (list : List α) (member : α) : Nat :=
  lowerBound (fun other => decide (key other < key member)) list

theorem key_lt_of_place_lt {first second : α}
    (before : place key list first < place key list second) : key first < key second := by
  by_contra notBefore
  have later : place key list second ≤ place key list first := by
    apply lowerBound_mono
    intro member _ below
    rw [decide_eq_true_eq] at below ⊢
    exact lt_of_lt_of_le below (not_lt.mp notBefore)
  omega

theorem pairwise_zipIdx (list : List α) : list.zipIdx.Pairwise (·.2 < ·.2) := by
  rw [← List.pairwise_map, List.zipIdx_map_snd]
  exact List.pairwise_lt_range'

/-- If a search finds each member of a list, the members at the places where the searches end are
all there are, and their keys increase. -/
theorem exists_increasing_of_found
    (found : ∀ member ∈ list, list[place key list member]? = some member) :
    ∃ kept : List α, kept.Sublist list ∧ kept.Pairwise (key · < key ·) ∧
      ∀ member ∈ list, member ∈ kept := by
  refine ⟨(list.zipIdx.filter fun entry => place key list entry.1 = entry.2).map Prod.fst,
    ?_, ?_, ?_⟩
  · have shortened := (List.filter_sublist (l := list.zipIdx)
      (p := fun entry => decide (place key list entry.1 = entry.2))).map Prod.fst
    rwa [List.zipIdx_map_fst] at shortened
  · rw [List.pairwise_map]
    apply ((pairwise_zipIdx list).filter _).imp_of_mem
    intro first second firstMem secondMem before
    have firstPlace := of_decide_eq_true (List.mem_filter.mp firstMem).2
    have secondPlace := of_decide_eq_true (List.mem_filter.mp secondMem).2
    apply key_lt_of_place_lt
    rwa [firstPlace, secondPlace]
  · intro member memberMem
    apply List.mem_map.mpr
    refine ⟨(member, place key list member), ?_, rfl⟩
    apply List.mem_filter.mpr
    exact ⟨List.mem_zipIdx_iff_getElem?.mpr (found member memberMem), decide_eq_true rfl⟩

/-- Where keys increase, the search for a member ends at it. -/
theorem place_getElem (key : α → κ) (increasing : list.Pairwise (key · < key ·)) {index : Nat}
    (inside : index < list.length) : place key list list[index] = index := by
  rw [List.pairwise_iff_getElem] at increasing
  apply lowerBound_eq (Nat.le_of_lt inside)
  · intro earlier earlierInside earlier_lt
    exact decide_eq_true (increasing earlier index earlierInside inside earlier_lt)
  · intro later laterInside index_le
    apply decide_eq_false
    rcases Nat.eq_or_lt_of_le index_le with rfl | index_lt
    · exact lt_irrefl _
    · exact not_lt.mpr (le_of_lt (increasing index later inside laterInside index_lt))

/-- If no member comes twice, a search finds each of them exactly in lists whose keys increase. -/
theorem found_iff_of_nodup (nodup : list.Nodup) :
    (∀ member ∈ list, list[place key list member]? = some member) ↔
      list.Pairwise (key · < key ·) := by
  constructor
  · intro found
    rcases exists_increasing_of_found found with ⟨kept, shortened, increasing, complete⟩
    have longEnough := (List.subperm_of_subset nodup complete).length_le
    rwa [shortened.eq_of_length_le longEnough] at increasing
  · intro increasing member memberMem
    rcases List.mem_iff_getElem.mp memberMem with ⟨index, inside, rfl⟩
    rw [place_getElem key increasing inside, List.getElem?_eq_getElem inside]

end

end Lexeme.Search
