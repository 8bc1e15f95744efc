import Mathlib.Data.List.Perm.Basic
import Mathlib.Data.List.Nodup
import Mathlib.Data.List.Sort
import Mathlib.Order.Basic

/-!
# Pages of a table that is sorted by a key

Each page is cut out of an order of its own: any order of the rows in which the keys
do not increase. Where no two rows with one key stand on either side of a boundary,
all orders agree on what is before it, so the pages together hold every row once
(`pages_perm`). A tie across a boundary lets two orders put one row on two pages
(`exists_shared_of_tie`).
-/

namespace Paging

variable {α κ : Type} [LinearOrder κ]

/-- The rows, the largest key first. -/
structure Sorted (key : α → κ) (rows order : List α) : Prop where
  perm : order.Perm rows
  sorted : order.Pairwise fun a b => key b ≤ key a

/-- The page with an index from zero. -/
def page (order : List α) (size index : Nat) : List α := (order.drop (size * index)).take size

/-- One key stands before and behind a boundary. -/
def Tie (keys : List κ) (boundary : Nat) : Prop :=
  0 < boundary ∧ boundary < keys.length ∧ keys[boundary - 1]? = keys[boundary]?

instance {keys : List κ} {boundary : Nat} : Decidable (Tie keys boundary) :=
  inferInstanceAs (Decidable (_ ∧ _ ∧ _))

variable {key : α → κ} {rows order order' : List α} {size count boundary : Nat}

/-- The keys of an order, whichever it is. -/
theorem map_key_eq_insertionSort (h : Sorted key rows order) :
    order.map key = (rows.map key).insertionSort (· ≥ ·) := by
  have hkeys : (order.map key).Pairwise (· ≥ ·) := List.pairwise_map.mpr h.sorted
  have hsorted := List.pairwise_insertionSort (· ≥ ·) (rows.map key)
  refine List.Perm.eq_of_pairwise ?_ hkeys hsorted ?_
  · intro a b _ _ hba hab
    exact le_antisymm hab hba
  · exact (h.perm.map key).trans (List.perm_insertionSort _ _).symm

/-- All orders have their keys in one order. -/
theorem map_key (h : Sorted key rows order) (h' : Sorted key rows order') :
    order.map key = order'.map key :=
  (map_key_eq_insertionSort h).trans (map_key_eq_insertionSort h').symm

/-- What stands before a boundary without a tie has larger keys than what is behind it. -/
theorem take_eq_filter (h : Sorted key rows order) (hlt : boundary < order.length)
    (hclean : ¬ Tie (order.map key) boundary) :
    order.take boundary = order.filter fun a => key order[boundary] < key a := by
  have hsplit := List.take_append_drop boundary order
  have hpair : (order.take boundary ++ order.drop boundary).Pairwise fun a b => key b ≤ key a :=
    hsplit.symm ▸ h.sorted
  obtain ⟨htake, hdrop, hacross⟩ := List.pairwise_append.mp hpair
  have hhead : order.drop boundary = order[boundary] :: order.drop (boundary + 1) :=
    List.drop_eq_getElem_cons hlt
  have hbefore : ∀ a ∈ order.take boundary, key order[boundary] < key a := by
    intro a ha
    have hne : order.take boundary ≠ [] := List.ne_nil_of_mem ha
    have hpos : 0 < boundary := by
      by_contra hzero
      exact hne (by simp [Nat.eq_zero_of_not_pos hzero])
    -- the last one before the boundary has a larger key, and the others no smaller one
    have hlast : key order[boundary] < key order[boundary - 1] := by
      refine lt_of_le_of_ne ?_ ?_
      · exact List.pairwise_iff_getElem.mp h.sorted _ _ (by omega) hlt (by omega)
      · intro heq
        refine hclean ⟨hpos, by rwa [List.length_map], ?_⟩
        rw [List.getElem?_map, List.getElem?_map, List.getElem?_eq_getElem (by omega),
          List.getElem?_eq_getElem hlt, Option.map_some, Option.map_some, heq]
    obtain ⟨i, hi, rfl⟩ := List.getElem_of_mem ha
    rw [List.length_take] at hi
    rw [List.getElem_take]
    rcases Nat.lt_or_ge i (boundary - 1) with hlt' | hge
    · exact lt_of_lt_of_le hlast
        (List.pairwise_iff_getElem.mp h.sorted _ _ (by omega) (by omega) hlt')
    · have heq : i = boundary - 1 := by omega
      subst heq
      exact hlast
  have hbehind : ∀ a ∈ order.drop boundary, ¬ key order[boundary] < key a := by
    intro a ha
    rw [hhead] at ha hdrop
    rcases List.mem_cons.mp ha with rfl | ha
    · exact lt_irrefl _
    · exact not_lt_of_ge ((List.pairwise_cons.mp hdrop).1 a ha)
  have hfilter : ∀ p : α → Bool, order.filter p =
      (order.take boundary).filter p ++ (order.drop boundary).filter p := by
    intro p
    rw [← List.filter_append, hsplit]
  rw [hfilter, List.filter_eq_self.mpr (by simpa using hbefore),
    List.filter_eq_nil_iff.mpr (by simpa using hbehind), List.append_nil]

/-- Two orders agree on what is before a boundary without a tie. -/
theorem take_perm (h : Sorted key rows order) (h' : Sorted key rows order')
    (hclean : ¬ Tie (order.map key) boundary) :
    (order.take boundary).Perm (order'.take boundary) := by
  have hperm := h.perm.trans h'.perm.symm
  have hkeys := map_key h h'
  rcases Nat.lt_or_ge boundary order.length with hlt | hge
  · have hlt' : boundary < order'.length := by rwa [← hperm.length_eq]
    have hkey : key order[boundary] = key order'[boundary] := by
      have hget := congrArg (·[boundary]?) hkeys
      simpa [List.getElem?_eq_getElem, hlt, hlt'] using hget
    rw [take_eq_filter h hlt hclean, take_eq_filter h' hlt' (hkeys ▸ hclean), hkey]
    exact hperm.filter _
  · rw [List.take_of_length_le hge, List.take_of_length_le (by rwa [← hperm.length_eq])]
    exact hperm

/-- So they agree on a page between two such boundaries. -/
theorem page_perm (h : Sorted key rows order) (h' : Sorted key rows order') {index : Nat}
    (hclean : ¬ Tie (order.map key) (size * index))
    (hclean' : ¬ Tie (order.map key) (size * (index + 1))) :
    (page order size index).Perm (page order' size index) := by
  have hfront := take_perm h h' hclean
  have hboth := take_perm h h' hclean'
  rw [Nat.mul_add, Nat.mul_one, List.take_add, List.take_add] at hboth
  exact (List.perm_append_left_iff _).mp ((hfront.symm.append_right _).trans hboth)

/-- The pages of a single order, one after the other. -/
theorem flatMap_page (order : List α) (size count : Nat) :
    (List.range count).flatMap (page order size) = order.take (size * count) := by
  induction count with
  | zero => simp
  | succ count ih =>
    rw [List.range_succ, List.flatMap_append, ih, List.flatMap_singleton, Nat.mul_add, Nat.mul_one,
      List.take_add, page]

/-- **Pages without ties.** Whatever order each page is cut out of, together they hold every row
once. -/
theorem pages_perm {orders : Nat → List α} (h : Sorted key rows order)
    (horders : ∀ i, i < count → Sorted key rows (orders i))
    (hclean : ∀ i, i < count → ¬ Tie (order.map key) (size * i))
    (hall : rows.length ≤ size * count) :
    ((List.range count).flatMap fun i => page (orders i) size i).Perm rows := by
  have hlast : ¬ Tie (order.map key) (size * count) := by
    rintro ⟨_, hlt, -⟩
    rw [List.length_map, h.perm.length_eq] at hlt
    omega
  have hboundary : ∀ i, i ≤ count → ¬ Tie (order.map key) (size * i) := by
    intro i hi
    rcases Nat.lt_or_eq_of_le hi with hlt | rfl
    · exact hclean i hlt
    · exact hlast
  have hpages : ∀ i ∈ List.range count, (page (orders i) size i).Perm (page order size i) := by
    intro i hi
    have hlt := List.mem_range.mp hi
    apply List.Perm.symm
    exact page_perm h (horders i hlt) (hboundary i (Nat.le_of_lt hlt)) (hboundary (i + 1) hlt)
  apply (List.Perm.flatMap_left _ hpages).trans
  rw [flatMap_page, List.take_of_length_le (by rwa [h.perm.length_eq])]
  exact h.perm

/-! ### A row on two pages -/

/-- Pages that share a row are not the rows. -/
theorem not_perm_of_shared {pages : Nat → List α} {i j : Nat} {x : α} (hrows : rows.Nodup)
    (hij : i < j) (hj : j < count) (hxi : x ∈ pages i) (hxj : x ∈ pages j) :
    ¬ ((List.range count).flatMap pages).Perm rows := by
  intro hperm
  have hnodup := hperm.nodup_iff.mpr hrows
  have hdisjoint := (List.nodup_flatMap.mp hnodup).2
  have hlen : (List.range count).length = count := List.length_range
  have hi : i < (List.range count).length := by omega
  have hpair : List.Disjoint (pages (List.range count)[i]) (pages (List.range count)[j]) :=
    List.pairwise_iff_getElem.mp hdisjoint i j hi (by omega) hij
  rw [List.getElem_range, List.getElem_range] at hpair
  exact hpair hxi hxj

/-- Two neighbours with one key may change places. -/
theorem swap_sorted {front back : List α} {x y : α}
    (h : Sorted key rows (front ++ x :: y :: back)) (hkey : key x = key y) :
    Sorted key rows (front ++ y :: x :: back) where
  perm := (List.Perm.append_left front (List.Perm.swap x y back)).trans h.perm
  sorted := by
    have hmap : (front ++ y :: x :: back).map key = (front ++ x :: y :: back).map key := by
      simp [hkey]
    have hsorted : ((front ++ y :: x :: back).map key).Pairwise fun a b => b ≤ a :=
      hmap ▸ List.pairwise_map.mpr h.sorted
    exact List.pairwise_map.mp hsorted

omit [LinearOrder κ] in
/-- A list cut open at two neighbours with one key. -/
theorem Tie.split (h : Tie (order.map key) boundary) :
    ∃ front x y back, order = front ++ x :: y :: back ∧ front.length + 1 = boundary ∧
      key x = key y := by
  obtain ⟨hpos, hlt, heq⟩ := h
  rw [List.length_map] at hlt
  have hlt' : boundary - 1 < order.length := by omega
  have hkey : key order[boundary - 1] = key order[boundary] := by
    simpa [List.getElem?_eq_getElem, hlt, hlt'] using heq
  refine ⟨order.take (boundary - 1), _, _, order.drop (boundary + 1), ?_, ?_, hkey⟩
  · have hsucc : boundary - 1 + 1 = boundary := Nat.sub_add_cancel hpos
    have hsecond : order.drop (boundary - 1 + 1) =
        order[boundary] :: order.drop (boundary + 1) := by
      rw [hsucc]
      exact List.drop_eq_getElem_cons hlt
    rw [← hsecond, ← List.drop_eq_getElem_cons hlt', List.take_append_drop]
  · rw [List.length_take]
    omega

/-- **A tie across a boundary.** Two orders put one row on both pages. -/
theorem exists_shared_of_tie {index : Nat} (h : Sorted key rows order) (hsize : 0 < size)
    (htie : Tie (order.map key) (size * (index + 1))) :
    ∃ order' x, Sorted key rows order' ∧ x ∈ page order size index ∧
      x ∈ page order' size (index + 1) := by
  obtain ⟨front, x, y, back, rfl, hfront, hkey⟩ := htie.split
  have hmul : size * (index + 1) = size * index + size := Nat.mul_succ size index
  refine ⟨front ++ y :: x :: back, x, swap_sorted h hkey, ?_, ?_⟩
  · apply List.mem_of_getElem? (i := front.length - size * index)
    have hidx : size * index + (front.length - size * index) = front.length := by omega
    rw [page, List.getElem?_take_of_lt (by omega), List.getElem?_drop, hidx,
      List.getElem?_append_right (Nat.le_refl _), Nat.sub_self]
    rfl
  · apply List.mem_of_getElem? (i := 0)
    have hone : front.length + 1 - front.length = 1 := by omega
    rw [page, List.getElem?_take_of_lt hsize, List.getElem?_drop, ← hfront, Nat.add_zero,
      List.getElem?_append_right (Nat.le_succ _), hone]
    rfl

end Paging
