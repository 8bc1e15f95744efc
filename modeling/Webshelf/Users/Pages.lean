import Webshelf.Lib.Paging
import Webshelf.Users.Listing

/-!
# The pages of a listing

`list_users` of `services/user.rs` orders by `created_at` alone, and each page is
a query of its own, so rows of one `created_at` may stand in another order on the
next page. As long as no two of them meet at the boundary of two pages, and the
pages do not go past the cap on `page`, all pages together hold every row that the
actor sees once.
-/

namespace Webshelf

open Paging

namespace Db

/-- `UserService::list_users` where the query for the page has its rows in the order `listed`. -/
def listUsersIn (db : Db) (listed : List UserModel) (params : PaginationParams)
    (actorRole : String) (countFails pageFails : Bool) : Db × Except UserError PaginatedResponse :=
  let page := min (max params.page 1) 1000000
  let perPage := min (max params.perPage 1) 100
  let fetch (db : Db) (total : Nat) : Db × Except UserError PaginatedResponse :=
    if pageFails then (db, .error .internal)
    else (db, .ok {
      items := ((listed.drop (perPage * (page - 1))).take perPage).map UserResponse.ofModel
      total, page, perPage
      totalPages := (total + perPage - 1) / perPage })
  match db.redis (.userCount actorRole) with
  | some (.count count) => fetch db count
  | _ =>
    if countFails then (db, .error .internal)
    else
      let count := (db.visible actorRole).length
      let cached := Function.update db.redis (.userCount actorRole) (some (.count count))
      fetch { db with redis := cached } count

/-- `ORDER BY created_at DESC`, with the rows of one `created_at` in the order of the table. -/
def newestFirst (db : Db) (actorRole : String) : List UserModel :=
  (db.visible actorRole).mergeSort fun a b => decide (b.createdAt ≤ a.createdAt)

/-- The `created_at` of the rows that an actor sees, the newest first. -/
def createdAts (db : Db) (actorRole : String) : List Time :=
  ((db.visible actorRole).map UserModel.createdAt).insertionSort (· ≥ ·)

def totalPages (db : Db) (actorRole : String) (perPage : Nat) : Nat :=
  ((db.visible actorRole).length + perPage - 1) / perPage

/-- The count of an actor is not cached, or is that of the rows. -/
def CountCorrect (db : Db) (actorRole : String) : Prop :=
  ∀ n, db.redis (.userCount actorRole) = some (.count n) → n = (db.visible actorRole).length

end Db

/-- A call of `list_users` with the database it finds, the order its query for the page has the
rows in, and its answer. -/
structure Listing where
  db : Db
  listed : List UserModel
  answer : PaginatedResponse

/-- A call that finds the rows of `db`, and succeeds. -/
structure Listing.Of (call : Listing) (db : Db) (actorRole : String) (page perPage : Nat) :
    Prop where
  users : call.db.users = db.users
  ids : call.db.ids = db.ids
  counted : call.db.CountCorrect actorRole
  newest : Sorted UserModel.createdAt (db.visible actorRole) call.listed
  answered : (call.db.listUsersIn call.listed ⟨page, perPage⟩ actorRole false false).2 =
    .ok call.answer

/-- Whatever order each query has, the pages from the first to the last hold every row that the
actor sees once. The call with index `i` is for page `i + 1`. -/
def Db.ListsOnce (db : Db) (actorRole : String) (perPage : Nat) : Prop :=
  ∀ calls : Nat → Listing,
    (∀ i, i = 0 ∨ i < (calls 0).answer.totalPages →
      (calls i).Of db actorRole (i + 1) perPage) →
    ((List.range (calls 0).answer.totalPages).flatMap fun i => (calls i).answer.items).Perm
      ((db.visible actorRole).map UserResponse.ofModel)

namespace Db

variable {db db' : Db} {actorRole : String} {listed : List UserModel} {perPage : Nat}

theorem listUsers_eq (params : PaginationParams) (countFails pageFails : Bool) :
    db.listUsers params actorRole countFails pageFails =
      db.listUsersIn (db.newestFirst actorRole) params actorRole countFails pageFails := rfl

theorem sorted_newestFirst :
    Sorted UserModel.createdAt (db.visible actorRole) (db.newestFirst actorRole) where
  perm := List.mergeSort_perm _ _
  sorted := by
    have hsorted := List.pairwise_mergeSort' (fun a b : UserModel => b.createdAt ≤ a.createdAt)
      (db.visible actorRole)
    exact hsorted

/-- Every order that a query may have has the same `created_at`s. -/
theorem map_createdAt (h : Sorted UserModel.createdAt (db.visible actorRole) listed) :
    listed.map UserModel.createdAt = db.createdAts actorRole := map_key_eq_insertionSort h

theorem visible_congr (husers : db'.users = db.users) (hids : db'.ids = db.ids) :
    db'.visible actorRole = db.visible actorRole := by
  unfold visible
  rw [husers, hids]

/-- The answer of a call whose two queries succeed. -/
theorem listUsersIn_answer (listed : List UserModel) (page : Nat)
    (hcount : db.CountCorrect actorRole) (hpos : 1 ≤ perPage) (hcap : perPage ≤ 100) :
    (db.listUsersIn listed ⟨page, perPage⟩ actorRole false false).2 = .ok {
      items := (Paging.page listed perPage (min (max page 1) 1000000 - 1)).map UserResponse.ofModel
      total := (db.visible actorRole).length
      page := min (max page 1) 1000000
      perPage := perPage
      totalPages := db.totalPages actorRole perPage } := by
  have hclamp : min (max perPage 1) 100 = perPage := by omega
  unfold listUsersIn
  dsimp only
  rw [hclamp]
  split
  · rename_i count hcached
    rw [hcount count hcached]
    rfl
  · rfl

/-- The rows stay, and the count that a call leaves is correct. -/
theorem listUsersIn_db (listed : List UserModel) (hcount : db.CountCorrect actorRole)
    (params : PaginationParams) (countFails pageFails : Bool) :
    (db.listUsersIn listed params actorRole countFails pageFails).1.users = db.users ∧
      (db.listUsersIn listed params actorRole countFails pageFails).1.ids = db.ids ∧
      (db.listUsersIn listed params actorRole countFails pageFails).1.CountCorrect actorRole := by
  let cached := Function.update db.redis (.userCount actorRole)
    (some (.count (db.visible actorRole).length))
  have hfresh : CountCorrect { db with redis := cached } actorRole := by
    intro n hn
    cases (Function.update_self ..).symm.trans hn
    rfl
  unfold listUsersIn
  dsimp only
  (repeat' split) <;> first | exact ⟨rfl, rfl, hcount⟩ | exact ⟨rfl, rfl, hfresh⟩

end Db

namespace Listing

variable {db : Db} {actorRole : String} {listed : List UserModel} {page page' perPage : Nat}
  {call : Listing}

theorem Of.answer_eq (h : call.Of db actorRole page perPage) (hpos : 1 ≤ perPage)
    (hcap : perPage ≤ 100) :
    call.answer.totalPages = db.totalPages actorRole perPage ∧
      call.answer.items = (Paging.page call.listed perPage (min (max page 1) 1000000 - 1)).map
        UserResponse.ofModel := by
  have hanswer := h.answered
  rw [Db.listUsersIn_answer _ _ h.counted hpos hcap] at hanswer
  injection hanswer with hanswer
  rw [← hanswer]
  refine ⟨?_, rfl⟩
  dsimp only
  rw [Db.totalPages, Db.totalPages, Db.visible_congr h.users h.ids]

/-- There is a call for every page and every order. -/
theorem exists_of {db' : Db} (husers : db'.users = db.users) (hids : db'.ids = db.ids)
    (hcount : db'.CountCorrect actorRole) (hpos : 1 ≤ perPage) (hcap : perPage ≤ 100)
    (hlisted : Sorted UserModel.createdAt (db.visible actorRole) listed) :
    ∃ call : Listing, call.db = db' ∧ call.listed = listed ∧
      call.Of db actorRole page perPage := by
  have hanswer := Db.listUsersIn_answer listed page hcount hpos hcap
  exact ⟨⟨db', listed, _⟩, rfl, rfl, husers, hids, hcount, hlisted, hanswer⟩

/-- The next call may find what a call leaves. -/
theorem Of.next (h : call.Of db actorRole page perPage) (hpos : 1 ≤ perPage)
    (hcap : perPage ≤ 100) (hlisted : Sorted UserModel.createdAt (db.visible actorRole) listed) :
    ∃ call' : Listing,
      call'.db = (call.db.listUsersIn call.listed ⟨page, perPage⟩ actorRole false false).1 ∧
      call'.listed = listed ∧ call'.Of db actorRole page' perPage := by
  obtain ⟨husers, hids, hcount⟩ := Db.listUsersIn_db call.listed h.counted ⟨page, perPage⟩
    false false
  exact exists_of (husers.trans h.users) (hids.trans h.ids) hcount hpos hcap hlisted

end Listing

namespace Db

variable {db : Db} {actorRole : String} {perPage : Nat}

theorem length_le_pages (hpos : 1 ≤ perPage) :
    (db.visible actorRole).length ≤ perPage * db.totalPages actorRole perPage := by
  have hdiv := Nat.div_add_mod ((db.visible actorRole).length + perPage - 1) perPage
  have hmod := Nat.mod_lt ((db.visible actorRole).length + perPage - 1) hpos
  rw [totalPages]
  omega

/-- Every page up to the last begins before the end. -/
theorem page_lt_length {i : Nat} (hpos : 1 ≤ perPage) (h : i < db.totalPages actorRole perPage) :
    perPage * i < (db.visible actorRole).length := by
  have hle := Nat.mul_le_of_le_div perPage (i + 1) _ h
  rw [Nat.mul_comm, Nat.mul_succ] at hle
  omega

/-- The rows have the ids that they are kept under. -/
theorem nodup_visible (hkeyed : ∀ u m, (db.users u).committed = some m → m.id = u) :
    ((db.visible actorRole).map UserResponse.ofModel).Nodup := by
  have hinj : ∀ u u' m, m ∈ (db.users u).committed → m ∈ (db.users u').committed → u = u' := by
    intro u u' m hm hm'
    exact (hkeyed u m hm).symm.trans (hkeyed u' m hm')
  have hrows : (db.visible actorRole).Nodup :=
    ((List.nodup_dedup db.ids).filterMap hinj).filter _
  apply List.Nodup.map_on ?_ hrows
  intro m hm m' hm' heq
  have hmem : ∀ x ∈ db.visible actorRole, (db.users x.id).committed = some x := by
    intro x hx
    obtain ⟨u, -, hu⟩ := List.mem_filterMap.mp (List.mem_of_mem_filter hx)
    rw [hkeyed u x hu]
    exact hu
  have hid : m.id = m'.id := congrArg UserResponse.id heq
  have hrow := hmem m hm
  rw [hid, hmem m' hm'] at hrow
  exact (Option.some.inj hrow).symm

/-- **The pages of a listing.** With at most 1,000,000 pages, and no two rows of one `created_at`
on either side of a page's beginning, every row that the actor sees is listed once. -/
theorem pages_partition (hpos : 1 ≤ perPage) (hcap : perPage ≤ 100)
    (hpages : db.totalPages actorRole perPage ≤ 1000000)
    (hclean : ∀ i, i < db.totalPages actorRole perPage →
      ¬ Tie (db.createdAts actorRole) (perPage * i)) :
    db.ListsOnce actorRole perPage := by
  intro calls hcalls
  rw [← map_createdAt sorted_newestFirst] at hclean
  have htotal := ((hcalls 0 (Or.inl rfl)).answer_eq hpos hcap).1
  rw [htotal] at hcalls ⊢
  have hitems : ∀ i ∈ List.range (db.totalPages actorRole perPage), (calls i).answer.items =
      (page (calls i).listed perPage i).map UserResponse.ofModel := by
    intro i hi
    have hlt := List.mem_range.mp hi
    have hindex : min (max (i + 1) 1) 1000000 - 1 = i := by omega
    rw [((hcalls i (Or.inr hlt)).answer_eq hpos hcap).2, hindex]
  have hperm := pages_perm sorted_newestFirst (fun i hi => (hcalls i (Or.inr hi)).newest) hclean
    (length_le_pages hpos)
  rw [List.flatMap_congr hitems, ← List.map_flatMap]
  exact hperm.map _

/-! ### A row listed twice -/

/-- Two pages with one row, in orders that their queries may have. -/
theorem not_listsOnce_of_shared (orders : Nat → List UserModel) {i j : Nat} {m : UserModel}
    (hkeyed : ∀ u m, (db.users u).committed = some m → m.id = u) (hpos : 1 ≤ perPage)
    (hcap : perPage ≤ 100)
    (horders : ∀ i, Sorted UserModel.createdAt (db.visible actorRole) (orders i)) (hij : i < j)
    (hj : j < db.totalPages actorRole perPage)
    (hi : m ∈ page (orders i) perPage (min (max (i + 1) 1) 1000000 - 1))
    (hj' : m ∈ page (orders j) perPage (min (max (j + 1) 1) 1000000 - 1)) :
    ¬ db.ListsOnce actorRole perPage := by
  intro honce
  let cold : Db := { db with redis := fun _ => none }
  have hcold : cold.CountCorrect actorRole := by
    intro n hn
    cases hn
  have hexists : ∀ i, ∃ call : Listing, call.db = cold ∧ call.listed = orders i ∧
      call.Of db actorRole (i + 1) perPage := by
    intro i
    exact Listing.exists_of rfl rfl hcold hpos hcap (horders i)
  choose calls _ hlisted hof using hexists
  have htotal := ((hof 0).answer_eq hpos hcap).1
  have hmem : ∀ k, m ∈ page (orders k) perPage (min (max (k + 1) 1) 1000000 - 1) →
      UserResponse.ofModel m ∈ (calls k).answer.items := by
    intro k hk
    rw [((hof k).answer_eq hpos hcap).2, hlisted k]
    exact List.mem_map_of_mem hk
  have hperm := honce calls (fun i _ => hof i)
  rw [htotal] at hperm
  exact not_perm_of_shared (nodup_visible hkeyed) hij hj (hmem i hi) (hmem j hj') hperm

/-- Past the cap the last page that can be asked for comes again. -/
theorem not_listsOnce_of_crowd (hkeyed : ∀ u m, (db.users u).committed = some m → m.id = u)
    (hpos : 1 ≤ perPage) (hcap : perPage ≤ 100)
    (hcrowd : 1000000 < db.totalPages actorRole perPage) : ¬ db.ListsOnce actorRole perPage := by
  have hlt : perPage * 999999 < (db.newestFirst actorRole).length := by
    rw [sorted_newestFirst.perm.length_eq]
    exact page_lt_length hpos (by omega)
  have hfirst : (db.newestFirst actorRole)[perPage * 999999] ∈
      page (db.newestFirst actorRole) perPage 999999 := by
    obtain ⟨size, rfl⟩ := Nat.exists_eq_succ_of_ne_zero (Nat.ne_of_gt hpos)
    rw [page, List.drop_eq_getElem_cons hlt, List.take_succ_cons]
    exact List.mem_cons_self
  exact not_listsOnce_of_shared _ hkeyed hpos hcap (fun _ => sorted_newestFirst)
    (Nat.lt_succ_self 999999) hcrowd hfirst hfirst

/-- So does a row that another one of the same `created_at` follows on the next page. -/
theorem not_listsOnce_of_tie {i : Nat}
    (hkeyed : ∀ u m, (db.users u).committed = some m → m.id = u) (hpos : 1 ≤ perPage)
    (hcap : perPage ≤ 100) (hi : i + 1 < db.totalPages actorRole perPage) (hpages : i + 1 < 1000000)
    (htie : Tie (db.createdAts actorRole) (perPage * (i + 1))) :
    ¬ db.ListsOnce actorRole perPage := by
  rw [← map_createdAt sorted_newestFirst] at htie
  obtain ⟨order, m, horder, hbefore, hbehind⟩ := exists_shared_of_tie sorted_newestFirst hpos htie
  let orders k := if k = i then db.newestFirst actorRole else order
  have horders : ∀ k, Sorted UserModel.createdAt (db.visible actorRole) (orders k) := by
    intro k
    dsimp only [orders]
    split
    · exact sorted_newestFirst
    · exact horder
  have hthis : min (max (i + 1) 1) 1000000 - 1 = i := by omega
  have hnext : min (max (i + 1 + 1) 1) 1000000 - 1 = i + 1 := by omega
  refine not_listsOnce_of_shared orders hkeyed hpos hcap horders (Nat.lt_succ_self i) hi
    (m := m) ?_ ?_
  · rw [hthis]
    simpa [orders] using hbefore
  · rw [hnext]
    simpa [orders] using hbehind

/-! ### Tables -/

/-- A table that holds the given rows. -/
def ofRows (rows : List UserModel) : Db := (World.ofRows rows [] 0).db

theorem keyed_ofRows {rows : List UserModel} :
    ∀ u m, ((ofRows rows).users u).committed = some m → m.id = u := by
  intro u m hm
  simpa using List.find?_some hm

theorem visible_ofRows {rows : List UserModel} (h : (rows.map UserModel.id).Nodup) :
    (ofRows rows).visible actorRole = rows.filter (actorSees actorRole) := by
  have hfind : ∀ m ∈ rows, rows.find? (fun x => x.id == m.id) = some m := by
    intro m hm
    cases hf : rows.find? (fun x => x.id == m.id) with
    | none => simpa using List.find?_eq_none.mp hf m hm
    | some x =>
      have hid : x.id = m.id := by simpa using List.find?_some hf
      rw [List.inj_on_of_nodup_map h (List.mem_of_find?_eq_some hf) hm hid]
  have hrows : (rows.map UserModel.id).filterMap
      (fun id => ((ofRows rows).users id).committed) = rows := by
    rw [List.filterMap_map]
    exact (List.filterMap_congr hfind).trans List.filterMap_some
  unfold visible
  rw [show (ofRows rows).ids = rows.map UserModel.id from rfl, h.dedup, hrows]

/-- The rows of a table, with ids from zero. -/
def row (role : String) (createdAt : Time) (i : Nat) : UserModel :=
  { UserModel.registered i (toString i ++ "@example.com") "Passw0rd!" role with createdAt }

/-- A million and one accounts, one registered after the other. -/
def crowd : Db := ofRows ((List.range 1000001).map fun i : Nat => row "user" i i)

/-- Two accounts of one `created_at`. -/
def twins : Db := ofRows [row "user" 0 0, row "user" 0 1]

/-- Three accounts, of which an admin sees two. -/
def staff : Db := ofRows [row "user" 0 0, row "admin" 0 1, row "user" 1 2]

theorem pages_partition_staff : staff.ListsOnce "admin" 1 :=
  pages_partition (by decide) (by decide) (by decide +kernel) (by decide +kernel)

theorem crowd_and_twins : ¬ crowd.ListsOnce "system" 1 ∧ ¬ twins.ListsOnce "system" 1 := by
  constructor
  · have hids : (((List.range 1000001).map fun i : Nat => row "user" i i).map
        UserModel.id).Nodup := by
      rw [List.map_map]
      apply List.Nodup.map ?_ List.nodup_range
      intro a b hab
      exact Int.natCast_inj.mp hab
    have hlength : (crowd.visible "system").length = 1000001 := by
      have hall : actorSees "system" = fun _ => true := funext (actorSees_of_ne (by decide))
      rw [crowd, visible_ofRows hids, hall, List.filter_true, List.length_map, List.length_range]
    have hpages : 1000000 < crowd.totalPages "system" 1 := by
      rw [totalPages, hlength]
      decide
    exact not_listsOnce_of_crowd keyed_ofRows (by decide) (by decide) hpages
  · exact not_listsOnce_of_tie (i := 0) keyed_ofRows (by decide) (by decide) (by decide +kernel)
      (by decide) (by decide +kernel)

end Db

end Webshelf
