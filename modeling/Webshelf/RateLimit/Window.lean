import Webshelf.RateLimit.Limiter

/-!
# How many requests a window lets through

While the counter does not expire, every request that is let through takes one of
the `max_requests` places that are left. An interval as long as the window sees the
counter expire at most once where it matters: a counter created inside the interval
outlives it. So no interval lets more than twice the limit through.
-/

namespace Webshelf

namespace RateLimit

namespace Limit

variable {l : Limit} {db : Counters} {c : Call} {calls : List Call} {start : Time}

/-! ### The counter over the calls -/

theorem dated_call (hdated : l.Dated db) (c : Call) : l.Dated (l.call db c).1 := by
  intro n d he
  have hcalled := called hdated c
  generalize hdb : (l.call db c).1 = db' at he hcalled
  cases hcalled with
  | failed => exact hdated n d he
  | began _ _ hentry =>
    cases he.symm.trans hentry
    exact ⟨Nat.le_refl 1, rfl⟩
  | counted hfound _ _ hentry =>
    cases he.symm.trans hentry
    exact ⟨Nat.le_add_left _ _, (hdated _ _ hfound).2⟩

theorem dated_after (hdated : l.Dated db) (calls : List Call) : l.Dated (l.after db calls) := by
  induction calls generalizing db with
  | nil => exact hdated
  | cons c calls ih => exact ih (dated_call hdated c)

theorem clock_call (hdated : l.Dated db) (c : Call) : (l.call db c).1.clock = c.now := by
  have hcalled := called hdated c
  generalize (l.call db c).1 = db' at hcalled ⊢
  cases hcalled with
  | failed => rfl
  | began _ hclock => exact hclock
  | counted _ _ hclock => exact hclock

theorem count_of_entry {n : Nat} {d : Option Int} (he : db.entry l.fullKey = some (n, d))
    (hd : Expiring.inTime db.clock d = true) : l.count db = n := by
  rw [count, Expiring.get_eq_some.mpr ⟨d, he, hd⟩, Option.getD_some]

theorem window_nonneg : 0 ≤ seconds l.windowSeconds :=
  Int.mul_nonneg (Int.natCast_nonneg _) (by decide)

/-- As long as it has not expired, the counter keeps its count. -/
theorem count_tick (hle : db.clock ≤ c.now) (h : (l.call db c).2.expired = false) :
    l.count (db.tick c.now) = l.count db := by
  cases hlater : (db.tick c.now).get l.fullKey with
  | some n => rw [count, count, hlater, Expiring.get_of_tick hle hlater]
  | none =>
    cases hget : db.get l.fullKey with
    | none => rw [count, count, hlater, hget]
    | some n => simp [call, hget, hlater] at h

/-- A request that is let through takes one of the places left. -/
theorem places_tick (hdated : l.Dated db) (c : Call) :
    (l.call db c).2.allowed.toNat + (l.maxRequests - l.count (l.call db c).1) ≤
      l.maxRequests - l.count (db.tick c.now) := by
  have hcalled := called hdated c
  generalize (l.call db c).1 = db' at hcalled ⊢
  generalize (l.call db c).2 = reply at hcalled ⊢
  cases hcalled with
  | failed hno => simp [hno]
  | began habsent hclock hentry hallowed =>
    have hdeadline : c.now ≤ c.now + seconds l.windowSeconds :=
      Int.le_add_of_nonneg_right window_nonneg
    have hone : l.count db' = 1 :=
      count_of_entry hentry (by rw [hclock]; exact decide_eq_true hdeadline)
    have hzero : l.count (db.tick c.now) = 0 := by rw [count, habsent, Option.getD_none]
    cases hyes : reply.allowed with
    | false => simp [hone, hzero]
    | true =>
      have hlimit := hallowed hyes
      simp only [hone, hzero, Bool.toNat_true]
      omega
  | counted hfound halive hclock hentry hallowed =>
    rename_i n d
    have hbefore : l.count (db.tick c.now) = n := count_of_entry hfound halive
    have hafter : l.count db' = n + 1 := count_of_entry hentry (by rw [hclock]; exact halive)
    cases hyes : reply.allowed with
    | false =>
      simp only [hbefore, hafter, Bool.toNat_false]
      omega
    | true =>
      have hlimit := hallowed hyes
      simp only [hbefore, hafter, Bool.toNat_true]
      omega

/-- The times of the calls do not run backwards. -/
def InOrder (clock : Time) (calls : List Call) : Prop :=
  (clock :: calls.map (·.now)).Pairwise (· ≤ ·)

instance (clock : Time) (calls : List Call) : Decidable (InOrder clock calls) :=
  inferInstanceAs (Decidable ((clock :: calls.map (·.now)).Pairwise (· ≤ ·)))

theorem InOrder.head {clock : Time} (h : InOrder clock (c :: calls)) : clock ≤ c.now :=
  (List.pairwise_cons.mp h).1 _ (by simp)

theorem InOrder.later {clock time : Time} (h : InOrder clock (c :: calls)) (hle : time ≤ c.now) :
    InOrder time (c :: calls) := by
  refine List.pairwise_cons.mpr ⟨?_, (List.pairwise_cons.mp h).2⟩
  intro now hmem
  rcases List.mem_cons.mp hmem with rfl | hmem
  · exact hle
  · exact Int.le_trans hle ((List.pairwise_cons.mp (List.pairwise_cons.mp h).2).1 now hmem)

theorem InOrder.tail {clock : Time} (h : InOrder clock (c :: calls)) : InOrder c.now calls :=
  (List.pairwise_cons.mp h).2

theorem countP_reply (p : Reply → Bool) (reply : Reply) (replies : List Reply) :
    (reply :: replies).countP p = (p reply).toNat + replies.countP p := by
  rw [List.countP_cons]
  cases p reply <;> simp [Nat.add_comm]

/-- Without an expiration, no more requests are let through than there are places left. -/
theorem allowed_le_places (hdated : l.Dated db) (horder : InOrder db.clock calls)
    (hkept : ∀ reply ∈ l.replies db calls, reply.expired = false) :
    (l.replies db calls).countP (·.allowed) ≤ l.maxRequests - l.count db := by
  induction calls generalizing db with
  | nil => simp [replies]
  | cons c calls ih =>
    rw [replies] at hkept ⊢
    obtain ⟨hfirst, hrest⟩ := List.forall_mem_cons.mp hkept
    have hclock := clock_call hdated c
    have hle := ih (dated_call hdated c) (hclock ▸ horder.tail) hrest
    have hplaces := places_tick hdated c
    rw [count_tick horder.head hfirst] at hplaces
    rw [countP_reply]
    omega

/-- A first reply with whatever follows it before the counter expires again. -/
theorem allowed_le_limit (hdated : l.Dated db) (horder : InOrder db.clock calls)
    (hkept : ∀ reply ∈ (l.replies db calls).tail, reply.expired = false) :
    (l.replies db calls).countP (·.allowed) ≤ l.maxRequests := by
  cases calls with
  | nil => simp [replies]
  | cons c calls =>
    have hplaces := places_tick hdated c
    have hclock := clock_call hdated c
    have hrest := allowed_le_places (dated_call hdated c) (hclock ▸ horder.tail) hkept
    rw [replies, countP_reply]
    omega

/-- A part of the replies comes from a part of the calls. -/
theorem replies_split {front back : List Reply} (h : l.replies db calls = front ++ back) :
    ∃ calls₁ calls₂, calls = calls₁ ++ calls₂ ∧ l.replies db calls₁ = front ∧
      l.replies (l.after db calls₁) calls₂ = back := by
  induction front generalizing db calls with
  | nil => exact ⟨[], calls, rfl, rfl, h⟩
  | cons reply front ih =>
    cases calls with
    | nil => simp [replies] at h
    | cons c calls =>
      rw [replies, List.cons_append, List.cons.injEq] at h
      obtain ⟨calls₁, calls₂, rfl, hfront, hback⟩ := ih h.2
      exact ⟨c :: calls₁, calls₂, rfl, by rw [replies, h.1, hfront], hback⟩

theorem inOrder_after (hdated : l.Dated db) {calls more : List Call}
    (h : InOrder db.clock (calls ++ more)) : InOrder (l.after db calls).clock more := by
  induction calls generalizing db with
  | nil => exact h
  | cons c calls ih =>
    apply ih (dated_call hdated c)
    rw [clock_call hdated c]
    exact h.tail

theorem InOrder.front {clock : Time} {calls more : List Call} (h : InOrder clock (calls ++ more)) :
    InOrder clock calls := by
  unfold InOrder at h ⊢
  rw [List.map_append, ← List.cons_append] at h
  exact (List.pairwise_append.mp h).1

/-- Between two expirations the limit holds. -/
theorem allowed_between (hdated : l.Dated db) (horder : InOrder db.clock calls)
    {before part later : List Reply} (h : l.replies db calls = before ++ part ++ later)
    (hkept : ∀ reply ∈ part.tail, reply.expired = false) :
    part.countP (·.allowed) ≤ l.maxRequests := by
  rw [List.append_assoc] at h
  obtain ⟨calls₁, rest, rfl, -, hrest⟩ := replies_split h
  obtain ⟨calls₂, calls₃, rfl, rfl, -⟩ := replies_split hrest
  exact allowed_le_limit (dated_after hdated calls₁) (inOrder_after hdated horder).front hkept

/-! ### Any interval as long as the window -/

/-- Let through, and in the interval that begins at `start`. -/
def allowedIn (l : Limit) (start : Time) (reply : Reply) : Bool :=
  reply.allowed && decide (start ≤ reply.now ∧ reply.now < start + seconds l.windowSeconds)

theorem now_replies {reply : Reply} (h : reply ∈ l.replies db calls) :
    ∃ c ∈ calls, reply.now = c.now := by
  induction calls generalizing db with
  | nil => simp [replies] at h
  | cons c calls ih =>
    rcases List.mem_cons.mp h with rfl | h
    · exact ⟨c, List.mem_cons_self, rfl⟩
    · obtain ⟨c', hc', hnow⟩ := ih h
      exact ⟨c', List.mem_cons_of_mem _ hc', hnow⟩

/-- After the end of the interval nothing counts. -/
theorem none_after (horder : InOrder (start + seconds l.windowSeconds) calls) :
    (l.replies db calls).countP (l.allowedIn start) = 0 := by
  apply List.countP_eq_zero.mpr
  intro reply hmem
  obtain ⟨c, hc, hnow⟩ := now_replies hmem
  have hle := (List.pairwise_cons.mp horder).1 _ (List.mem_map_of_mem hc)
  simp only [allowedIn, Bool.and_eq_true, decide_eq_true_eq, hnow, not_and]
  intro _ _
  exact Int.not_lt.mpr hle

/-- A counter that is there lives to the end of the interval. -/
def Outlives (l : Limit) (start : Time) (db : Counters) : Prop :=
  ∀ n d, db.entry l.fullKey = some (n, some d) → Expiring.inTime db.clock (some d) = true →
    start + seconds l.windowSeconds ≤ d

theorem not_expired (hdated : l.Dated db) (hlives : l.Outlives start db)
    (hlt : c.now < start + seconds l.windowSeconds) : (l.call db c).2.expired = false := by
  cases hget : db.get l.fullKey with
  | none => simp [call, hget]
  | some n =>
    obtain ⟨d, he, hd⟩ := Expiring.get_eq_some.mp hget
    obtain ⟨d, rfl⟩ := Option.isSome_iff_exists.mp (hdated n d he).2
    have hle : c.now ≤ d := Int.le_trans (Int.le_of_lt hlt) (hlives n d he hd)
    have hlater : (db.tick c.now).get l.fullKey = some n :=
      Expiring.get_eq_some.mpr ⟨some d, he, decide_eq_true hle⟩
    simp [call, hlater]

/-- A counter created in the interval outlives it, and one that does so goes on to. -/
theorem outlives_call (hdated : l.Dated db) (horder : db.clock ≤ c.now) (hstart : start ≤ c.now)
    (h : l.Outlives start db ∨ (l.call db c).2.expired = true) :
    l.Outlives start (l.call db c).1 := by
  -- what is alive at the call was alive before it, so it has not expired
  have halive : ∀ n d, db.entry l.fullKey = some (n, some d) →
      Expiring.inTime c.now (some d) = true → start + seconds l.windowSeconds ≤ d := by
    intro n d he hd
    rcases h with hlives | hexpired
    · exact hlives n d he (Expiring.inTime_mono horder hd)
    · have hlater : (db.tick c.now).get l.fullKey = some n :=
        Expiring.get_eq_some.mpr ⟨some d, he, hd⟩
      simp [call, hlater] at hexpired
  have hcalled := called hdated c
  generalize (l.call db c).1 = db' at hcalled ⊢
  intro n d he hd
  cases hcalled with
  | failed => exact halive n d he hd
  | began _ _ hentry =>
    cases he.symm.trans hentry
    exact Int.add_le_add_right hstart _
  | counted hfound hintime _ hentry =>
    cases he.symm.trans hentry
    exact halive _ d hfound hintime

theorem allowedIn_le (reply : Reply) : (l.allowedIn start reply).toNat ≤ reply.allowed.toNat := by
  unfold allowedIn
  cases reply.allowed <;> simp [Bool.toNat_le]

/-- With a counter that outlives the interval, the places left are enough for all of it. -/
theorem allowedIn_le_places (hdated : l.Dated db) (horder : InOrder db.clock calls)
    (hstart : start ≤ db.clock) (hlives : l.Outlives start db) :
    (l.replies db calls).countP (l.allowedIn start) ≤ l.maxRequests - l.count db := by
  induction calls generalizing db with
  | nil => simp [replies]
  | cons c calls ih =>
    have hnow := Int.le_trans hstart horder.head
    have hclock := clock_call hdated c
    by_cases hlt : c.now < start + seconds l.windowSeconds
    · have hkept := not_expired hdated hlives hlt
      have hrest := ih (dated_call hdated c) (hclock ▸ horder.tail) (hclock ▸ hnow)
        (outlives_call hdated horder.head hnow (Or.inl hlives))
      have hplaces := places_tick hdated c
      have hfirst := @allowedIn_le l start (l.call db c).2
      rw [count_tick horder.head hkept] at hplaces
      rw [replies, countP_reply]
      omega
    · have hover : InOrder (start + seconds l.windowSeconds) (c :: calls) :=
        horder.later (Int.not_lt.mp hlt)
      rw [none_after hover]
      exact Nat.zero_le _

/-- The places left and, after one expiration, all of them. -/
theorem allowedIn_le_twice (hdated : l.Dated db) (horder : InOrder db.clock calls)
    (hstart : start ≤ db.clock) :
    (l.replies db calls).countP (l.allowedIn start) ≤
      (l.maxRequests - l.count db) + l.maxRequests := by
  induction calls generalizing db with
  | nil => simp [replies]
  | cons c calls ih =>
    have hnow := Int.le_trans hstart horder.head
    have hclock := clock_call hdated c
    have hplaces := places_tick hdated c
    have hfirst := @allowedIn_le l start (l.call db c).2
    rw [replies, countP_reply]
    cases hexpired : (l.call db c).2.expired with
    | false =>
      have hrest := ih (dated_call hdated c) (hclock ▸ horder.tail) (hclock ▸ hnow)
      rw [count_tick horder.head hexpired] at hplaces
      omega
    | true =>
      have hrest := allowedIn_le_places (dated_call hdated c) (hclock ▸ horder.tail)
        (hclock ▸ hnow) (outlives_call hdated horder.head hnow (Or.inr hexpired))
      omega

/-- No half-open interval as long as the window lets more than twice the limit through. -/
theorem allowedIn_le_double (hdated : l.Dated db) (horder : InOrder db.clock calls)
    (start : Time) :
    (l.replies db calls).countP (l.allowedIn start) ≤ 2 * l.maxRequests := by
  induction calls generalizing db with
  | nil => simp [replies]
  | cons c calls ih =>
    have hclock := clock_call hdated c
    have hrest := ih (dated_call hdated c) (hclock ▸ horder.tail)
    by_cases hnow : start ≤ c.now
    · -- a tick without a call brings the clock into the interval
      have hplaces := places_tick hdated c
      have hfirst := @allowedIn_le l start (l.call db c).2
      have htwice := allowedIn_le_twice (dated_call hdated c) (hclock ▸ horder.tail)
        (hclock ▸ hnow)
      rw [replies, countP_reply]
      omega
    · have hbefore : l.allowedIn start (l.call db c).2 = false := by
        have hreply : (l.call db c).2.now = c.now := rfl
        simp [allowedIn, hreply, hnow]
      rw [replies, countP_reply, hbefore]
      simpa using hrest

/-- **The windows of the rate limiter.** Over any calls on a key, at times that do not run
backwards, the counter lets no more than `max_requests` through between two expirations and no
more than twice as many in a half-open interval as long as the window, and it is never without
a time to live. -/
theorem windows_bounded (l : Limit) (db : Counters) (calls : List Call)
    (habsent : db.entry l.fullKey = none) (horder : InOrder db.clock calls) :
    (∀ before part later, l.replies db calls = before ++ part ++ later →
      (∀ reply ∈ part.tail, reply.expired = false) →
      part.countP (·.allowed) ≤ l.maxRequests) ∧
    (∀ start : Time, (l.replies db calls).countP (fun reply => reply.allowed &&
      decide (start ≤ reply.now ∧ reply.now < start + seconds l.windowSeconds)) ≤
        2 * l.maxRequests) ∧
    ∀ front, front <+: calls → ∀ count deadline,
      (l.after db front).entry l.fullKey = some (count, deadline) → deadline.isSome = true := by
  have hdated : l.Dated db := by
    intro n d he
    rw [habsent] at he
    cases he
  refine ⟨?_, allowedIn_le_double hdated horder, ?_⟩
  · intro before part later hsplit hkept
    exact allowed_between hdated horder hsplit hkept
  · intro front _ count deadline he
    exact (dated_after hdated front count deadline he).2

/-- Four requests with a limit of one in two seconds, the last two after the counter expired. -/
theorem windows_bounded_four :
    ((Limit.mk ⟨"rl"⟩ "login" 1 2 (by decide)).replies ⟨0, fun _ => none⟩
      [⟨0, .up⟩, ⟨seconds 1, .up⟩, ⟨seconds 3, .up⟩, ⟨seconds 3, .up⟩]).countP (fun reply =>
        reply.allowed && decide (seconds 1 ≤ reply.now ∧ reply.now < seconds 1 + seconds 2)) ≤
      2 * 1 :=
  (windows_bounded (Limit.mk ⟨"rl"⟩ "login" 1 2 (by decide)) ⟨0, fun _ => none⟩
    [⟨0, .up⟩, ⟨seconds 1, .up⟩, ⟨seconds 3, .up⟩, ⟨seconds 3, .up⟩] rfl (by decide)).2.1
    (seconds 1)

end Limit

end RateLimit

end Webshelf
