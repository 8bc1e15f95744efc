import Mathlib.Data.List.Nodup
import Webshelf.RateLimit.Middleware
import Webshelf.RateLimit.Window

/-!
# What the limited routes let through

Requests to all limited routes share the counters of Redis, and their checks
interleave. The checks of one key are seen by its counter as if no others were
made: no check touches the counter of another key, and the keys of two guards, and
of an address and an email, differ. So the windows bound what each guard lets through.
-/

namespace Webshelf

open Adapters (Bytes Json UnifiedRequest extractEmailFromBody ReadsAlike
  parseJsonOrForm)

namespace RateLimit

/-! ### The counter of one key -/

section
variable {db db' : Counters} {cfg : RateLimitConfig} {key other : String} {ttl n : Nat}
  {maxRequests windowSeconds : Nat} {line : Line}

theorem clock_incAndExpire : (incAndExpire db key ttl).1.clock = db.clock := by
  unfold incAndExpire
  dsimp only
  split <;> rfl

theorem entry_incAndExpire_other (h : other ≠ key) :
    (incAndExpire db key ttl).1.entry other = db.entry other := by
  unfold incAndExpire
  dsimp only
  split
  · exact (Expiring.entry_write_of_ne h).trans (Expiring.entry_write_of_ne h)
  · exact Expiring.entry_write_of_ne h

/-- What the script does with a key depends on its entry and on the time. -/
theorem incAndExpire_congr (he : db.entry key = db'.entry key) (hc : db.clock = db'.clock) :
    (incAndExpire db key ttl).1.entry key = (incAndExpire db' key ttl).1.entry key ∧
      (incAndExpire db key ttl).2 = (incAndExpire db' key ttl).2 := by
  have hget : db.get key = db'.get key := Expiring.get_congr he hc
  have hcount : (incAndExpire db key ttl).2 = (incAndExpire db' key ttl).2 := by
    unfold incAndExpire
    dsimp only
    rw [Expiring.get_alter_self, Expiring.get_alter_self, hget]
    split <;> rfl
  refine ⟨?_, hcount⟩
  have hentry : (db.alter key fun count => count.getD 0 + 1).entry key =
      (db'.alter key fun count => count.getD 0 + 1).entry key := by
    rw [Expiring.alter, Expiring.alter, Expiring.entry_write_self, Expiring.entry_write_self,
      hget, he]
  unfold incAndExpire
  dsimp only
  rw [Expiring.get_alter_self, Expiring.get_alter_self, hget]
  split
  · rw [Expiring.expire, Expiring.expire, Expiring.entry_write_self, Expiring.entry_write_self,
      Expiring.get_alter_self, Expiring.get_alter_self, hget]
    exact congrArg (fun clock => some (_, some (clock + seconds ttl))) hc
  · exact hentry

theorem clock_check :
    (check cfg db key maxRequests windowSeconds line).1.clock = db.clock := by
  cases line with
  | disabled | unreachable => rfl
  | replyLost | up => exact clock_incAndExpire

theorem entry_check_other (h : other ≠ buildKey cfg key) :
    (check cfg db key maxRequests windowSeconds line).1.entry other = db.entry other := by
  cases line with
  | disabled | unreachable => rfl
  | replyLost | up => exact entry_incAndExpire_other h

theorem check_congr (he : db.entry (buildKey cfg key) = db'.entry (buildKey cfg key))
    (hc : db.clock = db'.clock) :
    (check cfg db key maxRequests windowSeconds line).1.entry (buildKey cfg key) =
      (check cfg db' key maxRequests windowSeconds line).1.entry (buildKey cfg key) ∧
    (check cfg db key maxRequests windowSeconds line).2 =
      (check cfg db' key maxRequests windowSeconds line).2 := by
  obtain ⟨hentry, hcount⟩ := @incAndExpire_congr db db' (buildKey cfg key) windowSeconds he hc
  cases line with
  | disabled | unreachable => exact ⟨he, rfl⟩
  | replyLost => exact ⟨hentry, rfl⟩
  | up => exact ⟨hentry, congrArg (fun count => Except.ok (decide (count ≤ maxRequests))) hcount⟩

theorem buildKey_inj (h : buildKey cfg key = buildKey cfg other) : key = other := by
  unfold buildKey at h
  split at h
  · exact h
  · exact (String.append_right_inj _).mp h

end

/-! ### The checks of one key among all others -/

/-- The counters come from `db` by the checks that were made. -/
inductive Door.Trail (cfg : RateLimitConfig) (db : Counters) : Door → Prop
  | start : Trail cfg db ⟨db, []⟩
  | ask {door : Door} {now : Time} (q : Query) (line : Line) : Trail cfg db door →
      door.counters.clock ≤ now → Trail cfg db (door.ask cfg q now line).1

namespace Limit

variable {l : Limit} {db db' : Counters} {door : Door} {c : Call} {calls : List Call}

theorem replies_append {more : List Call} :
    l.replies db (calls ++ more) = l.replies db calls ++ l.replies (l.after db calls) more := by
  induction calls generalizing db with
  | nil => rfl
  | cons c calls ih =>
    rw [List.cons_append, replies, ih]
    rfl

theorem after_append {more : List Call} :
    l.after db (calls ++ more) = l.after (l.after db calls) more :=
  List.foldl_append

def query (l : Limit) : Query := ⟨l.key, l.maxRequests, l.windowSeconds⟩

/-- The calls that concern the counter. -/
def ownCalls (l : Limit) (asked : List Asked) : List Call :=
  (asked.filter fun a => a.query.key == l.key).map fun a => ⟨a.now, a.line⟩

/-- The counter and its answers are those of the calls on its key alone. -/
structure Projects (l : Limit) (db : Counters) (door : Door) : Prop where
  entry : door.counters.entry l.fullKey = (l.after db (l.ownCalls door.asked)).entry l.fullKey
  replies : (door.asked.filter fun a => a.query.key == l.key).map (fun a => (a.now, a.allowed)) =
    (l.replies db (l.ownCalls door.asked)).map fun reply => (reply.now, reply.allowed)
  order : InOrder db.clock (l.ownCalls door.asked)
  clock : ∀ now ∈ db.clock :: (l.ownCalls door.asked).map (·.now), now ≤ door.counters.clock

theorem InOrder.append {clock : Time} {c : Call} (h : InOrder clock calls)
    (hlast : ∀ now ∈ clock :: calls.map (·.now), now ≤ c.now) : InOrder clock (calls ++ [c]) := by
  unfold InOrder at h ⊢
  rw [List.map_append, ← List.cons_append]
  refine List.pairwise_append.mpr ⟨h, List.pairwise_singleton _ _, ?_⟩
  intro now hnow later hlater
  rw [List.mem_singleton.mp hlater]
  exact hlast now hnow

theorem projects_of_trail (h : door.Trail l.cfg db)
    (hsame : ∀ a ∈ door.asked, a.query.key = l.key → a.query = l.query) :
    l.Projects db door := by
  induction h with
  | start =>
    refine ⟨rfl, rfl, List.pairwise_singleton _ _, ?_⟩
    intro now hnow
    exact Int.le_of_eq (List.mem_singleton.mp hnow)
  | @ask door now q line htrail hle ih =>
    have hp := ih fun a ha => hsame a (List.mem_append_left _ ha)
    have hclock : (door.ask l.cfg q now line).1.counters.clock = now := clock_check
    have hpast : ∀ t ∈ db.clock :: (l.ownCalls door.asked).map (·.now), t ≤ now := by
      intro t ht
      exact Int.le_trans (hp.clock t ht) hle
    by_cases hkey : q.key = l.key
    · have hq : q = l.query :=
        hsame _ (List.mem_append_right _ (List.mem_singleton_self _)) hkey
      subst hq
      have hcalls : l.ownCalls (door.ask l.cfg l.query now line).1.asked =
          l.ownCalls door.asked ++ [⟨now, line⟩] := by
        simp [ownCalls, Door.ask, query]
      obtain ⟨hentry, hresult⟩ := @check_congr (door.counters.tick now)
        ((l.after db (l.ownCalls door.asked)).tick now) l.cfg l.key l.maxRequests l.windowSeconds
        line hp.entry rfl
      refine ⟨?_, ?_, ?_, ?_⟩
      · rw [hcalls, after_append]
        exact hentry
      · rw [hcalls, replies_append, List.map_append, ← hp.replies]
        have hfilter : ((door.ask l.cfg l.query now line).1.asked.filter
            fun a => a.query.key == l.key) = (door.asked.filter fun a => a.query.key == l.key) ++
              [(door.ask l.cfg l.query now line).2] := by
          simp [Door.ask, query]
        rw [hfilter, List.map_append]
        have hallowed : (door.ask l.cfg l.query now line).2.allowed =
            (l.call (l.after db (l.ownCalls door.asked)) ⟨now, line⟩).2.allowed :=
          congrArg (fun result => Reply.allowed ⟨now, false, result⟩) hresult
        exact congrArg (fun allowed => _ ++ [(now, allowed)]) hallowed
      · rw [hcalls]
        exact hp.order.append hpast
      · intro t ht
        rw [hcalls, List.map_append, ← List.cons_append] at ht
        rw [hclock]
        rcases List.mem_append.mp ht with ht | ht
        · exact hpast t ht
        · exact Int.le_of_eq (List.mem_singleton.mp ht)
    · have hother : l.fullKey ≠ buildKey l.cfg q.key := fun h => hkey (buildKey_inj h).symm
      have hfilter : ((door.ask l.cfg q now line).1.asked.filter fun a => a.query.key == l.key) =
          door.asked.filter fun a => a.query.key == l.key := by
        simp [Door.ask, hkey]
      have hcalls : l.ownCalls (door.ask l.cfg q now line).1.asked = l.ownCalls door.asked := by
        rw [ownCalls, hfilter, ownCalls]
      refine ⟨?_, ?_, ?_, ?_⟩
      · rw [hcalls, ← hp.entry]
        exact entry_check_other hother
      · rw [hcalls, hfilter, hp.replies]
      · rw [hcalls]
        exact hp.order
      · rw [hcalls, hclock]
        exact hpast

/-- Let through by the check of that key, in the interval that begins at `start`. -/
def grants (l : Limit) (start : Time) (a : Asked) : Bool :=
  a.query.key == l.key && (a.allowed &&
    decide (start ≤ a.now ∧ a.now < start + seconds l.windowSeconds))

/-- No interval as long as the window sees more than twice the limit let through. -/
theorem grants_le_double (h : door.Trail l.cfg db) (hdated : l.Dated db)
    (hsame : ∀ a ∈ door.asked, a.query.key = l.key → a.query = l.query) (start : Time) :
    door.asked.countP (l.grants start) ≤ 2 * l.maxRequests := by
  have hp := projects_of_trail h hsame
  let inWindow : Time × Bool → Bool := fun p =>
    p.2 && decide (start ≤ p.1 ∧ p.1 < start + seconds l.windowSeconds)
  calc door.asked.countP (l.grants start)
      = (door.asked.filter fun a => a.query.key == l.key).countP
          (inWindow ∘ fun a => (a.now, a.allowed)) := by
        rw [List.countP_filter]
        refine List.countP_congr ?_
        intro a _
        simp [grants, inWindow, and_comm]
    _ = (l.replies db (l.ownCalls door.asked)).countP
          (inWindow ∘ fun reply => (reply.now, reply.allowed)) := by
        rw [← List.countP_map, hp.replies, List.countP_map]
    _ ≤ 2 * l.maxRequests := allowedIn_le_double hdated hp.order start

end Limit

/-! ### The keys of the guards -/

/-- The guards use one limiter configuration, and a prefix without a colon tells them apart. -/
structure Table (cfg : RateLimitConfig) (guards : List RateLimitGuard) : Prop where
  config : ∀ g ∈ guards, g.limiter.config = cfg
  plain : ∀ g ∈ guards, ':' ∉ g.keyPrefix.toList
  apart : (guards.map (·.keyPrefix)).Nodup
  windows : ∀ g ∈ guards, 1 ≤ g.ipWindowSeconds ∧ 1 ≤ g.emailWindowSeconds

section
variable {cfg : RateLimitConfig} {guards : List RateLimitGuard} {g g' : RateLimitGuard}
  {req req' : Adapters.Request} {q q' : Query} {json : Bytes → Option Json}
  {form : Bytes → List (String × String)} {toLowercase : String → String}

theorem toList_ipKey (g : RateLimitGuard) (ip : String) :
    (g.ipKey ip).toList = g.keyPrefix.toList ++ ':' :: ('i' :: 'p' :: ':' :: ip.toList) := by
  rw [RateLimitGuard.ipKey, String.toList_append, String.toList_append, List.append_assoc]
  rfl

theorem toList_emailKey (g : RateLimitGuard) (email : String) :
    (g.emailKey email).toList =
      g.keyPrefix.toList ++ ':' :: ('e' :: 'm' :: 'a' :: 'i' :: 'l' :: ':' :: email.toList) := by
  rw [RateLimitGuard.emailKey, String.toList_append, String.toList_append, List.append_assoc]
  rfl

theorem takeWhile_colon {text : List Char} (h : ':' ∉ text) (rest : List Char) :
    (text ++ ':' :: rest).takeWhile (· != ':') = text := by
  rw [List.takeWhile_append_of_pos]
  · exact List.append_nil text
  · intro c hc
    exact bne_iff_ne.mpr fun heq => h (heq ▸ hc)

/-- A key up to its first colon says which guard it belongs to. -/
theorem Table.guard_of_key (h : Table cfg guards) (hg : g ∈ guards) (hg' : g' ∈ guards)
    {rest rest' : List Char}
    (hkey : g.keyPrefix.toList ++ ':' :: rest = g'.keyPrefix.toList ++ ':' :: rest') :
    g = g' ∧ rest = rest' := by
  have hp : g.keyPrefix.toList = g'.keyPrefix.toList := by
    rw [← takeWhile_colon (h.plain g hg) rest, hkey, takeWhile_colon (h.plain g' hg') rest']
  rw [hp] at hkey
  exact ⟨List.inj_on_of_nodup_map h.apart hg hg' (String.toList_inj.mp hp),
    (List.cons.inj (List.append_cancel_left hkey)).2⟩

/-- A check counts an address, or an email. -/
theorem mem_queries (h : q ∈ g.queries json form toLowercase req) :
    (∃ ip, req.clientIp = some ip ∧ q = ⟨g.ipKey ip, g.ipMaxRequests, g.ipWindowSeconds⟩) ∨
      ∃ emailMax email, g.emailMaxRequests = some emailMax ∧
        q = ⟨g.emailKey email, emailMax, g.emailWindowSeconds⟩ := by
  unfold RateLimitGuard.queries at h
  split at h
  · rcases List.mem_append.mp h with h | h
    · obtain ⟨ip, hip, rfl⟩ := Option.map_eq_some_iff.mp (Option.mem_toList.mp h)
      exact .inl ⟨ip, hip, rfl⟩
    · obtain ⟨emailMax, hmax, h⟩ := Option.bind_eq_some_iff.mp (Option.mem_toList.mp h)
      obtain ⟨bytes, -, h⟩ := Option.bind_eq_some_iff.mp h
      obtain ⟨email, -, rfl⟩ := Option.map_eq_some_iff.mp h
      exact .inr ⟨emailMax, email, hmax, rfl⟩
  · cases h

theorem Table.of_ipKey (h : Table cfg guards) (hg : g ∈ guards) (hg' : g' ∈ guards)
    (hq : q ∈ g'.queries json form toLowercase req) {ip : String} (hkey : q.key = g.ipKey ip) :
    q = ⟨g.ipKey ip, g.ipMaxRequests, g.ipWindowSeconds⟩ := by
  rcases mem_queries hq with ⟨ip', -, rfl⟩ | ⟨emailMax, email, -, rfl⟩
  · have hlist := congrArg String.toList hkey
    rw [toList_ipKey, toList_ipKey] at hlist
    obtain ⟨rfl, -⟩ := h.guard_of_key hg' hg hlist
    exact congrArg (fun key => Query.mk key _ _) hkey
  · have hlist := congrArg String.toList hkey
    rw [toList_emailKey, toList_ipKey] at hlist
    cases (h.guard_of_key hg' hg hlist).2

theorem Table.of_emailKey (h : Table cfg guards) (hg : g ∈ guards) (hg' : g' ∈ guards)
    (hq : q ∈ g'.queries json form toLowercase req) {email : String} {emailMax : Nat}
    (hmax : g.emailMaxRequests = some emailMax) (hkey : q.key = g.emailKey email) :
    q = ⟨g.emailKey email, emailMax, g.emailWindowSeconds⟩ := by
  rcases mem_queries hq with ⟨ip, -, rfl⟩ | ⟨emailMax', email', hmax', rfl⟩
  · have hlist := congrArg String.toList hkey
    rw [toList_ipKey, toList_emailKey] at hlist
    cases (h.guard_of_key hg' hg hlist).2
  · have hlist := congrArg String.toList hkey
    rw [toList_emailKey, toList_emailKey] at hlist
    obtain ⟨rfl, -⟩ := h.guard_of_key hg' hg hlist
    cases hmax.symm.trans hmax'
    exact congrArg (fun key => Query.mk key _ _) hkey

end

theorem authRoutes_prefixes (limiter : RedisRateLimiter) :
    ((authRoutes limiter).map (·.2)).map (·.keyPrefix) = ["login", "register", "verify-email",
      "resend-code", "forgot-password", "reset-password", "refresh", "logout", "wechat-enabled",
      "wx-login"] := rfl

theorem authRoutes_table (limiter : RedisRateLimiter) :
    Table limiter.config ((authRoutes limiter).map (·.2)) where
  config := by
    intro g hg
    obtain ⟨route, hroute, rfl⟩ := List.mem_map.mp hg
    simp only [authRoutes, List.mem_cons, List.not_mem_nil, or_false] at hroute
    rcases hroute with rfl | rfl | rfl | rfl | rfl | rfl | rfl | rfl | rfl | rfl <;> rfl
  plain := by
    intro g hg
    have hmem : g.keyPrefix ∈ _ := List.mem_map_of_mem hg
    rw [authRoutes_prefixes] at hmem
    revert hmem
    generalize g.keyPrefix = text
    revert text
    decide
  apart := by
    rw [authRoutes_prefixes]
    decide
  windows := by
    intro g hg
    obtain ⟨route, hroute, rfl⟩ := List.mem_map.mp hg
    simp only [authRoutes, List.mem_cons, List.not_mem_nil, or_false] at hroute
    rcases hroute with rfl | rfl | rfl | rfl | rfl | rfl | rfl | rfl | rfl | rfl <;>
      exact ⟨(by decide : 1 ≤ 600), (by decide : 1 ≤ 600)⟩

theorem authRoutes_limiter {limiter : RedisRateLimiter} {g : RateLimitGuard}
    (hg : g ∈ (authRoutes limiter).map (·.2)) : g.limiter = limiter := by
  obtain ⟨route, hroute, rfl⟩ := List.mem_map.mp hg
  simp only [authRoutes, List.mem_cons, List.not_mem_nil, or_false] at hroute
  rcases hroute with rfl | rfl | rfl | rfl | rfl | rfl | rfl | rfl | rfl | rfl <;> rfl

/-- Only logins are counted by their email. -/
theorem authRoutes_login {limiter : RedisRateLimiter} {g : RateLimitGuard}
    (hg : g ∈ (authRoutes limiter).map (·.2)) (hlogin : g.keyPrefix = "login") :
    g.emailMaxRequests = some 5 ∧ g.emailWindowSeconds = 600 := by
  obtain ⟨route, hroute, rfl⟩ := List.mem_map.mp hg
  simp only [authRoutes, List.mem_cons, List.not_mem_nil, or_false] at hroute
  rcases hroute with rfl | rfl | rfl | rfl | rfl | rfl | rfl | rfl | rfl | rfl
  · exact ⟨rfl, rfl⟩
  all_goals simp at hlogin

/-! ### Runs -/

/-- Every counter has a deadline, and has been incremented. -/
def Counters.Dated (db : Counters) : Prop :=
  ∀ key n d, db.entry key = some (n, d) → 1 ≤ n ∧ d.isSome = true

/-- Redis has answered all checks of the request, in the interval that begins at `start`. -/
def Flight.AnsweredIn (f : Flight) (start : Time) (windowSeconds : Nat) : Prop :=
  ∀ a ∈ f.answers, (∃ b, a.result = .ok b) ∧
    start ≤ a.now ∧ a.now < start + seconds windowSeconds

theorem Asked.Admitted.allowed_of_ok {a : Asked} {guard : RateLimitGuard} {b : Bool}
    (h : a.Admitted guard) (hok : a.result = .ok b) : a.allowed = true := by
  rcases h with h | ⟨-, e, he⟩
  · exact h
  · cases he.symm.trans hok

namespace Front

variable {front : Front} {cfg : RateLimitConfig} {db : Counters} {l : Limit}
  {s s' : Threads.State Door Flight} {label : Threads.Label Flight (Time × Line) Empty}

/-- What is asked of Redis is what a request of one of the routes asks. -/
def Belongs (front : Front) (a : Asked) : Prop :=
  ∃ g ∈ front.guards, ∃ req,
    a.query ∈ g.queries front.json front.form front.toLowercase req

/-- The checks so far have made the counters what they are, every request is on its way. -/
abbrev Sound (front : Front) (cfg : RateLimitConfig) (db : Counters) :
    Threads.State Door Flight → Prop :=
  Threads.Holds (fun door => door.Trail cfg db ∧ ∀ a ∈ door.asked, front.Belongs a)
    fun _ _ f => f.guard ∈ front.guards ∧ front.Underway f

theorem query_of_check {f : Flight} {q : Query} {next : Except RateLimitError Bool → Course}
    (hunder : front.Underway f) (h : front.course f = .check q next) : q ∈ front.queries f := by
  cases hunder with
  | refused resp left => cases left.symm.trans h
  | admitted rest made all left =>
    cases rest with
    | nil => cases left.symm.trans h
    | cons q' rest =>
      rw [left] at h
      rw [made, ← (Course.check.inj h).1]
      exact List.mem_append_right _ List.mem_cons_self

theorem sound_step (htable : Table cfg front.guards) (h : front.Sound cfg db s)
    (hstep : Threads.step front.program s label = some s') : front.Sound cfg db s' := by
  refine h.step hstep ?_ ?_ ?_
  · intro f _ hinitial
    obtain ⟨hanswers, hguard⟩ := (Bool.and_eq_true _ _).mp hinitial
    exact ⟨List.contains_iff_mem.mp hguard, underway_begin (List.isEmpty_iff.mp hanswers)⟩
  · rintro n input f door g - - ⟨hguard, hunder⟩ hnext
    have hunder' := underway_next hunder hnext
    obtain ⟨q, next, hcourse, hle, rfl, rfl⟩ := next_cases hnext
    rw [htable.config _ hguard]
    refine ⟨⟨h.shared.1.ask q input.2 hle, ?_⟩, ⟨hguard, ?_⟩, ?_⟩
    · intro a ha
      rcases List.mem_append.mp ha with ha | ha
      · exact h.shared.2 a ha
      · rw [List.mem_singleton.mp ha]
        exact ⟨f.guard, hguard, f.request, query_of_check hunder hcourse⟩
    · rw [htable.config _ hguard] at hunder'
      exact hunder'
    · exact fun _ _ _ _ hr => hr
  · intro e
    nomatch e

/-- Every request that a check has let through has one of the answers of Redis for its own. -/
theorem countP_step {p : Asked → Bool}
    (h : s.threads.countP (fun f => f.answers.any p) ≤ s.shared.asked.countP p)
    (hstep : Threads.step front.program s label = some s') :
    s'.threads.countP (fun f => f.answers.any p) ≤ s'.shared.asked.countP p := by
  obtain ⟨f, -, hinitial, rfl⟩ | ⟨n, input, f, door, g, -, hf, hnext, rfl⟩ | ⟨e, -⟩ :=
    Threads.step_cases hstep
  · have hanswers : f.answers = [] :=
      List.isEmpty_iff.mp ((Bool.and_eq_true _ _).mp hinitial).1
    simpa [List.countP_append, hanswers] using h
  · obtain ⟨q, next, -, -, rfl, rfl⟩ := next_cases hnext
    have hcount := Threads.countP_set_add (fun f : Flight => f.answers.any p)
      (q := { f with answers :=
        f.answers ++ [(s.shared.ask f.guard.limiter.config q input.1 input.2).2] }) hf
    have hasked : (s.shared.ask f.guard.limiter.config q input.1 input.2).1.asked =
        s.shared.asked ++ [(s.shared.ask f.guard.limiter.config q input.1 input.2).2] := rfl
    simp only [hasked, List.countP_append, List.countP_singleton, List.any_append, List.any_cons,
      List.any_nil, Bool.or_false] at hcount ⊢
    cases hp : p (s.shared.ask f.guard.limiter.config q input.1 input.2).2 <;>
      cases hany : f.answers.any p <;> simp [hp, hany] at hcount ⊢ <;> omega
  · nomatch e

theorem sound_reached (htable : Table cfg front.guards)
    (h : Runs.Reaches (Threads.step front.program) Runs.Free ⟨⟨db, []⟩, []⟩ s) :
    front.Sound cfg db s ∧ ∀ p : Asked → Bool,
      s.threads.countP (fun f => f.answers.any p) ≤ s.shared.asked.countP p := by
  refine h.invariant
    (I := fun s => front.Sound cfg db s ∧ ∀ p : Asked → Bool,
      s.threads.countP (fun f => f.answers.any p) ≤ s.shared.asked.countP p) ?_ ?_
  · refine ⟨⟨⟨.start, List.forall_mem_nil _⟩, ?_⟩, fun _ => Nat.le_refl 0⟩
    intro n f hf
    cases hf
  · rintro s label s' ⟨hsound, hcount⟩ - hstep
    exact ⟨sound_step htable hsound hstep, fun p => countP_step (hcount p) hstep⟩

/-- What a limit says about requests that are with their handlers. -/
theorem reached_le_double (htable : Table l.cfg front.guards) (hdated : l.Dated db)
    (h : Runs.Reaches (Threads.step front.program) Runs.Free ⟨⟨db, []⟩, []⟩ s)
    (hsame : ∀ a, front.Belongs a → a.query.key = l.key → a.query = l.query) (start : Time)
    {ns : List Nat} (hnodup : ns.Nodup)
    (hns : ∀ n ∈ ns, ∃ f u, s.threads[n]? = some f ∧ front.Reached f u ∧
      f.AnsweredIn start l.windowSeconds ∧ l.query ∈ front.queries f) :
    ns.length ≤ 2 * l.maxRequests := by
  obtain ⟨hsound, hcount⟩ := sound_reached htable h
  calc ns.length
      ≤ s.threads.countP (fun f => f.answers.any (l.grants start)) := by
        refine Threads.length_le_countP hnodup ?_
        intro n hn
        obtain ⟨f, u, hf, hreached, hanswered, hquery⟩ := hns n hn
        obtain ⟨hmade, hadmitted, -⟩ := (hsound.thread n f hf).2.of_reached hreached
        rw [← hmade] at hquery
        obtain ⟨a, ha, hq⟩ := List.mem_map.mp hquery
        obtain ⟨⟨b, hok⟩, hstart, hlt⟩ := hanswered a ha
        refine ⟨f, hf, List.any_eq_true.mpr ⟨a, ha, ?_⟩⟩
        simp [Limit.grants, (hadmitted a ha).allowed_of_ok hok, hstart, hlt, hq, Limit.query]
    _ ≤ s.shared.asked.countP (l.grants start) := hcount (l.grants start)
    _ ≤ 2 * l.maxRequests :=
        Limit.grants_le_double hsound.shared.1 hdated
          (fun a ha => hsame a (hsound.shared.2 a ha)) start

theorem mem_queries_ip {f : Flight} {ip : String} (havailable : f.guard.limiter.isAvailable = true)
    (hip : f.request.clientIp = some ip) :
    ⟨f.guard.ipKey ip, f.guard.ipMaxRequests, f.guard.ipWindowSeconds⟩ ∈ front.queries f := by
  rw [queries, RateLimitGuard.queries, if_pos havailable, hip]
  exact List.mem_append_left _ (List.mem_singleton_self _)

theorem mem_queries_email {f : Flight} {emailMax : Nat} {bytes : Bytes} {email : String}
    (havailable : f.guard.limiter.isAvailable = true)
    (hmax : f.guard.emailMaxRequests = some emailMax) (hbody : f.request.body = .ok bytes)
    (hextract : extractEmailFromBody front.json front.form front.toLowercase bytes = some email) :
    ⟨f.guard.emailKey email, emailMax, f.guard.emailWindowSeconds⟩ ∈ front.queries f := by
  rw [queries, RateLimitGuard.queries, if_pos havailable, hmax, hbody]
  refine List.mem_append_right _ ?_
  rw [Except.toOption, Option.bind_some, Option.bind_some, hextract]
  exact List.mem_singleton_self _

/-- A login that its handler decodes, from a body that the limiter reads alike. -/
def LoginFor (front : Front) (f : Flight) (u : UnifiedRequest) (email : String) : Prop :=
  f.guard.keyPrefix = "login" ∧ f.request.method = "POST" ∧
    ReadsAlike front.json front.form front.toLowercase u.contentType u.cachedBody ∧
    ∃ body, parseJsonOrForm front.json front.form u.contentType u.cachedBody = some body ∧
      front.toLowercase body.email = email

/-- The limiter has counted such a login under its email. -/
theorem query_of_login {limiter : RedisRateLimiter} {f : Flight} {u : UnifiedRequest}
    {email : String} (hguard : f.guard ∈ (authRoutes limiter).map (·.2))
    (havailable : limiter.isAvailable = true) (hunder : front.Underway f)
    (hreached : front.Reached f u) (hlogin : front.LoginFor f u email) :
    ⟨f.guard.emailKey email, 5, 600⟩ ∈ front.queries f := by
  obtain ⟨hroute, hpost, halike, body, hbody, hemail⟩ := hlogin
  obtain ⟨hmax, hwindow⟩ := authRoutes_login hguard hroute
  have havailable' : f.guard.limiter.isAvailable = true := by
    rw [authRoutes_limiter hguard, havailable]
  have hget : f.request.isGetOrHead = false := by
    rw [Adapters.Request.isGetOrHead, hpost]
    decide
  obtain ⟨hbytes, -⟩ := body_of_reached hunder hreached hget havailable' (by rw [hmax]; rfl)
  have hextract := ((Adapters.counts_login_iff _ _ _ _ _).mpr halike body hbody).1
  rw [hemail] at hextract
  rw [← hwindow]
  exact mem_queries_email havailable' hmax hbytes hextract

/-- **What the limited routes let through.** Whatever requests run into one another, and
whether Redis answers them or not: a request is with its handler only if all its checks have let
it pass. Of those whose checks Redis has answered within ten minutes, a route sees no more than
twice its limit from one address, and no more than ten logins for one email. -/
theorem attempts_bounded (front : Front) (limiter : RedisRateLimiter) (db : Counters)
    (hguards : front.guards = (authRoutes limiter).map (·.2))
    (havailable : limiter.isAvailable = true) (hdated : db.Dated)
    (s : Threads.State Door Flight)
    (h : Runs.Reaches (Threads.step front.program) Runs.Free ⟨⟨db, []⟩, []⟩ s) :
    (∀ f ∈ s.threads, ∀ u, front.Reached f u →
      f.answers.map (·.query) = front.queries f ∧ ∀ a ∈ f.answers, a.Admitted f.guard) ∧
    (∀ guard ∈ front.guards, ∀ (ip : String) (start : Time) (ns : List Nat), ns.Nodup →
      (∀ n ∈ ns, ∃ f u, s.threads[n]? = some f ∧ front.Reached f u ∧
        f.AnsweredIn start guard.ipWindowSeconds ∧ f.guard = guard ∧
        f.request.clientIp = some ip) → ns.length ≤ 2 * guard.ipMaxRequests) ∧
    ∀ (email : String) (start : Time) (ns : List Nat), ns.Nodup →
      (∀ n ∈ ns, ∃ f u, s.threads[n]? = some f ∧ front.Reached f u ∧ f.AnsweredIn start 600 ∧
        front.LoginFor f u email) → ns.length ≤ 10 := by
  have htable : Table limiter.config front.guards := hguards ▸ authRoutes_table limiter
  obtain ⟨hsound, -⟩ := sound_reached htable h
  refine ⟨?_, ?_, ?_⟩
  · intro f hf u hreached
    obtain ⟨n, hn⟩ := List.mem_iff_getElem?.mp hf
    obtain ⟨hmade, hadmitted, -⟩ := (hsound.thread n f hn).2.of_reached hreached
    exact ⟨hmade, hadmitted⟩
  · intro guard hguard ip start ns hnodup hns
    let l : Limit := ⟨limiter.config, guard.ipKey ip, guard.ipMaxRequests, guard.ipWindowSeconds,
      (htable.windows guard hguard).1⟩
    refine reached_le_double (l := l) htable (hdated _) h ?_ start hnodup ?_
    · rintro a ⟨g, hg, req, hq⟩ hkey
      exact htable.of_ipKey hguard hg hq hkey
    · intro n hn
      obtain ⟨f, u, hf, hreached, hanswered, rfl, hip⟩ := hns n hn
      have havailable' : f.guard.limiter.isAvailable = true := by
        rw [authRoutes_limiter (hguards ▸ hguard), havailable]
      exact ⟨f, u, hf, hreached, hanswered, mem_queries_ip havailable' hip⟩
  · intro email start ns hnodup hns
    cases ns with
    | nil => exact Nat.zero_le _
    | cons n₀ ns =>
      -- one of the logins names the guard
      obtain ⟨f₀, u₀, hf₀, -, -, hroute₀, -⟩ := hns n₀ List.mem_cons_self
      have hguard₀ := (hsound.thread n₀ f₀ hf₀).1
      obtain ⟨hmax, hwindow⟩ := authRoutes_login (hguards ▸ hguard₀) hroute₀
      let l : Limit := ⟨limiter.config, f₀.guard.emailKey email, 5, 600, by decide⟩
      refine reached_le_double (l := l) htable (hdated _) h ?_ start hnodup ?_
      · rintro a ⟨g, hg, req, hq⟩ hkey
        have hquery := htable.of_emailKey hguard₀ hg hq hmax hkey
        rw [hwindow] at hquery
        exact hquery
      · intro n hn
        obtain ⟨f, u, hf, hreached, hanswered, hlogin⟩ := hns n hn
        have hguard := (hsound.thread n f hf).1
        have hsame : f.guard = f₀.guard :=
          List.inj_on_of_nodup_map htable.apart hguard hguard₀ (hlogin.1.trans hroute₀.symm)
        have hquery := query_of_login (hguards ▸ hguard) havailable (hsound.thread n f hf).2
          hreached hlogin
        rw [hsame] at hquery
        exact ⟨f, u, hf, hreached, hanswered, hquery⟩

/-- Axum, and a body that stands for the JSON of one login. -/
def oneLogin : Front where
  adapter := .axum
  guards := (authRoutes ⟨true, ⟨"ratelimit"⟩, true⟩).map (·.2)
  json bytes := if bytes = [1] then
    some (.object [("email", .string "ada@example.com"), ("password", .string "Passw0rd!")])
    else none
  form _ := []
  toLowercase s := s

def adaLogin : Adapters.Request where
  method := "POST"
  path := "/login"
  peerIp := some "10.0.0.1"
  body := .ok [1]

def oneLoginRun : Option (Threads.State Door Flight) :=
  Runs.run (Threads.step oneLogin.program) Runs.Free ⟨⟨⟨0, fun _ => none⟩, []⟩, []⟩
    [.begin ⟨⟨⟨true, ⟨"ratelimit"⟩, true⟩, 20, 600, some 5, 600, "login"⟩, adaLogin, []⟩,
      .step 0 (0, .up), .step 0 (seconds 1, .up)]

theorem oneLogin_runs : oneLoginRun.isSome = true := by decide +kernel

/-- A login that passes both checks. -/
theorem attempts_bounded_one :
    (∀ f ∈ (oneLoginRun.get oneLogin_runs).threads, ∀ u, oneLogin.Reached f u →
      f.answers.map (·.query) = oneLogin.queries f ∧ ∀ a ∈ f.answers, a.Admitted f.guard) ∧
    ([0] : List Nat).length ≤ 10 := by
  have hbound := attempts_bounded oneLogin ⟨true, ⟨"ratelimit"⟩, true⟩ ⟨0, fun _ => none⟩ rfl rfl
    nofun _ (Runs.reaches_run_get oneLogin_runs)
  refine ⟨hbound.1, hbound.2.2 "ada@example.com" 0 [0] (by decide) ?_⟩
  intro n hn
  rw [List.mem_singleton.mp hn]
  refine ⟨_, ⟨adaLogin, [1]⟩, rfl, rfl, ?_, rfl, rfl, ?_, ⟨_, rfl, rfl⟩⟩
  · intro a ha
    rcases List.mem_cons.mp ha with rfl | ha
    · exact ⟨⟨true, rfl⟩, by decide, by decide⟩
    · rw [List.mem_singleton.mp ha]
      exact ⟨⟨true, rfl⟩, by decide, by decide⟩
  · rintro value hvalue items rfl
    cases hvalue

end Front

end RateLimit

end Webshelf
