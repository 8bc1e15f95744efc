import Webshelf.Wechat.CaptchaStores

/-!
# Do the two captcha stores agree?

Both stores are called side by side. In memory an entry past its expiry stands until it is
consumed, deleted or overwritten, and failed attempts are kept for as long as nobody resets
them; in Redis both vanish.
-/

namespace Webshelf

namespace CaptchaStore

/-- History: the failed attempts counted for a key since its counter was reset. -/
structure Tally where
  last : Int
  /-- A captcha of the key was consumed since, or more than ten minutes passed between two
  attempts. -/
  spoiled : Bool

/-- A memory store and a Redis store that have been called alike. -/
structure Stores where
  memory : MemoryCaptchaStore := {}
  redis : RedisCaptchaStore
  tally : String → Option Tally := fun _ => none

inductive StoresLabel
  | call (op : StoreOp)
  | advance (ns : Nat)

namespace Stores

def now (s : Stores) : Int := s.redis.keys.clock

def memoryCall (s : Stores) (op : StoreOp) : MemoryCaptchaStore × StoreAnswer :=
  s.memory.call s.now op

def redisCall (s : Stores) (op : StoreOp) : RedisCaptchaStore × StoreAnswer := s.redis.call op

def nextTally (s : Stores) : StoreOp → String → Option Tally
  | .setCaptcha key _ _ _ | .resetFailedAttempts key | .deleteCaptcha key =>
    Function.update s.tally key none
  | .setCaptchaNx key _ _ _ =>
    if (s.memory.captchas key).isSome then s.tally else Function.update s.tally key none
  | .consumeCaptcha key =>
    if (s.memory.captchas key).isSome then
      Function.update s.tally key ((s.tally key).map fun t => { t with spoiled := true })
    else s.tally
  | .incrFailedAttempts key =>
    Function.update s.tally key (some
      { last := s.now
        spoiled := (s.tally key).any fun t => t.spoiled || decide (t.last + nanos 600 < s.now) })
  | .peekCaptcha _ => s.tally

def next (s : Stores) (op : StoreOp) : Stores :=
  ⟨(s.memoryCall op).1, (s.redisCall op).1, s.nextTally op⟩

def step (s : Stores) : StoresLabel → Option Stores
  | .call op => some (s.next op)
  | .advance ns => some { s with redis.keys.clock := s.now + ns }

/-- The code has no colon, and the time to live is a number of seconds that Redis accepts. -/
def Storable (s : Stores) (code : String) (ttl : Nat) : Prop :=
  ':' ∉ code.toList ∧ (ttl : Int) = nanos (asSecs ttl) ∧ s.redis.keys.expires (asSecs ttl) = true

/-- No entry of the key stands in memory past its expiry, when `set_captcha_nx` is called; and
when an attempt is counted, no captcha has been consumed and no ten minutes have passed since
another one was. -/
def Regular (s : Stores) : StoreOp → Prop
  | .setCaptcha _ code _ ttl => s.Storable code ttl
  | .setCaptchaNx key code _ ttl => s.Storable code ttl ∧
    ∀ e, s.memory.captchas key = some e → pastExpiry s.now e.2.2 = false
  | .incrFailedAttempts key => (s.memory.attempts key).getD 0 + 1 < 2 ^ 32 ∧
    ∀ t, s.tally key = some t → t.spoiled = false ∧ s.now ≤ t.last + nanos 600
  | _ => True

/-- A call that keeps to the keys of `K` and is regular; or time passes. -/
def Fits (K : String → Prop) (s : Stores) : StoresLabel → Prop
  | .call op => K op.key ∧ s.Regular op
  | .advance _ => True

/-- Both stores answer alike, and `set_captcha_nx` stores a captcha exactly where `peek_captcha`
would have found none. -/
structure Agree (s : Stores) (op : StoreOp) : Prop where
  same : (s.redisCall op).2 = (s.memoryCall op).2
  memoryNx : ∀ key code openid ttl, op = .setCaptchaNx key code openid ttl →
    ((s.memoryCall op).2 = .stored true ↔ s.memory.peekCaptcha s.now key = none)
  redisNx : ∀ key code openid ttl, op = .setCaptchaNx key code openid ttl →
    ((s.redisCall op).2 = .stored true ↔ s.redis.peekCaptcha key = none)

end Stores

/-- No key is the counter or an index entry of another one. -/
structure KeysApart (account : String) (K : String → Prop) : Prop where
  attempts : ∀ k k', K k → K k' → attemptsKey k ≠ k'
  index : ∀ code k, K k → codeIndexKey account code ≠ k ∧
    codeIndexKey account code ≠ attemptsKey k
  derived : ∀ k k' code x, K k → K k' → derivedIndexKey k code = some x →
    x ≠ k' ∧ x ≠ attemptsKey k'

/-! ### What the commands do to the entries of a key -/

variable {account : String} {K : String → Prop} {r : RedisKeyspace} {k key x : String}
  {e : Option (RedisValue × Option Int)}

abbrev Entry : Type := Option (RedisValue × Option Int)

/-- The captcha's entry and that of its counter. -/
def slots (r : RedisKeyspace) (k : String) : Entry × Entry := (r.entry k, r.entry (attemptsKey k))

theorem attemptsKey_inj (h : attemptsKey k = attemptsKey key) : k = key := by
  have hlist := congrArg String.toList h
  simp only [attemptsKey, String.toList_append] at hlist
  exact String.toList_inj.mp (List.append_cancel_right hlist)

theorem slots_write_main (hK : KeysApart account K) (hkey : K key) (hk : K k) :
    slots (r.write key e) k = if k = key then (e, (slots r key).2) else slots r k := by
  have hattempts := Expiring.entry_write_of_ne (s := r) (e := e) (hK.attempts k key hk hkey)
  split
  · rename_i heq
    subst heq
    exact Prod.ext Expiring.entry_write_self hattempts
  · rename_i hne
    exact Prod.ext (Expiring.entry_write_of_ne hne) hattempts

theorem slots_write_attempts (hK : KeysApart account K) (hkey : K key) (hk : K k) :
    slots (r.write (attemptsKey key) e) k =
      if k = key then ((slots r key).1, e) else slots r k := by
  have hmain := Expiring.entry_write_of_ne (s := r) (e := e) (hK.attempts key k hkey hk).symm
  split
  · rename_i heq
    subst heq
    exact Prod.ext hmain Expiring.entry_write_self
  · rename_i hne
    exact Prod.ext hmain (Expiring.entry_write_of_ne (mt attemptsKey_inj hne))

theorem slots_write_side (hx : x ≠ k ∧ x ≠ attemptsKey k) : slots (r.write x e) k = slots r k :=
  Prod.ext (Expiring.entry_write_of_ne hx.1.symm) (Expiring.entry_write_of_ne hx.2.symm)

theorem slots_del_attempts (hK : KeysApart account K) (hkey : K key) (hk : K k) :
    slots (r.del (attemptsKey key)) k = if k = key then ((slots r key).1, none) else slots r k :=
  slots_write_attempts hK hkey hk

theorem slots_del_both (hK : KeysApart account K) (hkey : K key) (hk : K k) :
    slots ((r.del key).del (attemptsKey key)) k = if k = key then (none, none) else slots r k := by
  rw [slots_del_attempts hK hkey hk, Expiring.del, slots_write_main hK hkey hkey,
    slots_write_main hK hkey hk]
  split <;> simp

/-- The value of an entry that has not expired. -/
def look (clock : Int) (e : Entry) : Option RedisValue :=
  e.bind fun e => if Expiring.inTime clock e.2 then some e.1 else none

theorem look_advance {clock clock' : Int} (hle : clock ≤ clock') (h : look clock e = none) :
    look clock' e = none := by
  by_contra hne
  obtain ⟨a, ha⟩ := Option.ne_none_iff_exists'.mp hne
  have hget : (Expiring.tick (⟨clock, fun _ => e⟩ : RedisKeyspace) clock').get "" = some a := ha
  cases h.symm.trans (Expiring.get_of_tick hle hget)

section
variable {rs : RedisCaptchaStore} {code openid : String} {ttl : Nat}

/-- The captcha, its index entry and no counter. -/
def stored (r : RedisCaptchaStore) (key code openid : String) (ttl : Nat) : RedisCaptchaStore :=
  { r with keys := ((r.keys.put key (.text (captchaValue code openid))
      (some (nanos (asSecs ttl)))).put (codeIndexKey r.accountId code) (.text openid)
      (some (nanos (asSecs ttl)))).del (attemptsKey key) }

theorem setCaptcha_stored (h : rs.keys.expires (asSecs ttl) = true) :
    rs.setCaptcha key code openid ttl = (stored rs key code openid ttl, .done) := by
  have h' : RedisKeyspace.expires (rs.keys.put key (.text (captchaValue code openid))
      (some (nanos (asSecs ttl)))) (asSecs ttl) = true := h
  simp [RedisCaptchaStore.setCaptcha, RedisKeyspace.setEx, h, h', stored]

theorem setCaptchaNx_stored (h : rs.keys.expires (asSecs ttl) = true)
    (hnone : rs.keys.get key = none) :
    rs.setCaptchaNx key code openid ttl = (stored rs key code openid ttl, .stored true) := by
  have h' : RedisKeyspace.expires (rs.keys.put key (.text (captchaValue code openid))
      (some (nanos (asSecs ttl)))) (asSecs ttl) = true := h
  simp [RedisCaptchaStore.setCaptchaNx, RedisKeyspace.setNxEx, RedisKeyspace.setEx, h, h', hnone,
    stored]

theorem setCaptchaNx_there (h : rs.keys.expires (asSecs ttl) = true)
    (hthere : (rs.keys.get key).isSome = true) :
    rs.setCaptchaNx key code openid ttl = (rs, .stored false) := by
  simp [RedisCaptchaStore.setCaptchaNx, RedisKeyspace.setNxEx, h, hthere]

theorem slots_stored (hK : KeysApart rs.accountId K) (hkey : K key) (hk : K k) :
    slots (stored rs key code openid ttl).keys k =
      if k = key then (some (.text (captchaValue code openid),
        some (rs.keys.clock + nanos (asSecs ttl))), none)
      else slots rs.keys k := by
  rw [stored, slots_del_attempts hK hkey hk, Expiring.put, slots_write_side (hK.index code k hk),
    slots_write_side (hK.index code key hkey), Expiring.put, slots_write_main hK hkey hk,
    slots_write_main hK hkey hkey]
  split <;> simp

/-- The script deletes the captcha it finds, its counter and an index entry. -/
theorem slots_consume (hK : KeysApart account K) (hkey : K key) (hk : K k) :
    slots (r.consumeScript key).1 k =
      if (r.get key).isSome ∧ k = key then (none, none) else slots r k := by
  unfold RedisKeyspace.consumeScript RedisKeyspace.getText
  cases hget : r.get key with
  | none => simp
  | some val =>
    simp only [Option.map_some, Option.isSome_some, true_and]
    rw [← slots_del_both hK hkey hk]
    split
    · rfl
    · rename_i x hx
      obtain ⟨c, _, hx⟩ := Option.bind_eq_some_iff.mp hx
      exact slots_write_side (hK.derived key k c.1 x hkey hk hx)

theorem slots_delete (hK : KeysApart rs.accountId K) (hkey : K key) (hk : K k) :
    slots (rs.deleteCaptcha key).keys k = if k = key then (none, none) else slots rs.keys k := by
  unfold RedisCaptchaStore.deleteCaptcha
  dsimp only
  rw [slots_del_both hK hkey hk]
  split
  · rfl
  · split
    · rfl
    · rename_i c _ _
      exact slots_write_side (hK.index c k hk)

/-- One more than the counter that is there, for ten minutes from now. -/
theorem incr_counter {n : Int} (hcount : ((r.get x).getD (.counter 0)) = .counter n)
    (hn : 0 ≤ n + 1 ∧ n + 1 < 2 ^ 32) :
    r.incr x = (r.write x (some (.counter (n + 1), some (r.clock + nanos 600))),
      some (n + 1).toNat) := by
  have hwrite : (r.alter x fun _ => RedisValue.counter (n + 1)).expire x (nanos 600) =
      r.write x (some (.counter (n + 1), some (r.clock + nanos 600))) := by
    rw [Expiring.expire, Expiring.get_alter_self]
    simp [Expiring.alter, Expiring.write]
  unfold RedisKeyspace.incr
  rw [hcount]
  simp only [RedisValue.toCounter, hn, and_self, if_true, hwrite]

end

theorem splitColon_captchaValue {code openid : String} (h : ':' ∉ code.toList) :
    splitColon (captchaValue code openid) = some (code, openid) := by
  have hlist : (captchaValue code openid).toList = code.toList ++ ':' :: openid.toList := by
    rw [captchaValue, String.toList_append, String.toList_append, List.append_assoc]
    rfl
  have hall : ∀ c ∈ code.toList, (c != ':') = true := by
    intro c hc
    simp only [bne_iff_ne]
    rintro rfl
    exact h hc
  rw [splitColon, hlist, List.takeWhile_append_of_pos hall, List.dropWhile_append_of_pos hall]
  simp

/-! ### What both stores hold for a key -/

structure View where
  captcha : Option CaptchaEntry
  attempts : Option Nat
  slots : Entry × Entry
  tally : Option Tally

def Stores.view (s : Stores) (k : String) : View :=
  ⟨s.memory.captchas k, s.memory.attempts k, CaptchaStore.slots s.redis.keys k, s.tally k⟩

/-- A captcha in memory is in Redis with the same deadline, and a counter that is not spoiled
has counted the same attempts. -/
structure Matches (now : Int) (v : View) : Prop where
  absent : v.captcha = none → look now v.slots.1 = none
  present : ∀ code openid exp, v.captcha = some (code, openid, exp) →
    ':' ∉ code.toList ∧ ∃ d, exp = some d ∧
      v.slots.1 = some (.text (captchaValue code openid), some d)
  uncounted : v.tally = none → v.attempts.getD 0 = 0 ∧ look now v.slots.2 = none
  counted : ∀ t, v.tally = some t → t.spoiled = false → ∃ n : Nat, v.attempts = some n ∧
    v.slots.2 = some (.counter n, some (t.last + nanos 600))

section
variable {v : View} {now now' : Int} {code openid : String} {exp : Option Int}

theorem Matches.advance (h : Matches now v) (hle : now ≤ now') : Matches now' v where
  absent hv := look_advance hle (h.absent hv)
  present := h.present
  uncounted hv := ⟨(h.uncounted hv).1, look_advance hle (h.uncounted hv).2⟩
  counted := h.counted

theorem look_some {a : RedisValue} {d : Int} :
    look now (some (a, some d)) = if pastExpiry now (some d) then none else some a := by
  simp only [look, Option.bind_some, Expiring.inTime, pastExpiry, Option.all_some, Option.any_some,
    decide_eq_true_eq]
  by_cases hd : now ≤ d
  · rw [if_pos hd, if_neg (by omega)]
  · rw [if_neg hd, if_pos (by omega)]

/-- Redis finds what memory holds, unless it is past its expiry. -/
theorem Matches.look_main (h : Matches now v) (hv : v.captcha = some (code, openid, exp)) :
    look now v.slots.1 =
      if pastExpiry now exp then none else some (.text (captchaValue code openid)) := by
  obtain ⟨_, d, rfl, hslot⟩ := h.present code openid exp hv
  rw [hslot, look_some]

theorem Matches.fresh {ttl : Nat} (hcode : ':' ∉ code.toList)
    (httl : (ttl : Int) = nanos (asSecs ttl)) :
    Matches now ⟨some (code, openid, some (now + ttl)), some 0,
      (some (.text (captchaValue code openid), some (now + nanos (asSecs ttl))), none), none⟩ where
  absent hv := by cases hv
  present _ _ _ hv := by
    cases hv
    exact ⟨hcode, _, rfl, by rw [httl]⟩
  uncounted _ := ⟨rfl, rfl⟩
  counted _ ht := by cases ht

theorem Matches.reset (h : Matches now v) :
    Matches now { v with attempts := some 0, slots := (v.slots.1, none), tally := none } where
  absent := h.absent
  present := h.present
  uncounted _ := ⟨rfl, rfl⟩
  counted _ ht := by cases ht

theorem Matches.deleted : Matches now ⟨none, none, (none, none), none⟩ where
  absent _ := rfl
  present _ _ _ hv := by cases hv
  uncounted _ := ⟨rfl, rfl⟩
  counted _ ht := by cases ht

/-- A captcha is taken; what has been counted for it is spoiled. -/
theorem Matches.taken (h : Matches now v) :
    Matches now
      ⟨none, v.attempts, (none, none), v.tally.map fun t => { t with spoiled := true }⟩ where
  absent _ := rfl
  present _ _ _ hv := by cases hv
  uncounted ht := ⟨(h.uncounted (Option.map_eq_none_iff.mp ht)).1, rfl⟩
  counted t ht hspoiled := by
    obtain ⟨t', _, rfl⟩ := Option.map_eq_some_iff.mp ht
    cases hspoiled

/-- An entry past its expiry is dropped from memory. -/
theorem Matches.dropped (h : Matches now v) (hlook : look now v.slots.1 = none) :
    Matches now ⟨none, none, v.slots, v.tally.map fun t => { t with spoiled := true }⟩ where
  absent _ := hlook
  present _ _ _ hv := by cases hv
  uncounted ht := ⟨rfl, (h.uncounted (Option.map_eq_none_iff.mp ht)).2⟩
  counted t ht hspoiled := by
    obtain ⟨t', _, rfl⟩ := Option.map_eq_some_iff.mp ht
    cases hspoiled

theorem Matches.incremented (h : Matches now v) {n : Nat} :
    Matches now { v with
      attempts := some n
      slots := (v.slots.1, some (.counter n, some (now + nanos 600)))
      tally := some ⟨now, false⟩ } where
  absent := h.absent
  present := h.present
  uncounted ht := by cases ht
  counted t ht _ := by
    cases ht
    exact ⟨n, rfl, rfl⟩

end

/-! ### What a call does -/

/-- After a call both stores hold `v` for its key, and what they held for the others. -/
structure Replaces (K : String → Prop) (s s' : Stores) (key : String) (v : View) : Prop where
  now : s'.now = s.now
  account : s'.redis.accountId = s.redis.accountId
  view : ∀ k, K k → s'.view k = if k = key then v else s.view k

section
variable {s s' : Stores} {v : View} {code openid : String} {ttl : Nat}

theorem Replaces.refl : Replaces K s s key (s.view key) := by
  refine ⟨rfl, rfl, ?_⟩
  intro k _
  split
  · rename_i hk
    rw [hk]
  · rfl

/-- A call is described by what it does to the two maps, the entries in Redis and the history. -/
theorem Replaces.of_updates {c : Option CaptchaEntry} {n : Option Nat} {e : Entry × Entry}
    {t : Option Tally} (hnow : s'.now = s.now)
    (haccount : s'.redis.accountId = s.redis.accountId)
    (hc : s'.memory.captchas = Function.update s.memory.captchas key c)
    (hn : s'.memory.attempts = Function.update s.memory.attempts key n)
    (he : ∀ k, K k → slots s'.redis.keys k = if k = key then e else slots s.redis.keys k)
    (ht : s'.tally = Function.update s.tally key t) : Replaces K s s' key ⟨c, n, e, t⟩ := by
  refine ⟨hnow, haccount, ?_⟩
  intro k hk
  rw [Stores.view, hc, hn, he k hk, ht]
  by_cases h : k = key
  · subst h
    simp
  · simp [h, Stores.view]

theorem checkedAdd_storable (h : s.Storable code ttl) :
    checkedAdd s.now ttl = some (s.now + ttl) := by
  obtain ⟨_, httl, hexpires⟩ := h
  simp only [RedisKeyspace.expires, Bool.and_eq_true, decide_eq_true_eq] at hexpires
  have hlt : s.now + nanos (asSecs ttl) < 2 ^ 63 * 1000000 := hexpires.2
  rw [checkedAdd, if_pos]
  simp only [instantMax, nanos] at hlt httl ⊢
  omega

/-- What both stores hold for the key of a call still matches after it. -/
def Follows (K : String → Prop) (s s' : Stores) (key : String) : Prop :=
  ∃ v, Matches s.now v ∧ Replaces K s s' key v

theorem follows_stored (hK : KeysApart s.redis.accountId K) (hkey : K key)
    (h : s.Storable code ttl) : Follows K s
      ⟨s.memory.insert s.now key code openid ttl, stored s.redis key code openid ttl,
        Function.update s.tally key none⟩ key := by
  refine ⟨_, @Matches.fresh s.now code openid ttl h.1 h.2.1, ?_⟩
  refine .of_updates rfl rfl ?_ rfl ?_ rfl
  · rw [← checkedAdd_storable h]
    rfl
  · intro k hk
    exact slots_stored hK hkey hk

theorem follows_setCaptcha (hK : KeysApart s.redis.accountId K) (hkey : K key)
    (h : s.Storable code ttl) : s.Agree (.setCaptcha key code openid ttl) ∧
      Follows K s (s.next (.setCaptcha key code openid ttl)) key := by
  have hset : s.redisCall (.setCaptcha key code openid ttl) =
      (stored s.redis key code openid ttl, .done) := setCaptcha_stored h.2.2
  constructor
  · refine ⟨?_, (by simp), (by simp)⟩
    rw [hset]
    rfl
  · rw [Stores.next, hset]
    exact follows_stored hK hkey h

/-- Redis finds what memory finds. -/
theorem peek_matches (h : Matches s.now (s.view key)) :
    s.redis.peekCaptcha key = s.memory.peekCaptcha s.now key := by
  have hget : s.redis.keys.get key = look s.now (s.view key).slots.1 := rfl
  rw [RedisCaptchaStore.peekCaptcha, RedisKeyspace.getText, hget, MemoryCaptchaStore.peekCaptcha]
  cases hc : s.memory.captchas key with
  | none =>
    rw [h.absent hc]
    rfl
  | some c =>
    obtain ⟨code, openid, exp⟩ := c
    rw [h.look_main hc]
    dsimp only
    split
    · rfl
    · exact splitColon_captchaValue (h.present _ _ _ hc).1

theorem follows_peekCaptcha (h : Matches s.now (s.view key)) :
    s.Agree (.peekCaptcha key) ∧ Follows K s (s.next (.peekCaptcha key)) key := by
  constructor
  · refine ⟨?_, (by simp), (by simp)⟩
    exact congrArg StoreAnswer.captcha (peek_matches h)
  · exact ⟨_, h, .refl⟩

/-- An entry that has not expired in memory is there in Redis, and the other way round. -/
theorem follows_setCaptchaNx (hK : KeysApart s.redis.accountId K) (hkey : K key)
    (h : Matches s.now (s.view key)) (hreg : s.Regular (.setCaptchaNx key code openid ttl)) :
    s.Agree (.setCaptchaNx key code openid ttl) ∧
      Follows K s (s.next (.setCaptchaNx key code openid ttl)) key := by
  obtain ⟨hstorable, hfresh⟩ := hreg
  have hget : s.redis.keys.get key = look s.now (s.view key).slots.1 := rfl
  have hpeek := peek_matches h
  cases hc : s.memory.captchas key with
  | none =>
    have hnone : s.redis.keys.get key = none := hget.trans (h.absent hc)
    have hset : s.redisCall (.setCaptchaNx key code openid ttl) =
        (stored s.redis key code openid ttl, .stored true) :=
      setCaptchaNx_stored hstorable.2.2 hnone
    have hmemory : s.memoryCall (.setCaptchaNx key code openid ttl) =
        (s.memory.insert s.now key code openid ttl, .stored true) := by
      simp [Stores.memoryCall, MemoryCaptchaStore.call, MemoryCaptchaStore.setCaptchaNx, hc]
    have hmiss : s.memory.peekCaptcha s.now key = none := by
      rw [MemoryCaptchaStore.peekCaptcha, hc]
    constructor
    · refine ⟨by rw [hset, hmemory], ?_, ?_⟩
      · rintro _ _ _ _ ⟨⟩
        rw [hmemory, hmiss]
        simp
      · rintro _ _ _ _ ⟨⟩
        rw [hset, hpeek, hmiss]
        simp
    · have htally : s.nextTally (.setCaptchaNx key code openid ttl) =
          Function.update s.tally key none := if_neg (by simp [hc])
      rw [Stores.next, hset, hmemory, htally]
      exact follows_stored hK hkey hstorable
  | some c =>
    have hlive := hfresh c hc
    have hmain := h.look_main hc
    rw [hlive, if_neg Bool.false_ne_true] at hmain
    have hset : s.redisCall (.setCaptchaNx key code openid ttl) = (s.redis, .stored false) :=
      setCaptchaNx_there hstorable.2.2 (by rw [hget, hmain]; rfl)
    have hmemory : s.memoryCall (.setCaptchaNx key code openid ttl) =
        (s.memory, .stored false) := by
      simp [Stores.memoryCall, MemoryCaptchaStore.call, MemoryCaptchaStore.setCaptchaNx, hc]
    have hhit : s.memory.peekCaptcha s.now key = some (c.1, c.2.1) := by
      simp only [MemoryCaptchaStore.peekCaptcha, hc, hlive]
      rfl
    constructor
    · refine ⟨by rw [hset, hmemory], ?_, ?_⟩
      · rintro _ _ _ _ ⟨⟩
        rw [hmemory, hhit]
        simp
      · rintro _ _ _ _ ⟨⟩
        rw [hset, hpeek, hhit]
        simp
    · have htally : s.nextTally (.setCaptchaNx key code openid ttl) = s.tally :=
        if_pos (by simp [hc])
      rw [Stores.next, hset, hmemory, htally]
      exact ⟨_, h, .refl⟩

theorem follows_resetFailedAttempts (hK : KeysApart s.redis.accountId K) (hkey : K key)
    (h : Matches s.now (s.view key)) : s.Agree (.resetFailedAttempts key) ∧
      Follows K s (s.next (.resetFailedAttempts key)) key := by
  refine ⟨⟨rfl, (by simp), (by simp)⟩, _, h.reset, ?_⟩
  refine .of_updates rfl rfl ?_ rfl ?_ rfl
  · exact (Function.update_eq_self key _).symm
  · intro k hk
    exact slots_del_attempts hK hkey hk

theorem follows_deleteCaptcha (hK : KeysApart s.redis.accountId K) (hkey : K key) :
    s.Agree (.deleteCaptcha key) ∧ Follows K s (s.next (.deleteCaptcha key)) key := by
  refine ⟨⟨rfl, (by simp), (by simp)⟩, _, Matches.deleted, ?_⟩
  refine .of_updates ?_ rfl rfl rfl ?_ rfl
  · change (s.redis.deleteCaptcha key).keys.clock = s.redis.keys.clock
    unfold RedisCaptchaStore.deleteCaptcha
    dsimp only
    split <;> rfl
  · intro k hk
    exact slots_delete hK hkey hk

theorem clock_consumeScript : (r.consumeScript key).1.clock = r.clock := by
  unfold RedisKeyspace.consumeScript
  split
  · rfl
  · dsimp only
    split <;> rfl

theorem snd_consumeScript : (r.consumeScript key).2 = r.getText key := by
  unfold RedisKeyspace.consumeScript
  split
  · rename_i h
    exact h.symm
  · rename_i h
    exact h.symm

theorem snd_consumeCaptcha_redis {store : RedisCaptchaStore} :
    (store.consumeCaptcha key).2 = store.peekCaptcha key :=
  congrArg (Option.bind · splitColon) snd_consumeScript

theorem snd_consumeCaptcha_memory {m : MemoryCaptchaStore} {now : Int} :
    (m.consumeCaptcha now key).2 = m.peekCaptcha now key := by
  unfold MemoryCaptchaStore.consumeCaptcha MemoryCaptchaStore.peekCaptcha
  split
  · rfl
  · split <;> rfl

theorem next_consumeCaptcha : s.next (.consumeCaptcha key) =
    ⟨(s.memory.consumeCaptcha s.now key).1,
      { s.redis with keys := (s.redis.keys.consumeScript key).1 },
      s.nextTally (.consumeCaptcha key)⟩ := rfl

/-- There is nothing to consume. -/
theorem consume_absent (hK : KeysApart s.redis.accountId K) (hkey : K key)
    (h : Matches s.now (s.view key)) (hc : s.memory.captchas key = none) :
    Follows K s (s.next (.consumeCaptcha key)) key := by
  have hnone : s.redis.keys.get key = none := h.absent hc
  have hmemory : s.memory.consumeCaptcha s.now key = (s.memory, none) := by
    simp [MemoryCaptchaStore.consumeCaptcha, hc]
  have htally : s.nextTally (.consumeCaptcha key) = s.tally := if_neg (by simp [hc])
  rw [next_consumeCaptcha, hmemory, htally]
  refine ⟨_, h, clock_consumeScript, rfl, ?_⟩
  intro k hk
  have hslots : slots (s.redis.keys.consumeScript key).1 k = slots s.redis.keys k := by
    rw [slots_consume hK hkey hk, hnone]
    simp
  have hsame : Replaces K s s key (s.view key) := .refl
  rw [Stores.view, hslots]
  exact hsame.view k hk

section
variable {c : CaptchaEntry}

theorem nextTally_consume (hc : s.memory.captchas key = some c) :
    s.nextTally (.consumeCaptcha key) =
      Function.update s.tally key ((s.tally key).map fun t => { t with spoiled := true }) :=
  if_pos (by simp [hc])

/-- A captcha past its expiry: memory forgets its counter too, in Redis it has vanished. -/
theorem consume_past (hK : KeysApart s.redis.accountId K) (hkey : K key)
    (h : Matches s.now (s.view key)) (hc : s.memory.captchas key = some c)
    (hpast : pastExpiry s.now c.2.2 = true) :
    Follows K s (s.next (.consumeCaptcha key)) key := by
  have hmain := h.look_main hc
  rw [hpast, if_pos rfl] at hmain
  have hnone : s.redis.keys.get key = none := hmain
  have hmemory : s.memory.consumeCaptcha s.now key =
      ((s.memory.remove key).removeAttempts key, none) := by
    simp [MemoryCaptchaStore.consumeCaptcha, hc, hpast]
  rw [next_consumeCaptcha, hmemory, nextTally_consume hc]
  refine ⟨_, h.dropped hmain, .of_updates clock_consumeScript rfl rfl rfl ?_ rfl⟩
  intro k hk
  rw [slots_consume hK hkey hk, hnone]
  by_cases hkey : k = key
  · subst hkey
    simp [Stores.view]
  · simp [hkey]

/-- A live captcha: memory keeps its counter, the script deletes it. -/
theorem consume_live (hK : KeysApart s.redis.accountId K) (hkey : K key)
    (h : Matches s.now (s.view key)) (hc : s.memory.captchas key = some c)
    (hlive : pastExpiry s.now c.2.2 = false) :
    Follows K s (s.next (.consumeCaptcha key)) key := by
  have hmain := h.look_main hc
  rw [hlive, if_neg Bool.false_ne_true] at hmain
  have hsome : s.redis.keys.get key = _ := hmain
  have hmemory : s.memory.consumeCaptcha s.now key =
      (s.memory.remove key, some (c.1, c.2.1)) := by
    simp [MemoryCaptchaStore.consumeCaptcha, hc, hlive]
  rw [next_consumeCaptcha, hmemory, nextTally_consume hc]
  refine ⟨_, h.taken, .of_updates clock_consumeScript rfl rfl ?_ ?_ rfl⟩
  · exact (Function.update_eq_self key _).symm
  · intro k hk
    rw [slots_consume hK hkey hk, hsome]
    simp

end

theorem follows_consumeCaptcha (hK : KeysApart s.redis.accountId K) (hkey : K key)
    (h : Matches s.now (s.view key)) : s.Agree (.consumeCaptcha key) ∧
      Follows K s (s.next (.consumeCaptcha key)) key := by
  constructor
  · refine ⟨?_, (by simp), (by simp)⟩
    have hanswer : (s.redis.consumeCaptcha key).2 = (s.memory.consumeCaptcha s.now key).2 := by
      rw [snd_consumeCaptcha_redis, snd_consumeCaptcha_memory]
      exact peek_matches h
    exact congrArg StoreAnswer.captcha hanswer
  · cases hc : s.memory.captchas key with
    | none => exact consume_absent hK hkey h hc
    | some c =>
      cases hpast : pastExpiry s.now c.2.2 with
      | true => exact consume_past hK hkey h hc hpast
      | false => exact consume_live hK hkey h hc hpast

/-- What both counters stand at. -/
theorem counted_matches (h : Matches s.now (s.view key))
    (hreg : ∀ t, s.tally key = some t → t.spoiled = false ∧ s.now ≤ t.last + nanos 600) :
    ∃ n : Nat, (s.memory.attempts key).getD 0 = n ∧
      (s.redis.keys.get (attemptsKey key)).getD (.counter 0) = .counter n ∧
      ((s.tally key).any fun t => t.spoiled || decide (t.last + nanos 600 < s.now)) = false := by
  have hget : s.redis.keys.get (attemptsKey key) = look s.now (s.view key).slots.2 := rfl
  rw [hget]
  cases ht : s.tally key with
  | none =>
    obtain ⟨hzero, hnone⟩ := h.uncounted ht
    exact ⟨0, hzero, by rw [hnone]; rfl, rfl⟩
  | some t =>
    obtain ⟨hspoiled, hlast⟩ := hreg t ht
    obtain ⟨n, hn, hslot⟩ := h.counted t ht hspoiled
    have hmemory : s.memory.attempts key = some n := hn
    refine ⟨n, by rw [hmemory]; rfl, ?_, ?_⟩
    · have hlive : pastExpiry s.now (some (t.last + nanos 600)) = false :=
        decide_eq_false (by omega)
      rw [hslot, look_some, hlive]
      rfl
    · simp only [Option.any_some, hspoiled, Bool.false_or, decide_eq_false_iff_not]
      omega

theorem follows_incrFailedAttempts (hK : KeysApart s.redis.accountId K) (hkey : K key)
    (h : Matches s.now (s.view key)) (hreg : s.Regular (.incrFailedAttempts key)) :
    s.Agree (.incrFailedAttempts key) ∧ Follows K s (s.next (.incrFailedAttempts key)) key := by
  obtain ⟨hlt, htally⟩ := hreg
  obtain ⟨n, hn, hcounter, hspoiled⟩ := counted_matches h htally
  rw [hn] at hlt
  have hincr := incr_counter hcounter ⟨by omega, by omega⟩
  have hcount : (s.memory.attempts key).getD 0 + 1 = n + 1 := by rw [hn]
  have hmemory : s.memory.incrFailedAttempts key =
      ({ s.memory with attempts := Function.update s.memory.attempts key (some (n + 1)) },
        n + 1) := by
    rw [MemoryCaptchaStore.incrFailedAttempts, hcount, Nat.mod_eq_of_lt hlt]
  have hredis : s.redisCall (.incrFailedAttempts key) =
      (⟨s.redis.accountId, s.redis.keys.write (attemptsKey key)
        (some (.counter (n + 1), some (s.now + nanos 600)))⟩, .attempts (n + 1)) := by
    change s.redis.incrFailedAttempts key = _
    rw [RedisCaptchaStore.incrFailedAttempts, hincr]
    rfl
  have hcall : s.memoryCall (.incrFailedAttempts key) =
      ({ s.memory with attempts := Function.update s.memory.attempts key (some (n + 1)) },
        .attempts (n + 1)) := by
    change (s.memory.incrFailedAttempts key).map id StoreAnswer.attempts = _
    rw [hmemory]
    rfl
  constructor
  · refine ⟨?_, (by simp), (by simp)⟩
    rw [hredis, hcall]
  · rw [Stores.next, hredis, hcall]
    refine ⟨_, @Matches.incremented _ _ h (n + 1), .of_updates rfl rfl ?_ rfl ?_ ?_⟩
    · exact (Function.update_eq_self key _).symm
    · intro k hk
      exact slots_write_attempts hK hkey hk
    · rw [Stores.nextTally, hspoiled]

/-- What one call does, from stores that match. -/
theorem follows_call (hK : KeysApart s.redis.accountId K)
    (h : ∀ k, K k → Matches s.now (s.view k)) {op : StoreOp} (hkey : K op.key)
    (hreg : s.Regular op) : s.Agree op ∧ Follows K s (s.next op) op.key := by
  cases op with
  | setCaptcha key code openid ttl => exact follows_setCaptcha hK hkey hreg
  | setCaptchaNx key code openid ttl => exact follows_setCaptchaNx hK hkey (h key hkey) hreg
  | consumeCaptcha key => exact follows_consumeCaptcha hK hkey (h key hkey)
  | peekCaptcha key => exact follows_peekCaptcha (h key hkey)
  | incrFailedAttempts key => exact follows_incrFailedAttempts hK hkey (h key hkey) hreg
  | resetFailedAttempts key => exact follows_resetFailedAttempts hK hkey (h key hkey)
  | deleteCaptcha key => exact follows_deleteCaptcha hK hkey

end

/-! ### Runs -/

/-- Nothing has been stored. -/
def Stores.empty (account : String) (clock : Int) : Stores :=
  { redis := ⟨account, ⟨clock, fun _ => none⟩⟩ }

theorem matches_step {s t : Stores} {l : StoresLabel} (hK : KeysApart account K)
    (h : s.redis.accountId = account ∧ ∀ k, K k → Matches s.now (s.view k)) (hfits : s.Fits K l)
    (hstep : s.step l = some t) :
    t.redis.accountId = account ∧ ∀ k, K k → Matches t.now (t.view k) := by
  obtain ⟨rfl, hmatches⟩ := h
  cases l with
  | call op =>
    cases hstep
    obtain ⟨v, hv, hreplaces⟩ := (follows_call hK hmatches hfits.1 hfits.2).2
    refine ⟨hreplaces.account, ?_⟩
    intro k hk
    rw [hreplaces.now, hreplaces.view k hk]
    split
    · exact hv
    · exact hmatches k hk
  | advance ns =>
    cases hstep
    have hle : s.now ≤ s.now + ns := Int.le_add_of_nonneg_right (Int.natCast_nonneg ns)
    refine ⟨rfl, ?_⟩
    intro k hk
    exact (hmatches k hk).advance hle

/-- In every run of regular calls both stores answer alike, and `set_captcha_nx` stores a captcha
exactly where `peek_captcha` would have found none. -/
theorem stores_agree (account : String) (K : String → Prop) (hK : KeysApart account K)
    (clock : Int) (s : Stores) (op : StoreOp)
    (hrun : Runs.Reaches Stores.step (Stores.Fits K) (.empty account clock) s)
    (hkey : K op.key) (hreg : s.Regular op) : s.Agree op := by
  obtain ⟨rfl, hmatches⟩ : s.redis.accountId = account ∧ ∀ k, K k → Matches s.now (s.view k) := by
    refine hrun.invariant (I := fun s => s.redis.accountId = account ∧
      ∀ k, K k → Matches s.now (s.view k)) ?_ ?_
    · refine ⟨rfl, ?_⟩
      intro k _
      exact .deleted
    · intro a l b ha hfits hstep
      exact matches_step hK ha hfits hstep
  exact (follows_call hK hmatches hkey hreg).1

/-! ### The keys of an account -/

/-- `captcha_key` -/
def captchaKey (account openid : String) : String := "wechat:" ++ account ++ ":captcha:" ++ openid

theorem before_append {s l p : List Char} (h : before s l = some p) : p ++ s <+: l := by
  induction l generalizing p with
  | nil => cases h
  | cons c l ih =>
    unfold before at h
    split at h
    · rename_i hprefix
      cases h
      exact List.isPrefixOf_iff_prefix.mp hprefix
    · obtain ⟨q, hq, rfl⟩ := Option.map_eq_some_iff.mp h
      exact List.cons_prefix_cons.mpr ⟨rfl, ih hq⟩

/-- No occurrence stands further in front. -/
theorem before_le {s a b p : List Char} (h : before s (a ++ s ++ b) = some p) :
    p.length ≤ a.length := by
  induction a generalizing p with
  | nil =>
    cases hs : s ++ b with
    | nil =>
      rw [List.nil_append, hs] at h
      cases h
    | cons c l =>
      have hprefix : s.isPrefixOf (c :: l) = true :=
        List.isPrefixOf_iff_prefix.mpr (hs ▸ List.prefix_append s b)
      rw [List.nil_append, hs, before, if_pos hprefix] at h
      cases h
      exact Nat.le_refl 0
  | cons c a ih =>
    rw [List.cons_append, List.cons_append, before] at h
    split at h
    · cases h
      exact Nat.zero_le _
    · obtain ⟨q, hq, rfl⟩ := Option.map_eq_some_iff.mp h
      exact Nat.succ_le_succ (ih hq)

/-- The keys that `CaptchaService` uses, for openids without a colon. -/
def AccountKey (account : String) (k : String) : Prop :=
  ∃ openid, ':' ∉ openid.toList ∧ k = captchaKey account openid

theorem toList_captchaKey {account openid : String} : (captchaKey account openid).toList =
    ("wechat:" ++ account).toList ++ (":captcha:".toList ++ openid.toList) := by
  rw [captchaKey, String.toList_append, String.toList_append, List.append_assoc]

theorem toList_attemptsKey {account openid : String} :
    (attemptsKey (captchaKey account openid)).toList =
      ("wechat:" ++ account).toList ++
        (":captcha:".toList ++ (openid.toList ++ ":attempts".toList)) := by
  rw [attemptsKey, String.toList_append, toList_captchaKey, List.append_assoc, List.append_assoc]

theorem toList_codeIndexKey {account code : String} : (codeIndexKey account code).toList =
    ("wechat:" ++ account).toList ++ (":code:".toList ++ code.toList) := by
  rw [codeIndexKey, String.toList_append, String.toList_append, List.append_assoc]

theorem code_ne_captcha {w code t : List Char} :
    w ++ (":code:".toList ++ code) ≠ w ++ (":captcha:".toList ++ t) := by
  intro h
  have htake := congrArg (List.take 3) (List.append_cancel_left h)
  rw [List.take_append_of_le_length (by decide), List.take_append_of_le_length (by decide)] at htake
  exact absurd htake (by decide)

/-- The index key that the script derives is none of the account's captchas or counters. -/
theorem derived_ne_captcha {w o t p code : List Char}
    (h : before ":captcha:".toList (w ++ (":captcha:".toList ++ o)) = some p) :
    p ++ (":code:".toList ++ code) ≠ w ++ (":captcha:".toList ++ t) := by
  intro heq
  rw [← List.append_assoc] at h
  have hle := before_le h
  have hp := before_append h
  have hthis : p ++ ":ca".toList <+: w ++ ":captcha:".toList ++ o :=
    List.IsPrefix.trans ((List.prefix_append_right_inj p).mpr (by decide)) hp
  have hcaptcha : p ++ ":ca".toList <+: w ++ ":captcha:".toList :=
    List.prefix_of_prefix_length_le hthis (List.prefix_append _ _) (by simp; omega)
  have hco : ":co".toList <+: ":code:".toList ++ code :=
    List.IsPrefix.trans (by decide) (List.prefix_append _ _)
  have hother : p ++ ":co".toList <+: w ++ ":captcha:".toList ++ t := by
    rw [List.append_assoc, ← heq]
    exact (List.prefix_append_right_inj p).mpr hco
  have hcode : p ++ ":co".toList <+: w ++ ":captcha:".toList :=
    List.prefix_of_prefix_length_le hother (List.prefix_append _ _) (by simp; omega)
  have hsame := List.prefix_of_prefix_length_le hcaptcha hcode (by simp)
  rw [List.prefix_append_right_inj] at hsame
  exact absurd hsame (by decide)

theorem keysApart_accountKey (account : String) : KeysApart account (AccountKey account) where
  attempts := by
    rintro _ _ ⟨o, _, rfl⟩ ⟨o', ho', rfl⟩ h
    have hlist := congrArg String.toList h
    rw [toList_attemptsKey, toList_captchaKey] at hlist
    have hopenid := List.append_cancel_left (List.append_cancel_left hlist)
    rw [← hopenid] at ho'
    exact ho' (List.mem_append_right _ (by decide))
  index := by
    rintro code _ ⟨o, _, rfl⟩
    constructor
    · intro h
      have hlist := congrArg String.toList h
      rw [toList_codeIndexKey, toList_captchaKey] at hlist
      exact code_ne_captcha hlist
    · intro h
      have hlist := congrArg String.toList h
      rw [toList_codeIndexKey, toList_attemptsKey] at hlist
      exact code_ne_captcha hlist
  derived := by
    rintro _ _ code x ⟨o, _, rfl⟩ ⟨o', _, rfl⟩ hx
    obtain ⟨p, hp, rfl⟩ := Option.map_eq_some_iff.mp hx
    rw [toList_captchaKey] at hp
    have hlist : (String.ofList p ++ ":code:" ++ code).toList =
        p ++ (":code:".toList ++ code.toList) := by
      rw [String.toList_append, String.toList_append, String.toList_ofList, List.append_assoc]
    constructor
    · intro h
      have heq := congrArg String.toList h
      rw [hlist, toList_captchaKey] at heq
      exact derived_ne_captcha hp heq
    · intro h
      have heq := congrArg String.toList h
      rw [hlist, toList_attemptsKey] at heq
      exact derived_ne_captcha hp heq

/-! ### A second request -/

/-- `generate` for an openid, with a minute to live. -/
def request : StoreOp :=
  .setCaptchaNx (captchaKey "main" "o1") "ABC234" "o1" 60000000000

def requested : Stores := (Stores.empty "main" 0).next request

theorem regular_request : (Stores.empty "main" 0).Regular request :=
  ⟨⟨by decide, by decide, by decide⟩, fun _ h => by cases h⟩

theorem second_request_agrees : requested.Agree request := by
  have hkey : AccountKey "main" request.key := ⟨"o1", by decide, rfl⟩
  refine stores_agree "main" (AccountKey "main") (keysApart_accountKey "main") 0 requested request
    (.next .start (l := .call request) ⟨hkey, regular_request⟩ rfl) hkey
    ⟨⟨by decide, by decide, by decide⟩, ?_⟩
  intro e he
  have hentry : requested.memory.captchas (captchaKey "main" "o1") =
      some ("ABC234", "o1", some 60000000000) := by decide
  rw [hentry] at he
  cases he
  decide

/-- The captcha has expired when the second request comes: memory still refuses it. -/
theorem expired_captcha_refuses : ∃ s, Runs.Reaches Stores.step Runs.Free (.empty "main" 0) s ∧
    ¬ s.Agree request := by
  refine ⟨{ requested with redis.keys.clock := 61000000000 },
    .next (.next .start trivial (l := .call request) rfl) trivial (l := .advance 61000000000) rfl,
    ?_⟩
  intro h
  exact absurd ((h.memoryNx _ _ _ _ rfl).mpr (by decide)) (by decide)

end CaptchaStore

end Webshelf
