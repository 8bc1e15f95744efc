import Webshelf.Wechat.Captcha
import Webshelf.Wechat.Refinement

/-!
# Is a stored captcha consumed with all its keys?

The script finds the account in the captcha's key by the first `:captcha:`, and the account may
have one of its own.
-/

namespace Webshelf

namespace CaptchaStore

def marker : List Char := ":captcha:".toList

namespace RedisCaptchaStore

/-- `set_captcha`, and `consume_captcha` at `now`. -/
def setAndConsume (r : RedisCaptchaStore) (openid code : String) (ttl : Nat) (now : Int) :
    RedisCaptchaStore × Option (String × String) :=
  let set := (r.setCaptcha (captchaKey r.accountId openid) code openid ttl).1
  consumeCaptcha { set with keys := set.keys.tick now } (captchaKey r.accountId openid)

/-- What was stored comes back, and of the keys the captcha's, its counter and its index entry are
not there any more. -/
def RoundTrip (r : RedisCaptchaStore) (openid code : String) (ttl : Nat) (now : Int) : Prop :=
  (r.setAndConsume openid code ttl now).2 = some (code, openid) ∧
    ∀ k, (r.setAndConsume openid code ttl now).1.keys.entry k =
      if k = captchaKey r.accountId openid ∨ k = attemptsKey (captchaKey r.accountId openid) ∨
        k = codeIndexKey r.accountId code then none
      else r.keys.entry k

end RedisCaptchaStore

/-- `captcha` is one of the parts of the account id between colons. -/
def HasMarker (account : String) : Prop := marker <:+: ':' :: account.toList ++ [':']

instance (account : String) : Decidable (HasMarker account) :=
  inferInstanceAs (Decidable (marker <:+: _))

section
variable {account openid code : String} {w o p s l : List Char}

/-! ### The first occurrence -/

theorem before_exists (h : s <:+: l) (hs : s ≠ []) : ∃ p, before s l = some p := by
  induction l with
  | nil => exact absurd (List.eq_nil_of_infix_nil h) hs
  | cons c l ih =>
    rw [before]
    by_cases hprefix : s.isPrefixOf (c :: l) = true
    · exact ⟨[], if_pos hprefix⟩
    · rcases List.infix_cons_iff.mp h with hfront | hlater
      · exact absurd (List.isPrefixOf_iff_prefix.mpr hfront) hprefix
      · obtain ⟨p, hp⟩ := ih hlater
        exact ⟨c :: p, by rw [if_neg hprefix, hp]; rfl⟩

/-- The marker overlaps with itself in one colon at most. -/
theorem marker_border : ∀ k < 8, 0 < k → marker.drop k ≠ marker.take (9 - k) := by decide

/-- An occurrence that begins further in front ends with the colon that comes next. -/
theorem earlier_ends (hp : p ++ marker <+: w ++ (marker ++ o)) (hlt : p.length < w.length) :
    p ++ marker <+: w ++ [':'] := by
  have hnext : w ++ [':'] <+: w ++ (marker ++ o) := by
    apply (List.prefix_append_right_inj w).mpr
    exact (show [':'] <+: marker by decide).trans (List.prefix_append marker o)
  by_cases hlength : p.length + 9 ≤ w.length + 1
  · apply List.prefix_of_prefix_length_le hp hnext
    rw [List.length_append, List.length_append]
    exact hlength
  · -- the two would overlap in more than a colon
    obtain ⟨t, ht⟩ : p <+: w := by
      apply List.prefix_of_prefix_length_le ((List.prefix_append p marker).trans hp)
        (List.prefix_append w _)
      exact Nat.le_of_lt hlt
    have htlength : p.length + t.length = w.length := by rw [← List.length_append, ht]
    rw [← ht, List.append_assoc, List.prefix_append_right_inj] at hp
    obtain ⟨rest, hrest⟩ := hp
    have hdrop : marker.drop t.length ++ rest = marker ++ o := by
      have hle : t.length ≤ marker.length := by
        have hnine : marker.length = 9 := rfl
        omega
      have := congrArg (List.drop t.length) hrest
      rwa [List.drop_append_of_le_length hle, List.drop_left] at this
    have htake := congrArg (List.take (9 - t.length)) hdrop
    have hnine : (marker.drop t.length).length = 9 - t.length := by
      rw [List.length_drop]
      rfl
    rw [List.take_left' hnine, List.take_append_of_le_length (by
      have hnine : marker.length = 9 := rfl
      omega)] at htake
    exact absurd htake (marker_border t.length (by omega) (by omega))

theorem account_colon : ("wechat:" ++ account).toList ++ [':'] =
    "wechat".toList ++ (':' :: account.toList ++ [':']) := by
  rw [String.toList_append]
  rfl

/-- `wechat` has no colon, so an occurrence that ends with the account's colon is in the account. -/
theorem hasMarker_of_front (h : p ++ marker <+: ("wechat:" ++ account).toList ++ [':']) :
    HasMarker account := by
  rw [account_colon] at h
  have hsix : 6 ≤ p.length := by
    by_contra hshort
    have hcolons : [':'] <+: marker := by decide
    have hin : p ++ [':'] <+: "wechat".toList := by
      apply List.prefix_of_prefix_length_le
        (((List.prefix_append_right_inj p).mpr hcolons).trans h) (List.prefix_append _ _)
      rw [List.length_append]
      exact Nat.lt_of_not_le hshort
    exact absurd (hin.subset (List.mem_append_right p (List.mem_singleton_self _))) (by decide)
  obtain ⟨u, rfl⟩ : "wechat".toList <+: p :=
    List.prefix_of_prefix_length_le (List.prefix_append _ _)
      ((List.prefix_append p marker).trans h) hsix
  rw [List.append_assoc, List.prefix_append_right_inj] at h
  exact (List.suffix_append u marker).isInfix.trans h.isInfix

/-- A marker in the account comes first. -/
theorem not_hasMarker (h : before marker (("wechat:" ++ account).toList ++ (marker ++ o)) =
    some ("wechat:" ++ account).toList) : ¬ HasMarker account := by
  rintro ⟨u, v, huv⟩
  have heq : ("wechat:" ++ account).toList ++ (marker ++ o) =
      "wechat".toList ++ u ++ marker ++ (v ++ marker.tail ++ o) := by
    have hhead : ("wechat:" ++ account).toList ++ (marker ++ o) =
        ("wechat:" ++ account).toList ++ [':'] ++ (marker.tail ++ o) := by
      rw [List.append_assoc]
      rfl
    rw [hhead, account_colon, ← huv]
    simp only [List.append_assoc]
  rw [heq] at h
  have hle := before_le h
  have hlength := congrArg List.length huv
  have hsix : "wechat".toList.length = 6 := rfl
  have hseven : "wechat:".toList.length = 7 := rfl
  have hnine : marker.length = 9 := rfl
  simp only [List.length_append, List.length_cons, List.length_nil, String.toList_append,
    hsix, hseven, hnine] at hle hlength
  omega

/-- The account is found by the first marker exactly where it has none. -/
theorem before_marker_iff :
    before marker (("wechat:" ++ account).toList ++ (marker ++ o)) =
      some ("wechat:" ++ account).toList ↔ ¬ HasMarker account := by
  refine ⟨not_hasMarker, fun hnone => ?_⟩
  obtain ⟨p, hp⟩ := before_exists (l := ("wechat:" ++ account).toList ++ (marker ++ o))
    ⟨("wechat:" ++ account).toList, o, by rw [List.append_assoc]⟩ (show marker ≠ [] by decide)
  have hprefix := before_append hp
  have hle : p.length ≤ ("wechat:" ++ account).toList.length := by
    rw [← List.append_assoc] at hp
    exact before_le hp
  rcases Nat.eq_or_lt_of_le hle with hsame | hlt
  · have hpw : p <+: ("wechat:" ++ account).toList :=
      List.prefix_of_prefix_length_le ((List.prefix_append p marker).trans hprefix)
        (List.prefix_append _ _) hle
    rw [hp, hpw.eq_of_length hsame]
  · exact absurd (hasMarker_of_front (earlier_ends hprefix hlt)) hnone

/-! ### The keys -/

theorem captchaKey_ne_codeIndexKey : codeIndexKey account code ≠ captchaKey account openid := by
  intro h
  have hlist := congrArg String.toList h
  rw [toList_codeIndexKey, toList_captchaKey] at hlist
  exact code_ne_captcha hlist

theorem attemptsKey_ne_codeIndexKey :
    codeIndexKey account code ≠ attemptsKey (captchaKey account openid) := by
  intro h
  have hlist := congrArg String.toList h
  rw [toList_codeIndexKey, toList_attemptsKey] at hlist
  exact code_ne_captcha hlist

theorem attemptsKey_ne {key : String} : attemptsKey key ≠ key := by
  intro h
  have hlength := congrArg (fun s => s.toList.length) h
  have hten : ":attempts".toList.length = 9 := rfl
  simp only [attemptsKey, String.toList_append, List.length_append, hten] at hlength
  omega

/-- The script derives the index key that was written, unless the account has a marker. -/
theorem derivedIndexKey_iff :
    derivedIndexKey (captchaKey account openid) code = some (codeIndexKey account code) ↔
      ¬ HasMarker account := by
  rw [← before_marker_iff (o := openid.toList), derivedIndexKey, toList_captchaKey]
  constructor
  · intro h
    obtain ⟨p, hp, heq⟩ := Option.map_eq_some_iff.mp h
    have hlist := congrArg String.toList heq
    rw [toList_codeIndexKey, String.toList_append, String.toList_append, String.toList_ofList,
      List.append_assoc] at hlist
    rw [List.append_cancel_right hlist] at hp
    exact hp
  · intro h
    rw [show ":captcha:".toList = marker from rfl, h, Option.map_some, String.ofList_toList]
    rfl

theorem derivedIndexKey_exists :
    ∃ x, derivedIndexKey (captchaKey account openid) code = some x := by
  obtain ⟨p, hp⟩ := before_exists (s := marker) (l := (captchaKey account openid).toList)
    ⟨("wechat:" ++ account).toList, openid.toList, by
      rw [toList_captchaKey, List.append_assoc]
      rfl⟩ (by decide)
  exact ⟨_, Option.map_eq_some_iff.mpr ⟨p, hp, rfl⟩⟩

theorem entry_del {r : RedisKeyspace} {k x : String} :
    (r.del x).entry k = if k = x then none else r.entry k := by
  split
  · rename_i h
    rw [h, Expiring.entry_del_self]
  · rename_i h
    exact Expiring.entry_del_of_ne h

/-! ### There and back -/

variable {r : RedisCaptchaStore} {ttl : Nat} {now : Int} {key x k : String}

theorem expires_of_done (h : (r.setCaptcha key code openid ttl).2 = .done) :
    r.keys.expires (asSecs ttl) = true := by
  by_contra hnot
  rw [Bool.not_eq_true] at hnot
  have hset : r.setCaptcha key code openid ttl = (r, .error) := by
    simp [RedisCaptchaStore.setCaptcha, RedisKeyspace.setEx, hnot]
  rw [hset] at h
  cases h

theorem entry_stored_index : (stored r (captchaKey r.accountId openid) code openid ttl).keys.entry
    (codeIndexKey r.accountId code) =
      some (.text openid, some (r.keys.clock + nanos (asSecs ttl))) := by
  rw [stored]
  exact (Expiring.entry_del_of_ne attemptsKey_ne_codeIndexKey).trans Expiring.entry_put_self

theorem entry_stored_captcha : (stored r (captchaKey r.accountId openid) code openid ttl).keys.entry
    (captchaKey r.accountId openid) =
      some (.text (captchaValue code openid), some (r.keys.clock + nanos (asSecs ttl))) := by
  rw [stored]
  exact (Expiring.entry_del_of_ne attemptsKey_ne.symm).trans
    ((Expiring.entry_put_of_ne captchaKey_ne_codeIndexKey.symm).trans Expiring.entry_put_self)

theorem entry_stored_other (hkey : k ≠ key) (hindex : k ≠ codeIndexKey r.accountId code)
    (hattempts : k ≠ attemptsKey key) :
    (stored r key code openid ttl).keys.entry k = r.keys.entry k := by
  rw [stored]
  exact (Expiring.entry_del_of_ne hattempts).trans
    ((Expiring.entry_put_of_ne hindex).trans (Expiring.entry_put_of_ne hkey))

/-- The script answers the captcha and deletes its key, its counter and the derived key. -/
theorem consumeCaptcha_there (hcolon : ':' ∉ code.toList)
    (hget : r.keys.get key = some (.text (captchaValue code openid)))
    (hx : derivedIndexKey key code = some x) :
    r.consumeCaptcha key =
      ({ r with keys := ((r.keys.del key).del (attemptsKey key)).del x }, some (code, openid)) := by
  have htext : r.keys.getText key = some (captchaValue code openid) := by
    rw [RedisKeyspace.getText, hget]
    rfl
  simp only [RedisCaptchaStore.consumeCaptcha, RedisKeyspace.consumeScript, htext,
    splitColon_captchaValue hcolon, Option.bind_some, hx]

theorem setAndConsume_eq (hcolon : ':' ∉ code.toList)
    (hset : (r.setCaptcha (captchaKey r.accountId openid) code openid ttl).2 = .done)
    (htime : now ≤ r.keys.clock + nanos (asSecs ttl))
    (hx : derivedIndexKey (captchaKey r.accountId openid) code = some x) :
    r.setAndConsume openid code ttl now =
      ({ r with keys := ((((stored r (captchaKey r.accountId openid) code openid ttl).keys.tick
          now).del (captchaKey r.accountId openid)).del
          (attemptsKey (captchaKey r.accountId openid))).del x }, some (code, openid)) := by
  have hget : ((stored r (captchaKey r.accountId openid) code openid ttl).keys.tick now).get
      (captchaKey r.accountId openid) = some (.text (captchaValue code openid)) :=
    Expiring.get_eq_some.mpr ⟨_, entry_stored_captcha, decide_eq_true htime⟩
  rw [RedisCaptchaStore.setAndConsume, setCaptcha_stored (expires_of_done hset)]
  exact consumeCaptcha_there hcolon hget hx

theorem charset_colon : ':' ∉ CHARSET := by decide

/-- What is stored comes back and leaves nothing behind exactly where the account has no marker. -/
theorem roundTrip_iff (hcode : FromCharset code)
    (hset : (r.setCaptcha (captchaKey r.accountId openid) code openid ttl).2 = .done)
    (htime : now ≤ r.keys.clock + nanos (asSecs ttl)) :
    r.RoundTrip openid code ttl now ↔ ¬ HasMarker r.accountId := by
  have hcolon : ':' ∉ code.toList := fun h => charset_colon (hcode ':' h)
  obtain ⟨x, hx⟩ := @derivedIndexKey_exists r.accountId openid code
  have hderived := @derivedIndexKey_iff r.accountId openid code
  rw [hx, Option.some.injEq] at hderived
  rw [RedisCaptchaStore.RoundTrip, setAndConsume_eq hcolon hset htime hx, ← hderived]
  constructor
  · rintro ⟨_, hentries⟩
    have hindex := hentries (codeIndexKey r.accountId code)
    rw [if_pos (.inr (.inr rfl)), entry_del] at hindex
    split at hindex
    · rename_i heq
      exact heq.symm
    · rw [entry_del, if_neg attemptsKey_ne_codeIndexKey, entry_del,
        if_neg captchaKey_ne_codeIndexKey] at hindex
      cases entry_stored_index.symm.trans hindex
  · rintro rfl
    refine ⟨rfl, fun k => ?_⟩
    rw [entry_del, entry_del, entry_del]
    by_cases hindex : k = codeIndexKey r.accountId code
    · rw [if_pos hindex, if_pos (.inr (.inr hindex))]
    · by_cases hattempts : k = attemptsKey (captchaKey r.accountId openid)
      · rw [if_neg hindex, if_pos hattempts, if_pos (.inr (.inl hattempts))]
      · by_cases hkey : k = captchaKey r.accountId openid
        · rw [if_neg hindex, if_neg hattempts, if_pos hkey, if_pos (.inl hkey)]
        · rw [if_neg hindex, if_neg hattempts, if_neg hkey, if_neg (by simp [hkey, hattempts, hindex])]
          exact entry_stored_other hkey hindex hattempts

end

/-! ### Two accounts -/

/-- A store without keys. -/
def emptyStore (account : String) : RedisCaptchaStore := ⟨account, ⟨0, fun _ => none⟩⟩

theorem roundTrip_iff_main :
    (emptyStore "main").RoundTrip "o1" "ABC23" 300000000000 0 ↔ ¬ HasMarker "main" :=
  roundTrip_iff (by decide) (by decide +kernel) (by decide)

/-- The index entry of the account `captcha` stays. -/
theorem not_roundTrip_captcha :
    ¬ ∀ r openid code ttl now, FromCharset code →
      (RedisCaptchaStore.setCaptcha r (captchaKey r.accountId openid) code openid ttl).2 = .done →
      now ≤ r.keys.clock + nanos (asSecs ttl) → r.RoundTrip openid code ttl now := by
  intro h
  obtain ⟨_, hentries⟩ := h (emptyStore "captcha") "o1" "ABC23" 300000000000 0 (by decide)
    (by decide +kernel) (by decide)
  have hindex := hentries (codeIndexKey "captcha" "ABC23")
  revert hindex
  decide +kernel

end CaptchaStore

end Webshelf
