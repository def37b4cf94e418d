import Mathlib
import Acs.Store.Base

/-! `MemoryStore`: one lock, so every method is one operation. Records go in and out as live
objects, challenges as copies. -/

namespace Acs

/-- The condition both stores put on a conditional write. -/
def unchanged (current expected : OtpChallenge) : Bool :=
  if current.attempts ≠ expected.attempts then false
  else if expected.challengeId ≠ "" then current.challengeId = expected.challengeId
  else (current.otpHash, current.createdAt) = (expected.otpHash, expected.createdAt)

/-- Tokens in the order they were first stored, one for each hash. -/
abbrev TokenTable := List TokenRecord

namespace TokenTable

def get (t : TokenTable) (tokenHash : String) : Option TokenRecord :=
  t.find? (·.tokenHash = tokenHash)

def put : TokenTable → TokenRecord → TokenTable
  | [], r => [r]
  | r' :: t, r => if r'.tokenHash = r.tokenHash then r :: t else r' :: put t r

def revokeIf (p : TokenRecord → Bool) (t : TokenTable) : TokenTable :=
  t.map fun r => if p r then { r with revoked := true } else r

def Unique (t : TokenTable) : Prop := (t.map TokenRecord.tokenHash).Nodup

theorem mem_put {t : TokenTable} {r x : TokenRecord} (h : x ∈ put t r) : x = r ∨ x ∈ t := by
  induction t with
  | nil => exact Or.inl (List.mem_singleton.mp h)
  | cons r' t ih =>
    unfold put at h
    split_ifs at h
    · exact (List.mem_cons.mp h).imp_right (List.mem_cons_of_mem _)
    · rcases List.mem_cons.mp h with rfl | h
      · exact Or.inr List.mem_cons_self
      · exact (ih h).imp_right (List.mem_cons_of_mem _)

theorem get_put_self (t : TokenTable) (r : TokenRecord) : (put t r).get r.tokenHash = some r := by
  induction t with
  | nil => simp [put, get]
  | cons r' t ih =>
    unfold put
    split_ifs with h
    · simp [get]
    · simpa [get, h] using ih

theorem get_revokeIf (p : TokenRecord → Bool) (t : TokenTable) (k : String) :
    (revokeIf p t).get k =
      (t.get k).map fun r => if p r then { r with revoked := true } else r := by
  induction t with
  | nil => rfl
  | cons r t ih =>
    have hhash : (if p r then { r with revoked := true } else r).tokenHash = r.tokenHash := by
      split_ifs <;> rfl
    simp only [revokeIf, get, List.map_cons, List.find?_cons, hhash] at ih ⊢
    cases decide (r.tokenHash = k)
    · exact ih
    · rfl

theorem Unique.put {t : TokenTable} (h : t.Unique) (r : TokenRecord) : (t.put r).Unique := by
  induction t with
  | nil => exact List.nodup_singleton _
  | cons r' t ih =>
    rw [Unique, List.map_cons, List.nodup_cons] at h
    unfold TokenTable.put
    split_ifs with heq
    · rw [Unique, List.map_cons, List.nodup_cons, ← heq]
      exact h
    · rw [Unique, List.map_cons, List.nodup_cons]
      refine ⟨fun hmem => ?_, ih h.2⟩
      obtain ⟨x, hx, hxh⟩ := List.mem_map.mp hmem
      rcases mem_put hx with rfl | hx
      · exact heq hxh.symm
      · exact h.1 (List.mem_map.mpr ⟨x, hx, hxh⟩)

theorem Unique.revokeIf {t : TokenTable} (h : t.Unique) (p : TokenRecord → Bool) :
    (t.revokeIf p).Unique := by
  have hmap : (t.revokeIf p).map TokenRecord.tokenHash = t.map TokenRecord.tokenHash := by
    rw [TokenTable.revokeIf, List.map_map]
    refine List.map_congr_left fun r _ => ?_
    rw [Function.comp_apply]
    split_ifs <;> rfl
  rw [Unique, hmap]
  exact h

theorem mem_of_get {t : TokenTable} {k : String} {r : TokenRecord} (h : t.get k = some r) :
    r ∈ t ∧ r.tokenHash = k := by
  unfold get at h
  exact ⟨List.mem_of_find?_eq_some h, by simpa using List.find?_some h⟩

theorem Unique.eq_of_hash {t : TokenTable} (h : t.Unique) {r r' : TokenRecord} (hr : r ∈ t)
    (hr' : r' ∈ t) (heq : r.tokenHash = r'.tokenHash) : r = r' :=
  List.inj_on_of_nodup_map h hr hr' heq

theorem Unique.get_of_mem {t : TokenTable} (h : t.Unique) {r : TokenRecord} (hr : r ∈ t) :
    t.get r.tokenHash = some r := by
  cases hget : t.get r.tokenHash with
  | none =>
    unfold TokenTable.get at hget
    simpa using List.find?_eq_none.mp hget r hr
  | some r' =>
    obtain ⟨hmem, hhash⟩ := mem_of_get hget
    rw [h.eq_of_hash hmem hr hhash]

end TokenTable

structure MemoryStore where
  subscribers : String → Option Subscriber := fun _ => none
  msisdnIndex : String → Option String := fun _ => none
  otp : String → Option OtpChallenge := fun _ => none
  otpSends : String → List Int := fun _ => []
  tokens : TokenTable := []
  devices : String → Option Device := fun _ => none
  dmSessions : String → Option DmSession := fun _ => none
  dmPending : String → Option DmPendingPackage := fun _ => none

namespace MemoryStore
open Function

def getSubscriberByMsisdn (m : MemoryStore) (msisdn : String) : Option Subscriber :=
  match m.msisdnIndex msisdn with
  | some imsi => if imsi ≠ "" then m.subscribers imsi else none
  | none => none

def putSubscriber (m : MemoryStore) (s : Subscriber) : MemoryStore :=
  let index :=
    match m.subscribers s.imsi with
    | some previous =>
      if previous.msisdn ≠ s.msisdn then update m.msisdnIndex previous.msisdn none
      else m.msisdnIndex
    | none => m.msisdnIndex
  { m with
    subscribers := update m.subscribers s.imsi (some s)
    msisdnIndex := update index s.msisdn (some s.imsi) }

def deleteSubscriber (m : MemoryStore) (imsi : String) : MemoryStore :=
  match m.subscribers imsi with
  | some s =>
    { m with
      subscribers := update m.subscribers imsi none
      msisdnIndex := update m.msisdnIndex s.msisdn none }
  | none => m

/-- The object a caller got is the stored one, so its assignments reach the store. -/
def editSubscriber (m : MemoryStore) (s : Subscriber) : MemoryStore :=
  match m.subscribers s.imsi with
  | some _ => { m with subscribers := update m.subscribers s.imsi (some s) }
  | none => m

def issueRefusal (existing : Option OtpChallenge) (sends : List Int)
    (cooldownSeconds maxSendsPerDay now : Int) (clock : Clock) : Option OtpIssueRefused :=
  let tooMany : Option OtpIssueRefused :=
    if (sends.length : Int) ≥ maxSendsPerDay then some ⟨.dailyQuota, 3600⟩ else none
  match existing with
  | some c =>
    if !c.consumed && !c.expired (some now) clock && (now - c.createdAt < cooldownSeconds : Bool)
    then some ⟨.cooldown, cooldownSeconds - (now - c.createdAt)⟩
    else tooMany
  | none => tooMany

theorem length_lt_of_issueRefusal {existing : Option OtpChallenge} {sends : List Int}
    {cooldownSeconds maxSendsPerDay now : Int} {clock : Clock}
    (h : issueRefusal existing sends cooldownSeconds maxSendsPerDay now clock = none) :
    (sends.length : Int) < maxSendsPerDay := by
  by_contra hlen
  have hge := Int.not_lt.mp hlen
  cases existing with
  | none => simp [issueRefusal, hge] at h
  | some c =>
    simp only [issueRefusal, ge_iff_le, hge, if_true] at h
    split_ifs at h

theorem cooldown_of_issueRefusal {c : OtpChallenge} {sends : List Int}
    {cooldownSeconds maxSendsPerDay now : Int} {clock : Clock}
    (h : issueRefusal (some c) sends cooldownSeconds maxSendsPerDay now clock = none)
    (hconsumed : c.consumed = false) (hexpired : c.expired (some now) clock = false) :
    cooldownSeconds ≤ now - c.createdAt := by
  by_contra hlt
  simp [issueRefusal, hconsumed, hexpired, Int.not_le.mp hlt] at h

theorem met_of_cooldown {existing : Option OtpChallenge} {sends : List Int}
    {cooldownSeconds maxSendsPerDay now retryAfter : Int} {clock : Clock}
    (h : issueRefusal existing sends cooldownSeconds maxSendsPerDay now clock =
      some ⟨.cooldown, retryAfter⟩) :
    ∃ c, existing = some c ∧ c.expired (some now) clock = false ∧
      now - c.createdAt < cooldownSeconds := by
  cases existing with
  | none =>
    rw [issueRefusal] at h
    split_ifs at h
    cases h
  | some c =>
    rw [issueRefusal] at h
    split_ifs at h with hcooldown
    · simp only [Bool.and_eq_true, Bool.not_eq_true', decide_eq_true_eq] at hcooldown
      exact ⟨c, rfl, hcooldown.1.2, hcooldown.2⟩
    · cases h

def recentSends (sends : List Int) (now : Int) : List Int := sends.filter (· ≥ now - 86400)

def issueOtp (m : MemoryStore) (challenge : OtpChallenge)
    (cooldownSeconds maxSendsPerDay now : Int) (clock : Clock) :
    Option OtpIssueRefused × MemoryStore :=
  let sends := recentSends (m.otpSends challenge.msisdn) now
  match issueRefusal (m.otp challenge.msisdn) sends cooldownSeconds maxSendsPerDay now clock with
  | some refused => (some refused, m)
  | none =>
    (none, { m with
      otpSends := update m.otpSends challenge.msisdn (sends ++ [now])
      otp := update m.otp challenge.msisdn (some challenge) })

def replaceOtp (m : MemoryStore) (expected : OtpChallenge) (replacement : Option OtpChallenge) :
    Bool × MemoryStore :=
  match m.otp expected.msisdn with
  | some current =>
    if unchanged current expected then
      (true, { m with otp := update m.otp expected.msisdn replacement })
    else (false, m)
  | none => (false, m)

def revokeToken (m : MemoryStore) (tokenHash : String) : MemoryStore :=
  { m with tokens := m.tokens.revokeIf (·.tokenHash = tokenHash) }

def revokeTokensForImsi (m : MemoryStore) (imsi : String) : Nat × MemoryStore :=
  let live := fun r : TokenRecord => r.imsi = imsi && !r.revoked
  (m.tokens.countP live, { m with tokens := m.tokens.revokeIf live })

def exec : (op : StoreOp) → MemoryStore → op.Answer × MemoryStore
  | .getSubscriber imsi, m => (m.subscribers imsi, m)
  | .getSubscriberByMsisdn msisdn, m => (m.getSubscriberByMsisdn msisdn, m)
  | .putSubscriber s _, m => ((), m.putSubscriber s)
  | .deleteSubscriber imsi, m => ((), m.deleteSubscriber imsi)
  | .editSubscriber s, m => ((), m.editSubscriber s)
  | .getOtp msisdn, m => (m.otp msisdn, m)
  | .issueOtp challenge cooldown cap now clock, m =>
    let r := m.issueOtp challenge cooldown cap now clock
    (.ok r.1, r.2)
  | .replaceOtp expected replacement, m => m.replaceOtp expected replacement
  | .putToken record, m => ((), { m with tokens := m.tokens.put record })
  | .getToken tokenHash, m => (.ok (m.tokens.get tokenHash), m)
  | .revokeToken tokenHash, m => ((), m.revokeToken tokenHash)
  | .revokeTokensForImsi imsi, m => m.revokeTokensForImsi imsi
  | .getDevice deviceId, m => (m.devices deviceId, m)
  | .putDevice device, m => ((), { m with devices := update m.devices device.deviceId (some device) })

def lapsed (expiresAt : Int) (clock : Clock) : Bool := expiresAt ≠ 0 && (expiresAt < clock.now : Bool)

def putDmSession (m : MemoryStore) (s : DmSession) : MemoryStore :=
  { m with dmSessions := update m.dmSessions s.sessionId (some s) }

def deleteDmSession (m : MemoryStore) (sessionId : String) : MemoryStore :=
  { m with dmSessions := update m.dmSessions sessionId none }

def getDmSession (m : MemoryStore) (sessionId : String) (clock : Clock) :
    Option DmSession × MemoryStore :=
  match m.dmSessions sessionId with
  | some s => if lapsed s.expiresAt clock then (none, m.deleteDmSession sessionId) else (some s, m)
  | none => (none, m)

def putDmPending (m : MemoryStore) (p : DmPendingPackage) : MemoryStore :=
  { m with dmPending := update m.dmPending p.sessionId (some p) }

def deleteDmPending (m : MemoryStore) (sessionId : String) : MemoryStore :=
  { m with dmPending := update m.dmPending sessionId none }

def getDmPending (m : MemoryStore) (sessionId : String) (clock : Clock) :
    Option DmPendingPackage × MemoryStore :=
  match m.dmPending sessionId with
  | some p => if lapsed p.expiresAt clock then (none, m.deleteDmPending sessionId) else (some p, m)
  | none => (none, m)

section Fields
variable (m : MemoryStore) (s : DmSession) (p : DmPendingPackage) (id : String)

@[simp] theorem putDmSession_dmSessions :
    (m.putDmSession s).dmSessions = update m.dmSessions s.sessionId (some s) := rfl

@[simp] theorem putDmSession_dmPending : (m.putDmSession s).dmPending = m.dmPending := rfl

@[simp] theorem deleteDmSession_dmSessions :
    (m.deleteDmSession id).dmSessions = update m.dmSessions id none := rfl

@[simp] theorem deleteDmSession_dmPending : (m.deleteDmSession id).dmPending = m.dmPending := rfl

@[simp] theorem putDmPending_dmPending :
    (m.putDmPending p).dmPending = update m.dmPending p.sessionId (some p) := rfl

@[simp] theorem putDmPending_dmSessions : (m.putDmPending p).dmSessions = m.dmSessions := rfl

@[simp] theorem deleteDmPending_dmPending :
    (m.deleteDmPending id).dmPending = update m.dmPending id none := rfl

@[simp] theorem deleteDmPending_dmSessions : (m.deleteDmPending id).dmSessions = m.dmSessions := rfl

end Fields

end MemoryStore
end Acs
