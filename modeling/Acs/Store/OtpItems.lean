import Acs.Store.DynamoDb
import Acs.Store.RoundTrip

/-! The OTP items as the service holds them: what `issue_otp` and `replace_otp` send, down to
the attributes and the conditions, and that the typed table says the same. -/

namespace Acs
open Function PyValue Interleave

abbrev Attributes := List (String × AttributeValue)

/-- Equality in a condition. The conditions of the store compare strings and numbers only. -/
def AttributeValue.equals : AttributeValue → AttributeValue → Bool
  | .s a, .s b => a = b
  | .n c e, .n c' e' => c * 10 ^ e' = c' * 10 ^ e
  | _, _ => false

/-- `attribute_not_exists(pk)`, or `name = :value AND …` -/
inductive WriteCondition
  | absent
  | equal (values : Attributes)

def WriteCondition.met (condition : WriteCondition) (item : Option Attributes) : Bool :=
  let attributes := item.getD []
  match condition with
  | .absent => (attributes.lookup "pk").isNone
  | .equal values => values.all fun (k, v) => ((attributes.lookup k).map (·.equals v)).getD false

structure ConditionalWrite where
  key : String × String
  attributes : Option Attributes
  condition : WriteCondition

namespace ItemTable

def meets (t : ItemTable) (w : ConditionalWrite) : Bool := w.condition.met (t w.key)

def write (t : ItemTable) (w : ConditionalWrite) : ItemTable := update t w.key w.attributes

/-- `transact_write_items`: every write, or none and a reason for each. -/
def transactWrite (t : ItemTable) (writes : List ConditionalWrite) :
    Except ClientError Unit × ItemTable :=
  if writes.all t.meets then (.ok (), writes.foldl write t)
  else
    (.error ⟨"TransactionCanceledException", writes.map fun w => DynamoTable.reason (t.meets w)⟩, t)

end ItemTable

/-! ### The two items and their conditions -/

def OtpQuota.toItem (q : OtpQuota) : Item :=
  [("entity", .str "otp_quota"), ("sends", .list (q.sends.map .int))] ++
    (q.version.map fun v => ("version", PyValue.int v)).toList ++ [("expires_at", .int q.expiresAt)]

def OtpQuota.fromItem (item : Item) : Except StoreError OtpQuota := do
  return {
    sends := ← required item "sends" (asList asInt)
    version := ← optional item "version" none fun v => v.asInt.map some
    expiresAt := ← optional item "expires_at" 0 asInt }

def quotaKey (msisdn : String) : String × String := ("OTPQUOTA#" ++ msisdn, "SENDS")

def challengeKey (msisdn : String) : String × String := ("OTP#" ++ msisdn, "CHAL")

def sameChallengeCondition (challenge : OtpChallenge) : Except StoreError WriteCondition :=
  (serializeDict
    (if challenge.challengeId ≠ "" then
      [("challenge_id", .str challenge.challengeId), ("attempts", .int challenge.attempts)]
    else
      [("otp_hash", .str challenge.otpHash), ("created_at", .int challenge.createdAt),
       ("attempts", .int challenge.attempts)])).map .equal

def versionCondition : Option Int → Except StoreError WriteCondition
  | none => .ok .absent
  | some v => (serializeDict [("version", .int v)]).map .equal

def existingCondition : Option OtpChallenge → Except StoreError WriteCondition
  | none => .ok .absent
  | some c => sameChallengeCondition c

def quotaWrite (msisdn : String) (quota : OtpQuota) (version : Option Int) :
    Except StoreError ConditionalWrite := do
  let key := quotaKey msisdn
  let attributes ← serializeDict ([("pk", .str key.1), ("sk", .str key.2)] ++ quota.toItem)
  let condition ← versionCondition version
  return ⟨key, some attributes, condition⟩

def challengeAttributes (msisdn : String) (challenge : OtpChallenge) : Except StoreError Attributes :=
  serializeDict (stored (challengeKey msisdn).1 (challengeKey msisdn).2 challenge.toItem
    [("entity", .str "otp")])

def challengeWrite (msisdn : String) (challenge : OtpChallenge) (existing : Option OtpChallenge) :
    Except StoreError ConditionalWrite := do
  let attributes ← challengeAttributes msisdn challenge
  let condition ← existingCondition existing
  return ⟨challengeKey msisdn, some attributes, condition⟩

def replacementAttributes (msisdn : String) :
    Option OtpChallenge → Except StoreError (Option Attributes)
  | none => .ok none
  | some c => (challengeAttributes msisdn c).map some

def replaceWrite (msisdn : String) (expected : OtpChallenge) (replacement : Option OtpChallenge) :
    Except StoreError ConditionalWrite := do
  let condition ← sameChallengeCondition expected
  let attributes ← replacementAttributes msisdn replacement
  return ⟨challengeKey msisdn, attributes, condition⟩

/-- The table with its OTP items as attributes, and the other entities typed. -/
structure OtpTable where
  items : ItemTable := fun _ => none
  rest : DynamoTable := {}

namespace OtpTable

def transactIssue (t : OtpTable) (writes : List ConditionalWrite) :
    Option ClientError → Except ClientError Unit × OtpTable
  | some e => (.error e, t)
  | none =>
    let r := t.items.transactWrite writes
    (r.1, { t with items := r.2 })

def exec (gsi : Gsi) : (op : ItemOp) → OtpTable → Except StoreError (op.Answer × OtpTable)
  | .getQuota msisdn, t =>
    (t.items.load (quotaKey msisdn).1 (quotaKey msisdn).2 OtpQuota.fromItem).map fun q => (q, t)
  | .getChallenge msisdn, t => (t.items.getOtp msisdn).map fun c => (c, t)
  | .transactIssue msisdn quota version challenge existing fault, t => do
    let quotaPut ← quotaWrite msisdn quota version
    let challengePut ← challengeWrite msisdn challenge existing
    return t.transactIssue [quotaPut, challengePut] fault
  | .replaceChallenge msisdn expected replacement, t => do
    let w ← replaceWrite msisdn expected replacement
    if t.items.meets w then return (true, { t with items := t.items.write w })
    else return (false, t)
  | op, t =>
    let r := DynamoTable.exec gsi op t.rest
    .ok (r.1, { t with rest := r.2 })

end OtpTable

theorem lookup_read (attributes : Attributes) (k : String) :
    (cleanDict (deserializeDict attributes)).lookup k =
      (attributes.lookup k).map fun a => clean (deserialize a) := by
  induction attributes with
  | nil => rfl
  | cons e attributes ih =>
    rw [deserializeDict, cleanDict, List.lookup_cons, List.lookup_cons, ih]
    cases k == e.1 <;> rfl

theorem str_of_clean {a : AttributeValue} {s : String}
    (h : asStr (clean (deserialize a)) = some s) : a = .s s := by
  cases a with
  | s s' => cases h; rfl
  | n c e =>
    simp only [deserialize, clean] at h
    split_ifs at h <;> cases h
  | null => cases h
  | bool b => cases h
  | l vs => cases h
  | m kvs => cases h

theorem int_of_clean {a : AttributeValue} {n : Int}
    (h : asInt (clean (deserialize a)) = some n) : ∃ e, a = .n (n * 10 ^ e) e := by
  cases a with
  | n c e =>
    simp only [deserialize, clean] at h
    split_ifs at h with hc
    · cases h
      exact ⟨e, by rw [Int.ediv_mul_cancel (Int.dvd_of_emod_eq_zero hc)]⟩
    · cases h
  | s s' => cases h
  | null => cases h
  | bool b => cases h
  | l vs => cases h
  | m kvs => cases h

theorem readAs_eq_ok {read : PyValue → Option α} {v : PyValue} {x : α} :
    readAs read v = .ok x ↔ read v = some x := by
  unfold readAs
  cases read v <;> simp

section Lookup
variable {attributes : Attributes} {k : String}

theorem required_read {read : PyValue → Option α} {x : α}
    (h : required (cleanDict (deserializeDict attributes)) k read = .ok x) :
    ∃ a, attributes.lookup k = some a ∧ read (clean (deserialize a)) = some x := by
  rw [required, lookup_read] at h
  cases hk : attributes.lookup k with
  | none =>
    rw [hk] at h
    cases h
  | some a =>
    rw [hk] at h
    exact ⟨a, rfl, readAs_eq_ok.mp h⟩

theorem optional_read {read : PyValue → Option α} {x default : α}
    (h : optional (cleanDict (deserializeDict attributes)) k default read = .ok x) :
    (attributes.lookup k = none ∧ x = default) ∨
      ∃ a, attributes.lookup k = some a ∧ read (clean (deserialize a)) = some x := by
  rw [optional, lookup_read] at h
  cases hk : attributes.lookup k with
  | none =>
    rw [hk] at h
    exact Or.inl ⟨rfl, (Except.ok.inj h).symm⟩
  | some a =>
    rw [hk] at h
    exact Or.inr ⟨a, rfl, readAs_eq_ok.mp h⟩

end Lookup

theorem equals_str (s s' : String) :
    (AttributeValue.s s).equals (.s s') = decide (s = s') := rfl

theorem equals_int (n m : Int) (e : Nat) :
    (AttributeValue.n (n * 10 ^ e) e).equals (.n m 0) = decide (n = m) := by
  have hpos : (10 : Int) ^ e ≠ 0 := Int.pow_ne_zero (by decide)
  simp only [AttributeValue.equals, Int.pow_zero, Int.mul_one]
  exact decide_eq_decide.mpr (Int.mul_eq_mul_right_iff hpos)

/-! ### The typed records the attributes stand for -/

structure OtpQuota.Stored (attributes : Attributes) (q : OtpQuota) : Prop where
  keyed : (attributes.lookup "pk").isSome
  read : OtpQuota.fromItem (cleanDict (deserializeDict attributes)) = .ok q

structure OtpChallenge.Stored (attributes : Attributes) (c : OtpChallenge) : Prop where
  keyed : (attributes.lookup "pk").isSome
  counted : (attributes.lookup "attempts").isSome
  read : OtpChallenge.fromItem (cleanDict (deserializeDict attributes)) = .ok c

section Condition
variable {attributes : Attributes}

theorem met_absent (item : Option Attributes)
    (hkeyed : ∀ attributes ∈ item, (attributes.lookup "pk").isSome) :
    WriteCondition.absent.met item = item.isNone := by
  cases item with
  | none => rfl
  | some attributes =>
    have hpk := hkeyed attributes rfl
    cases hlookup : attributes.lookup "pk" with
    | none => simp [hlookup] at hpk
    | some a => simp [WriteCondition.met, hlookup]

theorem OtpQuota.Stored.met {q : OtpQuota} (h : OtpQuota.Stored attributes q) (v : Int) :
    (WriteCondition.equal [("version", .n v 0)]).met (some attributes) =
      DynamoTable.quotaCondition (some v) (some q) := by
  have hread := h.read
  simp only [OtpQuota.fromItem, Except.bind_eq_ok, Except.pure_eq_ok] at hread
  obtain ⟨sends, -, version, hversion, expiresAt, -, rfl⟩ := hread
  rcases optional_read hversion with ⟨hnone, rfl⟩ | ⟨a, ha, hint⟩
  · simp [WriteCondition.met, hnone, DynamoTable.quotaCondition]
  · obtain ⟨n, hn, rfl⟩ := Option.map_eq_some_iff.mp hint
    obtain ⟨e, rfl⟩ := int_of_clean hn
    simp [WriteCondition.met, ha, equals_int, DynamoTable.quotaCondition]

theorem serialize_int {n : Int} {a : AttributeValue} (h : serialize (.int n) = .ok a) :
    a = .n n 0 := by
  rw [serialize] at h
  split_ifs at h
  cases h
  rfl

theorem serializeDict_cons {k : String} {v : PyValue} {item : Item} {attributes : Attributes}
    (h : serializeDict ((k, v) :: item) = .ok attributes) :
    ∃ a rest, serialize v = .ok a ∧ serializeDict item = .ok rest ∧ attributes = (k, a) :: rest := by
  simp only [serializeDict, Except.bind_eq_ok, Except.pure_eq_ok] at h
  obtain ⟨a, ha, rest, hrest, heq⟩ := h
  exact ⟨a, rest, ha, hrest, heq.symm⟩

theorem sameChallengeCondition_ok {condition : WriteCondition} {expected : OtpChallenge}
    (h : sameChallengeCondition expected = .ok condition) :
    condition = .equal
      (if expected.challengeId ≠ "" then
        [("challenge_id", .s expected.challengeId), ("attempts", .n expected.attempts 0)]
      else
        [("otp_hash", .s expected.otpHash), ("created_at", .n expected.createdAt 0),
         ("attempts", .n expected.attempts 0)]) := by
  rw [sameChallengeCondition, Except.map_eq_ok] at h
  obtain ⟨values, hvalues, rfl⟩ := h
  split_ifs at hvalues ⊢ with hid
  · obtain ⟨a, tail, ha, htail, rfl⟩ := serializeDict_cons hvalues
    obtain ⟨a', tail', ha', htail', rfl⟩ := serializeDict_cons htail
    cases ha
    cases htail'
    rw [serialize_int ha']
  · obtain ⟨a, tail, ha, htail, rfl⟩ := serializeDict_cons hvalues
    obtain ⟨a', tail', ha', htail', rfl⟩ := serializeDict_cons htail
    obtain ⟨a'', tail'', ha'', htail'', rfl⟩ := serializeDict_cons htail'
    cases ha
    cases htail''
    rw [serialize_int ha', serialize_int ha'']

theorem OtpChallenge.Stored.met {c expected : OtpChallenge} {condition : WriteCondition}
    (h : OtpChallenge.Stored attributes c)
    (hcondition : sameChallengeCondition expected = .ok condition) :
    condition.met (some attributes) = sameChallenge expected c := by
  have hread := h.read
  simp only [OtpChallenge.fromItem, Except.bind_eq_ok, Except.pure_eq_ok] at hread
  obtain ⟨msisdn, -, otpHash, hhash, imsi, -, createdAt, hcreated, expiresAt, -, attempts,
    hattempts, smsPort, -, consumed, -, challengeId, hid, rfl⟩ := hread
  obtain ⟨a₁, ha₁, hs₁⟩ := required_read hhash
  obtain ⟨a₂, ha₂, hn₂⟩ := required_read hcreated
  obtain rfl := str_of_clean hs₁
  obtain ⟨e₂, rfl⟩ := int_of_clean hn₂
  obtain ⟨e₃, ha₃⟩ : ∃ e, attributes.lookup "attempts" = some (.n (attempts * 10 ^ e) e) := by
    rcases optional_read hattempts with ⟨hnone, -⟩ | ⟨a₃, ha₃, hn₃⟩
    · have hcounted := h.counted
      simp [hnone] at hcounted
    · obtain ⟨e, rfl⟩ := int_of_clean hn₃
      exact ⟨e, ha₃⟩
  rw [sameChallengeCondition_ok hcondition]
  unfold sameChallenge
  split_ifs with hexpected
  · rcases optional_read hid with ⟨hnone, rfl⟩ | ⟨a₄, ha₄, hs₄⟩
    · -- no `challenge_id` is stored, so no id matches it
      simp [WriteCondition.met, hnone, Ne.symm hexpected]
    · obtain rfl := str_of_clean hs₄
      simp [WriteCondition.met, ha₃, ha₄, equals_int, equals_str]
  · simp [WriteCondition.met, ha₁, ha₂, ha₃, equals_int, equals_str, Bool.and_assoc]

theorem met_none {expected : OtpChallenge} {condition : WriteCondition}
    (hcondition : sameChallengeCondition expected = .ok condition) : condition.met none = false := by
  rw [sameChallengeCondition_ok hcondition]
  split_ifs <;> rfl

end Condition

theorem OtpQuota.stored_of_write {msisdn : String} {q : OtpQuota} {attributes : Attributes}
    (h : serializeDict ([("pk", .str (quotaKey msisdn).1), ("sk", .str (quotaKey msisdn).2)] ++
      q.toItem) = .ok attributes) : OtpQuota.Stored attributes q := by
  have hplain : PlainDict ([("pk", .str (quotaKey msisdn).1), ("sk", .str (quotaKey msisdn).2)] ++
      q.toItem) := by
    have hint : ∀ n : Int, (PyValue.int n).Plain := fun _ => by simp
    have hsends := plainList_map hint q.sends
    rcases q with ⟨sends, _ | v, expiresAt⟩ <;> simpa [toItem] using hsends
  have hread := cleanDict_deserialize_serialize hplain h
  have hint : ∀ n : Int, asInt (.int n) = some n := fun _ => rfl
  have hsends : asList asInt (.list (q.sends.map .int)) = some q.sends := mapM_map hint _
  constructor
  · have hpk := congrArg (fun item => (item.lookup "pk").isSome) hread
    simpa [lookup_read, List.lookup] using hpk
  · rw [hread]
    rcases q with ⟨sends, _ | v, expiresAt⟩ <;>
      simp [fromItem, toItem, List.lookup, hsends, bind, Except.bind, pure, Except.pure]

theorem OtpChallenge.stored_of_write {msisdn : String} {c : OtpChallenge} {attributes : Attributes}
    (h : challengeAttributes msisdn c = .ok attributes) : OtpChallenge.Stored attributes c := by
  rw [challengeAttributes] at h
  have hplain : PlainDict (stored (challengeKey msisdn).1 (challengeKey msisdn).2 c.toItem
      [("entity", .str "otp")]) := by
    rcases c with ⟨_, _, _, _, _, _, _ | _, _, _⟩ <;> simp [stored, toItem, ofOptInt]
  have hread := cleanDict_deserialize_serialize hplain h
  have hlookup : ∀ k, (attributes.lookup k).isSome = ((stored (challengeKey msisdn).1
      (challengeKey msisdn).2 c.toItem [("entity", .str "otp")]).lookup k).isSome := fun k => by
    rw [← hread, lookup_read, Option.isSome_map]
  refine ⟨?_, ?_, hread ▸ fromItem_stored _ _ c⟩
  · rw [hlookup]
    rcases c with ⟨_, _, _, _, _, _, _ | _, _, _⟩ <;>
      simp [stored, toItem, ofOptInt, List.lookup]
  · rw [hlookup]
    rcases c with ⟨_, _, _, _, _, _, _ | _, _, _⟩ <;>
      simp [stored, toItem, ofOptInt, List.lookup]

/-! ### The typed table under the items -/

/-- The items of a table decode to what a typed table holds. -/
structure OtpTable.Represents (t : OtpTable) (d : DynamoTable) : Prop where
  rest : d = { t.rest with quotas := d.quotas, challenges := d.challenges }
  quota : ∀ msisdn, Option.Rel OtpQuota.Stored (t.items (quotaKey msisdn)) (d.quotas msisdn)
  challenge : ∀ msisdn,
    Option.Rel OtpChallenge.Stored (t.items (challengeKey msisdn)) (d.challenges msisdn)

theorem quotaKey_injective : Injective quotaKey := fun a b h => by simpa [quotaKey] using h

theorem challengeKey_injective : Injective challengeKey := fun a b h => by
  simpa [challengeKey] using h

theorem quotaKey_ne_challengeKey (a b : String) : quotaKey a ≠ challengeKey b := by
  simp [quotaKey, challengeKey]

section Rel
variable {P : Attributes → α → Prop} {items : ItemTable} {held : String → Option α}
  {key : String → String × String}

theorem rel_update (hkey : Injective key) (h : ∀ m, Option.Rel P (items (key m)) (held m))
    {v : Option Attributes} {o : Option α} (hv : Option.Rel P v o) (msisdn m : String) :
    Option.Rel P (update items (key msisdn) v (key m)) (update held msisdn o m) := by
  by_cases hm : m = msisdn
  · subst hm
    rw [update_self, update_self]
    exact hv
  · rw [update_of_ne (hkey.ne hm), update_of_ne hm]
    exact h m

theorem rel_update_ne {k : String × String} (hne : ∀ m, key m ≠ k)
    (h : ∀ m, Option.Rel P (items (key m)) (held m)) (v : Option Attributes) (m : String) :
    Option.Rel P (update items k v (key m)) (held m) := by
  rw [update_of_ne (hne m)]
  exact h m

theorem load_of_rel {decode : Item → Except StoreError α} {k : String × String} {o : Option α}
    (hread : ∀ attributes x, P attributes x →
      decode (cleanDict (deserializeDict attributes)) = .ok x)
    (h : Option.Rel P (items k) o) : items.load k.1 k.2 decode = .ok o := by
  rw [ItemTable.load, ItemTable.getItem]
  cases hitem : items k with
  | none =>
    rw [hitem] at h
    cases h
    rfl
  | some attributes =>
    rw [hitem] at h
    cases h with
    | some hP => simp only [Option.map_some, hread _ _ hP, Except.map]

end Rel

namespace OtpTable
variable {t : OtpTable} {d : DynamoTable}

theorem met_absent_of_rel {P : Attributes → α → Prop} {item : Option Attributes} {o : Option α}
    (hkeyed : ∀ attributes x, P attributes x → (attributes.lookup "pk").isSome)
    (h : Option.Rel P item o) : WriteCondition.absent.met item = o.isNone := by
  rw [met_absent]
  · cases h <;> rfl
  · intro attributes hitem
    rw [Option.mem_def.mp hitem] at h
    cases h with
    | some hP => exact hkeyed _ _ hP

theorem met_version (hR : t.Represents d) (msisdn : String) {version : Option Int}
    {condition : WriteCondition} (h : versionCondition version = .ok condition) :
    condition.met (t.items (quotaKey msisdn)) =
      DynamoTable.quotaCondition version (d.quotas msisdn) := by
  have hheld := hR.quota msisdn
  cases version with
  | none =>
    cases h
    rw [met_absent_of_rel (fun _ _ hq => OtpQuota.Stored.keyed hq) hheld]
    cases d.quotas msisdn <;> simp [DynamoTable.quotaCondition]
  | some v =>
    obtain ⟨values, hvalues, rfl⟩ := Except.map_eq_ok.mp h
    obtain ⟨a, tail, ha, htail, rfl⟩ := serializeDict_cons hvalues
    cases htail
    obtain rfl := serialize_int ha
    generalize t.items (quotaKey msisdn) = item, d.quotas msisdn = o at hheld
    cases hheld with
    | none => rfl
    | some hq => exact hq.met v

theorem met_existing (hR : t.Represents d) (msisdn : String) {existing : Option OtpChallenge}
    {condition : WriteCondition} (h : existingCondition existing = .ok condition) :
    condition.met (t.items (challengeKey msisdn)) =
      DynamoTable.challengeCondition existing (d.challenges msisdn) := by
  have hheld := hR.challenge msisdn
  cases existing with
  | none =>
    cases h
    rw [met_absent_of_rel (fun _ _ hc => OtpChallenge.Stored.keyed hc) hheld]
    cases d.challenges msisdn <;> simp [DynamoTable.challengeCondition]
  | some expected =>
    generalize t.items (challengeKey msisdn) = item, d.challenges msisdn = o at hheld
    cases hheld with
    | none => exact met_none h
    | some hc => exact hc.met h

theorem quotaWrite_ok (hR : t.Represents d) {msisdn : String} {quota : OtpQuota}
    {version : Option Int} {w : ConditionalWrite} (h : quotaWrite msisdn quota version = .ok w) :
    w.key = quotaKey msisdn ∧ Option.Rel OtpQuota.Stored w.attributes (some quota) ∧
      t.items.meets w = DynamoTable.quotaCondition version (d.quotas msisdn) := by
  simp only [quotaWrite, Except.bind_eq_ok, Except.pure_eq_ok] at h
  obtain ⟨attributes, hattributes, condition, hcondition, rfl⟩ := h
  exact ⟨rfl, .some (OtpQuota.stored_of_write hattributes), met_version hR msisdn hcondition⟩

theorem challengeWrite_ok (hR : t.Represents d) {msisdn : String} {challenge : OtpChallenge}
    {existing : Option OtpChallenge} {w : ConditionalWrite}
    (h : challengeWrite msisdn challenge existing = .ok w) :
    w.key = challengeKey msisdn ∧ Option.Rel OtpChallenge.Stored w.attributes (some challenge) ∧
      t.items.meets w = DynamoTable.challengeCondition existing (d.challenges msisdn) := by
  simp only [challengeWrite, Except.bind_eq_ok, Except.pure_eq_ok] at h
  obtain ⟨attributes, hattributes, condition, hcondition, rfl⟩ := h
  exact ⟨rfl, .some (OtpChallenge.stored_of_write hattributes), met_existing hR msisdn hcondition⟩

theorem replaceWrite_ok (hR : t.Represents d) {msisdn : String} {expected : OtpChallenge}
    {replacement : Option OtpChallenge} {w : ConditionalWrite}
    (h : replaceWrite msisdn expected replacement = .ok w) :
    w.key = challengeKey msisdn ∧ Option.Rel OtpChallenge.Stored w.attributes replacement ∧
      t.items.meets w = DynamoTable.challengeCondition (some expected) (d.challenges msisdn) := by
  simp only [replaceWrite, Except.bind_eq_ok, Except.pure_eq_ok] at h
  obtain ⟨condition, hcondition, attributes, hattributes, rfl⟩ := h
  refine ⟨rfl, ?_, met_existing hR msisdn hcondition⟩
  cases replacement with
  | none =>
    cases hattributes
    exact .none
  | some c =>
    obtain ⟨item, hitem, rfl⟩ := Except.map_eq_ok.mp hattributes
    exact .some (OtpChallenge.stored_of_write hitem)

theorem Represents.putIssue (hR : t.Represents d) {msisdn : String} {quota : OtpQuota}
    {challenge : OtpChallenge} {w w' : ConditionalWrite} (hkey : w.key = quotaKey msisdn)
    (hquota : Option.Rel OtpQuota.Stored w.attributes (some quota))
    (hkey' : w'.key = challengeKey msisdn)
    (hchallenge : Option.Rel OtpChallenge.Stored w'.attributes (some challenge)) :
    OtpTable.Represents { t with items := [w, w'].foldl ItemTable.write t.items }
      (d.putIssue msisdn quota challenge) := by
  simp only [List.foldl_cons, List.foldl_nil, ItemTable.write, hkey, hkey']
  refine ⟨?_, fun m => ?_, fun m => ?_⟩
  · rw [hR.rest]
    rfl
  · refine rel_update_ne (fun m => quotaKey_ne_challengeKey m msisdn) (fun m => ?_) w'.attributes m
    exact rel_update quotaKey_injective hR.quota hquota msisdn m
  · refine rel_update challengeKey_injective (fun m => ?_) hchallenge msisdn m
    exact rel_update_ne (fun m => (quotaKey_ne_challengeKey msisdn m).symm) hR.challenge w.attributes m

theorem Represents.replaced (hR : t.Represents d) {msisdn : String}
    {replacement : Option OtpChallenge} {w : ConditionalWrite} (hkey : w.key = challengeKey msisdn)
    (hattributes : Option.Rel OtpChallenge.Stored w.attributes replacement) :
    OtpTable.Represents { t with items := t.items.write w }
      { d with challenges := update d.challenges msisdn replacement } := by
  simp only [ItemTable.write, hkey]
  refine ⟨?_, fun m => ?_, fun m => ?_⟩
  · rw [hR.rest]
  · exact rel_update_ne (fun m => quotaKey_ne_challengeKey m msisdn) hR.quota w.attributes m
  · exact rel_update challengeKey_injective hR.challenge hattributes msisdn m

theorem exec_refines {gsi : Gsi} (hR : t.Represents d) {op : ItemOp} {r : op.Answer × OtpTable}
    (h : exec gsi op t = .ok r) :
    r.1 = (DynamoTable.exec gsi op d).1 ∧ r.2.Represents (DynamoTable.exec gsi op d).2 := by
  cases op with
  | getQuota msisdn =>
    rw [exec, load_of_rel (fun _ _ hq => OtpQuota.Stored.read hq) (hR.quota msisdn)] at h
    cases h
    exact ⟨rfl, hR⟩
  | getChallenge msisdn =>
    have hload := load_of_rel (fun _ _ hc => OtpChallenge.Stored.read hc) (hR.challenge msisdn)
    have hget : t.items.getOtp msisdn = .ok (d.challenges msisdn) := hload
    rw [exec, hget] at h
    cases h
    exact ⟨rfl, hR⟩
  | transactIssue msisdn quota version challenge existing fault =>
    simp only [exec, Except.bind_eq_ok, Except.pure_eq_ok] at h
    obtain ⟨w, hw, w', hw', rfl⟩ := h
    obtain ⟨hkey, hquota, hmet⟩ := quotaWrite_ok hR hw
    obtain ⟨hkey', hchallenge, hmet'⟩ := challengeWrite_ok hR hw'
    cases fault with
    | some e => exact ⟨rfl, hR⟩
    | none =>
      simp only [transactIssue, ItemTable.transactWrite, DynamoTable.exec,
        DynamoTable.transactIssue, List.all_cons, List.all_nil, Bool.and_true, hmet, hmet',
        List.map_cons, List.map_nil]
      split_ifs
      · exact ⟨rfl, hR.putIssue hkey hquota hkey' hchallenge⟩
      · exact ⟨rfl, hR⟩
  | replaceChallenge msisdn expected replacement =>
    simp only [exec, Except.bind_eq_ok] at h
    obtain ⟨w, hw, h⟩ := h
    obtain ⟨hkey, hattributes, hmet⟩ := replaceWrite_ok hR hw
    rw [hmet] at h
    have hreplaced := hR.replaced hkey hattributes
    simp only [DynamoTable.exec, DynamoTable.replaceChallenge]
    cases hstored : d.challenges msisdn with
    | none =>
      rw [hstored] at h
      cases h
      exact ⟨rfl, hR⟩
    | some current =>
      rw [hstored, DynamoTable.challengeCondition] at h
      dsimp only
      split_ifs at h ⊢ <;> cases h
      · exact ⟨rfl, hreplaced⟩
      · exact ⟨rfl, hR⟩
  | _ =>
    -- the other requests work on the typed rest and leave the OTP items alone
    cases h
    obtain ⟨hrest, hquota, hchallenge⟩ := hR
    rcases d with ⟨_, _, _, _, _, _⟩
    cases hrest
    exact ⟨rfl, rfl, hquota, hchallenge⟩

end OtpTable

/-! ### What keeps a request from being sent -/

def OtpQuota.numbers (q : OtpQuota) : List Int := q.sends ++ q.version.toList ++ [q.expiresAt]

def OtpChallenge.numbers (c : OtpChallenge) : List Int :=
  [c.createdAt, c.expiresAt, c.attempts] ++ c.smsPort.toList

def ItemOp.numbers : ItemOp → List Int
  | .transactIssue _ quota version challenge existing _ =>
    quota.numbers ++ version.toList ++ challenge.numbers ++ existing.elim [] OtpChallenge.numbers
  | .replaceChallenge _ expected replacement =>
    expected.numbers ++ replacement.elim [] OtpChallenge.numbers
  | _ => []

def Sendable (numbers : List Int) : Prop := ∀ n ∈ numbers, fitsNumber n

instance (numbers : List Int) : Decidable (Sendable numbers) :=
  inferInstanceAs (Decidable (∀ n ∈ numbers, fitsNumber n))

section Sendable
variable {msisdn : String} {challenge expected : OtpChallenge} {quota : OtpQuota}

theorem sendable_append {l l' : List Int} : Sendable (l ++ l') ↔ Sendable l ∧ Sendable l' :=
  List.forall_mem_append

theorem sendable_cons {n : Int} {l : List Int} : Sendable (n :: l) ↔ fitsNumber n ∧ Sendable l :=
  List.forall_mem_cons

theorem fitsList_ints {l : List Int} (h : Sendable l) : FitsList (l.map .int) := by
  induction l with
  | nil => trivial
  | cons n l ih => exact ⟨(sendable_cons.mp h).1, ih (sendable_cons.mp h).2⟩

theorem versionCondition_sends {version : Option Int} (h : Sendable version.toList) :
    ∃ condition, versionCondition version = .ok condition := by
  cases version with
  | none => exact ⟨_, rfl⟩
  | some v =>
    have hv : FitsDict [("version", .int v)] := ⟨(sendable_cons.mp h).1, trivial⟩
    obtain ⟨values, hvalues⟩ := serializeDict_ok.mpr hv
    exact ⟨_, Except.map_eq_ok.mpr ⟨values, hvalues, rfl⟩⟩

theorem quotaWrite_sends {version : Option Int} (hquota : Sendable quota.numbers)
    (hversion : Sendable version.toList) : ∃ w, quotaWrite msisdn quota version = .ok w := by
  obtain ⟨hheld, hexpires⟩ := sendable_append.mp hquota
  obtain ⟨hsends, hv⟩ := sendable_append.mp hheld
  have hfits : FitsDict ([("pk", .str (quotaKey msisdn).1), ("sk", .str (quotaKey msisdn).2)] ++
      quota.toItem) := by
    have hlist := fitsList_ints hsends
    have hexpiry := (sendable_cons.mp hexpires).1
    rcases quota with ⟨sends, _ | v, expiresAt⟩
    · simp [OtpQuota.toItem, hlist, hexpiry]
    · have hnumber := (sendable_cons.mp hv).1
      simp [OtpQuota.toItem, hlist, hexpiry, hnumber]
  obtain ⟨attributes, hattributes⟩ := serializeDict_ok.mpr hfits
  obtain ⟨condition, hcondition⟩ := versionCondition_sends hversion
  simp only [quotaWrite, Except.bind_eq_ok]
  exact ⟨_, attributes, hattributes, condition, hcondition, rfl⟩

theorem challengeAttributes_sends (h : Sendable challenge.numbers) :
    ∃ attributes, challengeAttributes msisdn challenge = .ok attributes := by
  rw [challengeAttributes, serializeDict_ok]
  rcases challenge with ⟨_, _, _, _, _, _, _ | port, _, _⟩ <;>
    simp_all [stored, OtpChallenge.toItem, ofOptInt, OtpChallenge.numbers, Sendable]

theorem sameChallengeCondition_sends (h : Sendable expected.numbers) :
    ∃ condition, sameChallengeCondition expected = .ok condition := by
  obtain ⟨hnumbers, -⟩ := sendable_append.mp h
  have hcreated : fitsNumber expected.createdAt := hnumbers _ (by simp)
  have hattempts : fitsNumber expected.attempts := hnumbers _ (by simp)
  simp only [sameChallengeCondition, Except.map_eq_ok]
  have hvalues : FitsDict (if expected.challengeId ≠ "" then
        [("challenge_id", .str expected.challengeId), ("attempts", .int expected.attempts)]
      else [("otp_hash", .str expected.otpHash), ("created_at", .int expected.createdAt),
        ("attempts", .int expected.attempts)]) := by
    split_ifs <;> simp [hcreated, hattempts]
  obtain ⟨values, hserialized⟩ := serializeDict_ok.mpr hvalues
  exact ⟨_, values, hserialized, rfl⟩

theorem existingCondition_sends {existing : Option OtpChallenge}
    (h : Sendable (existing.elim [] OtpChallenge.numbers)) :
    ∃ condition, existingCondition existing = .ok condition := by
  cases existing with
  | none => exact ⟨_, rfl⟩
  | some c => exact sameChallengeCondition_sends h

theorem challengeWrite_sends {existing : Option OtpChallenge} (h : Sendable challenge.numbers)
    (hexisting : Sendable (existing.elim [] OtpChallenge.numbers)) :
    ∃ w, challengeWrite msisdn challenge existing = .ok w := by
  obtain ⟨attributes, hattributes⟩ := challengeAttributes_sends h
  obtain ⟨condition, hcondition⟩ := existingCondition_sends hexisting
  simp only [challengeWrite, Except.bind_eq_ok]
  exact ⟨_, attributes, hattributes, condition, hcondition, rfl⟩

theorem replaceWrite_sends {replacement : Option OtpChallenge} (h : Sendable expected.numbers)
    (hreplacement : Sendable (replacement.elim [] OtpChallenge.numbers)) :
    ∃ w, replaceWrite msisdn expected replacement = .ok w := by
  obtain ⟨condition, hcondition⟩ := sameChallengeCondition_sends h
  have hattributes : ∃ attributes, replacementAttributes msisdn replacement = .ok attributes := by
    cases replacement with
    | none => exact ⟨_, rfl⟩
    | some c =>
      obtain ⟨attributes, hitem⟩ := challengeAttributes_sends hreplacement
      exact ⟨_, Except.map_eq_ok.mpr ⟨attributes, hitem, rfl⟩⟩
  obtain ⟨attributes, hattributes⟩ := hattributes
  simp only [replaceWrite, Except.bind_eq_ok]
  exact ⟨_, condition, hcondition, attributes, hattributes, rfl⟩

theorem OtpTable.exec_sends {gsi : Gsi} {t : OtpTable} {d : DynamoTable} (hR : t.Represents d)
    {op : ItemOp} (h : Sendable op.numbers) : ∃ r, exec gsi op t = .ok r := by
  cases op with
  | getQuota msisdn =>
    rw [exec, load_of_rel (fun _ _ hq => OtpQuota.Stored.read hq) (hR.quota msisdn)]
    exact ⟨_, rfl⟩
  | getChallenge msisdn =>
    have hload := load_of_rel (fun _ _ hc => OtpChallenge.Stored.read hc) (hR.challenge msisdn)
    have hget : t.items.getOtp msisdn = .ok (d.challenges msisdn) := hload
    rw [exec, hget]
    exact ⟨_, rfl⟩
  | transactIssue msisdn quota version challenge existing fault =>
    simp only [ItemOp.numbers, sendable_append] at h
    obtain ⟨w, hw⟩ := quotaWrite_sends h.1.1.1 h.1.1.2
    obtain ⟨w', hw'⟩ := challengeWrite_sends h.1.2 h.2
    simp only [exec, Except.bind_eq_ok]
    exact ⟨_, w, hw, w', hw', rfl⟩
  | replaceChallenge msisdn expected replacement =>
    simp only [ItemOp.numbers, sendable_append] at h
    obtain ⟨w, hw⟩ := replaceWrite_sends h.1 h.2
    simp only [exec, Except.bind_eq_ok]
    cases hmet : t.items.meets w with
    | true => exact ⟨_, w, hw, if_pos hmet⟩
    | false => exact ⟨_, w, hw, if_neg (by simp [hmet])⟩
  | _ => exact ⟨_, rfl⟩

end Sendable
end Acs
