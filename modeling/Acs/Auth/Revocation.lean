import Acs.Api.Console
import Acs.Store.DynamoDb

/-! Revoking the tokens of a subscriber: what `verify_token` answers afterwards, on either store. -/

namespace Acs.Token
open Interleave Function

/-- A store as its tokens see it: what a revocation does to them, how a lookup answers, and that
the records of subscribers are kept apart. -/
structure TokenStore (σ : Type) where
  step : (op : StoreOp) → σ → op.Answer × σ
  tokens : σ → TokenTable
  revokeAll : TokenTable → String → TokenTable
  lookup : TokenTable → String → Except StoreError (Option TokenRecord)
  getToken : ∀ k s, step (.getToken k) s = (lookup (tokens s) k, s)
  tokens_revoke : ∀ imsi s, tokens (step (.revokeTokensForImsi imsi) s).2 = revokeAll (tokens s) imsi
  tokens_get : ∀ imsi s, tokens (step (.getSubscriber imsi) s).2 = tokens s
  tokens_put : ∀ x clock s, tokens (step (.putSubscriber x clock) s).2 = tokens s
  tokens_edit : ∀ x s, tokens (step (.editSubscriber x) s).2 = tokens s
  tokens_delete : ∀ imsi s, tokens (step (.deleteSubscriber imsi) s).2 = tokens s

def memoryTokens : TokenStore MemoryStore where
  step := MemoryStore.exec
  tokens := MemoryStore.tokens
  revokeAll t imsi := t.revokeIf fun r => r.imsi = imsi && !r.revoked
  lookup t k := .ok (t.get k)
  getToken _ _ := rfl
  tokens_revoke _ _ := rfl
  tokens_get _ _ := rfl
  tokens_put _ _ _ := rfl
  tokens_edit x m := by
    simp only [MemoryStore.exec, MemoryStore.editSubscriber]
    split <;> rfl
  tokens_delete imsi m := by
    simp only [MemoryStore.exec, MemoryStore.deleteSubscriber]
    split <;> rfl

def firstPage (gsi : Gsi) (t : TokenTable) (imsi : String) : List TokenRecord :=
  (gsi.sort (t.filter (·.imsi = imsi))).take 100

theorem revokeIf_revokeIf {p q : TokenRecord → Bool} (hq : ∀ r, q { r with revoked := true } = q r)
    (t : TokenTable) : (t.revokeIf p).revokeIf q = t.revokeIf fun r => p r || q r := by
  rw [TokenTable.revokeIf, TokenTable.revokeIf, TokenTable.revokeIf, List.map_map]
  refine List.map_congr_left fun r _ => ?_
  cases hp : p r <;> cases hqr : q r <;> simp [hp, hqr, hq]

theorem eval_revokeEach (gsi : Gsi) (items : List TokenRecord) (t : DynamoTable) :
    ((DynamoDb.revokeEach items).eval (DynamoTable.exec gsi) t).2 =
      { t with tokens := t.tokens.revokeIf fun r =>
        items.any fun x => !x.revoked && (x.tokenHash = r.tokenHash : Bool) } := by
  induction items generalizing t with
  | nil => simp [DynamoDb.revokeEach, TokenTable.revokeIf]
  | cons x items ih =>
    unfold DynamoDb.revokeEach
    split_ifs with hx
    · rw [ih]
      simp [hx]
    · have hnext : (DynamoTable.exec gsi (.updateRevoked x.tokenHash) t).2 =
          { t with tokens := t.tokens.revokeIf (·.tokenHash = x.tokenHash) } := rfl
      rw [Program.eval_bind, Program.eval_bind]
      change ((DynamoDb.revokeEach items).eval (DynamoTable.exec gsi)
        (DynamoTable.exec gsi (.updateRevoked x.tokenHash) t).2).2 = _
      rw [hnext, ih, revokeIf_revokeIf fun _ => rfl]
      simp [hx, eq_comm]

def revokePage (gsi : Gsi) (t : TokenTable) (imsi : String) : TokenTable :=
  t.revokeIf fun r =>
    (firstPage gsi t imsi).any fun x => !x.revoked && (x.tokenHash = r.tokenHash : Bool)

/-- A stored token without `imei` cannot be loaded. -/
def loadToken (t : TokenTable) (k : String) : Except StoreError (Option TokenRecord) :=
  match t.get k with
  | some r => (DynamoDb.reload r).map some
  | none => .ok none

theorem tokens_putSubscriber (gsi : Gsi) (x : Subscriber) (clock : Clock) (t : DynamoTable) :
    ((DynamoDb.putSubscriber x clock).eval (DynamoTable.exec gsi) t).2.tokens = t.tokens := by
  simp only [DynamoDb.putSubscriber, DynamoDb.getSubscriber, Program.perform_bind,
    Program.eval_call, DynamoTable.exec]
  cases t.subscribers x.imsi with
  | none => rfl
  | some p =>
    dsimp only
    split_ifs <;> rfl

def dynamoTokens (gsi : Gsi) (faults : Nat → Option ClientError) : TokenStore DynamoTable where
  step := DynamoDb.run gsi faults
  tokens := DynamoTable.tokens
  revokeAll := revokePage gsi
  lookup := loadToken
  getToken k t := by
    simp only [DynamoDb.run, DynamoDb.impl, DynamoDb.getToken, loadToken, Program.perform_bind,
      Program.eval_call, DynamoTable.exec]
    cases t.tokens.get k <;> rfl
  tokens_revoke imsi t := by
    simp only [DynamoDb.run, DynamoDb.impl, DynamoDb.revokeTokensForImsi, Program.perform_bind,
      Program.eval_call, eval_revokeEach, DynamoTable.exec]
    rfl
  tokens_get imsi t := rfl
  tokens_put x clock t := tokens_putSubscriber gsi x clock t
  tokens_edit x t := rfl
  tokens_delete imsi t := by
    simp only [DynamoDb.run, DynamoDb.impl, DynamoDb.deleteSubscriber, DynamoDb.getSubscriber,
      Program.perform_bind, Program.eval_call, DynamoTable.exec]
    cases t.subscribers imsi <;> rfl

variable {σ : Type} (sha256 : String → String)

/-- The ways an operator revokes the tokens of a subscriber. -/
inductive Revoking
  | directly
  | disable (vers : Int) (clock : Clock)
  | delete
  | revokeTokens
  | console (settings : Settings) (action : Console.Action) (clock : Clock)
      (h : action = .revokeTokens ∨ action = .delete)

def Revoking.program (imsi : String) : Revoking → StoreProgram Bool
  | directly => do
    let _ ← Store.revokeTokensForImsi imsi
    return true
  | disable vers clock => return (← Admin.disableSubscriber imsi vers clock).isOk
  | delete => return (← Admin.deleteSubscriber imsi).isOk
  | revokeTokens => return (← Admin.revokeTokens imsi).isOk
  | console settings action clock _ =>
    return (← Console.subscriberAction settings sha256 imsi action clock "").isOk

def IssuedFor (t : TokenTable) (imsi token : String) (r : TokenRecord) : Prop :=
  token ≠ "" ∧ t.get (hashToken sha256 token) = some r ∧ r.imsi = imsi

/-- After the revocation no token of the IMSI verifies, and those of others verify as before. -/
structure TokenStore.Complete (S : TokenStore σ) (imsi : String) (how : Revoking) (clock : Clock)
    (s : σ) : Prop where
  revoked : ∀ token r imei bindImei, IssuedFor sha256 (S.tokens s) imsi token r →
    ((verifyToken sha256 token imei bindImei clock).eval S.step
      ((how.program sha256 imsi).eval S.step s).2).1 = .ok none
  others : ∀ token r imei bindImei, token ≠ "" →
    (S.tokens s).get (hashToken sha256 token) = some r → r.imsi ≠ imsi →
      ((verifyToken sha256 token imei bindImei clock).eval S.step
        ((how.program sha256 imsi).eval S.step s).2).1 =
          ((verifyToken sha256 token imei bindImei clock).eval S.step s).1

variable {sha256} {S : TokenStore σ} {s : σ} {imsi : String} {clock : Clock}

theorem tokens_load {k : Subscriber → StoreProgram (Admin.Response α)}
    (hran : (Program.eval S.step (do return (← Admin.load imsi k).isOk) s).1 = true)
    (hk : ∀ x s', S.tokens s' = S.tokens s →
      S.tokens ((k x).eval S.step s').2 = S.revokeAll (S.tokens s) imsi) :
    S.tokens (Program.eval S.step (do return (← Admin.load imsi k).isOk) s).2 =
      S.revokeAll (S.tokens s) imsi := by
  simp only [Admin.load, Store.getSubscriber, Program.perform_bind, Program.call_bind,
    Program.eval_call] at hran ⊢
  cases hfound : (S.step (.getSubscriber imsi) s).1 with
  | none =>
    rw [hfound] at hran
    cases hran
  | some x =>
    rw [Program.eval_bind]
    exact hk x _ (S.tokens_get imsi s)

theorem tokens_revoking (how : Revoking) (hran : ((how.program sha256 imsi).eval S.step s).1 = true) :
    S.tokens ((how.program sha256 imsi).eval S.step s).2 = S.revokeAll (S.tokens s) imsi := by
  have hrevoke : ∀ s', S.tokens s' = S.tokens s →
      S.tokens (S.step (.revokeTokensForImsi imsi) s').2 = S.revokeAll (S.tokens s) imsi :=
    fun s' hs' => hs' ▸ S.tokens_revoke imsi s'
  cases how with
  | directly => exact S.tokens_revoke imsi s
  | disable vers disabledAt =>
    simp only [Revoking.program, Admin.disableSubscriber] at hran ⊢
    by_cases hvers : vers ∉ Vers.forceableVersions
    · rw [if_pos hvers] at hran
      cases hran
    · rw [if_neg hvers] at hran ⊢
      refine tokens_load hran fun x s' hs' => ?_
      refine hrevoke (S.step (.putSubscriber _ disabledAt) (S.step (.editSubscriber _) s').2).2 ?_
      rw [S.tokens_put, S.tokens_edit, hs']
  | delete =>
    exact tokens_load hran fun x s' hs' => (S.tokens_delete imsi _).trans (hrevoke s' hs')
  | revokeTokens => exact tokens_load hran fun x s' hs' => hrevoke s' hs'
  | console settings action clock h =>
    rcases h with rfl | rfl
    · exact tokens_load hran fun x s' hs' => hrevoke s' hs'
    · exact tokens_load hran fun x s' hs' => (S.tokens_delete imsi _).trans (hrevoke s' hs')

/-! ### What `verify_token` answers -/

def accepts (imei : Option String) (bindImei : Bool) (clock : Clock) (r : TokenRecord) : Bool :=
  !r.revoked && !r.expired none clock && !(bindImei && r.imei.getD "" ≠ "" && r.imei ≠ imei)

theorem eval_verifyToken (token : String) (imei : Option String) (bindImei : Bool) (s : σ)
    (htoken : token ≠ "")
    (hdigest : ∀ r, S.lookup (S.tokens s) (hashToken sha256 token) = .ok (some r) →
      r.tokenHash = hashToken sha256 token) :
    ((verifyToken sha256 token imei bindImei clock).eval S.step s).1 =
      (S.lookup (S.tokens s) (hashToken sha256 token)).map
        (·.filter (accepts imei bindImei clock)) := by
  simp only [verifyToken, if_neg htoken, Store.getToken, Program.perform_bind, Program.eval_call,
    S.getToken]
  match hfound : S.lookup (S.tokens s) (hashToken sha256 token) with
  | .error e => rfl
  | .ok none => rfl
  | .ok (some r) =>
    have hr := hdigest r hfound
    simp only [hr, ne_eq, not_true, if_false, Except.map, Option.filter, accepts]
    split_ifs <;> simp_all

theorem accepts_none_false (r : TokenRecord) (clock : Clock) :
    accepts none false clock r = (!r.revoked && !r.expired none clock) := by
  simp [accepts]

theorem memory_complete (how : Revoking) (m : MemoryStore)
    (hran : ((how.program sha256 imsi).eval memoryTokens.step m).1 = true) :
    memoryTokens.Complete sha256 imsi how clock m := by
  have hafter := tokens_revoking how hran
  have hlookup : ∀ t k r, memoryTokens.lookup t k = .ok (some r) → r.tokenHash = k :=
    fun t k r h => (TokenTable.mem_of_get (Except.ok.inj h)).2
  constructor
  · rintro token r imei bindImei ⟨htoken, hget, himsi⟩
    rw [eval_verifyToken token imei bindImei _ htoken (hlookup _ _), hafter]
    simp only [memoryTokens] at hget ⊢
    rw [TokenTable.get_revokeIf, hget]
    cases hrevoked : r.revoked <;> simp [himsi, hrevoked, Except.map, accepts, Option.filter]
  · intro token r imei bindImei htoken hget himsi
    rw [eval_verifyToken token imei bindImei _ htoken (hlookup _ _),
      eval_verifyToken token imei bindImei _ htoken (hlookup _ _), hafter]
    simp only [memoryTokens] at hget ⊢
    rw [TokenTable.get_revokeIf, hget]
    simp [himsi]

section Dynamo
variable {gsi : Gsi} {faults : Nat → Option ClientError} {t : DynamoTable}

theorem mem_firstPage_of_length_le {tokens : TokenTable} {x : TokenRecord} {imsi : String}
    (hlength : tokens.length ≤ 100) (hx : x ∈ tokens) (himsi : x.imsi = imsi) :
    x ∈ firstPage gsi tokens imsi := by
  have hfits : (gsi.sort (tokens.filter (·.imsi = imsi))).length ≤ 100 := by
    rw [(gsi.perm _).length_eq]
    exact Nat.le_trans (List.length_filter_le _ _) hlength
  rw [firstPage, List.take_of_length_le hfits, (gsi.perm _).mem_iff]
  exact List.mem_filter.mpr ⟨hx, decide_eq_true himsi⟩

theorem mem_of_firstPage {tokens : TokenTable} {x : TokenRecord} (h : x ∈ firstPage gsi tokens imsi) :
    x ∈ tokens ∧ x.imsi = imsi := by
  have hx := (gsi.perm _).mem_iff.mp (List.mem_of_mem_take h)
  simpa using List.mem_filter.mp hx

theorem onPage_iff (gsi : Gsi) (imsi : String) {tokens : TokenTable} (hu : tokens.Unique)
    {r : TokenRecord} (hr : r ∈ tokens) :
    ((firstPage gsi tokens imsi).any fun x => !x.revoked && (x.tokenHash = r.tokenHash : Bool)) ↔
      r.revoked = false ∧ r ∈ firstPage gsi tokens imsi := by
  rw [List.any_eq_true]
  constructor
  · rintro ⟨x, hx, hmatch⟩
    simp only [Bool.and_eq_true, Bool.not_eq_true', decide_eq_true_eq] at hmatch
    obtain rfl := hu.eq_of_hash (mem_of_firstPage hx).1 hr hmatch.2
    exact ⟨hmatch.1, hx⟩
  · rintro ⟨hrevoked, hx⟩
    exact ⟨r, hx, by simp [hrevoked]⟩

theorem tokenHash_of_loadToken {tokens : TokenTable} {k : String} {r : TokenRecord}
    (h : loadToken tokens k = .ok (some r)) : r.tokenHash = k := by
  unfold loadToken DynamoDb.reload at h
  cases hget : tokens.get k with
  | none => rw [hget] at h; cases h
  | some r' =>
    rw [hget] at h
    dsimp only at h
    split_ifs at h
    · cases h
    · cases h
      exact (TokenTable.mem_of_get hget).2

theorem mem_of_loadToken {tokens : TokenTable} {k : String} {r : TokenRecord}
    (h : loadToken tokens k = .ok (some r)) : r ∈ tokens := by
  unfold loadToken DynamoDb.reload at h
  cases hget : tokens.get k with
  | none => rw [hget] at h; cases h
  | some r' =>
    rw [hget] at h
    dsimp only at h
    split_ifs at h
    · cases h
    · cases h
      exact (TokenTable.mem_of_get hget).1

theorem eval_verify_revoked {how : Revoking} {token : String} {r : TokenRecord} (imei : Option String)
    (bindImei : Bool) (hu : t.tokens.Unique)
    (hran : ((how.program sha256 imsi).eval (dynamoTokens gsi faults).step t).1 = true)
    (htoken : token ≠ "") (hget : t.tokens.get (hashToken sha256 token) = some r) :
    ((verifyToken sha256 token imei bindImei clock).eval (dynamoTokens gsi faults).step
        ((how.program sha256 imsi).eval (dynamoTokens gsi faults).step t).2).1 =
      if r.imei = none then .error .typeError
      else .ok (if r ∈ firstPage gsi t.tokens imsi then none
        else (some r).filter (accepts imei bindImei clock)) := by
  have hafter := tokens_revoking how hran
  rw [eval_verifyToken token imei bindImei _ htoken fun _ => tokenHash_of_loadToken, hafter]
  simp only [dynamoTokens, loadToken, revokePage, TokenTable.get_revokeIf, hget, Option.map_some]
  have hpage := onPage_iff gsi imsi hu (TokenTable.mem_of_get hget).1
  by_cases hon : r.revoked = false ∧ r ∈ firstPage gsi t.tokens imsi
  · rw [if_pos (hpage.mpr hon), if_pos hon.2]
    cases himei : r.imei <;> simp [DynamoDb.reload, Except.map, accepts, Option.filter]
  · rw [if_neg fun h => hon (hpage.mp h)]
    cases himei : r.imei with
    | none => simp [DynamoDb.reload, himei, Except.map]
    | some i =>
      by_cases hmem : r ∈ firstPage gsi t.tokens imsi
      · have hrevoked : r.revoked = true := by
          by_contra h
          exact hon ⟨Bool.eq_false_iff.mpr h, hmem⟩
        simp [DynamoDb.reload, himei, Except.map, hmem, accepts, hrevoked, Option.filter]
      · simp [DynamoDb.reload, himei, Except.map, hmem]

theorem dynamo_complete_iff {how : Revoking} (hu : t.tokens.Unique)
    (hran : ((how.program sha256 imsi).eval (dynamoTokens gsi faults).step t).1 = true) :
    (dynamoTokens gsi faults).Complete sha256 imsi how clock t ↔
      ∀ token r, IssuedFor sha256 t.tokens imsi token r → r.imei ≠ none ∧
        (r.revoked ∨ r.expired none clock ∨ r ∈ firstPage gsi t.tokens imsi) := by
  constructor
  · rintro h token r hissued
    have hnone := h.revoked token r none false hissued
    rw [eval_verify_revoked none false hu hran hissued.1 hissued.2.1] at hnone
    by_cases himei : r.imei = none
    · rw [if_pos himei] at hnone
      cases hnone
    · refine ⟨himei, ?_⟩
      rw [if_neg himei] at hnone
      by_cases hpage : r ∈ firstPage gsi t.tokens imsi
      · exact Or.inr (Or.inr hpage)
      · rw [if_neg hpage] at hnone
        simp only [Option.filter, accepts_none_false, Except.ok.injEq, ite_eq_right_iff,
          reduceCtorEq, Bool.and_eq_true, Bool.not_eq_true', imp_false, not_and,
          Bool.not_eq_false] at hnone
        cases hrevoked : r.revoked with
        | true => exact Or.inl rfl
        | false => exact Or.inr (Or.inl (hnone hrevoked))
  · intro h
    constructor
    · intro token r imei bindImei hissued
      obtain ⟨himei, hdead⟩ := h token r hissued
      rw [eval_verify_revoked imei bindImei hu hran hissued.1 hissued.2.1, if_neg himei]
      rcases hdead with hrevoked | hexpired | hpage
      · simp [accepts, hrevoked, Option.filter]
      · simp [accepts, hexpired, Option.filter]
      · rw [if_pos hpage]
    · intro token r imei bindImei htoken hget himsi
      change t.tokens.get (hashToken sha256 token) = some r at hget
      have hoff : r ∉ firstPage gsi t.tokens imsi := fun hpage =>
        himsi (mem_of_firstPage hpage).2
      rw [eval_verify_revoked imei bindImei hu hran htoken hget, if_neg hoff,
        eval_verifyToken token imei bindImei _ htoken fun _ => tokenHash_of_loadToken]
      simp only [dynamoTokens, loadToken, hget, DynamoDb.reload]
      split_ifs <;> rfl

theorem unique_exec (op : ItemOp) {t : DynamoTable} (hu : t.tokens.Unique) :
    (DynamoTable.exec gsi op t).2.tokens.Unique := by
  cases op with
  | putToken r => exact hu.put r
  | updateRevoked k => exact hu.revokeIf _
  | transactIssue m quota version item existing fault =>
    cases fault with
    | some e => exact hu
    | none =>
      simp only [DynamoTable.exec, DynamoTable.transactIssue]
      split_ifs <;> exact hu
  | replaceChallenge m expected replacement =>
    simp only [DynamoTable.exec, DynamoTable.replaceChallenge]
    cases t.challenges m with
    | none => exact hu
    | some c =>
      dsimp only
      split_ifs <;> exact hu
  | _ => exact hu

end Dynamo

def afterOps (step : (op : StoreOp) → σ → op.Answer × σ) (s : σ) (ops : List StoreOp) : σ :=
  ops.foldl (fun s op => (step op s).2) s

theorem unique_afterOps (gsi : Gsi) (faults : Nat → Option ClientError) (ops : List StoreOp)
    {t : DynamoTable} (hu : t.tokens.Unique) :
    (afterOps (DynamoDb.run gsi faults) t ops).tokens.Unique := by
  induction ops generalizing t with
  | nil => exact hu
  | cons op ops ih =>
    exact ih (Program.eval_invariant (P := fun t : DynamoTable => t.tokens.Unique)
      (fun op _ => unique_exec op) _ hu)

/-- After any operations, a revocation on `MemoryStore` is complete; on the table it is so exactly
if every token of the IMSI can be loaded and is on the first page of the index, or dead already. -/
theorem revocation_complete_iff (sha256 : String → String) (gsi : Gsi)
    (faults : Nat → Option ClientError) (ops : List StoreOp) (imsi : String) (how : Revoking)
    (clock : Clock) :
    (((how.program sha256 imsi).eval MemoryStore.exec (afterOps MemoryStore.exec {} ops)).1 = true →
      memoryTokens.Complete sha256 imsi how clock (afterOps MemoryStore.exec {} ops)) ∧
    (((how.program sha256 imsi).eval (DynamoDb.run gsi faults)
        (afterOps (DynamoDb.run gsi faults) {} ops)).1 = true →
      ((dynamoTokens gsi faults).Complete sha256 imsi how clock
          (afterOps (DynamoDb.run gsi faults) {} ops) ↔
        ∀ token r, IssuedFor sha256 (afterOps (DynamoDb.run gsi faults) {} ops).tokens imsi token r →
          r.imei ≠ none ∧ (r.revoked ∨ r.expired none clock ∨
            r ∈ firstPage gsi (afterOps (DynamoDb.run gsi faults) {} ops).tokens imsi))) :=
  ⟨memory_complete how _, dynamo_complete_iff (unique_afterOps gsi faults ops List.nodup_nil)⟩

/-- Two handsets of a subscriber and one of another are issued tokens. -/
def issued : List StoreOp :=
  [.putToken (newRecord id "t1" "450051234567890" (some "350000000000001") 2592000 true
      ⟨1700000000, Clock.pos_start⟩),
    .putToken (newRecord id "t2" "450059999999999" (some "350000000000002") 2592000 true
      ⟨1700000000, Clock.pos_start⟩),
    .putToken (newRecord id "t3" "450051234567890" (some "350000000000003") 60 true
      ⟨1700000000, Clock.pos_start⟩)]

/-- Both tokens of the subscriber are on the first page. -/
theorem revocation_complete_of_two_tokens :
    (dynamoTokens ⟨id, fun _ => .refl _⟩ fun _ => none).Complete id "450051234567890" .directly
      ⟨1700000001, by decide⟩ (afterOps (DynamoDb.run ⟨id, fun _ => .refl _⟩ fun _ => none) {}
        issued) := by
  refine ((revocation_complete_iff id ⟨id, fun _ => .refl _⟩ (fun _ => none) issued
    "450051234567890" .directly ⟨1700000001, by decide⟩).2 rfl).mpr ?_
  rintro token r ⟨-, hget, himsi⟩
  have hmem := (TokenTable.mem_of_get hget).1
  have hpaged : ∀ r ∈
      (afterOps (DynamoDb.run ⟨id, fun _ => .refl _⟩ fun _ => none) {} issued).tokens,
      r.imsi = "450051234567890" → r.imei ≠ none ∧ r ∈ firstPage ⟨id, fun _ => .refl _⟩
        (afterOps (DynamoDb.run ⟨id, fun _ => .refl _⟩ fun _ => none) {} issued).tokens
        "450051234567890" := by decide
  obtain ⟨himei, hpage⟩ := hpaged r hmem himsi
  exact ⟨himei, Or.inr (Or.inr hpage)⟩

/-- The token a subscriber was issued after a hundred others. -/
def hundredAnd (n : Nat) : TokenRecord :=
  newRecord id (String.ofList (List.replicate (n + 1) 'a')) "450051234567890"
    (some "350000000000001") 2592000 true ⟨1700000000, Clock.pos_start⟩

theorem put_fresh {t : TokenTable} {r : TokenRecord} (h : ∀ x ∈ t, x.tokenHash ≠ r.tokenHash) :
    t.put r = t ++ [r] := by
  induction t with
  | nil => rfl
  | cons x t ih =>
    rw [TokenTable.put, if_neg (h x List.mem_cons_self),
      ih fun y hy => h y (List.mem_cons_of_mem _ hy), List.cons_append]

theorem hundredAnd_hash_ne {m n : Nat} (h : m ≠ n) :
    (hundredAnd m).tokenHash ≠ (hundredAnd n).tokenHash := by
  intro heq
  have hlen := congrArg (fun s => s.toList.length) heq
  simp [hundredAnd, newRecord, hashToken] at hlen
  exact h hlen

theorem tokens_of_puts (gsi : Gsi) (faults : Nat → Option ClientError) (n : Nat) :
    (afterOps (DynamoDb.run gsi faults) {}
      ((List.range n).map fun i => .putToken (hundredAnd i))).tokens =
      (List.range n).map hundredAnd := by
  induction n with
  | zero => rfl
  | succ n ih =>
    rw [List.range_succ, List.map_append, afterOps, List.foldl_append]
    change TokenTable.put (afterOps (DynamoDb.run gsi faults) {} _).tokens (hundredAnd n) = _
    rw [ih, put_fresh, List.map_append, List.map_singleton]
    intro x hx
    obtain ⟨m, hm, rfl⟩ := List.mem_map.mp hx
    exact hundredAnd_hash_ne (Nat.ne_of_lt (List.mem_range.mp hm))

/-- With 101 tokens, the last one outlives the revocation. -/
theorem revocation_not_complete :
    ¬ (dynamoTokens ⟨id, fun _ => .refl _⟩ fun _ => none).Complete id "450051234567890" .directly
      ⟨1700000001, by decide⟩ (afterOps (DynamoDb.run ⟨id, fun _ => .refl _⟩ fun _ => none) {}
        ((List.range 101).map fun i => .putToken (hundredAnd i))) := by
  intro h
  have htokens := tokens_of_puts ⟨id, fun _ => .refl _⟩ (fun _ => none) 101
  have hu := unique_afterOps ⟨id, fun _ => .refl _⟩ (fun _ => none)
    ((List.range 101).map fun i => .putToken (hundredAnd i)) (t := {}) List.nodup_nil
  have hlast := (dynamo_complete_iff hu rfl).mp h (hundredAnd 100).tokenHash (hundredAnd 100)
  rw [htokens] at hu hlast
  have hmem : hundredAnd 100 ∈ (List.range 101).map hundredAnd := by
    have hlast : 100 ∈ List.range 101 := by simp
    exact List.mem_map_of_mem hlast
  have hissued : IssuedFor id ((List.range 101).map hundredAnd) "450051234567890"
      (hundredAnd 100).tokenHash (hundredAnd 100) :=
    ⟨by simp [hundredAnd, newRecord, hashToken], hu.get_of_mem hmem, rfl⟩
  obtain ⟨-, hrevoked | hexpired | hpage⟩ := hlast hissued
  · cases hrevoked
  · exact absurd hexpired (by decide)
  · have hfilter : ((List.range 101).map hundredAnd).filter (·.imsi = "450051234567890") =
        (List.range 101).map hundredAnd := List.filter_eq_self.mpr fun x hx => by
      obtain ⟨m, -, rfl⟩ := List.mem_map.mp hx
      rfl
    rw [firstPage, hfilter] at hpage
    change hundredAnd 100 ∈ ((List.range 101).map hundredAnd).take 100 at hpage
    rw [← List.map_take, List.take_range] at hpage
    obtain ⟨m, hm, heq⟩ := List.mem_map.mp hpage
    refine hundredAnd_hash_ne ?_ (congrArg TokenRecord.tokenHash heq)
    have := List.mem_range.mp hm
    omega

end Acs.Token
