import Mathlib
import Acs.Domain.ConfigurationProof

/-! What a GBA header proves: the nonce, the digest and the subscriber behind it. -/

namespace Acs
open Interleave

namespace Gba

def stampOf (raw : String) : String := String.ofList (raw.toList.takeWhile (· ≠ ':'))

def signed (crypto : GbaCrypto) (secret stamp : String) : String :=
  stamp ++ ":" ++ signatureOf crypto secret stamp

variable {py : PyText} {lower : String → String} {crypto : GbaCrypto} {nonce secret : String}
  {maxAge : Int} {clock : Clock}

theorem takeWhile_append_cons {α : Type} {p : α → Bool} {as bs : List α} {a : α}
    (has : ∀ x ∈ as, p x = true) (ha : p a = false) : (as ++ a :: bs).takeWhile p = as := by
  rw [List.takeWhile_append_of_pos has, List.takeWhile_cons_of_neg (by simp [ha]), List.append_nil]

theorem stampOf_signed {stamp : String} (hstamp : ':' ∉ stamp.toList) :
    stampOf (signed crypto secret stamp) = stamp := by
  have hlist : (signed crypto secret stamp).toList =
      stamp.toList ++ ':' :: (signatureOf crypto secret stamp).toList := by
    simp [signed]
  have hall : ∀ c ∈ stamp.toList, decide (c ≠ ':') = true := by
    intro c hc
    rw [decide_eq_true_eq]
    rintro rfl
    exact hstamp hc
  unfold stampOf
  rw [hlist, takeWhile_append_cons hall (by simp), String.ofList_toList]

theorem colon_not_mem_toString (t : Int) : ':' ∉ (toString t).toList := by
  have hdigits : ∀ n : Nat, ':' ∉ (Nat.repr n).toList := by
    intro n h
    have hdigit := Nat.isDigit_of_mem_toDigits (b := 10) (by decide) (by decide) (c := ':') (n := n)
      (by simpa [Nat.repr] using h)
    exact absurd hdigit (by decide)
  cases t with
  | ofNat n => exact hdigits n
  | negSucc n =>
    intro h
    rw [Int.toString_eq_repr, Int.repr, String.toList_append, List.mem_append] at h
    rcases h with hminus | hrest
    · exact absurd hminus (by decide)
    · exact hdigits _ hrest

theorem compareDigest_true {a b : String} (h : compareDigest a b = .ok true) : a = b := by
  unfold compareDigest at h
  split_ifs at h
  simpa using Except.ok.inj h

theorem verifyNonce_true (h : verifyNonce py crypto nonce secret maxAge clock = .ok true) :
    secret ≠ "" ∧ ∃ stamp t, ':' ∉ stamp.toList ∧
      crypto.decodeBase64 nonce = some (signed crypto secret stamp) ∧
      py.parseInt stamp = some t ∧ t ≤ clock.now ∧ clock.now - t ≤ maxAge := by
  unfold verifyNonce at h
  by_cases hempty : (secret = "" || nonce = "" : Bool) = true
  · rw [if_pos hempty] at h
    cases h
  · rw [if_neg hempty] at h
    cases hraw : crypto.decodeBase64 nonce with
    | none => simp [hraw] at h
    | some raw =>
      rw [hraw] at h
      dsimp only at h
      have hsplit := List.takeWhile_append_dropWhile (p := fun c => decide (c ≠ ':')) (l := raw.toList)
      have hhead := List.head?_dropWhile_not (fun c => decide (c ≠ ':')) raw.toList
      have hstamp : ∀ c ∈ raw.toList.takeWhile (· ≠ ':'), c ≠ ':' := fun c hc => by
        simpa using List.mem_takeWhile_imp hc
      generalize raw.toList.takeWhile (· ≠ ':') = before at h hsplit hstamp
      generalize raw.toList.dropWhile (· ≠ ':') = after at h hsplit hhead
      by_cases hdigits :
          (String.ofList (after.drop 1) = "" || !py.digits (String.ofList before) : Bool) = true
      · rw [if_pos hdigits] at h
        cases h
      · rw [if_neg hdigits] at h
        rw [Bool.or_eq_true, not_or, decide_eq_true_eq] at hdigits
        -- there is a signature, and so a colon in front of it
        obtain ⟨signature, rfl⟩ : ∃ signature, after = ':' :: signature := by
          cases after with
          | nil => exact absurd rfl hdigits.1
          | cons c rest =>
            have hc : c = ':' := by simpa using hhead
            exact ⟨rest, by rw [hc]⟩
        generalize hcompare : compareDigest (signatureOf crypto secret (String.ofList before)) _ =
          compared at h
        have htrue : compared = .ok true := by
          rcases compared with e | _ | _
          · cases h
          · cases h
          · rfl
        subst htrue
        cases ht : py.parseInt (String.ofList before) with
        | none => simp [ht] at h
        | some t =>
          rw [ht] at h
          have hage : (0 ≤ clock.now - t && clock.now - t ≤ maxAge : Bool) = true :=
            Except.ok.inj h
          rw [Bool.and_eq_true, decide_eq_true_eq, decide_eq_true_eq] at hage
          have hraw' : raw = signed crypto secret (String.ofList before) := by
            rw [← String.toList_inj, ← hsplit, signed, compareDigest_true hcompare]
            simp
          rw [Bool.or_eq_true, not_or, decide_eq_true_eq] at hempty
          exact ⟨hempty.1, _, t, by simpa using fun h => hstamp _ h rfl, by rw [hraw'], ht,
            by omega, hage.2⟩

end Gba

namespace Frontend
open ProvisioningService

section Claim
variable {σ : Type} (step : (op : StoreOp) → σ → op.Answer × σ) (frontend : Frontend)
  (request : HttpRequest) (checkedAt : Clock) (draws : Draws) (s₀ : σ) (s : Subscriber)

/-- The identity chain takes the request for the subscriber's, on the strength of its GBA header. -/
def AuthenticatedByGba : Prop :=
  ∃ evidence, frontend.evidence request checkedAt = .ok evidence ∧
    ((frontend.service.resolveIdentity request.query evidence draws).eval step s₀).1 =
      .ok (.authenticated s .gba)

def directives : List (String × String) :=
  Gba.parseAuthorization frontend.py frontend.lower
    ((request.headers.lookup "authorization").getD "")

def directive (name : String) : String := ((frontend.directives request).lookup name).getD ""

def keysOf (callNo : Nat) (keys : NafKeys) : Prop :=
  frontend.bsf callNo (frontend.directive request "username") frontend.service.gbaRealm =
    .ok (some keys)

/-- What the header must prove: a nonce made at one of the times `issued` and not too old, a digest
over its own directives with `Ks_NAF`, and the entitled subscriber of the `impi`. -/
structure GbaProven (issued : Int → Prop) (realm : String) : Prop where
  nonce : ∃ t random, issued t ∧ frontend.directive request "nonce" =
      Gba.makeNonce frontend.crypto frontend.gbaNonceSecret t random ∧
    t ≤ checkedAt.now ∧ checkedAt.now - t ≤ frontend.gbaNonceMaxAgeSeconds
  response : ∃ keys, frontend.keysOf request 0 keys ∧
    frontend.directive request "response" = Gba.expectedResponse frontend.crypto realm
      request.method (frontend.directives request) keys ∧
    (step (.getSubscriber (userPart keys.impi)) s₀).1 = some s
  entitled : s.entitled = true

/-- The nonce is no older than configured and spelled as `make_nonce` spells it, the digest does not
depend on which realm is meant, and both answers of the BSF lead to one subscriber. -/
structure GbaInOrder (realm : String) : Prop where
  age : ∀ raw t, frontend.crypto.decodeBase64 (frontend.directive request "nonce") = some raw →
    frontend.py.parseInt (Gba.stampOf raw) = some t →
    checkedAt.now - t ≤ frontend.gbaNonceMaxAgeSeconds
  canonical : ∀ raw, frontend.crypto.decodeBase64 (frontend.directive request "nonce") = some raw →
    frontend.crypto.encodeBase64 raw = frontend.directive request "nonce"
  realm : ∀ keys, frontend.keysOf request 0 keys →
    Gba.expectedResponse frontend.crypto realm request.method (frontend.directives request) keys =
      Gba.expectedResponse frontend.crypto frontend.service.gbaRealm request.method
        (frontend.directives request) keys
  subscriber : ∀ keys keys', frontend.keysOf request 0 keys → frontend.keysOf request 1 keys' →
    (step (.getSubscriber (userPart keys.impi)) s₀).1 =
      (step (.getSubscriber (userPart keys'.impi)) s₀).1

end Claim

section Chain
variable {σ : Type} {step : (op : StoreOp) → σ → op.Answer × σ} {frontend : Frontend}
  {request : HttpRequest} {checkedAt : Clock} {draws : Draws} {s₀ : σ} {s : Subscriber}

structure Checked (frontend : Frontend) (request : HttpRequest) (checkedAt : Clock)
    (keys : NafKeys) : Prop where
  nonce : Gba.verifyNonce frontend.py frontend.crypto (frontend.directive request "nonce")
    frontend.gbaNonceSecret 300 checkedAt = .ok true
  found : frontend.keysOf request 0 keys
  response : Gba.expectedResponse frontend.crypto frontend.service.gbaRealm request.method
    (frontend.directives request) keys = frontend.directive request "response"

theorem authorizationCheck_ok {authorization : String} {check : AuthorizationCheck}
    (hheader : request.headers.lookup "authorization" = some authorization)
    (h : frontend.authorizationCheck request authorization checkedAt = .ok check)
    (hok : check.ok = true) :
    check.btid = frontend.directive request "username" ∧
      ∃ keys, Checked frontend request checkedAt keys := by
  have hdirectives : Gba.parseAuthorization frontend.py frontend.lower authorization =
      frontend.directives request := by
    rw [directives, hheader, Option.getD_some]
  unfold authorizationCheck Gba.verifyAuthorization at h
  rw [hdirectives] at h
  dsimp only at h
  split_ifs at h
  · obtain rfl := Except.ok.inj h
    cases hok
  · obtain rfl := Except.ok.inj h
    cases hok
  · split at h
    · cases h
    · obtain rfl := Except.ok.inj h
      cases hok
    · next hnonce =>
      split at h
      · cases h
      · obtain rfl := Except.ok.inj h
        cases hok
      · next keys hkeys =>
        split at h
        · cases h
        · obtain rfl := Except.ok.inj h
          cases hok
        · next hcompare =>
          obtain rfl := Except.ok.inj h
          exact ⟨rfl, keys, hnonce, hkeys, Gba.compareDigest_true hcompare⟩

theorem AuthenticatedByGba.checked
    (h : frontend.AuthenticatedByGba step request checkedAt draws s₀ s) :
    (∃ keys, Checked frontend request checkedAt keys) ∧ s.entitled = true ∧
      ∃ keys, frontend.keysOf request 1 keys ∧
        (step (.getSubscriber (userPart keys.impi)) s₀).1 = some s := by
  obtain ⟨evidence, hevidence, hauthenticated⟩ := h
  rcases eval_resolveIdentity.mp hauthenticated with ⟨hnamed, hentitled⟩ | _
  cases hnamed with
  | gba imsi htoken hmsisdn hgba hread =>
    rcases evidence_cases hevidence with hne | ⟨-, hne, hevidence⟩ | ⟨-, -, -, hverifies⟩
    · exact absurd htoken hne
    · have hnumber : orElseText (some (orElseText (frontend.enriched request) "")) "" =
          orElseText (frontend.enriched request) "" := if_neg hne
      rw [hevidence, hnumber] at hmsisdn
      exact absurd hmsisdn hne
    · obtain ⟨authorization, check, keys, hheader, hcheck, hok, hkeys, huser⟩ :=
        (hverifies imsi hgba).accepted
      obtain ⟨hbtid, hchecked⟩ := authorizationCheck_ok hheader hcheck hok
      rw [hbtid] at hkeys
      rw [← huser] at hread
      exact ⟨hchecked, hentitled, keys, hkeys, hread⟩

end Chain

section Theorem
variable {σ : Type} {step : (op : StoreOp) → σ → op.Answer × σ} {frontend : Frontend}
  {request : HttpRequest} {checkedAt : Clock} {draws : Draws} {s₀ : σ} {s : Subscriber}
  {issued : Int → Prop}

/-- A request that is authenticated by GBA has proven it just when its header is in order: the code
checks the age of the nonce against a constant, decodes a nonce however it is spelled, and asks the
BSF again for the subscriber. `hunforgeable` says of HMAC-SHA256 that a signature under the secret
comes from `make_nonce`, the other hypotheses what base64 and `int` do. -/
theorem gbaProven_iff (realm : String)
    (hunforgeable : ∀ stamp, frontend.crypto.decodeBase64 (frontend.directive request "nonce") =
        some (Gba.signed frontend.crypto frontend.gbaNonceSecret stamp) →
      ∃ t, issued t ∧ stamp = toString t)
    (hbase64 : ∀ text, frontend.crypto.decodeBase64 (frontend.crypto.encodeBase64 text) = some text)
    (hint : ∀ t, issued t → frontend.py.parseInt (toString t) = some t)
    (h : frontend.AuthenticatedByGba step request checkedAt draws s₀ s) :
    GbaProven step frontend request checkedAt s₀ s issued realm ↔
      GbaInOrder step frontend request checkedAt s₀ realm := by
  obtain ⟨⟨keys, hchecked⟩, hentitled, keys', hkeys', hread⟩ := h.checked
  obtain ⟨hsecret, stamp, t, hstamp, hraw, ht, hpast, -⟩ := Gba.verifyNonce_true hchecked.nonce
  have hkeys : ∀ other, frontend.keysOf request 0 other → other = keys := fun other hother =>
    Option.some.inj (Except.ok.inj (hother.symm.trans hchecked.found))
  have hkeys₁ : ∀ other, frontend.keysOf request 1 other → other = keys' := fun other hother =>
    Option.some.inj (Except.ok.inj (hother.symm.trans hkeys'))
  -- the server made the nonce that comes back
  obtain ⟨issuedAt, hissued, rfl⟩ := hunforgeable stamp hraw
  obtain rfl : issuedAt = t := Option.some.inj ((hint _ hissued).symm.trans ht)
  have hmade : ∀ random, Gba.makeNonce frontend.crypto frontend.gbaNonceSecret issuedAt random =
      frontend.crypto.encodeBase64
        (Gba.signed frontend.crypto frontend.gbaNonceSecret (toString issuedAt)) := by
    intro random
    rw [Gba.makeNonce, if_neg hsecret, Gba.signed]
  constructor
  · rintro ⟨⟨made, random, hmadeAt, hnonce, -, hage⟩, ⟨other, hother, hresponse, hsame⟩, -⟩
    obtain rfl := hkeys other hother
    rw [Gba.makeNonce, if_neg hsecret] at hnonce
    have hdecoded : frontend.crypto.decodeBase64 (frontend.directive request "nonce") =
        some (Gba.signed frontend.crypto frontend.gbaNonceSecret (toString made)) := by
      rw [hnonce]
      exact hbase64 _
    -- a nonce tells when it was made
    have hstamps : toString issuedAt = toString made := by
      rw [← Gba.stampOf_signed hstamp, Option.some.inj (hraw.symm.trans hdecoded),
        Gba.stampOf_signed (Gba.colon_not_mem_toString made)]
    have hnow : made = issuedAt := by
      have hmade := hint made hmadeAt
      rw [← hstamps, ht] at hmade
      exact (Option.some.inj hmade).symm
    subst hnow
    constructor
    · intro raw t' hraw' ht'
      obtain rfl := Option.some.inj (hraw.symm.trans hraw')
      rw [Gba.stampOf_signed hstamp, ht] at ht'
      rwa [← Option.some.inj ht']
    · intro raw hraw'
      obtain rfl := Option.some.inj (hraw.symm.trans hraw')
      exact hnonce.symm
    · intro other' hother'
      rw [hkeys other' hother', ← hresponse, hchecked.response]
    · intro other' next hother' hnext
      rw [hkeys other' hother', hkeys₁ next hnext, hsame, hread]
  · rintro ⟨hage, hcanonical, hrealm, hsubscriber⟩
    have hnonce : frontend.directive request "nonce" =
        Gba.makeNonce frontend.crypto frontend.gbaNonceSecret issuedAt "" := by
      rw [hmade, hcanonical _ hraw]
    have hparsed : frontend.py.parseInt (Gba.stampOf (Gba.signed frontend.crypto
        frontend.gbaNonceSecret (toString issuedAt))) = some issuedAt := by
      rw [Gba.stampOf_signed hstamp, ht]
    have hresponse : frontend.directive request "response" = Gba.expectedResponse frontend.crypto
        realm request.method (frontend.directives request) keys := by
      rw [hrealm keys hchecked.found, hchecked.response]
    have hsame : (step (.getSubscriber (userPart keys.impi)) s₀).1 = some s := by
      rw [hsubscriber keys keys' hchecked.found hkeys', hread]
    exact ⟨⟨issuedAt, "", hissued, hnonce, hpast, hage _ _ hraw hparsed⟩,
      ⟨keys, hchecked.found, hresponse, hsame⟩, hentitled⟩

end Theorem

/-! ### A handset behind a BSF -/

namespace Lab

def stamp : String := "1699999900"

/-- `HMAC-SHA256` of the stamp under `gba-nonce-secret`. -/
def signature : String := "9befd4acf917636dfd19e2742e2031630b2725767e7fc8e614f666a68a6d0d64"

def raw : String := stamp ++ ":" ++ "9befd4acf917636dfd19e2742e203163"

def nonce : String := "MTY5OTk5OTkwMDo5YmVmZDRhY2Y5MTc2MzZkZmQxOWUyNzQyZTIwMzE2Mw=="

def swap (text : String) : String :=
  if text = raw then nonce else if text = nonce then raw else text

theorem swap_swap (text : String) : swap (swap text) = text := by
  have hne : nonce ≠ raw := by decide
  unfold swap
  by_cases hraw : text = raw
  · simp [hraw, hne]
  · by_cases hnonce : text = nonce
    · simp [hnonce, hne]
    · simp [hraw, hnonce]

def btid : String := "YnNm@bsf.example.com"

def ksNaf : List UInt8 :=
  [118, 81, 196, 236, 249, 122, 64, 254, 246, 105, 224, 172, 28, 77, 153, 237,
   62, 171, 222, 6, 189, 109, 65, 64, 218, 223, 226, 121, 120, 58, 6, 211]

def ha1 : String := "3c16c41c4d27a81f951e05388ee1b6af"

def ha2 : String := "71998c64aea37ae77020c49c00f73fa8"

def digests : List (List UInt8 × String) :=
  [((btid ++ ":3GPP-bootstrapping@acs.example.com:").toUTF8.toList ++ ksNaf, ha1),
   ("GET:/".toUTF8.toList, ha2),
   ((ha1 ++ ":" ++ nonce ++ ":00000001:c0:auth:" ++ ha2).toUTF8.toList,
    "6e33846ef72f806263d5c613d5c44e78")]

def digest : String := "6e33846ef72f806263d5c613d5c44e78"

def realm : String := "3GPP-bootstrapping@acs.example.com"

def py : PyText :=
  { asciiText with parseInt := fun s => if s = stamp then some 1699999900 else none }

def crypto : GbaCrypto where
  decodeBase64 s := some (swap s)
  encodeBase64 := swap
  hmacSha256 _ text := if text = stamp then signature else ""
  md5 bytes := (digests.lookup bytes).getD ""

def keys : NafKeys := ⟨btid, ksNaf, "450051234567890@ims.mnc005.mcc450.3gppnetwork.org"⟩

def bsf : BsfClient := fun _ id _ => .ok (if id = btid then some keys else none)

def frontend (gbaNonceMaxAgeSeconds : Int) : Frontend where
  service := { OnDynamo.labService with
    gbaEnabled := true, gbaRealm := realm, env := { OnDynamo.labService.env with py } }
  lower := asciiLower
  crypto
  bsf
  gbaNonceSecret := "gba-nonce-secret"
  gbaNonceMaxAgeSeconds

def header : List Char :=
  "Digest username=\"".toList ++ btid.toList ++ "\",nonce=\"".toList ++ nonce.toList ++
    "\",uri=\"/\",cnonce=\"c0\",response=\"".toList ++ digest.toList ++ "\"".toList

def request : HttpRequest where
  query := { vers := 1 }
  headers := [("authorization", String.ofList header)]

def checkedAt : Clock := ⟨1700000100, Clock.pos_later⟩

def store : MemoryStore :=
  { subscribers := Function.update (fun _ => none) OnDynamo.labSubscriber.imsi
      (some OnDynamo.labSubscriber) }

def draws : Draws := (OnDynamo.labRequest "s3cret" OnDynamo.labPassword_ne).draws

def partOf (text : List Char) : Option (String × String) :=
  if text.contains '=' then
    some (String.ofList ((text.takeWhile (· ≠ '=')).map Char.toLower),
      String.ofList (Enrichment.stripChar '"' ((text.dropWhile (· ≠ '=')).drop 1)))
  else none

theorem directiveOf_ofList (text : List Char) :
    Gba.directiveOf py asciiLower (String.ofList text) = partOf text := by
  simp [Gba.directiveOf, partOf, asciiLower, py, asciiText]

theorem parsed : Gba.parseAuthorization py asciiLower (String.ofList header) =
    [("username", btid), ("nonce", nonce), ("uri", "/"), ("cnonce", "c0"), ("response", digest)] := by
  have hparts : Gba.directiveOf py asciiLower ∘ String.ofList = partOf := funext directiveOf_ofList
  have hfold : Gba.parseAuthorization py asciiLower (String.ofList header) =
      if "digest ".toList.isPrefixOf (header.map Char.toLower) then
        (((header.drop 7).splitOn ',').filterMap partOf).foldl
          (fun out d => Gba.setDirective d.1 d.2 out) []
      else [] := by
    unfold Gba.parseAuthorization Enrichment.splitComma
    rw [List.filterMap_map, hparts]
    simp only [asciiLower, String.toList_ofList]
  rw [hfold]
  decide +kernel

theorem verified : Gba.verifyAuthorization py asciiLower crypto (String.ofList header) realm
    "gba-nonce-secret" "GET" bsf checkedAt 300 =
      .ok { ok := true, btid, reason := "verified" } := by
  unfold Gba.verifyAuthorization
  rw [parsed]
  decide +kernel

theorem authenticatedByGba (maxAge : Int) :
    (frontend maxAge).AuthenticatedByGba MemoryStore.exec request checkedAt draws store
      OnDynamo.labSubscriber := by
  have hheader : (request.headers.lookup "authorization").getD "" = String.ofList header := rfl
  have hverified : (frontend maxAge).authorizationCheck request (String.ofList header) checkedAt =
      .ok { ok := true, btid, reason := "verified" } := verified
  have hkeys : (frontend maxAge).bsf 1 btid (frontend maxAge).service.gbaRealm = .ok (some keys) := by
    change bsf 1 btid realm = _
    rw [bsf, if_pos rfl]
  have huser : userPart keys.impi = OnDynamo.labSubscriber.imsi := by decide +kernel
  have hchecked : (frontend maxAge).checkGba request checkedAt =
      .ok (some (.verified OnDynamo.labSubscriber.imsi)) := by
    unfold checkGba
    rw [hheader]
    split
    · next hempty =>
      have hnil : header = [] := by simpa using congrArg String.toList hempty
      exact absurd hnil (by decide)
    · rw [hverified]
      simp only [bind, Except.bind, pure, Except.pure, hkeys, huser, Bool.not_true,
        Bool.false_eq_true, if_false]
  have henriched : (frontend maxAge).enriched request = none := by
    have hnone : (frontend 0).enriched request = none := by decide +kernel
    exact hnone
  have hevidence : (frontend maxAge).evidence request checkedAt =
      .ok { gba := some (.verified OnDynamo.labSubscriber.imsi) } := by
    unfold Frontend.evidence
    have htoken : ¬orElseText request.query.token "" ≠ "" := not_not.mpr rfl
    rw [if_neg htoken, henriched, hchecked]
    rfl
  have hread : (MemoryStore.exec (.getSubscriber OnDynamo.labSubscriber.imsi) store).1 =
      some OnDynamo.labSubscriber := rfl
  exact ⟨_, hevidence, eval_resolveIdentity.mpr (.named (.gba _ rfl rfl rfl hread) rfl)⟩

def issued (t : Int) : Prop := t = 1699999900

theorem directive_nonce {maxAge : Int} : (frontend maxAge).directive request "nonce" = nonce := by
  change ((Gba.parseAuthorization py asciiLower (String.ofList header)).lookup "nonce").getD "" =
    nonce
  rw [parsed]
  rfl

theorem decoded {maxAge : Int} {text : String} (h : (frontend maxAge).crypto.decodeBase64
    ((frontend maxAge).directive request "nonce") = some text) : text = raw := by
  rw [directive_nonce] at h
  have hswap : swap nonce = raw := by decide
  exact (Option.some.inj h).symm.trans hswap

theorem unforgeable {maxAge : Int} (text : String)
    (h : (frontend maxAge).crypto.decodeBase64 ((frontend maxAge).directive request "nonce") =
      some (Gba.signed (frontend maxAge).crypto (frontend maxAge).gbaNonceSecret text)) :
    ∃ t, issued t ∧ text = toString t := by
  refine ⟨1699999900, rfl, ?_⟩
  have hraw : raw = Gba.signed (frontend maxAge).crypto (frontend maxAge).gbaNonceSecret text :=
    (decoded h).symm
  by_contra hne
  -- without a signature the text would end in a colon
  have hunsigned : Gba.signatureOf (frontend maxAge).crypto (frontend maxAge).gbaNonceSecret text =
      "" := by
    have hempty : (frontend maxAge).crypto.hmacSha256 (frontend maxAge).gbaNonceSecret text = "" :=
      if_neg hne
    rw [Gba.signatureOf, hempty]
    rfl
  have hlast := congrArg (fun s : String => s.toList.getLast?) hraw
  rw [Gba.signed, hunsigned] at hlast
  simp only [String.toList_append, String.append_empty] at hlast
  rw [List.getLast?_append] at hlast
  have hcolon : raw.toList.getLast? ≠ some ':' := by decide
  exact hcolon hlast

/-- With the age it has configured by default the server accepts the header for what it is. -/
theorem gbaProven_of_default :
    GbaProven MemoryStore.exec (frontend 300) request checkedAt store OnDynamo.labSubscriber issued
      (frontend 300).service.gbaRealm := by
  refine (gbaProven_iff _ unforgeable (fun text => congrArg some (swap_swap text)) ?_
    (authenticatedByGba 300)).mpr ⟨?_, ?_, fun _ _ => rfl, ?_⟩
  · rintro t rfl
    decide
  · intro text t htext ht
    obtain rfl := decoded htext
    have hstamp : (frontend 300).py.parseInt (Gba.stampOf raw) = some 1699999900 := by decide
    obtain rfl := Option.some.inj (hstamp.symm.trans ht)
    decide
  · intro text htext
    obtain rfl := decoded htext
    rw [directive_nonce]
    decide
  · intro keys keys' h h'
    rw [Option.some.inj (Except.ok.inj (h.symm.trans h'))]

/-- With a shorter age it still accepts it. -/
theorem not_gbaProven_of_shorter_age :
    (frontend 60).AuthenticatedByGba MemoryStore.exec request checkedAt draws store
        OnDynamo.labSubscriber ∧
      ¬GbaProven MemoryStore.exec (frontend 60) request checkedAt store OnDynamo.labSubscriber issued
        (frontend 60).service.gbaRealm := by
  refine ⟨authenticatedByGba 60, fun h => ?_⟩
  obtain ⟨t, -, rfl, -, -, hage⟩ := h.nonce
  exact absurd hage (by decide)

end Lab
end Frontend
end Acs
