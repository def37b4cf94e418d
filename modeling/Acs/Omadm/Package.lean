import Mathlib
import Acs.Data.Except
import Acs.Omadm.SyncMl
import Acs.Protocol.Identity
import Acs.Store.Base

/-! Fitting a server package into messages no larger than the client's `MaxMsgSize`. -/

namespace Acs.Omadm

/-- A queued `Status` for command `cmdRef` of client message `msgRef`. -/
structure Status where
  cmd : String
  msgRef : String
  cmdRef : String
  code : String
  targetRef : String := ""
deriving DecidableEq

structure Item where
  command : String
  uri : String
  data : String := ""
  fmt : String := ""
  type : String := ""
deriving DecidableEq

inductive Entry
  | status (s : Status)
  | item (i : Item)
deriving DecidableEq

inductive DmError
  | store (e : StoreError)
  | py (e : PyError)
  /-- A stored row of the wrong length. -/
  | malformedRow
  | unknownQueuedCommand (command : String)
  | wbxml (detail : String)
  | messageTooLarge (size : Nat) (limit : Int)
  | challengeTooLarge (size : Nat) (limit : Int)
  | packageTooLarge (size : Nat)

namespace Package

def maxAcknowledgedCommands : Nat := 100

def maxMessagesPerPackage : Int := 128

def maxStoredBytes : Nat := 32 * 1024

def toRow : Entry → List String
  | .status s => ["Status", s.cmd, s.msgRef, s.cmdRef, s.code, s.targetRef]
  | .item i => [i.command, i.uri, i.data, i.fmt, i.type]

def jsonWidth (c : Char) : Nat :=
  if c ∈ ['"', '\\', '\n', '\r', '\t', '\x08', '\x0c'] then 2
  else if 0x20 ≤ c.toNat ∧ c.toNat ≤ 0x7e then 1
  else if c.toNat < 0x10000 then 6
  else 12

def jsonString (s : String) : Nat := 2 + (s.toList.map jsonWidth).sum

def jsonList (widths : List Nat) : Nat := 2 + widths.sum + (widths.length - 1)

def jsonSize (rows : List (List String)) : Nat :=
  jsonList (rows.map fun row => jsonList (row.map jsonString))

def toStored (entries : List Entry) : Except DmError (List (List String)) :=
  let rows := entries.map toRow
  let size := jsonSize rows
  if maxStoredBytes < size then .error (.packageTooLarge size) else .ok rows

/-- A row of any other length raises. -/
def fromRow : List String → Except DmError Entry
  | ["Status", cmd, msgRef, cmdRef, code] => .ok (.status { cmd, msgRef, cmdRef, code })
  | ["Status", cmd, msgRef, cmdRef, code, targetRef] =>
    .ok (.status { cmd, msgRef, cmdRef, code, targetRef })
  | "Status" :: _ => .error .malformedRow
  | [command, uri] => .ok (.item { command, uri })
  | [command, uri, data] => .ok (.item { command, uri, data })
  | [command, uri, data, fmt] => .ok (.item { command, uri, data, fmt })
  | [command, uri, data, fmt, type] => .ok (.item { command, uri, data, fmt, type })
  | [] => .error .malformedRow
  | _ => .error .malformedRow

def fromStored (rows : List (List String)) : Except DmError (List Entry) := rows.mapM fromRow

def groupOf (command : String) : List Entry → List Item × List Entry
  | .item i :: rest =>
    if i.command = command then (i :: (groupOf command rest).1, (groupOf command rest).2)
    else ([], .item i :: rest)
  | entries => ([], entries)

def applyGroup (builder : SyncMlBuilder) (command : String) (group : List Item) :
    Except DmError SyncMlBuilder :=
  let values := group.map fun i => (i.uri, i.data, i.fmt, i.type)
  if command = "Get" then .ok (builder.get (group.map Item.uri))
  else if command = "Add" then .ok (builder.add values)
  else if command = "Replace" then .ok (builder.replace values)
  else .error (.unknownQueuedCommand command)

/-- The loop of `apply`; every round takes at least one entry. -/
def applyRounds : Nat → SyncMlBuilder → List Entry → Except DmError SyncMlBuilder
  | 0, builder, _ => .ok builder
  | _ + 1, builder, [] => .ok builder
  | rounds + 1, builder, .status s :: rest =>
    applyRounds rounds (builder.status s.cmd s.msgRef s.cmdRef s.code s.targetRef) rest
  | rounds + 1, builder, .item i :: rest => do
    let (group, after) := groupOf i.command rest
    let builder ← applyGroup builder i.command (i :: group)
    applyRounds rounds builder after

def apply (builder : SyncMlBuilder) (entries : List Entry) : Except DmError SyncMlBuilder :=
  applyRounds entries.length builder entries

section Fill
variable (build : Nat → Except DmError Bytes) (limit : Int)

def fits (body : Bytes) : Bool := (body.length : Int) ≤ limit

/-- Gallop up from `sent`, doubling the step: what fits with its message, and the smallest count
known not to fit. -/
def gallop : Nat → Nat → Bytes → Nat → Nat → Except DmError (Bytes × Nat × Nat)
  | 0, sent, best, tooMany, _ => .ok (best, sent, tooMany)
  | rounds + 1, sent, best, tooMany, step =>
    if sent + step < tooMany then do
      let body ← build (sent + step)
      if !fits limit body then return (best, sent, sent + step)
      else gallop rounds (sent + step) body tooMany (step * 2)
    else .ok (best, sent, tooMany)

def bisect : Nat → Nat → Bytes → Nat → Except DmError (Bytes × Nat)
  | 0, sent, best, _ => .ok (best, sent)
  | rounds + 1, sent, best, tooMany =>
    if 1 < tooMany - sent then do
      let probe := (sent + tooMany) / 2
      let body ← build probe
      if fits limit body then bisect rounds probe body tooMany else bisect rounds sent best probe
    else .ok (best, sent)

def search (count required : Nat) : Except DmError (Bytes × Nat) := do
  let best ← build required
  if !fits limit best then .error (.messageTooLarge best.length limit)
  else
    let tooMany := if required < count then count else count + 1
    let (best, sent, tooMany) ← gallop build limit tooMany required best tooMany 1
    bisect build limit tooMany sent best tooMany

/-- The next message, and how many of the `count` queued entries it holds. -/
def fill (count required : Nat) : Except DmError (Bytes × Nat) := do
  if required < count then
    let whole ← build count
    if fits limit whole then return (whole, count) else search build limit count required
  else search build limit count required

variable {build limit}

/-- The count `n` fits, and `body` is its message. -/
structure Fitting (build : Nat → Except DmError Bytes) (limit : Int) (body : Bytes) (n : Nat) :
    Prop where
  built : build n = .ok body
  fits : (body.length : Int) ≤ limit

theorem gallop_fitting {rounds sent tooMany step sent' tooMany' : Nat} {best best' : Bytes}
    (h : gallop build limit rounds sent best tooMany step = .ok (best', sent', tooMany'))
    (hbest : Fitting build limit best sent) (hle : sent < tooMany) :
    Fitting build limit best' sent' ∧ sent ≤ sent' ∧ sent' < tooMany' ∧ tooMany' ≤ tooMany := by
  induction rounds generalizing sent best step with
  | zero =>
    obtain ⟨rfl, rfl, rfl⟩ : best = best' ∧ sent = sent' ∧ tooMany = tooMany' := by
      simpa [gallop] using h
    exact ⟨hbest, Nat.le_refl _, hle, Nat.le_refl _⟩
  | succ rounds ih =>
    unfold gallop at h
    split_ifs at h with hmore
    · obtain ⟨body, hbody, h⟩ := Except.bind_eq_ok.mp h
      split_ifs at h with hfits
      · obtain ⟨rfl, rfl, rfl⟩ : best = best' ∧ sent = sent' ∧ sent + step = tooMany' := by
          simpa using h
        have hstep : step ≠ 0 := by
          rintro rfl
          have hsame : best = body := by
            rw [Nat.add_zero, hbest.built] at hbody
            exact Except.ok.inj hbody
          subst hsame
          simp [fits, hbest.fits] at hfits
        exact ⟨hbest, Nat.le_refl _, by omega, Nat.le_of_lt hmore⟩
      · have hbody' : Fitting build limit body (sent + step) :=
          ⟨hbody, by simpa [fits] using hfits⟩
        obtain ⟨hfit, hsent, hlt, hmany⟩ := ih h hbody' hmore
        exact ⟨hfit, by omega, hlt, hmany⟩
    · obtain ⟨rfl, rfl, rfl⟩ : best = best' ∧ sent = sent' ∧ tooMany = tooMany' := by
        simpa using h
      exact ⟨hbest, Nat.le_refl _, hle, Nat.le_refl _⟩

theorem bisect_fitting {rounds sent tooMany n : Nat} {best body : Bytes}
    (h : bisect build limit rounds sent best tooMany = .ok (body, n))
    (hbest : Fitting build limit best sent) (hle : sent < tooMany) :
    Fitting build limit body n ∧ sent ≤ n ∧ n < tooMany := by
  induction rounds generalizing sent best tooMany with
  | zero =>
    obtain ⟨rfl, rfl⟩ : best = body ∧ sent = n := by simpa [bisect] using h
    exact ⟨hbest, Nat.le_refl _, hle⟩
  | succ rounds ih =>
    unfold bisect at h
    split_ifs at h with hmore
    · obtain ⟨probed, hprobed, h⟩ := Except.bind_eq_ok.mp h
      split_ifs at h with hfits
      · have hprobe : Fitting build limit probed ((sent + tooMany) / 2) :=
          ⟨hprobed, by simpa [fits] using hfits⟩
        obtain ⟨hfit, hsent, hlt⟩ := ih h hprobe (by omega)
        exact ⟨hfit, by omega, hlt⟩
      · obtain ⟨hfit, hsent, hlt⟩ := ih h hbest (by omega)
        exact ⟨hfit, hsent, by omega⟩
    · obtain ⟨rfl, rfl⟩ : best = body ∧ sent = n := by simpa using h
      exact ⟨hbest, Nat.le_refl _, hle⟩

theorem search_fitting {count required n : Nat} {body : Bytes}
    (h : search build limit count required = .ok (body, n)) :
    Fitting build limit body n ∧ required ≤ n ∧ (required ≤ count → n ≤ count) := by
  obtain ⟨best, hbest, h⟩ := Except.bind_eq_ok.mp h
  by_cases hfits : fits limit best = true
  · have hfitting : Fitting build limit best required := ⟨hbest, by simpa [fits] using hfits⟩
    simp only [hfits, Bool.not_true, Bool.false_eq_true, if_false] at h
    by_cases hle : required ≤ count
    · obtain ⟨⟨best', sent, tooMany⟩, hgallop, h⟩ := Except.bind_eq_ok.mp h
      change bisect build limit tooMany sent best' tooMany = .ok (body, n) at h
      have hstart : required < (if required < count then count else count + 1) := by
        split_ifs <;> omega
      obtain ⟨hfit, hsent, hlt, hmany⟩ := gallop_fitting hgallop hfitting hstart
      obtain ⟨hfit', hn, hlt'⟩ := bisect_fitting h hfit hlt
      have hcount : (if required < count then count else count + 1) ≤ count + 1 := by
        split_ifs <;> omega
      exact ⟨hfit', by omega, fun _ => by omega⟩
    · -- with more required than there is, neither loop makes a round
      have hmany : ¬ required < count := by omega
      have hgallop : ¬ required + 1 < count + 1 := by omega
      have hbisect : ¬ 1 < count + 1 - required := by omega
      rw [if_neg hmany, gallop, if_neg hgallop] at h
      change bisect build limit (count + 1) required best (count + 1) = .ok (body, n) at h
      rw [bisect, if_neg hbisect] at h
      obtain ⟨rfl, rfl⟩ : best = body ∧ required = n := by simpa using h
      exact ⟨hfitting, Nat.le_refl _, fun h => absurd h hle⟩
  · simp [hfits] at h

theorem fill_fitting {count required n : Nat} {body : Bytes}
    (h : fill build limit count required = .ok (body, n)) :
    Fitting build limit body n ∧ required ≤ n ∧ (required ≤ count → n ≤ count) := by
  unfold fill at h
  split_ifs at h with hlt
  · obtain ⟨whole, hwhole, h⟩ := Except.bind_eq_ok.mp h
    split_ifs at h with hfits
    · obtain ⟨rfl, rfl⟩ : whole = body ∧ count = n := by simpa using h
      exact ⟨⟨hwhole, by simpa [fits] using hfits⟩, Nat.le_of_lt hlt, fun _ => Nat.le_refl _⟩
    · exact search_fitting h
  · exact search_fitting h

end Fill

end Package
end Acs.Omadm
