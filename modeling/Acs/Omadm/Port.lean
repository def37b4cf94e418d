import Acs.Interleave.Exec
import Acs.Omadm.Package
import Acs.Store.Memory

/-! What the DM plane asks of its store, of the clock and of the random generator. -/

namespace Acs.Omadm
open Interleave

inductive DmWrite
  | putDevice (device : Device)
  | putDmSession (session : DmSession)
  | deleteDmSession (sessionId : String)
  | putDmPending (pending : DmPendingPackage)
  | deleteDmPending (sessionId : String)

inductive DmOp
  | getSubscriber (imsi : String)
  | getDmSession (sessionId : String)
  | getDmPending (sessionId : String)
  | getDevice (deviceId : String)
  | write (w : DmWrite)
  | now
  | makeNonce

/-- Every call of the store may raise instead. -/
@[reducible] def DmOp.Answer : DmOp → Type
  | .getSubscriber _ => Except StoreError (Option Subscriber)
  | .getDmSession _ => Except StoreError (Option DmSession)
  | .getDmPending _ => Except StoreError (Option DmPendingPackage)
  | .getDevice _ => Except StoreError (Option Device)
  | .write _ => Except StoreError Unit
  | .now => Clock
  | .makeNonce => String

abbrev DmProgram := Fallible DmOp DmOp.Answer DmError

namespace Dm

def raising {α : Type} (p : Program DmOp DmOp.Answer (Except StoreError α)) : DmProgram α :=
  ExceptT.mk (p >>= fun ans => .result (ans.mapError DmError.store))

def getSubscriber (imsi : String) : DmProgram (Option Subscriber) :=
  raising (.perform (DmOp.getSubscriber imsi))

def getDmSession (sessionId : String) : DmProgram (Option DmSession) :=
  raising (.perform (DmOp.getDmSession sessionId))

def getDmPending (sessionId : String) : DmProgram (Option DmPendingPackage) :=
  raising (.perform (DmOp.getDmPending sessionId))

def getDevice (deviceId : String) : DmProgram (Option Device) :=
  raising (.perform (DmOp.getDevice deviceId))

def write (w : DmWrite) : DmProgram Unit := raising (.perform (DmOp.write w))

def now : DmProgram Clock := ExceptT.lift (.perform DmOp.now)

def makeNonce : DmProgram String := ExceptT.lift (.perform DmOp.makeNonce)

def ofExcept {α : Type} (x : Except DmError α) : DmProgram α := ExceptT.mk (.result x)

end Dm

open Function in
def DmWrite.apply : DmWrite → MemoryStore → MemoryStore
  | .putDevice d, m => { m with devices := update m.devices d.deviceId (some d) }
  | .putDmSession s, m => m.putDmSession s
  | .deleteDmSession id, m => m.deleteDmSession id
  | .putDmPending p, m => m.putDmPending p
  | .deleteDmPending id, m => m.deleteDmPending id

namespace DmOp

/-- One operation that does not fail, at a time and with a fresh nonce; a record that has lapsed
counts as absent. -/
def exec (clock : Clock) (nonce : String) : (op : DmOp) → MemoryStore → op.Answer × MemoryStore
  | .getSubscriber imsi, m => (.ok (m.subscribers imsi), m)
  | .getDmSession id, m => (.ok (m.getDmSession id clock).1, (m.getDmSession id clock).2)
  | .getDmPending id, m => (.ok (m.getDmPending id clock).1, (m.getDmPending id clock).2)
  | .getDevice deviceId, m => (.ok (m.devices deviceId), m)
  | .write w, m => (.ok (), w.apply m)
  | .now, m => (clock, m)
  | .makeNonce, m => (nonce, m)

def Failed : (op : DmOp) → op.Answer → Prop
  | .getSubscriber _, ans => ∃ e, ans = .error e
  | .getDmSession _, ans => ∃ e, ans = .error e
  | .getDmPending _, ans => ∃ e, ans = .error e
  | .getDevice _, ans => ∃ e, ans = .error e
  | .write _, ans => ∃ e, ans = .error e
  | .now, _ => False
  | .makeNonce, _ => False

end DmOp

structure World where
  store : MemoryStore
  clock : Clock

/-- Any operation: some time passes, and then it is performed, or it raises and nothing is
written. -/
def Weather : Effect DmOp DmOp.Answer World := fun op w ans w' =>
  w.clock.now ≤ w'.clock.now ∧
    (op.Failed ans ∧ w'.store = w.store ∨
      ∃ nonce, op.exec w'.clock nonce w.store = (ans, w'.store))

/-- An operation that is performed. -/
def Fair : Effect DmOp DmOp.Answer World := fun op w ans w' =>
  w.clock.now ≤ w'.clock.now ∧ ∃ nonce, op.exec w'.clock nonce w.store = (ans, w'.store)

end Acs.Omadm
