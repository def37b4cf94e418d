import Acs.Omadm.Attempts
import Acs.Omadm.Transparency

/-! The part of a package that an answer carries, whatever else happens while it is given. -/

namespace Acs.Omadm
open Interleave Package

namespace DmService
variable {service : DmService} {key : String} {a : Attempt} {message : SyncMlMessage}
  {session session' : DmSession} {encode : Encoder} {pending : Option DmPendingPackage}
  {subscribers : String → Option Subscriber} {device : Device} {outcome : DmResponse}
  {base changes : DmChanges} {queue rest : List Entry} {required : Nat} {body : Bytes}
  {header : String × Option (String × String)}

/-- What an accepted message is answered from, and how many of the entries the answer must hold:
the unsent part of the package under way, or the package that the message starts. -/
def answerQueue (service : DmService) (message : SyncMlMessage) (session : DmSession)
    (pending : Option DmPendingPackage) (subscribers : String → Option Subscriber) :
    Except DmError (List Entry × Nat) :=
  match pending with
  | some p => do
    let unsent ← fromStored p.entries
    return (service.acks message ++ unsent, (service.acks message).length + 1)
  | none => do
    let queue ← (service.packageQueue message session subscribers).mapError DmError.py
    return (queue, min 1 queue.length)

/-- The answer to a message of the session holds this part of what it is answered from. -/
def Carries (service : DmService) (key : String) (a : Attempt) (body : Bytes)
    (part : List Entry) : Prop :=
  ∃ w session queue required rest, Weathered key a.before w a.trace ∧ Ongoing a.message ∧
    service.Opens a.message a.before.store.subscribers (w.store.dmSessions key) session ∧
    service.answerQueue a.message session
      (currentRemainder session (w.store.dmPending key)).1 a.before.store.subscribers =
        .ok (queue, required) ∧
    service.nextMessage a.message session queue a.encode required (service.headerStatus session) =
      .ok (body, rest) ∧
    queue = part ++ rest

theorem nextMessage_congr (h : session'.deviceId = session.deviceId) :
    service.nextMessage message session' queue encode required header =
      service.nextMessage message session queue encode required header := by
  have hbuilder : service.newBuilder message session' = service.newBuilder message session := by
    unfold newBuilder
    rw [h]
  unfold nextMessage messageTree
  rw [hbuilder]

theorem counted_deviceId : (counted message session).deviceId = session.deviceId := by
  unfold counted
  split_ifs
  · rfl
  · rfl

theorem headerStatus_counted :
    service.headerStatus (counted message session) = service.headerStatus session := by
  unfold counted
  split_ifs
  · rfl
  · rfl

theorem nextMessage_split
    (h : service.nextMessage message session queue encode required header = .ok (body, rest)) :
    ∃ part, queue = part ++ rest := by
  obtain ⟨n, -, -, -, hrest, -, -⟩ := (nextMessage_sends h).split
  exact ⟨queue.take n, by rw [hrest, List.take_append_drop]⟩

section Answers
variable {w : World} (hweathered : Weathered key a.before w a.trace)
  (hongoing : Ongoing a.message)
  (hopens : service.Opens a.message a.before.store.subscribers (w.store.dmSessions key) session)
include hweathered hongoing hopens

theorem carries_starts {started : Option DmPendingPackage}
    (hpending : (currentRemainder session (w.store.dmPending key)).1 = none)
    (hqueue : service.packageQueue a.message session a.before.store.subscribers = .ok queue)
    (h : Starts service a.message session' a.encode queue rest body started)
    (hdevice : session'.deviceId = session.deviceId)
    (hheader : service.headerStatus session' = service.headerStatus session) :
    ∃ part, queue = part ++ rest ∧ service.Carries key a body part := by
  obtain ⟨part, hpart⟩ := nextMessage_split h.next
  refine ⟨part, hpart, w, session, queue, min 1 queue.length, rest, hweathered, hongoing, hopens,
    ?_, ?_, hpart⟩
  · rw [hpending, answerQueue, hqueue]
    rfl
  · rw [← nextMessage_congr hdevice, ← hheader]
    exact h.next

theorem carries_continued {p : DmPendingPackage} {unsent : List Entry}
    (hpending : (currentRemainder session (w.store.dmPending key)).1 = some p)
    (hunsent : fromStored p.entries = .ok unsent)
    (h : service.nextMessage a.message (counted a.message session)
      (service.acks a.message ++ unsent) a.encode ((service.acks a.message).length + 1)
      (service.headerStatus (counted a.message session)) = .ok (body, rest)) :
    ∃ part, service.acks a.message ++ unsent = part ++ rest ∧ service.Carries key a body part := by
  obtain ⟨part, hpart⟩ := nextMessage_split h
  refine ⟨part, hpart, w, session, _, (service.acks a.message).length + 1, rest, hweathered,
    hongoing, hopens, ?_, ?_, hpart⟩
  · rw [hpending, answerQueue, hunsent]
    rfl
  · rw [← nextMessage_congr counted_deviceId, ← headerStatus_counted]
    exact h

end Answers

end DmService
end Acs.Omadm
