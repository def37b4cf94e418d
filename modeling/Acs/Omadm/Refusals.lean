import Acs.Omadm.Commit
import Acs.Omadm.Forecast

/-! A refused request leaves the records as they are. -/

namespace Acs.Omadm
open Interleave

/-- The remainder of a session that has gone on to another phase. -/
def Superseded (service : DmService) (message : SyncMlMessage) (w : World) (id : String) : Prop :=
  ∃ session p, service.Loads message w session ∧ session.sessionId = id ∧
    w.store.dmPending id = some p ∧ p.phase ≠ session.phase

/-- The records are the same, but for those that had expired and for a superseded remainder. -/
structure Untouched (superseded : String → Prop) (w w' : World) : Prop where
  kept : w'.store =
    { w.store with dmSessions := w'.store.dmSessions, dmPending := w'.store.dmPending }
  sessions : ∀ id, Faded DmSession.expiresAt w'.clock (w.store.dmSessions id)
    (w'.store.dmSessions id)
  pending : ∀ id, Faded DmPendingPackage.expiresAt w'.clock (w.store.dmPending id)
      (w'.store.dmPending id) ∨ superseded id ∧ w'.store.dmPending id = none

theorem Reads.untouched {superseded : String → Prop} {w w' : World} (h : Reads w w') :
    Untouched superseded w w' := ⟨h.kept, h.sessions, fun id => Or.inl (h.pending id)⟩

theorem Reads.untouched_delete {superseded : String → Prop} {w w₁ w' : World} {id : String}
    (h : Reads w w₁) (htime : w₁.clock.now ≤ w'.clock.now)
    (hstore : w'.store = w₁.store.deleteDmPending id) (hid : superseded id) :
    Untouched superseded w w' := by
  constructor
  · rw [hstore]
    exact congrArg (fun m : MemoryStore => m.deleteDmPending id) h.kept
  · intro key
    rw [hstore]
    exact (h.sessions key).mono htime
  · intro key
    rw [hstore]
    by_cases hkey : key = id
    · subst hkey
      exact Or.inr ⟨hid, by simp⟩
    · left
      rw [MemoryStore.deleteDmPending_dmPending, Function.update_of_ne hkey]
      exact (h.pending key).mono htime

namespace DmService
variable {service : DmService} {message : SyncMlMessage} {encode : Encoder}
  {outcome : DmResponse} {changes : DmChanges} {w w' : World}

theorem handled_writes {r : Except DmError (DmResponse × DmChanges)}
    (h : service.Handled message encode w w' r) (hreads : Reads w w')
    (hr : r = .ok (outcome, changes)) (hstatus : outcome.statusCode ≠ 200) :
    changes.writes = [] ∨
      (∃ id, Superseded service message w id ∧ changes.writes = [.deleteDmPending id]) ∨
      outcome.statusCode = 413 ∧ outcome.detail = "too_many_messages" := by
  cases h with
  | unnumbered =>
    obtain ⟨-, rfl⟩ := Prod.mk.inj (Except.ok.inj hr)
    exact Or.inl rfl
  | rejected =>
    obtain ⟨body, rest, -, rfl, -⟩ := rejectMessage_ok hr
    exact absurd rfl hstatus
  | accepted clock session username device hloads =>
    obtain ⟨number, -, hr⟩ := Except.bind_eq_ok.mp hr
    dsimp only at hr
    split_ifs at hr
    · obtain ⟨-, rfl⟩ := Prod.mk.inj (Except.ok.inj hr)
      exact Or.inl rfl
    · cases answer_answers hr with
      | ended => exact absurd rfl hstatus
      | tooManyMessages => exact Or.inr (Or.inr ⟨rfl, rfl⟩)
      | continued p _ _ _ _ _ hsend =>
        obtain ⟨unsent, body, rest, -, -, hcontinues⟩ := sendNext_ok hsend
        exact absurd hcontinues.status hstatus
      | noAlert _ _ _ =>
        -- all that is left to do is what `currentRemainder` found
        cases hstored : w'.store.dmPending session.sessionId with
        | none => exact Or.inl rfl
        | some p =>
          unfold currentRemainder
          dsimp only
          split_ifs with hphase
          · by_cases hid : session.sessionId = ""
            · left
              simp [DmChanges.writes, DmChanges.saveRemainder, DmChanges.saveSession,
                acceptedSession, hid]
            · refine Or.inr (Or.inl ⟨session.sessionId, ⟨session, p, hloads, rfl, ?_, hphase⟩, ?_⟩)
              · rcases hreads.pending session.sessionId with hsame | ⟨hnone, -⟩
                · rw [← hsame, hstored]
                · rw [hstored] at hnone
                  cases hnone
              · simp [DmChanges.writes, DmChanges.saveRemainder, DmChanges.saveSession,
                  acceptedSession, hid]
          · exact Or.inl rfl
      | inventory _ _ _ _ _ hinventory =>
        obtain ⟨rest, body, pending, -, rfl, -⟩ := requestInventory_ok hinventory
        exact absurd rfl hstatus
      | configuration _ _ _ _ _ hpush =>
        obtain ⟨values, rest, body, pending, -, -, rfl, -⟩ := pushConfiguration_ok hpush
        exact absurd rfl hstatus
      | finish _ _ _ _ _ _ hfinish =>
        obtain ⟨rest, body, pending, -, hfinishes⟩ := handleFinish_ok hfinish
        exact absurd hfinishes.status hstatus

theorem respond_untouched {binary : Bool} {tr : List (Event DmOp.Answer)}
    {r : Except DmError DmResponse}
    (h : Exec Weather (service.respond message binary encode).run w tr r w')
    (hr : (∃ response, r = .ok response ∧ response.statusCode ≠ 200 ∧
        ¬ (response.statusCode = 413 ∧ response.detail = "too_many_messages")) ∨
      (∃ e, r = .error e) ∧ ∀ e ∈ tr, e.1.IsRead) :
    Untouched (Superseded service message w) w w' := by
  cases exec_respond (fun _ _ _ _ h => h) h with
  | raised _ _ _ hreads => exact hreads.untouched
  | refused _ _ _ _ hreads => exact hreads.untouched
  | answered w₁ tr tr' outcome changes done rest r _ hreads hhandled hwrites hcommitted =>
    rcases hcommitted.result with ⟨rfl, rfl⟩ | ⟨hrest, e, rfl, -⟩
    · rcases hr with ⟨response, hr, hstatus, hmany⟩ | ⟨⟨e, he⟩, -⟩
      · obtain rfl := Except.ok.inj hr
        rw [sent_statusCode] at hstatus hmany
        rw [sent_detail] at hmany
        rw [List.append_nil] at hwrites
        have hstore := hcommitted.store
        rw [← hwrites] at hstore
        rcases handled_writes hhandled hreads rfl hstatus with hnone | ⟨id, hid, hdelete⟩ | htoo
        · rw [hnone] at hstore
          exact (hreads.trans (.of_store_eq hcommitted.time hstore)).untouched
        · rw [hdelete] at hstore
          exact hreads.untouched_delete hcommitted.time hstore hid
        · exact absurd htoo hmany
      · cases he
    · -- the write that raised is in the trace
      rcases hr with ⟨response, hr, -⟩ | ⟨-, htr⟩
      · cases hr
      · obtain ⟨write, rest, rfl⟩ := List.exists_cons_of_ne_nil hrest
        have hmem : DmOp.write write ∈ tr'.map Sigma.fst := by
          rw [hcommitted.trace]
          simp
        obtain ⟨event, hevent, hop⟩ := List.mem_map.mp hmem
        have hread := htr event (List.mem_append_right _ hevent)
        rw [hop] at hread
        exact hread.elim

/-- A request that is answered otherwise than 200, or that raises before anything is written,
leaves the records as they are. -/
theorem refused_untouched {payload : Bytes} {contentType : String} {tr : List (Event DmOp.Answer)}
    {r : Except DmError DmResponse}
    (h : Exec Weather (service.handle payload contentType).run w tr r w')
    (hr : (∃ response, r = .ok response ∧ response.statusCode ≠ 200 ∧
        ¬ (response.statusCode = 413 ∧ response.detail = "too_many_messages")) ∨
      (∃ e, r = .error e) ∧ ∀ e ∈ tr, e.1.IsRead) :
    Untouched (fun id => ∃ message binary encode,
      service.read payload contentType = .ok (message, binary, encode) ∧
        Superseded service message w id) w w' := by
  rcases exec_handle h with
    ⟨refused, -, -, -, rfl⟩ | ⟨message, binary, encode, hread, hrespond⟩
  · exact (Reads.refl _).untouched
  · obtain ⟨hkept, hsessions, hpending⟩ := respond_untouched hrespond hr
    refine ⟨hkept, hsessions, fun id => (hpending id).imp_right ?_⟩
    rintro ⟨hid, hnone⟩
    exact ⟨⟨message, binary, encode, hread, hid⟩, hnone⟩

/-- A handset that takes only 10 bytes of the rest of its configuration is refused, and finds its
session as it was. -/
theorem refused_untouched_of_small :
    let small := Lab.brief "3" [] [Lab.atMost "10"]
    let service := Lab.server [Lab.asks, Lab.takes, small]
    let w := Lab.halfway service Lab.asks Lab.takes
    ∃ tr r w', Exec Weather (service.handle (Lab.sent small) contentTypeXml).run w tr r w' ∧
      metricOf r = some (400, "DmMessageTooLarge") ∧
      (w.store.dmSessions Lab.key).isSome ∧ (w.store.dmPending Lab.key).isSome ∧
      w'.store.dmSessions Lab.key = w.store.dmSessions Lab.key ∧
      w'.store.dmPending Lab.key = w.store.dmPending Lab.key ∧
      w'.store.devices = w.store.devices := by
  intro small service w
  have hchecks : metricOf (service.foresee (Lab.sent small) contentTypeXml ⟨w, []⟩).1 =
        some (400, "DmMessageTooLarge") ∧
      (w.store.dmSessions Lab.key).isSome ∧ (w.store.dmPending Lab.key).isSome ∧
      ((service.foresee (Lab.sent small) contentTypeXml ⟨w, []⟩).2.world.store.dmSessions
        Lab.key).isSome ∧
      ((service.foresee (Lab.sent small) contentTypeXml ⟨w, []⟩).2.world.store.dmPending
        Lab.key).isSome := by decide +kernel
  obtain ⟨hmetric, hsession, hpending, hsession', hpending'⟩ := hchecks
  clear_value w
  obtain ⟨tr, hexec⟩ := exec_foresee service (Lab.sent small) contentTypeXml ⟨w, []⟩
  obtain ⟨response, hr, hstatus, -⟩ := ok_of_metricOf hmetric
  have huntouched := refused_untouched hexec
    (Or.inl ⟨response, hr, by omega, fun h => by omega⟩)
  have hdevices := congrArg MemoryStore.devices huntouched.kept
  have hsame := (huntouched.sessions Lab.key).eq_of_isSome hsession'
  have hsame' := ((huntouched.pending Lab.key).resolve_right ?_).eq_of_isSome hpending'
  · exact ⟨tr, _, _, hexec, hmetric, hsession, hpending, hsame, hsame', hdevices⟩
  · rintro ⟨-, hnone⟩
    rw [hnone] at hpending'
    cases hpending'

end DmService
end Acs.Omadm
