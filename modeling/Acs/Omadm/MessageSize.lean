import Acs.Omadm.Commit
import Acs.Omadm.Forecast

/-! The message size limit: every answer is a message that was measured as it was built. -/

namespace Acs.Omadm
open Interleave

namespace DmService
variable {service : DmService} {message : SyncMlMessage} {session : DmSession} {encode : Encoder}

/-- A body that `_next_message` returned for the message. -/
def Built (service : DmService) (message : SyncMlMessage) (encode : Encoder) (body : Bytes) :
    Prop :=
  ∃ session queue required header rest,
    service.nextMessage message session queue encode required header = .ok (body, rest)

theorem Built.fits {body : Bytes} (h : Built service message encode body) :
    (body.length : Int) ≤ service.maxMsgSize message ∧ ∃ xml, encode xml = .ok body := by
  obtain ⟨session, queue, required, header, rest, h⟩ := h
  have hsends := nextMessage_sends h
  obtain ⟨n, tree, -, -, -, -, htree⟩ := hsends.split
  obtain ⟨xml, -, hxml⟩ := Except.bind_eq_ok.mp htree
  refine ⟨hsends.fits, xml, ?_⟩
  cases hencoded : encode xml with
  | error e => simp [hencoded, Except.mapError] at hxml
  | ok encoded =>
    rw [hencoded] at hxml
    exact congrArg _ (Except.ok.inj hxml)

variable {changes changes' : DmChanges} {outcome : DmResponse} {device : Device}

theorem answers_built {pending : Option DmPendingPackage}
    {subscribers : String → Option Subscriber}
    (h : Answers service message session encode pending changes subscribers device outcome changes')
    (h200 : outcome.statusCode = 200) : Built service message encode outcome.body := by
  cases h with
  | ended _ _ body _ hnext => exact ⟨_, _, _, _, _, hnext⟩
  | tooManyMessages => cases h200
  | continued p _ _ _ _ _ hsend =>
    obtain ⟨unsent, body, rest, -, hnext, hcontinues⟩ := sendNext_ok hsend
    rw [hcontinues.body_eq]
    exact ⟨_, _, _, _, _, hnext⟩
  | noAlert => cases h200
  | inventory _ _ _ _ _ hinventory =>
    obtain ⟨rest, body, pending, hstarts, rfl, -⟩ := requestInventory_ok hinventory
    exact ⟨_, _, _, _, _, hstarts.next⟩
  | configuration _ _ _ _ _ hpush =>
    obtain ⟨values, rest, body, pending, -, hstarts, rfl, -⟩ := pushConfiguration_ok hpush
    exact ⟨_, _, _, _, _, hstarts.next⟩
  | finish _ _ _ _ _ _ hfinish =>
    obtain ⟨rest, body, pending, hstarts, hfinishes⟩ := handleFinish_ok hfinish
    rw [hfinishes.body_eq]
    exact ⟨_, _, _, _, _, hstarts.next⟩

theorem handled_built {w w' : World} {r : Except DmError (DmResponse × DmChanges)}
    (h : service.Handled message encode w w' r) (hr : r = .ok (outcome, changes'))
    (h200 : outcome.statusCode = 200) : Built service message encode outcome.body := by
  cases h with
  | unnumbered =>
    obtain ⟨rfl, -⟩ := Prod.mk.inj (Except.ok.inj hr)
    cases h200
  | rejected =>
    obtain ⟨body, rest, hnext, rfl, -⟩ := rejectMessage_ok hr
    exact ⟨_, _, _, _, _, hnext⟩
  | accepted clock session username device =>
    obtain ⟨number, -, hr⟩ := Except.bind_eq_ok.mp hr
    dsimp only at hr
    split_ifs at hr
    · obtain ⟨rfl, -⟩ := Prod.mk.inj (Except.ok.inj hr)
      cases h200
    · exact answers_built (answer_answers hr) h200

theorem read_status {payload : Bytes} {contentType : String} {response : DmResponse}
    (h : service.read payload contentType = .error response) : response.statusCode ≠ 200 := by
  unfold read at h
  dsimp only at h
  split_ifs at h
  · obtain rfl := Except.error.inj h
    decide
  · obtain rfl := Except.error.inj h
    decide
  · obtain rfl := Except.error.inj h
    decide
  all_goals
    split at h
    · obtain rfl := Except.error.inj h
      simp
    · cases h

/-- Whatever the store does, a body that is answered 200 is, as it is sent, within the server's
limit and the client's. -/
theorem handle_within_limit {payload : Bytes} {contentType : String} {w w' : World}
    {tr : List (Event DmOp.Answer)} {response : DmResponse}
    (h : Exec Weather (service.handle payload contentType).run w tr (.ok response) w')
    (h200 : response.statusCode = 200) :
    ∃ message binary encode, service.read payload contentType = .ok (message, binary, encode) ∧
      (∃ xml, encode xml = .ok response.body) ∧
      (response.body.length : Int) ≤ service.settings.dmMaxMsgSize ∧
      (message.header.maxMsgSize ≠ 0 →
        (response.body.length : Int) ≤ message.header.maxMsgSize) := by
  rcases exec_handle h with
    ⟨refused, hread, -, hr, -⟩ | ⟨message, binary, encode, hread, hrespond⟩
  · obtain rfl := Except.ok.inj hr
    exact absurd h200 (read_status hread)
  · have hbuilt : Built service message encode response.body := by
      obtain ⟨w₁, tr₁, tr₂, outcome, changes, -, hhandle, -, rfl⟩ :=
        exec_respond_answered (fun _ _ _ _ h => h) hrespond h200
      obtain ⟨-, -, hhandled⟩ := handled_of_exec (fun _ _ _ _ h => h) hhandle
      rw [sent_body]
      rw [sent_statusCode] at h200
      exact handled_built hhandled rfl h200
    obtain ⟨hsize, hxml⟩ := hbuilt.fits
    refine ⟨message, binary, encode, hread, hxml, ?_, fun hclient => ?_⟩
    · unfold maxMsgSize at hsize
      split_ifs at hsize
      · exact hsize.trans (min_le_left _ _)
      · exact hsize
    · unfold maxMsgSize at hsize
      rw [if_pos hclient] at hsize
      exact hsize.trans (min_le_right _ _)

/-- A handset that takes 1024 bytes opens a session. -/
theorem handle_within_limit_of_first_message :
    let first := Lab.message Lab.login "1" "1024" [Lab.alert alertClientInitiatedMgmt]
    ∃ response tr w, Exec Weather ((Lab.service [first]).handle (printed "" first) contentTypeXml).run
        Lab.world tr (.ok response) w ∧
      response.metric = "DmInventoryRequested" ∧ (response.body.length : Int) ≤ 1024 := by
  intro first
  have hmetric : metricOf ((Lab.service [first]).foresee (printed "" first) contentTypeXml
      ⟨Lab.world, []⟩).1 = some (200, "DmInventoryRequested") := by decide +kernel
  have hlimit : ((Lab.service [first]).read (printed "" first) contentTypeXml).toOption.map
      (·.1.header.maxMsgSize) = some 1024 := by decide +kernel
  obtain ⟨tr, hexec⟩ := exec_foresee (Lab.service [first]) (printed "" first) contentTypeXml
    ⟨Lab.world, []⟩
  obtain ⟨response, hr, hstatus, hresponse⟩ := ok_of_metricOf hmetric
  rw [hr] at hexec
  obtain ⟨message, binary, encode, hread, -, -, hclient⟩ := handle_within_limit hexec hstatus
  rw [hread] at hlimit
  have hmax : message.header.maxMsgSize = 1024 := Option.some.inj hlimit
  refine ⟨response, tr, _, hexec, hresponse, ?_⟩
  rw [hmax] at hclient
  exact hclient (by decide)

end DmService
end Acs.Omadm
